import Codohue.Url
import Mathlib.Logic.Function.Basic

/-!
Patterns of paths, as chi matches them.

The router goes through the path as the client sent it wherever that differs from its default
encoding. A pattern that matches can be filled in again: with the parameters for the text that was
matched, and with the decoded parameters for the decoded text.
-/

namespace Codohue.Router

open Url

/-! ### Patterns -/

inductive Piece where
  | text (t : Bytes)
  | param (name : String)
  deriving DecidableEq, Repr

abbrev Params := List (String × Bytes)

def flush (text : List Char) : List Piece :=
  if text = [] then [] else [.text (bytes (String.ofList text))]

/-- The pieces from a text, or from a name in braces, that is being read. -/
def scan : Bool → List Char → List Char → List Piece
  | false, text, [] => flush text
  | true, _, [] => []
  | false, text, c :: rest =>
    if c = '\x7b' then flush text ++ scan true [] rest else scan false (text ++ [c]) rest
  | true, name, c :: rest =>
    if c = '\x7d' then .param (String.ofList name) :: scan false [] rest
    else scan true (name ++ [c]) rest

def parse (pattern : String) : List Piece := scan false [] pattern.toList

/-- A parameter takes everything up to the next slash. It can be empty, but for the end of the
path. -/
def walk : List Piece → Bytes → Option Params
  | [], path => if path = [] then some [] else none
  | .text t :: pieces, path => (path.dropPrefix? t).bind (walk pieces)
  | .param name :: pieces, path =>
    if path = [] then none
    else (walk pieces (path.dropWhile (· ≠ slash))).map ((name, path.takeWhile (· ≠ slash)) :: ·)

/-- `chi.URLParam`. -/
def urlParam (params : Params) (key : String) : Bytes := (params.reverse.lookup key).getD []

def routePath (u : URL) : Bytes :=
  if u.rawPath ≠ [] then u.rawPath else if u.path ≠ [] then u.path else [slash]

structure Route (H : Type) where
  method : String
  pattern : String
  handler : H
  deriving DecidableEq, Repr

/-- The parameters of a request that the route takes. -/
def Route.bind {H : Type} (route : Route H) (method : String) (u : URL) : Option Params :=
  if route.method = method then walk (parse route.pattern) (routePath u) else none

/-- The patterns agree up to where the one goes on with a text and the other with a parameter. -/
def precedes : List Piece → List Piece → Bool
  | .text _ :: _, .param _ :: _ => true
  | .param _ :: p, .param _ :: q => precedes p q
  | .text t :: p, .text t' :: q => if t = t' then precedes p q else t'.isPrefixOf t && !q.isEmpty
  | _, _ => false

/-- The route that is taken: of those that match, the one that no other precedes. -/
def find {H : Type} (routes : List (Route H)) (method : String) (u : URL) : Option (Route H) :=
  routes.find? fun route => (route.bind method u).isSome && routes.all fun other =>
    (other.bind method u).isNone || !precedes (parse other.pattern) (parse route.pattern)

/-! ### Filling in a pattern -/

def Piece.names : Piece → List String
  | .text _ => []
  | .param name => [name]

def names (pieces : List Piece) : List String := pieces.flatMap Piece.names

def Piece.render (value : String → Bytes) : Piece → Bytes
  | .text t => t
  | .param name => value name

def render (value : String → Bytes) (pieces : List Piece) : Bytes :=
  pieces.flatMap (Piece.render value)

/-- No text of the pattern contains an escape. -/
def Plain (pieces : List Piece) : Bool :=
  pieces.all fun
    | .text t => percent ∉ t
    | .param _ => true

section Render

variable {params : Params} {name key : String} {v : Bytes}

@[simp] lemma names_text_cons (t : Bytes) : names (.text t :: pieces) = names pieces := rfl

@[simp] lemma names_param_cons : names (.param name :: pieces) = name :: names pieces := rfl

lemma render_congr (h : ∀ n ∈ names pieces, f n = g n) : render f pieces = render g pieces := by
  induction pieces with
  | nil => rfl
  | cons p pieces ih =>
    have hr := ih fun n hn => h n (List.mem_append_right _ hn)
    cases p with
    | text t => exact congrArg (t ++ ·) hr
    | param n => exact congrArg₂ (· ++ ·) (h n (List.mem_append_left _ List.mem_cons_self)) hr

lemma lookup_reverse_of_notMem (h : key ∉ params.map Prod.fst) :
    params.reverse.lookup key = none := by
  rw [List.lookup_eq_none_iff]
  intro p hp
  rw [bne_iff_ne]
  rintro rfl
  exact h (List.mem_map_of_mem (List.mem_reverse.mp hp))

lemma urlParam_of_notMem (h : key ∉ params.map Prod.fst) : urlParam params key = [] := by
  rw [urlParam, lookup_reverse_of_notMem h, Option.getD_none]

lemma urlParam_cons_self (h : name ∉ params.map Prod.fst) :
    urlParam ((name, v) :: params) name = v := by
  rw [urlParam, List.reverse_cons, List.lookup_append, lookup_reverse_of_notMem h]
  simp

lemma urlParam_cons_ne (h : key ≠ name) :
    urlParam ((name, v) :: params) key = urlParam params key := by
  rw [urlParam, urlParam, List.reverse_cons, List.lookup_append]
  simp [List.lookup_cons, beq_false_of_ne h]

/-! ### Matches -/

lemma walk_text_eq_some : walk (.text t :: pieces) path = some params ↔
      ∃ rest, path = t ++ rest ∧ walk pieces rest = some params := by
  simp only [walk, Option.bind_eq_some_iff, List.dropPrefix?_eq_some_iff, beq_iff_eq]
  constructor
  · rintro ⟨rest, ⟨_, rfl, rfl⟩, hw⟩
    exact ⟨rest, rfl, hw⟩
  · rintro ⟨rest, rfl, hw⟩
    exact ⟨rest, ⟨t, rfl, rfl⟩, hw⟩

lemma walk_param_eq_some : walk (.param name :: pieces) path = some params ↔
      path ≠ [] ∧ ∃ params', walk pieces (path.dropWhile (· ≠ slash)) = some params' ∧
        params = (name, path.takeWhile (· ≠ slash)) :: params' := by
  rw [walk]
  split_ifs with hp
  · simp [hp]
  · simp only [Option.map_eq_some_iff, ne_eq, hp, not_false_eq_true, true_and]
    exact exists_congr fun params' => and_congr_right fun _ => eq_comm

lemma walk_names (h : walk pieces path = some params) : params.map Prod.fst = names pieces := by
  induction pieces generalizing path params with
  | nil =>
    rw [walk] at h
    split_ifs at h
    cases h
    rfl
  | cons p pieces ih =>
    cases p with
    | text t =>
      obtain ⟨rest, -, hr⟩ := walk_text_eq_some.mp h
      exact ih hr
    | param n =>
      obtain ⟨-, params', hr, rfl⟩ := walk_param_eq_some.mp h
      exact congrArg (n :: ·) (ih hr)

lemma eq_render_of_walk (hno : (names pieces).Nodup) (h : walk pieces path = some params) :
    path = render (urlParam params) pieces := by
  induction pieces generalizing path params with
  | nil =>
    rw [walk] at h
    split_ifs at h with hp
    exact hp
  | cons p pieces ih =>
    cases p with
    | text t =>
      obtain ⟨rest, rfl, hr⟩ := walk_text_eq_some.mp h
      exact congrArg (t ++ ·) (ih hno hr)
    | param n =>
      rw [names_param_cons, List.nodup_cons] at hno
      obtain ⟨hn, hno⟩ := hno
      obtain ⟨-, params', hr, rfl⟩ := walk_param_eq_some.mp h
      rw [← walk_names hr] at hn
      calc path = path.takeWhile (· ≠ slash) ++ path.dropWhile (· ≠ slash) :=
            List.takeWhile_append_dropWhile.symm
        _ = path.takeWhile (· ≠ slash) ++ render (urlParam params') pieces := by
            rw [← ih hno hr]
        _ = _ := ?_
      refine congrArg₂ (· ++ ·) (urlParam_cons_self hn).symm (render_congr fun m hm => ?_)
      refine (urlParam_cons_ne ?_).symm
      rintro rfl
      exact hn (walk_names hr ▸ hm)

lemma unhex_slash : unhex slash = none := by decide

lemma unescape_takeWhile (h : unescape path = some decoded) :
    ∃ a b, unescape (path.takeWhile (· ≠ slash)) = some a ∧
      unescape (path.dropWhile (· ≠ slash)) = some b ∧ decoded = a ++ b := by
  rw [← List.takeWhile_append_dropWhile (p := fun c => c ≠ slash) (l := path)] at h
  cases hr : path.dropWhile (· ≠ slash) with
  | nil =>
    rw [hr, List.append_nil] at h
    exact ⟨decoded, [], h, rfl, (List.append_nil _).symm⟩
  | cons c rest =>
    have hc : decide (c ≠ slash) = false := by
      have hh := List.head?_dropWhile_not (fun c => decide (c ≠ slash)) path
      rwa [hr] at hh
    obtain rfl : c = slash := not_not.mp (of_decide_eq_false hc)
    rw [hr, unescape_append unhex_slash] at h
    obtain ⟨a, ha, h⟩ := Option.bind_eq_some_iff.mp h
    obtain ⟨b, hb, rfl⟩ := Option.map_eq_some_iff.mp h
    exact ⟨a, b, ha, hb, rfl⟩

/-- The text that was matched, once decoded: it is the pattern with decoded parameters. -/
theorem unescape_eq_render (hp : Plain pieces) (hno : (names pieces).Nodup)
    (h : walk pieces path = some params) (hd : unescape path = some decoded) :
    ∃ value, (∀ n, unescape (urlParam params n) = some (value n)) ∧
      decoded = render value pieces := by
  induction pieces generalizing path params decoded with
  | nil =>
    rw [walk] at h
    split_ifs at h with hpa
    cases h
    rw [hpa] at hd
    exact ⟨fun _ => [], fun _ => rfl, (Option.some.inj hd).symm⟩
  | cons p pieces ih =>
    cases p with
    | text t =>
      obtain ⟨ht, hp⟩ : percent ∉ t ∧ Plain pieces := by simpa [Plain] using hp
      obtain ⟨rest, rfl, hr⟩ := walk_text_eq_some.mp h
      rw [unescape_append_plain ht] at hd
      obtain ⟨decoded', hd', rfl⟩ := Option.map_eq_some_iff.mp hd
      obtain ⟨value, hv, rfl⟩ := ih hp hno hr hd'
      exact ⟨value, hv, rfl⟩
    | param n =>
      rw [names_param_cons, List.nodup_cons] at hno
      obtain ⟨hn, hno⟩ := hno
      obtain ⟨-, params', hr, rfl⟩ := walk_param_eq_some.mp h
      obtain ⟨a, b, ha, hb, rfl⟩ := unescape_takeWhile hd
      obtain ⟨value, hv, rfl⟩ := ih hp hno hr hb
      refine ⟨Function.update value n a, fun m => ?_, ?_⟩
      · rcases eq_or_ne m n with rfl | hm
        · rw [urlParam_cons_self (walk_names hr ▸ hn), Function.update_self]
          exact ha
        · rw [urlParam_cons_ne hm, Function.update_of_ne hm]
          exact hv m
      · refine congrArg₂ (· ++ ·) (Function.update_self n a value).symm
          (render_congr fun m hm => ?_)
        have hne : m ≠ n := fun heq => hn (heq ▸ hm)
        exact (Function.update_of_ne hne a value).symm

end Render

end Codohue.Router
