import Mathlib.Data.List.Basic

/-!
Programs whose store operations can fail.

A program runs against a world and a script. Each operation takes one reply from the script; the
reply says whether the operation takes effect, whether its caller hears of it, and whether the
process is still there afterwards. A script that is used up lets everything succeed, so the empty
script is the run with healthy stores.

`Wp G m S D w` says how `m` ends when it is started in `w` under any script with replies in `G`:
with a value and in a world that meet `D`, or without a value and in a world that meets `S`. A
crash is an ending like the others, so `S` is said of every world that the process can leave
behind.
-/

namespace Codohue.Script

/-- How a program ends. -/
inductive Ending (ε α : Type) where
  | ok (a : α)
  | err (e : ε)
  | crash
  deriving Repr, DecidableEq

/-- The reply to an operation. An operation that is not atomic may stop half way and leave `t`
behind. -/
inductive Reply (ε τ : Type) where
  | ok
  /-- It has no effect, and the caller gets an error. -/
  | fail (e : ε)
  /-- It takes effect, and the caller gets an error. -/
  | lost (e : ε)
  | torn (t : τ)
  /-- The process is gone: before the operation, or in the middle of it. -/
  | crash (t : Option τ)

structure Run (ε τ W α : Type) where
  ending : Ending ε α
  rest : List (Reply ε τ)
  world : W

/-- The value and the world of a run that returned. -/
def Run.returned {ε τ W α : Type} (r : Run ε τ W α) : Option (α × W) :=
  match r.ending with
  | .ok a => some (a, r.world)
  | _ => none

/-- A program reads its script from the left, and it crashes only where the script says so. -/
structure Prog (ε τ W α : Type) where
  run : List (Reply ε τ) → W → Run ε τ W α
  rest_suffix : ∀ s w, (run s w).rest <:+ s
  crash_mem : ∀ s w, (run s w).ending = .crash → ∃ t, .crash t ∈ s

variable {ε τ W α β : Type}

section Programs

namespace Prog

protected def pure (a : α) : Prog ε τ W α where
  run s w := ⟨.ok a, s, w⟩
  rest_suffix s _ := List.suffix_refl s
  crash_mem := nofun

protected def bind (m : Prog ε τ W α) (f : α → Prog ε τ W β) : Prog ε τ W β where
  run s w :=
    match m.run s w with
    | ⟨.ok a, rest, w'⟩ => (f a).run rest w'
    | ⟨.err e, rest, w'⟩ => ⟨.err e, rest, w'⟩
    | ⟨.crash, rest, w'⟩ => ⟨.crash, rest, w'⟩
  rest_suffix s w := by
    have hm := m.rest_suffix s w
    rcases hr : m.run s w with ⟨a | e | _, rest, w'⟩ <;> rw [hr] at hm
    · exact ((f a).rest_suffix rest w').trans hm
    · exact hm
    · exact hm
  crash_mem s w h := by
    have hm := m.rest_suffix s w
    have hcrash := m.crash_mem s w
    rcases hr : m.run s w with ⟨a | e | _, rest, w'⟩ <;> rw [hr] at h hm hcrash
    · obtain ⟨t, ht⟩ := (f a).crash_mem rest w' h
      exact ⟨t, hm.subset ht⟩
    · cases h
    · exact hcrash rfl

instance : Monad (Prog ε τ W) where
  pure := Prog.pure
  bind := Prog.bind

def throw (e : ε) : Prog ε τ W α where
  run s w := ⟨.err e, s, w⟩
  rest_suffix s _ := List.suffix_refl s
  crash_mem := nofun

/-- An error of `m` is handed to `h`; a crash is not. -/
def catchErr (m : Prog ε τ W α) (h : ε → Prog ε τ W α) : Prog ε τ W α where
  run s w :=
    match m.run s w with
    | ⟨.ok a, rest, w'⟩ => ⟨.ok a, rest, w'⟩
    | ⟨.err e, rest, w'⟩ => (h e).run rest w'
    | ⟨.crash, rest, w'⟩ => ⟨.crash, rest, w'⟩
  rest_suffix s w := by
    have hm := m.rest_suffix s w
    rcases hr : m.run s w with ⟨a | e | _, rest, w'⟩ <;> rw [hr] at hm
    · exact hm
    · exact ((h e).rest_suffix rest w').trans hm
    · exact hm
  crash_mem s w hend := by
    have hm := m.rest_suffix s w
    have hcrash := m.crash_mem s w
    rcases hr : m.run s w with ⟨a | e | _, rest, w'⟩ <;> rw [hr] at hend hm hcrash
    · cases hend
    · obtain ⟨t, ht⟩ := (h e).crash_mem rest w' hend
      exact ⟨t, hm.subset ht⟩
    · exact hcrash rfl

/-- One operation: it takes the next reply, and succeeds under a script that is used up. -/
def act (f : Reply ε τ → W → Ending ε α × W)
    (hf : ∀ r w, (f r w).1 = .crash → ∃ t, r = .crash t) : Prog ε τ W α where
  run s w := ⟨(f (s.headD .ok) w).1, s.tail, (f (s.headD .ok) w).2⟩
  rest_suffix s _ := List.tail_suffix s
  crash_mem s w h := by
    obtain ⟨t, ht⟩ := hf _ w h
    cases s with
    | nil => cases ht
    | cons r s => exact ⟨t, ht ▸ List.mem_cons_self⟩

/-- Best effort: an error is dropped. -/
def ignore (m : Prog ε τ W Unit) : Prog ε τ W Unit := m.catchErr fun _ => pure ()

/-- `cleanup` runs however `m` returns; the error of `m` comes first. -/
def ensuring (m : Prog ε τ W α) (cleanup : Prog ε τ W Unit) : Prog ε τ W α := do
  let a ← m.catchErr fun e => do
    ignore cleanup
    throw e
  cleanup
  pure a

def require (c : Prop) [Decidable c] (e : ε) : Prog ε τ W Unit :=
  if c then pure () else throw e

/-- The error as a value. -/
def attempt (m : Prog ε τ W α) : Prog ε τ W (Except ε α) :=
  catchErr (do pure (.ok (← m))) fun e => pure (.error e)

/-- Every error is rewritten on its way out. -/
def mapErr (f : ε → ε) (m : Prog ε τ W α) : Prog ε τ W α := m.catchErr fun e => throw (f e)

def forEach (body : β → Prog ε τ W Unit) : List β → Prog ε τ W Unit
  | [] => pure ()
  | x :: xs => do
    body x
    forEach body xs

def mapEach (body : β → Prog ε τ W α) : List β → Prog ε τ W (List α)
  | [] => pure []
  | x :: xs => do
    let a ← body x
    let as ← mapEach body xs
    pure (a :: as)

end Prog

/-! ### Operations -/

/-- An atomic operation: it refuses without an effect, or it answers and has its effect. -/
def op (f : W → Except ε (α × W)) : Prog ε τ W α :=
  Prog.act (fun r w =>
    match r with
    | .ok | .torn _ =>
      match f w with
      | .ok (a, w') => (.ok a, w')
      | .error e => (.err e, w)
    | .fail e => (.err e, w)
    | .lost e =>
      match f w with
      | .ok (_, w') => (.err e, w')
      | .error e' => (.err e', w)
    | .crash _ => (.crash, w)) <| by
  intro r w h
  cases r with
  | crash t => exact ⟨t, rfl⟩
  | fail e => cases h
  | ok | torn t | lost e => rcases hfw : f w with _ | _ <;> simp [hfw] at h

/-- An operation that only reads. -/
def read (f : W → Except ε α) : Prog ε τ W α := op fun w => (f w).map (·, w)

/-- An operation of several steps: all of them, none of them, or what is torn off. -/
def composite (f : W → W) (torn : τ → W → Except ε Unit × W) : Prog ε τ W Unit :=
  Prog.act (fun r w =>
    match r with
    | .ok => (.ok (), f w)
    | .fail e => (.err e, w)
    | .lost e => (.err e, f w)
    | .torn t =>
      match torn t w with
      | (.ok (), w') => (.ok (), w')
      | (.error e, w') => (.err e, w')
    | .crash t => (.crash, t.elim w fun t => (torn t w).2)) <| by
  intro r w h
  cases r with
  | crash t => exact ⟨t, rfl⟩
  | torn t => rcases ht : torn t w with ⟨_ | _, w'⟩ <;> simp [ht] at h
  | ok | fail e | lost e => cases h

def Healthy : Reply ε τ → Prop
  | .ok => True
  | _ => False

end Programs

/-! ### Endings of a program -/

variable {G : Reply ε τ → Prop} {S : W → Prop} {D : α → W → Prop} {w : W} {m : Prog ε τ W α}

section Rules

variable {s : List (Reply ε τ)} {a : α}

/-- The program ended with a value and in a world that meet `D`, or stopped in a world that
meets `S`. -/
def Ends (S : W → Prop) (D : α → W → Prop) : Ending ε α → W → Prop
  | .ok a, w => D a w
  | _, w => S w

def Wp (G : Reply ε τ → Prop) (m : Prog ε τ W α) (S : W → Prop) (D : α → W → Prop) (w : W) : Prop :=
  ∀ s, (∀ r ∈ s, G r) → Ends S D (m.run s w).ending (m.run s w).world

lemma replies_rest (hs : ∀ r ∈ s, G r) : ∀ r ∈ (m.run s w).rest, G r :=
  fun r hr => hs r ((m.rest_suffix s w).subset hr)

lemma ends_mono (h : Ends S D r w) (hS : S w → T w) (hD : ∀ a, D a w → E a w) : Ends T E r w :=
  match r, h with
  | .ok a, h => hD a h
  | .err _, h => hS h
  | .crash, h => hS h

lemma wp_mono (h : Wp G m S D w) (hS : ∀ w', S w' → T w')
    (hD : ∀ a w', D a w' → E a w') : Wp G m T E w :=
  fun s hs => ends_mono (h s hs) (hS _) fun a => hD a _

lemma wp_and (h : Wp G m S D w) (h' : Wp G m T E w) :
    Wp G m (fun w' => S w' ∧ T w') (fun a w' => D a w' ∧ E a w') w := by
  intro s hs
  have he := h s hs
  have he' := h' s hs
  rcases hr : (m.run s w).ending with a | e | _ <;> rw [hr] at he he' <;> exact ⟨he, he'⟩

/-- What a run that returned has established. -/
lemma Wp.of_run (h : Wp G m S D w) (hs : ∀ r ∈ s, G r) (hr : m.run s w = ⟨.ok a, rest, w'⟩) :
    D a w' := by
  have he := h s hs
  rw [hr] at he
  exact he

/-- What holds however a run ends. -/
lemma Wp.world (h : Wp G m S (fun _ => S) w) (hs : ∀ r ∈ s, G r) : S (m.run s w).world := by
  have he := h s hs
  rcases hr : (m.run s w).ending with a | e | _ <;> rw [hr] at he <;> exact he

lemma run_of_returned (h : (m.run [] w).returned = some (a, w')) :
    m.run [] w = ⟨.ok a, [], w'⟩ := by
  have hre := List.suffix_nil.mp (m.rest_suffix [] w)
  rcases hr : m.run [] w with ⟨b | e | _, rest, w''⟩ <;> rw [hr] at h hre
  · obtain ⟨rfl, rfl⟩ : b = a ∧ w'' = w' := by simpa [Run.returned] using h
    obtain rfl : rest = [] := hre
    rfl
  · cases h
  · cases h

/-- A program that cannot stop without a value returns one. -/
lemma Wp.exists_run (h : Wp G m (fun _ => False) D w) :
    ∃ a w', m.run [] w = ⟨.ok a, [], w'⟩ ∧ D a w' := by
  have he := h [] (by simp)
  rcases hr : (m.run [] w).ending with a | e | _ <;> rw [hr] at he
  · exact ⟨a, (m.run [] w).world, run_of_returned (by rw [Run.returned, hr]), he⟩
  · exact he.elim
  · exact he.elim

lemma wp_pure (h : D a w) : Wp G (pure a : Prog ε τ W α) S D w :=
  fun _ _ => h

lemma wp_throw (h : S w) : Wp G (Prog.throw e : Prog ε τ W α) S D w :=
  fun _ _ => h

lemma wp_bind {D : β → W → Prop} (h : Wp G m S (fun a w' => Wp G (f a) S D w') w) :
    Wp G (m >>= f) S D w := by
  intro s hs
  have hm := h s hs
  have hre : ∀ r ∈ (m.run s w).rest, G r := replies_rest hs
  change Ends S D ((Prog.bind m f).run s w).ending ((Prog.bind m f).run s w).world
  simp only [Prog.bind]
  rcases hr : m.run s w with ⟨_ | _ | _, rest, w'⟩ <;> rw [hr] at hm hre
  · exact hm rest hre
  · exact hm
  · exact hm

/-- `T` is what the errors of `m` leave to the handler. -/
lemma wp_catchErr (hm : Wp G m T D w) (hc : ∀ e w', T w' → Wp G (h e) S D w')
    (hcr : ∀ w', T w' → S w') : Wp G (m.catchErr h) S D w := by
  intro s hs
  have he := hm s hs
  have hre : ∀ r ∈ (m.run s w).rest, G r := replies_rest hs
  simp only [Prog.catchErr]
  rcases hr : m.run s w with ⟨_ | _ | _, rest, w'⟩ <;> rw [hr] at he hre
  · exact he
  · exact hc _ _ he rest hre
  · exact hcr _ he

lemma wp_act (hG : G .ok) (h : ∀ r, G r → Ends S D (f r w).1 (f r w).2) :
    Wp G (Prog.act f hf) S D w := by
  intro s hs
  refine h (s.headD .ok) ?_
  cases s with
  | nil => exact hG
  | cons r s => exact hs r List.mem_cons_self

lemma wp_ignore {m : Prog ε τ W Unit} {D : Unit → W → Prop} (h : Wp G m T D w)
    (he : ∀ w', T w' → D () w') (hc : ∀ w', T w' → S w') : Wp G m.ignore S D w :=
  wp_catchErr h (fun _ w' hw' => wp_pure (he w' hw')) hc

lemma wp_require {c : Prop} [Decidable c] {D : Unit → W → Prop} (hok : c → D () w) (he : ¬ c → S w)
    :
    Wp G (Prog.require c e : Prog ε τ W Unit) S D w := by
  unfold Prog.require
  split_ifs with hc
  · exact wp_pure (hok hc)
  · exact wp_throw (he hc)

lemma wp_mapErr (h : Wp G m S D w) : Wp G (m.mapErr f) S D w :=
  wp_catchErr h (fun _ _ hw' => wp_throw hw') fun _ hw' => hw'

lemma wp_attempt {D : Except ε α → W → Prop}
    (h : Wp G m T (fun a => D (.ok a)) w) (he : ∀ e w', T w' → D (.error e) w')
    (hc : ∀ w', T w' → S w') : Wp G m.attempt S D w := by
  refine wp_catchErr (wp_bind (wp_mono h (fun _ => id) fun a w' ha => wp_pure ha)) ?_ hc
  intro e w' hw'
  exact wp_pure (he e w' hw')

/-- The cleanup runs on both ways out. -/
lemma wp_ensuring (h : Wp G m T (fun a w' => Wp G cleanup S (fun _ => D a) w') w)
    (hs : ∀ w', T w' → Wp G cleanup S (fun _ => S) w') (hc : ∀ w', T w' → S w') :
    Wp G (m.ensuring cleanup) S D w := by
  refine wp_bind (wp_catchErr (wp_mono h (fun _ => id) ?_) ?_ hc)
  · intro a w' ha
    exact wp_bind (wp_mono ha (fun _ => id) fun _ w'' hD => wp_pure hD)
  · intro e w' hw'
    refine wp_bind (wp_ignore (wp_mono (hs w' hw') (fun _ => id) ?_) ?_ fun _ => id)
    · exact fun _ _ hS => wp_throw hS
    · exact fun _ hS => wp_throw hS

/-- A loop: `I xs` holds whenever the elements `xs` are left. -/
lemma wp_forEach {I : List β → W → Prop}
    (hf : ∀ x xs w, I (x :: xs) w → Wp G (f x) S (fun _ => I xs) w) :
    ∀ xs w, I xs w → Wp G (Prog.forEach f xs) S (fun _ => I []) w := by
  intro xs
  induction xs with
  | nil =>
    intro w hI
    exact wp_pure hI
  | cons x xs ih =>
    intro w hI
    refine wp_bind (wp_mono (hf x xs w hI) (fun _ => id) ?_)
    intro _ w' hw'
    exact ih w' hw'

/-- A loop: `I done` holds once the elements `done` are through. -/
lemma wp_forEach_done {I : List β → W → Prop} {xs : List β}
    (hf : ∀ done x w, x ∈ xs → I done w → Wp G (f x) S (fun _ => I (done ++ [x])) w) (hI : I [] w) :
    Wp G (Prog.forEach f xs) S (fun _ => I xs) w := by
  refine wp_mono (wp_forEach (I := fun todo w => ∃ done, xs = done ++ todo ∧ I done w) ?_ xs w
    ⟨[], rfl, hI⟩) (fun _ => id) ?_
  · rintro x todo w ⟨done, hd, hI⟩
    refine wp_mono (hf done x w (by simp [hd]) hI) (fun _ => id) fun _ w' hw' => ⟨_, ?_, hw'⟩
    simp [hd]
  · rintro _ w' ⟨done, rfl, hI⟩
    rwa [List.append_nil]

/-- A loop that reads and collects. -/
lemma wp_mapEach {g : β → α} {xs : List β}
    (hf : ∀ x ∈ xs, Wp G (f x) S (fun a w' => a = g x ∧ w' = w) w) :
    Wp G (Prog.mapEach f xs) S (fun as w' => as = xs.map g ∧ w' = w) w := by
  induction xs with
  | nil => exact wp_pure ⟨rfl, rfl⟩
  | cons x xs ih =>
    refine wp_bind (wp_mono (hf x List.mem_cons_self) (fun _ => id) ?_)
    rintro a w' ⟨rfl, rfl⟩
    refine wp_bind (wp_mono (ih fun y hy => hf y (List.mem_cons_of_mem x hy)) (fun _ => id) ?_)
    rintro as w' ⟨rfl, rfl⟩
    exact wp_pure ⟨rfl, rfl⟩

end Rules

section OperationRules

/-- An atomic operation stops without an effect, or has its effect and is heard of or not. -/
lemma wp_op (hG : G .ok) (hs : S w) (hok : ∀ a w', f w = .ok (a, w') → D a w' ∧ S w') :
    Wp G (op f) S D w := by
  refine wp_act hG fun r _ => ?_
  cases r with
  | fail e | crash t => exact hs
  | ok | torn t =>
    rcases hf : f w with e | ⟨a, w'⟩
    · simpa [hf, Ends] using hs
    · simpa [hf, Ends] using (hok a w' hf).1
  | lost e =>
    rcases hf : f w with e' | ⟨a, w'⟩
    · simpa [hf, Ends] using hs
    · simpa [hf, Ends] using (hok a w' hf).2

lemma wp_read {f : W → Except ε α} (hG : G .ok) (hs : S w)
    (hok : ∀ a, f w = .ok a → D a w) : Wp G (read f) S D w := by
  refine wp_op hG hs fun a w' hf => ?_
  rcases hfw : f w with e | b
  · simp [hfw, Except.map] at hf
  · obtain ⟨rfl, rfl⟩ : b = a ∧ w = w' := by simpa [hfw, Except.map] using hf
    exact ⟨hok b hfw, hs⟩

lemma wp_composite {f : W → W} {D : Unit → W → Prop} (hG : G .ok) (hs : S w)
    (hok : D () (f w) ∧ S (f w)) (hto : ∀ t, S (torn t w).2)
    (hd : ∀ t, G (.torn t) → (torn t w).1 = .ok () → D () (torn t w).2) :
    Wp G (composite f torn) S D w := by
  refine wp_act hG fun r hr => ?_
  cases r with
  | ok => exact hok.1
  | fail e => exact hs
  | lost e => exact hok.2
  | torn t =>
    have hs' := hto t
    have hd' := hd t hr
    rcases ht : torn t w with ⟨_ | _, w'⟩
    · simpa [ht, Ends] using hs'
    · rw [ht] at hd'
      simpa [ht, Ends] using hd' rfl
  | crash t =>
    cases t with
    | none => exact hs
    | some t => exact hto t

lemma wp_op_healthy (hf : f w = .ok (a, w')) (h : D a w') : Wp Healthy (op (τ := τ) f) S D w := by
  refine wp_act trivial fun r hr => ?_
  cases r with
  | ok => simpa [hf, Ends] using h
  | _ => exact hr.elim

lemma wp_read_healthy {f : W → Except ε α} {a : α} (hf : f w = .ok a) (h : D a w) :
    Wp Healthy (read (τ := τ) f) S D w :=
  wp_op_healthy (by rw [hf]; rfl) h

lemma wp_composite_healthy {f : W → W} {D : Unit → W → Prop} (h : D () (f w)) :
    Wp Healthy (composite f torn) S D w := by
  refine wp_act trivial fun r hr => ?_
  cases r with
  | ok => exact h
  | _ => exact hr.elim

end OperationRules

/-! ### Healthy stores -/

section Total

/-- With healthy stores the program returns, wherever it starts. -/
def Total (m : Prog ε τ W α) : Prop := ∀ w, Wp Healthy m (fun _ => False) (fun _ _ => True) w

/-- What is known of the runs that return is known of all. -/
lemma Total.wp (h : Total m) {S : W → Prop} {D : α → W → Prop} (hm : Wp Healthy m S D w) :
    Wp Healthy m (fun _ => False) D w :=
  wp_mono (wp_and (h w) hm) (fun _ hw => hw.1) fun _ _ hw => hw.2

lemma total_pure (a : α) : Total (pure a : Prog ε τ W α) := fun _ => wp_pure trivial

lemma Total.bind (hm : Total m) (hf : ∀ a, Total (f a)) : Total (m >>= f) :=
  fun w => wp_bind (wp_mono (hm w) (fun _ => id) fun a w' _ => hf a w')

lemma Total.mapErr (hm : Total m) (f : ε → ε) : Total (m.mapErr f) :=
  fun w => wp_mapErr (hm w)

lemma total_op (hf : ∀ w, ∃ r, f w = .ok r) : Total (op f : Prog ε τ W α) := by
  intro w
  obtain ⟨r, hr⟩ := hf w
  exact wp_op_healthy hr trivial

lemma total_read (f : W → α) : Total (read fun w => .ok (f w) : Prog ε τ W α) :=
  total_op fun w => ⟨(f w, w), rfl⟩

lemma total_mapEach {f : β → Prog ε τ W α} (hf : ∀ x, Total (f x)) : ∀ xs, Total (Prog.mapEach f xs)
  | [] => total_pure []
  | x :: xs => (hf x).bind fun a => (total_mapEach hf xs).bind fun as => total_pure (a :: as)

end Total

end Codohue.Script
