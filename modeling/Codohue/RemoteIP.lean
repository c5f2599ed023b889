import Codohue.Ingest

/-!
The address that failed logins are counted for: that of the peer, or the last one in
`X-Forwarded-For` that is not a trusted proxy.
-/

namespace Codohue.RemoteIP

open Ingest

abbrev Text := List Char

def trimSpace (s : Text) : Text := (s.dropWhile isSpace).reverse.dropWhile isSpace |>.reverse

/-- `net` and `net/netip`: an address is written without commas and blanks, and reads back. -/
structure Netip (A P : Type) where
  splitHostPort : Text → Option Text
  parseAddr : Text → Option A
  string : A → Text
  contains : P → A → Bool
  parse_string : ∀ a, parseAddr (string a) = some a
  trim_string : ∀ a, trimSpace (string a) = string a
  comma_string : ∀ a, ',' ∉ string a

/-- `xForwardedFor` holds the field lines of the header. -/
structure Request where
  remoteAddr : Text
  xForwardedFor : List Text

variable {A P : Type} (N : Netip A P) (trustedProxies : List P)

def clientIP (r : Request) : Text := (N.splitHostPort r.remoteAddr).getD r.remoteAddr

def trusted (a : A) : Bool := trustedProxies.any (N.contains · a)

def trustedProxy (r : Request) : Bool := (N.parseAddr (clientIP N r)).any (trusted N trustedProxies)

/-- `Header.Get`: the first field line. -/
def Request.get (r : Request) : Text := r.xForwardedFor.head?.getD []

/-- The loop from the end of the chain. It is left at an entry that is not an address. -/
def walk : List Text → Option Text
  | [] => none
  | entry :: rest =>
    match N.parseAddr (trimSpace entry) with
    | none => none
    | some addr => if trusted N trustedProxies addr then walk rest else some (N.string addr)

/-- An entry that the loop passes. -/
def Passed (entry : Text) : Prop :=
  ∃ p, N.parseAddr (trimSpace entry) = some p ∧ trusted N trustedProxies p = true

/-- The entries end with an address, with none but trusted proxies after it. -/
def EndsWith (entries : List Text) (a : A) : Prop :=
  ∃ before entry after, entries = before ++ entry :: after ∧
    N.parseAddr (trimSpace entry) = some a ∧ ∀ e ∈ after, Passed N trustedProxies e

def remoteIP (r : Request) : Text :=
  if trustedProxy N trustedProxies r then
    (walk N trustedProxies (r.get.splitOn ',').reverse).getD (clientIP N r)
  else clientIP N r

/-- How a proxy passes on the address of its peer. -/
inductive Adds where
  | toValue
  | asLine

/-- What a proxy makes of the field lines it was sent. -/
def forward (lines : List Text) (hop : Adds × A) : List Text :=
  match hop.1, lines.getLast? with
  | .toValue, some last => lines.dropLast ++ [last ++ ',' :: ' ' :: N.string hop.2]
  | _, _ => lines ++ [N.string hop.2]

/-- The request that a chain of proxies passes on, of which each adds the address of its peer: the
first that of the client, the next ones those of the proxies before them. -/
def forwarded (remoteAddr : Text) (client : List Text) (hops : List (Adds × A)) : Request :=
  ⟨remoteAddr, hops.foldl (forward N) client⟩

variable {N trustedProxies}

lemma trimSpace_blank (a : A) : trimSpace (' ' :: N.string a) = N.string a := N.trim_string a

/-- With two lines or more, no proxy touches the first one. -/
lemma head_foldl_forward (line second : Text) (rest : List Text) (hops : List (Adds × A)) :
    (hops.foldl (forward N) (line :: second :: rest)).head? = some line := by
  induction hops generalizing second rest with
  | nil => rfl
  | cons hop hops ih =>
    obtain ⟨second', rest', hf⟩ : ∃ second' rest',
        forward N (line :: second :: rest) hop = line :: second' :: rest' := by
      unfold forward
      split
      · rw [List.dropLast_cons_cons]
        cases (second :: rest).dropLast with
        | nil => exact ⟨_, [], rfl⟩
        | cons x xs => exact ⟨x, _, rfl⟩
      · exact ⟨second, rest ++ [N.string hop.2], rfl⟩
    rw [List.foldl_cons, hf]
    exact ih second' rest'

/-- One line is extended by the addresses of proxies, until one of them adds a line. -/
lemma exists_head_foldl_forward (v : Text) (hops : List (Adds × A)) :
    ∃ v' added, (hops.foldl (forward N) [v]).head? = some v' ∧ added ⊆ hops.map Prod.snd ∧
      v'.splitOn ',' = v.splitOn ',' ++ added.map fun a => ' ' :: N.string a := by
  induction hops generalizing v with
  | nil => exact ⟨v, [], rfl, nofun, by simp⟩
  | cons hop hops ih =>
    obtain ⟨how, p⟩ := hop
    cases how with
    | toValue =>
      obtain ⟨v', added, hf, hsub, hs⟩ := ih (v ++ ',' :: ' ' :: N.string p)
      have hn : ',' ∉ ' ' :: N.string p := by simpa using N.comma_string p
      refine ⟨v', p :: added, hf, ?_, ?_⟩
      · simpa using List.subset_cons_of_subset p hsub
      · rw [hs, List.splitOn_append_cons_self, List.splitOn_eq_singleton hn]
        simp
    | asLine => exact ⟨v, [], head_foldl_forward v _ [] hops, nofun, by simp⟩

lemma walk_append {entries : List Text} (h : ∀ e ∈ entries, Passed N trustedProxies e)
    (rest : List Text) :
    walk N trustedProxies (entries ++ rest) = walk N trustedProxies rest := by
  induction entries with
  | nil => rfl
  | cons e entries ih =>
    obtain ⟨⟨p, he, hp⟩, hes⟩ := List.forall_mem_cons.mp h
    simp only [List.cons_append, walk, he, hp, if_true]
    exact ih hes

lemma walk_eq_some (hc : trusted N trustedProxies c = false) (entries : List Text) :
    walk N trustedProxies entries.reverse = some (N.string c) ↔
      EndsWith N trustedProxies entries c := by
  constructor
  · intro h
    induction entries using List.reverseRecOn with
    | nil => cases h
    | append_singleton entries e ih =>
      rw [List.reverse_concat, walk] at h
      split at h
      · cases h
      · rename_i a ha
        split_ifs at h with hp
        · obtain ⟨before, entry, after, rfl, he, hq⟩ := ih h
          refine ⟨before, entry, after ++ [e], by simp, he, ?_⟩
          simpa [or_imp, forall_and] using ⟨hq, ⟨a, ha, hp⟩⟩
        · refine ⟨entries, e, [], rfl, ?_, nofun⟩
          rw [ha, ← N.parse_string a, Option.some.inj h, N.parse_string]
  · rintro ⟨before, entry, after, rfl, he, hq⟩
    rw [List.reverse_append, List.reverse_cons, List.append_assoc, walk_append (by simpa using hq)]
    simp [walk, he, hc]

lemma clientIP_ne (hc : trusted N trustedProxies c = false)
    (h : trustedProxy N trustedProxies r = true) : clientIP N r ≠ N.string c := by
  intro he
  simp [trustedProxy, he, N.parse_string, hc] at h

lemma remoteIP_eq_iff (hc : trusted N trustedProxies c = false)
    (hpeer : trustedProxy N trustedProxies ⟨remoteAddr, []⟩ = true)
    (h : lines.head? = some line) :
    remoteIP N trustedProxies ⟨remoteAddr, lines⟩ = N.string c ↔
      EndsWith N trustedProxies (line.splitOn ',') c := by
  have hpeer' : trustedProxy N trustedProxies ⟨remoteAddr, lines⟩ = true := hpeer
  have hne := clientIP_ne hc hpeer'
  rw [← walk_eq_some hc, remoteIP, if_pos hpeer', Request.get, h, Option.getD_some]
  cases walk N trustedProxies (line.splitOn ',').reverse with
  | none => simpa using hne
  | some t => simp

/-- What the first proxy and those after it add to one line ends with the client. -/
lemma endsWith_forwarded {proxies : List (Adds × A)} {v : Text}
    (hp : ∀ p ∈ proxies, trusted N trustedProxies p.2 = true) (before : List Text) (entry : Text)
    (he : trimSpace entry = N.string c) (hv : v.splitOn ',' = before ++ [entry]) :
    ∃ v', (proxies.foldl (forward N) [v]).head? = some v' ∧
      EndsWith N trustedProxies (v'.splitOn ',') c := by
  obtain ⟨v', added, hf, hsub, hs⟩ := exists_head_foldl_forward v proxies
  refine ⟨v', hf, before, entry, _, by rw [hs, hv, List.append_assoc, List.singleton_append],
    by rw [he, N.parse_string], ?_⟩
  simp only [List.forall_mem_map]
  intro a ha
  obtain ⟨p, hp', rfl⟩ := List.mem_map.mp (hsub ha)
  exact ⟨p.2, by rw [trimSpace_blank, N.parse_string], hp p hp'⟩

lemma remoteIP_forwarded_iff (how : Adds) {proxies : List (Adds × A)}
    (hc : trusted N trustedProxies c = false)
    (hp : ∀ p ∈ proxies, trusted N trustedProxies p.2 = true)
    (hpeer : trustedProxy N trustedProxies ⟨remoteAddr, []⟩ = true) (client : List Text) :
    remoteIP N trustedProxies (forwarded N remoteAddr client ((how, c) :: proxies)) = N.string c ↔
      client = [] ∨ (client.length = 1 ∧ how = .toValue) ∨
        ∃ line ∈ client.head?, EndsWith N trustedProxies (line.splitOn ',') c := by
  have hn : ',' ∉ ' ' :: N.string c := by simpa using N.comma_string c
  match client, how with
  | [], how =>
    obtain ⟨v, hf, hv⟩ := endsWith_forwarded hp [] (N.string c) (N.trim_string c)
      (List.splitOn_eq_singleton (N.comma_string c))
    have h0 : forward N [] (how, c) = [N.string c] := by cases how <;> rfl
    simpa [forwarded, h0] using (remoteIP_eq_iff hc hpeer hf).mpr hv
  | [sent], .toValue =>
    obtain ⟨v, hf, hv⟩ := endsWith_forwarded hp _ (' ' :: N.string c) (trimSpace_blank c)
      (by rw [List.splitOn_append_cons_self sent, List.splitOn_eq_singleton hn])
    simpa [forwarded, forward] using (remoteIP_eq_iff hc hpeer hf).mpr hv
  | [sent], .asLine =>
    simpa [forwarded, forward] using
      remoteIP_eq_iff hc hpeer (head_foldl_forward sent (N.string c) [] proxies)
  | sent :: second :: rest, how =>
    simpa [forwarded] using
      remoteIP_eq_iff hc hpeer (head_foldl_forward sent second rest ((how, c) :: proxies))

/-- A client can send the address of the peer, and nothing else: that entry is passed. -/
lemma exists_not_endsWith (hc : trusted N trustedProxies c = false)
    (hpeer : trustedProxy N trustedProxies r = true) :
    ∃ line : Text, ¬ EndsWith N trustedProxies (line.splitOn ',') c := by
  obtain ⟨p, -, hp⟩ := (Option.any_eq_true _ _).mp hpeer
  refine ⟨N.string p, fun h => ?_⟩
  have hw := (walk_eq_some hc _).mpr h
  rw [List.splitOn_eq_singleton (N.comma_string p)] at hw
  simp [walk, N.trim_string, N.parse_string, hp] at hw

/-- A proxy, a client, and an address that is not there. -/
def hostText : Fin 3 → Text
  | 0 => "10.0.0.1".toList
  | 1 => "203.0.113.7".toList
  | 2 => "198.51.100.9".toList

def threeHosts : Netip (Fin 3) (Fin 3) where
  splitHostPort s := some (s.takeWhile (· ≠ ':'))
  parseAddr s := [0, 1, 2].find? (hostText · = s)
  string := hostText
  contains p a := p = a
  parse_string := by decide +kernel
  trim_string := by decide +kernel
  comma_string := by decide +kernel

end Codohue.RemoteIP
