import Codohue.Retention

/-!
What a retention pass trims.

A group that was listed without pending entries has been through everything up to its last
delivered id, and one with pending entries through everything below the oldest of them. Neither
can be undone by the commands of the others, so the least of these ids is still a safe bound when
the trim is made, however long that is after the groups were looked at.
-/

namespace Codohue.Retention

open Redis Service Text Transition

/-! ### Ids are read back -/

variable {id : StreamID} {s : Server}

variable {bound : StreamID} {stream group : String} {c : BackendCall}

lemma le_ofDigitChars (cs : List Char) (n : ℕ) : n ≤ Nat.ofDigitChars 10 cs n := by
  induction cs generalizing n with
  | nil => simp
  | cons c cs ih =>
    rw [Nat.ofDigitChars_cons]
    exact le_trans (by omega) (ih _)

lemma parseUintFrom_digits (hcs : ∀ c ∈ cs, c.isDigit) (n : Fin (2 ^ 64))
    (h : Nat.ofDigitChars 10 cs n < 2 ^ 64) :
    parseUintFrom text n cs = .ok ⟨Nat.ofDigitChars 10 cs n, h⟩ := by
  induction cs generalizing n with
  | nil => simp [parseUintFrom]
  | cons c cs ih =>
    have hlt := lt_of_le_of_lt (le_ofDigitChars cs (10 * n.val + (c.toNat - '0'.toNat))) <| by
      rwa [Nat.ofDigitChars_cons] at h
    rw [parseUintFrom, if_pos (hcs c List.mem_cons_self), dif_pos hlt,
      ih (fun d hd => hcs d (List.mem_cons_of_mem _ hd))]
    rfl

lemma parseUint_toString (n : Fin (2 ^ 64)) : parseUint (toString n.val) = .ok n := by
  have hl := toList_toString n.val
  have hne : toString n.val ≠ "" := by
    intro h
    rw [h] at hl
    exact Nat.toDigits_ne_nil hl.symm
  have hv : Nat.ofDigitChars 10 (Nat.toDigits 10 n.val) (0 : Fin (2 ^ 64)).val = n.val :=
    Nat.ofDigitChars_ten_toDigits
  rw [parseUint, if_neg hne, hl, parseUintFrom_digits
    (fun c hc => Nat.isDigit_of_mem_toDigits (by decide) (by decide) hc) 0 (hv.trans_lt n.isLt)]
  exact congrArg Except.ok (Fin.ext hv)

lemma cutDash_append (ha : ∀ c ∈ a.toList, c ≠ '-') : cutDash (a ++ "-" ++ b) = some (a, b) := by
  have hl : (a ++ "-" ++ b).toList = a.toList ++ '-' :: b.toList := by simp
  have hd : (a.toList ++ '-' :: b.toList).dropWhile (· ≠ '-') = '-' :: b.toList := by
    rw [List.dropWhile_append_of_pos (by simpa using ha)]
    simp
  have ht : (a.toList ++ '-' :: b.toList).takeWhile (· ≠ '-') = a.toList := by
    rw [List.takeWhile_append_of_pos (by simpa using ha)]
    simp
  simp only [cutDash, hl, hd, ht, String.ofList_toList]

/-- **The text of an id is read back as the id.** -/
theorem parseStreamID_text (id : StreamID) : parseStreamID id.text = .ok id := by
  have hd : ∀ n : Fin (2 ^ 64), ∀ c ∈ (toString n.val).toList, c ≠ '-' := by
    rintro n c hc rfl
    exact absurd (isDigit_of_mem_toString hc) (by decide)
  have hne : ∀ n : Fin (2 ^ 64), toString n.val ≠ "" := by
    intro n h
    have hp := parseUint_toString n
    rw [h] at hp
    cases hp
  rw [parseStreamID, StreamID.text, cutDash_append (hd id.ms)]
  simp only [hne, or_self, if_false, parseUint_toString]
  rfl

/-- **Printed ids are compared by their numbers.** -/
theorem compareStreamIDs_text (a b : StreamID) : compareStreamIDs a.text b.text =
    .ok (if a < b then -1 else if a = b then 0 else 1) := by
  have heq : a = b ↔ a.ms = b.ms ∧ a.seq = b.seq := by
    cases a
    cases b
    simp
  rw [compareStreamIDs, parseStreamID_text, parseStreamID_text]
  simp only [StreamID.lt_iff, heq]
  change (if _ then _ else _) = _
  split_ifs <;> rfl

/-! ### Frontiers -/

lemma compareStreamIDs_neg (ha : parseStreamID a = .ok x) (hb : parseStreamID b = .ok y)
    (h : compareStreamIDs a b = .ok order) : order < 0 ↔ x < y := by
  have he : compareStreamIDs a b = if x.ms < y.ms ∨ (x.ms = y.ms ∧ x.seq < y.seq) then .ok (-1)
      else if x.ms = y.ms ∧ x.seq = y.seq then .ok 0 else .ok 1 := by
    unfold compareStreamIDs
    rw [ha, hb]
    rfl
  rw [he] at h
  rw [StreamID.lt_iff]
  split_ifs at h with hlt heq
  · cases h
    simpa using hlt
  · cases h
    simpa using hlt
  · cases h
    simpa using hlt

lemma lowerFrontier_ok {candidate : String} (hid : parseStreamID candidate = .ok id)
    (hb : parseStreamID fr = .ok bound) (h : lowerFrontier fr candidate = .ok next) :
    ∃ least, parseStreamID next = .ok least ∧ least ≤ bound ∧ least ≤ id := by
  have hne : fr ≠ "" := by
    rintro rfl
    cases hb
  rw [lowerFrontier, if_neg hne] at h
  cases ho : compareStreamIDs candidate fr with
  | error e =>
    rw [ho] at h
    cases h
  | ok order =>
    rw [ho] at h
    cases h
    have hlt := compareStreamIDs_neg hid hb ho
    by_cases hn : order < 0
    · exact ⟨id, by rw [if_pos hn]; exact hid, (hlt.mp hn).le, le_refl id⟩
    · refine ⟨bound, by rw [if_neg hn]; exact hb, le_refl bound, ?_⟩
      exact not_lt.mp fun h => hn (hlt.mpr h)

/-! ### What the others cannot undo -/

/-- The group has been through everything below the bound. -/
def Past (s : Server) (stream group : String) (bound : StreamID) : Prop :=
  ∃ st g, s.lookup stream = some st ∧ st.groups.lookup group = some g ∧
    bound ≤ g.lastDelivered ∧ ∀ p ∈ g.pending, bound ≤ p.id

lemma Past.perform (h : Past s stream group bound) (cmd : Command) :
    Past (s.perform cmd) stream group bound := by
  obtain ⟨st, g, hst, hg, hl, hpe⟩ := h
  obtain ⟨st', hst', hla⟩ := Server.later_perform hst cmd
  obtain ⟨g', hg', ha⟩ := hla.groups group g hg
  refine ⟨st', g', hst', hg', hl.trans ha.last, fun p' hp' => ?_⟩
  rcases ha.pending p' hp' with ⟨p, hp, hid⟩ | hn
  · exact hid ▸ hpe p hp
  · exact hl.trans hn.le

lemma Past.acknowledged (h : Past s stream group bound) (hst : s.lookup stream = some st)
    (hid : id ∈ st.entries) (hlt : id < bound) :
    ∃ g, st.groups.lookup group = some g ∧ (id ≤ g.start ∨ id ∈ g.acknowledged) := by
  obtain ⟨st', g, hst', hg, hl, hpe⟩ := h
  obtain rfl : st = st' := Option.some.inj (hst.symm.trans hst')
  refine ⟨g, hg, (le_or_gt id g.start).imp_right fun hs =>
    ((st.accounts group g hg).accounted id hid hs (hlt.le.trans hl)).resolve_left ?_⟩
  rintro ⟨p, hp, rfl⟩
  exact absurd hlt (not_lt.mpr (hpe p hp))

lemma Past.mono (h : Past s stream group bound) (hle : bound' ≤ bound) :
    Past s stream group bound' := by
  obtain ⟨st, g, hst, hg, hl, hpe⟩ := h
  exact ⟨st, g, hst, hg, hle.trans hl, fun p hp => hle.trans (hpe p hp)⟩

/-! ### What Redis answers -/

variable {groups : List RetentionGroup}

lemma past_of_listed (h : (answer s (.groups stream)).1 = .ok groups) {group : RetentionGroup}
    (hg : group ∈ groups) (hn : group.pending = 0) :
    ∃ id : StreamID, group.lastDeliveredID = id.text ∧ Past s stream group.name id := by
  cases hst : s.lookup stream with
  | none => simp [answer, hst] at h
  | some st =>
    simp only [answer, hst] at h
    have hl : st.groups.entries.map (fun e => listGroup st e.1 e.2) = groups :=
      Except.ok.inj h
    rw [← hl, List.mem_map] at hg
    obtain ⟨⟨name, g⟩, hm, rfl⟩ := hg
    have he : g.pending = [] := by simpa [listGroup] using hn
    refine ⟨g.lastDelivered, rfl, st, g, hst, AList.mem_lookup_iff.mpr hm, le_refl _, ?_⟩
    simp [he]

lemma past_of_pending (h : (answer s (.pending stream group)).1 = .ok pending)
    (hso : 0 < pending.count) :
    ∃ id : StreamID, pending.oldestID = id.text ∧ Past s stream group id := by
  cases hg : (s.lookup stream).bind fun st => st.groups.lookup group with
  | none => simp [answer, hg] at h
  | some g =>
    obtain ⟨st, hst, hgr⟩ := Option.bind_eq_some_iff.mp hg
    simp only [answer, hg] at h
    have hr : (⟨g.pending.length, g.pending.head?.elim "" (·.id.text)⟩ : RetentionPending) =
        pending := Except.ok.inj h
    cases hp : g.pending with
    | nil =>
      rw [← hr, hp] at hso
      cases hso
    | cons p rest =>
      refine ⟨p.id, by rw [← hr, hp]; rfl, st, g, hst, hgr, ?_, ?_⟩
      · exact g.delivered p (hp ▸ List.mem_cons_self)
      · have hs := g.sorted
        rw [hp, List.map_cons, List.pairwise_cons] at hs
        intro q hq
        rw [hp] at hq
        rcases List.mem_cons.mp hq with rfl | hq
        · exact le_refl _
        · exact (hs.1 q.id (List.mem_map.mpr ⟨q, hq, rfl⟩)).le

lemma answer_server (h : ∀ stream fr,
    c ≠ .trimMinID stream fr) : (answer s c).2 = s := by
  cases c with
  | groups | pending | length => rfl
  | trimMinID stream fr => exact absurd rfl (h stream fr)

/-- What a call adds to the scene, whatever its outcome. -/
structure Served (c : BackendCall) (r : Answer c) (s s' : Scene) : Prop where
  server : (∀ stream frontier, c ≠ .trimMinID stream frontier) → s'.server = s.server
  seen : s'.seen = s.seen ++ [(s.server, ⟨c, r⟩)]
  faithful : s'.faithful → s.faithful ∧ ((∃ e, r = .error e) ∨ r = (answer s.server c).1)

lemma served {r : Answer c} {s : Scene} (h : redis.serve c s o = some (r, s')) :
    Served c r s s' := by
  cases o with
  | answered =>
    cases h
    exact ⟨answer_server, rfl, fun hf => ⟨hf, .inr rfl⟩⟩
  | refused e =>
    cases h
    exact ⟨fun _ => rfl, rfl, fun hf => ⟨hf, .inl ⟨e, rfl⟩⟩⟩
  | lost e =>
    cases h
    exact ⟨answer_server, rfl, fun hf => ⟨hf, .inl ⟨e, rfl⟩⟩⟩
  | forged f =>
    obtain ⟨v, -, heq⟩ := Option.map_eq_some_iff.mp h
    obtain ⟨rfl, rfl⟩ := Prod.mk.inj heq
    exact ⟨answer_server, rfl, nofun⟩

/-- Any outcome, any error, and only these calls. -/
def calling (allows : BackendCall → Scene → Prop) :
    Contract Scene BackendCall Outcome RetentionError :=
  ⟨fun _ => True, allows, fun _ => True⟩

lemma wp_request {P : Scene → Prop} {allows : BackendCall → Scene → Prop}
    {Q : Value c → Scene → Prop} {s : Scene} (hs : P s)
    (hP : ∀ s cmd, P s → P { s with server := s.server.perform cmd }) (ha : ∀ s, P s → allows c s)
    (hQ : ∀ s v s', P s → Served c (.ok v) s s' → Q v s') :
    Wp redis (calling allows) (request stage ctx c) Q s := by
  refine wp_bind (wp_ask hs ?_ ha ?_)
  · rintro s cmd s' hs hp
    exact Option.some.inj hp ▸ hP s cmd hs
  · intro s' o r s'' hs' _ hse
    refine wp_ofExcept (fun v hv => ?_) fun _ _ => trivial
    cases r with
    | error e => cases hv
    | ok v' =>
      obtain rfl : v' = v := Except.ok.inj hv
      exact hQ s' v' s'' hs' (served hse)

/-! ### The loop over the groups -/

/-- A listed group, and the id that was taken for it. -/
structure Inspection where
  group : RetentionGroup
  id : String
  deriving DecidableEq

/-- What is asked about the group, and answered: nothing unless it has pending entries. -/
def Inspection.exchange (spec : StreamSpec) (i : Inspection) : Option (Σ c, Answer c) :=
  if 0 < i.group.pending then
    some ⟨.pending spec.name i.group.name, .ok (⟨i.group.pending, i.id⟩ : RetentionPending)⟩
  else none

/-- The id is well formed and not below the bound. -/
structure Inspection.Good (bound : StreamID) (i : Inspection) : Prop where
  counted : 0 ≤ i.group.pending
  taken : i.group.pending = 0 → i.id = i.group.lastDeliveredID
  above : ∃ id, parseStreamID i.id = .ok id ∧ bound ≤ id

lemma Inspection.Good.mono {i : Inspection} (h : i.Good bound) (hle : bound' ≤ bound) :
    i.Good bound' :=
  ⟨h.counted, h.taken, h.above.imp fun _ hid => ⟨hid.1, hle.trans hid.2⟩⟩

/-- The frontier is below the ids of all groups inspected so far. -/
def Bounded (frontier : String) (inspections : List Inspection) : Prop :=
  (inspections = [] ∧ frontier = "") ∨
    ∃ bound, parseStreamID frontier = .ok bound ∧ ∀ i ∈ inspections, i.Good bound

variable {inspections : List Inspection}

lemma Bounded.snoc {i : Inspection} (h : Bounded fr inspections) (hc : 0 ≤ i.group.pending)
    (ht : i.group.pending = 0 → i.id = i.group.lastDeliveredID) (hid : parseStreamID i.id = .ok id)
    (hn : lowerFrontier fr i.id = .ok next) : Bounded next (inspections ++ [i]) := by
  rcases h with ⟨rfl, rfl⟩ | ⟨bound, hb, hg⟩
  · obtain rfl : i.id = next := by simpa [lowerFrontier] using hn
    refine .inr ⟨id, hid, ?_⟩
    simpa using ⟨hc, ht, id, hid, le_refl id⟩
  · obtain ⟨least, hl, hle, hle'⟩ := lowerFrontier_ok hid hb hn
    refine .inr ⟨least, hl, fun j hj => ?_⟩
    rcases List.mem_append.mp hj with hj | hj
    · exact (hg j hj).mono hle
    · obtain rfl := List.mem_singleton.mp hj
      exact ⟨hc, ht, id, hid, hle'⟩

/-- The groups `inspections` have been inspected, and `todo` is left of those that were listed when
the server stood at `listing`. -/
structure Inspected (spec : StreamSpec) (listing : Server) (inspections : List Inspection)
    (todo : List RetentionGroup) (scene : Scene) : Prop where
  seen : ∃ rest, rest.map Prod.snd = inspections.filterMap (·.exchange spec) ∧
    scene.seen = (listing, ⟨.groups spec.name, .ok (inspections.map (·.group) ++ todo)⟩) :: rest
  listed : scene.faithful →
    (answer listing (.groups spec.name)).1 = .ok (inspections.map (·.group) ++ todo)
  past : scene.faithful → ∀ i ∈ inspections, ∀ id, parseStreamID i.id = .ok id →
    Past scene.server spec.name i.group.name id
  waiting : scene.faithful → ∀ group ∈ todo, group.pending = 0 → ∀ id,
    parseStreamID group.lastDeliveredID = .ok id → Past scene.server spec.name group.name id

variable {spec : StreamSpec} {scene : Scene}

section Loop

variable {listing : Server} {group : RetentionGroup} {todo : List RetentionGroup} {scene' : Scene}
variable {allows : BackendCall → Scene → Prop}

lemma Inspected.perform (h : Inspected spec listing inspections todo scene) (cmd : Command) :
    Inspected spec listing inspections todo
      { scene with server := scene.server.perform cmd } where
  seen := h.seen
  listed := h.listed
  past hf i hi id hid := (h.past hf i hi id hid).perform cmd
  waiting hf g hg hn id hid := (h.waiting hf g hg hn id hid).perform cmd

lemma Inspected.start (h : scene.seen = [])
    (hs : Served (.groups spec.name) (.ok groups) scene scene') :
    Inspected spec scene.server [] groups scene' where
  seen := ⟨[], rfl, by rw [hs.seen, h]; rfl⟩
  listed hf := ((hs.faithful hf).2.resolve_left nofun).symm
  past _ i hi := nomatch hi
  waiting hf g hg hn id hid := by
    have ha := ((hs.faithful hf).2.resolve_left nofun).symm
    obtain ⟨id', ht, hp⟩ := past_of_listed ha hg hn
    rw [ht, parseStreamID_text] at hid
    rw [hs.server nofun, ← Except.ok.inj hid]
    exact hp

lemma Inspected.idle (h : Inspected spec listing inspections (group :: todo) scene)
    (hn : group.pending = 0) :
    Inspected spec listing (inspections ++ [⟨group, group.lastDeliveredID⟩]) todo scene where
  seen := by
    obtain ⟨rest, hr, hs⟩ := h.seen
    refine ⟨rest, by rw [hr]; simp [Inspection.exchange, hn], ?_⟩
    rw [hs, List.map_append, List.append_assoc]
    rfl
  listed hf := by
    rw [h.listed hf, List.map_append, List.append_assoc]
    rfl
  past hf i hi id hid := by
    rcases List.mem_append.mp hi with hi | hi
    · exact h.past hf i hi id hid
    · obtain rfl := List.mem_singleton.mp hi
      exact h.waiting hf group List.mem_cons_self hn id hid
  waiting hf g hg := h.waiting hf g (List.mem_cons_of_mem _ hg)

lemma Inspected.busy {pending : RetentionPending}
    (h : Inspected spec listing inspections (group :: todo) scene) (hso : 0 < group.pending)
    (hs : Served (.pending spec.name group.name) (.ok pending) scene scene')
    (hc : pending.count = group.pending) :
    Inspected spec listing (inspections ++ [⟨group, pending.oldestID⟩]) todo scene' where
  seen := by
    obtain ⟨rest, hr, hse⟩ := h.seen
    refine ⟨rest ++ [(scene.server, ⟨.pending spec.name group.name, .ok pending⟩)], ?_, ?_⟩
    · have he : Inspection.exchange spec ⟨group, pending.oldestID⟩ =
          some ⟨.pending spec.name group.name, .ok pending⟩ := by
        rw [Inspection.exchange, if_pos hso, ← hc]
      rw [List.map_append, hr, List.filterMap_append, List.filterMap_cons_some he]
      rfl
    · rw [hs.seen, hse, List.map_append, List.append_assoc]
      rfl
  listed hf := by
    rw [h.listed (hs.faithful hf).1, List.map_append, List.append_assoc]
    rfl
  past hf i hi id hid := by
    rw [hs.server nofun]
    rcases List.mem_append.mp hi with hi | hi
    · exact h.past (hs.faithful hf).1 i hi id hid
    · obtain rfl := List.mem_singleton.mp hi
      have ha := ((hs.faithful hf).2.resolve_left nofun).symm
      obtain ⟨id', ht, hp⟩ := past_of_pending ha (hc ▸ hso)
      rw [ht, parseStreamID_text] at hid
      exact Except.ok.inj hid ▸ hp
  waiting hf g hg hn id hid := by
    rw [hs.server nofun]
    exact h.waiting (hs.faithful hf).1 g (List.mem_cons_of_mem _ hg) hn id hid

section

variable (ha : ∀ name scene, allows (.pending spec.name name) scene)

include ha

lemma wp_candidate (hc : 0 ≤ group.pending)
    (h : Inspected spec listing inspections (group :: todo) scene) :
    Wp redis (calling allows) (candidate spec group)
      (fun r scene' => (group.pending = 0 → r.1 = group.lastDeliveredID) ∧
        Inspected spec listing (inspections ++ [⟨group, r.1⟩]) todo scene') scene := by
  unfold candidate
  split_ifs with hso
  · refine wp_bind (wp_request h (fun _ cmd hs => hs.perform cmd)
      (fun s _ => ha group.name s) fun s pending s' hs hse => ?_)
    refine wp_bind (wp_require (fun hag => wp_pure ⟨fun hn => ?_, ?_⟩) fun _ => trivial)
    · exact absurd hn hso.ne'
    · exact hs.busy hso hse hag.1
  · have hn : group.pending = 0 := le_antisymm (not_lt.mp hso) hc
    exact wp_pure ⟨fun _ => rfl, h.idle hn⟩

lemma wp_inspectGroup {pass : Pass} (h : Inspected spec listing inspections (group :: todo) scene)
    (hb : Bounded pass.frontier inspections) :
    Wp redis (calling allows) (inspectGroup spec pass group) (fun pass' scene' => ∃ id,
        Inspected spec listing (inspections ++ [⟨group, id⟩]) todo scene' ∧
        Bounded pass'.frontier (inspections ++ [⟨group, id⟩])) scene := by
  refine wp_bind (wp_require (fun hc => wp_bind (wp_mono (wp_candidate ha hc h) ?_))
    fun _ => trivial)
  rintro ⟨id, count⟩ scene' ⟨ht, hi⟩
  refine wp_bind (wp_ofExcept (fun parsed hp => wp_bind (wp_ofExcept (fun next hn => ?_)
    fun _ _ => trivial)) fun _ _ => trivial)
  refine wp_pure ⟨id, hi, ?_⟩
  exact hb.snoc hc ht (ok_of_mapError hp) (ok_of_mapError hn)

lemma wp_inspectGroups {pass : Pass} (h : Inspected spec listing inspections todo scene)
    (hb : Bounded pass.frontier inspections) :
    Wp redis (calling allows) (inspectGroups spec todo pass)
      (fun pass' scene' => ∃ insp', insp'.map (·.group) =
          inspections.map (·.group) ++ todo ∧
        Inspected spec listing insp' [] scene' ∧ Bounded pass'.frontier insp')
      scene := by
  induction todo generalizing inspections pass scene with
  | nil => exact wp_pure ⟨inspections, (List.append_nil _).symm, h, hb⟩
  | cons group todo ih =>
    refine wp_bind (wp_mono (wp_inspectGroup ha h hb) ?_)
    rintro pass' scene' ⟨id, hi, hb'⟩
    refine wp_mono (ih hi hb') ?_
    rintro pass'' scene'' ⟨insp', hg, hr⟩
    exact ⟨insp', by rw [hg]; simp, hr⟩

end

end Loop

/-! ### The whole pass -/

variable {name : String}

/-- All that a pass has seen when it trims below `bound`. -/
structure Warranted (spec : StreamSpec) (bound : StreamID) (listing : Server)
    (inspections : List Inspection) (scene : Scene) : Prop where
  /-- No expected group is missing. -/
  expected : ∀ name ∈ spec.expectedGroups, ∃ i ∈ inspections, i.group.name = name
  /-- No id that was taken is malformed. -/
  good : ∀ i ∈ inspections, i.Good bound
  /-- Every call was answered, and every answer about pending entries agreed with the listing. -/
  seen : ∃ rest length, rest.map Prod.snd = inspections.filterMap (·.exchange spec) ++
      [⟨.length spec.name, .ok length⟩] ∧
    scene.seen = (listing, ⟨.groups spec.name, .ok (inspections.map (·.group))⟩) :: rest
  listed : scene.faithful → (answer listing (.groups spec.name)).1 = .ok (inspections.map (·.group))
  past : scene.faithful → ∀ i ∈ inspections, Past scene.server spec.name i.group.name bound

lemma Warranted.perform (h : Warranted spec bound listing inspections scene) (cmd : Command) :
    Warranted spec bound listing inspections
      { scene with server := scene.server.perform cmd } :=
  ⟨h.expected, h.good, h.seen, h.listed, fun hf i hi => (h.past hf i hi).perform cmd⟩

lemma Inspected.warranted (h : Inspected spec listing inspections [] scene)
    (hg : ∀ i ∈ inspections, i.Good bound)
    (he : missingGroup spec (inspections.map (·.group)) = none)
    (hs : Served (.length spec.name) (.ok length) scene scene') :
    Warranted spec bound listing inspections scene' where
  expected name hn := by
    have ha := List.find?_eq_none.mp he name hn
    simpa using ha
  good := hg
  seen := by
    obtain ⟨rest, hr, hse⟩ := h.seen
    rw [List.append_nil] at hse
    refine ⟨rest ++ [(scene.server, ⟨.length spec.name, .ok length⟩)], length, ?_, ?_⟩
    · rw [List.map_append, hr]
      rfl
    · rw [hs.seen, hse]
      rfl
  listed hf := by rw [h.listed (hs.faithful hf).1, List.append_nil]
  past hf i hi := by
    obtain ⟨id, hid, hle⟩ := (hg i hi).above
    rw [hs.server nofun]
    exact (h.past (hs.faithful hf).1 i hi id hid).mono hle

/-- The calls of a pass: it trims its own stream, and only with a warrant. -/
def Allowed (dryRun : Bool) (spec : StreamSpec) : BackendCall → Scene → Prop
  | .trimMinID stream frontier, scene => stream = spec.name ∧ dryRun = false ∧
      ∃ bound listing inspections, parseStreamID frontier = .ok bound ∧
        Warranted spec bound listing inspections scene
  | _, _ => True

lemma wp_runOnce (dryRun : Bool) (spec : StreamSpec) (scene : Scene) (h : scene.seen = []) :
    Wp redis (calling (Allowed dryRun spec)) (runOnce dryRun spec) (fun _ _ => True) scene := by
  refine wp_bind (wp_require (fun _ => wp_bind (wp_request (P := fun s => s.seen = []) h
    (fun _ _ hs => hs) (fun _ _ => trivial)
    fun listing (groups : List RetentionGroup) s hl hse => ?_)) fun _ => trivial)
  refine wp_bind (wp_require (fun hso => wp_bind (wp_mono (wp_inspectGroups
    (fun _ _ => trivial) (.start hl hse) (.inl ⟨rfl, rfl⟩)) ?_)) fun _ => trivial)
  rintro pass s' ⟨inspections, hg, hi, hb⟩
  subst hg
  obtain ⟨bound, hbo, hgo⟩ := hb.resolve_left fun hem => hso (by simp [hem.1])
  refine wp_bind (wp_require (fun he => wp_bind (wp_request hi
    (fun _ cmd hs => hs.perform cmd) (fun _ _ => trivial)
    fun before length after hbe hle => ?_)) fun _ => trivial)
  have hw := hbe.warranted hgo he hle
  split_ifs with hd
  · exact wp_pure trivial
  · refine wp_bind (wp_request hw (fun _ cmd hs => hs.perform cmd)
      (fun s hs => ⟨rfl, by simpa using hd, bound, _, _, hbo, hs⟩) fun _ _ _ _ _ => ?_)
    exact wp_pure trivial

/-! ### What is removed -/

/-- The entry is in the stream. -/
def Holds (s : Server) (name : String) (id : StreamID) : Prop :=
  ∃ st, s.lookup name = some st ∧ id ∈ st.entries

lemma Holds.perform (h : Holds s name id)
    (cmd : Command) : Holds (s.perform cmd) name id := by
  obtain ⟨st, hst, hid⟩ := h
  obtain ⟨st', hst', hl⟩ := Server.later_perform hst cmd
  exact ⟨st', hst', hl.entries hid⟩

lemma Holds.answer (h : Holds s name id) (hg : ¬ Holds (answer s c).2 name id) :
    ∃ fr bound, c = .trimMinID name fr ∧ parseStreamID fr = .ok bound ∧
      id < bound := by
  cases c with
  | groups | pending | length => exact absurd h hg
  | trimMinID stream fr =>
    obtain ⟨st, hst, hid⟩ := h
    cases hb : parseStreamID fr with
    | error e => exact absurd ⟨st, by simpa [Retention.answer, hb] using hst, hid⟩ hg
    | ok bound =>
      cases hst' : s.lookup stream with
      | none => exact absurd ⟨st, by simpa [Retention.answer, hb, hst'] using hst, hid⟩ hg
      | some st' =>
        simp only [Retention.answer, hb, hst'] at hg
        by_cases heq : name = stream
        · subst heq
          obtain rfl : st' = st := Option.some.inj (hst'.symm.trans hst)
          refine ⟨fr, bound, rfl, hb, lt_of_not_ge fun hle => hg ?_⟩
          exact ⟨st'.trim bound, AList.lookup_insert s, List.mem_filter.mpr ⟨hid, by simpa⟩⟩
        · refine absurd ⟨st, ?_, hid⟩ hg
          rw [Table.lookup_insert_eq, if_neg heq]
          exact hst

lemma Holds.step (hst : redis.step (scene, p) a = some (scene', p'))
    (h : Holds scene.server name id) (hg : ¬ Holds scene'.server name id) :
    ∃ fr bound k o, p = .call (.trimMinID name fr) k ∧ a = .reply o ∧
      (∀ e, o ≠ .refused e) ∧ parseStreamID fr = .ok bound ∧ id < bound := by
  cases a with
  | other cmd =>
    cases hst
    exact absurd (h.perform cmd) hg
  | reply o =>
    cases p with
    | pure | throw => cases hst
    | call c k =>
      obtain ⟨⟨r, s⟩, hs, heq⟩ := Option.map_eq_some_iff.mp hst
      obtain ⟨rfl, rfl⟩ := Prod.mk.inj heq
      have hd : (∀ e, o ≠ .refused e) ∧ s.server = (Retention.answer scene.server c).2 := by
        cases o with
        | answered | lost e =>
          cases hs
          exact ⟨nofun, rfl⟩
        | refused e =>
          cases hs
          exact absurd h hg
        | forged f =>
          obtain ⟨v, -, heq⟩ := Option.map_eq_some_iff.mp hs
          obtain ⟨-, rfl⟩ := Prod.mk.inj heq
          exact ⟨nofun, rfl⟩
      obtain ⟨fr, bound, rfl, hb, hlt⟩ := h.answer (hd.2 ▸ hg)
      exact ⟨fr, bound, k, o, rfl, rfl, hd.1, hb, hlt⟩

lemma listed_of_group (h : (answer s (.groups stream)).1 = .ok groups)
    (hst : s.lookup stream = some st) (hg : st.groups.lookup name = some g) :
    ∃ group ∈ groups, group.name = name := by
  simp only [answer, hst] at h
  cases h
  exact ⟨_, List.mem_map.mpr ⟨⟨name, g⟩, AList.mem_lookup_iff.mp hg, rfl⟩, rfl⟩

/-- **Retention removes nothing that somebody needs.** In every interleaving of a pass with the
commands of the others and whatever becomes of its calls, a step that removes an entry is the trim
of the pass, and not one that was refused. By then every call was answered, no expected group was
missing, every id that was taken was well formed and every pending count agreed. If it was Redis
that gave the answers, then every group that existed when the groups were listed has acknowledged
the entry, unless the group was created at that id or above it and never was to get it. -/
theorem removed_by_warranted_trim {dryRun : Bool} {spec : StreamSpec} {server : Server}
    {actions : List (Action Command Outcome)} {scene scene' : Scene}
    {p p' : RetentionM RetentionResult} {a : Action Command Outcome} {name : String} {st : Stream}
    {id : StreamID}
    (hrun : exec redis.step (⟨server, [], true⟩, runOnce dryRun spec) actions = some (scene, p))
    (hstep : redis.step (scene, p) a = some (scene', p'))
    (hst : scene.server.lookup name = some st) (hid : id ∈ st.entries)
    (hgone : ¬ Holds scene'.server name id) :
    name = spec.name ∧ dryRun = false ∧
    (∃ frontier k o, p = .call (.trimMinID name frontier) k ∧ a = .reply o ∧ ∀ e, o ≠ .refused e) ∧
    ∃ bound listing inspections, id < bound ∧ Warranted spec bound listing inspections scene ∧
      (scene.faithful → ∀ st₀ group g₀, listing.lookup name = some st₀ →
        st₀.groups.lookup group = some g₀ →
        ∃ g, st.groups.lookup group = some g ∧ (id ≤ g.start ∨ id ∈ g.acknowledged)) := by
  obtain ⟨frontier, bound, k, o, rfl, rfl, hd, hb, hlt⟩ :=
    Holds.step hstep ⟨st, hst, hid⟩ hgone
  have ha := (wp_runOnce dryRun spec ⟨server, [], true⟩ rfl).allows_of_exec
    (fun _ _ => trivial) hrun
  obtain ⟨rfl, hdr, bound', listing, inspections, hb', hw⟩ := ha
  obtain rfl : bound = bound' := Except.ok.inj (hb.symm.trans hb')
  refine ⟨rfl, hdr, ⟨frontier, k, o, rfl, rfl, hd⟩, bound, listing, inspections, hlt, hw,
    fun hf st₀ group g₀ hst₀ hg₀ => ?_⟩
  obtain ⟨listed, hl, hn⟩ := listed_of_group (hw.listed hf) hst₀ hg₀
  obtain ⟨i, hi, rfl⟩ := List.mem_map.mp hl
  exact hn ▸ (hw.past hf i hi).acknowledged hst hid hlt

lemma not_holds (h : (s.lookup name).map Stream.entries = some ids) (hid : id ∉ ids) :
    ¬ Holds s name id := by
  rintro ⟨st, hst, hm⟩
  rw [hst] at h
  exact hid (Option.some.inj h ▸ hm)

/-! A pass over the events stream while its only group works. -/

def eventsSpec : StreamSpec := ⟨"codohue:events", "events", ["codohue-ingest"]⟩

/-- Two entries are read, and those in `acked` acknowledged. -/
def consume (acked : List StreamID) : List (Action Command Outcome) :=
  [.createGroup "codohue-ingest" .zero, .add ⟨1, 0⟩, .add ⟨2, 0⟩,
    .readGroup "codohue-ingest" "worker" 2 false, .ack "codohue-ingest" acked].map
      fun op => .other ⟨"codohue:events", op⟩

/-- A pass up to some point, and the step after it. -/
def passAndStep (actions : List (Action Command Outcome)) (a : Action Command Outcome) :
    Option ((Scene × RetentionM RetentionResult) × Scene × RetentionM RetentionResult) :=
  (exec redis.step (⟨∅, [], true⟩, runOnce false eventsSpec) actions).bind fun x =>
    (redis.step x a).map fun y => (x, y)

lemma passAndStep_eq_some (h : passAndStep actions a = some r) :
    exec redis.step (⟨∅, [], true⟩, runOnce false eventsSpec) actions = some r.1 ∧
      redis.step r.1 a = some r.2 := by
  obtain ⟨x, hx, h⟩ := Option.bind_eq_some_iff.mp h
  obtain ⟨y, hy, rfl⟩ := Option.map_eq_some_iff.mp h
  exact ⟨hx, hy⟩

/-- The entries of the events stream before the step and after it. -/
def entriesAround (r : (Scene × RetentionM RetentionResult) × Scene × RetentionM RetentionResult) :
    Option (List StreamID) × Option (List StreamID) :=
  ((r.1.1.server.lookup "codohue:events").map Stream.entries,
    (r.2.1.server.lookup "codohue:events").map Stream.entries)

theorem removed_by_warranted_trim_drained : ∃ scene p scene' p' st,
    exec redis.step (⟨∅, [], true⟩, runOnce false eventsSpec)
      (consume [⟨1, 0⟩, ⟨2, 0⟩] ++ [.reply .answered, .reply .answered]) = some (scene, p) ∧
    redis.step (scene, p) (.reply .answered) = some (scene', p') ∧
    scene.server.lookup "codohue:events" = some st ∧ ⟨1, 0⟩ ∈ st.entries ∧
    ¬ Holds scene'.server "codohue:events" ⟨1, 0⟩ ∧
    ∃ bound listing inspections, (⟨1, 0⟩ : StreamID) < bound ∧
      Warranted eventsSpec bound listing inspections scene := by
  have hv : (passAndStep (consume [⟨1, 0⟩, ⟨2, 0⟩] ++ [.reply .answered, .reply .answered])
      (.reply .answered)).map entriesAround = some (some [⟨1, 0⟩, ⟨2, 0⟩], some [⟨2, 0⟩]) := by
    decide +kernel
  obtain ⟨⟨⟨scene, p⟩, scene', p'⟩, hp, he⟩ := Option.map_eq_some_iff.mp hv
  obtain ⟨hr, hs⟩ := passAndStep_eq_some hp
  obtain ⟨hb, ha⟩ := Prod.mk.inj he
  obtain ⟨st, hst, hi⟩ := Option.map_eq_some_iff.mp hb
  have hid : ⟨1, 0⟩ ∈ st.entries := hi ▸ List.mem_cons_self
  have hg : ¬ Holds scene'.server "codohue:events" ⟨1, 0⟩ := not_holds ha (by decide)
  obtain ⟨-, -, -, bound, listing, inspections, hlt, hw, -⟩ :=
    removed_by_warranted_trim hr hs hst hid hg
  exact ⟨scene, p, scene', p', st, hr, hs, hst, hid, hg, bound, listing, inspections, hlt, hw⟩

/-- The groups that were listed. -/
def Scene.listing (s : Scene) : Option (List RetentionGroup) :=
  s.seen.findSome? fun
    | (_, ⟨.groups _, .ok groups⟩) => some groups
    | _ => none

def failure : RetentionM RetentionResult → Option RetentionError
  | .throw e => some e
  | _ => none

/-- The last delivered id of a group with pending entries is never read, so it may be malformed;
and a trim whose answer is lost has failed and removed its entries. -/
theorem trims_despite_malformed_id_and_failed_call : (∃ actions scene p scene' p' groups,
      exec redis.step (⟨∅, [], true⟩, runOnce false eventsSpec) actions = some (scene, p) ∧
      redis.step (scene, p) (.reply .answered) = some (scene', p') ∧
      scene.listing = some groups ∧
      (∃ group ∈ groups, group.name = "codohue-ingest" ∧
        ∃ e, parseStreamID group.lastDeliveredID = .error e) ∧
      Holds scene.server "codohue:events" ⟨1, 0⟩ ∧
      ¬ Holds scene'.server "codohue:events" ⟨1, 0⟩) ∧
    ∃ actions scene p scene' p',
      exec redis.step (⟨∅, [], true⟩, runOnce false eventsSpec) actions = some (scene, p) ∧
      redis.step (scene, p) (.reply (.lost "i/o timeout")) = some (scene', p') ∧
      failure p' = some ⟨.trim, "i/o timeout"⟩ ∧
      Holds scene.server "codohue:events" ⟨1, 0⟩ ∧
      ¬ Holds scene'.server "codohue:events" ⟨1, 0⟩ := by
  constructor
  · have hv : (passAndStep (consume [⟨1, 0⟩] ++
        [.reply (.forged (.groups [⟨"codohue-ingest", 1, "latest", 0⟩])), .reply .answered,
          .reply .answered]) (.reply .answered)).map (fun r => (r.1.1.listing, entriesAround r)) =
        some (some [⟨"codohue-ingest", 1, "latest", 0⟩],
          some [⟨1, 0⟩, ⟨2, 0⟩], some [⟨2, 0⟩]) := by decide +kernel
    obtain ⟨⟨⟨scene, p⟩, scene', p'⟩, hp, hf⟩ := Option.map_eq_some_iff.mp hv
    obtain ⟨hl, he⟩ := Prod.mk.inj hf
    obtain ⟨hb, ha⟩ := Prod.mk.inj he
    obtain ⟨hr, hs⟩ := passAndStep_eq_some hp
    obtain ⟨st, hst, hi⟩ := Option.map_eq_some_iff.mp hb
    exact ⟨_, scene, p, scene', p', _, hr, hs, hl,
      ⟨_, List.mem_cons_self, rfl, malformed "latest", by decide⟩,
      ⟨st, hst, hi ▸ List.mem_cons_self⟩, not_holds ha (by decide)⟩
  · have hv : (passAndStep (consume [⟨1, 0⟩, ⟨2, 0⟩] ++ [.reply .answered, .reply .answered])
        (.reply (.lost "i/o timeout"))).map (fun r => (failure r.2.2, entriesAround r)) =
        some (some ⟨.trim, "i/o timeout"⟩, some [⟨1, 0⟩, ⟨2, 0⟩], some [⟨2, 0⟩]) := by
      decide +kernel
    obtain ⟨⟨⟨scene, p⟩, scene', p'⟩, hp, hf⟩ := Option.map_eq_some_iff.mp hv
    obtain ⟨hfa, he⟩ := Prod.mk.inj hf
    obtain ⟨hb, ha⟩ := Prod.mk.inj he
    obtain ⟨hr, hs⟩ := passAndStep_eq_some hp
    obtain ⟨st, hst, hi⟩ := Option.map_eq_some_iff.mp hb
    exact ⟨_, scene, p, scene', p', hr, hs, hfa,
      ⟨st, hst, hi ▸ List.mem_cons_self⟩, not_holds ha (by decide)⟩

end Codohue.Retention
