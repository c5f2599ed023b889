import Codohue.AccessRuns

/-!
The transactions that the sessions of the identity store have open are those that the sessions have
begun and not ended, and a transaction holds what its statements have written.
-/

namespace Codohue.Access

open Service Transition ReadCommitted

/-! ### What a call does to the database -/

variable {c : Call}

variable {st : Statement} {ws : List Write}
variable {t : ℕ}

section Serve

lemma serve_begin (h : serve t .begin s o = some (r, s')) :
    (r = .ok () ∧ s' = s.begin t) ∨ (∃ e, r = .error e) ∧ s' = s := by
  cases o with
  | ok reply =>
    cases h
    exact .inl ⟨rfl, rfl⟩
  | fails text | lost reply text =>
    cases h
    exact .inr ⟨⟨_, rfl⟩, rfl⟩

lemma serve_commit (h : serve t .commit s o = some (r, s')) :
    s' = s.commit t ∨ (∃ e, r = .error e) ∧ s' = s.rollback t := by
  cases o with
  | ok reply | lost reply text => exact .inl (Prod.mk.inj (Option.some.inj h)).2.symm
  | fails text =>
    cases h
    exact .inr ⟨⟨_, rfl⟩, rfl⟩

lemma serve_rollback (h : serve t .rollback s o = some (r, s')) : s' = s.rollback t := by
  cases o <;> exact (Prod.mk.inj (Option.some.inj h)).2.symm

lemma serve_draw (h : serve t .draw s o = some (r, s')) : s' = s := by
  cases o <;> exact (Prod.mk.inj (Option.some.inj h)).2.symm

lemma perform_sql (h : perform t s reply (.sql st) = some (r, s')) :
    ((∃ e, r = .error e) ∧ s' = s) ∨
      ∃ v ws, st.run reply.now (s.view t) = .ok (v, ws) ∧ s.write t ws = some s' ∧ r = .ok v := by
  cases hr : st.run reply.now (s.view t) with
  | error e =>
    simp only [perform, hr] at h
    cases h
    exact .inl ⟨⟨e, rfl⟩, rfl⟩
  | ok p =>
    simp only [perform, hr] at h
    obtain ⟨s₁, hw, heq⟩ := Option.map_eq_some_iff.mp h
    obtain ⟨rfl, rfl⟩ := Prod.mk.inj heq
    exact .inr ⟨p.1, p.2, rfl, hw, rfl⟩

lemma serve_sql (h : serve t (.sql st) s o = some (r, s')) :
    ((∃ e, r = .error e) ∧ s' = s) ∨
      ∃ now v ws, st.run now (s.view t) = .ok (v, ws) ∧ s.write t ws = some s' ∧
        (r = .ok v ∨ ∃ e, r = .error e) := by
  cases o with
  | ok reply =>
    rcases perform_sql h with hf | ⟨v, ws, hru, hw, hr⟩
    · exact .inl hf
    · exact .inr ⟨reply.now, v, ws, hru, hw, .inl hr⟩
  | fails text =>
    cases h
    exact .inl ⟨⟨_, rfl⟩, rfl⟩
  | lost reply text =>
    obtain ⟨⟨r', s₁⟩, hp, heq⟩ := Option.map_eq_some_iff.mp h
    obtain ⟨rfl, rfl⟩ := Prod.mk.inj heq
    rcases perform_sql hp with ⟨-, hs⟩ | ⟨v, ws, hru, hw, -⟩
    · exact .inl ⟨⟨_, rfl⟩, hs⟩
    · exact .inr ⟨reply.now, v, ws, hru, hw, .inr ⟨_, rfl⟩⟩

lemma serve_moves (h : serve t c s o = some (r, s')) : Database.Moves t s s' := by
  cases c with
  | begin =>
    rcases serve_begin h with ⟨-, hs⟩ | ⟨-, hs⟩
    · exact .begins hs
    · exact .stays hs
  | sql st =>
    rcases serve_sql h with ⟨-, hs⟩ | ⟨now, v, ws, -, hw, -⟩
    · exact .stays hs
    · exact .writes ws hw
  | commit =>
    rcases serve_commit h with hs | ⟨-, hs⟩
    · exact .commits hs
    · exact .rollsBack hs
  | rollback => exact .rollsBack (serve_rollback h)
  | draw => exact .stays (serve_draw h)

/-- What a call commits: nothing, its transaction, or what a statement outside of one writes. -/
lemma serve_committed (h : serve t c s o = some (r, s')) :
    s'.committed = s.committed ∨ (c = .commit ∧ s' = s.commit t) ∨
      ∃ st now v ws, c = .sql st ∧ s.pending.lookup t = none ∧
        Statement.run now (s.view t) st = .ok (v, ws) ∧
          s'.committed = rows.applyAll ws s.committed := by
  cases c with
  | begin => rcases serve_begin h with ⟨-, rfl⟩ | ⟨-, rfl⟩ <;> exact .inl rfl
  | sql st =>
    rcases serve_sql h with ⟨-, rfl⟩ | ⟨now, v, ws, hr, hw, -⟩
    · exact .inl rfl
    · obtain ⟨-, ⟨hn, hc, -⟩ | ⟨-, -, hc, -⟩⟩ := Database.write_eq_some hw
      · exact .inr (.inr ⟨st, now, v, ws, rfl, hn, hr, hc⟩)
      · exact .inl hc
  | commit =>
    rcases serve_commit h with rfl | ⟨-, rfl⟩
    · exact .inr (.inl ⟨rfl, rfl⟩)
    · exact .inl rfl
  | rollback => exact .inl (by rw [serve_rollback h]; rfl)
  | draw => exact .inl (by rw [serve_draw h])

/-- What the session's own transaction has to write after a call, if it is open: what it had to
write before, and what a statement adds. Nothing is committed meanwhile. -/
lemma serve_pending (h : serve t c s o = some (r, s')) (hws : s'.pending.lookup t = some ws) :
    s'.committed = s.committed ∧
      (ws = [] ∨ s.pending.lookup t = some ws ∨
        ∃ st now v ws₀ l, c = .sql st ∧ s.pending.lookup t = some ws₀ ∧
          Statement.run now (s.view t) st = .ok (v, l) ∧ ws = ws₀ ++ l) := by
  cases c with
  | begin =>
    rcases serve_begin h with ⟨-, rfl⟩ | ⟨-, rfl⟩
    · rw [Database.lookup_begin] at hws
      exact ⟨rfl, .inl (Option.some.inj hws).symm⟩
    · exact ⟨rfl, .inr (.inl hws)⟩
  | sql st =>
    rcases serve_sql h with ⟨-, rfl⟩ | ⟨now, v, l, hr, hw, -⟩
    · exact ⟨rfl, .inr (.inl hws)⟩
    obtain ⟨-, ⟨hn, -, hp⟩ | ⟨ws₀, hws₀, hc, hp⟩⟩ :=
      Database.write_eq_some hw
    · rw [hp, hn] at hws
      cases hws
    · rw [hp, AList.lookup_insert] at hws
      exact ⟨hc, .inr (.inr ⟨st, now, v, ws₀, l, rfl, hws₀, hr, (Option.some.inj hws).symm⟩)⟩
  | commit =>
    rcases serve_commit h with rfl | ⟨-, rfl⟩
    · cases Database.lookup_commit.symm.trans hws
    · cases Database.lookup_rollback.symm.trans hws
  | rollback =>
    rw [serve_rollback h, Database.lookup_rollback] at hws
    cases hws
  | draw =>
    rw [serve_draw h] at hws ⊢
    exact ⟨rfl, .inr (.inl hws)⟩

end Serve

/-! ### Sessions and their transactions -/

/-- The open transaction of a session, next to what the session has done. -/
structure Agrees (done : List Exchange) (pending : Option (List Write)) : Prop where
  isSome : pending.isSome = inTransaction done
  /-- Whatever a statement has written is there. -/
  kept : ∀ {st : Statement} {v : st.Value} {ws}, ⟨.sql st, .ok v⟩ ∈ done → pending = some ws →
    ∃ now d l, st.run now d = .ok (v, l) ∧ ∀ w ∈ l, w ∈ ws
  /-- Whatever is there, a statement has written. -/
  sent : ∀ {ws w}, pending = some ws → w ∈ ws → ∃ st r, ⟨.sql st, r⟩ ∈ done ∧ st.kind? = some w.kind

lemma agrees_nil : Agrees [] none := ⟨rfl, nofun, nofun⟩

variable {R : Runtime}

section Agrees

variable {request : Request}

lemma inTransaction_snoc (hb : e.begins = false) (he : e.ends = false) :
    inTransaction (done ++ [e]) = inTransaction done := by
  simp [inTransaction, hb, he]

lemma inTransaction_snoc_ends (he : e.ends = true) : inTransaction (done ++ [e]) = false := by
  simp [inTransaction, he]

lemma Agrees.skip (h : Agrees done pending) (hb : e.begins = false) (he : e.ends = false)
    (hk : ∀ {st : Statement} {v : st.Value} {ws}, e = ⟨.sql st, .ok v⟩ → pending = some ws →
      ∃ now d l, st.run now d = .ok (v, l) ∧ ∀ w ∈ l, w ∈ ws) : Agrees (done ++ [e]) pending := by
  refine ⟨by rw [inTransaction_snoc hb he, h.isSome], ?_, ?_⟩
  · intro st v ws hm hws
    rcases List.mem_append.mp hm with ho | hn
    · exact h.kept ho hws
    · exact hk (List.mem_singleton.mp hn).symm hws
  · intro ws w hws hw
    obtain ⟨st, r, hm, hki⟩ := h.sent hws hw
    exact ⟨st, r, List.mem_append_left _ hm, hki⟩

lemma Agrees.extend {r : Answer (.sql st)} {v : st.Value} (h : Agrees done (some ws))
    (hru : st.run now d = .ok (v, l)) (hr : r = .ok v ∨ ∃ e, r = .error e) :
    Agrees (done ++ [⟨.sql st, r⟩]) (some (ws ++ l)) := by
  refine ⟨by rw [inTransaction_snoc rfl rfl, ← h.isSome]; rfl, ?_, ?_⟩
  · intro st' v' ws' hm hws
    cases hws
    rcases List.mem_append.mp hm with ho | hn
    · obtain ⟨now', d', l', hru', hs⟩ := h.kept ho rfl
      exact ⟨now', d', l', hru', fun w hw => List.mem_append_left _ (hs w hw)⟩
    · obtain ⟨hst, hv⟩ := Sigma.mk.inj (List.mem_singleton.mp hn)
      obtain rfl := Call.sql.inj hst
      obtain rfl := eq_of_heq hv
      rcases hr with hr | ⟨e, hr⟩
      · cases hr
        exact ⟨now, d, l, hru, fun w hw => List.mem_append_right _ hw⟩
      · cases hr
  · intro ws' w hws hw
    cases hws
    rcases List.mem_append.mp hw with hw | hw
    · obtain ⟨st', r', hm, hk⟩ := h.sent rfl hw
      exact ⟨st', r', List.mem_append_left _ hm, hk⟩
    · exact ⟨st, r, List.mem_append_right _ List.mem_cons_self, Statement.kind_of_run hru hw⟩

lemma agrees_sql {r : Answer (.sql st)} (h : Agrees done (s.pending.lookup t))
    (hs : serve t (.sql st) s o = some (r, s')) :
    Agrees (done ++ [⟨.sql st, r⟩]) (s'.pending.lookup t) := by
  rcases serve_sql hs with ⟨⟨e, rfl⟩, rfl⟩ | ⟨now, v, ws, hru, hw, hr⟩
  · exact h.skip rfl rfl nofun
  · obtain ⟨-, ⟨hn, -, hp⟩ | ⟨ws₀, hso, -, hp⟩⟩ := Database.write_eq_some hw
    · -- outside a transaction nothing is kept
      rw [hp]
      refine h.skip rfl rfl fun _ hws => ?_
      cases hn.symm.trans hws
    · rw [hso] at h
      rw [hp, AList.lookup_insert]
      exact h.extend hru hr

lemma agrees_call (h : Agrees done (s.pending.lookup t)) (hc : Calls R request done c)
    (hs : serve t c s o = some (r, s')) :
    Agrees (done ++ [⟨c, r⟩]) (s'.pending.lookup t) := by
  cases c with
  | begin =>
    rcases serve_begin hs with ⟨rfl, rfl⟩ | ⟨⟨e, rfl⟩, rfl⟩
    · obtain ⟨hst, he⟩ := hc
      rw [Database.lookup_begin]
      refine ⟨?_, ?_, ?_⟩
      · simp [inTransaction, Exchange.begins, Exchange.ends, he]
      · intro st v ws hm
        have ha := List.any_eq_false.mp hst
        rcases List.mem_append.mp hm with ho | hne
        · exact absurd rfl (ha _ ho)
        · cases List.mem_singleton.mp hne
      · intro ws w hws hw
        cases hws
        cases hw
    · exact h.skip rfl rfl nofun
  | sql st => exact agrees_sql h hs
  | commit =>
    have hn : s'.pending.lookup t = none := by
      rcases serve_commit hs with rfl | ⟨-, rfl⟩ <;> simp
    rw [hn]
    exact ⟨(inTransaction_snoc_ends rfl).symm, nofun, nofun⟩
  | rollback =>
    rw [serve_rollback hs, Database.lookup_rollback]
    exact ⟨(inTransaction_snoc_ends rfl).symm, nofun, nofun⟩
  | draw =>
    rw [serve_draw hs]
    exact h.skip rfl rfl nofun

end Agrees

/-! ### Runs -/

section Runs

variable {w : Scene}

/-- The transactions of the sessions, as they are in the database. -/
structure Transactional (R : Runtime) (w : Scene) : Prop where
  faithful : Sessions.Faithful (run R) w
  absent : ∀ {t}, w.session t = none → w.shared.pending.lookup t = none
  agrees : ∀ {t x}, w.session t = some x → Agrees x.done (w.shared.pending.lookup t)

lemma transactional_init : Transactional R init := ⟨nofun, fun _ => rfl, nofun⟩

lemma Transactional.calls (h : Transactional R w) {request : Request}
    (hx : w.session t = some ⟨request, done, .call c k⟩) : Calls R request done c :=
  (follows_run request).call (h.faithful t _ hx)

lemma Transactional.made (h : Transactional R w) (hx : w.session t = some x) (he : e ∈ x.done) :
    ∃ done rest, x.done = done ++ e :: rest ∧ Calls R x.request done e.1 :=
  (follows_run x.request).made (h.faithful t x hx) he

lemma transactional_step (h : Transactional R w) (hst : step R w a = some w') :
    Transactional R w' := by
  refine ⟨Sessions.faithful_step h.faithful hst, ?_, ?_⟩
  · intro u hu
    cases a with
    | start t request =>
      obtain ⟨-, hsh, hs⟩ := Sessions.step_start hst
      rw [hs] at hu
      rw [hsh]
      by_cases hut : u = t
      · rw [hut, Function.update_self] at hu
        cases hu
      · rw [Function.update_of_ne hut] at hu
        exact h.absent hu
    | reply t o =>
      obtain ⟨request, done, c, k, r, hx, hse, hs⟩ := Sessions.step_reply hst
      rw [hs] at hu
      by_cases hut : u = t
      · rw [hut, Function.update_self] at hu
        cases hu
      · rw [Function.update_of_ne hut] at hu
        rw [(serve_moves hse).pending_of_ne hut]
        exact h.absent hu
  · intro u x hx'
    cases a with
    | start t request =>
      obtain ⟨hf, hsh, hs⟩ := Sessions.step_start hst
      rw [hs] at hx'
      rw [hsh]
      rcases Sessions.update_eq_some hx' with ⟨rfl, rfl⟩ | ⟨-, hx'⟩
      · rw [h.absent hf]
        exact agrees_nil
      · exact h.agrees hx'
    | reply t o =>
      obtain ⟨request, done, c, k, r, hx, hse, hs⟩ := Sessions.step_reply hst
      rw [hs] at hx'
      rcases Sessions.update_eq_some hx' with ⟨rfl, rfl⟩ | ⟨hne, hx'⟩
      · exact agrees_call (h.agrees hx) (h.calls hx) hse
      · rw [(serve_moves hse).pending_of_ne hne]
        exact h.agrees hx'

lemma Transactional.holds (h : Transactional R w) (hx : w.session t = some x)
    (hlo : locked x.done = true) :
    w.shared.Holds t .advisory := by
  obtain ⟨hin, hloc⟩ := Bool.and_eq_true_iff.mp hlo
  obtain ⟨ws, hws⟩ := Option.isSome_iff_exists.mp ((h.agrees hx).isSome.trans hin)
  obtain ⟨⟨c, r⟩, hm, hl⟩ := List.any_eq_true.mp hloc
  obtain ⟨rfl, rfl⟩ : ∃ hc : c = .sql .advisoryLock, hc ▸ r = .ok () := by
    unfold Exchange.locks at hl
    split at hl
    · next heq =>
      obtain ⟨rfl, hr⟩ := Sigma.mk.inj heq
      exact ⟨rfl, eq_of_heq hr⟩
    · cases hl
  obtain ⟨now, d, l, hru, hs⟩ := (h.agrees hx).kept hm hws
  cases hru
  exact ⟨ws, .hold .advisory, hws, hs _ List.mem_cons_self, List.mem_cons_self⟩

end Runs

end Codohue.Access
