import Codohue.Middleware

/-!
What a service token can reach.

The router matches the path as it was sent, and the middlewares compare the decoded path with texts
that they put together from the decoded parameters. Both see the same route, however the path is
encoded, because the decoded path is the pattern of the route with the decoded parameters.
-/

namespace Codohue.Http

open Url Router Service

/-! ### The patterns of the routes -/

/-- A namespace can only be a parameter right after the path of all namespaces, and a further text
follows unless that is the whole pattern. -/
def NamespaceFirst (start : Bytes) : List Piece → Bool
  | [.text t, .param n] => t = start ∧ n = "ns"
  | .text t :: .param n :: .text (_ :: _) :: _ => t = start ∧ n = "ns"
  | _ => false

/-- Routes that are for people only. -/
def restricted : List AdminHandler :=
  [.listAccounts, .putAccount, .putServiceToken, .deleteServiceToken, .resetApp,
    .getCurrentSession, .deleteCurrentSession]

/-- The text at the beginning of the pattern. -/
def leading : List Piece → Bytes
  | .text t :: _ => t
  | _ => []

/-- The rules of `RequireIdentity` that go by the path see this of a pattern. -/
def Guarded (route : Route AdminHandler) : Bool :=
  sessionRoute (leading (parse route.pattern)) ||
    (bytes "/api/admin/v1/accounts").isPrefixOf (leading (parse route.pattern)) ||
    (bytes "/api/admin/v1/service-tokens").isPrefixOf (leading (parse route.pattern)) ||
    parse route.pattern = [.text (bytes "/api/admin/v1/reset")]

lemma namespaceFirst_of_mem_admin : ∀ route ∈ adminRoutes,
    "ns" ∈ names (parse route.pattern) → NamespaceFirst namespacePath (parse route.pattern) := by
  decide +kernel

lemma guarded_of_restricted : ∀ route ∈ adminRoutes, route.handler ∈ restricted →
    Guarded route := by
  decide +kernel

lemma eq_of_put : ∀ route ∈ adminRoutes, route.method = "PUT" → (parse route.pattern).length = 2 →
    "ns" ∈ names (parse route.pattern) →
      route = ⟨"PUT", "/api/admin/v1/namespaces/{ns}", .upsertNamespace⟩ := by
  decide +kernel

lemma post_of_mem_data : ∀ route ∈ dataRoutes, route.method = "POST" →
    parse route.pattern =
        [.text (bytes "/v1/namespaces/"), .param "ns",
          .text (leading ((parse route.pattern).drop 2))] ∧
      (leading ((parse route.pattern).drop 2) = bytes "/rankings" → route.handler = .rank) := by
  decide +kernel

/-! ### The rules that go by the path -/

variable {r : Request} {a : Access.Actor} {p : Bytes} {params : Params}

section Rules

variable {value : String → Bytes} {start : Bytes}

lemma isPrefixOf_render (h : start.isPrefixOf (leading pieces)) :
    start.isPrefixOf (render value pieces) := by
  rw [List.isPrefixOf_iff_prefix] at h ⊢
  match pieces with
  | [] => exact h
  | .text t :: pieces => exact h.trans (List.prefix_append _ _)
  | .param n :: pieces => exact h.trans (List.nil_prefix)

lemma length_eq_two (h : NamespaceFirst start pieces)
    (hp : render value pieces = start ++ value "ns") : pieces.length = 2 := by
  match pieces, h with
  | [.text t, .param n], _ => rfl
  | .text t :: .param n :: .text (c :: cs) :: rest, h =>
    obtain ⟨rfl, rfl⟩ := of_decide_eq_true h
    have hl := congrArg List.length hp
    simp [render, Piece.render] at hl

variable {route : Route AdminHandler} {ns : Bytes}

lemma urlParam_eq_nil (h : Router.urlParam params "ns" = []) : urlParam r.url params "ns" = [] := by
  simp [urlParam, h]

lemma not_allowed_of_guarded (hr : Guarded route) (ha : a.role = .service)
    (hh : r.authorization ≠ "") (hp : r.url.path = render value (parse route.pattern)) :
    allowed a r ns = false := by
  have hg : sessionRoute r.url.path = true ∨ sensitive r.url.path = true := by
    rw [hp]
    simp only [Guarded, Bool.or_eq_true, decide_eq_true_eq] at hr
    rcases hr with ((h | h) | h) | h
    · exact .inl (isPrefixOf_render h)
    · exact .inr (by simp [sensitive, isPrefixOf_render h])
    · exact .inr (by simp [sensitive, isPrefixOf_render h])
    · exact .inr (by simp [sensitive, h, render, Piece.render])
  rw [allowed]
  rcases hg with h | h
  · simp [h, hh]
  · simp [h, hh, ha]

lemma granted_of_allowed (ha : a.role = .service) (hh : r.authorization ≠ "")
    (h : allowed a r ns = true) :
    Covers a ns ∧ (ns = [] → "*" ∈ a.namespaces) ∧
      ((if reads r.method then "admin:read" else "admin:write") ∈ a.permissions ∨
        (r.method = "PUT" ∧ ns ≠ [] ∧ r.url.path = namespacePath ++ ns) ∧
          "namespace:provision" ∈ a.permissions) := by
  unfold allowed at h
  simp only [ha, true_and, reduceCtorEq, decide_false, hh] at h
  generalize (if reads r.method = true then "admin:read" else "admin:write") = permission at h ⊢
  have hc {p : String} (hal : allows a p ns = true) (hns : ns ≠ []) :
      p ∈ a.permissions ∧ Covers a ns := by
    obtain ⟨hp, hc⟩ := (allows_service ha).mp hal
    exact ⟨hp, hc.resolve_left hns⟩
  split_ifs at h with hses hse hpu he he
  · exact absurd he hpu.2.1
  · rcases Bool.or_eq_true_iff.mp h with h | h
    · exact ⟨(hc h he).2, fun hns => absurd hns he, .inl (hc h he).1⟩
    · exact ⟨(hc h he).2, fun hns => absurd hns he, .inr ⟨hpu, (hc h he).1⟩⟩
  · obtain ⟨hal, hs⟩ := Bool.and_eq_true_iff.mp h
    have hs := of_decide_eq_true hs
    exact ⟨.inl hs, fun _ => hs, .inl ((allows_service ha).mp hal).1⟩
  · exact ⟨(hc h he).2, fun hns => absurd hns he, .inl (hc h he).1⟩

end Rules

/-! ### Runs of the middlewares -/

section Runs

variable {token : String}

/-- Every answer about the token in the exchanges is the actor. -/
def Resolves (token : String) (a : Access.Actor) (t : List (Σ c, Answer c)) : Prop :=
  ∀ found, ⟨.serviceToken token, found⟩ ∈ t → found = .ok a

lemma bearerActor_traced (legacyKey : String) (hh : r.authorization = "Bearer " ++ token) :
    (bearerActor legacyKey r).Traced fun t x => Resolves token a t → x = .ok a := by
  rw [bearerActor, hh, cutPrefix_append]
  intro found
  match found with
  | .ok b =>
    intro hf
    rw [Except.ok.inj (hf _ List.mem_cons_self)]
  | .error e =>
    refine Program.traced_trivial.mono fun t x _ hf => ?_
    cases hf _ List.mem_cons_self

lemma requireIdentity_traced (legacyKey : String) (route : Route AdminHandler) (params : Params)
    (hh : r.authorization = "Bearer " ++ token) :
    (requireIdentity legacyKey route params r).Traced fun t x =>
      Resolves token a t → ∀ b, x = .ok b → allowed a r (urlParam r.url params "ns") = true := by
  have hne : r.authorization ≠ "" := by
    rw [hh]
    simp
  rw [requireIdentity, if_pos hne]
  refine Program.Traced.bind (bearerActor_traced (a := a) legacyKey hh)
    (fun t b hb => ?_) (fun t e _ _ b hb => nomatch hb)
  have hf : ∀ t', Resolves token a (t ++ t') → b = a := fun t' h =>
    Except.ok.inj (hb fun found hfo => h found (List.mem_append_left _ hfo))
  dsimp only
  split_ifs with ha
  · refine Program.traced_trivial.mono fun t' x _ hr b' _ => ?_
    exact hf t' hr ▸ ha
  · exact fun _ b' hb' => nomatch hb'

lemma requireNamespace_traced (compareHashAndPassword : String → String → Bool) (adminKey : String)
    (params : Params) (hh : r.authorization = "Bearer " ++ token)
    (hns : urlParam r.url params "ns" ≠ []) :
    (requireNamespace compareHashAndPassword adminKey params r).Traced fun t x =>
      Resolves token a t → x = .ok () →
        allows a (dataPermission r (urlParam r.url params "ns")) (urlParam r.url params "ns") := by
  have ht : extractBearerToken r = token := by
    rw [extractBearerToken, hh, cutPrefix_append, Option.getD_some]
  rw [requireNamespace, ht, if_neg hns]
  split_ifs with he
  · rw [he]
    intro hit
    cases hit with
    | true => exact nofun
    | false => exact fun _ => nofun
  · intro found
    match found with
    | .ok b =>
      change Program.Traced (if allows b (dataPermission r _) _ = true then _ else _) _
      split_ifs with ha
      · intro hf _
        exact Except.ok.inj (hf _ List.mem_cons_self) ▸ ha
      · exact fun _ hok => nomatch hok
    | .error e =>
      refine Program.traced_trivial.mono fun t x _ hf => ?_
      cases hf _ List.mem_cons_self

end Runs

section Routes

lemma reads_eq_true : reads method = true ↔ method = "GET" ∨ method = "HEAD" := by
  simp [reads]

lemma upsertNamespace_of_path (hr : route ∈ adminRoutes) (hu : setPath p = some r.url)
    (hme : route.method = "PUT") (h : walk (parse route.pattern) (routePath r.url) = some params)
    (hns : urlParam r.url params "ns" ≠ [])
    (hp : r.url.path = namespacePath ++ urlParam r.url params "ns") :
    route = ⟨"PUT", "/api/admin/v1/namespaces/{ns}", .upsertNamespace⟩ := by
  have hm : "ns" ∈ names (parse route.pattern) := by
    by_contra hm
    exact hns (urlParam_eq_nil (urlParam_of_notMem (walk_names h ▸ hm)))
  rw [path_eq_render hu (regular_of_mem_admin route hr) h] at hp
  have hl := length_eq_two (namespaceFirst_of_mem_admin route hr hm) hp
  exact eq_of_put route hr hme hl hm

lemma isRankingRead_eq_false (hr : route ∈ dataRoutes) (hu : setPath p = some r.url)
    (hm : route.method = r.method) (h : walk (parse route.pattern) (routePath r.url) = some params)
    (hra : route.handler ≠ .rank) : isRankingRead r (urlParam r.url params "ns") = false := by
  refine decide_eq_false ?_
  rintro ⟨hpo, hp⟩
  obtain ⟨hpi, ht⟩ := post_of_mem_data route hr (hm.trans hpo)
  refine hra (ht ?_)
  rw [path_eq_render hu (regular_of_mem_data route hr) h, hpi] at hp
  simpa [render, Piece.render] using hp

end Routes

/-! ### Service tokens -/

/-- What a service token needs to have been granted for a route of the admin server. -/
structure AdminGrant (a : Access.Actor) (route : Route AdminHandler) (method : String)
    (ns : Bytes) : Prop where
  covers : "ns" ∈ names (parse route.pattern) → Covers a ns
  star : "ns" ∉ names (parse route.pattern) → "*" ∈ a.namespaces
  read : method = "GET" ∨ method = "HEAD" → "admin:read" ∈ a.permissions
  write : ¬ (method = "GET" ∨ method = "HEAD") → "admin:write" ∈ a.permissions ∨
    (route = ⟨"PUT", "/api/admin/v1/namespaces/{ns}", .upsertNamespace⟩ ∧
      "namespace:provision" ∈ a.permissions)
  unrestricted : route.handler ∉ restricted

/-- A service token stays inside its grant, however the path is encoded: on the admin server, and
in a namespace of the data plane, where whatever is not a read needs the permission to write. -/
theorem service_token_inside_grant (legacyKey adminKey : String)
    (compareHashAndPassword : String → String → Bool) {a : Access.Actor}
    (ha : a.role = .service) {token : String} {r : Request} {p : Bytes}
    (hurl : setPath p = some r.url) (hheader : r.authorization = "Bearer " ++ token) :
    (∀ route ∈ adminRoutes, ∀ params t b, route.bind r.method r.url = some params →
      (requireIdentity legacyKey route params r).Runs t (.ok b) → Resolves token a t →
        AdminGrant a route r.method (urlParam r.url params "ns")) ∧
    (∀ route ∈ dataRoutes, ∀ params t, route.bind r.method r.url = some params →
      (requireNamespace compareHashAndPassword adminKey params r).Runs t (.ok ()) →
      Resolves token a t → route.handler ≠ .rank → ¬ (r.method = "GET" ∨ r.method = "HEAD") →
      urlParam r.url params "ns" ≠ [] →
        "data:write" ∈ a.permissions ∧ Covers a (urlParam r.url params "ns")) := by
  have hne : r.authorization ≠ "" := by
    rw [hheader]
    simp
  constructor
  · intro route hr params t b hb hru hre
    rw [Route.bind] at hb
    split_ifs at hb with hm
    have hpa := path_eq_render hurl (regular_of_mem_admin route hr) hb
    have hal := (requireIdentity_traced legacyKey route params hheader).runs hru hre b rfl
    obtain ⟨hc, hs, hp⟩ := granted_of_allowed ha hne hal
    refine ⟨fun _ => hc, fun hns => hs ?_, fun hg => ?_, fun ho => ?_, fun hme => ?_⟩
    · exact urlParam_eq_nil (urlParam_of_notMem (walk_names hb ▸ hns))
    · rw [if_pos (reads_eq_true.mpr hg)] at hp
      refine hp.resolve_right ?_
      rintro ⟨⟨hpu, -⟩, -⟩
      rcases hg with hg | hg <;> exact absurd (hg.symm.trans hpu) (by decide)
    · rw [if_neg (mt reads_eq_true.mp ho)] at hp
      refine hp.imp_right ?_
      rintro ⟨⟨hpu, hns, hn⟩, hpr⟩
      exact ⟨upsertNamespace_of_path hr hurl (hm.trans hpu) hb hns hn,
        hpr⟩
    · have hgu := guarded_of_restricted route hr hme
      rw [not_allowed_of_guarded hgu ha hne hpa] at hal
      cases hal
  · intro route hr params t hb hru hre hra hw hns
    rw [Route.bind] at hb
    split_ifs at hb with hm
    have hall := (requireNamespace_traced _ _ params hheader hns).runs hru hre rfl
    have hp : dataPermission r (urlParam r.url params "ns") = "data:write" :=
      if_pos ⟨Bool.eq_false_iff.mpr (mt reads_eq_true.mp hw),
        isRankingRead_eq_false hr hurl hm hb hra⟩
    rw [hp] at hall
    obtain ⟨hme, hc⟩ := (allows_service ha).mp hall
    exact ⟨hme, hc.resolve_left hns⟩

namespace Sample

/-- A request with a bearer, for a path that parses. -/
def request (method target : String) : Request :=
  { method := method
    url := (setPath (bytes target)).getD ⟨[], []⟩
    authorization := "Bearer " ++ "t0ken"
    cookie := none
    csrfOK := false
    remoteIP := "192.0.2.1" }

/-- A store that resolves every token to the actor. -/
def answers (a : Access.Actor) : (c : Call) → Answer c
  | .serviceToken _ => .ok a
  | .session _ => .error .credentials
  | .allowAttempt _ => .ok true
  | .refundAttempt _ => .ok ()
  | .audit _ _ _ => .ok ()
  | .keyHash _ => .ok ""
  | .hit _ _ => false
  | .put _ _ => ()

lemma resolves_exchanges {α : Type} (token : String) (a : Access.Actor) (p : MiddlewareM α) :
    Resolves token a (p.exchanges (answers a)) := by
  intro found hf
  have ha := Program.eq_answer_of_mem_exchanges hf
  exact eq_of_heq (Sigma.mk.inj ha).2

def provisioner : Access.Actor :=
  ⟨"ci", .service, ["namespace:provision", "data:write"], ["shop"], 0⟩

def reader : Access.Actor := ⟨"web", .service, ["data:read"], ["shop"], 0⟩

/-- The same namespace, with one letter escaped. -/
def putShop : Request := request "PUT" "/api/admin/v1/namespaces/sh%6Fp"

def postShop : Request := request "POST" "/v1/namespaces/s%68op/events"

def postNowhere : Request := request "POST" "/v1/namespaces//events"

end Sample

open Sample in
/-- A token that may only read goes through to the handler of events, for the namespace is empty. -/
theorem empty_namespace_unchecked :
    setPath (bytes "/v1/namespaces//events") = some postNowhere.url ∧
      postNowhere.authorization = "Bearer " ++ "t0ken" ∧ postNowhere.method = "POST" ∧
      reader.role = .service ∧ "data:write" ∉ reader.permissions ∧
      (⟨"POST", "/v1/namespaces/{ns}/events", .ingest⟩ : Route DataHandler) ∈ dataRoutes ∧
      Route.bind (⟨"POST", "/v1/namespaces/{ns}/events", .ingest⟩ : Route DataHandler) "POST"
        postNowhere.url = some [("ns", [])] ∧
      (requireNamespace (fun _ _ => false) "" [("ns", [])] postNowhere).Runs [] (.ok ()) ∧
      Resolves "t0ken" reader [] :=
  ⟨by decide +kernel, rfl, rfl, rfl, by decide, by decide, by decide +kernel, ⟨rfl, rfl⟩, nofun⟩

open Sample in
theorem service_token_inside_grant_shop :
    AdminGrant provisioner ⟨"PUT", "/api/admin/v1/namespaces/{ns}", .upsertNamespace⟩ "PUT"
        (bytes "shop") ∧
      "data:write" ∈ provisioner.permissions ∧ Covers provisioner (bytes "shop") := by
  constructor
  · have hok : ((requireIdentity "" ⟨"PUT", "/api/admin/v1/namespaces/{ns}", .upsertNamespace⟩
        [("ns", bytes "sh%6Fp")] putShop).eval (answers provisioner)).isOk = true := by
      decide +kernel
    obtain ⟨b, hr⟩ := Program.exists_runs_ok hok
    exact (service_token_inside_grant "" "" (fun _ _ => false) (a := provisioner) rfl
      (r := putShop) (p := bytes "/api/admin/v1/namespaces/sh%6Fp") (by decide +kernel) rfl).1
      ⟨"PUT", "/api/admin/v1/namespaces/{ns}", .upsertNamespace⟩ (by decide) _ _ b
      (by decide +kernel) hr (resolves_exchanges _ _ _)
  · have hok : ((requireNamespace (fun _ _ => false) "" [("ns", bytes "s%68op")] postShop).eval
        (answers provisioner)).isOk = true := by
      decide +kernel
    obtain ⟨_, hr⟩ := Program.exists_runs_ok hok
    exact (service_token_inside_grant "" "" (fun _ _ => false) (a := provisioner) rfl
      (r := postShop) (p := bytes "/v1/namespaces/s%68op/events") (by decide +kernel) rfl).2
      ⟨"POST", "/v1/namespaces/{ns}/events", .ingest⟩ (by decide) _ _ (by decide +kernel) hr
      (resolves_exchanges _ _ _) (by decide) (by decide) (by decide +kernel)

end Codohue.Http
