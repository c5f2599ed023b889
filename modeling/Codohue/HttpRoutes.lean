import Codohue.Router

/-!
The routes of the admin server that stand behind `RequireIdentity` (`cmd/admin/router.go`), and
those of the data plane, behind `RequireNamespace` (`cmd/api/main.go`).
-/

namespace Codohue.Http

open Url Router

/-- `httpapi.URLParam`. -/
def urlParam (u : URL) (params : Params) (key : String) : Bytes :=
  let raw := Router.urlParam params key
  if u.rawPath = [] then raw else (unescape raw).getD raw

/-! ### Tables -/

inductive AdminHandler where
  | getCurrentSession | deleteCurrentSession
  | listAccounts | putAccount
  | putServiceToken | deleteServiceToken
  | getHealth | getRuntime | pingStream | getOverview | streamOps
  | listNamespaces | getNamespace | upsertNamespace | deleteNamespace | rotateNamespaceAPIKey
  | getConfiguration | patchConfiguration | validateConfiguration
  | getNamespaceDashboard
  | resetApp
  | listCatalogStrategies | getCatalogConfig | updateCatalogConfig
  | triggerReEmbed | getCatalogBacklogHistory | getCatalogFailuresSummary | streamCatalog
  | listCatalogItems | bulkRedriveDeadletter | getCatalogItem | redriveCatalogItem
  | deleteCatalogItem
  | getBatchRuns | getBatchRunStats | getBatchRunDetail | streamBatchRun | cancelBatchRun
  | retryBatchRun | createBatchRun
  | getQdrant
  | listSubjects | getSubjectProfile | getSubjectRecommendations
  | getTrending
  | getRecentEvents | streamEvents | getEventsSummary | injectEvent
  | getMetricsSummary
  | createDemoData | deleteDemoData
  deriving DecidableEq, Repr

def adminRoutes : List (Route AdminHandler) := [
  ⟨"GET", "/api/v1/auth/sessions/current", .getCurrentSession⟩,
  ⟨"GET", "/api/admin/v1/accounts", .listAccounts⟩,
  ⟨"PUT", "/api/admin/v1/accounts/{username}", .putAccount⟩,
  ⟨"PUT", "/api/admin/v1/service-tokens/{name}", .putServiceToken⟩,
  ⟨"DELETE", "/api/admin/v1/service-tokens/{name}", .deleteServiceToken⟩,
  ⟨"DELETE", "/api/v1/auth/sessions/current", .deleteCurrentSession⟩,
  ⟨"GET", "/api/admin/v1/health", .getHealth⟩,
  ⟨"GET", "/api/admin/v1/runtime", .getRuntime⟩,
  ⟨"GET", "/api/admin/v1/ping/stream", .pingStream⟩,
  ⟨"GET", "/api/admin/v1/overview", .getOverview⟩,
  ⟨"GET", "/api/admin/v1/stream", .streamOps⟩,
  ⟨"GET", "/api/admin/v1/namespaces", .listNamespaces⟩,
  ⟨"GET", "/api/admin/v1/namespaces/{ns}", .getNamespace⟩,
  ⟨"PUT", "/api/admin/v1/namespaces/{ns}", .upsertNamespace⟩,
  ⟨"DELETE", "/api/admin/v1/namespaces/{ns}", .deleteNamespace⟩,
  ⟨"POST", "/api/admin/v1/namespaces/{ns}/api-key", .rotateNamespaceAPIKey⟩,
  ⟨"GET", "/api/admin/v1/namespaces/{ns}/configuration", .getConfiguration⟩,
  ⟨"PATCH", "/api/admin/v1/namespaces/{ns}/configuration", .patchConfiguration⟩,
  ⟨"POST", "/api/admin/v1/namespaces/{ns}/configuration/validation", .validateConfiguration⟩,
  ⟨"GET", "/api/admin/v1/namespaces/{ns}/dashboard", .getNamespaceDashboard⟩,
  ⟨"POST", "/api/admin/v1/reset", .resetApp⟩,
  ⟨"GET", "/api/admin/v1/catalog/strategies", .listCatalogStrategies⟩,
  ⟨"GET", "/api/admin/v1/namespaces/{ns}/catalog", .getCatalogConfig⟩,
  ⟨"PUT", "/api/admin/v1/namespaces/{ns}/catalog", .updateCatalogConfig⟩,
  ⟨"POST", "/api/admin/v1/namespaces/{ns}/catalog/re-embed", .triggerReEmbed⟩,
  ⟨"GET", "/api/admin/v1/namespaces/{ns}/catalog/backlog-history", .getCatalogBacklogHistory⟩,
  ⟨"GET", "/api/admin/v1/namespaces/{ns}/catalog/failures-summary", .getCatalogFailuresSummary⟩,
  ⟨"GET", "/api/admin/v1/namespaces/{ns}/catalog/stream", .streamCatalog⟩,
  ⟨"GET", "/api/admin/v1/namespaces/{ns}/catalog/items", .listCatalogItems⟩,
  ⟨"POST", "/api/admin/v1/namespaces/{ns}/catalog/items/redrive-deadletter",
    .bulkRedriveDeadletter⟩,
  ⟨"GET", "/api/admin/v1/namespaces/{ns}/catalog/items/{id}", .getCatalogItem⟩,
  ⟨"POST", "/api/admin/v1/namespaces/{ns}/catalog/items/{id}/redrive", .redriveCatalogItem⟩,
  ⟨"DELETE", "/api/admin/v1/namespaces/{ns}/catalog/items/{id}", .deleteCatalogItem⟩,
  ⟨"GET", "/api/admin/v1/batch-runs", .getBatchRuns⟩,
  ⟨"GET", "/api/admin/v1/batch-runs/stats", .getBatchRunStats⟩,
  ⟨"GET", "/api/admin/v1/batch-runs/{id}", .getBatchRunDetail⟩,
  ⟨"GET", "/api/admin/v1/batch-runs/{id}/stream", .streamBatchRun⟩,
  ⟨"POST", "/api/admin/v1/batch-runs/{id}/cancel", .cancelBatchRun⟩,
  ⟨"POST", "/api/admin/v1/batch-runs/{id}/retry", .retryBatchRun⟩,
  ⟨"GET", "/api/admin/v1/namespaces/{ns}/batch-runs", .getBatchRuns⟩,
  ⟨"POST", "/api/admin/v1/namespaces/{ns}/batch-runs", .createBatchRun⟩,
  ⟨"GET", "/api/admin/v1/namespaces/{ns}/qdrant", .getQdrant⟩,
  ⟨"GET", "/api/admin/v1/namespaces/{ns}/subjects", .listSubjects⟩,
  ⟨"GET", "/api/admin/v1/namespaces/{ns}/subjects/{id}/profile", .getSubjectProfile⟩,
  ⟨"GET", "/api/admin/v1/namespaces/{ns}/subjects/{id}/recommendations",
    .getSubjectRecommendations⟩,
  ⟨"GET", "/api/admin/v1/namespaces/{ns}/trending", .getTrending⟩,
  ⟨"GET", "/api/admin/v1/namespaces/{ns}/events", .getRecentEvents⟩,
  ⟨"GET", "/api/admin/v1/namespaces/{ns}/events/stream", .streamEvents⟩,
  ⟨"GET", "/api/admin/v1/namespaces/{ns}/events/summary", .getEventsSummary⟩,
  ⟨"POST", "/api/admin/v1/namespaces/{ns}/events", .injectEvent⟩,
  ⟨"GET", "/api/admin/v1/metrics/summary", .getMetricsSummary⟩,
  ⟨"POST", "/api/admin/v1/demo-data", .createDemoData⟩,
  ⟨"DELETE", "/api/admin/v1/demo-data", .deleteDemoData⟩]

inductive DataHandler where
  | ingest
  | ingestCatalog
  | batchIngest
  | listObjects
  | getSubjectRecommendations
  | rank
  | getTrending
  | upsertObject
  | storeObjectEmbedding
  | storeSubjectEmbedding
  | deleteObject
  deriving DecidableEq, Repr

def dataRoutes : List (Route DataHandler) := [
  ⟨"POST", "/v1/namespaces/{ns}/events", .ingest⟩,
  ⟨"POST", "/v1/namespaces/{ns}/catalog", .ingestCatalog⟩,
  ⟨"POST", "/v1/namespaces/{ns}/catalog/batch", .batchIngest⟩,
  ⟨"GET", "/v1/namespaces/{ns}/catalog/objects", .listObjects⟩,
  ⟨"GET", "/v1/namespaces/{ns}/subjects/{id}/recommendations", .getSubjectRecommendations⟩,
  ⟨"POST", "/v1/namespaces/{ns}/rankings", .rank⟩,
  ⟨"GET", "/v1/namespaces/{ns}/trending", .getTrending⟩,
  ⟨"PUT", "/v1/namespaces/{ns}/objects/{id}", .upsertObject⟩,
  ⟨"PUT", "/v1/namespaces/{ns}/objects/{id}/embedding", .storeObjectEmbedding⟩,
  ⟨"PUT", "/v1/namespaces/{ns}/subjects/{id}/embedding", .storeSubjectEmbedding⟩,
  ⟨"DELETE", "/v1/namespaces/{ns}/objects/{id}", .deleteObject⟩]

/-! ### The decoded path -/

/-- The pattern is matched by no path without a segment, its parameters have different names, and
its texts have no escapes. -/
def Regular (pieces : List Piece) : Bool :=
  (walk pieces [slash]).isNone && decide (names pieces).Nodup && Plain pieces

/-- The texts have no escapes, and a parameter ends at a slash or at the end of the path. -/
def Separated : List Piece → Bool
  | [] => true
  | .text t :: pieces => percent ∉ t && Separated pieces
  | .param _ :: pieces =>
    Separated pieces &&
      match pieces with
      | [] => true
      | .text (c :: _) :: _ => c = slash
      | _ => false

def patterns : List String := adminRoutes.map Route.pattern ++ dataRoutes.map Route.pattern

-- one evaluation for all of them: most of it is reading the patterns
lemma regular_of_mem : ∀ pattern ∈ patterns,
    Regular (parse pattern) ∧ Separated (parse pattern) := by
  decide +kernel

lemma regular_of_mem_admin (route) (h : route ∈ adminRoutes) : Regular (parse route.pattern) :=
  (regular_of_mem _ (List.mem_append_left _ (List.mem_map_of_mem h))).1

lemma regular_of_mem_data (route) (h : route ∈ dataRoutes) : Regular (parse route.pattern) :=
  (regular_of_mem _ (List.mem_append_right _ (List.mem_map_of_mem h))).1

section Path

variable {pieces : List Piece}

lemma unescape_rawPath (hu : setPath p = some u) (hr : u.rawPath ≠ []) :
    unescape u.rawPath = some u.path := by
  obtain ⟨path, hp, rfl⟩ := Option.map_eq_some_iff.mp hu
  split_ifs with h
  · exact absurd (if_pos h) hr
  · exact hp

/-- What the parameters of a route are for a middleware: the decoded path is the pattern, filled
in with them. -/
theorem path_eq_render (hu : setPath p = some u) (hre : Regular pieces)
    (h : walk pieces (routePath u) = some params) :
    u.path = render (urlParam u params) pieces := by
  obtain ⟨⟨hro, hn⟩, hpl⟩ : ((walk pieces [slash]).isNone = true ∧
      (names pieces).Nodup) ∧ Plain pieces = true := by
    simpa [Regular, and_assoc] using hre
  rw [routePath] at h
  split_ifs at h with hr hp
  · obtain ⟨value, hv, hp⟩ :=
      unescape_eq_render hpl hn h (unescape_rawPath hu hr)
    rw [hp]
    refine congrArg (render · pieces) (funext fun n => ?_)
    rw [urlParam, if_neg hr, hv n, Option.getD_some]
  · rw [not_not] at hr
    rw [eq_render_of_walk hn h]
    refine congrArg (render · pieces) (funext fun n => ?_)
    rw [urlParam, if_pos hr]
  · rw [h] at hro
    cases hro

/-! ### Encoded segments -/

variable {v enc dec : String → Bytes} {n : String}

lemma separated_param (h : Separated (.param n :: pieces)) : Separated pieces ∧
    ∀ v, render v pieces = [] ∨ ∃ rest, render v pieces = slash :: rest := by
  rcases pieces with _ | ⟨⟨_ | ⟨c, t⟩⟩ | m, pieces⟩
  · exact ⟨rfl, fun v => .inl rfl⟩
  · simp [Separated] at h
  · rw [Separated.eq_def] at h
    obtain ⟨hs, hc⟩ := Bool.and_eq_true_iff.mp h
    exact ⟨hs, fun v => .inr ⟨_, congrArg (· :: _) (of_decide_eq_true hc)⟩⟩
  · simp [Separated] at h

lemma unescape_render (hs : Separated pieces)
    (he : ∀ n ∈ names pieces, unescape (enc n) = some (dec n)) :
    unescape (render enc pieces) = some (render dec pieces) := by
  induction pieces with
  | nil => rfl
  | cons p pieces ih =>
    cases p with
    | text t =>
      rw [Separated, Bool.and_eq_true, decide_eq_true_iff] at hs
      exact (unescape_append_plain hs.1).trans (congrArg _ (ih hs.2 he))
    | param n =>
      obtain ⟨hs, hc⟩ := separated_param hs
      have hn := he n List.mem_cons_self
      have hi := ih hs fun m hm => he m (List.mem_cons_of_mem n hm)
      show unescape (enc n ++ render enc pieces) = some (dec n ++ render dec pieces)
      obtain hr | ⟨rest, hr⟩ := hc enc
      · rw [hr] at hi ⊢
        rw [← Option.some.inj hi, List.append_nil, List.append_nil, hn]
      · rw [hr] at hi ⊢
        rw [unescape_append unhex_slash, hn, hi]
        rfl

lemma walk_render (hs : Separated pieces) (hv : ∀ n ∈ names pieces, v n ≠ [] ∧ slash ∉ v n) :
    walk pieces (render v pieces) = some ((names pieces).map fun n => (n, v n)) := by
  induction pieces with
  | nil => rfl
  | cons p pieces ih =>
    cases p with
    | text t =>
      rw [Separated, Bool.and_eq_true] at hs
      exact walk_text_eq_some.mpr ⟨_, rfl, ih hs.2 hv⟩
    | param n =>
      obtain ⟨hs, hc⟩ := separated_param hs
      obtain ⟨hn, hsl⟩ := hv n List.mem_cons_self
      have hall : ∀ c ∈ v n, decide (c ≠ slash) = true := fun c hc =>
        decide_eq_true fun heq => hsl (heq ▸ hc)
      have hi := ih hs fun m hm => hv m (List.mem_cons_of_mem n hm)
      show walk (.param n :: pieces) (v n ++ render v pieces) = _
      refine walk_param_eq_some.mpr ⟨List.append_ne_nil_of_left_ne_nil hn _,
        (names pieces).map fun n => (n, v n), ?_, ?_⟩
      · rw [List.dropWhile_append_of_pos hall, ← hi]
        obtain hr | ⟨rest, hr⟩ := hc v <;> simp [hr]
      · rw [List.takeWhile_append_of_pos hall]
        obtain hr | ⟨rest, hr⟩ := hc v <;> simp [hr]

lemma urlParam_map {l : List String} (hn : l.Nodup) (hk : n ∈ l) :
    Router.urlParam (l.map fun n => (n, v n)) n = v n := by
  induction l with
  | nil => cases hk
  | cons m l ih =>
    obtain ⟨hl, hn⟩ := List.nodup_cons.mp hn
    rw [List.map_cons]
    obtain rfl | hne := eq_or_ne n m
    · exact urlParam_cons_self (by simpa using hl)
    · rw [urlParam_cons_ne hne]
      exact ih hn ((List.mem_cons.mp hk).resolve_left hne)

/-- The default encoding leaves the slashes as they are. -/
lemma count_escape (s : Bytes) : (escape s).count slash = s.count slash := by
  have hc : ∀ k < 256, (escape [UInt8.ofNat k]).count slash = [UInt8.ofNat k].count slash := by
    decide +kernel
  induction s with
  | nil => rfl
  | cons c s ih =>
    have hk := hc c.toNat c.toNat_lt
    rw [UInt8.ofNat_toNat] at hk
    have he : escape (c :: s) = escape [c] ++ escape s := by simp [escape]
    rw [he, List.count_append, hk, ih, ← List.count_append, List.singleton_append]

lemma count_render (v : String → Bytes) (pieces : List Piece) :
    (render v pieces).count slash =
      ((names pieces).flatMap v).count slash + (render (fun _ => []) pieces).count slash := by
  induction pieces with
  | nil => rfl
  | cons p pieces ih =>
    have hr (u : String → Bytes) : render u (p :: pieces) = p.render u ++ render u pieces := rfl
    rw [hr, hr, List.count_append, ih]
    cases p with
    | text t => simp [Piece.render, names_text_cons, Nat.add_left_comm]
    | param m => simp [Piece.render, names_param_cons, Nat.add_assoc]

lemma render_ne_nil (hn : n ∈ names pieces) (hv : v n ≠ []) : render v pieces ≠ [] := by
  intro h
  obtain ⟨p, hp, hn⟩ := List.mem_flatMap.mp hn
  cases p with
  | text t => cases hn
  | param m =>
    obtain rfl := List.mem_singleton.mp hn
    exact hv (List.flatMap_eq_nil_iff.mp h _ hp)

lemma urlParam_render (pattern : String) (hp : pattern ∈ patterns)
    (enc dec : String → Bytes)
    (he : ∀ n ∈ names (parse pattern),
      slash ∉ enc n ∧ unescape (enc n) = some (dec n) ∧ dec n ≠ [])
    (key : String) (hk : key ∈ names (parse pattern)) :
    ∃ u params, setPath (render enc (parse pattern)) = some u ∧
      walk (parse pattern) (routePath u) = some params ∧ urlParam u params key = dec key := by
  obtain ⟨hre, hs⟩ := regular_of_mem pattern hp
  have hno : (names (parse pattern)).Nodup := by
    simp only [Regular, Bool.and_eq_true, decide_eq_true_iff] at hre
    exact hre.1.2
  generalize parse pattern = pieces at *
  have hun := unescape_render hs fun n hn => (he n hn).2.1
  have hnn : ∀ n ∈ names pieces, enc n ≠ [] := fun n hn h0 => by
    obtain ⟨-, hd, hne⟩ := he n hn
    rw [h0] at hd
    exact hne (Option.some.inj hd).symm
  rw [setPath, hun, Option.map_some]
  split_ifs with hr
  · -- the default encoding keeps the slashes, so the decoded parameters have none
    have hz : slash ∉ (names pieces).flatMap dec := by
      have hc := (congrArg (List.count slash) hr).trans (count_escape _)
      have h0 : ((names pieces).flatMap enc).count slash = 0 :=
        List.count_eq_zero.mpr fun hm =>
          have ⟨n, hn, hs⟩ := List.mem_flatMap.mp hm
          (he n hn).1 hs
      rw [count_render, count_render dec] at hc
      exact List.count_eq_zero.mp (by omega)
    have hd : ∀ n ∈ names pieces, dec n ≠ [] ∧ slash ∉ dec n := fun n hn =>
      ⟨(he n hn).2.2, fun hs => hz (List.mem_flatMap.mpr ⟨n, hn, hs⟩)⟩
    refine ⟨_, (names pieces).map fun n => (n, dec n), rfl, ?_, urlParam_map hno hk⟩
    simpa [routePath, render_ne_nil hk (hd key hk).1] using walk_render hs hd
  · have hne := render_ne_nil hk (hnn key hk)
    refine ⟨_, (names pieces).map fun n => (n, enc n), rfl, ?_, ?_⟩
    · simpa [routePath, hne] using walk_render hs fun n hn => ⟨hnn n hn, (he n hn).1⟩
    · simp [urlParam, hne, urlParam_map hno hk, (he key hk).2.1]

/-! ### Routes that match one path -/

def statsRoute : Route AdminHandler :=
  ⟨"GET", "/api/admin/v1/batch-runs/stats", .getBatchRunStats⟩

def detailRoute : Route AdminHandler :=
  ⟨"GET", "/api/admin/v1/batch-runs/{id}", .getBatchRunDetail⟩

lemma walk_statsRoute :
    (walk (parse statsRoute.pattern) path).isSome ↔ path = bytes statsRoute.pattern := by
  have hp : parse statsRoute.pattern = [.text (bytes statsRoute.pattern)] := by decide +kernel
  rw [hp, Option.isSome_iff_exists]
  constructor
  · rintro ⟨params, hp⟩
    obtain ⟨rest, rfl, hr⟩ := walk_text_eq_some.mp hp
    rw [walk] at hr
    split_ifs at hr with hn
    rw [hn, List.append_nil]
  · rintro rfl
    exact ⟨[], walk_text_eq_some.mpr ⟨[], (List.append_nil _).symm, rfl⟩⟩

/-- The statistics are taken before a run with that name. -/
lemma find_batchRun (hw : (walk (parse detailRoute.pattern) (routePath u)).isSome) :
    find [statsRoute, detailRoute] "GET" u = some
      (if routePath u = bytes statsRoute.pattern then statsRoute else detailRoute) := by
  have hp : precedes (parse statsRoute.pattern) (parse detailRoute.pattern) = true ∧
      precedes (parse statsRoute.pattern) (parse statsRoute.pattern) = false ∧
      precedes (parse detailRoute.pattern) (parse statsRoute.pattern) = false ∧
      precedes (parse detailRoute.pattern) (parse detailRoute.pattern) = false := by decide +kernel
  have hd : (detailRoute.bind "GET" u).isSome := hw
  have hs : (statsRoute.bind "GET" u).isSome ↔ routePath u = bytes statsRoute.pattern :=
    walk_statsRoute
  split_ifs with h
  · simp [find, hp, hs.mpr h]
  · simp [find, hp, hd, Option.not_isSome_iff_eq_none.mp (h ∘ hs.mp)]

/-- **A parameter is decoded once**, whatever the encoding of its segment. Of a batch run and the
statistics, which match the same paths, the statistics are taken where the name is theirs. -/
theorem urlParam_decoded_once (pattern : String) (hp : pattern ∈ patterns)
    (enc dec : String → Bytes)
    (he : ∀ n ∈ names (parse pattern),
      slash ∉ enc n ∧ unescape (enc n) = some (dec n) ∧ dec n ≠ [])
    (key : String) (hk : key ∈ names (parse pattern)) :
    ∃ u params, setPath (render enc (parse pattern)) = some u ∧
      walk (parse pattern) (routePath u) = some params ∧ urlParam u params key = dec key ∧
      (pattern = detailRoute.pattern → find [statsRoute, detailRoute] "GET" u = some
        (if routePath u = bytes statsRoute.pattern then statsRoute else detailRoute)) := by
  obtain ⟨u, params, hu, hw, hd⟩ := urlParam_render pattern hp enc dec he key hk
  refine ⟨u, params, hu, hw, hd, fun h => find_batchRun ?_⟩
  rw [← h, hw]
  rfl

/-- The id "a%2Fb", sent as "a%252Fb". -/
theorem urlParam_decoded_once_percent :
    ∃ u params, setPath (bytes "/v1/namespaces/shop/objects/a%252Fb") = some u ∧
      walk (parse "/v1/namespaces/{ns}/objects/{id}") (routePath u) = some params ∧
      urlParam u params "id" = bytes "a%2Fb" := by
  obtain ⟨u, params, hu, hw, hd, -⟩ :=
    urlParam_decoded_once "/v1/namespaces/{ns}/objects/{id}" (by decide +kernel)
      (fun n => bytes (if n = "ns" then "shop" else "a%252Fb"))
      (fun n => bytes (if n = "ns" then "shop" else "a%2Fb")) (by decide +kernel) "id"
      (by decide +kernel)
  exact ⟨u, params, hu, hw, hd⟩

end Path

end Codohue.Http
