import FileSharing.Net.Redirect
import FileSharing.Web.Page

/-!
Where a browser ends up that follows the redirects of the router. A redirect
keeps the segments of the path, apart from the one that leads from the root to
the common storage.
-/

namespace FileSharing
open Net Effects Mux

/-- The segments a GET is redirected to. -/
def home : List Bytes → List Bytes
  | [] => [str "common"]
  | segs => segs

theorem home_of_ne {segs : List Bytes} (hne : segs ≠ []) : home segs = segs := by
  cases segs with
  | nil => exact absurd rfl hne
  | cons s segs => rfl

theorem isSegment_home {segs : List Bytes} (hs : ∀ s ∈ segs, IsSegment s) :
    ∀ s ∈ home segs, IsSegment s := by
  cases segs with
  | nil => decide
  | cons s segs => exact hs

/-- The path of the metrics page on the router that has it. -/
def isMetrics (deployed : Bool) (segs : List Bytes) : Bool :=
  deployed && decide (segs = [str "metrics"])

/-- The pages: what ViewHandler answers. -/
theorem decision_view {method : Bytes} {segs : List Bytes} {a : Answer} {storage : Bytes}
    {isPermanent : Bool} (ha : decision method segs = some a)
    (he : a.endpoint = .handler .viewHandler)
    (hp : a.parameters = ⟨storage, false, isPermanent, []⟩) :
    segs = area storage isPermanent ∧ storage ≠ str "res" ∧
      (isPermanent = false → storage ≠ str "register") := by
  cases decision_iff.mp ha with
  | viewPermanent hres =>
      cases hp
      exact ⟨rfl, hres, fun h => by cases h⟩
  | view hres hregister =>
      cases hp
      exact ⟨rfl, hres, fun _ => hregister⟩
  | operation _ hop | operationPermanent _ hop =>
      cases he
      exact absurd (operation_handler hop) (by simp)
  | _ => cases he

theorem toggleSlash_pathOf {segs : List Bytes} (hs : ∀ s ∈ segs, IsSegment s) (hne : segs ≠ [])
    (trailing : Bool) (rawQuery : Bytes) :
    toggleSlash ⟨pathOf segs trailing, rawQuery⟩ = ⟨pathOf segs !trailing, rawQuery⟩ := by
  have slashed := hasSlash_pathOf hs hne trailing
  rw [toggleSlash, slashed]
  have slash_last : pathOf segs true = pathOf segs false ++ [slash] := by
    cases segs with
    | nil => exact absurd rfl hne
    | cons s segs => simp [pathOf]
  cases trailing with
  | true => simp [slash_last]
  | false => simp [slash_last]

theorem dispatch_unclean {deployed : Bool} {request : Incoming}
    (unclean : cleanPath request.url.path ≠ request.url.path) :
    dispatch deployed request =
      .redirect { request.url with path := cleanPath request.url.path }.string := by
  have skip : (routes deployed).skipClean = false := by
    cases deployed <;> decide
  rw [dispatch, Mux.Router.serveHTTP, if_pos ⟨by simp [skip], unclean⟩]

section Clean
variable {deployed : Bool} {request : Incoming} {segs : List Bytes} (hs : ∀ s ∈ segs, IsSegment s)
  {trailing : Bool} (hpath : request.url.path = pathOf segs trailing)
include hs hpath

/-- Either router on a clean path. -/
theorem dispatch_clean : dispatch deployed request =
    if isMetrics deployed segs then
      if trailing then .metrics else .redirectHandler (toggleSlash request.url).string
    else expected request.method segs trailing request.url.rawQuery := by
  cases deployed with
  | false => exact dispatch_expected request hs trailing hpath
  | true =>
      rw [dispatch_deployed request hs trailing hpath, dispatch_expected request hs trailing hpath]
      by_cases metrics : segs = [str "metrics"] <;> simp [isMetrics, metrics]

theorem dispatch_decided {a : Answer} (ha : decision request.method segs = some a)
    (unmetered : isMetrics deployed segs = false) :
    dispatch deployed request =
      if a.ownForm segs trailing then .endpoint a.endpoint (.ok a.parameters)
      else .redirectHandler (toggleSlash request.url).string := by
  have url : request.url = ⟨pathOf segs trailing, request.url.rawQuery⟩ := by
    rw [← hpath]
  rw [dispatch_clean hs hpath, unmetered, expected, ha, if_neg Bool.false_ne_true, ← url]

/-- The redirects of a clean path: to the other trailing-slash form, or home. -/
theorem location_clean (got : request.method = str "GET") {h : Handler} {location : Bytes}
    (moved : (dispatch deployed request).location h request = some location) :
    ∃ url, location = hexEscapeNonASCII (redirectURL (h.lib.parseURL url) request.url.path url) ∧
      (segs ≠ [] ∧ url = (toggleSlash request.url).string ∨ segs = [] ∧ url = str "/common/") := by
  have root : segs = [] → dispatch deployed request =
      .endpoint .redirectCommon (.ok ⟨[], true, false, []⟩) := by
    intro nil
    rw [dispatch_clean hs hpath, nil, got]
    cases deployed <;> rfl
  by_cases nil : segs = []
  · rw [root nil] at moved
    exact ⟨_, (Option.some_inj.mp moved).symm, .inr ⟨nil, rfl⟩⟩
  · have toggled : ∀ {d : Dispatched}, d = .redirectHandler (toggleSlash request.url).string →
        d.location h request = some location → ∃ url,
          location = hexEscapeNonASCII (redirectURL (h.lib.parseURL url) request.url.path url) ∧
          (segs ≠ [] ∧ url = (toggleSlash request.url).string ∨ segs = [] ∧ url = str "/common/") := by
      intro d hd moved
      rw [hd] at moved
      exact ⟨_, (Option.some_inj.mp moved).symm, .inl ⟨nil, rfl⟩⟩
    rw [dispatch_clean hs hpath] at moved
    split at moved
    · split at moved
      · cases moved
      · exact toggled rfl moved
    · rw [expected] at moved
      split at moved
      · rename_i a ha
        split at moved
        · cases endpoint : a.endpoint with
          | redirectCommon => exact absurd (decision_redirectCommon ha endpoint) nil
          | fileServer | handler name =>
              rw [endpoint] at moved
              cases moved
        · exact toggled (by rw [← hpath]) moved
      · split at moved <;> cases moved

end Clean

section Follow
variable {h : Handler} {deployed : Bool} {t last : Target} {d : Dispatched}

theorem visit_method {method : Bytes} {request : Incoming} (read : visit method t = some request) :
    request.method = method := by
  obtain ⟨path, -, rfl⟩ := Option.map_eq_some_iff.mp read
  rfl

theorem visit_path {method : Bytes} {request : Incoming} (read : visit method t = some request) :
    unescape t.path = some request.url.path := by
  obtain ⟨path, decoded, rfl⟩ := Option.map_eq_some_iff.mp read
  exact decoded

theorem follow_toggled (t : Target) {segs : List Bytes} (hs : ∀ s ∈ segs, IsSegment s)
    (hne : segs ≠ []) {trailing : Bool} {url : URL} (hpath : url.path = pathOf segs trailing)
    (verdict : Option ParsedURL) (oldpath : Bytes) :
    let next := follow t (headerValue (hexEscapeNonASCII
      (redirectURL verdict oldpath (toggleSlash url).string)))
    next.SameHost t ∧ next.path = escapePath (pathOf segs !trailing) := by
  have other : toggleSlash url = ⟨pathOf segs !trailing, url.rawQuery⟩ := by
    rw [← toggleSlash_pathOf hs hne, ← hpath]
  obtain ⟨tail, htail, string⟩ := URL.string_eq (toggleSlash url)
  rw [string, other]
  exact follow_redirectURL t hs _ htail _ _

/-- The redirect of the root leads to the common storage. -/
theorem follow_common (t : Target) (verdict : Option ParsedURL) (oldpath : Bytes) :
    let next := follow t (headerValue (hexEscapeNonASCII
      (redirectURL verdict oldpath (str "/common/"))))
    next.SameHost t ∧ next.path = escapePath (pathOf [str "common"] true) := by
  have common : str "/common/" = escapePath (pathOf [str "common"] true) ++ [] := by decide
  rw [common]
  exact follow_redirectURL t (by decide) true isTail_nil verdict oldpath

theorem visit_decoded (method : Bytes) {path : Bytes} (decoded : unescape t.path = some path) :
    ∃ request, visit method t = some request ∧ request.method = method ∧
      request.url.path = path := by
  rw [visit, decoded]
  exact ⟨_, rfl, rfl, rfl⟩

/-- Each redirect stays on the host and keeps the segments. -/
theorem location_moved {request : Incoming} {location : Bytes}
    (read : visit (str "GET") t = some request)
    (moved : (dispatch deployed request).location h request = some location) :
    ∃ segs trailing, (∀ s ∈ segs, IsSegment s) ∧ home segs = home (segments request.url.path) ∧
      (follow t (headerValue location)).SameHost t ∧
      (follow t (headerValue location)).path = escapePath (pathOf segs trailing) := by
  obtain ⟨trailing, form⟩ := cleanPath_eq request.url.path
  have hs : ∀ s ∈ segments request.url.path, IsSegment s := fun s hs => isSegment_of_mem_segments hs
  by_cases clean : cleanPath request.url.path = request.url.path
  · have hpath := clean.symm.trans form
    obtain ⟨url, rfl, toggled | root⟩ := location_clean hs hpath (visit_method read) moved
    · obtain ⟨hne, rfl⟩ := toggled
      exact ⟨_, !trailing, hs, rfl, follow_toggled t hs hne hpath _ _⟩
    · obtain ⟨nil, rfl⟩ := root
      rw [nil]
      exact ⟨[str "common"], true, by decide, rfl, follow_common t _ _⟩
  · rw [dispatch_unclean clean] at moved
    cases moved
    obtain ⟨tail, htail, string⟩ :=
      URL.string_eq { request.url with path := cleanPath request.url.path }
    rw [string]
    simp only [form]
    exact ⟨_, trailing, hs, rfl, follow_escaped t hs trailing htail⟩

/-- A request that the router does not redirect has a clean path below the root. -/
theorem segments_of_stays {request : Incoming} (got : request.method = str "GET")
    (stays : (dispatch deployed request).location h request = none) :
    ∃ trailing, request.url.path = pathOf (home (segments request.url.path)) trailing := by
  obtain ⟨trailing, form⟩ := cleanPath_eq request.url.path
  have hs : ∀ s ∈ segments request.url.path, IsSegment s := fun s hs => isSegment_of_mem_segments hs
  have clean : cleanPath request.url.path = request.url.path := by
    by_contra unclean
    rw [dispatch_unclean unclean] at stays
    cases stays
  have hpath := clean.symm.trans form
  by_cases nil : segments request.url.path = []
  · rw [nil] at hs hpath
    rw [dispatch_clean hs hpath, got] at stays
    cases deployed <;> cases stays
  · rw [home_of_ne nil]
    exact ⟨trailing, hpath⟩

theorem Arrives.read (arrives : Arrives h deployed t last d) :
    ∃ request, visit (str "GET") t = some request := by
  cases arrives with
  | here read | redirected read => exact ⟨_, read⟩

/-- Where a browser arrives: on the same host, at the same segments. -/
theorem arrives_segments (arrives : Arrives h deployed t last d) {request : Incoming}
    (read : visit (str "GET") t = some request) :
    last.SameHost t ∧ ∃ trailing final,
      visit (str "GET") last = some final ∧ d = dispatch deployed final ∧
      final.url.path = pathOf (home (segments request.url.path)) trailing := by
  induction arrives generalizing request with
  | here read' stays =>
      rw [read] at read'
      cases read'
      obtain ⟨trailing, path⟩ := segments_of_stays (visit_method read) stays
      exact ⟨⟨rfl, rfl⟩, trailing, _, read, rfl, path⟩
  | redirected read' moved same rest ih =>
      rw [read] at read'
      cases read'
      obtain ⟨segs, trailing, hs, kept, -, path⟩ := location_moved read moved
      have next := escapePath_unescape (pathOf segs trailing)
      rw [← path] at next
      obtain ⟨back, final⟩ := ih (Option.map_eq_some_iff.mpr ⟨_, next, rfl⟩)
      refine ⟨back.trans same, ?_⟩
      simpa only [segments_pathOf hs, kept] using final

theorem ownForm_not {a : Answer} {segs : List Bytes} {trailing : Bool}
    (other : a.ownForm segs trailing = false) : a.ownForm segs (!trailing) = true := by
  revert other
  unfold Answer.ownForm
  cases trailing <;> split <;> simp

theorem location_endpoint {e : Endpoint} {p : Except Bytes StorageParameters} (request : Incoming)
    (stays : e ≠ .redirectCommon) : (Dispatched.endpoint e p).location h request = none := by
  cases e with
  | redirectCommon => exact absurd rfl stays
  | fileServer | handler name => rfl

/-- A GET of a path that the table decides arrives at its endpoint, at once or in
the trailing-slash form of the endpoint. -/
theorem arrives_of_decision {segs : List Bytes} (hs : ∀ s ∈ segs, IsSegment s) {trailing : Bool}
    (decoded : unescape t.path = some (pathOf segs trailing)) {a : Answer}
    (ha : decision (str "GET") segs = some a) (stays : a.endpoint ≠ .redirectCommon)
    (unmetered : isMetrics deployed segs = false) :
    ∃ last own, Arrives h deployed t last (.endpoint a.endpoint (.ok a.parameters)) ∧
      last.SameHost t ∧ a.ownForm segs own = true ∧
      (last = t ∧ own = trailing ∨ last.path = escapePath (pathOf segs own)) := by
  have hne : segs ≠ [] := by
    rintro rfl
    cases ha
    exact stays rfl
  have at_own : ∀ {t : Target} {own : Bool}, unescape t.path = some (pathOf segs own) →
      a.ownForm segs own = true →
      Arrives h deployed t t (.endpoint a.endpoint (.ok a.parameters)) := by
    intro t own decoded form
    obtain ⟨request, read, got, hpath⟩ := visit_decoded (str "GET") decoded
    have reached := dispatch_decided hs hpath (by rwa [got]) unmetered
    rw [if_pos form] at reached
    rw [← reached]
    refine .here read ?_
    rw [reached]
    exact location_endpoint request stays
  cases form : a.ownForm segs trailing with
  | true => exact ⟨t, trailing, at_own decoded form, ⟨rfl, rfl⟩, form, .inl ⟨rfl, rfl⟩⟩
  | false =>
      obtain ⟨request, read, got, hpath⟩ := visit_decoded (str "GET") decoded
      have toggled := dispatch_decided hs hpath (by rwa [got]) unmetered
      rw [form, if_neg Bool.false_ne_true] at toggled
      obtain ⟨same, path⟩ := follow_toggled t hs hne hpath
        (h.lib.parseURL (toggleSlash request.url).string) request.url.path
      have next := escapePath_unescape (pathOf segs !trailing)
      rw [← path] at next
      have own := ownForm_not form
      exact ⟨_, !trailing, .redirected read (by rw [toggled]; rfl) same (at_own next own), same, own,
        .inr path⟩

end Follow
end FileSharing
