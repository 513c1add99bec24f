import FileSharing.Mux.StrictSlash
import FileSharing.Web.Following

/-!
How often the router redirects. A path is cleaned once, and its ending is
corrected once or it is the root; then there is nothing left to redirect.
-/

namespace FileSharing
open Net Effects Mux

/-- Answered by a handler, or not at all; but not by a redirect of the router. -/
def Dispatched.ends : Dispatched → Bool
  | .endpoint (.handler _) _ | .endpoint .fileServer _ | .metrics => true
  | .methodNotAllowed | .notFound => true
  | .endpoint .redirectCommon _ | .redirect _ | .redirectHandler _ => false

/-- Repeating the method at each Location that the router answers comes to an end
within so many redirects, on the same host. -/
inductive EndsWithin (h : Handler) (deployed : Bool) (method : Bytes) : Nat → Target → Prop where
  | here {n : Nat} {t : Target} {request : Incoming} (read : visit method t = some request)
      (ends : (dispatch deployed request).ends = true) : EndsWithin h deployed method n t
  | redirected {n : Nat} {t : Target} {request : Incoming} {location : Bytes}
      (read : visit method t = some request)
      (moved : (dispatch deployed request).location h request = some location)
      (same : (follow t (headerValue location)).SameHost t)
      (rest : EndsWithin h deployed method n (follow t (headerValue location))) :
      EndsWithin h deployed method (n + 1) t

theorem ends_endpoint {e : Endpoint} (stays : e ≠ .redirectCommon)
    (p : Except Bytes StorageParameters) : (Dispatched.endpoint e p).ends = true := by
  cases e with
  | redirectCommon => exact absurd rfl stays
  | fileServer | handler name => rfl

theorem decision_root {method : Bytes} {a : Answer} (ha : decision method [] = some a) :
    method = str "GET" ∧ a = ⟨.redirectCommon, [], false, []⟩ := by
  cases decision_iff.mp ha with
  | redirectCommon => exact ⟨rfl, rfl⟩

theorem decision_res {method : Bytes} {a : Answer} (ha : decision method [str "res"] = some a) :
    a = ⟨.fileServer, [], false, []⟩ := by
  by_cases get : method = str "GET"
  · rw [get] at ha
    exact (Option.some_inj.mp ha).symm
  · by_cases post : method = str "POST"
    · rw [post] at ha
      cases ha
    · rw [decision, if_neg get, if_neg post] at ha
      cases ha

section Chain
variable {h : Handler} {deployed : Bool} {method : Bytes} {t : Target}

/-- The Location of a corrected path leads to the path with the other ending. -/
theorem corrected_next {request : Incoming} {segs : List Bytes} (hs : ∀ s ∈ segs, IsSegment s)
    (hne : segs ≠ []) {trailing : Bool} (hpath : request.url.path = pathOf segs trailing)
    (corrected : dispatch deployed request = .redirectHandler (toggleSlash request.url).string) :
    ∃ location, (dispatch deployed request).location h request = some location ∧
      (follow t (headerValue location)).SameHost t ∧
      unescape (follow t (headerValue location)).path = some (pathOf segs !trailing) := by
  obtain ⟨same, path⟩ := follow_toggled t hs hne hpath
    (h.lib.parseURL (toggleSlash request.url).string) request.url.path
  refine ⟨_, by rw [corrected]; rfl, same, ?_⟩
  rw [path]
  exact escapePath_unescape _

/-- A path in the form of its endpoint is not redirected. -/
theorem EndsWithin.own {segs : List Bytes} (hs : ∀ s ∈ segs, IsSegment s) {own : Bool}
    (decoded : unescape t.path = some (pathOf segs own)) {a : Answer}
    (ha : decision method segs = some a) (stays : a.endpoint ≠ .redirectCommon)
    (unmetered : isMetrics deployed segs = false) (form : a.ownForm segs own = true) (n : Nat) :
    EndsWithin h deployed method n t := by
  obtain ⟨request, read, rfl, hpath⟩ := visit_decoded method decoded
  refine .here read ?_
  rw [dispatch_decided hs hpath ha unmetered, if_pos form]
  exact ends_endpoint stays _

/-- A corrected path takes one redirect more than its correction. -/
theorem EndsWithin.corrected {request : Incoming} (read : visit method t = some request)
    {segs : List Bytes} (hs : ∀ s ∈ segs, IsSegment s) (hne : segs ≠ []) {trailing : Bool}
    (hpath : request.url.path = pathOf segs trailing)
    (corrected : dispatch deployed request = .redirectHandler (toggleSlash request.url).string)
    {n : Nat} (rest : ∀ next : Net.Target, unescape next.path = some (pathOf segs !trailing) →
      EndsWithin h deployed method n next) : EndsWithin h deployed method (n + 1) t := by
  obtain ⟨location, moved, same, decoded⟩ := corrected_next hs hne hpath corrected
  exact .redirected read moved same (rest _ decoded)

/-- The page of the common storage. -/
theorem EndsWithin.common (decoded : unescape t.path = some (pathOf [str "common"] true))
    (n : Nat) : EndsWithin h deployed (str "GET") n t := by
  have view : decision (str "GET") [str "common"] =
      some ⟨.handler .viewHandler, str "common", false, []⟩ := by decide
  have unmetered : isMetrics deployed [str "common"] = false := by cases deployed <;> decide
  exact .own (by decide) decoded view (by decide) unmetered rfl n

/-- The metrics page answers every method. -/
theorem EndsWithin.metrics {segs : List Bytes} (hs : ∀ s ∈ segs, IsSegment s)
    (metered : isMetrics deployed segs = true)
    (decoded : unescape t.path = some (pathOf segs true)) (n : Nat) :
    EndsWithin h deployed method n t := by
  obtain ⟨request, read, -, hpath⟩ := visit_decoded method decoded
  have answer : dispatch deployed request = _ := dispatch_clean hs hpath
  rw [metered] at answer
  exact .here read (by rw [answer]; rfl)

/-- The root is redirected to the page of the common storage. -/
theorem EndsWithin.root {request : Incoming} (read : visit method t = some request)
    {a : Answer} (ha : decision method [] = some a)
    (decided : dispatch deployed request = .endpoint a.endpoint (.ok a.parameters)) (n : Nat) :
    EndsWithin h deployed method (n + 1) t := by
  obtain ⟨rfl, rfl⟩ := decision_root ha
  obtain ⟨same, path⟩ := follow_common t (h.lib.parseURL (str "/common/")) request.url.path
  have next := escapePath_unescape (pathOf [str "common"] true)
  rw [← path] at next
  exact .redirected read (by rw [decided]; rfl) same (.common next n)

/-- A clean path is redirected at most once. -/
theorem EndsWithin.clean {segs : List Bytes} (hs : ∀ s ∈ segs, IsSegment s) {trailing : Bool}
    (decoded : unescape t.path = some (pathOf segs trailing)) (n : Nat) :
    EndsWithin h deployed method (n + 1) t := by
  obtain ⟨request, read, rfl, hpath⟩ := visit_decoded method decoded
  have answer : dispatch deployed request = _ := dispatch_clean hs hpath
  cases metered : isMetrics deployed segs with
  | true =>
      have page : deployed = true ∧ segs = [str "metrics"] := by
        simpa [isMetrics] using metered
      cases trailing with
      | true => exact .metrics hs metered decoded _
      | false =>
          rw [metered, if_pos rfl, if_neg Bool.false_ne_true] at answer
          refine .corrected read hs (by simp [page.2]) hpath answer ?_
          intro next decoded
          exact .metrics hs metered decoded n
  | false =>
      cases ha : decision request.method segs with
      | none =>
          rw [metered, if_neg Bool.false_ne_true, expected, ha] at answer
          refine .here read ?_
          rw [answer]
          dsimp only
          split <;> rfl
      | some a =>
          have decided : dispatch deployed request = _ := dispatch_decided hs hpath ha metered
          by_cases nil : segs = []
          · subst nil
            have form : a.ownForm [] trailing = true := by
              rw [(decision_root ha).2]
              rfl
            rw [form, if_pos rfl] at decided
            exact .root read ha decided n
          · have stays : a.endpoint ≠ .redirectCommon := fun common =>
              nil (decision_redirectCommon ha common)
            cases form : a.ownForm segs trailing with
            | true => exact .own hs decoded ha stays metered form _
            | false =>
                rw [form, if_neg Bool.false_ne_true] at decided
                refine .corrected read hs nil hpath decided ?_
                intro next decoded
                exact .own hs decoded ha stays metered (ownForm_not form) n

/-- Every path is redirected at most twice. -/
theorem ends_within_two {request : Incoming} (read : visit method t = some request) :
    EndsWithin h deployed method 2 t := by
  obtain ⟨trailing, form⟩ := cleanPath_eq request.url.path
  have hs : ∀ s ∈ segments request.url.path, IsSegment s := fun s hs => isSegment_of_mem_segments hs
  by_cases clean : cleanPath request.url.path = request.url.path
  · exact .clean hs ((visit_path read).trans (congrArg some (clean.symm.trans form))) 1
  · have moved : dispatch deployed request = _ := dispatch_unclean clean
    obtain ⟨tail, htail, string⟩ :=
      URL.string_eq { request.url with path := cleanPath request.url.path }
    obtain ⟨same, path⟩ := follow_escaped t hs trailing htail
    have next := escapePath_unescape (pathOf (segments request.url.path) trailing)
    rw [← path] at next
    simp only [form] at string
    rw [← string] at same next
    simp only [form] at moved
    exact .redirected read (by rw [moved]; rfl) same (.clean hs next 0)

end Chain

theorem prefix_route : ∀ r ∈ configure, r.isPrefix → r.pattern = str "/res/" := by
  decide

/-- A pattern captures the same of both endings of a path, apart from the one of
the file server. -/
theorem captures_ending {r : Route} (hr : r ∈ configure) {segs : List Bytes}
    (hs : ∀ s ∈ segs, IsSegment s) (below : segs ≠ [str "res"]) (trailing trailing' : Bool) :
    r.row.captures segs trailing = r.row.captures segs trailing' := by
  cases hp : r.isPrefix with
  | false => simp [Row.captures, Route.row, hp]
  | true =>
      have ending : str "/res/" <+: pathOf segs trailing ↔
          str "/res/" <+: pathOf segs trailing' := by
        rw [literal_iff hs, literal_iff hs]
        refine and_congr_right fun head => ?_
        have deep : 1 < segs.length := by
          cases segs with
          | nil => cases head
          | cons s segs =>
              cases segs with
              | nil => exact absurd (congrArg (fun s => [s]) (Option.some_inj.mp head)) below
              | cons s' segs => simp
        simp [deep]
      simp [Row.captures, Route.row, hp, prefix_route r hr hp, ending]

theorem agrees_ending {deployed : Bool} {segs : List Bytes} (hs : ∀ s ∈ segs, IsSegment s)
    (below : segs ≠ [str "res"]) (trailing trailing' : Bool) :
    ∀ r ∈ (routes deployed).routes, r.Agrees (pathOf segs trailing) (pathOf segs trailing') := by
  have agrees : ∀ {r : Mux.Route Registered} (rr : RouteRegexp), r.path = some rr →
      (∀ p, r.fits p = (findSubmatch rr.regexp p).isSome) →
      findSubmatch rr.regexp (pathOf segs trailing) =
        findSubmatch rr.regexp (pathOf segs trailing') →
      r.Agrees (pathOf segs trailing) (pathOf segs trailing') := by
    intro r rr path fits same
    refine ⟨by rw [fits, fits, same], ?_⟩
    intro rr' path'
    rw [path] at path'
    cases path'
    exact same
  intro r hr
  rw [routes_eq] at hr
  cases List.mem_append.mp hr with
  | inl metrics =>
      cases deployed with
      | false => cases metrics
      | true =>
          have proper : ∀ p ∈ [SegPattern.word (str "metrics")], p.Proper := by
            intro p hp
            rw [List.mem_singleton.mp hp]
            exact ⟨by decide, by decide⟩
          rw [List.mem_singleton.mp metrics]
          refine agrees metricsRegexp rfl ?_ ?_
          · intro p
            simp [Mux.Route.fits, metricsRoute, RouteRegexp.matchString]
          · exact (findSubmatch_pathOf proper hs trailing).trans
              (findSubmatch_pathOf proper hs trailing').symm
  | inr table =>
      obtain ⟨route, member, rfl⟩ := List.mem_map.mp table
      refine agrees route.regexp rfl ?_ ?_
      · intro p
        simp [Mux.Route.fits, Route.registered, RouteRegexp.matchString]
      · rw [findSubmatch_regexp route hs, findSubmatch_regexp route hs]
        exact captures_ending member hs below trailing trailing'

/-- A request that is redirected by its route has a clean path below the root. -/
theorem redirectHandler_clean {deployed : Bool} {request : Incoming} {url : Bytes}
    (corrected : dispatch deployed request = .redirectHandler url) :
    cleanPath request.url.path = request.url.path ∧ segments request.url.path ≠ [] ∧
      url = (toggleSlash request.url).string := by
  obtain ⟨trailing, form⟩ := cleanPath_eq request.url.path
  have hs : ∀ s ∈ segments request.url.path, IsSegment s := fun s hs => isSegment_of_mem_segments hs
  have clean : cleanPath request.url.path = request.url.path := by
    by_contra unclean
    rw [dispatch_unclean unclean] at corrected
    cases corrected
  have hpath := clean.symm.trans form
  have answer : dispatch deployed request = _ := dispatch_clean hs hpath
  rw [corrected] at answer
  refine ⟨clean, ?_, ?_⟩
  · intro nil
    rw [nil] at answer
    have unmetered : isMetrics deployed [] = false := by cases deployed <;> rfl
    rw [unmetered, if_neg Bool.false_ne_true, expected] at answer
    cases ha : decision request.method [] with
    | none =>
        simp only [ha] at answer
        split at answer <;> cases answer
    | some a =>
        obtain ⟨-, rfl⟩ := decision_root ha
        simp only [ha] at answer
        cases answer
  · split at answer
    · split at answer
      · cases answer
      · exact Dispatched.redirectHandler.inj answer
    · rw [expected] at answer
      split at answer
      · split at answer
        · cases answer
        · rw [← hpath] at answer
          exact Dispatched.redirectHandler.inj answer
      · split at answer <;> cases answer

/-- The path of the file server without its slash leads into the file server. -/
theorem corrected_res {deployed : Bool} {request final : Incoming} {trailing : Bool} {url : Bytes}
    (hpath : request.url.path = pathOf [str "res"] trailing)
    (corrected : dispatch deployed request = .redirectHandler url)
    (hpath' : final.url.path = pathOf [str "res"] !trailing)
    (method : final.method = request.method) :
    trailing = false ∧
      dispatch deployed final = .endpoint .fileServer (.ok ⟨[], true, false, []⟩) := by
  have hs : ∀ s ∈ [str "res"], IsSegment s := by decide
  have unmetered : isMetrics deployed [str "res"] = false := by cases deployed <;> decide
  have answer : dispatch deployed request = _ := dispatch_clean hs hpath
  rw [corrected, unmetered, if_neg Bool.false_ne_true, expected] at answer
  cases ha : decision request.method [str "res"] with
  | none =>
      simp only [ha] at answer
      split at answer <;> cases answer
  | some a =>
      have server := decision_res ha
      cases trailing with
      | true =>
          rw [ha, server] at answer
          cases answer
      | false =>
          rw [dispatch_decided hs hpath' (by rwa [method]) unmetered, server]
          exact ⟨rfl, rfl⟩

end FileSharing
