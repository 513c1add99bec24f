import FileSharing.Web.Following
import FileSharing.Web.Login

/-!
Whether the storage one registers or logs in to can be reached: where the
Location of the redirect leads, and what the page found there leads to.
-/

namespace FileSharing
open Net Effects Mux

/-- What the page of a storage posts to, and for which handler. -/
def postTargets : List (Bytes × HandlerName) :=
  [(uploadAction, .uploadHandler), (removeURL, .removeHandler), (shareTextURL, .shareTextHandler)]

/-- A page from which all relative targets lead to the storage. -/
structure LeadsOn (h : Handler) (deployed : Bool) (name : Bytes) (page : Target) : Prop where
  posts : ∀ p ∈ postTargets, (follow page p.1).SameHost page ∧
    ∃ request, visit (str "POST") (follow page p.1) = some request ∧
      dispatch deployed request = .endpoint (.handler p.2) (.ok ⟨name, false, false, []⟩)
  permanent : (follow page permanentLink).SameHost page ∧
    ∃ last, Arrives h deployed (follow page permanentLink) last
      (.endpoint (.handler .viewHandler) (.ok ⟨name, false, true, []⟩))

/-- A Location that leads to the page of the storage. -/
def Addresses (h : Handler) (deployed : Bool) (name : Bytes) (base : Target) (location : Bytes) :
    Prop :=
  (follow base (headerValue location)).SameHost base ∧
    ∃ page, Arrives h deployed (follow base (headerValue location)) page
        (.endpoint (.handler .viewHandler) (.ok ⟨name, false, false, []⟩)) ∧
      LeadsOn h deployed name page

/-- Every registration of the storage and every login to it that is redirected
leads to its page, whatever url.Parse makes of the target. -/
def Addressable (parseURL : Bytes → Option ParsedURL) (deployed : Bool) (name : Bytes) : Prop :=
  ∀ (h : Handler) (request : Incoming) (base : Target), h.lib.parseURL = parseURL →
    Enters deployed request name → unescape base.path = some request.url.path →
    (serveHTTP h deployed request).Ensures fun t _ => Redirects t →
      ∃ location, t.filterMap locationOf = [location] ∧ Addresses h deployed name base location

/-- The names that are addresses of their storage. -/
structure IsAddress (deployed : Bool) (name : Bytes) : Prop where
  segment : IsSegment name
  plain : IsPlain name
  unreserved : name ∉ [str "res", str "register", str "login"]
  unmetered : deployed = true → name ≠ str "metrics"

section Child
variable {t : Target} {segs : List Bytes} (hs : ∀ s ∈ segs, IsSegment s) (hne : segs ≠ [])
  (hpath : t.path = escapePath (pathOf segs true)) {word : Bytes} (hword : IsSegment word)
  (bare : escapePath word = word) (uncolon : colon ∉ word) (trailing : Bool)
include hs hne hpath hword bare uncolon

/-- A relative target of one word leads to the child of that name. -/
theorem follow_child :
    let next := follow t (word ++ if trailing then [slash] else [])
    next.SameHost t ∧ next.path = escapePath (pathOf (segs ++ [word]) trailing) := by
  intro next
  have children : ∀ s ∈ segs ++ [word], IsSegment s := by
    intro s h
    cases List.mem_append.mp h with
    | inl h => exact hs s h
    | inr h => rwa [List.mem_singleton.mp h]
  have dir : t.path = (segs.map escapePath).flatMap (slash :: ·) ++ [slash] := by
    rw [hpath, escapePath_pathOf]
    cases segs with
    | nil => exact absurd rfl hne
    | cons s segs => simp [pathOf]
  have child : (segs.map escapePath).flatMap (slash :: ·) ++
      slash :: (word ++ if trailing then [slash] else []) =
        pathOf ((segs ++ [word]).map escapePath) trailing := by
    rw [List.map_append, List.map_singleton, bare]
    cases segs <;> simp [pathOf]
  have escaped : escapePath (word ++ if trailing then [slash] else []) =
      word ++ if trailing then [slash] else [] := by
    rw [escapePath_append, bare]
    cases trailing <;> rfl
  have whole : (word ++ if trailing then [slash] else []).takeWhile isPathByte =
      word ++ if trailing then [slash] else [] :=
    List.takeWhile_eq_self_iff.mpr (escaped ▸ isPathByte_escapePath _)
  have unschemed : colon ∉ word ++ if trailing then [slash] else [] := by
    rw [List.mem_append, not_or]
    refine ⟨uncolon, ?_⟩
    cases trailing <;> decide
  have rooted : (word ++ if trailing then [slash] else []).head? ≠ some slash := by
    cases word with
    | nil => exact absurd rfl hword.nonempty
    | cons c word =>
        intro h
        exact hword.noSlash (by simp [Option.some_inj.mp h])
  obtain ⟨same, path⟩ := follow_relative dir (splitScheme_none unschemed) rooted
  refine ⟨same, path.trans ?_⟩
  rw [whole, if_neg (by simp [hword.nonempty]), child,
    removeDotSegments_pathOf (isSegment_map_escapePath children), escapePath_pathOf]

end Child

/-- Under the name login no upload is dispatched. -/
theorem decision_upload {method : Bytes} {segs : List Bytes} {a : Answer} {storage : Bytes}
    (ha : decision method segs = some a) (he : a.endpoint = .handler .uploadHandler)
    (hp : a.parameters = ⟨storage, false, false, []⟩) : storage ≠ str "login" := by
  cases decision_iff.mp ha with
  | operation hlogin =>
      cases he
      cases hp
      exact hlogin
  | operationPermanent =>
      cases he
      cases hp
  | _ => cases he

section Leads
variable {h : Handler} {deployed : Bool} {name : Bytes}

/-- The page of a storage leads on, unless it is the one named login. -/
theorem leadsOn_of_path (seg : IsSegment name) (hres : name ≠ str "res")
    (hlogin : name ≠ str "login") {page : Target}
    (hpath : page.path = escapePath (pathOf [name] true)) : LeadsOn h deployed name page := by
  have hs : ∀ s ∈ [name], IsSegment s := fun s hs => List.mem_singleton.mp hs ▸ seg
  have children : ∀ {word : Bytes}, IsSegment word → ∀ s ∈ [name] ++ [word], IsSegment s := by
    intro word hword s hs
    rw [List.singleton_append, List.mem_pair] at hs
    cases hs with
    | inl e => rwa [e]
    | inr e => rwa [e]
  have unmetered : ∀ word, isMetrics deployed ([name] ++ [word]) = false := by
    intro word
    simp [isMetrics]
  have post : ∀ (word : Bytes) {handler : HandlerName}, IsSegment word → escapePath word = word →
      colon ∉ word → operation word = some handler →
      (follow page (word ++ [slash])).SameHost page ∧
        ∃ request, visit (str "POST") (follow page (word ++ [slash])) = some request ∧
          dispatch deployed request = .endpoint (.handler handler) (.ok ⟨name, false, false, []⟩) := by
    intro word handler hword bare uncolon hop
    obtain ⟨same, path⟩ := follow_child hs (List.cons_ne_nil _ _) hpath hword bare uncolon true
    have decoded := escapePath_unescape (pathOf ([name] ++ [word]) true)
    rw [← path] at decoded
    obtain ⟨request, read, got, reached⟩ := visit_decoded (str "POST") decoded
    refine ⟨same, request, read, ?_⟩
    rw [dispatch_decided (children hword) reached
      (by rw [got]; exact decision_iff.mpr (.operation hlogin hop)) (unmetered word)]
    obtain rfl | rfl | rfl := operation_handler hop <;> rfl
  refine ⟨?_, ?_⟩
  · intro p hp
    simp only [postTargets, List.mem_cons, List.not_mem_nil, or_false] at hp
    obtain rfl | rfl | rfl := hp
    · exact post (str "upload") (by decide) (by decide) (by decide) (by decide)
    · exact post (str "remove") (by decide) (by decide) (by decide) (by decide)
    · exact post (str "shareText") (by decide) (by decide) (by decide) (by decide)
  · obtain ⟨same, path⟩ := follow_child hs (List.cons_ne_nil _ _) hpath
      (by decide : IsSegment permanentLink) (by decide) (by decide) false
    have decoded := escapePath_unescape (pathOf ([name] ++ [permanentLink]) false)
    rw [← path] at decoded
    obtain ⟨last, own, arrives, -⟩ := arrives_of_decision (h := h) (children (by decide)) decoded
      (decision_iff.mpr (.viewPermanent hres hlogin)) (by simp) (unmetered _)
    rw [if_neg Bool.false_ne_true, List.append_nil] at same arrives
    exact ⟨same, last, arrives⟩

/-- The Location of a name that is an address leads to the page. -/
theorem addresses_of_isAddress (address : IsAddress deployed name) (base : Target) (path : Bytes) :
    Addresses h deployed name base (h.loginLocation path name) := by
  have seg := address.segment
  have reserved := address.unreserved
  simp only [List.mem_cons, List.not_mem_nil, or_false, not_or] at reserved
  obtain ⟨hres, hregister, hlogin⟩ := reserved
  have hs : ∀ s ∈ [name], IsSegment s := fun s hs => List.mem_singleton.mp hs ▸ seg
  have word : ∀ trailing : Bool,
      pathOf [name] trailing = slash :: name ++ if trailing then [slash] else [] := by
    simp [pathOf]
  have location : h.loginLocation path name = hexEscapeNonASCII (slash :: name) := by
    have unquestioned : question ∉ pathOf [name] false := by
      have other : question ≠ slash := by decide
      rw [word]
      simpa [other] using fun hq => address.plain.undelimited question hq (by decide)
    have kept := redirectURL_pathOf hs false (h.lib.parseURL (slash :: name)) path unquestioned
      isTail_nil
    rw [word, if_neg Bool.false_ne_true, List.append_nil, List.append_nil] at kept
    rw [Handler.loginLocation, kept]
  obtain ⟨same, decoded⟩ := follow_plain base seg address.plain
  rw [location]
  have decoded : unescape (follow base (headerValue (hexEscapeNonASCII (slash :: name)))).path =
      some (pathOf [name] false) := by
    rw [decoded, word, if_neg Bool.false_ne_true, List.append_nil]
  have unmetered : isMetrics deployed [name] = false := by
    cases deployed with
    | false => rfl
    | true => simpa [isMetrics] using address.unmetered rfl
  obtain ⟨page, own, arrives, -, form, reached⟩ := arrives_of_decision (h := h) hs decoded
    (decision_iff.mpr (.view hres hregister)) (by simp) unmetered
  refine ⟨same, page, arrives, leadsOn_of_path seg hres hlogin ?_⟩
  have slashed : own = true := form
  cases reached with
  | inl here =>
      rw [slashed] at here
      cases here.2
  | inr there => rwa [slashed] at there

/-- A Location that leads to the page is that of an address. -/
theorem isAddress_of_addresses {base : Target} {path : Bytes}
    (addresses : Addresses h deployed name base (h.loginLocation path name)) :
    IsAddress deployed name := by
  obtain ⟨-, page, arrives, leads⟩ := addresses
  obtain ⟨request, read⟩ := arrives.read
  obtain ⟨-, trailing, final, got, reached, hpath⟩ := arrives_segments arrives read
  have proper := isSegment_home fun s hs => isSegment_of_mem_segments (p := request.url.path) hs
  obtain ⟨-, a, -, ha, -, he, hp⟩ := dispatch_endpoint reached.symm
  obtain ⟨segs, hres, hregister⟩ := decision_view ha he.symm (Except.ok.inj hp).symm
  rw [hpath, segments_pathOf proper] at segs
  have seg : IsSegment name := proper name (by rw [segs]; exact List.mem_cons_self)
  have hlogin : name ≠ str "login" := by
    obtain ⟨-, post, -, uploaded⟩ := leads.posts (uploadAction, .uploadHandler) List.mem_cons_self
    obtain ⟨-, b, -, hb, -, he', hp'⟩ := dispatch_endpoint uploaded
    exact decision_upload hb he'.symm (Except.ok.inj hp').symm
  refine ⟨seg, ?_, ?_, ?_⟩
  · cases home_segs : segments request.url.path with
    | nil =>
        -- the root leads to the common storage, whatever its Location was
        rw [home_segs] at segs
        cases segs
        exact ⟨by decide +kernel, by decide⟩
    | cons s rest =>
        rw [home_segs, home_of_ne (List.cons_ne_nil s rest), ← home_segs] at segs
        have decoded := visit_path read
        obtain raw | ⟨tail, htail, cleaned⟩ :=
          redirectURL_word seg.noSlash (h.lib.parseURL (slash :: name)) path
        · rw [Handler.loginLocation, raw] at decoded
          exact plain_of_arrives base seg.noSlash decoded segs
        · have root := (@follow_escaped base [] (by simp) false _ htail.hexEscape).2
          have text : escapePath (pathOf [] false) ++ hexEscapeNonASCII tail =
              hexEscapeNonASCII (slash :: tail) := by
            rw [hexEscape_ascii (by decide)]
            rfl
          rw [text, ← cleaned] at root
          rw [Handler.loginLocation, root, escapePath_unescape] at decoded
          rw [← Option.some_inj.mp decoded] at segs
          cases segs
  · simp [hres, hregister rfl, hlogin]
  · rintro rfl metrics
    rw [segs, metrics] at hpath
    rw [dispatch_clean (by decide) hpath] at reached
    cases trailing <;> cases reached

/-- Of every registration that is redirected the Location leads to the page. -/
theorem addressable_of_isAddress (parseURL : Bytes → Option ParsedURL)
    (address : IsAddress deployed name) : Addressable parseURL deployed name := by
  intro h request base _ enters _
  refine (enters.entered h).mono ?_
  intro t _ entered there
  obtain ⟨rsp, entered⟩ := entered there
  exact ⟨_, entered.location, addresses_of_isAddress address base _⟩

/-- A storage can be registered under every name. -/
theorem isAddress_of_addressable {parseURL : Bytes → Option ParsedURL} (named : name ≠ [])
    (addressable : Addressable parseURL deployed name) : IsAddress deployed name := by
  let h : Handler := { Handler.plain with lib := { Handler.plain.lib with parseURL } }
  let request : Incoming :=
    { method := str "POST", url := ⟨pathOf [str "register"] true, []⟩, cookies := []
      form := [(str "name", name)], multipart := .error [] }
  let base : Target :=
    ⟨some (str "http"), some (str "localhost"), pathOf [str "register"] true, none⟩
  have unmetered : isMetrics deployed [str "register"] = false := by
    cases deployed <;> rfl
  have reached : dispatch deployed request =
      .endpoint (.handler .registerHandler) (.ok ⟨[], true, false, []⟩) :=
    (@dispatch_decided deployed request [str "register"] (by decide) true rfl _
      (decision_iff.mpr (.register (.inr rfl))) unmetered).trans rfl
  have form : request.form.get (str "name") = name := by
    simp [request, Values.get]
  have enters : Enters deployed request name := ⟨named, rfl, .inl ⟨_, reached, form⟩⟩
  have decoded : unescape base.path = some request.url.path := unescape_of_no_percent (by decide)
  obtain ⟨r, hr, -, runs⟩ := serveHTTP_handler h reached
  have both := (runs _).mp ((addressable h request base rfl enters decoded).and (enters.entered h))
  obtain ⟨t, ⟨leads, entered⟩, there, -⟩ := register_accepted (fun _ => rfl)
    ⟨str "t", by decide, by decide⟩ (by rw [hr]) (by rw [Request.formValue, hr, form]) named .body both
  obtain ⟨location, only, addresses⟩ := leads there
  obtain ⟨rsp, entered⟩ := entered there
  rw [entered.location] at only
  rw [← (List.cons.inj only).1] at addresses
  exact isAddress_of_addresses addresses

end Leads

end FileSharing
