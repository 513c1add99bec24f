import FileSharing.Web.Following

/-!
The row links of view.html. A link is written by `html/template`, resolved by
the browser against the page and dispatched by the router; it opens its file for
some names only.
-/

namespace FileSharing
open Net Effects Mux

/-- The URL of a storage's page, with the name of the storage as it stands there. -/
def pageTarget (origin : Target) (raw : Bytes) (isPermanent : Bool) : Target :=
  { origin with path := pathOf (area raw isPermanent) true }

/-- A page that ViewHandler answers. -/
structure StoragePage (deployed : Bool) where
  origin : Target
  raw : Bytes
  storage : Bytes
  isPermanent : Bool
  host : origin.authority.isSome = true
  noSlash : slash ∉ raw
  decoded : unescape raw = some storage
  viewed : ∃ request, visit (str "GET") (pageTarget origin raw isPermanent) = some request ∧
    dispatch deployed request =
      .endpoint (.handler .viewHandler) (.ok ⟨storage, false, isPermanent, []⟩)

/-- A file whose name is a single path component. -/
abbrev ListedFile : Type := { fileInfo : FileInfo // IsSegment fileInfo.name }

namespace StoragePage
variable {deployed : Bool} (page : StoragePage deployed)

def target : Target := pageTarget page.origin page.raw page.isPermanent

/-- What a GET of a file of the storage is to be dispatched to. -/
def opened (fileName : Bytes) : Dispatched :=
  if fileName = str "index.html" then
    .endpoint (.handler .indexHTMLHandler) (.ok ⟨page.storage, false, page.isPermanent, []⟩)
  else .endpoint (.handler .getFileHandler) (.ok ⟨page.storage, false, page.isPermanent, fileName⟩)

/-- The row link of a file leads on this host to the handler of the file. -/
def Opens (h : Handler) (fileInfo : FileInfo) : Prop :=
  (follow page.target (rowLink fileInfo)).SameHost page.target ∧
    ∃ last, Arrives h deployed (follow page.target (rowLink fileInfo)) last (page.opened fileInfo.name)

/-- The names that a row link can carry. -/
structure Linkable (fileName : Bytes) : Prop where
  safe : isSafeURL fileName = true
  noScheme : (splitScheme fileName).1 = none
  noQuery : question ∉ fileName
  noFragment : hash ∉ fileName
  noEscape : hasEscape fileName = false
  notArea : page.isPermanent = false → fileName ≠ str "permanent"
  notLogin : page.isPermanent = false → page.storage ≠ str "login"

theorem decided_opened {method : Bytes} {segs : List Bytes} {a : Answer} {fileName : Bytes}
    (ha : decision method segs = some a)
    (reached : page.opened fileName = .endpoint a.endpoint (.ok a.parameters)) :
    segs = area page.storage page.isPermanent ++ [fileName] ∧
      (page.isPermanent = false → fileName ≠ str "permanent" ∧ page.storage ≠ str "login") := by
  have words : str "index.html" ≠ str "permanent" := by decide
  unfold opened at reached
  split at reached
  · rename_i index
    injection reached with he hp
    injection hp with hp
    rw [index]
    cases decision_iff.mp ha with
    | index _ hlogin =>
        injection hp with storage _ permanent
        rw [storage, permanent]
        exact ⟨rfl, fun _ => ⟨words, hlogin⟩⟩
    | indexPermanent =>
        injection hp with storage _ permanent
        rw [storage, permanent]
        exact ⟨rfl, fun h => by cases h⟩
    | operation _ hop | operationPermanent _ hop =>
        cases he
        exact absurd (operation_handler hop) (by simp)
    | _ => cases he
  · injection reached with he hp
    injection hp with hp
    cases decision_iff.mp ha with
    | filePermanent =>
        injection hp with storage _ permanent file
        rw [storage, permanent, file]
        exact ⟨rfl, fun h => by cases h⟩
    | file _ hlogin _ hpermanent =>
        injection hp with storage _ permanent file
        rw [storage, permanent, file]
        exact ⟨rfl, fun _ => ⟨hpermanent, hlogin⟩⟩
    | operation _ hop | operationPermanent _ hop =>
        cases he
        exact absurd (operation_handler hop) (by simp)
    | _ => cases he

theorem segment_storage : IsSegment page.storage ∧ page.storage ≠ str "res" := by
  obtain ⟨request, -, reached⟩ := page.viewed
  obtain ⟨trailing, a, -, ha, -, he, hp⟩ := dispatch_endpoint reached
  obtain ⟨segs, hres, -⟩ := decision_view ha he.symm (Except.ok.inj hp).symm
  refine ⟨isSegment_of_mem_segments (p := request.url.path) ?_, hres⟩
  rw [segs]
  cases page.isPermanent <;> exact List.mem_cons_self

/-- The words of the page's URL as they stand there. -/
theorem undotted_area :
    ∀ s ∈ area page.raw page.isPermanent, slash ∉ s ∧ s ≠ dot ∧ s ≠ dotdot := by
  have seg := page.segment_storage.1
  have raw : slash ∉ page.raw ∧ page.raw ≠ dot ∧ page.raw ≠ dotdot := by
    refine ⟨page.noSlash, ?_, ?_⟩
    · intro e
      have decoded := page.decoded
      rw [e, unescape_of_no_percent (by decide)] at decoded
      exact seg.notDot (Option.some_inj.mp decoded).symm
    · intro e
      have decoded := page.decoded
      rw [e, unescape_of_no_percent (by decide)] at decoded
      exact seg.notDotdot (Option.some_inj.mp decoded).symm
  intro s hs
  cases permanent : page.isPermanent with
  | false =>
      rw [permanent, area, if_neg Bool.false_ne_true, List.mem_singleton] at hs
      rwa [hs]
  | true =>
      rw [permanent, area, if_pos rfl, List.mem_pair] at hs
      cases hs with
      | inl e => rwa [e]
      | inr e => rw [e]; decide

theorem target_path : page.target.path =
    (area page.raw page.isPermanent).flatMap (slash :: ·) ++ [slash] := by
  cases h : page.isPermanent <;> simp [target, pageTarget, area, pathOf, h]

theorem unescape_slash {s t : Bytes} (h : unescape s = some t) (rest : Bytes) :
    unescape (slash :: s ++ rest) = (slash :: t ++ ·) <$> unescape rest := by
  have whole : unescape (slash :: s) = some (slash :: t) := by
    rw [unescape_cons (by decide), h]
    rfl
  exact unescape_append whole rest

/-- The words of the page's URL decode to its segments. -/
theorem unescape_area (isPermanent : Bool) (rest : Bytes) :
    unescape ((area page.raw isPermanent).flatMap (slash :: ·) ++ rest) =
      (unescape rest).map ((area page.storage isPermanent).flatMap (slash :: ·) ++ ·) := by
  have word : unescape (str "permanent") = some (str "permanent") :=
    unescape_of_no_percent (by decide)
  cases isPermanent with
  | false =>
      simp only [area, Bool.false_eq_true, if_false, List.flatMap_singleton]
      exact unescape_slash page.decoded rest
  | true =>
      simp only [area, if_true, List.flatMap_cons, List.flatMap_nil, List.append_nil,
        List.append_assoc]
      rw [unescape_slash page.decoded, unescape_slash word]
      cases unescape rest <;> simp

theorem isSegment_area (isPermanent : Bool) : ∀ s ∈ area page.storage isPermanent, IsSegment s := by
  intro s hs
  cases isPermanent with
  | false =>
      rw [area, if_neg Bool.false_ne_true, List.mem_singleton] at hs
      rw [hs]
      exact page.segment_storage.1
  | true =>
      rw [area, if_pos rfl, List.mem_pair] at hs
      cases hs with
      | inl e => rw [e]; exact page.segment_storage.1
      | inr e => rw [e]; decide

theorem area_ne_nil : area page.storage page.isPermanent ≠ [] := by
  cases page.isPermanent <;> exact List.cons_ne_nil _ _

/-- The segments of a page's URL. -/
theorem segments_area {isPermanent : Bool} {p : Bytes}
    (decoded : unescape ((area page.raw isPermanent).flatMap (slash :: ·) ++ [slash]) = some p) :
    segments p = area page.storage isPermanent := by
  have path : (area page.storage isPermanent).flatMap (slash :: ·) ++ [slash] =
      pathOf (area page.storage isPermanent) true := by
    cases isPermanent <;> simp [area, pathOf]
  rw [page.unescape_area, unescape_of_no_percent (by decide), Option.map_some, path] at decoded
  rw [← Option.some_inj.mp decoded, segments_pathOf (page.isSegment_area isPermanent)]

section Link
variable {fileName : Bytes} (hslash : slash ∉ fileName)

/-- A name that the template does not trust leads back to the page. -/
theorem link_filtered (untrusted : isSafeURL fileName = false) :
    (follow page.target (href fileName)).path = page.target.path := by
  have text : href fileName = str "#ZgotmplZ" := by
    rw [href, urlFilter, untrusted, if_neg Bool.false_ne_true]
    decide
  rw [text]
  exact (follow_relative page.target_path (by decide) (by decide)).2.trans (if_pos (by decide))

include hslash

/-- A name that starts with a scheme leads off the host. -/
theorem link_scheme (safe : isSafeURL fileName = true) (named : (splitScheme fileName).1 ≠ none) :
    (follow page.target (href fileName)).authority = none := by
  rw [href, urlFilter, safe, if_pos rfl]
  refine follow_scheme page.target ?_ (slash_not_mem_urlNormalizer hslash)
  rwa [splitScheme_urlNormalizer]

/-- Any other name leads on from the page, as far as the name reads as a path. -/
theorem link_path (safe : isSafeURL fileName = true) (noScheme : (splitScheme fileName).1 = none) :
    (follow page.target (href fileName)).SameHost page.target ∧
      (follow page.target (href fileName)).path =
        if urlNormalizer (fileName.takeWhile isPathByte) = [] then page.target.path
        else removeDotSegments ((area page.raw page.isPermanent).flatMap (slash :: ·) ++
          slash :: urlNormalizer (fileName.takeWhile isPathByte)) := by
  have keeps : ∀ c, keepNormal c = false → isPathByte c = true := forall_byte (by decide)
  have rooted : (urlNormalizer fileName).head? ≠ some slash := fun h =>
    slash_not_mem_urlNormalizer hslash (List.mem_of_mem_head? h)
  rw [href, urlFilter, safe, if_pos rfl,
    ← takeWhile_urlNormalizer (by decide) isPathByte_of_isHex keeps]
  exact follow_relative page.target_path (by rwa [splitScheme_urlNormalizer]) rooted

end Link

/-- A link that leads to the segments of its file carries all of the name. -/
theorem whole_of_segments {fileName p : Bytes} (hslash : slash ∉ fileName)
    (safe : isSafeURL fileName = true) (noScheme : (splitScheme fileName).1 = none)
    (decoded : unescape (follow page.target (href fileName)).path = some p)
    (reached : home (segments p) = area page.storage page.isPermanent ++ [fileName]) :
    fileName.takeWhile isPathByte = fileName ∧ hasEscape fileName = false := by
  have size := List.length_pos_iff.mpr page.area_ne_nil
  have below : segments p = area page.storage page.isPermanent ++ [fileName] := by
    cases hsegs : segments p with
    | nil =>
        have len := congrArg List.length reached
        rw [hsegs, List.length_append] at len
        simp only [home, List.length_singleton] at len
        omega
    | cons s segs =>
        rw [hsegs] at reached
        exact reached
  have elsewhere : ¬(segments p).length ≤ (area page.storage page.isPermanent).length := by
    rw [below, List.length_append, List.length_singleton]
    omega
  have short : fileName.takeWhile isPathByte <+: fileName := List.takeWhile_prefix _
  have noSlash := slash_not_mem_urlNormalizer fun h => hslash (short.subset h)
  obtain ⟨-, path⟩ := page.link_path hslash safe noScheme
  rw [path, page.target_path] at decoded
  split at decoded
  · exact absurd (page.segments_area decoded ▸ le_rfl) elsewhere
  · rw [removeDotSegments_last page.undotted_area noSlash] at decoded
    split at decoded
    · exact absurd (page.segments_area decoded ▸ le_rfl) elsewhere
    · split at decoded
      · refine absurd ?_ elsewhere
        cases permanent : page.isPermanent with
        | false =>
            rw [permanent] at decoded
            have root : unescape [slash] = some p := decoded
            rw [unescape_of_no_percent (by decide)] at root
            rw [← Option.some_inj.mp root]
            exact Nat.zero_le _
        | true =>
            rw [permanent] at decoded
            have parent : (area page.raw true).dropLast = area page.raw false := rfl
            rw [page.segments_area (parent ▸ decoded)]
            simp [area]
      · rw [page.unescape_area, unescape_cons (by decide)] at decoded
        obtain ⟨q, rest, path⟩ := Option.map_eq_some_iff.mp decoded
        obtain ⟨name, normal, rfl⟩ := Option.map_eq_some_iff.mp rest
        have rooted : ∃ p', p = slash :: p' := by
          rw [← path]
          cases page.isPermanent <;> exact ⟨_, rfl⟩
        obtain ⟨p', rfl⟩ := rooted
        have bound := weight_segments_slash p'
        rw [below, ← path, weight_append, weight_cons, List.length_append, length_flatMap_slash,
          List.length_cons] at bound
        have shrunk := unescape_urlNormalizer_length normal
        have whole := short.eq_of_length_le (by omega)
        rw [whole] at shrunk
        refine ⟨whole, ?_⟩
        by_contra escaped
        rw [if_pos (by simpa using escaped)] at shrunk
        omega

/-- The segments of a GET that is dispatched to a file. -/
theorem segments_of_opened {request : Incoming} {fileName : Bytes}
    (reached : dispatch deployed request = page.opened fileName) :
    segments request.url.path = area page.storage page.isPermanent ++ [fileName] ∧
      (page.isPermanent = false → fileName ≠ str "permanent" ∧ page.storage ≠ str "login") := by
  have endpoint : ∃ e p, page.opened fileName = .endpoint e p := by
    unfold opened
    split <;> exact ⟨_, _, rfl⟩
  obtain ⟨e, p, form⟩ := endpoint
  obtain ⟨trailing, a, -, ha, -, rfl, rfl⟩ := dispatch_endpoint (reached.trans form)
  exact page.decided_opened ha form

theorem linkable_of_opens {h : Handler} {fileInfo : FileInfo} (hf : IsSegment fileInfo.name)
    (opens : page.Opens h fileInfo) : page.Linkable fileInfo.name := by
  obtain ⟨same, last, arrives⟩ := opens
  obtain ⟨request, read⟩ := arrives.read
  obtain ⟨-, trailing, final, -, reached, path⟩ := arrives_segments arrives read
  obtain ⟨segs, literals⟩ := page.segments_of_opened reached.symm
  have hs := isSegment_home fun s hs => isSegment_of_mem_segments (p := request.url.path) hs
  rw [path, segments_pathOf hs] at segs
  have decoded := visit_path read
  have safe : isSafeURL fileInfo.name = true := by
    by_contra filtered
    rw [rowLink, page.link_filtered (by simpa using filtered), page.target_path] at decoded
    rw [page.segments_area decoded, home_of_ne page.area_ne_nil] at segs
    simpa using congrArg List.length segs
  have noScheme : (splitScheme fileInfo.name).1 = none := by
    by_contra named
    have host := page.host
    rw [show page.origin.authority = _ from same.authority.symm] at host
    rw [rowLink, page.link_scheme hf.noSlash safe named] at host
    cases host
  obtain ⟨whole, noEscape⟩ := page.whole_of_segments hf.noSlash safe noScheme decoded segs
  have bytes : ∀ c ∈ fileInfo.name, isPathByte c = true := List.takeWhile_eq_self_iff.mp whole
  exact {
    safe, noScheme, noEscape
    noQuery := fun hq => by cases bytes _ hq
    noFragment := fun hh => by cases bytes _ hh
    notArea := fun plain => (literals plain).1
    notLogin := fun plain => (literals plain).2 }

theorem decision_opened {fileName : Bytes}
    (literals : page.isPermanent = false → fileName ≠ str "permanent" ∧ page.storage ≠ str "login") :
    ∃ a, decision (str "GET") (area page.storage page.isPermanent ++ [fileName]) = some a ∧
      page.opened fileName = .endpoint a.endpoint (.ok a.parameters) ∧ a.endpoint ≠ .redirectCommon := by
  have hres := page.segment_storage.2
  unfold opened
  cases permanent : page.isPermanent with
  | false =>
      obtain ⟨hpermanent, hlogin⟩ := literals permanent
      split
      · rename_i index
        rw [index]
        exact ⟨_, decision_iff.mpr (.index hres hlogin), rfl, by simp⟩
      · rename_i hindex
        exact ⟨_, decision_iff.mpr (.file hres hlogin hindex hpermanent), rfl, by simp⟩
  | true =>
      split
      · rename_i index
        rw [index]
        exact ⟨_, decision_iff.mpr (.indexPermanent hres), rfl, by simp⟩
      · rename_i hindex
        exact ⟨_, decision_iff.mpr (.filePermanent hres hindex), rfl, by simp⟩

theorem opens_of_linkable (h : Handler) {fileInfo : FileInfo} (hf : IsSegment fileInfo.name)
    (linkable : page.Linkable fileInfo.name) : page.Opens h fileInfo := by
  have whole : fileInfo.name.takeWhile isPathByte = fileInfo.name :=
    List.takeWhile_eq_self_iff.mpr (forall_isPathByte linkable.noQuery linkable.noFragment)
  have normal := unescape_urlNormalizer linkable.noEscape
  have back : ∀ {s : Bytes}, urlNormalizer fileInfo.name = s → percent ∉ s → fileInfo.name = s := by
    intro s e plain
    rw [e, unescape_of_no_percent plain] at normal
    exact (Option.some_inj.mp normal).symm
  obtain ⟨same, path⟩ := page.link_path hf.noSlash linkable.safe linkable.noScheme
  rw [whole, if_neg fun e => hf.nonempty (back e (by decide)),
    removeDotSegments_last page.undotted_area (slash_not_mem_urlNormalizer hf.noSlash),
    if_neg fun e => hf.notDot (back e (by decide)),
    if_neg fun e => hf.notDotdot (back e (by decide))] at path
  have segs : ∀ s ∈ area page.storage page.isPermanent ++ [fileInfo.name], IsSegment s := by
    intro s hs
    cases List.mem_append.mp hs with
    | inl hs => exact page.isSegment_area _ s hs
    | inr hs => rwa [List.mem_singleton.mp hs]
  have decoded : unescape (follow page.target (href fileInfo.name)).path =
      some (pathOf (area page.storage page.isPermanent ++ [fileInfo.name]) false) := by
    rw [path, page.unescape_area, unescape_cons (by decide), normal]
    cases page.isPermanent <;> simp [area, pathOf]
  obtain ⟨a, ha, reached, stays⟩ := @decision_opened _ page fileInfo.name fun plain =>
    ⟨linkable.notArea plain, linkable.notLogin plain⟩
  have unmetered :
      isMetrics deployed (area page.storage page.isPermanent ++ [fileInfo.name]) = false := by
    cases page.isPermanent <;> simp [isMetrics, area]
  obtain ⟨last, own, arrives, -⟩ := arrives_of_decision segs decoded ha stays unmetered
  exact ⟨same, last, by rw [reached]; exact arrives⟩

end StoragePage

/-- The row links of a listing all open their files exactly when every name can be
linked. -/
theorem links_open_iff {deployed : Bool} (h : Handler) (page : StoragePage deployed)
    (files : List ListedFile) :
    (∀ file ∈ files, page.Opens h file.1) ↔ ∀ file ∈ files, page.Linkable file.1.name :=
  forall₂_congr fun file _ => ⟨page.linkable_of_opens file.2, page.opens_of_linkable h file.2⟩

/-- The page of the common storage. -/
def commonPage : StoragePage false where
  origin := ⟨some (str "http"), some (str "localhost"), [slash], none⟩
  raw := str "common"
  storage := str "common"
  isPermanent := false
  host := rfl
  noSlash := by decide
  decoded := unescape_of_no_percent (by decide)
  viewed := by
    have proper : ∀ s ∈ [str "common"], IsSegment s := by decide
    have decoded : unescape (pathOf [str "common"] true) = some (pathOf [str "common"] true) :=
      unescape_of_no_percent (by decide)
    obtain ⟨request, read, got, hpath⟩ := @visit_decoded
      (pageTarget ⟨some (str "http"), some (str "localhost"), [slash], none⟩ (str "common") false)
      (str "GET") _ decoded
    refine ⟨request, read, ?_⟩
    rw [dispatch_expected request proper true hpath, got]
    rfl

/-- The file `a?b`, whose link asks for the file `a`, and the file `permanent`,
whose link leads to the permanent area. -/
theorem link_lost :
    ¬commonPage.Opens .plain ⟨str "a?b", 0, 0⟩ ∧ ¬commonPage.Opens .plain ⟨str "permanent", 0, 0⟩ := by
  constructor
  · intro opens
    exact (commonPage.linkable_of_opens (by decide) opens).noQuery (by decide)
  · intro opens
    exact (commonPage.linkable_of_opens (by decide) opens).notArea rfl rfl

end FileSharing
