import FileSharing.Net.MultipartReader
import FileSharing.Web.Relay

/-!
What becomes of an uploaded form. The files of the form that the gateway receives
are those of the browser's form, or else there is no request at all.
-/

namespace FileSharing
open Net Effects

/-- The files of a form in their order: the parts that have a file name. -/
def PartStream.files : PartStream → List (Bytes × Bytes)
  | .eof _ | .failed _ => []
  | .part p rest =>
    if p.fileName = [] then rest.files else (p.fileName, p.content) :: rest.files

/-- A part cannot be read or written, or the form does not end. -/
def PartStream.Fails : PartStream → Prop
  | .eof closeErr => closeErr ≠ none
  | .failed _ => True
  | .part p rest =>
    p.fileName ≠ [] ∧ (p.createErr ≠ none ∨ p.copyErr ≠ none) ∨ rest.Fails

/-- The form of the request can be read and written to its end, and these are its
files. -/
def Handler.Rebuilds (h : Handler) (r : Request) (files : List (Bytes × Bytes)) : Prop :=
  (∃ sp, requestParameters r = .ok sp) ∧
    h.lib.newRequestErr (h.makeURL (str "upload")) = none ∧
    ∃ stream, r.multipart = .ok stream ∧ ¬stream.Fails ∧ files = stream.files

def requestsOf (t : Trace) : List GatewayRequest :=
  t.filterMap fun
    | ⟨.doRequest _ req, _⟩ => some req
    | _ => none

/-- The name and the contents of a file as a part of a body gives them. -/
def fileOf (p : FormPart) : Bytes × Bytes :=
  (((p.disposition.parameters.find? fun q => q.1 = str "filename").map (·.2)).getD [], p.content)

/-- The files that the gateway finds in the body of a request. -/
def GatewayRequest.formFiles (req : GatewayRequest) : Option (List (Bytes × Bytes)) := do
  let contentType ← req.contentType
  let boundary ← contentType.dropPrefix? (str "multipart/form-data; boundary=")
  let parts ← readMultipart boundary req.body
  some (parts.map fileOf)

/-- The loop over the parts comes to the files of the form, or to an error. -/
theorem copyParts_files {stream : PartStream} (whole : ¬stream.Fails) :
    copyParts stream = .ok (stream.files.map fun f => ⟨f.1, f.1, f.2⟩) := by
  induction stream with
  | eof closeErr =>
      cases closeErr with
      | none => rfl
      | some err => exact absurd (Option.some_ne_none err) whole
  | failed err => exact absurd trivial whole
  | part p rest ih =>
      simp only [PartStream.Fails, not_or, not_and, not_not] at whole
      rw [copyParts, PartStream.files, ih whole.2]
      by_cases named : p.fileName = []
      · rw [if_pos named, if_pos named]
      · rw [if_neg named, if_neg named, (whole.1 named).1, (whole.1 named).2]
        rfl

theorem copyParts_fails {stream : PartStream} (fails : stream.Fails) :
    ∃ err, copyParts stream = .error err := by
  induction stream with
  | eof closeErr =>
      cases closeErr with
      | none => exact absurd rfl fails
      | some err => exact ⟨_, rfl⟩
  | failed err => exact ⟨_, rfl⟩
  | part p rest ih =>
      rw [copyParts]
      by_cases named : p.fileName = []
      · rw [if_pos named]
        exact ih (fails.resolve_left fun h => h.1 named)
      · rw [if_neg named]
        cases created : p.createErr with
        | some err => exact ⟨_, rfl⟩
        | none =>
            cases copied : p.copyErr with
            | some err => exact ⟨_, rfl⟩
            | none =>
                have later : rest.Fails := by
                  simpa [PartStream.Fails, created, copied] using fails
                obtain ⟨err, failed⟩ := ih later
                rw [failed]
                exact ⟨err, rfl⟩

namespace FormFile
variable (f : FormFile)

def header : Bytes :=
  str "Content-Disposition: " ++ f.disposition ++ crlf ++
    str "Content-Type: application/octet-stream" ++ crlf ++ crlf

/-- The part that a reader makes of the file. -/
def part : FormPart where
  disposition := ⟨str "form-data", [(str "name", f.fieldName), (str "filename", f.fileName)]⟩
  content := f.content

theorem readQuoted_escapeQuotes (s rest : Bytes) :
    readQuoted .lenient false (escapeQuotes s ++ quote :: rest) = some (s, rest) := by
  have escaped : escapeQuotes s =
      s.flatMap fun c => if (c == backslash || c == quote) then [backslash, c] else [c] := by
    rw [escapeQuotes]
    congr 1
    funext c
    simp [backslash, quote]
  rw [escaped]
  refine readQuoted_escaped (fun _ _ => rfl) ?_ rest
  intro c _ special
  simpa [Quoting.lenient, and_comm] using special

theorem readDisposition_disposition (rest : Bytes) :
    readDisposition .lenient (f.disposition ++ (lineEnd ++ rest)) =
      some (f.part.disposition, lineEnd ++ rest) := by
  have opening : str "form-data; name=\"" =
      str "form-data" ++ semicolon :: space :: (str "name" ++ [equals, quote]) := by decide
  have middle : str "\"; filename=\"" =
      quote :: semicolon :: space :: (str "filename" ++ [equals, quote]) := by decide
  have closing : str "\"" = [quote] := by decide
  have second : quote :: semicolon :: space :: (str "filename" ++ equals :: quote ::
      (escapeQuotes f.fileName ++ quote :: (lineEnd ++ rest))) =
        str "\"; filename=\"" ++ escapeQuotes f.fileName ++ str "\"" ++ (lineEnd ++ rest) := by
    rw [middle, closing]
    simp
  have written : f.disposition ++ (lineEnd ++ rest) = str "form-data" ++ semicolon :: space ::
      (str "name" ++ equals :: quote :: (escapeQuotes f.fieldName ++ quote :: semicolon :: space ::
        (str "filename" ++ equals :: quote ::
          (escapeQuotes f.fileName ++ quote :: (lineEnd ++ rest))))) := by
    rw [second, disposition, opening]
    simp
  have last : ∀ fuel,
      readParameters .lenient fuel (lineEnd ++ rest) = some ([], lineEnd ++ rest) := by
    intro fuel
    cases fuel <;> rfl
  rw [written, readDisposition_quoted (by decide) (by decide), readQuoted_escapeQuotes]
  simp only [Option.bind_some, readParameters_quoted (by decide : isToken (str "filename") = true),
    readQuoted_escapeQuotes, last, Option.map_some]
  rfl

theorem heads_header : Heads f.part.disposition f.header :=
  heads_lines (by decide) (by decide) f.readDisposition_disposition

end FormFile

/-- The bytes of a body are its parts between delimiters. -/
theorem writeMultipart_eq (boundary : Bytes) (files : List FormFile) :
    ∃ lead, (lead = [] ∨ lead = lineEnd) ∧ writeMultipart boundary files =
      lead ++ (str "--" ++ boundary ++ writeParts boundary (files.map fun f => (f.header, f.part))) := by
  have line : crlf = lineEnd := rfl
  have bytes : ∀ (f : FormFile) (first : Bool), f.bytes boundary first =
      (if first then [] else lineEnd) ++
        (str "--" ++ boundary ++ (lineEnd ++ (f.header ++ f.content))) := by
    intro f first
    simp [FormFile.bytes, FormFile.header, line]
  have later : ∀ files : List FormFile,
      files.flatMap (·.bytes boundary false) ++ crlf ++ str "--" ++ boundary ++ str "--" ++ crlf =
        delimiter boundary ++ writeParts boundary (files.map fun f => (f.header, f.part)) := by
    intro files
    induction files with
    | nil => simp [writeParts, delimiter, line]
    | cons f files ih =>
        simp only [List.append_assoc] at ih
        simp only [List.flatMap_cons, List.map_cons, writeParts, List.append_assoc, ih,
          bytes f false]
        simp [delimiter, FormFile.part]
  cases files with
  | nil => exact ⟨lineEnd, .inr rfl, by simp [writeMultipart, writeParts, line]⟩
  | cons f files =>
      have rest := later files
      simp only [List.append_assoc] at rest
      refine ⟨[], .inl rfl, ?_⟩
      simp only [writeMultipart, List.map_cons, writeParts, List.append_assoc, rest, bytes f true]
      simp [FormFile.part]

section Upload
variable (h : Handler) (r : Request)

/-- The body of an upload is read as the files it was written from. -/
theorem formFiles_uploadRequest (name endpoint boundary : Bytes) {files : List FormFile}
    (delimits : Delimits boundary (files.map (·.content))) :
    (h.uploadRequest r name endpoint boundary files).formFiles =
      some (files.map fun f => (f.fileName, f.content)) := by
  obtain ⟨lead, hlead, written⟩ := writeMultipart_eq boundary files
  have heads : ∀ p ∈ files.map fun f => (f.header, f.part), Heads p.2.disposition p.1 := by
    intro p hp
    obtain ⟨f, -, rfl⟩ := List.mem_map.mp hp
    exact f.heads_header
  have contents : (files.map fun f => (f.header, f.part)).map (·.2.content) =
      files.map (·.content) := by
    rw [List.map_map]
    rfl
  have read := readMultipart_writeParts hlead heads (contents ▸ delimits)
  rw [← written] at read
  have found : ∀ f : FormFile, fileOf f.part = (f.fileName, f.content) := by
    intro f
    have other : str "name" ≠ str "filename" := by decide
    simp [fileOf, FormFile.part, other]
  simp only [GatewayRequest.formFiles, Handler.uploadRequest, Option.bind_eq_bind, Option.bind_some,
    List.dropPrefix?_append_of_beq _ (beq_self_eq_true _), read, List.map_map]
  exact congrArg some (List.map_congr_left fun f _ => found f)

theorem requestsOf_silent {t : Trace} (ht : Silent t) : requestsOf t = [] := by
  refine filterMap_silent ?_ ht
  intro e he
  split
  · cases he
  · rfl

theorem requestsOf_setsIssued {t : Trace} {name : Bytes} {req : GatewayRequest}
    {rsp : GatewayResponse} (ht : ∀ e ∈ t, h.SetsIssued name req rsp e) : requestsOf t = [] := by
  refine List.filterMap_eq_nil_iff.mpr ?_
  intro e he
  have sets := ht e he
  split
  · cases sets
  · rfl

theorem requestsOf_append (t t' : Trace) : requestsOf (t ++ t') = requestsOf t ++ requestsOf t' :=
  List.filterMap_append

/-- The request that a run asks is the only one. -/
theorem Ledger.requests {sends : Bytes → GatewayRequest → Prop} {t : Trace}
    (ledger : Ledger h sends t) {name : Bytes} {req : GatewayRequest}
    {reply : Except Bytes GatewayResponse} (he : asked name req reply ∈ t) :
    requestsOf t = [req] := by
  have single : ∃ req', requestsOf t = [req'] := by
    cases ledger with
    | idle ht => cases ht _ he
    | @refused pre post name' req' reply' hpre sent hreply hpost =>
        refine ⟨req', ?_⟩
        rw [requestsOf_append, requestsOf_silent hpre]
        exact congrArg (req' :: ·) (requestsOf_silent hpost)
    | @accepted pre mid post name' req' rsp hpre sent status hmid hpost =>
        refine ⟨req', ?_⟩
        rw [requestsOf_append, requestsOf_append, requestsOf_silent hpre]
        have last := congrArg (req' :: ·) (congrArg₂ (· ++ ·) (requestsOf_setsIssued h hmid)
          (requestsOf_silent hpost))
        exact last
  obtain ⟨req', only⟩ := single
  have mem : req ∈ requestsOf t := List.mem_filterMap.mpr ⟨_, he, rfl⟩
  rw [only] at mem ⊢
  rw [List.mem_singleton.mp mem]

theorem processRequest_asks (req : GatewayRequest) (name : Bytes) :
    (h.processRequest req name).Ensures fun es _ => ∃ reply, asked name req reply ∈ es := by
  rw [Handler.processRequest, Program.ensures_bind, ensures_doRequest]
  intro reply
  rw [Program.ensures_iff_runs]
  intro es _ _
  exact ⟨reply, List.mem_cons_self⟩

theorem upload_sends {files : List (Bytes × Bytes)} (rebuilds : h.Rebuilds r files) :
    (h.uploadHandler r).Ensures fun t _ => ∃ name boundary reply, drawn boundary ∈ t ∧
      asked name (h.uploadRequest r name (str "upload") boundary
        (files.map fun f => ⟨f.1, f.1, f.2⟩)) reply ∈ t := by
  obtain ⟨⟨sp, hsp⟩, possible, stream, hm, whole, rfl⟩ := rebuilds
  rw [Handler.uploadHandler, hsp]
  refine (Program.ensures_bind _ _ _).mpr ?_
  rw [ensures_makeMultipartRequest, hm]
  intro boundary
  rw [copyParts_files whole, possible]
  let req := h.uploadRequest r sp.storageName (str "upload") boundary
    (stream.files.map fun f => ⟨f.1, f.1, f.2⟩)
  refine (processRequest_asks h req sp.storageName).mono ?_
  intro es a he
  obtain ⟨reply, he⟩ := he
  rw [Program.ensures_iff_runs]
  intro es' _ _
  exact ⟨sp.storageName, boundary, reply, List.mem_append_left _ List.mem_cons_self,
    List.mem_append_left _ (List.mem_cons_of_mem _ he)⟩

theorem upload_refuses (broken : ∀ files, ¬h.Rebuilds r files) :
    (h.uploadHandler r).Ensures fun t _ =>
      requestsOf t = [] ∧ ∃ code description, JsonError h.lib code description t := by
  have refused : ∀ {pre : Trace}, Prepared pre → ∀ err handler,
      (h.error err handler).Ensures fun es _ =>
        requestsOf (pre ++ es) = [] ∧
          ∃ code description, JsonError h.lib code description (pre ++ es) := by
    intro pre hpre err handler
    rw [ensures_error]
    have silent := (silent_append _ _).mpr
      ⟨silent_prepared hpre, silent_errorEvents h.lib err handler⟩
    exact ⟨requestsOf_silent silent, _, _,
      jsonError_unseen h.lib (unseen_prepared hpre) err handler⟩
  rw [Handler.uploadHandler]
  cases hp : requestParameters r with
  | error err => exact refused (.inl rfl) _ _
  | ok sp =>
      refine (Program.ensures_bind _ _ _).mpr ?_
      rw [ensures_makeMultipartRequest]
      cases hm : r.multipart with
      | error err => exact refused (.inl rfl) _ _
      | ok stream =>
          intro boundary
          by_cases fails : stream.Fails
          · obtain ⟨err, failed⟩ := copyParts_fails fails
            rw [failed]
            exact refused (.inr ⟨boundary, rfl⟩) _ _
          · rw [copyParts_files fails]
            cases possible : h.lib.newRequestErr (h.makeURL (str "upload")) with
            | some err => exact refused (.inr ⟨boundary, rfl⟩) _ _
            | none =>
                exact absurd ⟨⟨sp, hp⟩, possible, stream, hm, fails, rfl⟩ (broken stream.files)

/-- An upload is sent with the files of the form, or answered with an error and
not sent at all. -/
theorem upload_rebuilt :
    (h.uploadHandler r).Ensures fun t _ =>
      (∀ files, h.Rebuilds r files →
        (∀ boundary, drawn boundary ∈ t → Delimits boundary (files.map (·.2))) →
          ∃ req, requestsOf t = [req] ∧ req.formFiles = some files) ∧
      ((∀ files, ¬h.Rebuilds r files) →
        requestsOf t = [] ∧ ∃ code description, JsonError h.lib code description t) := by
  by_cases rebuilt : ∃ files, h.Rebuilds r files
  · obtain ⟨files, rebuilds⟩ := rebuilt
    refine ((upload_sends h r rebuilds).and (run_ledger h r .uploadHandler)).mono ?_
    intro t _ run
    obtain ⟨⟨name, boundary, reply, drew, he⟩, ledger⟩ := run
    refine ⟨?_, fun broken => absurd rebuilds (broken files)⟩
    intro files' rebuilds' delimited
    have same : files' = files := by
      obtain ⟨-, -, stream, hm, -, rfl⟩ := rebuilds
      obtain ⟨-, -, stream', hm', -, rfl⟩ := rebuilds'
      rw [hm] at hm'
      cases hm'
      rfl
    rw [same] at delimited ⊢
    refine ⟨_, ledger.requests h he, ?_⟩
    rw [formFiles_uploadRequest h r name _ boundary, List.map_map]
    · simp [Function.comp_def]
    · simpa [List.map_map, Function.comp_def] using delimited boundary drew
  · have broken := not_exists.mp rebuilt
    refine (upload_refuses h r broken).mono ?_
    intro t _ refused
    exact ⟨fun files rebuilds => absurd rebuilds (broken files), fun _ => refused⟩

end Upload
end FileSharing
