import FileSharing.Net.Disposition
import FileSharing.Web.Relay
import FileSharing.Web.Decision

/-!
The name a browser saves a download under. GetFileHandler puts the file name
between quotes as it is, so the name survives when no byte of it means anything
there.
-/

namespace FileSharing
open Net Effects

def dispositionOf : Event world → Option Bytes
  | ⟨.tell (.setHeader name value), _⟩ =>
    if name = str "Content-Disposition" then some value else none
  | _ => none

/-- The response is an attachment of this name and says nothing else of it. -/
def Names (t : Trace) (fileName : Bytes) : Prop :=
  ∃ value, t.filterMap dispositionOf = [value] ∧
    parseDisposition value = some ⟨str "attachment", [(str "filename", fileName)]⟩

/-- A run in which the gateway handed out the file. -/
def Delivered (t : Trace) : Prop :=
  ∃ storage req rsp, asked storage req (.ok rsp) ∈ t ∧ rsp.statusCode = 200

theorem not_delivered_silent {t : Trace} (ht : Silent t) : ¬Delivered t := by
  intro delivered
  obtain ⟨storage, req, rsp, he, -⟩ := delivered
  cases ht _ he

/-- The only reply of a run was none that could be used. -/
theorem not_delivered_refused {pre post : Trace} (hpre : Silent pre) {name : Bytes}
    {req : GatewayRequest} {reply : Except Bytes GatewayResponse} (hreply : ¬Accepted reply)
    (hpost : Silent post) : ¬Delivered (pre ++ asked name req reply :: post) := by
  intro delivered
  obtain ⟨storage, req', rsp, he, status⟩ := delivered
  have ledger : Ledger .plain (fun _ _ => True) (pre ++ asked name req reply :: post) :=
    .refused hpre trivial hreply hpost
  have same := ledger.sole he (List.mem_append_right _ List.mem_cons_self)
  exact hreply ⟨rsp, same.symm, status⟩

def attachment (fileName : Bytes) : Bytes :=
  str "attachment; filename=\"" ++ fileName ++ str "\""

theorem parse_attachment (fileName : Bytes) :
    parseDisposition (attachment fileName) =
        some ⟨str "attachment", [(str "filename", fileName)]⟩ ↔
      fileName.all Quoting.http.text = true := by
  have opening : str "attachment; filename=\"" =
      str "attachment" ++ semicolon :: space :: (str "filename" ++ [equals, quote]) := by decide
  have closing : str "\"" = [quote] := by decide
  have written : attachment fileName = str "attachment" ++
      semicolon :: space :: (str "filename" ++ equals :: quote :: (fileName ++ [quote])) := by
    rw [attachment, opening, closing]
    simp
  rw [written]
  exact parseDisposition_quoted (by decide) (by decide) fileName

section Download
variable (h : Handler) (r : Request)

theorem dispositions_copyEvents (body : Body) : (copyEvents body).filterMap dispositionOf = [] := by
  rw [copyEvents]
  split <;> rfl

theorem dispositions_errorEvents (lib : Stdlib) (err : HttpError) (handler : Bytes) :
    (errorEvents lib err handler).filterMap dispositionOf = [] := by
  have other : str "Content-Type" ≠ str "Content-Disposition" := by decide
  simp [errorEvents, dispositionOf, told, other]

/-- What is written to the response when the file has arrived. -/
theorem copies_disposition (fileName : Bytes) (rsp : GatewayResponse) :
    (deferClose rsp do
      tell (.setHeader (str "Content-Disposition") (attachment fileName))
      match ← ioCopy rsp.body with
      | some err =>
        h.error ((HttpError.newInternalError (str "failed to transfer bytes")).withError err)
          (str "GetFileHandler")
      | none => pure ()).Ensures fun t _ => t.filterMap dispositionOf = [attachment fileName] := by
  have set : dispositionOf (told (.setHeader (str "Content-Disposition") (attachment fileName))) =
      some (attachment fileName) := by
    simp [dispositionOf, told]
  have close : dispositionOf (told (.closeBody rsp.body.id)) = none := rfl
  cases he : rsp.body.err <;>
    simp [he, set, close, dispositions_copyEvents, dispositions_errorEvents]

theorem getFileHandler_disposition {sp : StorageParameters} (hsp : requestParameters r = .ok sp) :
    (h.getFileHandler r).Ensures fun t _ => Delivered t →
      t.filterMap dispositionOf = [attachment sp.fileName] := by
  rw [Handler.getFileHandler, hsp]
  refine (Program.ensures_bind _ _ _).mpr ((makeGetRequest_exchanged h r _ _ _).mono ?_)
  intro es a ex
  cases ex with
  | unsent err hpre =>
      rw [ensures_error]
      have silent := (silent_append _ _).mpr
        ⟨silent_prepared hpre, silent_errorEvents h.lib err (str "GetFileHandler")⟩
      exact fun delivered => absurd delivered (not_delivered_silent silent)
  | @refused pre req reply hpre hreq hreply =>
      rw [ensures_error, List.append_assoc]
      exact fun delivered => absurd delivered
        (not_delivered_refused (silent_prepared hpre) hreply (silent_errorEvents _ _ _))
  | @accepted pre cookies req rsp hpre hreq status hcookies =>
      refine (copies_disposition h sp.fileName rsp).mono ?_
      intro t _ set _
      have request : dispositionOf (asked sp.storageName req (.ok rsp)) = none := rfl
      have before : pre.filterMap dispositionOf = [] := filterMap_prepared (fun _ => rfl) hpre
      have cookie : cookies.filterMap dispositionOf = [] :=
        filterMap_refreshed (fun _ => rfl) (fun _ => rfl) hcookies
      rw [List.filterMap_append, List.filterMap_append, before, List.filterMap_cons_none request,
        cookie, set]
      rfl

end Download

/-- The name survives exactly when it has no quote, no backslash and no control
byte but the tab. -/
theorem download_named_iff (h : Handler) {deployed : Bool} {request : Incoming}
    {sp : StorageParameters}
    (reached : dispatch deployed request = .endpoint (.handler .getFileHandler) (.ok sp)) :
    (serveHTTP h deployed request).Ensures fun t _ => Delivered t →
      (Names t sp.fileName ↔ sp.fileName.all Quoting.http.text = true) := by
  obtain ⟨r, -, hsp, run⟩ := serveHTTP_handler h reached
  refine (run _).mpr ((getFileHandler_disposition h r hsp).mono ?_)
  intro t _ set delivered
  rw [← parse_attachment, Names, set delivered]
  constructor
  · intro named
    obtain ⟨value, same, parsed⟩ := named
    rwa [← (List.cons.inj same).1] at parsed
  · intro parsed
    exact ⟨_, rfl, parsed⟩

/-- The download of `a` from the permanent area of `b`. -/
theorem download_named_iff_permanent :
    let request : Incoming :=
      { method := str "GET", url := ⟨pathOf [str "b", str "permanent", str "a"] true, []⟩
        cookies := [], form := [], multipart := .error [] }
    (serveHTTP .plain false request).Ensures fun t _ => Delivered t → Names t (str "a") := by
  intro request
  have reached : dispatch false request = .endpoint (.handler .getFileHandler)
      (.ok ⟨str "b", false, true, str "a"⟩) :=
    @dispatch_expected request [str "b", str "permanent", str "a"] (by decide) true rfl
  have text : (str "a").all Quoting.http.text = true := by decide
  have named := @download_named_iff .plain false request ⟨str "b", false, true, str "a"⟩ reached
  exact named.mono fun t _ same delivered => (same delivered).mpr text

/-- A file whose name ends its own quotes is saved under two names. -/
theorem download_renamed :
    ¬∀ (request : Incoming) (sp : StorageParameters),
      dispatch false request = .endpoint (.handler .getFileHandler) (.ok sp) →
        (serveHTTP .plain false request).Ensures fun t _ => Delivered t → Names t sp.fileName := by
  intro named
  let name := str "a\"; filename=\"b"
  let request : Incoming :=
    { method := str "GET", url := ⟨pathOf [str "c", str "permanent", name] true, []⟩
      cookies := [], form := [], multipart := .error [] }
  have reached : dispatch false request = .endpoint (.handler .getFileHandler)
      (.ok ⟨str "c", false, true, name⟩) :=
    @dispatch_expected request [str "c", str "permanent", name] (by decide) true rfl
  obtain ⟨r, -, hsp, run⟩ := serveHTTP_handler .plain reached
  have both := (getFileHandler_disposition .plain r hsp).and ((run _).mp (named request _ reached))
  simp only [Handler.getFileHandler, hsp] at both
  obtain ⟨set, names⟩ := both (.ok ⟨200, [], ⟨0, [], none⟩⟩) () ()
  obtain ⟨value, same, parsed⟩ := names ⟨_, _, _, List.mem_cons_self, rfl⟩
  rw [set ⟨_, _, _, List.mem_cons_self, rfl⟩] at same
  rw [← (List.cons.inj same).1, parse_attachment] at parsed
  exact absurd parsed (by decide)

end FileSharing
