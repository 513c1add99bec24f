import FileSharing.Web.Isolation
import FileSharing.Web.Parameters

/-!
Where an upload is addressed to. The gateway sees the storage and the area of
every other request in the fields it decodes; an upload carries the parts of the
form only.
-/

namespace FileSharing
open Net Effects

/-- What a request is addressed to. -/
def StorageParameters.destination (sp : StorageParameters) : Bytes × Bool :=
  (sp.storageName, sp.isPermanent)

/-- Everything the gateway is asked in a run shows where the request belongs. -/
def Shows (h : Handler) (deployed : Bool) (request : Incoming) (recover : GatewayRequest → Bytes × Bool)
    (sp : StorageParameters) : Prop :=
  (serveHTTP h deployed request).Ensures fun t _ => ∀ name req reply,
    asked name req reply ∈ t → recover req = sp.destination

/-- The destination as the fields of a request give it. -/
def recoverFields (req : GatewayRequest) : Bytes × Bool :=
  (req.fields.get (str "storage"), decide (req.fields.all (str "permanent") = [str "true"]))

/-- The requests built from the parameters alone, and with what the user adds to
them, all show their destination in one way. -/
theorem fields_show (h : Handler) {deployed : Bool} {request : Incoming} {handler : HandlerName}
    {keys : List Bytes} (hkeys : handler.userKeys = some keys) {sp : StorageParameters}
    (reached : dispatch deployed request = .endpoint (.handler handler) (.ok sp)) :
    Shows h deployed request recoverFields sp := by
  obtain ⟨r, -, hsp, run⟩ := serveHTTP_handler h reached
  refine (run _).mpr ((run_ledger h r handler).mono ?_)
  intro t _ ledger name req reply he
  have carries := (sends_carries h r hkeys hsp (ledger.sent he)).2
  have storage : req.fields.get (str "storage") = sp.storageName := by
    rw [Values.get, carries.storage]
    rfl
  have permanent : decide (req.fields.all (str "permanent") = [str "true"]) = sp.isPermanent := by
    rw [carries.isPermanent]
    cases sp.isPermanent <;> rfl
  rw [recoverFields, storage, permanent, StorageParameters.destination]

/-- Two uploads of the same form with the same cookies to different destinations,
one storage or two for which the browser holds no token. -/
structure UploadPair where
  deployed : Bool
  first : Incoming
  second : Incoming
  to₁ : StorageParameters
  to₂ : StorageParameters
  reached₁ : dispatch deployed first = .endpoint (.handler .uploadHandler) (.ok to₁)
  reached₂ : dispatch deployed second = .endpoint (.handler .uploadHandler) (.ok to₂)
  cookies : first.cookies = second.cookies
  multipart : first.multipart = second.multipart
  differ : to₁.destination ≠ to₂.destination
  unmarked : to₁.storageName = to₂.storageName ∨
    ∀ c ∈ first.cookies, c.1 ≠ to₁.storageName ∧ c.1 ≠ to₂.storageName

/-- The gateway can tell the two uploads apart. -/
def UploadPair.Recoverable (h : Handler) (pair : UploadPair) : Prop :=
  ∃ recover, Shows h pair.deployed pair.first recover pair.to₁ ∧
    Shows h pair.deployed pair.second recover pair.to₂

/-- The form cannot be rebuilt, or the gateway cannot be addressed. -/
def Unsent (h : Handler) (request : Incoming) : Prop :=
  h.lib.newRequestErr (h.makeURL (str "upload")) ≠ none ∨
    ∀ stream files, request.multipart = .ok stream → copyParts stream ≠ .ok files

section Upload
variable (h : Handler) {r : Request} {sp : StorageParameters}

theorem upload_unsent (unsent : Unsent h r.toIncoming) :
    (h.uploadHandler r).Ensures fun t _ => ∀ name req reply, asked name req reply ∉ t := by
  have loud : ∀ {t : Trace}, Silent t → ∀ name req reply, asked name req reply ∉ t := by
    intro t ht name req reply he
    cases ht _ he
  rw [Handler.uploadHandler]
  cases requestParameters r with
  | error err => exact (ensures_error h _ _ _).mpr (loud (silent_errorEvents _ _ _))
  | ok sp =>
      rw [Program.ensures_bind, ensures_makeMultipartRequest]
      cases hm : r.multipart with
      | error err => exact (ensures_error h _ _ _).mpr (loud (silent_errorEvents _ _ _))
      | ok stream =>
          intro boundary
          have failed : ∀ err, (h.error err (str "GetFileHandler")).Ensures fun es _ =>
              ∀ name req reply, asked name req reply ∉ drawn boundary :: es := by
            intro err
            exact (ensures_error h _ _ _).mpr (loud (by simp [drawn, quiet]))
          cases hc : copyParts stream with
          | error err => exact failed _
          | ok files =>
              cases possible : h.lib.newRequestErr (h.makeURL (str "upload")) with
              | some err => exact failed _
              | none =>
                  cases unsent with
                  | inl impossible => exact absurd possible impossible
                  | inr broken => exact absurd hc (broken stream files hm)

/-- Nothing but the parts and the token goes into an upload. -/
theorem upload_asks (hsp : requestParameters r = .ok sp)
    (possible : h.lib.newRequestErr (h.makeURL (str "upload")) = none) {stream : PartStream}
    {files : List FormFile} (hm : r.multipart = .ok stream) (hc : copyParts stream = .ok files)
    {Q : Trace → Unit → Prop} (all : (h.uploadHandler r).Ensures Q) :
    ∃ t, Q t () ∧ asked sp.storageName
      (h.uploadRequest r sp.storageName (str "upload") [] files) (.error []) ∈ t := by
  simp only [Handler.uploadHandler, hsp, Program.ensures_bind, ensures_makeMultipartRequest, hm] at all
  have run := all []
  simp only [hc, possible, ensures_processRequest] at run
  have failed := run (.error [])
  simp only [ensures_error] at failed
  exact ⟨_, failed, List.mem_append_left _ (List.mem_cons_of_mem _ (List.mem_singleton.mpr rfl))⟩

end Upload

/-- What the gateway is sent for either upload of a pair, boundary and outcome
aside. -/
theorem UploadPair.same_request (h : Handler) (pair : UploadPair) {r₁ r₂ : Request}
    (hr₁ : r₁.toIncoming = pair.first) (hr₂ : r₂.toIncoming = pair.second) (boundary : Bytes)
    (files : List FormFile) :
    h.uploadRequest r₁ pair.to₁.storageName (str "upload") boundary files =
      h.uploadRequest r₂ pair.to₂.storageName (str "upload") boundary files := by
  have cookies : r₁.cookies = r₂.cookies := by
    rw [hr₁, hr₂, pair.cookies]
  have token : Handler.sessionToken r₁ pair.to₁.storageName =
      Handler.sessionToken r₂ pair.to₂.storageName := by
    simp only [Handler.sessionToken, CookieSession.getToken, cookies]
    cases pair.unmarked with
    | inl same => rw [same]
    | inr unheld =>
        have none : ∀ {name : Bytes}, (∀ c ∈ r₂.cookies, c.1 ≠ name) →
            (r₂.cookies.find? fun c => c.1 = name) = none := by
          intro name other
          exact List.find?_eq_none.mpr fun c hc => by simpa using other c hc
        rw [hr₂, ← pair.cookies] at none
        rw [hr₂, ← pair.cookies, none fun c hc => (unheld c hc).1, none fun c hc => (unheld c hc).2]
        simp
  rw [Handler.uploadRequest, Handler.uploadRequest, Handler.authorization, Handler.authorization,
    token]

theorem UploadPair.not_recoverable {h : Handler} {pair : UploadPair} (sent : ¬Unsent h pair.first) :
    ¬pair.Recoverable h := by
  intro recoverable
  obtain ⟨recover, shows₁, shows₂⟩ := recoverable
  obtain ⟨possible, broken⟩ := not_or.mp sent
  push Not at possible broken
  obtain ⟨stream, files, hm, hc⟩ := broken
  obtain ⟨r₁, hr₁, hsp₁, run₁⟩ := serveHTTP_handler h pair.reached₁
  obtain ⟨r₂, hr₂, hsp₂, run₂⟩ := serveHTTP_handler h pair.reached₂
  obtain ⟨t₁, all₁, sent₁⟩ := upload_asks h hsp₁ possible (by rw [hr₁, hm]) hc ((run₁ _).mp shows₁)
  obtain ⟨t₂, all₂, sent₂⟩ := upload_asks h hsp₂ possible (by rw [hr₂, ← pair.multipart, hm]) hc
    ((run₂ _).mp shows₂)
  have first := all₁ _ _ _ sent₁
  rw [pair.same_request h hr₁ hr₂] at first
  exact pair.differ (first.symm.trans (all₂ _ _ _ sent₂))

/-- The gateway can tell two uploads apart only when it receives neither. -/
theorem recoverable_iff_unsent (h : Handler) (pair : UploadPair) :
    pair.Recoverable h ↔ Unsent h pair.first := by
  constructor
  · intro recoverable
    by_contra sent
    exact UploadPair.not_recoverable sent recoverable
  · intro unsent
    obtain ⟨r₁, hr₁, -, run₁⟩ := serveHTTP_handler h pair.reached₁
    obtain ⟨r₂, hr₂, -, run₂⟩ := serveHTTP_handler h pair.reached₂
    have unsent₂ : Unsent h pair.second := by
      simpa only [Unsent, pair.multipart] using unsent
    refine ⟨fun _ => ([], false), (run₁ _).mpr ?_, (run₂ _).mpr ?_⟩
    · exact (upload_unsent h (by rwa [hr₁])).mono fun t _ none name req reply he =>
        absurd he (none name req reply)
    · exact (upload_unsent h (by rwa [hr₂])).mono fun t _ none name req reply he =>
        absurd he (none name req reply)

/-- One file, uploaded to the storage `a` and to its permanent area. -/
def uploadPair : UploadPair :=
  let upload (segs : List Bytes) : Incoming :=
    { method := str "POST", url := ⟨pathOf segs true, []⟩, cookies := [], form := []
      multipart := .ok (.part ⟨str "f", str "x", none, none⟩ (.eof none)) }
  { deployed := false
    first := upload [str "a", str "upload"]
    second := upload [str "a", str "permanent", str "upload"]
    to₁ := ⟨str "a", false, false, []⟩
    to₂ := ⟨str "a", false, true, []⟩
    reached₁ := @dispatch_expected _ [str "a", str "upload"] (by decide) true rfl
    reached₂ :=
      @dispatch_expected _ [str "a", str "permanent", str "upload"] (by decide) true rfl
    cookies := rfl
    multipart := rfl
    differ := by decide
    unmarked := .inl rfl }

theorem uploads_indistinct : ¬uploadPair.Recoverable Handler.plain := by
  apply UploadPair.not_recoverable
  intro unsent
  cases unsent with
  | inl impossible => exact impossible rfl
  | inr broken => exact broken _ [⟨str "f", str "f", str "x"⟩] rfl rfl

end FileSharing
