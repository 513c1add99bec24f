import FileSharing.Effects.Machine
import FileSharing.Web.Posting

/-!
The box of view.html in which a text is shared: what its script shows and posts, and
what the gateway is asked for it.
-/

namespace FileSharing
open Net Effects

/-- What the script shows and hides: the box, and the three marks of an error. -/
structure TextSharingBox where
  isShown : Bool
  errorLabel : Bool
  titleGroup : Bool
  bodyGroup : Bool
deriving DecidableEq

namespace TextSharingBox

/-- The box of a page that was loaded. -/
def loaded : TextSharingBox := ⟨false, false, false, false⟩

def showError (isError : Bool) (box : TextSharingBox) : TextSharingBox :=
  { box with errorLabel := isError, titleGroup := isError, bodyGroup := isError }

/-- The handler of showTextSharingBoxBtn. -/
def onShow (box : TextSharingBox) : TextSharingBox := { box with isShown := true }

def onCloseTextSharingBox (box : TextSharingBox) : TextSharingBox :=
  { box with isShown := false }.showError false

/-- The handler of okBtn: what it posts, if it does. -/
def onOk (title body : Bytes) (box : TextSharingBox) : TextSharingBox × Option Values :=
  if title = [] ∨ body = [] then (box.showError true, none)
  else (box, some [(str "title", title), (str "body", body)])

/-- The success of a post, up to the reload. -/
def onSuccess (box : TextSharingBox) : TextSharingBox :=
  { box with isShown := false }.showError false

/-- The marks are shown together. -/
def Agrees (box : TextSharingBox) : Prop :=
  box.titleGroup = box.errorLabel ∧ box.bodyGroup = box.errorLabel

end TextSharingBox

/-- What is seen of the box: a post, and its answer with what passed between the
service and the gateway. -/
inductive BoxNote where
  | posted (form : Values)
  | answered (form : Values) (succeeded : Bool)
      (exchanges : List (Bytes × GatewayRequest × Except Bytes GatewayResponse))

/-- A page with its box, and the posts that were not answered. -/
structure BoxPage where
  box : TextSharingBox
  pending : Multiset Values

inductive BoxPage.Step (h : Handler) (deployed : Bool) (page : Target) :
    BoxPage → Option BoxNote → BoxPage → Prop where
  | shows {s : BoxPage} : Step h deployed page s none { s with box := s.box.onShow }
  | closes {s : BoxPage} : Step h deployed page s none { s with box := s.box.onCloseTextSharingBox }
  | refuses {s : BoxPage} {title body : Bytes} (none : (s.box.onOk title body).2 = none) :
      Step h deployed page s Option.none { s with box := (s.box.onOk title body).1 }
  | posts {s : BoxPage} {title body : Bytes} {form : Values}
      (some : (s.box.onOk title body).2 = some form) :
      Step h deployed page s (Option.some (.posted form))
        { box := (s.box.onOk title body).1, pending := form ::ₘ s.pending }
  | answered {box : TextSharingBox} {pending : Multiset Values} {form : Values} {request : Incoming}
      {cookies : List (Bytes × Bytes)} {t : Trace} {status : Nat}
      (read : visit (str "POST") (follow page shareTextURL) = some request)
      (run : (serveHTTP h deployed { request with cookies, form }).Runs t ())
      (sent : (response t).status = some status) :
      Step h deployed page { box, pending := form ::ₘ pending }
        (some (.answered form (ajaxSucceeds status) (t.filterMap exchangeOf)))
        { box := if ajaxSucceeds status then box.onSuccess else box, pending }
  | reloads {s : BoxPage} : Step h deployed page s none { box := .loaded, pending := 0 }

def boxMachine (h : Handler) (deployed : Bool) (page : Target) : Machine BoxPage BoxNote where
  init := { box := .loaded, pending := 0 }
  Step := BoxPage.Step h deployed page

/-- The gateway is asked to share what the form says. -/
structure Shares (h : Handler) (sp : StorageParameters) (form : Values) (req : GatewayRequest) :
    Prop where
  method : req.method = str "POST"
  url : req.url = h.makeURL (str "shareText")
  carries : Carries sp [str "title", str "body"] form req.fields

/-- A form with both fields is brought to the gateway once, and the script is told of a
success exactly if it was accepted. -/
theorem shareText_asksOnce {h : Handler} {r : Request} {sp : StorageParameters}
    (possible : h.lib.newRequestErr (h.makeURL (str "shareText")) = none)
    (hsp : requestParameters r = .ok sp) (titled : r.formValue (str "title") ≠ [])
    (bodied : r.formValue (str "body") ≠ []) :
    (h.shareTextHandler r).Ensures fun t _ =>
      AsksOnce sp.storageName (Shares h sp r.form) t := by
  let values := (sp.values.add (str "title") (r.formValue (str "title"))).add (str "body")
    (r.formValue (str "body"))
  have shares : Shares h sp r.form (h.postRequest r sp.storageName (str "shareText") values) := by
    have sent : h.sends r .shareTextHandler sp.storageName
        (h.postRequest r sp.storageName (str "shareText") values) :=
      ⟨titled, bodied, sp, hsp, rfl, rfl⟩
    exact ⟨rfl, rfl, (sends_carries h r rfl hsp sent).2⟩
  have filled : ¬(r.formValue (str "title") = [] ∨ r.formValue (str "body") = []) :=
    not_or.mpr ⟨titled, bodied⟩
  simp only [Handler.shareTextHandler, if_neg filled, hsp]
  refine (asksOnce_post h r sp.storageName (str "shareText") values _ possible).mono ?_
  rintro t _ ⟨_, reply, once, rfl, told⟩
  exact ⟨_, reply, once, shares, told⟩

def BoxNote.posted? : BoxNote → Option Values
  | .posted form => some form
  | .answered _ _ _ => none

def BoxNote.answered? : BoxNote → Option Values
  | .posted _ => none
  | .answered form _ _ => some form

/-- What the notes of a run and the page come to. -/
structure BoxPage.Honest (h : Handler) (sp : StorageParameters) (notes : List BoxNote)
    (s : BoxPage) : Prop where
  marks : s.box.Agrees
  posted : ∀ form, .posted form ∈ notes →
    ∃ title body, title ≠ [] ∧ body ≠ [] ∧ form = [(str "title", title), (str "body", body)]
  accounted : seen BoxNote.answered? notes + s.pending ≤ seen BoxNote.posted? notes
  answered : ∀ form succeeded exchanges, .answered form succeeded exchanges ∈ notes →
    ∃ req reply, exchanges = [(sp.storageName, req, reply)] ∧ Shares h sp form req ∧
      (succeeded = true ↔ Accepted reply)

theorem onOk_agrees (title body : Bytes) {box : TextSharingBox} (agrees : box.Agrees) :
    (box.onOk title body).1.Agrees := by
  rw [TextSharingBox.onOk]
  split
  · exact ⟨rfl, rfl⟩
  · exact agrees

theorem onOk_posts {title body : Bytes} {box : TextSharingBox} {form : Values}
    (posts : (box.onOk title body).2 = some form) :
    title ≠ [] ∧ body ≠ [] ∧ form = [(str "title", title), (str "body", body)] := by
  rw [TextSharingBox.onOk] at posts
  split at posts
  · cases posts
  · rename_i filled
    obtain ⟨titled, bodied⟩ := not_or.mp filled
    exact ⟨titled, bodied, (Option.some_inj.mp posts).symm⟩

theorem mem_posted {notes : List BoxNote} {form : Values}
    (member : form ∈ seen BoxNote.posted? notes) : .posted form ∈ notes := by
  obtain ⟨note, hnote, shows⟩ := List.mem_filterMap.mp (Multiset.mem_coe.mp member)
  cases note with
  | posted form' =>
      cases shows
      exact hnote
  | answered form' succeeded exchanges => cases shows

section Run
variable {h : Handler} {deployed : Bool} {storage : Bytes} {isPermanent : Bool} {page : Target}
  (seg : IsSegment storage) (free : isPermanent = true ∨ storage ≠ str "login")
  (possible : h.lib.newRequestErr (h.makeURL (str "shareText")) = none)
  (hpath : page.path = escapePath (pathOf (area storage isPermanent) true))
include seg free possible hpath

/-- What a post comes to in the service. -/
theorem posted_exchanged {title body : Bytes} (titled : title ≠ []) (bodied : body ≠ [])
    {request : Incoming} (read : visit (str "POST") (follow page shareTextURL) = some request)
    (cookies : List (Bytes × Bytes)) {t : Trace} {status : Nat} {form : Values}
    (filled : form = [(str "title", title), (str "body", body)])
    (run : (serveHTTP h deployed { request with cookies, form }).Runs t ())
    (sent : (response t).status = some status) :
    ∃ req reply, t.filterMap exchangeOf = [(storage, req, reply)] ∧
      Shares h ⟨storage, false, isPermanent, []⟩ form req ∧
        (ajaxSucceeds status = true ↔ Accepted reply) := by
  have shared : operation (str "shareText") = some .shareTextHandler := by decide
  have reached : dispatch deployed { request with cookies, form } =
      .endpoint (.handler .shareTextHandler) (.ok ⟨storage, false, isPermanent, []⟩) :=
    visit_operation shared seg free hpath read cookies form
  obtain ⟨r, hr, hsp, runs⟩ := serveHTTP_handler h reached
  have hform : r.form = form := congrArg Incoming.form hr
  have first : r.formValue (str "title") = title := by
    rw [Request.formValue, hform, filled]
    simp [Values.get]
  have second : r.formValue (str "body") = body := by
    rw [Request.formValue, hform, filled]
    simp +decide [Values.get]
  have all := (runs _).mpr
    (shareText_asksOnce possible hsp (first ▸ titled) (second ▸ bodied))
  obtain ⟨req, reply, once, shares, status', sent', told⟩ :=
    (Program.ensures_iff_runs _ _).mp all t () run
  obtain rfl := Option.some_inj.mp (sent'.symm.trans sent)
  exact ⟨req, reply, once, hform ▸ shares, told⟩

theorem BoxPage.Step.honest {notes : List BoxNote} {s s' : BoxPage} {note : Option BoxNote}
    (honest : s.Honest h ⟨storage, false, isPermanent, []⟩ notes)
    (step : BoxPage.Step h deployed page s note s') :
    s'.Honest h ⟨storage, false, isPermanent, []⟩ (notes ++ note.toList) := by
  obtain ⟨marks, posted, accounted, answered⟩ := honest
  cases step with
  | shows =>
      rw [Option.toList_none, List.append_nil]
      exact ⟨marks, posted, accounted, answered⟩
  | closes =>
      rw [Option.toList_none, List.append_nil]
      exact ⟨⟨rfl, rfl⟩, posted, accounted, answered⟩
  | @refuses _ title body none =>
      rw [Option.toList_none, List.append_nil]
      exact ⟨onOk_agrees title body marks, posted, accounted, answered⟩
  | @posts _ title body form some =>
      rw [Option.toList_some]
      refine ⟨onOk_agrees title body marks, ?_, ?_, ?_⟩
      · intro form' member
        cases List.mem_append.mp member with
        | inl before => exact posted form' before
        | inr now =>
            cases List.mem_singleton.mp now
            exact ⟨title, body, onOk_posts some⟩
      · rw [seen_concat, seen_concat]
        simp only [BoxNote.answered?, BoxNote.posted?, Option.elim_none, Option.elim_some,
          Multiset.add_cons]
        exact (Multiset.cons_le_cons_iff form).mpr accounted
      · intro form' succeeded exchanges member
        cases List.mem_append.mp member with
        | inl before => exact answered form' succeeded exchanges before
        | inr now => cases List.mem_singleton.mp now
  | @answered box pending form request cookies t status read run sent =>
      rw [Option.toList_some]
      have member : form ∈ seen BoxNote.posted? notes :=
        Multiset.mem_of_le accounted
          (Multiset.mem_add.mpr (.inr (Multiset.mem_cons_self form pending)))
      obtain ⟨title, body, titled, bodied, filled⟩ := posted form (mem_posted member)
      refine ⟨?_, ?_, ?_, ?_⟩
      · simp only
        split
        · exact ⟨rfl, rfl⟩
        · exact marks
      · intro form' member
        cases List.mem_append.mp member with
        | inl before => exact posted form' before
        | inr now => cases List.mem_singleton.mp now
      · rw [seen_concat, seen_concat]
        simpa [BoxNote.answered?, BoxNote.posted?, Multiset.add_cons, Multiset.cons_add]
          using accounted
      · intro form' succeeded exchanges member
        cases List.mem_append.mp member with
        | inl before => exact answered form' succeeded exchanges before
        | inr now =>
            cases List.mem_singleton.mp now
            exact posted_exchanged seg free possible hpath titled bodied read cookies filled run
              sent
  | reloads =>
      rw [Option.toList_none, List.append_nil]
      refine ⟨⟨rfl, rfl⟩, posted, ?_, answered⟩
      rw [Multiset.add_zero]
      exact (Multiset.le_add_right _ _).trans accounted

/-- In every run of the box, whatever is typed, clicked and answered in between, only
texts with a title and a body are posted; each post is answered at most once, after the
gateway was asked once to share that text in the storage and the area of the page, and
a success is told exactly if the gateway accepted it. -/
theorem texts_shared {notes : List BoxNote} {s : BoxPage}
    (run : (boxMachine h deployed page).Run notes s) :
    s.Honest h ⟨storage, false, isPermanent, []⟩ notes := by
  refine run.invariant
    (P := fun notes s => s.Honest h ⟨storage, false, isPermanent, []⟩ notes) ?_ ?_
  · exact ⟨⟨rfl, rfl⟩, fun _ none => (List.not_mem_nil none).elim, le_refl _,
      fun _ _ _ none => (List.not_mem_nil none).elim⟩
  · exact fun honest step => step.honest seg free possible hpath honest

end Run

/-- A text is typed and posted. -/
theorem texts_shared_posted :
    let form := [(str "title", str "t"), (str "body", str "b")]
    BoxPage.Honest .plain ⟨str "a", false, false, []⟩ [.posted form] ⟨.loaded, {form}⟩ := by
  intro form
  have posts : (TextSharingBox.loaded.onOk (str "t") (str "b")).2 = some form := rfl
  have run := Machine.Run.step (m := boxMachine .plain true ⟨none, none, str "/a/", none⟩) .init
    (.posts posts)
  exact texts_shared (by decide) (.inr (by decide)) rfl (by decide) run

end FileSharing
