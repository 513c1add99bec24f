import FileSharing.Effects.Machine
import FileSharing.Web.Listing
import FileSharing.Web.Posting

/-!
The table of view.html: the rows that its script takes away, and what the gateway was
asked before it does.
-/

namespace FileSharing
open Net Effects

/-- What is seen of the table: a listing that is shown, a post, and its answer with what
passed between the service and the gateway. -/
inductive TableNote where
  | listed (files : List FileInfo)
  | posted (removal : Removal) (form : Values)
  | answered (removal : Removal) (form : Values) (succeeded : Bool)
      (exchanges : List (Bytes × GatewayRequest × Except Bytes GatewayResponse))

/-- A page with the rows that are left of its listing, and the posts that were not
answered. -/
structure FileTable where
  files : List FileInfo
  rows : List Nat
  pending : Multiset (Removal × Values)

/-- The row of the index is taken away. What the selector finds for the name that
Dropzone hands over is left open. -/
inductive Removal.Takes : Removal → List Nat → List Nat → Prop where
  | row (index : Nat) (rows : List Nat) : Takes (.row index) rows (rows.filter (· ≠ index))
  | removedfile {rows rows' : List Nat} (fewer : rows'.Sublist rows) : Takes .removedfile rows rows'

inductive FileTable.Step (h : Handler) (deployed : Bool) (page : Target) :
    FileTable → Option TableNote → FileTable → Prop where
  | lists {s : FileTable} (files : List FileInfo) :
      Step h deployed page s (some (.listed files))
        { files, rows := List.range files.length, pending := 0 }
  | clicks {s : FileTable} {index : Nat} {f : FileInfo} {form : Values} (shown : index ∈ s.rows)
      (file : s.files[index]? = some f) (script : posted (onclick index f.name) = some form) :
      Step h deployed page s (some (.posted (.row index) form))
        { s with pending := (.row index, form) ::ₘ s.pending }
  | removesFile {s : FileTable} (fileName : Bytes) :
      Step h deployed page s (some (.posted .removedfile (Removal.removedfile.form fileName)))
        { s with pending := (.removedfile, Removal.removedfile.form fileName) ::ₘ s.pending }
  | answered {files : List FileInfo} {rows rows' : List Nat} {removal : Removal} {form : Values}
      {pending : Multiset (Removal × Values)} {request : Incoming} {cookies : List (Bytes × Bytes)}
      {t : Trace} {status : Nat} (read : visit (str "POST") (follow page removeURL) = some request)
      (run : (serveHTTP h deployed { request with cookies, form }).Runs t ())
      (sent : (response t).status = some status)
      (left : if ajaxSucceeds status then removal.Takes rows rows' else rows' = rows) :
      Step h deployed page { files, rows, pending := (removal, form) ::ₘ pending }
        (some (.answered removal form (ajaxSucceeds status) (t.filterMap exchangeOf)))
        { files, rows := rows', pending }

def tableMachine (h : Handler) (deployed : Bool) (page : Target) : Machine FileTable TableNote where
  init := { files := [], rows := [], pending := 0 }
  Step := FileTable.Step h deployed page

/-- The listing that was shown last, and the rows whose buttons were answered with a
success since. -/
def TableNote.follow : List FileInfo × List Nat → TableNote → List FileInfo × List Nat
  | _, .listed files => (files, [])
  | (files, removed), .answered (.row index) _ true _ => (files, index :: removed)
  | view, .answered .removedfile _ _ _ | view, .answered _ _ false _ | view, .posted _ _ => view

def viewOf (notes : List TableNote) : List FileInfo × List Nat :=
  notes.foldl TableNote.follow ([], [])

def TableNote.posted? : TableNote → Option (Removal × Values)
  | .posted removal form => some (removal, form)
  | .listed _ | .answered _ _ _ _ => none

def TableNote.answered? : TableNote → Option (Removal × Values)
  | .answered removal form _ _ => some (removal, form)
  | .listed _ | .posted _ _ => none

/-- A button of a row that is shown, or a link of Dropzone, has posted. -/
def Removal.Posts (view : List FileInfo × List Nat) (form : Values) : Removal → Prop
  | .row index => ∃ f, view.1[index]? = some f ∧ index ∉ view.2 ∧
      form = (Removal.row index).form (toValidUTF8 f.name)
  | .removedfile => ∃ fileName, form = Removal.removedfile.form fileName

/-- A post without a name is declined by the service. Any other is brought to the gateway
once, which is told the storage and the area but no file, and a success is told exactly
if it accepted. -/
def Outcome (h : Handler) (storage : Bytes) (isPermanent : Bool) (form : Values) (succeeded : Bool)
    (exchanges : List (Bytes × GatewayRequest × Except Bytes GatewayResponse)) : Prop :=
  if form.get (str "fileName") = [] then exchanges = [] ∧ succeeded = false
  else ∃ req reply, exchanges = [(storage, req, reply)] ∧ req.method = str "POST" ∧
    Removes h storage [] isPermanent req ∧ (succeeded = true ↔ Accepted reply)

/-- The table against what was seen of it: every file has its row, unless its button was
answered with a success. -/
structure FileTable.Shows (notes : List TableNote) (s : FileTable) : Prop where
  files : s.files = (viewOf notes).1
  rows : s.rows = (List.range s.files.length).filter fun index => index ∉ (viewOf notes).2
  accounted : seen TableNote.answered? notes + s.pending ≤ seen TableNote.posted? notes
  unnamed : ∀ form, (.removedfile, form) ∈ s.pending → form.get (str "fileName") = []

theorem viewOf_concat (notes : List TableNote) (note : TableNote) :
    viewOf (notes ++ [note]) = TableNote.follow (viewOf notes) note :=
  List.foldl_concat ..

/-- A post is seen, and waits for its answer. -/
theorem FileTable.Shows.post {notes : List TableNote} {s : FileTable} {removal : Removal}
    {form : Values} (shows : s.Shows notes)
    (unnamed : removal = .removedfile → form.get (str "fileName") = []) :
    FileTable.Shows (notes ++ [.posted removal form])
      { s with pending := (removal, form) ::ₘ s.pending } := by
  have view : viewOf (notes ++ [.posted removal form]) = viewOf notes := viewOf_concat _ _
  refine ⟨view ▸ shows.files, view ▸ shows.rows, ?_, ?_⟩
  · rw [seen_concat, seen_concat]
    simp only [TableNote.answered?, TableNote.posted?, Option.elim_none, Option.elim_some,
      Multiset.add_cons]
    exact (Multiset.cons_le_cons_iff _).mpr shows.accounted
  · intro form' member
    cases Multiset.mem_cons.mp member with
    | inl now =>
        cases now
        exact unnamed rfl
    | inr before => exact shows.unnamed form' before

/-- A post has its answer. -/
theorem FileTable.Shows.answer {notes : List TableNote} {files : List FileInfo}
    {rows rows' : List Nat} {removal : Removal} {form : Values}
    {pending : Multiset (Removal × Values)} {succeeded : Bool}
    {exchanges : List (Bytes × GatewayRequest × Except Bytes GatewayResponse)}
    (shows : FileTable.Shows notes ⟨files, rows, (removal, form) ::ₘ pending⟩)
    (declined : form.get (str "fileName") = [] → succeeded = false)
    (left : if succeeded then removal.Takes rows rows' else rows' = rows) :
    FileTable.Shows (notes ++ [.answered removal form succeeded exchanges])
      ⟨files, rows', pending⟩ := by
  obtain ⟨listing, shown, accounted, unnamed⟩ := shows
  have counted : seen TableNote.answered? (notes ++ [.answered removal form succeeded exchanges]) +
      pending ≤ seen TableNote.posted? (notes ++ [.answered removal form succeeded exchanges]) := by
    rw [seen_concat, seen_concat]
    simpa [TableNote.answered?, TableNote.posted?, Multiset.add_cons, Multiset.cons_add]
      using accounted
  have others : ∀ form', (.removedfile, form') ∈ pending → form'.get (str "fileName") = [] :=
    fun form' member => unnamed form' (Multiset.mem_cons_of_mem member)
  have view := viewOf_concat notes (.answered removal form succeeded exchanges)
  cases succeeded with
  | false =>
      have stays : TableNote.follow (viewOf notes) (.answered removal form false exchanges) =
          viewOf notes := by
        cases removal <;> rfl
      rw [stays] at view
      exact ⟨view ▸ listing, view ▸ left.trans shown, counted, others⟩
  | true =>
      cases left with
      | removedfile => cases declined (unnamed form (Multiset.mem_cons_self _ _))
      | row index =>
          have taken : TableNote.follow (viewOf notes) (.answered (.row index) form true exchanges) =
              ((viewOf notes).1, index :: (viewOf notes).2) := rfl
          rw [taken] at view
          have before : rows = (List.range files.length).filter fun i => i ∉ (viewOf notes).2 := shown
          have fewer : rows.filter (· ≠ index) =
              (List.range files.length).filter fun i => i ∉ index :: (viewOf notes).2 := by
            rw [before, List.filter_filter]
            refine List.filter_congr fun i _ => ?_
            simp
          exact ⟨view ▸ listing, view ▸ fewer, counted, others⟩

theorem removes_postRequest (h : Handler) (r : Request) (storage : Bytes) (isPermanent : Bool) :
    Removes h storage [] isPermanent
      (h.postRequest r storage (str "remove")
        (StorageParameters.values ⟨storage, false, isPermanent, []⟩)) := by
  constructor <;> try simp only [fields_postRequest, all_parseQuery_encode, all_values]
  · rfl
  · simp +decide
  · simp +decide
  · cases isPermanent <;> simp +decide

/-- A post of a name is brought to the gateway, and no other. -/
theorem removeHandler_outcome {h : Handler} {r : Request} {storage : Bytes} {isPermanent : Bool}
    (possible : h.lib.newRequestErr (h.makeURL (str "remove")) = none)
    (hsp : requestParameters r = .ok ⟨storage, false, isPermanent, []⟩) :
    (h.removeHandler r).Ensures fun t _ => ∀ status, (response t).status = some status →
      Outcome h storage isPermanent r.form (ajaxSucceeds status) (t.filterMap exchangeOf) := by
  have same : ∀ {t : Trace} {status status' : Nat}, (response t).status = some status' →
      (response t).status = some status → status' = status := by
    intro t status status' sent' sent
    exact Option.some_inj.mp (sent'.symm.trans sent)
  by_cases unnamed : r.formValue (str "fileName") = []
  · simp only [Handler.removeHandler, if_pos unnamed]
    refine (declines_error h _ _).mono ?_
    rintro t _ ⟨unasked, status', sent', failed⟩ status sent
    obtain rfl := same sent' sent
    exact (if_pos unnamed).mpr ⟨unasked, failed⟩
  · simp only [Handler.removeHandler, if_neg unnamed, hsp]
    refine (asksOnce_post h r storage (str "remove") _ _ possible).mono ?_
    rintro t _ ⟨_, reply, once, rfl, status', sent', told⟩ status sent
    obtain rfl := same sent' sent
    exact (if_neg unnamed).mpr
      ⟨_, reply, once, rfl, removes_postRequest h r storage isPermanent, told⟩

section Run
variable {h : Handler} {deployed : Bool} {storage : Bytes} {isPermanent : Bool} {page : Target}
  (seg : IsSegment storage) (free : isPermanent = true ∨ storage ≠ str "login")
  (possible : h.lib.newRequestErr (h.makeURL (str "remove")) = none)
  (hpath : page.path = escapePath (pathOf (area storage isPermanent) true))
include seg free possible hpath

/-- What a post comes to in the service. -/
theorem removal_outcome {request : Incoming}
    (read : visit (str "POST") (follow page removeURL) = some request)
    (cookies : List (Bytes × Bytes)) (form : Values) {t : Trace} {status : Nat}
    (run : (serveHTTP h deployed { request with cookies, form }).Runs t ())
    (sent : (response t).status = some status) :
    Outcome h storage isPermanent form (ajaxSucceeds status) (t.filterMap exchangeOf) := by
  have removes : operation (str "remove") = some .removeHandler := by decide
  have reached : dispatch deployed { request with cookies, form } =
      .endpoint (.handler .removeHandler) (.ok ⟨storage, false, isPermanent, []⟩) :=
    visit_operation removes seg free hpath read cookies form
  obtain ⟨r, hr, hsp, runs⟩ := serveHTTP_handler h reached
  have hform : r.form = form := congrArg Incoming.form hr
  have all := (runs _).mpr (removeHandler_outcome possible hsp)
  exact hform ▸ (Program.ensures_iff_runs _ _).mp all t () run status sent

theorem FileTable.Step.shows {notes : List TableNote} {s s' : FileTable} {note : Option TableNote}
    (shows : s.Shows notes) (step : FileTable.Step h deployed page s note s') :
    s'.Shows (notes ++ note.toList) := by
  cases step with
  | lists files =>
      rw [Option.toList_some]
      refine ⟨?_, ?_, ?_, ?_⟩
      · rw [viewOf_concat]
        rfl
      · rw [viewOf_concat]
        simp [TableNote.follow]
      · rw [seen_concat, seen_concat, Multiset.add_zero]
        exact (Multiset.le_add_right _ _).trans shows.accounted
      · intro form member
        cases Multiset.notMem_zero _ member
  | @clicks _ index f form shown file script => exact shows.post fun other => by cases other
  | removesFile fileName => exact shows.post fun _ => removedfile_posts fileName
  | answered read run sent left =>
      have outcome := removal_outcome seg free possible hpath read _ _ run sent
      refine shows.answer (fun unnamed => ?_) left
      rw [Outcome, if_pos unnamed] at outcome
      exact outcome.2

theorem shows_run {notes : List TableNote} {s : FileTable}
    (run : (tableMachine h deployed page).Run notes s) : s.Shows notes := by
  refine run.invariant (P := fun notes s => FileTable.Shows notes s) ?_ ?_
  · exact ⟨rfl, rfl, le_refl _, fun _ none => (Multiset.notMem_zero _ none).elim⟩
  · exact fun shows step => step.shows seg free possible hpath shows

/-- In every run of the table, whatever is clicked and answered in between, the rows that
are left are those whose buttons were not answered with a success since the listing was
shown; every post is one of a row that is shown or of a link of Dropzone, and every
answer is one to a post, with the outcome that it has in the service. -/
theorem removals_shown {notes : List TableNote} {s : FileTable}
    (run : (tableMachine h deployed page).Run notes s) :
    s.Shows notes ∧
      (∀ before removal form after, notes = before ++ .posted removal form :: after →
        removal.Posts (viewOf before) form) ∧
      ∀ before removal form succeeded exchanges after,
        notes = before ++ .answered removal form succeeded exchanges :: after →
          Outcome h storage isPermanent form succeeded exchanges := by
  refine ⟨shows_run seg free possible hpath run, ?_, ?_⟩
  · intro before removal form after split
    obtain ⟨s₁, s₂, earlier, step⟩ := run.shown split
    obtain ⟨files, rows, -, -⟩ := shows_run seg free possible hpath earlier
    cases step with
    | @clicks _ index f _ shown file script =>
        rw [posted_onclick] at script
        rw [rows, List.mem_filter] at shown
        exact ⟨f, files ▸ file, by simpa using shown.2, (Option.some_inj.mp script).symm⟩
    | removesFile fileName => exact ⟨fileName, rfl⟩
  · intro before removal form succeeded exchanges after split
    obtain ⟨s₁, s₂, -, step⟩ := run.shown split
    cases step with
    | answered read run sent left =>
        exact removal_outcome seg free possible hpath read _ _ run sent

end Run

/-- The button of the only file of a listing is clicked. -/
theorem removals_shown_clicked :
    let form := [(str "fileName", str "a.txt")]
    FileTable.Shows [.listed [⟨str "a.txt", 1, 0⟩], .posted (.row 0) form]
        ⟨[⟨str "a.txt", 1, 0⟩], [0], {(.row 0, form)}⟩ ∧
      (Removal.row 0).Posts ([⟨str "a.txt", 1, 0⟩], []) form := by
  intro form
  let page : Target := ⟨none, none, str "/a/", none⟩
  let s : FileTable := ⟨[⟨str "a.txt", 1, 0⟩], [0], 0⟩
  have listed := Machine.Run.step (m := tableMachine .plain true page) .init
    (.lists [⟨str "a.txt", 1, 0⟩])
  have click : FileTable.Step .plain true page s (some (.posted (.row 0) form))
      { s with pending := (.row 0, form) ::ₘ 0 } :=
    .clicks (by decide) rfl (posted_onclick 0 (str "a.txt"))
  have seg : IsSegment (str "a") := by decide
  have free : false = true ∨ str "a" ≠ str "login" := .inr (by decide)
  obtain ⟨shows, posts, -⟩ := removals_shown seg free rfl (by decide) (listed.step click)
  exact ⟨shows, posts [_] (.row 0) form [] rfl⟩

end FileSharing
