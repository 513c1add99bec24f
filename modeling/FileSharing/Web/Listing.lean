import FileSharing.Net.Html
import FileSharing.Net.Script
import FileSharing.Web.Decoding
import FileSharing.Web.OneResponse
import FileSharing.Web.Page

/-!
The table of view.html: what the template writes for a list of files, and what a
browser reads of it. Every file has one row with its link, its numbers and its
button, whatever its name is made of, and the button removes that file.
-/

namespace FileSharing
open Net Effects Html

/-! What the template writes. -/

def tabs (n : Nat) : Bytes := lineFeed :: List.replicate n 0x09
def spaces (n : Nat) : Bytes := lineFeed :: List.replicate n space

/-- The row of the permanent storage. -/
def permanentRow : Bytes :=
  tabs 9 ++ str "<tr>" ++ tabs 10 ++ str "<td>dir</td>" ++ tabs 10 ++
    str "<td><a href=\"permanent\">permanent</a></td>" ++ tabs 9 ++ str "</tr>" ++ tabs 9

def noFilesRow : Bytes :=
  spaces 40 ++ str "<tr>" ++ spaces 44 ++ str "<td colspan=\"4\" class=\"text-center\">" ++
    spaces 48 ++ str "No files uploaded yet" ++ spaces 44 ++ str "</td>" ++ spaces 40 ++
    str "</tr>" ++ spaces 36

/-- The script that writes the time of a file, before and behind the time. -/
def dateHead : Bytes :=
  tabs 13 ++ str "function addZero(i) \x7b" ++ tabs 14 ++ str "if (i < 10) \x7b" ++ tabs 15 ++
    str "i = \"0\" + i;" ++ tabs 14 ++ str "\x7d" ++ tabs 14 ++ str "return i;" ++ tabs 13 ++
    str "\x7d" ++ tabs 13 ++ str "var file_date = new Date("

def dateTail : Bytes :=
  str " * 1000);" ++ tabs 13 ++
    str "var file_date_string = addZero(file_date.getHours()) + \":\" + " ++
    str "addZero(file_date.getMinutes()) + \":\" + addZero(file_date.getSeconds());" ++ tabs 13 ++
    str "document.write(file_date_string);" ++ tabs 12

def increment (i : Nat) : Nat := i + 1

def numberCells (index : Nat) : Bytes :=
  spaces 40 ++ str "<tr id=\"row_" ++ htmlReplacer (decimal index) ++ str "\">" ++ spaces 44 ++
    str "<td>" ++ htmlReplacer (decimal (increment index)) ++ str "</td>"

/-- The cell of the name, with the text of the link apart. -/
def nameCell (name label : Bytes) : Bytes :=
  tabs 11 ++ str "<td id=\"name\"><a href=\"" ++ htmlReplacer (href name) ++ str "\">" ++
    htmlReplacer label ++ str "</a></td>"

def timeCell (modTime : Int) : Bytes :=
  tabs 11 ++ str "<td>" ++ tabs 12 ++ str "<script type=\"text/javascript\">" ++
    (dateHead ++ Script.jsValEscaper modTime ++ dateTail) ++ str "</script>" ++ tabs 11 ++
    str "</td>"

def sizeCell (size : Int) : Bytes :=
  spaces 44 ++ str "<td>" ++ htmlReplacer (decimalInt size) ++ str "</td>"

/-- jsStrEscaper on the bytes of a name. -/
def jsName (name : Bytes) : Bytes := written (Script.jsStrEscaper (scalars name))

def actionCell (index : Nat) (name : Bytes) : Bytes :=
  spaces 44 ++ str "<td class=\"text-center\">" ++ spaces 48 ++
    str "<button type=\"button\" class=\"btn btn-danger btn-xs\" onclick=\"" ++
    (str "removeFileRequest(" ++ htmlReplacer (Script.jsValEscaper index) ++ str ", '" ++
      htmlReplacer (jsName name) ++ str "')") ++
    str "\">&times;</button>" ++ spaces 44 ++ str "</td>" ++ spaces 40 ++ str "</tr>" ++ spaces 36

def fileRow (index : Nat) (f : FileInfo) (label : Bytes) : Bytes :=
  numberCells index ++ nameCell f.name label ++ timeCell f.modTime ++ sizeCell f.size ++
    actionCell index f.name

/-- The rows from an index on. -/
def fileRows : Nat → List FileInfo → Bytes
  | _, [] => []
  | index, f :: files => fileRow index f f.name ++ fileRows (index + 1) files

/-- The contents of the table body. -/
def TemplateView.rows (t : TemplateView) : Bytes :=
  tabs 9 ++ (if t.needPermanentLink then permanentRow else []) ++ spaces 36 ++
    (if t.fileInfoList = [] then noFilesRow else fileRows 0 t.fileInfoList) ++ tabs 8

/-! What a browser reads. -/

def idRow (index : Nat) : Bytes := str "row_" ++ decimal index

/-- The handler of a row's button. -/
def onclick (index : Nat) (name : Bytes) : Bytes :=
  str "removeFileRequest(" ++ Script.jsValEscaper index ++ str ", '" ++ jsName name ++ str "')"

def cell (attributes : Attributes) (contents : List Token) : List Token :=
  .start (str "td") attributes :: contents ++ [.close (str "td")]

def link (target label : Bytes) : List Token :=
  .start (str "a") [(str "href", target)] :: text label ++ [.close (str "a")]

def permanentTokens : List Token :=
  text (tabs 9) ++ [.start (str "tr") []] ++ text (tabs 10) ++ cell [] (text (str "dir")) ++
    text (tabs 10) ++ cell [] (link permanentLink (str "permanent")) ++ text (tabs 9) ++
    [.close (str "tr")] ++ text (tabs 9)

def noFilesTokens : List Token :=
  text (spaces 40) ++ [.start (str "tr") []] ++ text (spaces 44) ++
    cell [(str "colspan", str "4"), (str "class", str "text-center")]
      (text (spaces 48 ++ str "No files uploaded yet" ++ spaces 44)) ++
    text (spaces 40) ++ [.close (str "tr")] ++ text (spaces 36)

/-- The row of a file. A line end in its name is shown as a line feed, and a zero
byte as the replacement character. -/
def fileTokens (index : Nat) (f : FileInfo) : List Token :=
  text (spaces 40) ++ [.start (str "tr") [(str "id", idRow index)]] ++ text (spaces 44) ++
    cell [] (text (decimal (increment index))) ++ text (tabs 11) ++
    cell [(str "id", str "name")] (link (href f.name) (shown (normalizeNewlines f.name))) ++
    text (tabs 11) ++
    cell [] (text (tabs 12) ++
      .start (str "script") [(str "type", str "text/javascript")] ::
        text (dateHead ++ Script.jsValEscaper f.modTime ++ dateTail) ++
      [.close (str "script")] ++ text (tabs 11)) ++
    text (spaces 44) ++ cell [] (text (decimalInt f.size)) ++ text (spaces 44) ++
    cell [(str "class", str "text-center")]
      (text (spaces 48) ++
        .start (str "button") [(str "type", str "button"),
          (str "class", str "btn btn-danger btn-xs"), (str "onclick", onclick index f.name)] ::
          text [0xC3, 0x97] ++
        [.close (str "button")] ++ text (spaces 44)) ++
    text (spaces 40) ++ [.close (str "tr")] ++ text (spaces 36)

def filesTokens : Nat → List FileInfo → List Token
  | _, [] => []
  | index, f :: files => fileTokens index f ++ filesTokens (index + 1) files

def TemplateView.tokens (t : TemplateView) : List Token :=
  text (tabs 9) ++ (if t.needPermanentLink then permanentTokens else []) ++ text (spaces 36) ++
    (if t.fileInfoList = [] then noFilesTokens else filesTokens 0 t.fileInfoList) ++ text (tabs 8)

/-- The script argument. -/
def jsValue : Script.Argument → JsValue
  | .number n => .number n
  | .string s => .string (written s)

/-- The form that a handler of the page posts. -/
def posted (handler : Bytes) : Option Values :=
  match Script.readCall handler with
  | some (name, [idx, fileName]) =>
    if name = str "removeFileRequest" then some (removeFileRequest (jsValue idx) (jsValue fileName))
    else none
  | _ => none

/-! The cells. -/

theorem printable_href (name : Bytes) : Printable (href name) := by
  have kept : ∀ c : UInt8, (keepNormal c = true ∨ c = percent) → 0x20 ≤ c :=
    forall_byte (by decide)
  have escaped : ∀ c : UInt8, (escapeByte lowerHex c).all (0x20 ≤ ·) = true :=
    forall_byte (by decide)
  have normal : ∀ s, Printable (urlNormalizer s) := by
    intro s
    induction s with
    | nil => exact fun c hc => absurd hc List.not_mem_nil
    | cons c s ih =>
        rw [urlNormalizer_cons]
        refine printable_append ?_ ih
        split
        · rename_i keep
          rw [Bool.or_eq_true, Bool.and_eq_true, beq_iff_eq] at keep
          intro d hd
          rw [List.mem_singleton.mp hd]
          exact kept c (keep.imp id And.left)
        · intro d hd
          simpa using List.all_eq_true.mp (escaped c) d hd
  exact normal _

theorem printable_jsName (name : Bytes) : Printable (jsName name) :=
  Script.printable_jsStrEscaper _

/-- A cell that holds a printable text. -/
theorem reads_cell {s : Bytes} (printable : Printable s) :
    Reads .data (spaces 44 ++ str "<td>" ++ htmlReplacer s ++ str "</td>")
      (text (spaces 44) ++ cell [] (text s)) .data := by
  have opens : Reads .data (spaces 44 ++ str "<td>")
      (text (spaces 44) ++ [.start (str "td") []]) .data := by
    decide
  have contents := reads_text s
  rw [shown_printable printable] at contents
  have ends : Reads .data (str "</td>") [.close (str "td")] .data := by decide
  simpa only [cell, List.append_assoc, List.cons_append, List.nil_append] using
    (opens.append contents).append ends

theorem reads_numberCells (index : Nat) :
    Reads .data (numberCells index)
      (text (spaces 40) ++ [.start (str "tr") [(str "id", idRow index)]] ++ text (spaces 44) ++
        cell [] (text (decimal (increment index)))) .data := by
  have opens : Reads .data (spaces 40 ++ str "<tr id=\"row_") (text (spaces 40))
      (.value ⟨str "tr", [], str "id", str "row_"⟩) := by
    decide
  have id := reads_value ⟨str "tr", [], str "id", str "row_"⟩ (decimal index)
  rw [shown_printable (printable_digits (decimal_digits index))] at id
  have closes := @reads_close (str "tr") (by decide) [] (str "id") (idRow index)
  have number := reads_cell (printable_digits (decimal_digits (increment index)))
  have both := ((opens.append id).append closes).append number
  simpa only [numberCells, cell, List.append_assoc, List.append_nil, List.cons_append,
    List.nil_append] using both

theorem reads_nameCell (name label : Bytes) :
    Reads .data (nameCell name label)
      (text (tabs 11) ++ cell [(str "id", str "name")] (link (href name) (shown label))) .data := by
  have opens : Reads .data (tabs 11 ++ str "<td id=\"name\"><a href=\"")
      (text (tabs 11) ++ [.start (str "td") [(str "id", str "name")]])
      (.value ⟨str "a", [], str "href", []⟩) := by
    decide
  have target := reads_value ⟨str "a", [], str "href", []⟩ (href name)
  rw [shown_printable (printable_href name)] at target
  have closes := @reads_close (str "a") (by decide) [] (str "href") (href name)
  have ends : Reads .data (str "</a></td>") [.close (str "a"), .close (str "td")] .data := by
    decide
  have both := ((opens.append target).append closes).append ((reads_text label).append ends)
  simpa only [nameCell, cell, link, List.append_assoc, List.append_nil, List.cons_append,
    List.nil_append] using both

theorem reads_timeCell (modTime : Int) :
    Reads .data (timeCell modTime)
      (text (tabs 11) ++ cell [] (text (tabs 12) ++
        .start (str "script") [(str "type", str "text/javascript")] ::
          text (dateHead ++ Script.jsValEscaper modTime ++ dateTail) ++
        [.close (str "script")] ++ text (tabs 11))) .data := by
  have opens : Reads .data
      (tabs 11 ++ str "<td>" ++ tabs 12 ++ str "<script type=\"text/javascript\">")
      (text (tabs 11) ++ [.start (str "td") []] ++ text (tabs 12) ++
        [.start (str "script") [(str "type", str "text/javascript")]]) .script := by
    decide
  have head : Reads .script dateHead (text dateHead) .script := by decide +kernel
  have time : Reads .script (Script.jsValEscaper modTime) (text (Script.jsValEscaper modTime))
      .script := by
    have byte : ∀ c : UInt8, c = space ∨ c = 0x2D ∨ isDigit c = true → c ≠ less ∧ c ≠ 0 :=
      forall_byte (by decide)
    refine reads_script fun c hc => byte c ?_
    simp only [Script.jsValEscaper, List.cons_append, List.mem_cons, List.mem_append,
      List.not_mem_nil, or_false] at hc
    rcases hc with blank | number | blank
    · exact .inl blank
    · exact .inr (decimalInt_bytes modTime c number)
    · exact .inl blank
  have tail : Reads .script dateTail (text dateTail) .script := by decide +kernel
  have ends : Reads .script (str "</script>" ++ tabs 11 ++ str "</td>")
      ([.close (str "script")] ++ text (tabs 11) ++ [.close (str "td")]) .data := by
    decide
  have both := (opens.append ((head.append time).append tail)).append ends
  simpa only [timeCell, cell, text, List.map_append, List.append_assoc, List.append_nil,
    List.cons_append, List.nil_append] using both

theorem reads_sizeCell (size : Int) :
    Reads .data (sizeCell size) (text (spaces 44) ++ cell [] (text (decimalInt size))) .data :=
  reads_cell (printable_decimalInt size)

theorem reads_actionCell (index : Nat) (name : Bytes) :
    Reads .data (actionCell index name)
      (text (spaces 44) ++
        cell [(str "class", str "text-center")]
          (text (spaces 48) ++
            .start (str "button") [(str "type", str "button"),
              (str "class", str "btn btn-danger btn-xs"), (str "onclick", onclick index name)] ::
              text [0xC3, 0x97] ++
            [.close (str "button")] ++ text (spaces 44)) ++
        text (spaces 40) ++ [.close (str "tr")] ++ text (spaces 36)) .data := by
  let before : Attributes :=
    [(str "type", str "button"), (str "class", str "btn btn-danger btn-xs")]
  have opens : Reads .data
      (spaces 44 ++ str "<td class=\"text-center\">" ++ spaces 48 ++
        str "<button type=\"button\" class=\"btn btn-danger btn-xs\" onclick=\"" ++
        str "removeFileRequest(")
      (text (spaces 44) ++ [.start (str "td") [(str "class", str "text-center")]] ++
        text (spaces 48))
      (.value ⟨str "button", before, str "onclick", str "removeFileRequest("⟩) := by
    decide +kernel
  have idx := reads_value ⟨str "button", before, str "onclick", str "removeFileRequest("⟩
    (Script.jsValEscaper index)
  rw [shown_printable (Script.printable_jsValEscaper _)] at idx
  have comma := reads_value_plain ⟨str "button", before, str "onclick",
    str "removeFileRequest(" ++ Script.jsValEscaper index⟩ (s := str ", '") (by decide)
  have fileName := reads_value ⟨str "button", before, str "onclick",
    str "removeFileRequest(" ++ Script.jsValEscaper index ++ str ", '"⟩ (jsName name)
  rw [shown_printable (printable_jsName name)] at fileName
  have last := reads_value_plain ⟨str "button", before, str "onclick",
    str "removeFileRequest(" ++ Script.jsValEscaper index ++ str ", '" ++ jsName name⟩
    (s := str "')") (by decide)
  have closes := @reads_close (str "button") (by decide) before (str "onclick") (onclick index name)
  have ends : Reads .data
      (str "&times;</button>" ++ spaces 44 ++ str "</td>" ++ spaces 40 ++ str "</tr>" ++ spaces 36)
      (text [0xC3, 0x97] ++ [.close (str "button")] ++ text (spaces 44) ++ [.close (str "td")] ++
        text (spaces 40) ++ [.close (str "tr")] ++ text (spaces 36)) .data := by
    decide +kernel
  have script := (((opens.append idx).append comma).append fileName).append last
  have both := (script.append closes).append ends
  have two : str "\">&times;</button>" = str "\">" ++ str "&times;</button>" := by decide
  rw [actionCell, two]
  simpa only [cell, before, List.append_assoc, List.append_nil, List.cons_append,
    List.nil_append] using both

/-! The table. -/

/-- Of a row only the label of its link may hold a line end. -/
theorem fileRow_label (index : Nat) (f : FileInfo) :
    ∃ front back, carriageReturn ∉ front ∧ carriageReturn ∉ less :: back ∧
      ∀ label, fileRow index f label = front ++ (htmlReplacer label ++ less :: back) := by
  have digits : ∀ n, carriageReturn ∉ htmlReplacer (decimal n) := fun n =>
    return_htmlReplacer (printable_digits (decimal_digits n))
  have name := return_htmlReplacer (printable_href f.name)
  have size := return_htmlReplacer (printable_decimalInt f.size)
  have idx := return_htmlReplacer (Script.printable_jsValEscaper index)
  have fileName := return_htmlReplacer (printable_jsName f.name)
  have time : carriageReturn ∉ Script.jsValEscaper f.modTime := fun line =>
    absurd (Script.printable_jsValEscaper f.modTime _ line) (by decide)
  refine ⟨numberCells index ++ (tabs 11 ++ str "<td id=\"name\"><a href=\"" ++
    htmlReplacer (href f.name) ++ str "\">"),
    str "/a></td>" ++ timeCell f.modTime ++ sizeCell f.size ++ actionCell index f.name, ?_, ?_, ?_⟩
  · simp +decide only [numberCells, List.mem_append, digits, name, or_self, not_false_eq_true]
  · simp +decide only [timeCell, sizeCell, actionCell, dateHead, dateTail, List.mem_cons,
      List.mem_append, size, idx, fileName, time, or_self, not_false_eq_true]
  · intro label
    have two : str "</a></td>" = less :: str "/a></td>" := by decide
    simp [fileRow, nameCell, two]

theorem normalize_fileRow (index : Nat) (f : FileInfo) (label rest : Bytes) :
    normalizeNewlines (fileRow index f label ++ rest) =
      fileRow index f (normalizeNewlines label) ++ normalizeNewlines rest := by
  obtain ⟨front, back, plain, plain', row⟩ := fileRow_label index f
  rw [row, row, List.append_assoc, List.append_assoc, List.cons_append,
    normalizeNewlines_hole plain _ (by decide), ← List.cons_append, normalizeNewlines_plain plain']
  simp only [List.append_assoc]

theorem reads_fileRow (index : Nat) (f : FileInfo) :
    Reads .data (fileRow index f (normalizeNewlines f.name)) (fileTokens index f) .data := by
  have cells := ((((reads_numberCells index).append
    (reads_nameCell f.name (normalizeNewlines f.name))).append (reads_timeCell f.modTime)).append
      (reads_sizeCell f.size)).append (reads_actionCell index f.name)
  simpa only [fileRow, fileTokens, List.append_assoc] using cells

/-- What remains of the rows behind a text that has been read. -/
theorem reads_fileRows (index : Nat) (files : List FileInfo) {rest : Bytes} {ts : List Token}
    (behind : Reads .data (normalizeNewlines rest) ts .data) :
    Reads .data (normalizeNewlines (fileRows index files ++ rest)) (filesTokens index files ++ ts)
      .data := by
  induction files generalizing index with
  | nil => exact behind
  | cons f files ih =>
      rw [fileRows, List.append_assoc, normalize_fileRow, filesTokens, List.append_assoc]
      exact (reads_fileRow index f).append (ih (index + 1))

/-- Whatever the names of the files, the table is read as it was meant. -/
theorem tokens_rows (t : TemplateView) : Html.tokens t.rows = some t.tokens := by
  have last : normalizeNewlines (tabs 8) = tabs 8 ∧ Reads .data (tabs 8) (text (tabs 8)) .data := by
    decide
  have body : Reads .data
      (normalizeNewlines ((if t.fileInfoList = [] then noFilesRow else fileRows 0 t.fileInfoList) ++
        tabs 8))
      ((if t.fileInfoList = [] then noFilesTokens else filesTokens 0 t.fileInfoList) ++
        text (tabs 8))
      .data := by
    split
    · have closed : normalizeNewlines (noFilesRow ++ tabs 8) = noFilesRow ++ tabs 8 ∧
          Reads .data (noFilesRow ++ tabs 8) (noFilesTokens ++ text (tabs 8)) .data := by
        decide +kernel
      rw [closed.1]
      exact closed.2
    · refine reads_fileRows 0 t.fileInfoList ?_
      rw [last.1]
      exact last.2
  have front : ∀ link : Bool,
      carriageReturn ∉ tabs 9 ++ (if link then permanentRow else []) ++ spaces 36 ∧
        Reads .data (tabs 9 ++ (if link then permanentRow else []) ++ spaces 36)
          (text (tabs 9) ++ (if link then permanentTokens else []) ++ text (spaces 36)) .data := by
    decide +kernel
  have head := front t.needPermanentLink
  refine Reads.tokens ?_
  rw [TemplateView.rows, List.append_assoc _ _ (tabs 8), normalizeNewlines_plain head.1,
    TemplateView.tokens, List.append_assoc _ _ (text (tabs 8))]
  exact head.2.append body

/-- The button of a row removes its file, whose name it has as text. -/
theorem posted_onclick (index : Nat) (name : Bytes) :
    posted (onclick index name) = some ((Removal.row index).form (toValidUTF8 name)) := by
  have call := @Script.readCall_written (str "removeFileRequest") (by decide)
    ⟨0x72, _, rfl, by decide⟩ index (scalars name)
  have script : onclick index name = str "removeFileRequest" ++ 0x28 ::
      (Script.jsValEscaper index ++ 0x2C :: space :: 0x27 ::
        (written (Script.jsStrEscaper (scalars name)) ++ [0x27, 0x29])) := by
    have words : str "removeFileRequest(" = str "removeFileRequest" ++ [0x28] ∧
        str ", '" = [0x2C, space, 0x27] ∧ str "')" = [0x27, 0x29] := by
      decide
    simp [onclick, jsName, words]
  rw [posted, script, call]
  rfl

/-! The page of a storage. -/

/-- The pages that a run executes. -/
def pages (t : Trace) : List Page :=
  t.filterMap fun
    | ⟨.executeTemplate page, _⟩ => some page
    | _ => none

/-- What a run that shows a storage comes to. -/
inductive Viewed (h : Handler) (r : Request) : Trace → Prop where
  | unasked {t : Trace} (ht : Silent t) : Viewed h r t
  | refused {t : Trace} {name : Bytes} {req : GatewayRequest} {reply : Except Bytes GatewayResponse}
      (he : asked name req reply ∈ t) (hreply : ¬Accepted reply) : Viewed h r t
  | answered {t : Trace} {name : Bytes} {req : GatewayRequest} {rsp : GatewayResponse}
      {sp : StorageParameters} (he : asked name req (.ok rsp) ∈ t)
      (parameters : requestParameters r = .ok sp)
      (shown : ∀ files, h.lib.decodeFiles rsp.body = .ok files →
        pages t = [.view (.new Handler.title (!sp.isPermanent && !sp.isPublic) files)]) :
      Viewed h r t

theorem viewHandler_viewed (h : Handler) (r : Request) :
    (h.viewHandler r).Ensures fun t _ => Viewed h r t := by
  rw [Handler.viewHandler]
  cases hp : requestParameters r with
  | error err => exact (ensures_error h _ _ _).mpr (.unasked (silent_errorEvents _ _ _))
  | ok sp =>
      rw [Program.ensures_bind]
      refine (makeGetRequest_exchanged h r _ _ _).mono ?_
      intro es a ex
      cases ex with
      | unsent err hpre =>
          refine (ensures_error h _ _ _).mpr (.unasked ?_)
          exact (silent_append _ _).mpr ⟨silent_prepared hpre, silent_errorEvents _ _ _⟩
      | @refused pre req reply hpre hreq hreply =>
          have he : asked sp.storageName req reply ∈ pre ++ [asked sp.storageName req reply] :=
            List.mem_append_right _ List.mem_cons_self
          exact (ensures_error h _ _ _).mpr (.refused (List.mem_append_left _ he) hreply)
      | @accepted pre cookies req rsp hpre hreq status hcookies =>
          have before : pages (pre ++ asked sp.storageName req (.ok rsp) :: cookies) = [] := by
            rw [pages, List.filterMap_append, filterMap_prepared (fun _ => rfl) hpre,
              List.filterMap_cons_none rfl,
              filterMap_refreshed (fun _ => rfl) (fun _ => rfl) hcookies]
            rfl
          have shown : ∀ es, (∀ files, h.lib.decodeFiles rsp.body = .ok files →
              pages es = [.view (.new Handler.title (!sp.isPermanent && !sp.isPublic) files)]) →
              Viewed h r (pre ++ asked sp.storageName req (.ok rsp) :: cookies ++ es) := by
            intro es page
            refine .answered
              (List.mem_append_left _ (List.mem_append_right _ List.mem_cons_self)) hp ?_
            intro files decoded
            rw [pages, List.filterMap_append, ← pages, ← pages, before, List.nil_append]
            exact page files decoded
          simp only [ensures_deferClose]
          cases decoded : h.lib.decodeFiles rsp.body with
          | error err =>
              refine (ensures_error h _ _ _).mpr (shown _ fun files read => ?_)
              rw [decoded] at read
              cases read
          | ok files =>
              have same : ∀ files', h.lib.decodeFiles rsp.body = .ok files' → files' = files := by
                intro files' read
                rw [decoded] at read
                exact (Except.ok.inj read).symm
              simp only [Program.ensures_bind, ensures_executeTemplate]
              intro rendered
              cases rendered.err with
              | none =>
                  refine shown _ fun files' read => ?_
                  rw [same files' read]
                  rfl
              | some err =>
                  refine (ensures_error h _ _ _).mpr (shown _ fun files' read => ?_)
                  rw [same files' read]
                  rfl

/-- A storage's page shows what the gateway listed: a browser reads a row for every
file in order, whatever the names are, and the button of each row posts its name. -/
theorem listing_shown (h : Handler) (text : Body → Bytes) (r : Request) :
    ((h.withJson text).run .viewHandler r).Ensures fun t _ => ∀ storage req rsp files,
      asked storage req (.ok rsp) ∈ t → rsp.statusCode = 200 → decodeFiles rsp.body = some files →
      ∃ sp view, requestParameters r = .ok sp ∧ pages t = [.view view] ∧
        view = .new Handler.title (!sp.isPermanent && !sp.isPublic) files ∧
        Html.tokens view.rows = some view.tokens ∧
        ∀ index f, files[index]? = some f →
          posted (onclick index f.name) = some ((Removal.row index).form f.name) := by
  refine ((viewHandler_viewed (h.withJson text) r).and (run_ledger (h.withJson text) r
    .viewHandler)).mono ?_
  intro t _ run storage req rsp files he status decoded
  cases run.1 with
  | unasked ht => cases ht _ he
  | refused he' hreply =>
      have same := run.2.sole he he'
      exact absurd ⟨rsp, same.symm, status⟩ hreply
  | answered he' parameters shown =>
      have same := run.2.sole he he'
      cases same
      have read : (h.withJson text).lib.decodeFiles rsp.body = .ok files := by
        simp [Handler.withJson, Stdlib.withJson, decoded]
      refine ⟨_, _, parameters, shown files read, rfl, tokens_rows _, ?_⟩
      intro index f hf
      rw [posted_onclick, decodeFiles_valid decoded f (List.mem_of_getElem? hf)]

end FileSharing
