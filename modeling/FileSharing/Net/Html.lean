import FileSharing.Net.JsonRead

/-!
HTML as a browser reads it and `html/template` escapes it. The tokenizer covers
tags with double-quoted attributes, character references and scripts, and gives up
where a text goes beyond these. Data that was escaped for its place is read there
as data.
-/

namespace Html
open Net

abbrev ampersandSign : UInt8 := 0x26
abbrev apostrophe : UInt8 := 0x27
abbrev less : UInt8 := 0x3C
abbrev greater : UInt8 := 0x3E
abbrev lineFeed : UInt8 := 0x0A
abbrev carriageReturn : UInt8 := 0x0D

abbrev Attributes : Type := List (Bytes × Bytes)

inductive Token where
  | char (c : UInt8)
  | start (tag : Bytes) (attributes : Attributes)
  | close (tag : Bytes)
deriving DecidableEq

def text (s : Bytes) : List Token := s.map .char

/-- A value that is being read, with its tag and the attributes before it. -/
structure Partial where
  tag : Bytes
  before : Attributes
  name : Bytes
  value : Bytes
deriving DecidableEq

inductive State where
  | data
  | tagOpen
  | tagName (closing : Bool) (tag : Bytes)
  | beforeName (tag : Bytes) (attributes : Attributes)
  | attributeName (tag : Bytes) (attributes : Attributes) (name : Bytes)
  | beforeValue (tag : Bytes) (attributes : Attributes) (name : Bytes)
  | value (a : Partial)
  | afterValue (tag : Bytes) (attributes : Attributes)
  | reference (a : Option Partial) (name : Bytes)
  | script
  | scriptLess
  | scriptEnd (tag : Bytes)
deriving DecidableEq

def isLetter (c : UInt8) : Bool := isLower c || isUpper c

def lower (c : UInt8) : UInt8 := if isUpper c then c + 0x20 else c

/-- White space, after line ends have been made line feeds. -/
def isBlank (c : UInt8) : Bool := c = 0x20 || c = 0x09 || c = lineFeed || c = 0x0C

/-- Elements other than scripts whose contents are no markup. -/
def rawElements : List Bytes :=
  [str "title", str "textarea", str "style", str "xmp", str "iframe", str "noembed",
    str "noframes", str "noscript", str "plaintext"]

/-- The end of a start tag. -/
def opened (tag : Bytes) (attributes : Attributes) : Option (List Token × State) :=
  if tag ∈ rawElements then none
  else some ([.start tag attributes], if tag = str "script" then .script else .data)

/-- What stands between an ampersand and a semicolon. Zero and the numbers of the
control characters are replaced in their own way. -/
def resolve : Bytes → Option Bytes
  | [] => none
  | c :: name =>
    if c = hash then
      if name = [] ∨ ¬name.all isDigit then none
      else if digitsValue name = 0 ∨ 0x80 ≤ digitsValue name ∧ digitsValue name < 0xA0 then none
      else some (encodeRune (digitsValue name)).rune.source
    else if c :: name = str "amp" then some [ampersandSign]
    else if c :: name = str "lt" then some [less]
    else if c :: name = str "gt" then some [greater]
    else if c :: name = str "quot" then some [quote]
    else if c :: name = str "times" then some (encodeRune 0xD7).rune.source
    else none

def step : State → UInt8 → Option (List Token × State)
  | .data, c =>
    if c = ampersandSign then some ([], .reference none [])
    else if c = less then some ([], .tagOpen)
    else if c = 0 then none
    else some ([.char c], .data)
  | .tagOpen, c =>
    if c = slash then some ([], .tagName true [])
    else if isLetter c then some ([], .tagName false [lower c])
    else none
  | .tagName closing tag, c =>
    if c = greater then
      if closing then if tag = [] then none else some ([.close tag], .data) else opened tag []
    else if isBlank c then if closing then none else some ([], .beforeName tag [])
    else if isAlnum c then
      if tag = [] ∧ ¬isLetter c then none else some ([], .tagName closing (tag ++ [lower c]))
    else none
  | .beforeName tag attributes, c =>
    if c = greater then opened tag attributes
    else if isBlank c then some ([], .beforeName tag attributes)
    else if isLetter c then some ([], .attributeName tag attributes [lower c])
    else none
  | .attributeName tag attributes name, c =>
    if c = 0x3D then
      if name ∈ attributes.map (·.1) then none else some ([], .beforeValue tag attributes name)
    else if isAlnum c ∨ c = 0x2D then some ([], .attributeName tag attributes (name ++ [lower c]))
    else none
  | .beforeValue tag attributes name, c =>
    if c = quote then some ([], .value ⟨tag, attributes, name, []⟩)
    else if isBlank c then some ([], .beforeValue tag attributes name)
    else none
  | .value a, c =>
    if c = quote then some ([], .afterValue a.tag (a.before ++ [(a.name, a.value)]))
    else if c = ampersandSign then some ([], .reference (some a) [])
    else if c = 0 then none
    else some ([], .value { a with value := a.value ++ [c] })
  | .afterValue tag attributes, c =>
    if c = greater then opened tag attributes
    else if isBlank c then some ([], .beforeName tag attributes)
    else none
  | .reference a name, c =>
    if c = 0x3B then
      (resolve name).map fun s =>
        match a with
        | none => (text s, .data)
        | some a => ([], .value { a with value := a.value ++ s })
    else if isAlnum c ∨ c = hash then some ([], .reference a (name ++ [c]))
    else none
  | .script, c =>
    if c = less then some ([], .scriptLess)
    else if c = 0 then none
    else some ([.char c], .script)
  | .scriptLess, c =>
    if c = slash then some ([], .scriptEnd [])
    else if c = less then some ([.char less], .scriptLess)
    else if c = 0x21 ∨ c = 0 then none
    else some ([.char less, .char c], .script)
  | .scriptEnd tag, c =>
    if isLetter c then some ([], .scriptEnd (tag ++ [lower c]))
    else if c = greater ∧ tag = str "script" then some ([.close tag], .data)
    else none

def run : State → Bytes → Option (List Token × State)
  | q, [] => some ([], q)
  | q, c :: s => do
    let (ts, q) ← step q c
    let (us, q) ← run q s
    some (ts ++ us, q)

/-- Every line end becomes a line feed. The flag says that a carriage return came
before. -/
def lineEnds : Bool → Bytes → Bytes
  | _, [] => []
  | after, c :: s =>
    if c = carriageReturn then lineFeed :: lineEnds true s
    else if c = lineFeed ∧ after then lineEnds false s
    else c :: lineEnds false s

/-- The preprocessing of the input. -/
def normalizeNewlines (s : Bytes) : Bytes := lineEnds false s

/-- The tokens of a text that ends between tags. -/
def tokens (s : Bytes) : Option (List Token) :=
  (run .data (normalizeNewlines s)).bind fun r => if r.2 = .data then some r.1 else none

example : tokens (str "<A id=\"&#39;x\">&times;\r\n</a>") =
    some [.start (str "a") [(str "id", str "'x")], .char 0xC3, .char 0x97, .char lineFeed,
      .close (str "a")] := by
  decide

/-! The escapers of `html/template`. -/

/-- htmlReplacementTable, at one byte. -/
def entity (c : UInt8) : Bytes :=
  if c = 0 then replacement.rune.source
  else if c = quote then str "&#34;"
  else if c = ampersandSign then str "&amp;"
  else if c = apostrophe then str "&#39;"
  else if c = 0x2B then str "&#43;"
  else if c = less then str "&lt;"
  else if c = greater then str "&gt;"
  else [c]

/-- htmlEscaper, and attrEscaper on plain text. -/
def htmlReplacer (s : Bytes) : Bytes := s.flatMap entity

/-- What an escaped byte is read as. -/
def shownByte (c : UInt8) : Bytes := if c = 0 then replacement.rune.source else [c]

def shown (s : Bytes) : Bytes := s.flatMap shownByte

/-! Reading in pieces. -/

/-- From the one state to the other with these tokens. -/
def Reads (q : State) (s : Bytes) (ts : List Token) (q' : State) : Prop := run q s = some (ts, q')

instance (q : State) (s : Bytes) (ts : List Token) (q' : State) : Decidable (Reads q s ts q') :=
  inferInstanceAs (Decidable (_ = _))

theorem Reads.nil (q : State) : Reads q [] [] q := rfl

theorem Reads.append {q q' q'' : State} {s s' : Bytes} {ts ts' : List Token}
    (first : Reads q s ts q') (rest : Reads q' s' ts' q'') : Reads q (s ++ s') (ts ++ ts') q'' := by
  induction s generalizing q ts with
  | nil =>
      cases first
      exact rest
  | cons c s ih =>
      obtain ⟨⟨us, q₁⟩, here, first⟩ := Option.bind_eq_some_iff.mp first
      obtain ⟨⟨vs, q₂⟩, later, last⟩ := Option.bind_eq_some_iff.mp first
      cases last
      have both := ih later
      rw [Reads] at both ⊢
      rw [List.cons_append, run, here, List.append_assoc]
      simp [both]

theorem Reads.cons {q q' q'' : State} {c : UInt8} {s : Bytes} {ts ts' : List Token}
    (first : step q c = some (ts, q')) (rest : Reads q' s ts' q'') :
    Reads q (c :: s) (ts ++ ts') q'' := by
  have one : Reads q [c] ts q' := by simp [Reads, run, first]
  exact one.append rest

theorem reads_of_run {q q' : State} {s : Bytes} (ends : (run q s).map (·.2) = some q') :
    ∃ ts, Reads q s ts q' := by
  obtain ⟨⟨ts, q''⟩, reads, rfl⟩ := Option.map_eq_some_iff.mp ends
  exact ⟨ts, reads⟩

theorem Reads.tokens {s : Bytes} {ts : List Token}
    (reads : Reads .data (normalizeNewlines s) ts .data) : tokens s = some ts := by
  rw [Reads] at reads
  rw [Html.tokens, reads]
  rfl

/-- Escaped text between tags is text. -/
theorem reads_text (s : Bytes) : Reads .data (htmlReplacer s) (text (shown s)) .data := by
  have byte : ∀ c, Reads .data (entity c) (text (shownByte c)) .data :=
    forall_byte (by decide)
  induction s with
  | nil => exact .nil .data
  | cons c s ih =>
      have both := (byte c).append ih
      rwa [text, text, ← List.map_append] at both

theorem reads_name (a : Option Partial) {name : Bytes} (before : Bytes)
    (letters : name.all fun c => c ≠ 0x3B ∧ (isAlnum c = true ∨ c = hash)) :
    Reads (.reference a before) name [] (.reference a (before ++ name)) := by
  induction name generalizing before with
  | nil =>
      rw [List.append_nil]
      exact .nil _
  | cons c name ih =>
      rw [List.all_cons, Bool.and_eq_true, decide_eq_true_eq] at letters
      obtain ⟨⟨other, letter⟩, letters⟩ := letters
      have here : step (.reference a before) c = some ([], .reference a (before ++ [c])) := by
        rw [step, if_neg other, if_pos letter]
      have rest := ih (before ++ [c]) letters
      rw [List.append_assoc, List.singleton_append] at rest
      exact .cons here rest

/-- Plain bytes of a value. -/
theorem reads_value_plain (a : Partial) {s : Bytes}
    (plain : s.all fun c => c ≠ quote ∧ c ≠ ampersandSign ∧ c ≠ 0) :
    Reads (.value a) s [] (.value { a with value := a.value ++ s }) := by
  induction s generalizing a with
  | nil =>
      rw [List.append_nil]
      exact .nil _
  | cons c s ih =>
      rw [List.all_cons, Bool.and_eq_true, decide_eq_true_eq] at plain
      obtain ⟨⟨close, reference, zero⟩, plain⟩ := plain
      have here : step (.value a) c = some ([], .value { a with value := a.value ++ [c] }) := by
        rw [step, if_neg close, if_neg reference, if_neg zero]
      have rest := ih { a with value := a.value ++ [c] } plain
      rw [List.append_assoc, List.singleton_append] at rest
      exact .cons here rest

/-- An escaped byte is plain in a value, or a reference. -/
theorem entity_cases : ∀ c : UInt8,
    (entity c = shownByte c ∧
        (shownByte c).all fun d => d ≠ quote ∧ d ≠ ampersandSign ∧ d ≠ 0) ∨
      entity c = ampersandSign :: ((entity c).tail.dropLast ++ [0x3B]) ∧
        ((entity c).tail.dropLast.all fun d => d ≠ 0x3B ∧ (isAlnum d = true ∨ d = hash)) ∧
        resolve (entity c).tail.dropLast = some (shownByte c) :=
  forall_byte (by decide)

/-- Escaped text between the quotes of an attribute becomes part of the value. -/
theorem reads_value (a : Partial) (s : Bytes) :
    Reads (.value a) (htmlReplacer s) [] (.value { a with value := a.value ++ shown s }) := by
  have byte : ∀ (a : Partial) (c : UInt8), Reads (.value a) (entity c) []
      (.value { a with value := a.value ++ shownByte c }) := by
    intro a c
    cases entity_cases c with
    | inl plain =>
        rw [plain.1]
        exact reads_value_plain a plain.2
    | inr named =>
        obtain ⟨form, letters, resolved⟩ := named
        have opens : step (.value a) ampersandSign = some ([], .reference (some a) []) := by
          rw [step, if_neg (by decide), if_pos rfl]
        have last : Reads (.reference (some a) (entity c).tail.dropLast) [0x3B] []
            (.value { a with value := a.value ++ shownByte c }) := by
          rw [Reads, run, step, if_pos rfl, resolved]
          rfl
        rw [form]
        exact .cons opens ((reads_name (some a) [] letters).append last)
  induction s generalizing a with
  | nil =>
      rw [shown, List.flatMap_nil, List.append_nil]
      exact .nil _
  | cons c s ih =>
      have both := (byte a c).append (ih _)
      rw [shown, List.flatMap_cons, ← List.append_assoc]
      exact both

/-- Text without a tag in a script. -/
theorem reads_script {s : Bytes} (plain : ∀ c ∈ s, c ≠ less ∧ c ≠ 0) :
    Reads .script s (text s) .script := by
  induction s with
  | nil => exact .nil _
  | cons c s ih =>
      obtain ⟨tag, zero⟩ := plain c List.mem_cons_self
      have here : step .script c = some ([.char c], .script) := by
        rw [step, if_neg tag, if_neg zero]
      exact .cons here (ih fun d hd => plain d (List.mem_cons_of_mem _ hd))

/-- The end of a value that is the last one of its tag. -/
theorem reads_close {tag : Bytes} (plain : tag ∉ rawElements ∧ tag ≠ str "script")
    (before : Attributes) (name value : Bytes) :
    Reads (.value ⟨tag, before, name, value⟩) (str "\">")
      [.start tag (before ++ [(name, value)])] .data := by
  have two : str "\">" = [quote, greater] := by decide
  have closes : step (.value ⟨tag, before, name, value⟩) quote =
      some ([], .afterValue tag (before ++ [(name, value)])) := by
    rw [step, if_pos rfl]
  have ends : step (.afterValue tag (before ++ [(name, value)])) greater =
      some ([.start tag (before ++ [(name, value)])], .data) := by
    rw [step, if_pos rfl, opened, if_neg plain.1, if_neg plain.2]
  rw [two]
  exact .cons closes (.cons ends (.nil _))

/-- Only a zero byte is shown as another one. -/
theorem shown_printable {s : Bytes} (printable : Printable s) : shown s = s := by
  induction s with
  | nil => rfl
  | cons c s ih =>
      have zero : c ≠ 0 := by
        rintro rfl
        exact absurd (printable 0 List.mem_cons_self) (by decide)
      rw [shown, List.flatMap_cons, shownByte, if_neg zero, ← shown,
        ih fun d hd => printable d (List.mem_cons_of_mem _ hd)]
      rfl

/-! Line ends. -/

theorem lineEnds_plain {t : Bytes} (plain : carriageReturn ∉ t) (rest : Bytes) :
    lineEnds false (t ++ rest) = t ++ lineEnds false rest := by
  induction t with
  | nil => rfl
  | cons c t ih =>
      rw [List.mem_cons, not_or] at plain
      rw [List.cons_append, lineEnds, if_neg (Ne.symm plain.1), if_neg (by simp), ih plain.2]
      rfl

/-- Text without carriage returns stays as it is. -/
theorem normalizeNewlines_plain {s : Bytes} (plain : carriageReturn ∉ s) (rest : Bytes) :
    normalizeNewlines (s ++ rest) = s ++ normalizeNewlines rest :=
  lineEnds_plain plain rest

theorem return_htmlReplacer {s : Bytes} (printable : Printable s) :
    carriageReturn ∉ htmlReplacer s := by
  have byte : ∀ c : UInt8, 0x20 ≤ c → carriageReturn ∉ entity c := forall_byte (by decide)
  intro line
  obtain ⟨c, hc, line⟩ := List.mem_flatMap.mp line
  exact byte c (printable c hc) line

/-- A line end does not reach into what follows, if that does not begin with a line
feed. -/
theorem normalizeNewlines_append (s : Bytes) {c : UInt8} (other : c ≠ lineFeed) (rest : Bytes) :
    normalizeNewlines (s ++ c :: rest) = normalizeNewlines s ++ normalizeNewlines (c :: rest) := by
  have behind : ∀ after, lineEnds after (s ++ c :: rest) =
      lineEnds after s ++ lineEnds false (c :: rest) := by
    induction s with
    | nil =>
        intro after
        simp [lineEnds, other]
    | cons d s ih =>
        intro after
        rw [List.cons_append, lineEnds, lineEnds]
        split
        · rw [ih, List.cons_append]
        · split
          · exact ih false
          · rw [ih, List.cons_append]
  exact behind false

/-- Line ends are no business of the escaper. -/
theorem normalizeNewlines_htmlReplacer (s : Bytes) :
    normalizeNewlines (htmlReplacer s) = htmlReplacer (normalizeNewlines s) := by
  have ends : entity carriageReturn = [carriageReturn] ∧ entity lineFeed = [lineFeed] := by decide
  have others : ∀ c : UInt8, c = carriageReturn ∨ c = lineFeed ∨
      entity c ≠ [] ∧ carriageReturn ∉ entity c ∧ lineFeed ∉ entity c :=
    forall_byte (by decide)
  have cons : ∀ c s, htmlReplacer (c :: s) = entity c ++ htmlReplacer s := fun _ _ => rfl
  have behind : ∀ after, lineEnds after (htmlReplacer s) = htmlReplacer (lineEnds after s) := by
    induction s with
    | nil => exact fun _ => rfl
    | cons c s ih =>
        intro after
        rw [cons]
        cases others c with
        | inl line =>
            rw [line, ends.1, List.singleton_append, lineEnds, lineEnds, if_pos rfl, if_pos rfl, ih,
              cons, ends.2, List.singleton_append]
        | inr others =>
            have other : c ≠ carriageReturn := by
              rintro rfl
              cases others with
              | inl feed => cases feed
              | inr others => exact others.2.1 (by decide)
            cases others with
            | inl feed =>
                rw [feed] at other ⊢
                rw [ends.2, List.singleton_append, lineEnds, lineEnds, if_neg other, if_neg other,
                  ih]
                split
                · rfl
                · rw [cons, ends.2, List.singleton_append]
            | inr others =>
                obtain ⟨some, noReturn, noFeed⟩ := others
                have feed : c ≠ lineFeed := by
                  rintro rfl
                  exact noFeed (by decide)
                obtain ⟨d, t, form⟩ := List.exists_cons_of_ne_nil some
                rw [lineEnds, if_neg other, if_neg fun both => feed both.1, cons, form, ← ih]
                rw [form, List.mem_cons, not_or] at noReturn noFeed
                rw [List.cons_append, lineEnds, if_neg (Ne.symm noReturn.1),
                  if_neg fun both => noFeed.1 both.1.symm, lineEnds_plain noReturn.2,
                  List.cons_append]
  exact behind false

/-- Of a text with an escaped part only that part may hold line ends of its own. -/
theorem normalizeNewlines_hole {front : Bytes} (plain : carriageReturn ∉ front) (s : Bytes)
    {c : UInt8} (other : c ≠ lineFeed) (back : Bytes) :
    normalizeNewlines (front ++ (htmlReplacer s ++ c :: back)) =
      front ++ (htmlReplacer (normalizeNewlines s) ++ normalizeNewlines (c :: back)) := by
  rw [normalizeNewlines_plain plain, normalizeNewlines_append _ other,
    normalizeNewlines_htmlReplacer]

end Html
