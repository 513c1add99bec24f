import FileSharing.Net.Disposition
import Mathlib.Data.List.Infix

/-!
Reading a multipart body. `cutAt` finds the first occurrence of a separator; the
reader cuts the body at its boundary and reads the header of every part. A body
is read back as the parts it was written from, as long as the boundary occurs in
none of them.
-/

namespace Net

section Cut
variable {α : Type} [DecidableEq α]

/-- The text before the first occurrence of a separator, and the text behind it. -/
def cutAt (sep : List α) : List α → Option (List α × List α)
  | [] => if sep = [] then some ([], []) else none
  | c :: s =>
    if sep <+: c :: s then some ([], (c :: s).drop sep.length)
    else (cutAt sep s).map fun r => (c :: r.1, r.2)

/-- A separator is found where it stands if it does not stand in the text before
it, and if it cannot overlap with itself. -/
theorem cutAt_append {c : α} {sep s : List α} (unique : c ∉ sep) (fresh : ¬c :: sep <:+: s)
    (rest : List α) : cutAt (c :: sep) (s ++ c :: sep ++ rest) = some (s, rest) := by
  induction s with
  | nil => simp [cutAt]
  | cons d s ih =>
      have later : ¬c :: sep <:+: s := fun h => fresh (h.trans (List.suffix_cons d s).isInfix)
      have elsewhere : ¬c :: sep <+: d :: (s ++ c :: sep ++ rest) := by
        intro here
        obtain ⟨t, here⟩ := here
        have split : c :: sep ++ t = d :: s ++ (c :: sep ++ rest) := by
          rw [here]
          simp
        obtain ⟨more, inside, -⟩ | ⟨more, across, start⟩ := List.append_eq_append_iff.mp split
        · exact fresh ⟨[], more, by rw [inside, List.nil_append]⟩
        · cases more with
          | nil => exact fresh ⟨[], [], by rw [across]; simp⟩
          | cons e more =>
              rw [List.cons_append, List.cons_append, List.cons.injEq] at start
              rw [← start.1, List.cons_append, List.cons.injEq] at across
              exact unique (by rw [across.2]; simp)
      rw [List.cons_append, List.cons_append, cutAt, if_neg elsewhere, ih later]
      rfl

end Cut

def lineEnd : Bytes := [0x0D, 0x0A]

/-- The lines up to an empty one, and what comes behind it. -/
def skipLines : Nat → Bytes → Option Bytes
  | 0, _ => none
  | fuel + 1, s =>
    match cutAt lineEnd s with
    | none => none
    | some (line, rest) => if line = [] then some rest else skipLines fuel rest

structure FormPart where
  disposition : Disposition
  content : Bytes
deriving DecidableEq

/-- The header of a part and what comes behind it. -/
def readHeader (s : Bytes) : Option (Disposition × Bytes) := do
  let s ← s.dropPrefix? (str "Content-Disposition: ")
  let (d, s) ← readDisposition .lenient s
  let (line, s) ← cutAt lineEnd s
  if line = [] then do
    let s ← skipLines s.length s
    some (d, s)
  else none

/-- The parts behind a delimiter, up to the one that closes the body. -/
def readParts (sep : Bytes) : Nat → Bytes → Option (List FormPart)
  | 0, _ => none
  | fuel + 1, s =>
    if str "--" <+: s then some []
    else do
      let s ← s.dropPrefix? lineEnd
      let (d, s) ← readHeader s
      let (content, s) ← cutAt sep s
      let parts ← readParts sep fuel s
      some (⟨d, content⟩ :: parts)

def delimiter (boundary : Bytes) : Bytes := lineEnd ++ str "--" ++ boundary

/-- The parts of a body. A body may start with its delimiter, without the end of
a line before it. -/
def readMultipart (boundary body : Bytes) : Option (List FormPart) := do
  let (_, s) ← cutAt (delimiter boundary) (lineEnd ++ body)
  readParts (delimiter boundary) s.length s

/-- A header that is read as this disposition, whatever comes behind it. -/
def Heads (d : Disposition) (header : Bytes) : Prop :=
  ∀ s, readHeader (header ++ s) = some (d, s)

/-- A boundary that delimits these contents. -/
structure Delimits (boundary : Bytes) (contents : List Bytes) : Prop where
  line : 0x0D ∉ boundary
  fresh : ∀ content ∈ contents, ¬boundary <:+: content

/-- What a writer puts behind a delimiter: parts, each behind its header. -/
def writeParts (boundary : Bytes) : List (Bytes × FormPart) → Bytes
  | [] => str "--" ++ lineEnd
  | (header, part) :: parts =>
    lineEnd ++ (header ++ (part.content ++ delimiter boundary ++ writeParts boundary parts))

section Lines
variable {line : Bytes} (hline : 0x0D ∉ line)
include hline

theorem cutAt_lineEnd (rest : Bytes) : cutAt lineEnd (line ++ lineEnd ++ rest) = some (line, rest) := by
  refine cutAt_append (by decide) ?_ rest
  intro inside
  exact hline (inside.subset List.mem_cons_self)

/-- A header of two lines, the second of which says nothing of the disposition. -/
theorem heads_lines (nonempty : line ≠ []) {d : Disposition} {text : Bytes}
    (read : ∀ s, readDisposition .lenient (text ++ (lineEnd ++ s)) = some (d, lineEnd ++ s)) :
    Heads d (str "Content-Disposition: " ++ text ++ lineEnd ++ line ++ lineEnd ++ lineEnd) := by
  intro s
  have skipped : ∀ fuel, skipLines (fuel + 2) (line ++ lineEnd ++ (lineEnd ++ s)) = some s := by
    intro fuel
    have empty := @cutAt_lineEnd [] List.not_mem_nil s
    rw [List.nil_append] at empty
    simp only [skipLines, cutAt_lineEnd hline, if_neg nonempty, empty, if_true]
  have enough : ∃ fuel, (line ++ lineEnd ++ (lineEnd ++ s)).length = fuel + 2 :=
    ⟨line.length + 2 + s.length, by simp [lineEnd]; omega⟩
  obtain ⟨fuel, enough⟩ := enough
  have start := @cutAt_lineEnd [] List.not_mem_nil (line ++ lineEnd ++ (lineEnd ++ s))
  rw [List.nil_append] at start
  have whole : str "Content-Disposition: " ++ text ++ lineEnd ++ line ++ lineEnd ++ lineEnd ++ s =
      str "Content-Disposition: " ++ (text ++ (lineEnd ++ (line ++ lineEnd ++ (lineEnd ++ s)))) := by
    simp
  rw [whole, readHeader, List.dropPrefix?_append_of_beq _ (by simp)]
  simp only [Option.bind_eq_bind, Option.bind_some, read, start, if_true, enough, skipped]

end Lines

section Read
variable {boundary : Bytes}

theorem cutAt_delimiter {content : Bytes} (hline : 0x0D ∉ boundary)
    (fresh : ¬boundary <:+: content) (rest : Bytes) :
    cutAt (delimiter boundary) (content ++ delimiter boundary ++ rest) = some (content, rest) := by
  refine @cutAt_append _ _ 0x0D (0x0A :: str "--" ++ boundary) content ?_ ?_ rest
  · rw [List.mem_append, not_or]
    exact ⟨by decide, hline⟩
  · intro inside
    exact fresh ((List.suffix_append (0x0D :: 0x0A :: str "--") boundary).isInfix.trans inside)

theorem readParts_writeParts {parts : List (Bytes × FormPart)}
    (heads : ∀ p ∈ parts, Heads p.2.disposition p.1)
    (delimits : Delimits boundary (parts.map (·.2.content))) {fuel : Nat}
    (enough : parts.length < fuel) :
    readParts (delimiter boundary) fuel (writeParts boundary parts) = some (parts.map (·.2)) := by
  induction parts generalizing fuel with
  | nil =>
      cases fuel with
      | zero => cases enough
      | succ fuel => rw [writeParts, readParts, if_pos (List.prefix_append _ _), List.map_nil]
  | cons p parts ih =>
      cases fuel with
      | zero => cases enough
      | succ fuel =>
          obtain ⟨header, part⟩ := p
          have fresh := delimits.fresh part.content (by simp)
          have rest := ih (fun q hq => heads q (List.mem_cons_of_mem _ hq))
            ⟨delimits.line, fun c hc => delimits.fresh c (List.mem_cons_of_mem _ hc)⟩
            (Nat.lt_of_succ_lt_succ enough)
          have unclosed : ¬str "--" <+: writeParts boundary ((header, part) :: parts) := by
            rintro ⟨t, h⟩
            cases h
          rw [readParts, if_neg unclosed, writeParts, List.dropPrefix?_append_of_beq _ (by simp)]
          simp only [Option.bind_eq_bind, Option.bind_some, heads _ List.mem_cons_self _,
            cutAt_delimiter delimits.line fresh, rest, List.map_cons]

theorem length_writeParts (boundary : Bytes) (parts : List (Bytes × FormPart)) :
    parts.length < (writeParts boundary parts).length := by
  induction parts with
  | nil => exact Nat.zero_lt_succ _
  | cons p parts ih =>
      simp only [writeParts, List.length_cons, List.length_append, lineEnd]
      omega

/-- Reading is the inverse of writing, with or without the end of a line before
the first delimiter. -/
theorem readMultipart_writeParts {parts : List (Bytes × FormPart)} {lead : Bytes}
    (hlead : lead = [] ∨ lead = lineEnd) (heads : ∀ p ∈ parts, Heads p.2.disposition p.1)
    (delimits : Delimits boundary (parts.map (·.2.content))) :
    readMultipart boundary (lead ++ (str "--" ++ boundary ++ writeParts boundary parts)) =
      some (parts.map (·.2)) := by
  have swap : lineEnd ++ (lead ++ (str "--" ++ boundary ++ writeParts boundary parts)) =
      lead ++ delimiter boundary ++ writeParts boundary parts := by
    obtain rfl | rfl := hlead <;> simp [delimiter]
  have found : cutAt (delimiter boundary) (lead ++ delimiter boundary ++ writeParts boundary parts) =
      some (lead, writeParts boundary parts) := by
    refine @cutAt_append _ _ 0x0D (0x0A :: str "--" ++ boundary) lead ?_ ?_ _
    · rw [List.mem_append, not_or]
      exact ⟨by decide, delimits.line⟩
    · intro inside
      have long := inside.length_le
      have short : lead.length ≤ 2 := by
        obtain rfl | rfl := hlead <;> decide
      have dashes : (str "--").length = 2 := by decide
      simp only [List.length_cons, List.length_append, dashes] at long
      omega
  rw [readMultipart, swap, found]
  exact readParts_writeParts heads delimits (length_writeParts boundary parts)

end Read
end Net
