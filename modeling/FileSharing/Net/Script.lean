import FileSharing.Net.JsonRead

/-!
Values that `html/template` writes into a script, and the calls of functions that a
script makes. A written string is read back, and no text leaves the quotes.
-/

namespace Script
open Net

/-- jsValEscaper on an integer, with spaces that keep it from its neighbours. -/
def jsValEscaper (n : Int) : Bytes := space :: decimalInt n ++ [space]

/-- jsStrReplacementTable, at one byte. -/
def jsAscii (c : UInt8) : Bytes :=
  if c = 0x09 then str "\\t"
  else if c = 0x0A then str "\\n"
  else if c = 0x0C then str "\\f"
  else if c = 0x0D then str "\\r"
  else if c = slash ∨ c = backslash then [backslash, c]
  else if c < 0x20 ∨ c = quote ∨ c = 0x26 ∨ c = 0x27 ∨ c = 0x2B ∨ c = 0x3C ∨ c = 0x3E then
    str "\\u00" ++ [lowerHex (c.toNat / 16), lowerHex (c.toNat % 16)]
  else [c]

def jsRune : Scalar → List Scalar
  | ⟨.ascii c, _⟩ => ascii (jsAscii c)
  | r => jsonWide r.rune

/-- jsStrEscaper on valid text. -/
def jsStrEscaper (s : List Scalar) : List Scalar := s.flatMap jsRune

example : written (jsStrEscaper (ascii (str "it's</a>"))) = str "it\\u0027s\\u003c\\/a\\u003e" := by
  decide

/-! Reading a call. The reader covers calls with integers and strings in single quotes
for arguments, and of the strings those that JSON could write; the lone half of a
surrogate pair is replaced. -/

inductive Argument where
  | number (n : Nat)
  | string (s : List Scalar)
deriving DecidableEq

def readArgument (s : Bytes) : Option (Argument × Bytes) :=
  match dropSpace s with
  | [] => none
  | c :: s =>
    if c = 0x27 then (readString 0x27 s).map fun r => (.string r.1, r.2)
    else (readInteger (c :: s)).map fun r => (.number (digitsValue r.1), r.2)

/-- The arguments up to the closing parenthesis. -/
def readArguments : Nat → Bytes → Option (List Argument × Bytes)
  | 0, _ => none
  | fuel + 1, s => do
    let (argument, s) ← readArgument s
    match dropSpace s with
    | [] => none
    | c :: s =>
      if c = 0x29 then some ([argument], s)
      else if c = 0x2C then
        let (arguments, s) ← readArguments fuel s
        some (argument :: arguments, s)
      else none

/-- A script that is one call: the name of the function and its arguments. -/
def readCall (s : Bytes) : Option (Bytes × List Argument) :=
  match s.takeWhile isAlnum, s.dropWhile isAlnum with
  | first :: name, c :: rest =>
    if isDigit first ∨ c ≠ 0x28 then none
    else
      (readArguments rest.length rest).bind fun r =>
        if dropSpace r.2 = [] then some (first :: name, r.1) else none
  | _, _ => none

example : readCall (str "f( 7 , 'a\\u0026') ") =
    some (str "f", [.number 7, .string (ascii (str "a&"))]) := by
  decide +kernel

theorem jsRune_piece (r : Scalar) :
    isPiece 0x27 (written (jsRune r)) = true ∧ spells r (jsRune r) = true := by
  have escaped : ∀ c : UInt8, c < 0x80 →
      isPiece 0x27 (written (ascii (jsAscii c))) = true ∧
        spells (Rune.ascii c).valid (ascii (jsAscii c)) = true := forall_byte (by decide)
  obtain ⟨r, proper⟩ := r
  have same : r.valid = ⟨r, proper⟩ := by rw [Rune.valid, dif_pos proper]
  cases r with
  | ascii c =>
      have piece := escaped c (by simpa [Rune.proper] using proper)
      rwa [same] at piece
  | invalid c => cases proper
  | _ =>
      have piece := jsonWide_piece (q := 0x27) (.inr rfl) proper (by simp)
      rwa [same] at piece

/-- A written string ends where it was written to end, and is read back. -/
theorem readString_jsStrEscaper (s : List Scalar) (rest : Bytes) :
    readString 0x27 (written (jsStrEscaper s) ++ 0x27 :: rest) = some (s, rest) := by
  have read := readString_flatMap (q := 0x27) (g := id) (by decide)
    (fun r (_ : r ∈ s) => jsRune_piece r) rest
  rwa [List.map_id] at read

theorem printable_jsStrEscaper (s : List Scalar) : Printable (written (jsStrEscaper s)) := by
  induction s with
  | nil => exact fun c hc => absurd hc List.not_mem_nil
  | cons r s ih =>
      rw [jsStrEscaper, List.flatMap_cons, written_append]
      exact printable_append (printable_piece (jsRune_piece r).1) ih

theorem printable_jsValEscaper (n : Int) : Printable (jsValEscaper n) := by
  have blank : Printable [space] := by simp [Printable]
  exact printable_append (printable_append blank (printable_decimalInt n)) blank

theorem dropSpace_blank (s : Bytes) : dropSpace (space :: s) = dropSpace s := rfl

theorem readArgument_number (n : Nat) (rest : Bytes) :
    readArgument (jsValEscaper n ++ rest) = some (.number n, space :: rest) := by
  obtain ⟨c, t, first⟩ := List.exists_cons_of_ne_nil (decimal_ne_nil n)
  have digit := decimal_digits n c (first ▸ List.mem_cons_self)
  have other : ∀ c : UInt8, isDigit c = true → isJsonSpace c = false ∧ c ≠ 0x27 :=
    forall_byte (by decide)
  have read := readInteger_decimal n (c := space) (by decide) rest
  have form : jsValEscaper n = space :: (decimal n ++ [space]) := rfl
  rw [first] at read
  rw [readArgument, form, first, List.cons_append, List.append_assoc, dropSpace_blank,
    List.cons_append, dropSpace_cons (other c digit).1]
  simp only [(other c digit).2, if_false, List.singleton_append, ← List.cons_append, read]
  rw [← first, Option.map_some, digitsValue_decimal]

theorem readArgument_string (s : List Scalar) (rest : Bytes) :
    readArgument (0x27 :: (written (jsStrEscaper s) ++ 0x27 :: rest)) = some (.string s, rest) := by
  rw [readArgument, dropSpace_cons (by decide)]
  simp only [if_true, readString_jsStrEscaper]
  rfl

/-- A call that is written with a number and a string has these for arguments. -/
theorem readCall_written {name : Bytes} (letters : name.all isAlnum = true)
    (named : ∃ c t, name = c :: t ∧ isDigit c = false) (n : Nat) (s : List Scalar) :
    readCall (name ++ 0x28 :: (jsValEscaper n ++ 0x2C :: space :: 0x27 ::
      (written (jsStrEscaper s) ++ [0x27, 0x29]))) = some (name, [.number n, .string s]) := by
  obtain ⟨c, t, rfl, first⟩ := named
  have letters := List.all_eq_true.mp letters
  have stop : ¬isAlnum 0x28 = true := by decide
  have last := readArgument_string s [0x29]
  have head := readArgument_number n
    (0x2C :: space :: 0x27 :: (written (jsStrEscaper s) ++ [0x27, 0x29]))
  rw [readCall, List.takeWhile_append_of_pos letters, List.takeWhile_cons_of_neg stop,
    List.append_nil, List.dropWhile_append_of_pos letters, List.dropWhile_cons_of_neg stop]
  have enough : ∃ fuel, (jsValEscaper n ++ 0x2C :: space :: 0x27 ::
      (written (jsStrEscaper s) ++ [0x27, 0x29])).length = fuel + 2 :=
    ⟨_, by simp only [List.length_append, List.length_cons]; rfl⟩
  obtain ⟨fuel, enough⟩ := enough
  simp only [first, Bool.false_eq_true, false_or, not_true_eq_false, ne_eq, if_false]
  have rest : readArguments (fuel + 1)
      (space :: 0x27 :: (written (jsStrEscaper s) ++ [0x27, 0x29])) = some ([.string s], []) := by
    have behind : readArgument (space :: 0x27 :: (written (jsStrEscaper s) ++ [0x27, 0x29])) =
        some (.string s, [0x29]) := last
    rw [readArguments, behind]
    rfl
  have comma : dropSpace (space :: 0x2C :: space :: 0x27 ::
      (written (jsStrEscaper s) ++ [0x27, 0x29])) =
        0x2C :: space :: 0x27 :: (written (jsStrEscaper s) ++ [0x27, 0x29]) := rfl
  rw [enough, readArguments, head]
  simp [comma, rest]
  rfl

end Script
