import FileSharing.Net.Json
import Mathlib.Data.Nat.Digits.Lemmas

/-!
What package `encoding/json` writes is read back: a string as valid UTF-8, and an
integer of 64 bits as it was.
-/

namespace Net

/-! Strings. A written string is a row of pieces: a character of its own, or an
escape that begins with a backslash. -/

def isPlain (q c : UInt8) : Bool := c ≠ q && c ≠ backslash && 0x20 ≤ c

def isPiece (q : UInt8) : Bytes → Bool
  | c :: d :: t =>
    if c = backslash then 0x20 ≤ d && t.all (isPlain q) else (c :: d :: t).all (isPlain q)
  | t => t.all (isPlain q)

/-- No control characters. -/
def Printable (s : Bytes) : Prop := ∀ c ∈ s, 0x20 ≤ c

/-- The piece stands for the character. -/
def spells (r : Scalar) : List Scalar → Bool
  | [x] => x = r && x.ascii? ≠ some backslash
  | [b, e] => b.ascii? = some backslash && e.ascii? ≠ some 0x75 && simpleEscape e = some r
  | [b, u, w, x, y, z] =>
    b.ascii? = some backslash && u.ascii? = some 0x75 &&
      match hex4 w x y z with
      | some n => !(0xD800 ≤ n && n < 0xDC00) && encodeRune n = r
      | none => false
  | _ => false

theorem scanString_plain {q : UInt8} {t : Bytes} (plain : t.all (isPlain q) = true) (s : Bytes) :
    scanString q false (t ++ s) = (scanString q false s).map fun r => (t ++ r.1, r.2) := by
  induction t with
  | nil => simp
  | cons c t ih =>
      simp only [List.all_cons, Bool.and_eq_true] at plain
      have byte := plain.1
      simp only [isPlain, Bool.and_eq_true, decide_eq_true_eq] at byte
      have control : ¬c < 0x20 := by
        simp only [UInt8.lt_iff_toNat_lt, UInt8.le_iff_toNat_le] at byte ⊢
        omega
      rw [List.cons_append, scanString, if_neg byte.1.1, if_neg control]
      simp only [byte.1.2, decide_false]
      rw [ih plain.2, Option.map_map]
      rfl

theorem scanString_piece {q : UInt8} (delimiter : q ≠ backslash) {t : Bytes}
    (piece : isPiece q t = true) (s : Bytes) :
    scanString q false (t ++ s) = (scanString q false s).map fun r => (t ++ r.1, r.2) := by
  cases t with
  | nil => exact scanString_plain piece s
  | cons c t =>
      cases t with
      | nil => exact scanString_plain piece s
      | cons d t =>
          rw [isPiece] at piece
          split at piece
          · rename_i escape
            subst escape
            simp only [Bool.and_eq_true, decide_eq_true_eq] at piece
            have control : ¬d < 0x20 := by
              simp only [UInt8.lt_iff_toNat_lt, UInt8.le_iff_toNat_le] at piece ⊢
              omega
            rw [List.cons_append, List.cons_append, scanString, if_neg (Ne.symm delimiter),
              if_neg (by decide)]
            simp only [decide_true]
            rw [scanString, if_neg control, scanString_plain piece.2, Option.map_map,
              Option.map_map]
            rfl
          · exact scanString_plain piece s

theorem unescapeJson_spells {r : Scalar} {t : List Scalar} (spelled : spells r t = true)
    (rs : List Scalar) :
    unescapeJson none (t ++ rs) = (unescapeJson none rs).map (r :: ·) := by
  unfold spells at spelled
  split at spelled
  · simp only [Bool.and_eq_true, decide_eq_true_eq] at spelled
    obtain ⟨rfl, plain⟩ := spelled
    rw [List.cons_append, unescapeJson.eq_def]
    simp only [if_neg plain]
    rfl
  · simp only [Bool.and_eq_true, decide_eq_true_eq] at spelled
    obtain ⟨⟨escape, letter⟩, simple⟩ := spelled
    rw [List.cons_append, List.cons_append, unescapeJson.eq_def]
    simp only [if_pos escape, if_neg letter, simple]
    rfl
  · rename_i b u w x y z
    simp only [Bool.and_eq_true, decide_eq_true_eq] at spelled
    obtain ⟨⟨escape, letter⟩, code⟩ := spelled
    cases digits : hex4 w x y z with
    | none => simp [digits] at code
    | some n =>
        simp only [digits, Bool.and_eq_true, Bool.not_eq_true', Bool.and_eq_false_iff,
          decide_eq_true_eq, decide_eq_false_iff_not] at code
        have alone : ¬(0xD800 ≤ n ∧ n < 0xDC00) := by omega
        simp only [List.cons_append, List.nil_append]
        rw [unescapeJson.eq_def]
        simp only [if_pos escape, if_pos letter, digits, if_neg alone, code.2]
  · cases spelled

/-- A row of plain bytes is a piece. -/
theorem isPiece_plain {q : UInt8} {t : Bytes} (plain : t.all (isPlain q) = true) :
    isPiece q t = true := by
  cases t with
  | nil => rfl
  | cons c t =>
      cases t with
      | nil => exact plain
      | cons d t =>
          have first : c ≠ backslash := by
            rintro rfl
            simp [isPlain] at plain
          rw [isPiece, if_neg first]
          exact plain

theorem printable_append {s t : Bytes} (hs : Printable s) (ht : Printable t) : Printable (s ++ t) :=
  fun c hc => (List.mem_append.mp hc).elim (hs c) (ht c)

theorem printable_piece {q : UInt8} {t : Bytes} (piece : isPiece q t = true) : Printable t := by
  have plain : ∀ {t : Bytes}, t.all (isPlain q) = true → Printable t := by
    intro t plain c hc
    have byte := List.all_eq_true.mp plain c hc
    simp only [isPlain, Bool.and_eq_true, decide_eq_true_eq] at byte
    exact byte.2
  cases t with
  | nil => exact fun c hc => absurd hc List.not_mem_nil
  | cons c t =>
      cases t with
      | nil => exact plain piece
      | cons d t =>
          rw [isPiece] at piece
          split at piece
          · rename_i escape
            rw [Bool.and_eq_true, decide_eq_true_eq] at piece
            intro e he
            cases List.mem_cons.mp he with
            | inl first =>
                rw [first, escape]
                decide
            | inr rest =>
                cases List.mem_cons.mp rest with
                | inl letter => exact letter ▸ piece.1
                | inr rest => exact plain piece.2 e rest
          · exact plain piece

/-- A text is read back whose pieces stand for its characters. -/
theorem readString_flatMap {α : Type} {q : UInt8} (delimiter : q ≠ backslash) {f : α → List Scalar}
    {g : α → Scalar} {l : List α}
    (pieces : ∀ a ∈ l, isPiece q (written (f a)) = true ∧ spells (g a) (f a) = true)
    (rest : Bytes) :
    readString q (written (l.flatMap f) ++ q :: rest) = some (l.map g, rest) := by
  have both : scanString q false (written (l.flatMap f) ++ q :: rest) =
        some (written (l.flatMap f), rest) ∧
      unescapeJson none (l.flatMap f) = some (l.map g) := by
    induction l with
    | nil => exact ⟨by simp [scanString, written], rfl⟩
    | cons a l ih =>
        have piece := pieces a List.mem_cons_self
        have later := ih fun b hb => pieces b (List.mem_cons_of_mem _ hb)
        rw [List.flatMap_cons, written_append, List.append_assoc,
          scanString_piece delimiter piece.1, later.1, unescapeJson_spells piece.2, later.2]
        exact ⟨rfl, rfl⟩
  rw [readString, both.1]
  simp only [Option.bind_eq_bind, Option.bind_some, scalars_written, both.2]

/-- A character of more than one byte is a piece between quotes of either kind. -/
theorem jsonWide_piece {q : UInt8} (quotes : q = quote ∨ q = 0x27) {r : Rune}
    (proper : r.proper = true) (long : ∀ c, r ≠ .ascii c) :
    isPiece q (written (jsonWide r)) = true ∧ spells r.valid (jsonWide r) = true := by
  have high : ∀ c : UInt8, ¬c.toNat < 0x80 → isPlain q c = true := by
    cases quotes with
    | inl double =>
        rw [double]
        exact forall_byte (by decide)
    | inr single =>
        rw [single]
        exact forall_byte (by decide)
  rw [jsonWide]
  split
  · rename_i separator
    rw [separator]
    cases quotes with
    | inl double => exact double ▸ by decide
    | inr single => exact single ▸ by decide
  · split
    · rename_i separator
      rw [separator]
      cases quotes with
      | inl double => exact double ▸ by decide
      | inr single => exact single ▸ by decide
    · have same : r.valid.rune = r := by rw [Rune.valid, dif_pos proper]
      have unescaped : r.valid.ascii? ≠ some backslash := by
        rw [Scalar.ascii?, same]
        cases r with
        | ascii c => exact absurd rfl (long c)
        | _ => simp
      refine ⟨isPiece_plain ?_, by simp [spells, unescaped]⟩
      rw [written, List.flatMap_cons, List.flatMap_nil, List.append_nil, same, List.all_eq_true]
      intro c hc
      have large := high_source proper long c hc
      exact high c (by omega)

/-- What a rune is written as: a piece that stands for the character it is read as. -/
theorem jsonRune_piece {r : Rune} (read : r.proper = true ∨ ∃ c, r = .invalid c) :
    isPiece quote (written (jsonRune r)) = true ∧ spells r.valid (jsonRune r) = true := by
  have escaped : ∀ c : UInt8, c < 0x80 →
      isPiece quote (written (jsonRune (.ascii c))) = true ∧
        spells (Rune.ascii c).valid (jsonRune (.ascii c)) = true := forall_byte (by decide)
  cases r with
  | ascii c =>
      cases read with
      | inl proper => exact escaped c (by simpa [Rune.proper] using proper)
      | inr stray =>
          obtain ⟨c, stray⟩ := stray
          cases stray
  | invalid c =>
      have stray : spells replacement (ascii (str "\\ufffd")) = true := by decide
      exact ⟨rfl, stray⟩
  | _ => exact jsonWide_piece (.inl rfl) (read.resolve_right (by simp)) (by simp)

/-- A written string is read back without its stray bytes, whatever follows it. -/
theorem readString_written (s rest : Bytes) :
    readString quote (written (jsonText s) ++ quote :: rest) = some (scalars s, rest) :=
  readString_flatMap (by decide) (fun r hr => jsonRune_piece (runes_cases s r hr)) rest

/-! Integers. -/

theorem printable_numeral {s : Bytes} (numeral : ∀ c ∈ s, c = 0x2D ∨ isDigit c = true) :
    Printable s := by
  have byte : ∀ c : UInt8, (c = 0x2D ∨ isDigit c = true) → 0x20 ≤ c := forall_byte (by decide)
  exact fun c hc => byte c (numeral c hc)

theorem printable_digits {s : Bytes} (digits : ∀ c ∈ s, isDigit c = true) : Printable s :=
  printable_numeral fun c hc => .inr (digits c hc)

theorem digitsValue_append (s : Bytes) (c : UInt8) :
    digitsValue (s ++ [c]) = 10 * digitsValue s + (c.toNat - 0x30) := by
  rw [digitsValue, List.foldl_append]
  rfl

theorem digit_toNat {d : Nat} (small : d < 10) : (UInt8.ofNat (0x30 + d)).toNat = 0x30 + d := by
  rw [UInt8.toNat_ofNat']
  omega

theorem digitsValue_digits {ds : List Nat} (small : ∀ d ∈ ds, d < 10) :
    digitsValue (ds.map fun d => UInt8.ofNat (0x30 + d)).reverse = Nat.ofDigits 10 ds := by
  induction ds with
  | nil => rfl
  | cons d ds ih =>
      have rest := ih fun d hd => small d (List.mem_cons_of_mem _ hd)
      have first := small d List.mem_cons_self
      rw [List.map_cons, List.reverse_cons, digitsValue_append, rest, digit_toNat first,
        Nat.ofDigits_cons]
      omega

theorem digitsValue_decimal (n : Nat) : digitsValue (decimal n) = n := by
  rw [decimal]
  split
  · rename_i zero
    rw [zero]
    rfl
  · rw [digitsValue_digits fun d hd => Nat.digits_lt_base (by decide) hd, Nat.ofDigits_digits]

theorem isDigit_digit {d : Nat} (small : d < 10) : isDigit (UInt8.ofNat (0x30 + d)) = true := by
  simp only [isDigit, Bool.and_eq_true, decide_eq_true_eq, UInt8.le_iff_toNat_le,
    digit_toNat small, UInt8.reduceToNat]
  omega

theorem decimal_digits (n : Nat) : ∀ c ∈ decimal n, isDigit c = true := by
  rw [decimal]
  split
  · intro c hc
    rw [List.mem_singleton.mp hc]
    exact isDigit_digit (d := 0) (by decide)
  · intro c hc
    obtain ⟨d, hd, rfl⟩ := List.mem_map.mp (List.mem_reverse.mp hc)
    exact isDigit_digit (Nat.digits_lt_base (by decide) hd)

theorem decimalInt_bytes (n : Int) : ∀ c ∈ decimalInt n, c = 0x2D ∨ isDigit c = true := by
  cases n with
  | ofNat n => exact fun c hc => .inr (decimal_digits n c hc)
  | negSucc n =>
      intro c hc
      exact (List.mem_cons.mp hc).imp id (decimal_digits (n + 1) c)

theorem printable_decimalInt (n : Int) : Printable (decimalInt n) :=
  printable_numeral (decimalInt_bytes n)

/-- No number begins with a zero, but zero itself. -/
theorem decimal_first {n : Nat} (positive : n ≠ 0) :
    ∃ c t, decimal n = c :: t ∧ c ≠ 0x30 ∧ isDigit c = true := by
  have nonempty := Nat.digits_ne_nil_iff_ne_zero (b := 10).mpr positive
  have last := Nat.getLast_digit_ne_zero 10 positive
  have small : (Nat.digits 10 n).getLast nonempty < 10 :=
    Nat.digits_lt_base (by decide) (List.getLast_mem nonempty)
  refine ⟨UInt8.ofNat (0x30 + (Nat.digits 10 n).getLast nonempty),
    ((Nat.digits 10 n).dropLast.map fun d => UInt8.ofNat (0x30 + d)).reverse, ?_, ?_,
    isDigit_digit small⟩
  · rw [decimal, if_neg positive]
    nth_rewrite 1 [← List.dropLast_append_getLast nonempty]
    rw [List.map_append, List.reverse_append]
    rfl
  · intro zero
    have value := digit_toNat small
    rw [zero] at value
    have : (0x30 : UInt8).toNat = 0x30 := rfl
    omega

theorem decimal_ne_nil (n : Nat) : decimal n ≠ [] := by
  by_cases zero : n = 0
  · simp [decimal, zero]
  · obtain ⟨c, t, first, -⟩ := decimal_first zero
    simp [first]

/-- A byte with which no number goes on. -/
def endsNumber (c : UInt8) : Bool := !isDigit c && c ≠ 0x2E && c ≠ 0x65 && c ≠ 0x45

theorem readDigits_decimal (n : Nat) {c : UInt8} (ends : isDigit c = false) (s : Bytes) :
    readDigits (decimal n ++ c :: s) = some (decimal n, c :: s) := by
  have stops : ¬isDigit c = true := by simp [ends]
  have run : (decimal n ++ c :: s).takeWhile isDigit = decimal n := by
    rw [List.takeWhile_append_of_pos (decimal_digits n), List.takeWhile_cons_of_neg stops,
      List.append_nil]
  rw [readDigits, run, if_neg (decimal_ne_nil n), List.dropWhile_append_of_pos (decimal_digits n),
    List.dropWhile_cons_of_neg stops]

theorem readInteger_decimal (n : Nat) {c : UInt8} (ends : isDigit c = false) (s : Bytes) :
    readInteger (decimal n ++ c :: s) = some (decimal n, c :: s) := by
  by_cases zero : n = 0
  · rw [zero]
    rfl
  · obtain ⟨d, t, first, leading, -⟩ := decimal_first zero
    have read := readDigits_decimal n ends s
    rw [first] at read ⊢
    rw [List.cons_append, readInteger, if_neg leading]
    exact read

theorem readSign_decimal (n : Nat) (s : Bytes) :
    readSign [0x2D] (decimal n ++ s) = ([], decimal n ++ s) := by
  obtain ⟨c, t, first⟩ := List.exists_cons_of_ne_nil (decimal_ne_nil n)
  have digit := decimal_digits n c (first ▸ List.mem_cons_self)
  have unsigned : c ≠ 0x2D := by
    rintro rfl
    cases digit
  rw [first, List.cons_append, readSign, if_neg (by simpa using unsigned)]

theorem readNumber_decimalInt (n : Int) {c : UInt8} (ends : endsNumber c = true) (s : Bytes) :
    readNumber (decimalInt n ++ c :: s) = some (decimalInt n, c :: s) := by
  simp only [endsNumber, Bool.and_eq_true, Bool.not_eq_true', decide_eq_true_eq] at ends
  have tail : readFraction (c :: s) = some ([], c :: s) ∧
      readExponent (c :: s) = some ([], c :: s) := by
    rw [readFraction, readExponent, if_neg ends.1.1.2, if_neg (by simp [ends.1.2, ends.2])]
    exact ⟨rfl, rfl⟩
  cases n with
  | ofNat n =>
      rw [decimalInt, readNumber, readSign_decimal]
      simp [readInteger_decimal n ends.1.1.1 s, tail]
  | negSucc n =>
      rw [decimalInt, readNumber]
      simp [readSign, readInteger_decimal (n + 1) ends.1.1.1 s, tail]

/-- An integer of 64 bits is read back. -/
theorem parseInt64_decimalInt {n : Int} (fits : Int64 n) : parseInt64 (decimalInt n) = some n := by
  have digits : ∀ n, (decimal n).all isDigit = true := fun n =>
    List.all_eq_true.mpr (decimal_digits n)
  cases n with
  | ofNat n =>
      have unsigned := readSign_decimal n []
      simp only [List.append_nil] at unsigned
      rw [decimalInt, parseInt64, unsigned]
      simp only [decimal_ne_nil, digits, digitsValue_decimal, not_true_eq_false, or_self, if_false,
        if_true]
      exact if_pos fits
  | negSucc n =>
      have value : -((n + 1 : Nat) : Int) = Int.negSucc n := rfl
      rw [decimalInt, parseInt64]
      simp only [readSign, List.mem_singleton, if_true, decimal_ne_nil, digits, not_true_eq_false,
        or_self, if_false, List.cons_ne_nil, digitsValue_decimal, value]
      exact if_pos fits

theorem parseInt64_fits {s : Bytes} {n : Int} (read : parseInt64 s = some n) : Int64 n := by
  have checked : ∀ m : Int, (if Int64 m then some m else none) = some n → Int64 n := by
    intro m read
    by_cases fits : Int64 m
    · rw [if_pos fits] at read
      exact Option.some_inj.mp read ▸ fits
    · rw [if_neg fits] at read
      cases read
  rw [parseInt64] at read
  by_cases bad : (readSign [0x2D] s).2 = [] ∨ ¬(readSign [0x2D] s).2.all isDigit = true
  · rw [if_pos bad] at read
    cases read
  · rw [if_neg bad] at read
    exact checked _ read

/-! Values. -/

theorem dropSpace_cons {c : UInt8} (other : isJsonSpace c = false) (s : Bytes) :
    dropSpace (c :: s) = c :: s :=
  List.dropWhile_cons_of_neg (by simp [other])

theorem decimalInt_ne_nil (n : Int) : decimalInt n ≠ [] := by
  cases n with
  | ofNat n => exact decimal_ne_nil n
  | negSucc n => exact List.cons_ne_nil _ _

theorem readTree_decimalInt (fuel depth : Nat) (n : Int) {c : UInt8} (ends : endsNumber c = true)
    (s : Bytes) :
    readTree (fuel + 1) depth (decimalInt n ++ c :: s) = some (.number (decimalInt n), c :: s) := by
  obtain ⟨d, t, first⟩ := List.exists_cons_of_ne_nil (decimalInt_ne_nil n)
  have digit := decimalInt_bytes n d (first ▸ List.mem_cons_self)
  have other : ∀ d : UInt8, (d = 0x2D ∨ isDigit d = true) →
      isJsonSpace d = false ∧ d ∉ ([0x7B, 0x5B, quote, 0x6E, 0x74, 0x66] : Bytes) :=
    forall_byte (by decide)
  obtain ⟨space, other⟩ := other d digit
  simp only [List.mem_cons, List.not_mem_nil, or_false, not_or] at other
  have read := readNumber_decimalInt n ends s
  rw [first] at read ⊢
  rw [readTree, List.cons_append, dropSpace_cons space]
  simp only [other, if_false]
  rw [← List.cons_append, read]
  rfl

theorem readTree_string (fuel depth : Nat) (text rest : Bytes) :
    readTree (fuel + 1) depth (jsonString text ++ rest) = some (.string (scalars text), rest) := by
  rw [readTree, jsonString, List.cons_append, List.cons_append, dropSpace_cons (by decide),
    List.append_assoc]
  simp only [show quote ≠ 0x7B ∧ quote ≠ 0x5B by decide, if_false, if_true, List.nil_append,
    List.cons_append, readString_written]
  rfl

/-- The last field of an object. -/
theorem readFields_last {fuel depth : Nat} (key : Bytes) {v : Bytes} {value : Json} {rest : Bytes}
    (read : readTree fuel depth (v ++ 0x7D :: rest) = some (value, 0x7D :: rest)) :
    readFields (fuel + 1) depth (jsonString key ++ colon :: (v ++ 0x7D :: rest)) =
      some ([(scalars key, value)], rest) := by
  rw [readFields, jsonString, List.cons_append, List.cons_append, dropSpace_cons (by decide),
    List.append_assoc]
  simp [readString_written, dropSpace_cons (show isJsonSpace colon = false by decide), read,
    dropSpace_cons (show isJsonSpace 0x7D = false by decide)]

/-- A field with others behind it. -/
theorem readFields_cons {fuel depth : Nat} (key : Bytes) {v : Bytes} {value : Json} {rest : Bytes}
    (read : readTree fuel depth (v ++ 0x2C :: rest) = some (value, 0x2C :: rest)) :
    readFields (fuel + 1) depth (jsonString key ++ colon :: (v ++ 0x2C :: rest)) =
      (readFields fuel depth rest).map fun r => ((scalars key, value) :: r.1, r.2) := by
  rw [readFields, jsonString, List.cons_append, List.cons_append, dropSpace_cons (by decide),
    List.append_assoc]
  simp [readString_written, dropSpace_cons (show isJsonSpace colon = false by decide), read,
    dropSpace_cons (show isJsonSpace 0x2C = false by decide)]
  cases readFields fuel depth rest <;> rfl

theorem foldlM_keeps {α β : Type} {f : β → α → Option β} {P : β → Prop}
    (keep : ∀ b a b', P b → f b a = some b' → P b') {l : List α} {b b' : β} (start : P b)
    (fold : l.foldlM f b = some b') : P b' := by
  induction l generalizing b with
  | nil =>
      cases fold
      exact start
  | cons a l ih =>
      rw [List.foldlM_cons] at fold
      obtain ⟨b₁, step, rest⟩ := Option.bind_eq_some_iff.mp fold
      exact ih (keep b a b₁ start step) rest

end Net
