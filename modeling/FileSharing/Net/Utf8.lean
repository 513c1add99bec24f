import FileSharing.Net.Percent

/-!
UTF-8 as package `unicode/utf8` reads it: a text is a sequence of runes, and a
byte that belongs to no rune stands for the replacement character.
-/

namespace Net

inductive Rune where
  | ascii (c : UInt8)
  | two (a b : UInt8)
  | three (a b c : UInt8)
  | four (a b c d : UInt8)
  | invalid (c : UInt8)
deriving DecidableEq

def isTail (c : UInt8) : Bool := 0x80 ≤ c && c ≤ 0xBF

/-- The sequences that are neither overlong, nor surrogates, nor beyond the last
code point. -/
def Rune.proper : Rune → Bool
  | .ascii a => a < 0x80
  | .two a b => 0xC2 ≤ a && a ≤ 0xDF && isTail b
  | .three a b c =>
    (if a = 0xE0 then 0xA0 ≤ b && b ≤ 0xBF
      else if a = 0xED then 0x80 ≤ b && b ≤ 0x9F
      else 0xE1 ≤ a && a ≤ 0xEF && isTail b) && isTail c
  | .four a b c d =>
    (if a = 0xF0 then 0x90 ≤ b && b ≤ 0xBF
      else if a = 0xF4 then 0x80 ≤ b && b ≤ 0x8F
      else 0xF1 ≤ a && a ≤ 0xF3 && isTail b) && isTail c && isTail d
  | .invalid _ => false

/-- utf8.DecodeRune; a byte that is missing is no tail. -/
def runeAt (a : UInt8) (s : Bytes) : Rune :=
  let b := s.getD 0 0
  let c := s.getD 1 0
  let d := s.getD 2 0
  if (Rune.ascii a).proper then .ascii a
  else if (Rune.two a b).proper then .two a b
  else if (Rune.three a b c).proper then .three a b c
  else if (Rune.four a b c d).proper then .four a b c d
  else .invalid a

/-- The bytes that were read as the rune. -/
def Rune.source : Rune → Bytes
  | .ascii a => [a]
  | .two a b => [a, b]
  | .three a b c => [a, b, c]
  | .four a b c d => [a, b, c, d]
  | .invalid a => [a]

/-- A rune that is a character. -/
structure Scalar where
  rune : Rune
  proper : rune.proper = true
deriving DecidableEq

def replacement : Scalar := ⟨.three 0xEF 0xBF 0xBD, rfl⟩

/-- The character that a rune is read as. -/
def Rune.valid (r : Rune) : Scalar := if proper : r.proper = true then ⟨r, proper⟩ else replacement

/-- The runes of a text behind so many bytes. -/
def runesFrom : Nat → Bytes → List Rune
  | _, [] => []
  | skip + 1, _ :: s => runesFrom skip s
  | 0, a :: s => runeAt a s :: runesFrom ((runeAt a s).source.length - 1) s

def runes (s : Bytes) : List Rune := runesFrom 0 s

/-- The characters of a text. -/
def scalars (s : Bytes) : List Scalar := (runes s).map (·.valid)

/-- A valid text. -/
def written (rs : List Scalar) : Bytes := rs.flatMap (·.rune.source)

/-- The text with every stray byte replaced. -/
def toValidUTF8 (s : Bytes) : Bytes := written (scalars s)

example : toValidUTF8 [0x61, 0xC3, 0xA9, 0xC3] = [0x61, 0xC3, 0xA9, 0xEF, 0xBF, 0xBD] := by decide

@[simp] theorem written_append (rs rs' : List Scalar) :
    written (rs ++ rs') = written rs ++ written rs' :=
  List.flatMap_append

theorem Scalar.valid_rune (r : Scalar) : r.rune.valid = r := by
  rw [Rune.valid, dif_pos r.proper]

/-! The first byte tells how long a proper sequence is. -/

theorem leads_two {a b : UInt8} (proper : (Rune.two a b).proper = true) :
    0xC2 ≤ a.toNat ∧ a.toNat ≤ 0xDF := by
  simp only [Rune.proper, Bool.and_eq_true, decide_eq_true_eq, UInt8.le_iff_toNat_le,
    UInt8.reduceToNat] at proper
  exact proper.1

theorem leads_three {a b c : UInt8} (proper : (Rune.three a b c).proper = true) :
    0xE0 ≤ a.toNat ∧ a.toNat ≤ 0xEF := by
  simp only [Rune.proper, Bool.and_eq_true] at proper
  have first := proper.1
  split at first
  · rename_i e
    rw [e]
    decide
  · split at first
    · rename_i e
      rw [e]
      decide
    · simp only [Bool.and_eq_true, decide_eq_true_eq, UInt8.le_iff_toNat_le,
        UInt8.reduceToNat] at first
      omega

theorem leads_four {a b c d : UInt8} (proper : (Rune.four a b c d).proper = true) :
    0xF0 ≤ a.toNat := by
  simp only [Rune.proper, Bool.and_eq_true] at proper
  have first := proper.1.1
  split at first
  · rename_i e
    rw [e]
    decide
  · split at first
    · rename_i e
      rw [e]
      decide
    · simp only [Bool.and_eq_true, decide_eq_true_eq, UInt8.le_iff_toNat_le,
        UInt8.reduceToNat] at first
      omega

theorem high_tail {c : UInt8} (tail : isTail c = true) : 0x80 ≤ c.toNat := by
  simp only [isTail, Bool.and_eq_true, decide_eq_true_eq, UInt8.le_iff_toNat_le,
    UInt8.reduceToNat] at tail
  exact tail.1

/-- A second byte, whatever its first one leaves of the tails. -/
theorem high_second {p q : Prop} [Decidable p] [Decidable q] {x : Bool} {b l u l' u' : UInt8}
    (h : (if p then l ≤ b && b ≤ u else if q then l' ≤ b && b ≤ u' else x && isTail b) = true)
    (low : 0x80 ≤ l.toNat) (low' : 0x80 ≤ l'.toNat) : 0x80 ≤ b.toNat := by
  split at h
  · simp only [Bool.and_eq_true, decide_eq_true_eq, UInt8.le_iff_toNat_le] at h
    exact Nat.le_trans low h.1
  · split at h
    · simp only [Bool.and_eq_true, decide_eq_true_eq, UInt8.le_iff_toNat_le] at h
      exact Nat.le_trans low' h.1
    · exact high_tail (Bool.and_eq_true_iff.mp h).2

/-- Only a character of one byte has a byte below 128. -/
theorem high_source {r : Rune} (proper : r.proper = true) (long : ∀ c, r ≠ .ascii c) :
    ∀ c ∈ r.source, 0x80 ≤ c.toNat := by
  cases r with
  | ascii c => exact absurd rfl (long c)
  | invalid c => cases proper
  | two a b =>
      have lead := leads_two proper
      simp only [Rune.proper, Bool.and_eq_true] at proper
      have tail := high_tail proper.2
      simp only [Rune.source, List.forall_mem_cons, List.not_mem_nil, false_implies, implies_true,
        and_true]
      omega
  | three a b c =>
      have lead := leads_three proper
      simp only [Rune.proper, Bool.and_eq_true] at proper
      have second := high_second proper.1 (by decide) (by decide)
      have tail := high_tail proper.2
      simp only [Rune.source, List.forall_mem_cons, List.not_mem_nil, false_implies, implies_true,
        and_true]
      omega
  | four a b c d =>
      have lead := leads_four proper
      simp only [Rune.proper, Bool.and_eq_true] at proper
      have second := high_second proper.1.1 (by decide) (by decide)
      have tails := And.intro (high_tail proper.1.2) (high_tail proper.2)
      simp only [Rune.source, List.forall_mem_cons, List.not_mem_nil, false_implies, implies_true,
        and_true]
      omega

theorem runeAt_source {r : Rune} (proper : r.proper = true) (s : Bytes) :
    ∃ a t, r.source = a :: t ∧ runeAt a (t ++ s) = r := by
  have ascii : ∀ {a : UInt8}, 0x80 ≤ a.toNat → (Rune.ascii a).proper = false := by
    intro a large
    simp only [Rune.proper, decide_eq_false_iff_not, UInt8.lt_iff_toNat_lt, UInt8.reduceToNat]
    omega
  have two : ∀ {a b : UInt8}, 0xE0 ≤ a.toNat → (Rune.two a b).proper = false := by
    intro a b large
    by_contra proper
    have leads := leads_two (by simpa using proper)
    omega
  have three : ∀ {a b c : UInt8}, 0xF0 ≤ a.toNat → (Rune.three a b c).proper = false := by
    intro a b c large
    by_contra proper
    have leads := leads_three (by simpa using proper)
    omega
  cases r with
  | invalid a => cases proper
  | ascii a => exact ⟨a, [], rfl, by simp [runeAt, proper]⟩
  | two a b =>
      have leads := leads_two proper
      exact ⟨a, [b], rfl, by simp [runeAt, proper, ascii (by omega : 0x80 ≤ a.toNat)]⟩
  | three a b c =>
      have leads := leads_three proper
      have large : 0x80 ≤ a.toNat := by omega
      exact ⟨a, [b, c], rfl, by simp [runeAt, proper, two leads.1, ascii large]⟩
  | four a b c d =>
      have leads := leads_four proper
      have large : 0x80 ≤ a.toNat ∧ 0xE0 ≤ a.toNat := by omega
      exact ⟨a, [b, c, d], rfl, by
        simp [runeAt, proper, three leads, two large.2, ascii large.1]⟩

theorem runeAt_proper (a : UInt8) (s : Bytes) :
    (runeAt a s).proper = true ∨ runeAt a s = .invalid a := by
  rw [runeAt]
  split
  · exact .inl ‹_›
  · split
    · exact .inl ‹_›
    · split
      · exact .inl ‹_›
      · split
        · exact .inl ‹_›
        · exact .inr rfl

theorem runesFrom_append {t : Bytes} (s : Bytes) : runesFrom t.length (t ++ s) = runes s := by
  induction t with
  | nil => rfl
  | cons c t ih => exact ih

/-- A proper rune is read back, whatever follows it. -/
theorem runes_source {r : Rune} (proper : r.proper = true) (s : Bytes) :
    runes (r.source ++ s) = r :: runes s := by
  obtain ⟨a, t, source, read⟩ := runeAt_source proper s
  have rest : runesFrom (r.source.length - 1) (t ++ s) = runes s := by
    rw [source, List.length_cons, Nat.add_sub_cancel]
    exact runesFrom_append s
  rw [source, List.cons_append, runes, runesFrom, read, rest]

theorem runes_written (rs : List Scalar) (s : Bytes) :
    runes (written rs ++ s) = rs.map (·.rune) ++ runes s := by
  induction rs with
  | nil => rfl
  | cons r rs ih =>
      rw [written, List.flatMap_cons, List.append_assoc, runes_source r.proper, ← written, ih]
      rfl

/-- A valid text is read as the characters it was written with. -/
theorem scalars_written (rs : List Scalar) : scalars (written rs) = rs := by
  have read := runes_written rs []
  rw [List.append_nil] at read
  rw [scalars, read, List.map_append, List.map_map]
  simp [Function.comp_def, Scalar.valid_rune, runes, runesFrom]

theorem toValidUTF8_written (rs : List Scalar) : toValidUTF8 (written rs) = written rs := by
  rw [toValidUTF8, scalars_written]

theorem runes_cases (s : Bytes) : ∀ r ∈ runes s, r.proper = true ∨ ∃ c, r = .invalid c := by
  have from_skip : ∀ skip, ∀ r ∈ runesFrom skip s, r.proper = true ∨ ∃ c, r = .invalid c := by
    induction s with
    | nil => exact fun skip r hr => absurd hr (by cases skip <;> exact List.not_mem_nil)
    | cons a s ih =>
        intro skip
        cases skip with
        | succ skip => exact ih skip
        | zero =>
            intro r hr
            cases List.mem_cons.mp hr with
            | inl here =>
                rw [here]
                exact (runeAt_proper a s).imp_right fun stray => ⟨a, stray⟩
            | inr later => exact ih _ r later
  exact from_skip 0

end Net
