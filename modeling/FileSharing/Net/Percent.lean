import Mathlib.Data.List.Basic
import Mathlib.Tactic.Common

/-!
Byte strings and percent-encoding. Every encoder of the service and of the
browser is `escape` with its own set of bytes left alone and its own hex
digits; there is one decoder, `unescape`, which rejects a stray percent sign.
-/

namespace Net

/-- A Go string: any sequence of bytes, valid UTF-8 or not. -/
abbrev Bytes : Type := List UInt8

/-- The bytes of an ASCII literal. -/
def str (s : String) : Bytes := s.toList.map fun c => UInt8.ofNat c.toNat

/-- A byte is its two hex digits. -/
theorem ofNat_digits (c : UInt8) : UInt8.ofNat (16 * (c.toNat / 16) + c.toNat % 16) = c := by
  rw [Nat.div_add_mod, UInt8.ofNat_toNat]

/-- A property of bytes may be checked digit by digit, so that `decide` recurses
sixteen deep where the 256 numbers are out of its reach. -/
theorem forall_byte {P : UInt8 → Prop}
    (h : ∀ a, a < 16 → ∀ b, b < 16 → P (UInt8.ofNat (16 * a + b))) (c : UInt8) : P c := by
  have small := c.toNat_lt
  have checked := h (c.toNat / 16) (by omega) (c.toNat % 16) (by omega)
  rwa [ofNat_digits] at checked

abbrev slash : UInt8 := 0x2F
abbrev percent : UInt8 := 0x25
abbrev question : UInt8 := 0x3F
abbrev hash : UInt8 := 0x23
abbrev colon : UInt8 := 0x3A
abbrev space : UInt8 := 0x20

def isLower (c : UInt8) : Bool := 0x61 ≤ c && c ≤ 0x7A
def isUpper (c : UInt8) : Bool := 0x41 ≤ c && c ≤ 0x5A
def isDigit (c : UInt8) : Bool := 0x30 ≤ c && c ≤ 0x39
def isAlnum (c : UInt8) : Bool := isLower c || isUpper c || isDigit c

def unhex (c : UInt8) : Option Nat :=
  if isDigit c then some (c.toNat - 0x30)
  else if 0x61 ≤ c && c ≤ 0x66 then some (c.toNat - 0x61 + 10)
  else if 0x41 ≤ c && c ≤ 0x46 then some (c.toNat - 0x41 + 10)
  else none

def isHex (c : UInt8) : Bool := (unhex c).isSome

def upperHex (n : Nat) : UInt8 := UInt8.ofNat (if n < 10 then 0x30 + n else 0x41 + (n - 10))
def lowerHex (n : Nat) : UInt8 := UInt8.ofNat (if n < 10 then 0x30 + n else 0x61 + (n - 10))

/-- A choice of sixteen digits that the decoder reads back. -/
def HexDigits (digit : Nat → UInt8) : Prop := ∀ n, n < 16 → unhex (digit n) = some n

theorem hexDigits_upper : HexDigits upperHex := by unfold HexDigits; decide
theorem hexDigits_lower : HexDigits lowerHex := by unfold HexDigits; decide

def escapeByte (digit : Nat → UInt8) (c : UInt8) : Bytes :=
  [percent, digit (c.toNat / 16), digit (c.toNat % 16)]

def escape (keep : UInt8 → Bool) (digit : Nat → UInt8) (s : Bytes) : Bytes :=
  s.flatMap fun c => if keep c then [c] else escapeByte digit c

/-- url.unescape for a path: `none` where Go reports an EscapeError. -/
def unescape : Bytes → Option Bytes
  | [] => some []
  | c :: rest =>
    if c = percent then
      match rest with
      | a :: b :: rest' =>
        match unhex a, unhex b with
        | some x, some y => (UInt8.ofNat (16 * x + y) :: ·) <$> unescape rest'
        | _, _ => none
      | _ => none
    else (c :: ·) <$> unescape rest

@[simp] theorem unescape_nil : unescape [] = some [] := rfl

theorem unescape_cons {c : UInt8} (h : c ≠ percent) (rest : Bytes) :
    unescape (c :: rest) = (c :: ·) <$> unescape rest := by
  rw [unescape.eq_def]
  simp only [if_neg h]

theorem unescape_pair (a b : UInt8) (rest : Bytes) :
    unescape (percent :: a :: b :: rest) =
      match unhex a, unhex b with
      | some x, some y => (UInt8.ofNat (16 * x + y) :: ·) <$> unescape rest
      | _, _ => none := by
  rw [unescape.eq_def]
  rfl

theorem unescape_short {rest : Bytes} (h : ∀ a b tail, rest ≠ a :: b :: tail) :
    unescape (percent :: rest) = none := by
  rw [unescape.eq_def]
  match rest with
  | [] | [_] => rfl
  | a :: b :: tail => exact absurd rfl (h a b tail)

theorem unescape_escapeByte {digit : Nat → UInt8} (h : HexDigits digit) (c : UInt8)
    (rest : Bytes) :
    unescape (escapeByte digit c ++ rest) = (c :: ·) <$> unescape rest := by
  have hc : c.toNat < 256 := c.toNat_lt
  simp only [escapeByte, List.cons_append, List.nil_append, unescape_pair,
    h (c.toNat / 16) (by omega), h (c.toNat % 16) (by omega), ofNat_digits]

theorem escape_cons (keep : UInt8 → Bool) (digit : Nat → UInt8) (c : UInt8) (s : Bytes) :
    escape keep digit (c :: s) =
      (if keep c then [c] else escapeByte digit c) ++ escape keep digit s := rfl

/-- Decoding reads an encoded prefix back, whatever follows it. -/
theorem unescape_escape_append {keep : UInt8 → Bool} {digit : Nat → UInt8}
    (hk : keep percent = false) (hd : HexDigits digit) (s rest : Bytes) :
    unescape (escape keep digit s ++ rest) = (s ++ ·) <$> unescape rest := by
  induction s with
  | nil => simp [escape]
  | cons c s ih =>
      rw [escape_cons, List.append_assoc]
      by_cases hc : keep c = true
      · have hne : c ≠ percent := by
          rintro rfl
          simp [hk] at hc
        rw [if_pos hc, List.cons_append, List.nil_append, unescape_cons hne, ih]
        cases unescape rest <;> rfl
      · rw [if_neg hc, unescape_escapeByte hd, ih]
        cases unescape rest <;> rfl

theorem unescape_escape {keep : UInt8 → Bool} {digit : Nat → UInt8}
    (hk : keep percent = false) (hd : HexDigits digit) (s : Bytes) :
    unescape (escape keep digit s) = some s := by
  simpa using unescape_escape_append hk hd s []

theorem isHex_digit {digit : Nat → UInt8} (h : HexDigits digit) {n : Nat} (lt : n < 16) :
    isHex (digit n) = true := by simp [isHex, h n lt]

theorem mem_escapeByte {digit : Nat → UInt8} (h : HexDigits digit) {c d : UInt8}
    (mem : d ∈ escapeByte digit c) : d = percent ∨ isHex d = true := by
  have lt : c.toNat < 256 := c.toNat_lt
  simp only [escapeByte, List.mem_cons, List.not_mem_nil, or_false] at mem
  obtain rfl | rfl | rfl := mem
  · exact .inl rfl
  · exact .inr (isHex_digit h (by omega))
  · exact .inr (isHex_digit h (by omega))

/-- A byte that is escaped, and is no part of an escape, does not occur. -/
theorem not_mem_escape {keep : UInt8 → Bool} {digit : Nat → UInt8} (hd : HexDigits digit)
    {d : UInt8} (hk : keep d = false) (hp : d ≠ percent) (hh : isHex d = false) (s : Bytes) :
    d ∉ escape keep digit s := by
  intro h
  obtain ⟨c, -, hc⟩ := List.mem_flatMap.mp h
  by_cases kept : keep c = true
  · rw [if_pos kept, List.mem_singleton] at hc
    rw [hc, kept] at hk
    cases hk
  · rw [if_neg kept] at hc
    cases mem_escapeByte hd hc with
    | inl e => exact hp e
    | inr e =>
        rw [hh] at e
        cases e

/-- Decoding a valid prefix does not look at what follows. -/
theorem unescape_append {s t : Bytes} (h : unescape s = some t) (rest : Bytes) :
    unescape (s ++ rest) = (t ++ ·) <$> unescape rest := by
  induction s using unescape.induct generalizing t with
  | case1 =>
      cases h
      rw [List.nil_append]
      cases unescape rest <;> rfl
  | case2 a b rest' x y hb ha ih =>
      rw [unescape_pair, ha, hb] at h
      obtain ⟨u, hu, rfl⟩ := Option.map_eq_some_iff.mp h
      simp only [List.cons_append, unescape_pair, ha, hb, ih hu]
      cases unescape rest <;> rfl
  | case3 a b rest' hbad =>
      rw [unescape_pair] at h
      split at h
      · exact absurd ‹unhex b = _› (hbad _ _ ‹_›)
      · cases h
  | case4 rest' hshort =>
      rw [unescape_short (fun a b tail => hshort a b tail)] at h
      cases h
  | case5 c rest' hc ih =>
      rw [unescape_cons hc] at h
      obtain ⟨u, hu, rfl⟩ := Option.map_eq_some_iff.mp h
      rw [List.cons_append, unescape_cons hc, ih hu]
      cases unescape rest <;> rfl

theorem unescape_of_no_percent {s : Bytes} (h : percent ∉ s) : unescape s = some s := by
  induction s with
  | nil => rfl
  | cons c s ih =>
      simp only [List.mem_cons, not_or] at h
      rw [unescape_cons (Ne.symm h.1), ih h.2]
      rfl

theorem not_hex_percent {c : UInt8} {n : Nat} (h : unhex c = some n) : c ≠ percent := by
  rintro rfl
  cases h

/-- Decoding shortens by two bytes for every escape it reads. -/
theorem unescape_length {s t : Bytes} (h : unescape s = some t) :
    t.length + 2 * s.count percent = s.length := by
  induction s using unescape.induct generalizing t with
  | case1 =>
      cases h
      rfl
  | case2 a b rest' x y hb ha ih =>
      rw [unescape_pair, ha, hb] at h
      obtain ⟨u, hu, rfl⟩ := Option.map_eq_some_iff.mp h
      have len := ih hu
      rw [List.count_cons_self, List.count_cons_of_ne (not_hex_percent ha),
        List.count_cons_of_ne (not_hex_percent hb)]
      simp only [List.length_cons]
      omega
  | case3 a b rest' hbad =>
      rw [unescape_pair] at h
      split at h
      · exact absurd ‹unhex b = _› (hbad _ _ ‹_›)
      · cases h
  | case4 rest' hshort =>
      rw [unescape_short (fun a b tail => hshort a b tail)] at h
      cases h
  | case5 c rest' hc ih =>
      rw [unescape_cons hc] at h
      obtain ⟨u, hu, rfl⟩ := Option.map_eq_some_iff.mp h
      have len := ih hu
      rw [List.count_cons_of_ne hc]
      simp only [List.length_cons]
      omega

end Net
