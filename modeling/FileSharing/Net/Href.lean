import FileSharing.Net.Location

/-!
What `html/template` writes into an href attribute: a URL with a scheme of its
own is replaced, and what is left is normalized without touching the delimiters
of a URL or the escapes that are already there.
-/

namespace Net

/-- strings.EqualFold against lower-case ASCII; the long s folds to s. -/
def foldCase : Bytes → Bytes
  | 0xC5 :: 0xBF :: rest => 0x73 :: foldCase rest
  | c :: rest => (if isUpper c then c + 0x20 else c) :: foldCase rest
  | [] => []

def isSafeURL (s : Bytes) : Bool :=
  let protocol := s.takeWhile (· != colon)
  !s.contains colon || protocol.contains slash ||
    [str "http", str "https", str "mailto"].contains (foldCase protocol)

def urlFilter (s : Bytes) : Bytes := if isSafeURL s then s else str "#ZgotmplZ"

/-- The bytes that the normalizer leaves alone. -/
def keepNormal (c : UInt8) : Bool := unreserved c || (str "!#$&*+,/:;=?@[]").contains c

/-- Two hex digits at the start. -/
def startsHex : Bytes → Bool
  | a :: b :: _ => isHex a && isHex b
  | _ => false

def urlNormalizer : Bytes → Bytes
  | [] => []
  | c :: rest =>
    (if keepNormal c || c == percent && startsHex rest then [c] else escapeByte lowerHex c) ++
      urlNormalizer rest

/-- The value of the attribute as a browser reads it back. -/
def href (s : Bytes) : Bytes := urlNormalizer (urlFilter s)

example : href (str "a %2f%") = str "a%20%2f%25" := by decide

/-- The text has an escape of its own. -/
def hasEscape : Bytes → Bool
  | [] => false
  | c :: rest => c == percent && startsHex rest || hasEscape rest

theorem urlNormalizer_cons (c : UInt8) (rest : Bytes) :
    urlNormalizer (c :: rest) =
      (if keepNormal c || c == percent && startsHex rest then [c] else escapeByte lowerHex c) ++
        urlNormalizer rest := rfl

theorem keepNormal_percent : keepNormal percent = false := by decide

/-- Text without an escape of its own is read back. -/
theorem unescape_urlNormalizer {s : Bytes} (h : hasEscape s = false) :
    unescape (urlNormalizer s) = some s := by
  induction s with
  | nil => rfl
  | cons c rest ih =>
      simp only [hasEscape, Bool.or_eq_false_iff] at h
      rw [urlNormalizer_cons, h.1, Bool.or_false]
      cases keep : keepNormal c with
      | true =>
          have hc : c ≠ percent := by
            rintro rfl
            cases keepNormal_percent.symm.trans keep
          rw [if_pos rfl, List.singleton_append, unescape_cons hc, ih h.2]
          rfl
      | false =>
          rw [if_neg Bool.false_ne_true, unescape_escapeByte hexDigits_lower, ih h.2]
          rfl

theorem count_escapeByte (c : UInt8) : (escapeByte lowerHex c).count percent = 1 := by
  have lt : c.toNat < 256 := c.toNat_lt
  have digit : ∀ n, n < 16 → lowerHex n ≠ percent := fun n hn =>
    not_hex_percent (hexDigits_lower n hn)
  rw [escapeByte, List.count_cons_self, List.count_cons_of_ne (digit _ (by omega)),
    List.count_cons_of_ne (digit _ (by omega)), List.count_nil]

/-- The normalizer pays for every byte it adds with a percent sign, and keeps
those that are already there. -/
theorem urlNormalizer_length (s : Bytes) :
    (urlNormalizer s).length + (if hasEscape s then 1 else 0) ≤
      s.length + 2 * (urlNormalizer s).count percent := by
  induction s with
  | nil => simp [urlNormalizer, hasEscape]
  | cons c rest ih =>
      rw [urlNormalizer_cons, hasEscape, List.length_append, List.count_append, List.length_cons]
      cases keep : keepNormal c with
      | true =>
          have hc : c ≠ percent := by
            rintro rfl
            cases keepNormal_percent.symm.trans keep
          have single : [c].count percent = 0 := by simp [hc]
          simp only [beq_eq_false_iff_ne.mpr hc, Bool.false_and, Bool.true_or, Bool.false_or,
            if_true, List.length_singleton, single]
          omega
      | false =>
          cases own : c == percent && startsHex rest with
          | true =>
              have hc : c = percent := by simpa using (Bool.and_eq_true_iff.mp own).1
              simp only [Bool.or_true, Bool.true_or, if_true, List.length_singleton, hc,
                List.count_singleton_self]
              split at ih <;> omega
          | false =>
              have len : (escapeByte lowerHex c).length = 3 := rfl
              simp only [Bool.or_self, Bool.false_or, Bool.false_eq_true, if_false, len,
                count_escapeByte]
              omega

/-- What the normalized text decodes to is shorter when the text has escapes. -/
theorem unescape_urlNormalizer_length {s t : Bytes} (h : unescape (urlNormalizer s) = some t) :
    t.length + (if hasEscape s then 1 else 0) ≤ s.length := by
  have decoded := unescape_length h
  have bound := urlNormalizer_length s
  omega

/-- A set of bytes that holds what the normalizer writes reads as far as in the text. -/
theorem takeWhile_urlNormalizer {p : UInt8 → Bool} (hp : p percent = true)
    (hh : ∀ c, isHex c = true → p c = true) (hk : ∀ c, keepNormal c = false → p c = true)
    (s : Bytes) : (urlNormalizer s).takeWhile p = urlNormalizer (s.takeWhile p) := by
  have start : ∀ s : Bytes, startsHex (s.takeWhile p) = startsHex s := by
    intro s
    match s with
    | [] => rfl
    | [a] => cases ha : p a <;> simp [startsHex, ha]
    | a :: b :: rest =>
      cases ha : p a with
      | false =>
          have hex : isHex a = false := by
            by_contra h
            rw [hh a (by simpa using h)] at ha
            cases ha
          simp [startsHex, ha, hex]
      | true =>
          cases hb : p b with
          | false =>
              have hex : isHex b = false := by
                by_contra h
                rw [hh b (by simpa using h)] at hb
                cases hb
              simp [startsHex, ha, hb, hex]
          | true => simp [startsHex, ha, hb]
  induction s with
  | nil => rfl
  | cons c rest ih =>
      rw [urlNormalizer_cons]
      cases hc : p c with
      | true =>
          have block : ∀ d ∈ (if keepNormal c || c == percent && startsHex rest then [c]
              else escapeByte lowerHex c), p d = true := by
            intro d hd
            split at hd
            · rwa [List.mem_singleton.mp hd]
            · cases mem_escapeByte hexDigits_lower hd with
              | inl e => rw [e, hp]
              | inr e => exact hh d e
          rw [List.takeWhile_append_of_pos block, ih, List.takeWhile_cons_of_pos hc,
            urlNormalizer_cons, start]
      | false =>
          have keep : keepNormal c = true := by
            by_contra h
            rw [hk c (by simpa using h)] at hc
            cases hc
          simp [keep, hc, urlNormalizer]

theorem not_mem_urlNormalizer {d : UInt8} (hp : d ≠ percent) (hh : isHex d = false) {s : Bytes}
    (h : d ∉ s) : d ∉ urlNormalizer s := by
  induction s with
  | nil => exact h
  | cons c rest ih =>
      simp only [List.mem_cons, not_or] at h
      rw [urlNormalizer_cons, List.mem_append, not_or]
      refine ⟨?_, ih h.2⟩
      intro hd
      split at hd
      · exact h.1 (List.mem_singleton.mp hd)
      · cases mem_escapeByte hexDigits_lower hd with
        | inl e => exact hp e
        | inr e =>
            rw [hh] at e
            cases e

theorem slash_not_mem_urlNormalizer {s : Bytes} (h : slash ∉ s) : slash ∉ urlNormalizer s :=
  not_mem_urlNormalizer (by decide) (by decide) h

theorem keepNormal_of_isSchemeByte : ∀ c, isSchemeByte c = true → keepNormal c = true :=
  forall_byte (by decide)

/-- The normalizer makes no scheme, and breaks none. -/
theorem splitScheme_urlNormalizer (s : Bytes) :
    (splitScheme (urlNormalizer s)).1 = (splitScheme s).1 := by
  have read : ∀ s : Bytes,
      (urlNormalizer s).takeWhile isSchemeByte = s.takeWhile isSchemeByte ∧
        (((urlNormalizer s).dropWhile isSchemeByte).head? = some colon ↔
          (s.dropWhile isSchemeByte).head? = some colon) := by
    intro s
    induction s with
    | nil => exact ⟨rfl, Iff.rfl⟩
    | cons c rest ih =>
        rw [urlNormalizer_cons]
        cases hc : isSchemeByte c with
        | true => simp [keepNormal_of_isSchemeByte c hc, hc, ih]
        | false =>
            have stray : isSchemeByte percent = false := by decide
            split
            · simp [hc]
            · rename_i keep
              have other : c ≠ colon := by
                rintro rfl
                have kept : keepNormal colon = true := by decide
                exact keep (by rw [kept, Bool.true_or])
              have sign : percent ≠ colon := by decide
              simp [escapeByte, hc, stray, other, sign]
  simp only [splitScheme, (read s).1, (read s).2]
  split <;> rfl

end Net
