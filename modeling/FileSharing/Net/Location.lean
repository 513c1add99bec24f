import FileSharing.Net.Query
import FileSharing.Net.Reference
import Mathlib.Data.List.DropRight

/-!
How `net/url` and `net/http` write a URL into a Location header: the string
form of a URL, the rewriting done by `http.Redirect`, and what is left of a
header value on the wire. Each step is undone by `unescape` on the path.
-/

namespace Net

/-- The part of url.URL that a server request carries; `path` is decoded. -/
structure URL where
  path : Bytes
  rawQuery : Bytes
deriving DecidableEq

/-- The reserved bytes that url.String leaves alone in a path. -/
def keepPath (c : UInt8) : Bool :=
  unreserved c || (str "$&+,/:;=@").contains c

def escapePath (p : Bytes) : Bytes := escape keepPath upperHex p

def URL.string (u : URL) : Bytes :=
  escapePath u.path ++ if u.rawQuery = [] then [] else question :: u.rawQuery

/-- What url.Parse reads in front of the path. -/
structure ParsedURL where
  scheme : Bytes
  host : Bytes

/-- The Location http.Redirect chooses, given the verdict of url.Parse. -/
def redirectURL (verdict : Option ParsedURL) (oldpath url : Bytes) : Bytes :=
  match verdict with
  | none => url
  | some u =>
    if u.scheme = [] ∧ u.host = [] then
      let oldpath := if oldpath = [] then [slash] else oldpath
      let url := if url.head? = some slash then url else directory oldpath ++ url
      let path := url.takeWhile (· != question)
      let query := url.dropWhile (· != question)
      let trailing := path.getLast? = some slash
      let cleaned := clean path
      (if trailing ∧ cleaned.getLast? ≠ some slash then cleaned ++ [slash] else cleaned) ++ query
    else url

def isASCII (c : UInt8) : Bool := c < 0x80

def hexEscapeNonASCII (s : Bytes) : Bytes := escape isASCII lowerHex s

def newlineToSpace (c : UInt8) : UInt8 := if c = 0x0A ∨ c = 0x0D then space else c

def isOWS (c : UInt8) : Bool := c == space || c == 0x09 || c == 0x0A || c == 0x0D

def trimRight (s : Bytes) : Bytes := s.rdropWhile isOWS

/-- A header value as the server writes it: one line, trimmed. -/
def headerValue (s : Bytes) : Bytes := trimRight ((s.map newlineToSpace).dropWhile isOWS)

theorem escapePath_unescape (p : Bytes) : unescape (escapePath p) = some p :=
  unescape_escape (by decide) hexDigits_upper p

theorem forall_isPathByte {s : Bytes} (hq : question ∉ s) (hh : hash ∉ s) :
    ∀ c ∈ s, isPathByte c = true := by
  intro c hc
  have hcq : c ≠ question := fun e => hq (e ▸ hc)
  have hch : c ≠ hash := fun e => hh (e ▸ hc)
  simp [isPathByte, hcq, hch]

theorem isPathByte_escapePath (p : Bytes) : ∀ c ∈ escapePath p, isPathByte c = true :=
  forall_isPathByte
    (not_mem_escape hexDigits_upper (by decide) (by decide) (by decide) p)
    (not_mem_escape hexDigits_upper (by decide) (by decide) (by decide) p)

theorem escapePath_append (p q : Bytes) : escapePath (p ++ q) = escapePath p ++ escapePath q :=
  List.flatMap_append

theorem hexEscape_append (s t : Bytes) :
    hexEscapeNonASCII (s ++ t) = hexEscapeNonASCII s ++ hexEscapeNonASCII t :=
  List.flatMap_append

theorem hexEscape_cons (c : UInt8) (s : Bytes) :
    hexEscapeNonASCII (c :: s) =
      (if isASCII c then [c] else escapeByte lowerHex c) ++ hexEscapeNonASCII s := rfl

theorem isASCII_of_isHex : ∀ c, isHex c = true → isASCII c = true :=
  forall_byte (by decide)

theorem isPathByte_of_isHex : ∀ c, isHex c = true → isPathByte c = true :=
  forall_byte (by decide)

theorem newlineToSpace_of_isHex : ∀ c, isHex c = true → newlineToSpace c = c :=
  forall_byte (by decide)

theorem isASCII_newlineToSpace : ∀ c, isASCII (newlineToSpace c) = isASCII c :=
  forall_byte (by decide)

theorem isOWS_of_isHex : ∀ c, isHex c = true → isOWS c = false :=
  forall_byte (by decide)

theorem isASCII_of_isOWS : ∀ c, isOWS c = true → isASCII c = true :=
  forall_byte (by decide)

theorem hexEscape_ascii {c : UInt8} (h : isASCII c = true) (s : Bytes) :
    hexEscapeNonASCII (c :: s) = c :: hexEscapeNonASCII s := by
  rw [hexEscape_cons, if_pos h]
  rfl

theorem isASCII_of_unhex {c : UInt8} {n : Nat} (h : unhex c = some n) : isASCII c = true :=
  isASCII_of_isHex c (by simp [isHex, h])

/-- A byte that is no hex digit still starts with no hex digit once escaped. -/
theorem hexEscape_not_hex {c : UInt8} (h : unhex c = none) (s : Bytes) :
    ∃ d t, hexEscapeNonASCII (c :: s) = d :: t ∧ unhex d = none := by
  cases ha : isASCII c with
  | true => exact ⟨c, _, hexEscape_ascii ha s, h⟩
  | false =>
      rw [hexEscape_cons, ha]
      exact ⟨percent, _, rfl, rfl⟩

theorem unescape_not_hex {c : UInt8} (h : unhex c = none) (s : Bytes) :
    unescape (percent :: c :: s) = none := by
  cases s with
  | nil => rfl
  | cons d s => rw [unescape_pair, h]

/-- Escaping what the wire cannot carry does not change what is decoded. -/
theorem unescape_hexEscape (s : Bytes) : unescape (hexEscapeNonASCII s) = unescape s := by
  have pct : isASCII percent = true := by decide
  induction s using unescape.induct with
  | case1 => rfl
  | case2 a b rest x y hb ha ih =>
      rw [hexEscape_ascii pct, hexEscape_ascii (isASCII_of_unhex ha),
        hexEscape_ascii (isASCII_of_unhex hb), unescape_pair, unescape_pair, ih]
  | case3 a b rest bad =>
      rw [hexEscape_ascii pct]
      cases ha : unhex a with
      | none =>
          obtain ⟨d, t, block, hd⟩ := hexEscape_not_hex ha (b :: rest)
          rw [block, unescape_not_hex hd, unescape_not_hex ha]
      | some x =>
          have hb : unhex b = none := Option.eq_none_iff_forall_ne_some.mpr fun y => bad x y ha
          obtain ⟨d, t, block, hd⟩ := hexEscape_not_hex hb rest
          rw [hexEscape_ascii (isASCII_of_unhex ha), block, unescape_pair, unescape_pair, hd, hb,
            ha]
  | case4 rest short =>
      rw [unescape_short fun a b tail => short a b tail, hexEscape_ascii pct]
      cases rest with
      | nil => rfl
      | cons a rest =>
          cases rest with
          | nil =>
              cases ha : isASCII a with
              | true => rw [hexEscape_ascii ha]; rfl
              | false => rw [hexEscape_cons, ha]; rfl
          | cons b tail => exact (short a b tail rfl).elim
  | case5 c rest hc ih =>
      rw [unescape_cons hc, ← ih]
      cases ha : isASCII c with
      | true => rw [hexEscape_ascii ha, unescape_cons hc]
      | false =>
          rw [hexEscape_cons, ha]
          exact unescape_escapeByte hexDigits_lower c _

theorem takeWhile_hexEscape {p : UInt8 → Bool} (hp : p percent = true)
    (hh : ∀ c, isHex c = true → p c = true) (hn : ∀ c, isASCII c = false → p c = true)
    (s : Bytes) :
    (hexEscapeNonASCII s).takeWhile p = hexEscapeNonASCII (s.takeWhile p) := by
  induction s with
  | nil => rfl
  | cons c s ih =>
      rw [hexEscape_cons]
      cases ha : isASCII c with
      | true =>
          cases hc : p c with
          | true => simp [hc, ha, ih, hexEscape_cons]
          | false => simp [hc, hexEscapeNonASCII, escape]
      | false =>
          have block : ∀ d ∈ escapeByte lowerHex c, p d = true := by
            intro d hd
            cases mem_escapeByte hexDigits_lower hd with
            | inl e => rw [e, hp]
            | inr e => exact hh d e
          simp only [Bool.false_eq_true, if_false]
          rw [List.takeWhile_append_of_pos block, ih, List.takeWhile_cons_of_pos (hn c ha),
            hexEscape_cons, ha]
          rfl

theorem map_hexEscape (s : Bytes) :
    (hexEscapeNonASCII s).map newlineToSpace = hexEscapeNonASCII (s.map newlineToSpace) := by
  induction s with
  | nil => rfl
  | cons c s ih =>
      rw [hexEscape_cons, List.map_append, ih, List.map_cons, hexEscape_cons,
        isASCII_newlineToSpace]
      congr 1
      cases ha : isASCII c with
      | true => rfl
      | false =>
          have line : newlineToSpace c = c := by
            refine if_neg fun h => ?_
            obtain rfl | rfl := h <;> cases ha
          have block : ∀ d ∈ escapeByte lowerHex c, newlineToSpace d = id d := by
            intro d hd
            cases mem_escapeByte hexDigits_lower hd with
            | inl e => rw [e]; rfl
            | inr e => exact newlineToSpace_of_isHex d e
          simp only [Bool.false_eq_true, if_false, line]
          rw [List.map_congr_left block, List.map_id]

theorem trimRight_hexEscape (s : Bytes) :
    trimRight (hexEscapeNonASCII s) = hexEscapeNonASCII (trimRight s) := by
  induction s using List.reverseRecOn with
  | nil => rfl
  | append_singleton s c ih =>
      unfold trimRight at *
      rw [hexEscape_append]
      cases hc : isOWS c with
      | true =>
          have block : hexEscapeNonASCII [c] = [c] := by
            rw [hexEscape_cons, isASCII_of_isOWS c hc]
            rfl
          rw [block, List.rdropWhile_concat_pos _ _ _ hc, List.rdropWhile_concat_pos _ _ _ hc, ih]
      | false =>
          have last : ∃ init d, hexEscapeNonASCII [c] = init ++ [d] ∧ isOWS d = false := by
            rw [hexEscape_cons]
            cases ha : isASCII c with
            | true => exact ⟨[], c, rfl, hc⟩
            | false =>
                have lt : c.toNat < 256 := c.toNat_lt
                exact ⟨[percent, lowerHex (c.toNat / 16)], lowerHex (c.toNat % 16), rfl,
                  isOWS_of_isHex _ (isHex_digit hexDigits_lower (by omega))⟩
          obtain ⟨init, d, hd, trim⟩ := last
          rw [List.rdropWhile_concat_neg _ _ _ (by simp [hc]), hexEscape_append, hd,
            ← List.append_assoc, List.rdropWhile_concat_neg _ _ _ (by simp [trim])]

end Net
