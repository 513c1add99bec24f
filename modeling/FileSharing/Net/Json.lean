import FileSharing.Net.Disposition
import FileSharing.Net.Href
import FileSharing.Net.Utf8
import Mathlib.Data.Nat.Digits.Defs

/-!
JSON as package `encoding/json` writes and reads it. The writer of strings escapes
what HTML could take for its own and replaces stray bytes; the reader reads back
what was written, as valid UTF-8.
-/

namespace Net

/-! Writing. -/

def decimal (n : Nat) : Bytes :=
  if n = 0 then [0x30] else ((Nat.digits 10 n).map fun d => UInt8.ofNat (0x30 + d)).reverse

/-- strconv.AppendInt. -/
def decimalInt : Int → Bytes
  | .ofNat n => decimal n
  | .negSucc n => 0x2D :: decimal (n + 1)

/-- One ASCII byte of a string. -/
def jsonAscii (c : UInt8) : Bytes :=
  if c = quote ∨ c = backslash then [backslash, c]
  else if c = 0x0A then str "\\n"
  else if c = 0x0D then str "\\r"
  else if c = 0x09 then str "\\t"
  else if c < 0x20 ∨ c = 0x3C ∨ c = 0x3E ∨ c = 0x26 then
    str "\\u00" ++ [lowerHex (c.toNat / 16), lowerHex (c.toNat % 16)]
  else [c]

def ascii (s : Bytes) : List Scalar := s.map fun c => (Rune.ascii c).valid

/-- The two separators that end a line in a script are escaped. -/
def jsonWide (r : Rune) : List Scalar :=
  if r = .three 0xE2 0x80 0xA8 then ascii (str "\\u2028")
  else if r = .three 0xE2 0x80 0xA9 then ascii (str "\\u2029")
  else [r.valid]

def jsonRune : Rune → List Scalar
  | .ascii c => ascii (jsonAscii c)
  | .invalid _ => ascii (str "\\ufffd")
  | r => jsonWide r

/-- The text between the quotes. -/
def jsonText (s : Bytes) : List Scalar := (runes s).flatMap jsonRune

def jsonString (s : Bytes) : Bytes := quote :: written (jsonText s) ++ [quote]

example : jsonString (str "a<\n" ++ [0xFF]) = str "\"a\\u003c\\n\\ufffd\"" := by decide

/-! Reading a string. -/

/-- utf8.EncodeRune; a surrogate is no code point. -/
def encodeRune (n : Nat) : Scalar :=
  let byte (k : Nat) : UInt8 := UInt8.ofNat k
  if n < 0x80 then (Rune.ascii (byte n)).valid
  else if n < 0x800 then (Rune.two (byte (0xC0 + n / 64)) (byte (0x80 + n % 64))).valid
  else if 0xD800 ≤ n ∧ n < 0xE000 ∨ 0x110000 ≤ n then replacement
  else if n < 0x10000 then
    (Rune.three (byte (0xE0 + n / 4096)) (byte (0x80 + n / 64 % 64)) (byte (0x80 + n % 64))).valid
  else
    (Rune.four (byte (0xF0 + n / 262144)) (byte (0x80 + n / 4096 % 64))
      (byte (0x80 + n / 64 % 64)) (byte (0x80 + n % 64))).valid

def Scalar.ascii? (r : Scalar) : Option UInt8 :=
  match r.rune with
  | .ascii c => some c
  | _ => none

/-- The number of four hex digits. -/
def hex4 (a b c d : Scalar) : Option Nat := do
  let a ← a.ascii?.bind unhex
  let b ← b.ascii?.bind unhex
  let c ← c.ascii?.bind unhex
  let d ← d.ascii?.bind unhex
  some (4096 * a + 256 * b + 16 * c + d)

/-- A backslash and one letter. -/
def simpleEscape (e : Scalar) : Option Scalar := do
  let c ← e.ascii?
  if c = quote ∨ c = backslash ∨ c = slash then some e
  else if c = 0x62 then some (encodeRune 0x08)
  else if c = 0x66 then some (encodeRune 0x0C)
  else if c = 0x6E then some (encodeRune 0x0A)
  else if c = 0x72 then some (encodeRune 0x0D)
  else if c = 0x74 then some (encodeRune 0x09)
  else none

/-- What the first half of a surrogate pair stands for when it remains alone. -/
def lone : Option Nat → List Scalar
  | none => []
  | some _ => [replacement]

/-- What a string stands for. The option is the first half of a surrogate pair that
waits for the second. -/
def unescapeJson : Option Nat → List Scalar → Option (List Scalar)
  | high, [] => some (lone high)
  | high, r :: rs =>
    if r.ascii? = some backslash then
      match rs with
      | [] => none
      | e :: rs =>
        if e.ascii? = some 0x75 then
          match rs with
          | a :: b :: c :: d :: rs =>
            match hex4 a b c d, high with
            | none, _ => none
            | some n, some m =>
              if 0xDC00 ≤ n ∧ n < 0xE000 then
                (unescapeJson none rs).map
                  (encodeRune (0x10000 + (m - 0xD800) * 0x400 + (n - 0xDC00)) :: ·)
              else if 0xD800 ≤ n ∧ n < 0xDC00 then (unescapeJson (some n) rs).map (replacement :: ·)
              else (unescapeJson none rs).map fun t => replacement :: encodeRune n :: t
            | some n, none =>
              if 0xD800 ≤ n ∧ n < 0xDC00 then unescapeJson (some n) rs
              else (unescapeJson none rs).map (encodeRune n :: ·)
          | _ => none
        else
          match simpleEscape e with
          | none => none
          | some e => (unescapeJson none rs).map fun t => lone high ++ e :: t
    else (unescapeJson none rs).map fun t => lone high ++ r :: t

/-- A string behind its opening quote, as it is written, and the rest. The flag says
that a backslash came before. -/
def scanString (q : UInt8) : Bool → Bytes → Option (Bytes × Bytes)
  | _, [] => none
  | true, c :: s => if c < 0x20 then none else (scanString q false s).map fun r => (c :: r.1, r.2)
  | false, c :: s =>
    if c = q then some ([], s)
    else if c < 0x20 then none
    else (scanString q (c = backslash) s).map fun r => (c :: r.1, r.2)

/-- A string behind its opening quote, and the rest. -/
def readString (q : UInt8) (s : Bytes) : Option (List Scalar × Bytes) := do
  let (raw, rest) ← scanString q false s
  let text ← unescapeJson none (scalars raw)
  some (text, rest)

/-! Reading a number. -/

/-- At least one digit. -/
def readDigits (s : Bytes) : Option (Bytes × Bytes) :=
  if s.takeWhile isDigit = [] then none else some (s.takeWhile isDigit, s.dropWhile isDigit)

/-- No zero stands before another digit. -/
def readInteger : Bytes → Option (Bytes × Bytes)
  | [] => none
  | c :: s => if c = 0x30 then some ([c], s) else readDigits (c :: s)

def readFraction : Bytes → Option (Bytes × Bytes)
  | [] => some ([], [])
  | c :: s => if c = 0x2E then (readDigits s).map fun r => (c :: r.1, r.2) else some ([], c :: s)

def readSign (signs : Bytes) : Bytes → Bytes × Bytes
  | [] => ([], [])
  | c :: s => if c ∈ signs then ([c], s) else ([], c :: s)

def readExponent : Bytes → Option (Bytes × Bytes)
  | [] => some ([], [])
  | c :: s =>
    if c = 0x65 ∨ c = 0x45 then
      let sign := readSign [0x2B, 0x2D] s
      (readDigits sign.2).map fun r => (c :: sign.1 ++ r.1, r.2)
    else some ([], c :: s)

/-- A number, as it is written, and the rest. -/
def readNumber (s : Bytes) : Option (Bytes × Bytes) := do
  let sign := readSign [0x2D] s
  let (integer, s) ← readInteger sign.2
  let (fraction, s) ← readFraction s
  let (exponent, s) ← readExponent s
  some (sign.1 ++ integer ++ fraction ++ exponent, s)

def digitsValue (s : Bytes) : Nat := s.foldl (fun n c => 10 * n + (c.toNat - 0x30)) 0

def Int64 (n : Int) : Prop := -2 ^ 63 ≤ n ∧ n < 2 ^ 63

instance (n : Int) : Decidable (Int64 n) := inferInstanceAs (Decidable (_ ∧ _))

/-- strconv.ParseInt with 64 bits on the text of a number. -/
def parseInt64 (s : Bytes) : Option Int :=
  let sign := readSign [0x2D] s
  if sign.2 = [] ∨ ¬sign.2.all isDigit then none
  else
    let n : Int := if sign.1 = [] then digitsValue sign.2 else -digitsValue sign.2
    if Int64 n then some n else none

/-! Reading a value. -/

/-- A value; a number is kept as it was written. -/
inductive Json where
  | null
  | bool (b : Bool)
  | number (text : Bytes)
  | string (s : List Scalar)
  | array (items : List Json)
  | object (fields : List (List Scalar × Json))

def isJsonSpace (c : UInt8) : Bool := c = 0x20 || c = 0x09 || c = 0x0A || c = 0x0D

def dropSpace (s : Bytes) : Bytes := s.dropWhile isJsonSpace

def readLiteral (name : Bytes) (value : Json) (s : Bytes) : Option (Json × Bytes) :=
  if s.take name.length = name then some (value, s.drop name.length) else none

abbrev maxNestingDepth : Nat := 10000

mutual

/-- The value at the start of a text, behind spaces, at most so many levels deep,
and the rest. -/
def readTree : Nat → Nat → Bytes → Option (Json × Bytes)
  | 0, _, _ => none
  | fuel + 1, depth, s =>
    match dropSpace s with
    | [] => none
    | c :: s =>
      if c = 0x7B then
        match depth, dropSpace s with
        | 0, _ => none
        | _ + 1, [] => none
        | depth + 1, d :: s =>
          if d = 0x7D then some (.object [], s)
          else (readFields fuel depth (d :: s)).map fun r => (.object r.1, r.2)
      else if c = 0x5B then
        match depth, dropSpace s with
        | 0, _ => none
        | _ + 1, [] => none
        | depth + 1, d :: s =>
          if d = 0x5D then some (.array [], s)
          else (readItems fuel depth (d :: s)).map fun r => (.array r.1, r.2)
      else if c = quote then (readString quote s).map fun r => (.string r.1, r.2)
      else if c = 0x6E then readLiteral (str "null") .null (c :: s)
      else if c = 0x74 then readLiteral (str "true") (.bool true) (c :: s)
      else if c = 0x66 then readLiteral (str "false") (.bool false) (c :: s)
      else (readNumber (c :: s)).map fun r => (.number r.1, r.2)

/-- The items of an array and its closing bracket. -/
def readItems : Nat → Nat → Bytes → Option (List Json × Bytes)
  | 0, _, _ => none
  | fuel + 1, depth, s => do
    let (item, s) ← readTree fuel depth s
    match dropSpace s with
    | [] => none
    | c :: s =>
      if c = 0x5D then some ([item], s)
      else if c = 0x2C then
        let (items, s) ← readItems fuel depth s
        some (item :: items, s)
      else none

/-- The fields of an object and its closing brace. -/
def readFields : Nat → Nat → Bytes → Option (List (List Scalar × Json) × Bytes)
  | 0, _, _ => none
  | fuel + 1, depth, s =>
    match dropSpace s with
    | [] => none
    | q :: s =>
      if q = quote then do
        let (key, s) ← readString quote s
        match dropSpace s with
        | [] => none
        | c :: s =>
          if c = colon then do
            let (value, s) ← readTree fuel depth s
            match dropSpace s with
            | [] => none
            | c :: s =>
              if c = 0x7D then some ([(key, value)], s)
              else if c = 0x2C then
                let (fields, s) ← readFields fuel depth s
                some ((key, value) :: fields, s)
              else none
          else none
      else none

end

/-- The first value of a text. Two calls go by for a byte at most. -/
def readJson (s : Bytes) : Option (Json × Bytes) := readTree (2 * s.length + 2) maxNestingDepth s

end Net
