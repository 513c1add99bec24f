import FileSharing.Net.Cookie
import FileSharing.Net.Query

/-!
Header values with parameters: a token, then parameters whose values are tokens
or quoted strings. `Quoting` says which bytes a quoted string may hold as they
are and which after a backslash.
-/

namespace Net

abbrev quote : UInt8 := 0x22
abbrev backslash : UInt8 := 0x5C

/-- The bytes of a quoted string: those that stand for themselves, and those
that may follow a backslash. -/
structure Quoting where
  text : UInt8 → Bool
  pair : UInt8 → Bool
  plain : ∀ c, text c = true → c ≠ quote ∧ c ≠ backslash

/-- No control byte but the tab. -/
def isVisible (c : UInt8) : Bool := c = 0x09 || 0x20 ≤ c && c != 0x7F

/-- The quoted string of the HTTP grammar. -/
def Quoting.http : Quoting where
  text c := isVisible c && c != quote && c != backslash
  pair := isVisible
  plain c hc := by
    simp only [Bool.and_eq_true, bne_iff_ne] at hc
    exact ⟨hc.1.2, hc.2⟩

/-- Any byte, as long as the end of the string can be told. -/
def Quoting.lenient : Quoting where
  text c := c != quote && c != backslash
  pair _ := true
  plain c hc := by simpa using hc

def skipSpace (s : Bytes) : Bytes := s.dropWhile fun c => c = space || c = 0x09

def readToken (s : Bytes) : Option (Bytes × Bytes) :=
  let name := s.takeWhile isTokenByte
  if name = [] then none else some (name, s.dropWhile isTokenByte)

/-- A quoted string after its opening quote, and the rest. The flag says that a
backslash came before. -/
def readQuoted (q : Quoting) : Bool → Bytes → Option (Bytes × Bytes)
  | _, [] => none
  | true, c :: s => if q.pair c then (readQuoted q false s).map fun r => (c :: r.1, r.2) else none
  | false, c :: s =>
    if c = quote then some ([], s)
    else if c = backslash then readQuoted q true s
    else if q.text c then (readQuoted q false s).map fun r => (c :: r.1, r.2)
    else none

def readValue (q : Quoting) (s : Bytes) : Option (Bytes × Bytes) :=
  match s with
  | c :: rest => if c = quote then readQuoted q false rest else readToken s
  | [] => none

/-- Parameters as long as there is a semicolon, and the rest. -/
def readParameters (q : Quoting) : Nat → Bytes → Option (List (Bytes × Bytes) × Bytes)
  | 0, s => some ([], s)
  | fuel + 1, s =>
    match skipSpace s with
    | c :: rest =>
      if c = semicolon then do
        let (name, rest) ← readToken (skipSpace rest)
        match skipSpace rest with
        | d :: rest =>
          if d = equals then do
            let (value, rest) ← readValue q (skipSpace rest)
            let (parameters, rest) ← readParameters q fuel rest
            some ((name, value) :: parameters, rest)
          else none
        | [] => none
      else some ([], s)
    | [] => some ([], s)

structure Disposition where
  type : Bytes
  parameters : List (Bytes × Bytes)
deriving DecidableEq

def readDisposition (q : Quoting) (s : Bytes) : Option (Disposition × Bytes) := do
  let (type, rest) ← readToken s
  let (parameters, rest) ← readParameters q rest.length rest
  some (⟨type, parameters⟩, rest)

/-- A whole header value by the HTTP grammar. -/
def parseDisposition (s : Bytes) : Option Disposition := do
  let (d, rest) ← readDisposition .http s
  if skipSpace rest = [] then some d else none

theorem readToken_append {w : Bytes} (hw : w.all isTokenByte = true) (nonempty : w ≠ []) {c : UInt8}
    (hc : isTokenByte c = false) (rest : Bytes) :
    readToken (w ++ c :: rest) = some (w, c :: rest) := by
  have all := List.all_eq_true.mp hw
  rw [readToken, List.takeWhile_append_of_pos all, List.dropWhile_append_of_pos all,
    List.takeWhile_cons_of_neg (by simp [hc]), List.dropWhile_cons_of_neg (by simp [hc]),
    List.append_nil, if_neg nonempty]

section Quoted
variable {q : Quoting}

/-- A string is read back that has a backslash before the bytes that need one. -/
theorem readQuoted_escaped {special : UInt8 → Bool} (hpair : ∀ c, special c = true → q.pair c = true)
    {s : Bytes} (htext : ∀ c ∈ s, special c = false → q.text c = true) (rest : Bytes) :
    readQuoted q false
      (s.flatMap (fun c => if special c then [backslash, c] else [c]) ++ quote :: rest) =
      some (s, rest) := by
  have distinct : ¬backslash = quote := by decide
  induction s with
  | nil => simp [readQuoted]
  | cons c s ih =>
      have read := ih fun d hd => htext d (List.mem_cons_of_mem _ hd)
      cases hc : special c with
      | true => simp [readQuoted, hc, hpair c hc, read, distinct]
      | false =>
          have text := htext c List.mem_cons_self hc
          obtain ⟨unquoted, unescaped⟩ := q.plain c text
          simp [readQuoted, hc, text, unquoted, unescaped, read]

theorem readQuoted_text {s : Bytes} (hs : s.all q.text = true) (rest : Bytes) :
    readQuoted q false (s ++ quote :: rest) = some (s, rest) := by
  have read := @readQuoted_escaped q (fun _ => false) (by simp) s
    (fun c hc _ => List.all_eq_true.mp hs c hc) rest
  simpa using read

/-- What is read is shorter than what was written, by the closing quote and by
every backslash. -/
theorem readQuoted_length {escaped : Bool} {s value rest : Bytes}
    (read : readQuoted q escaped s = some (value, rest)) :
    value.length + rest.length + 1 ≤ s.length ∧
      (escaped = false → s.length = value.length + rest.length + 1 → value.all q.text = true) := by
  induction s generalizing escaped value with
  | nil => cases escaped <;> cases read
  | cons c s ih =>
      rw [List.length_cons]
      cases escaped with
      | true =>
          rw [readQuoted] at read
          split at read
          · obtain ⟨r, hr, same⟩ := Option.map_eq_some_iff.mp read
            cases same
            have shorter := (ih hr).1
            rw [List.length_cons]
            exact ⟨by omega, fun h => by cases h⟩
          · cases read
      | false =>
          rw [readQuoted] at read
          split at read
          · cases read
            exact ⟨by simp, fun _ _ => rfl⟩
          · split at read
            · have shorter := (ih read).1
              exact ⟨by omega, fun _ h => by omega⟩
            · split at read
              · rename_i text
                obtain ⟨r, hr, same⟩ := Option.map_eq_some_iff.mp read
                cases same
                obtain ⟨shorter, all⟩ := ih hr
                rw [List.length_cons]
                refine ⟨by omega, fun _ h => ?_⟩
                rw [List.all_cons, text, all rfl (by omega)]
                rfl
              · cases read

end Quoted

/-- The value of a parameter in quotes is read as it was written exactly when
every byte of it stands for itself. -/
theorem readQuoted_eq_iff (q : Quoting) (s : Bytes) :
    (∃ rest, readQuoted q false (s ++ [quote]) = some (s, rest)) ↔ s.all q.text = true := by
  constructor
  · intro read
    obtain ⟨rest, read⟩ := read
    obtain ⟨shorter, all⟩ := readQuoted_length read
    rw [List.length_append, List.length_singleton] at shorter all
    exact all rfl (by omega)
  · intro text
    exact ⟨[], readQuoted_text text []⟩

theorem skipSpace_cons {c : UInt8} (hc : (c = space || c = 0x09) = false) (s : Bytes) :
    skipSpace (c :: s) = c :: s := by
  rw [skipSpace, List.dropWhile_cons_of_neg (by rw [hc]; exact Bool.false_ne_true)]

theorem skipSpace_token {w : Bytes} (hw : isToken w = true) (s : Bytes) :
    skipSpace (w ++ s) = w ++ s := by
  have visible : ∀ c, isTokenByte c = true → (c = space || c = 0x09) = false :=
    forall_byte (by decide)
  cases w with
  | nil => cases hw
  | cons c w =>
      refine skipSpace_cons (visible c ?_) (w ++ s)
      simp only [isToken, List.all_cons, Bool.and_eq_true] at hw
      exact hw.2.1

theorem readToken_token {w : Bytes} (hw : isToken w = true) {c : UInt8}
    (hc : isTokenByte c = false) (rest : Bytes) :
    readToken (w ++ c :: rest) = some (w, c :: rest) := by
  simp only [isToken, Bool.and_eq_true, Bool.not_eq_true', List.isEmpty_eq_false_iff] at hw
  exact readToken_append hw.2 hw.1 hc rest

section Parameters
variable {q : Quoting} {type name : Bytes} (htype : isToken type = true)
  (hname : isToken name = true) (s : Bytes)
include hname

/-- A parameter in quotes, with one space before it. -/
theorem readParameters_quoted (fuel : Nat) :
    readParameters q (fuel + 1) (semicolon :: space :: (name ++ equals :: quote :: s)) =
      (readQuoted q false s).bind fun v =>
        (readParameters q fuel v.2).map fun ps => ((name, v.1) :: ps.1, ps.2) := by
  have spaced : skipSpace (space :: (name ++ equals :: quote :: s)) =
      name ++ equals :: quote :: s :=
    (List.dropWhile_cons_of_pos rfl).trans (skipSpace_token hname _)
  have sign := fun rest => @skipSpace_cons equals (by decide) rest
  have opening := fun rest => @skipSpace_cons quote (by decide) rest
  rw [readParameters, skipSpace_cons (by decide)]
  simp only [if_true, spaced, readToken_token hname (by decide : isTokenByte equals = false), sign,
    opening, readValue, Option.bind_eq_bind, Option.bind_some]
  cases readQuoted q false s with
  | none => rfl
  | some v =>
      simp only [Option.bind_some]
      cases readParameters q fuel v.2 <;> rfl

include htype

/-- A type and a first parameter in quotes. -/
theorem readDisposition_quoted :
    readDisposition q (type ++ semicolon :: space :: (name ++ equals :: quote :: s)) =
      (readQuoted q false s).bind fun v =>
        (readParameters q (name.length + s.length + 3) v.2).map fun ps =>
          (⟨type, (name, v.1) :: ps.1⟩, ps.2) := by
  have fuel : (semicolon :: space :: (name ++ equals :: quote :: s)).length =
      name.length + s.length + 3 + 1 := by
    simp only [List.length_cons, List.length_append]
    omega
  rw [readDisposition, readToken_token htype (by decide)]
  simp only [Option.bind_eq_bind, Option.bind_some, fuel, readParameters_quoted hname]
  cases readQuoted q false s with
  | none => rfl
  | some v =>
      simp only [Option.bind_some]
      cases readParameters q (name.length + s.length + 3) v.2 <;> rfl

/-- A type with one parameter in quotes, as it is written without any escaping,
is read so exactly when every byte of the parameter stands for itself. -/
theorem parseDisposition_quoted :
    parseDisposition (type ++ semicolon :: space :: (name ++ equals :: quote :: (s ++ [quote]))) =
        some ⟨type, [(name, s)]⟩ ↔ s.all Quoting.http.text = true := by
  rw [parseDisposition, readDisposition_quoted htype hname]
  constructor
  · intro parsed
    rw [← readQuoted_eq_iff]
    cases read : readQuoted .http false (s ++ [quote]) with
    | none =>
        rw [read] at parsed
        cases parsed
    | some v =>
        rw [read, Option.bind_some] at parsed
        cases more : readParameters .http (name.length + (s ++ [quote]).length + 3) v.2 with
        | none =>
            rw [more] at parsed
            cases parsed
        | some ps =>
            simp only [more, Option.map_some, Option.bind_eq_bind, Option.bind_some,
              Option.ite_none_right_eq_some, Option.some.injEq, Disposition.mk.injEq,
              List.cons.injEq, Prod.mk.injEq, true_and] at parsed
            exact ⟨v.2, by rw [← parsed.2.1]⟩
  · intro text
    rw [readQuoted_text text []]
    rfl

end Parameters
end Net
