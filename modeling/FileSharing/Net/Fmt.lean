import FileSharing.Net.Percent
import Mathlib.Data.List.Infix

/-!
`fmt.Sprintf` called with a format and no operands. Every verb then lacks its
operand, so a directive leaves an error text behind; only the doubled percent
sign is ordinary output. A format comes out as it is only if it is plain text.
-/

namespace Fmt
open Net

/-- parsenum: the number, whether there was one, and the rest. An overlong
number swallows the whole rest. -/
def parsenum (num : Nat) (isnum : Bool) : Bytes → Nat × Bool × Bytes
  | [] => (num, isnum, [])
  | c :: rest =>
    if isDigit c then
      if num > 1000000 then (0, false, [])
      else parsenum (num * 10 + (c.toNat - 0x30)) true rest
    else (num, isnum, c :: rest)

abbrev openBracket : UInt8 := 0x5B
abbrev closeBracket : UInt8 := 0x5D
abbrev star : UInt8 := 0x2A
abbrev period : UInt8 := 0x2E
abbrev bang : UInt8 := 0x21

/-- What argNumber changes: the rest of the format, whether an index was found,
and whether the argument number is still good. -/
structure Scan where
  rest : Bytes
  found : Bool
  good : Bool

/-- argNumber with no operands: no explicit index is in range. -/
def argNumber (s : Bytes) (good : Bool) : Scan :=
  if s.head? ≠ some openBracket then ⟨s, false, good⟩
  else if s.length < 3 ∨ closeBracket ∉ s then ⟨s.tail, false, false⟩
  else
    let inner := s.tail.takeWhile (· != closeBracket)
    let after := (s.tail.dropWhile (· != closeBracket)).tail
    match parsenum 0 false inner with
    | (_, true, []) => ⟨after, true, false⟩
    | _ => ⟨after, false, false⟩

def isFlag (c : UInt8) : Bool := (str "#0+- ").contains c

/-- The length of the valid UTF-8 sequence at the start, if there is one. -/
def runeLength : Bytes → Option Nat
  | [] => none
  | c :: rest =>
    let cont (n : Nat) : Bool := match rest[n]? with
      | some b => 0x80 ≤ b && b ≤ 0xBF
      | none => false
    let second (lo hi : UInt8) : Bool := match rest[0]? with
      | some b => lo ≤ b && b ≤ hi
      | none => false
    if c < 0x80 then some 1
    else if 0xC2 ≤ c && c ≤ 0xDF && cont 0 then some 2
    else if c = 0xE0 && second 0xA0 0xBF && cont 1 then some 3
    else if c = 0xED && second 0x80 0x9F && cont 1 then some 3
    else if 0xE1 ≤ c && c ≤ 0xEF && c != 0xED && cont 0 && cont 1 then some 3
    else if c = 0xF0 && second 0x90 0xBF && cont 1 && cont 2 then some 4
    else if 0xF1 ≤ c && c ≤ 0xF3 && cont 0 && cont 1 && cont 2 then some 4
    else if c = 0xF4 && second 0x80 0x8F && cont 1 && cont 2 then some 4
    else none

/-- The verb as it is written back, with U+FFFD for an invalid byte, and the rest. -/
def decodeRune (s : Bytes) : Bytes × Bytes :=
  match runeLength s with
  | some n => (s.take n, s.drop n)
  | none => ([0xEF, 0xBF, 0xBD], s.drop 1)

/-- The output of one directive, after its percent sign, and what is left. -/
def directive (s : Bytes) : Bytes × Bytes :=
  let index := argNumber (s.dropWhile isFlag) true
  let (badWidth, width) : Bytes × Scan :=
    if index.rest.head? = some star then
      (str "%!(BADWIDTH)", ⟨index.rest.tail, false, index.good⟩)
    else
      match parsenum 0 false index.rest with
      | (_, isnum, rest) => ([], ⟨rest, index.found, index.good && !(index.found && isnum)⟩)
  let (badPrec, prec) : Bytes × Scan :=
    if width.rest.head? = some period then
      let index := argNumber width.rest.tail (width.good && !width.found)
      if index.rest.head? = some star then
        (str "%!(BADPREC)", ⟨index.rest.tail, false, index.good⟩)
      else
        match parsenum 0 false index.rest with
        | (_, _, rest) => ([], ⟨rest, index.found, index.good⟩)
    else ([], width)
  let final := if prec.found then prec else argNumber prec.rest prec.good
  if final.rest = [] then (badWidth ++ badPrec ++ str "%!(NOVERB)", [])
  else
    let (verb, rest) := decodeRune final.rest
    let text :=
      if verb = [percent] then [percent]
      else if final.good then str "%!" ++ verb ++ str "(MISSING)"
      else str "%!" ++ verb ++ str "(BADINDEX)"
    (badWidth ++ badPrec ++ text, rest)

/-- One unit of fuel for each plain byte or directive. -/
def sprintfLoop : Nat → Bytes → Bytes
  | 0, _ => []
  | _ + 1, [] => []
  | fuel + 1, c :: rest =>
    if c = percent then (directive rest).1 ++ sprintfLoop fuel (directive rest).2
    else c :: sprintfLoop fuel rest

def sprintf (format : Bytes) : Bytes := sprintfLoop format.length format

theorem sprintf_plain {s : Bytes} (h : percent ∉ s) : sprintf s = s := by
  unfold sprintf
  induction s with
  | nil => rfl
  | cons c s ih =>
      simp only [List.mem_cons, not_or] at h
      rw [List.length_cons, sprintfLoop, if_neg (Ne.symm h.1), ih h.2]

example : sprintf (str "100% of %%d") = str "100%!o(MISSING)f %d" := by decide

theorem argNumber_suffix (s : Bytes) (good : Bool) : (argNumber s good).rest <:+ s := by
  rw [argNumber]
  split
  · exact List.suffix_rfl
  · split
    · exact List.tail_suffix s
    · have after : (s.tail.dropWhile (· != closeBracket)).tail <:+ s :=
        (List.tail_suffix _).trans ((List.dropWhile_suffix _).trans (List.tail_suffix s))
      dsimp only
      split <;> exact after

theorem parsenum_suffix (num : Nat) (isnum : Bool) (s : Bytes) : (parsenum num isnum s).2.2 <:+ s := by
  induction s generalizing num isnum with
  | nil => exact List.suffix_rfl
  | cons c s ih =>
      rw [parsenum]
      split
      · split
        · exact List.nil_suffix
        · exact (ih _ _).trans (List.suffix_cons c s)
      · exact List.suffix_rfl

theorem decodeRune_suffix (s : Bytes) : (decodeRune s).2 <:+ s := by
  rw [decodeRune]
  split <;> exact List.drop_suffix _ _

/-- Every percent sign is followed by an exclamation mark. -/
def marks : Bytes → Bool
  | [] => true
  | c :: s => (c != percent || s.head? == some bang) && marks s

theorem marks_append {s s' : Bytes} (h : marks s = true) (h' : marks s' = true) :
    marks (s ++ s') = true := by
  induction s with
  | nil => exact h'
  | cons c s ih =>
      simp only [marks, Bool.and_eq_true] at h
      rw [List.cons_append, marks, ih h.2, Bool.and_true]
      cases s with
      | nil =>
          have plain : (c != percent) = true := by simpa using h.1
          rw [plain]
          rfl
      | cons d s => exact h.1

theorem marks_percent {s s' : Bytes} (h : marks (s ++ percent :: s') = true) :
    s'.head? = some bang := by
  induction s with
  | nil =>
      simp only [List.nil_append, marks, bne_self_eq_false, Bool.false_or, Bool.and_eq_true] at h
      exact eq_of_beq h.1
  | cons c s ih =>
      simp only [List.cons_append, marks, Bool.and_eq_true] at h
      exact ih h.2

theorem marks_of_plain {s : Bytes} (h : percent ∉ s) : marks s = true := by
  induction s with
  | nil => rfl
  | cons c s ih =>
      simp only [List.mem_cons, not_or] at h
      rw [marks, ih h.2, bne_iff_ne.mpr (Ne.symm h.1)]
      rfl

/-- After the first byte of a rune come bytes that are not ASCII. -/
theorem runeLength_tail {c : UInt8} {s : Bytes} {n : Nat} (h : runeLength (c :: s) = some n) :
    ∃ k, n = k + 1 ∧ ∀ b ∈ s.take k, 0x80 ≤ b := by
  rw [runeLength] at h
  dsimp only at h
  rcases s with _ | ⟨b0, _ | ⟨b1, _ | ⟨b2, s⟩⟩⟩ <;>
    simp only [List.getElem?_nil, List.getElem?_cons_zero, List.getElem?_cons_succ, Bool.and_false,
      Bool.and_eq_true, decide_eq_true_eq, if_false, Bool.false_eq_true] at h <;>
    split_ifs at h <;> cases h <;> refine ⟨_, rfl, ?_⟩ <;> simp <;> grind

/-- The verb is a percent sign, or holds none. -/
theorem decodeRune_verb {s : Bytes} (hs : s ≠ []) :
    (decodeRune s).1 = [percent] ∧ s = percent :: (decodeRune s).2 ∨ percent ∉ (decodeRune s).1 := by
  cases s with
  | nil => exact absurd rfl hs
  | cons c s =>
      by_cases sign : c = percent
      · subst sign
        exact .inl ⟨rfl, rfl⟩
      · right
        cases length : runeLength (c :: s) with
        | none =>
            simp only [decodeRune, length]
            decide
        | some n =>
            obtain ⟨k, rfl, high⟩ := runeLength_tail length
            have low : ¬(0x80 : UInt8) ≤ percent := by decide
            simp only [decodeRune, length, List.take_succ_cons, List.mem_cons, not_or]
            exact ⟨Ne.symm sign, fun h => low (high _ h)⟩

/-- A width, which may be a star. -/
def width (index : Scan) : Bytes × Scan :=
  if index.rest.head? = some star then
    (str "%!(BADWIDTH)", ⟨index.rest.tail, false, index.good⟩)
  else
    match parsenum 0 false index.rest with
    | (_, isnum, rest) => ([], ⟨rest, index.found, index.good && !(index.found && isnum)⟩)

/-- A precision, if there is one. -/
def precision (width : Scan) : Bytes × Scan :=
  if width.rest.head? = some period then
    let index := argNumber width.rest.tail (width.good && !width.found)
    if index.rest.head? = some star then
      (str "%!(BADPREC)", ⟨index.rest.tail, false, index.good⟩)
    else
      match parsenum 0 false index.rest with
      | (_, _, rest) => ([], ⟨rest, index.found, index.good⟩)
  else ([], width)

def verb (bad : Bytes) (final : Scan) : Bytes × Bytes :=
  if final.rest = [] then (bad ++ str "%!(NOVERB)", [])
  else
    let (verb, rest) := decodeRune final.rest
    let text :=
      if verb = [percent] then [percent]
      else if final.good then str "%!" ++ verb ++ str "(MISSING)"
      else str "%!" ++ verb ++ str "(BADINDEX)"
    (bad ++ text, rest)

/-- A directive is its width, its precision and its verb. -/
theorem directive_eq (s : Bytes) :
    directive s =
      let w := width (argNumber (s.dropWhile isFlag) true)
      let p := precision w.2
      verb (w.1 ++ p.1) (if p.2.found then p.2 else argNumber p.2.rest p.2.good) := rfl

theorem width_spec (index : Scan) :
    marks (width index).1 = true ∧ (width index).2.rest <:+ index.rest := by
  have complaint : marks (str "%!(BADWIDTH)") = true := by decide
  rw [width]
  split
  · exact ⟨complaint, List.tail_suffix _⟩
  · exact ⟨rfl, parsenum_suffix _ _ _⟩

theorem precision_spec (w : Scan) :
    marks (precision w).1 = true ∧ (precision w).2.rest <:+ w.rest := by
  have complaint : marks (str "%!(BADPREC)") = true := by decide
  rw [precision]
  split
  · have index := (argNumber_suffix w.rest.tail (w.good && !w.found)).trans (List.tail_suffix _)
    dsimp only
    split
    · exact ⟨complaint, (List.tail_suffix _).trans index⟩
    · exact ⟨rfl, (parsenum_suffix _ _ _).trans index⟩
  · exact ⟨rfl, List.suffix_rfl⟩

/-- The verb ends the directive: with what it lacks, or with the percent sign it
stands for. -/
theorem verb_spec {bad : Bytes} (hbad : marks bad = true) (final : Scan) :
    (verb bad final).2 <:+ final.rest ∧
      (marks (verb bad final).1 = true ∨
        (verb bad final).1 = bad ++ [percent] ∧ final.rest = percent :: (verb bad final).2) := by
  rw [verb]
  split
  · exact ⟨List.nil_suffix, .inl (marks_append hbad (by decide))⟩
  · rename_i more
    refine ⟨decodeRune_suffix _, ?_⟩
    dsimp only
    obtain ⟨sign, rest⟩ | plain := decodeRune_verb more
    · exact .inr ⟨by rw [if_pos sign], rest⟩
    · left
      have other : (decodeRune final.rest).1 ≠ [percent] := by
        intro sign
        rw [sign] at plain
        exact plain List.mem_cons_self
      have lacks : ∀ label, percent ∉ label →
          marks (str "%!" ++ (decodeRune final.rest).1 ++ label) = true := by
        intro label hlabel
        exact marks_append (marks_append (by decide) (marks_of_plain plain)) (marks_of_plain hlabel)
      rw [if_neg other]
      apply marks_append hbad
      split
      · exact lacks _ (by decide)
      · exact lacks _ (by decide)

/-- What a directive leaves is the end of what it was given. Its output marks
every percent sign, up to a last one that the directive held a second time. -/
theorem directive_spec (s : Bytes) :
    ∃ body, s = body ++ (directive s).2 ∧
      (marks (directive s).1 = true ∨
        ∃ bad, marks bad = true ∧ (directive s).1 = bad ++ [percent] ∧ percent ∈ body) := by
  rw [directive_eq]
  dsimp only
  obtain ⟨wmarks, wrest⟩ := width_spec (argNumber (s.dropWhile isFlag) true)
  obtain ⟨pmarks, prest⟩ := precision_spec (width (argNumber (s.dropWhile isFlag) true)).2
  have flags := (argNumber_suffix (s.dropWhile isFlag) true).trans (List.dropWhile_suffix isFlag)
  have given := prest.trans (wrest.trans flags)
  generalize (precision (width (argNumber (s.dropWhile isFlag) true)).2) = p at pmarks given
  have final : (if p.2.found then p.2 else argNumber p.2.rest p.2.good).rest <:+ s := by
    split
    · exact given
    · exact (argNumber_suffix _ _).trans given
  generalize (if p.2.found then p.2 else argNumber p.2.rest p.2.good) = last at final
  obtain ⟨left, output⟩ := verb_spec (marks_append wmarks pmarks) last
  obtain ⟨body, whole⟩ := left.trans final
  refine ⟨body, whole.symm, ?_⟩
  obtain marked | ⟨sign, rest⟩ := output
  · exact .inl marked
  · refine .inr ⟨_, marks_append wmarks pmarks, sign, ?_⟩
    obtain ⟨before, held⟩ := final
    have same := whole.trans (held.symm.trans (by rw [rest, List.append_cons]))
    rw [List.append_cancel_right same]
    exact List.mem_append_right _ (List.mem_singleton.mpr rfl)

/-- A directive that starts with an exclamation mark ends with it. -/
theorem directive_bang (s : Bytes) : directive (bang :: s) = (str "%!!(MISSING)", s) := rfl

theorem directive_length (s : Bytes) : (directive s).2.length ≤ s.length := by
  obtain ⟨body, whole, -⟩ := directive_spec s
  have length := congrArg List.length whole
  rw [List.length_append] at length
  omega

/-- Fuel is no matter as long as there is enough of it. -/
theorem sprintfLoop_fuel {fuel fuel' : Nat} {s : Bytes} (h : s.length ≤ fuel)
    (h' : s.length ≤ fuel') : sprintfLoop fuel s = sprintfLoop fuel' s := by
  induction fuel generalizing fuel' s with
  | zero =>
      cases List.eq_nil_of_length_eq_zero (Nat.le_zero.mp h)
      cases fuel' <;> rfl
  | succ fuel ih =>
      cases s with
      | nil => cases fuel' <;> rfl
      | cons c s =>
          rw [List.length_cons] at h h'
          cases fuel' with
          | zero => omega
          | succ fuel' =>
              have shorter := directive_length s
              have rest : sprintfLoop fuel s = sprintfLoop fuel' s := ih (by omega) (by omega)
              have after : sprintfLoop fuel (directive s).2 = sprintfLoop fuel' (directive s).2 :=
                ih (by omega) (by omega)
              rw [sprintfLoop, sprintfLoop, rest, after]

@[simp] theorem sprintf_nil : sprintf [] = [] := rfl

theorem sprintf_cons {c : UInt8} (hc : c ≠ percent) (s : Bytes) :
    sprintf (c :: s) = c :: sprintf s :=
  if_neg hc

theorem sprintf_percent (s : Bytes) :
    sprintf (percent :: s) = (directive s).1 ++ sprintf (directive s).2 := by
  have enough := directive_length s
  rw [sprintf, sprintf, List.length_cons, sprintfLoop, if_pos rfl,
    sprintfLoop_fuel enough (Nat.le_refl _)]

theorem sprintf_append {p : Bytes} (hp : percent ∉ p) (s : Bytes) :
    sprintf (p ++ s) = p ++ sprintf s := by
  induction p with
  | nil => rfl
  | cons c p ih =>
      simp only [List.mem_cons, not_or] at hp
      rw [List.cons_append, sprintf_cons (Ne.symm hp.1), ih hp.2, List.cons_append]

/-- The first directive of a format that is written behind other text: what is
left of the format is written behind text with a percent sign, or the directive
was one that marks itself. -/
theorem sprintf_behind {s w : Bytes} (same : sprintf (percent :: s) = w ++ percent :: s) :
    (∃ w', percent ∈ w' ∧ sprintf (directive s).2 = w' ++ (directive s).2) ∨
      percent ∉ w ∧ s.head? = some bang := by
  obtain ⟨body, whole, output⟩ := directive_spec s
  have behind : (directive s).1 ++ sprintf (directive s).2 =
      w ++ ((percent :: body) ++ (directive s).2) := by
    rw [← sprintf_percent, same, List.cons_append, ← whole]
  obtain ⟨more, written, rest⟩ | ⟨more, written, rest⟩ := List.append_eq_append_iff.mp behind
  · -- the directive wrote less than there was
    refine .inl ⟨more ++ percent :: body, List.mem_append_right _ List.mem_cons_self, ?_⟩
    rw [rest, List.append_assoc]
  · -- the directive wrote into what it read itself
    cases more with
    | nil => exact .inl ⟨percent :: body, List.mem_cons_self, rest.symm⟩
    | cons c more =>
        simp only [List.cons_append, List.cons.injEq] at rest
        obtain ⟨rfl, rest⟩ := rest
        have marked : more.head? = some bang → percent ∉ w ∧ s.head? = some bang := by
          intro head
          have start : s.head? = some bang := by
            rw [whole, rest, List.head?_append, head]
            rfl
          refine ⟨?_, start⟩
          obtain ⟨t, rfl⟩ := List.head?_eq_some_iff.mp start
          rw [directive_bang] at written
          have once := congrArg (List.count percent) written
          have one : List.count percent (str "%!!(MISSING)") = 1 := by decide
          rw [one, List.count_append, List.count_cons_self] at once
          exact List.count_eq_zero.mp (by omega)
        obtain marks | ⟨bad, hbad, sign, held⟩ := output
        · rw [written] at marks
          exact .inr (marked (marks_percent marks))
        · obtain rfl | ⟨init, last, rfl⟩ := List.eq_nil_or_concat more
          · exact .inl ⟨body, held, rest.symm⟩
          · rw [List.concat_eq_append] at written marked
            have text : bad ++ [percent] = w ++ percent :: init ++ [last] := by
              rw [← sign, written]
              simp
            rw [(List.append_inj' text rfl).1] at hbad
            refine .inr (marked ?_)
            rw [List.head?_append, marks_percent hbad]
            rfl

/-- A format is never written behind text that holds a percent sign. What is read
joins the text that is still to be written, so a percent sign always remains. -/
theorem sprintf_ne_append (s : Bytes) {w : Bytes} (hw : percent ∈ w) : sprintf s ≠ w ++ s := by
  induction hn : s.length using Nat.strongRecOn generalizing s w with
  | ind n ih =>
      intro same
      cases s with
      | nil =>
          cases w with
          | nil => cases hw
          | cons c w => cases same
      | cons c s =>
          rw [List.length_cons] at hn
          by_cases sign : c = percent
          · subst sign
            have shorter := directive_length s
            obtain ⟨w', hw', behind⟩ | ⟨unsigned, -⟩ := sprintf_behind same
            · exact ih _ (by omega) _ hw' rfl behind
            · exact unsigned hw
          · cases w with
            | nil => cases hw
            | cons d w =>
                rw [sprintf_cons sign, List.cons_append, List.cons.injEq] at same
                obtain ⟨rfl, same⟩ := same
                have later : percent ∈ w ++ [c] :=
                  List.mem_append_left _ ((List.mem_cons.mp hw).resolve_left (Ne.symm sign))
                exact ih s.length (by omega) s later rfl (by rw [same, List.append_cons])

/-- Plain text is never put before a format by writing it. -/
theorem ne_append_sprintf {p : Bytes} (hp : percent ∉ p) (nonempty : p ≠ []) (s : Bytes) :
    s ≠ p ++ sprintf s := by
  induction hn : s.length using Nat.strongRecOn generalizing s with
  | ind n ih =>
      intro same
      have length := congrArg List.length same
      have pos := List.length_pos_of_ne_nil nonempty
      rw [List.length_append] at length
      refine ih (sprintf s).length (by omega) (sprintf s) rfl ?_
      conv_lhs => rw [same]
      exact sprintf_append hp _

/-- A format without operands is written as it is exactly when it has no percent
sign. -/
theorem sprintf_eq_iff (s : Bytes) : sprintf s = s ↔ percent ∉ s := by
  refine ⟨?_, sprintf_plain⟩
  intro same
  induction s with
  | nil => exact List.not_mem_nil
  | cons c s ih =>
      by_cases sign : c = percent
      · subst sign
        obtain ⟨w, hw, behind⟩ | ⟨-, start⟩ := @sprintf_behind s [] same
        · exact absurd behind (sprintf_ne_append _ hw)
        · obtain ⟨t, rfl⟩ := List.head?_eq_some_iff.mp start
          rw [sprintf_percent, directive_bang] at same
          have text : str "%!!(MISSING)" = percent :: bang :: str "!(MISSING)" := by decide
          have missing : t = str "!(MISSING)" ++ sprintf t := by
            simpa only [text, List.cons_append, List.cons.injEq, true_and] using same.symm
          exact absurd missing (ne_append_sprintf (by decide) (by decide) t)
      · rw [sprintf_cons sign, List.cons.injEq] at same
        rw [List.mem_cons, not_or]
        exact ⟨Ne.symm sign, ih same.2⟩

end Fmt
