import FileSharing.Net.Path

/-!
Route templates of the vendored `gorilla/mux` and the regular expressions it
compiles them to. The compiled expressions use four constructs only, matched
here with the preference order of the `regexp` package. On a path given by its
segments such an expression compares segment by segment.
-/

namespace Mux
open Net

inductive RegexpType where
  | path
  | pathPrefix
deriving DecidableEq

/-- The constructs of a compiled template: a literal byte, the default variable
pattern `([^/]+)`, the optional `[/]?` of strict slash, and `$`. -/
inductive Tok where
  | lit (c : UInt8)
  | group
  | optSlash
  | eot
deriving DecidableEq

/-- Leftmost-first matching from the start of the text; the captures in order.
What follows the last construct is free. -/
def findSubmatch : List Tok → Bytes → Option (List Bytes)
  | [], _ => some []
  | .lit _ :: _, [] => none
  | .lit c :: toks, b :: rest => if b = c then findSubmatch toks rest else none
  | .group :: toks, s =>
    (List.range (s.takeWhile (· != slash)).length).reverse.findSome? fun i =>
      (s.take (i + 1) :: ·) <$> findSubmatch toks (s.drop (i + 1))
  | .optSlash :: toks, [] => findSubmatch toks []
  | .optSlash :: toks, b :: rest =>
    (if b = slash then findSubmatch toks rest else none).or (findSubmatch toks (b :: rest))
  | .eot :: toks, s => if s = [] then findSubmatch toks s else none

/-- A template cut at its first-level braces. -/
inductive Piece where
  | raw (s : Bytes)
  | var (body : Bytes)
deriving DecidableEq

abbrev openBrace : UInt8 := 0x7B
abbrev closeBrace : UInt8 := 0x7D

/-- braceIndices and the slicing around it; `none` for unbalanced braces. -/
def pieces (level : Nat) (acc : Bytes) : Bytes → Option (List Piece)
  | [] => if level = 0 then some [.raw acc] else none
  | c :: rest =>
    if c = openBrace then
      if level = 0 then (.raw acc :: ·) <$> pieces 1 [] rest
      else pieces (level + 1) (acc ++ [c]) rest
    else if c = closeBrace then
      if level = 0 then none
      else if level = 1 then (.var acc :: ·) <$> pieces 0 [] rest
      else pieces (level - 1) (acc ++ [c]) rest
    else pieces level (acc ++ [c]) rest

structure RouteRegexp where
  template : Bytes
  regexpType : RegexpType
  strictSlash : Bool
  regexp : List Tok
  varsN : List Bytes
deriving DecidableEq

def Piece.toks : Piece → List Tok
  | .raw s => s.map .lit
  | .var _ => [.group]

def Piece.name? : Piece → Option Bytes
  | .raw _ => none
  | .var body => some body

/-- newRouteRegexp for path and prefix templates whose variables use the default
pattern; `none` for an ill-formed template or a variable with its own pattern. -/
def newRouteRegexp (tpl : Bytes) (typ : RegexpType) (strictSlash : Bool) :
    Option RouteRegexp :=
  let strict := strictSlash && typ == .path
  let body := if strict && tpl.getLast? == some slash then tpl.dropLast else tpl
  match pieces 0 [] body with
  | none => none
  | some ps =>
    let varsN := ps.filterMap Piece.name?
    if varsN.any fun name => name.isEmpty || name.contains colon then none
    else
      some {
        template := tpl
        regexpType := typ
        strictSlash := strict
        regexp := ps.flatMap Piece.toks ++ (if strict then [.optSlash] else []) ++
          if typ = .pathPrefix then [] else [.eot]
        varsN }

/-- A template read by segments. -/
inductive SegPattern where
  | word (s : Bytes)
  | var
deriving DecidableEq

def SegPattern.toks : SegPattern → List Tok
  | .word s => s.map .lit
  | .var => [.group]

/-- The expression of a strict-slash path template with these segments. -/
def segToks (pats : List SegPattern) : List Tok :=
  pats.flatMap (fun p => .lit slash :: p.toks) ++ [.optSlash, .eot]

def matchSegs : List SegPattern → List Bytes → Option (List Bytes)
  | [], [] => some []
  | .word w :: pats, s :: segs => if s = w then matchSegs pats segs else none
  | .var :: pats, s :: segs => (s :: ·) <$> matchSegs pats segs
  | _, _ => none

theorem matchSegs_length {pats : List SegPattern} {segs caps : List Bytes}
    (h : matchSegs pats segs = some caps) : pats.length = segs.length := by
  induction pats generalizing segs caps with
  | nil =>
      cases segs with
      | nil => rfl
      | cons s segs => cases h
  | cons p pats ih =>
      cases segs with
      | nil => cases p <;> cases h
      | cons s segs =>
          cases p with
          | word w =>
              rw [matchSegs] at h
              split at h
              · simpa using ih h
              · cases h
          | var =>
              obtain ⟨rest, hrest, -⟩ := Option.map_eq_some_iff.mp h
              simpa using ih hrest

/-- A pattern word that can equal a segment. -/
def SegPattern.Proper : SegPattern → Prop
  | .word w => w ≠ [] ∧ slash ∉ w
  | .var => True

theorem segToks_cons (p : SegPattern) (pats : List SegPattern) :
    segToks (p :: pats) = .lit slash :: (p.toks ++ segToks pats) := by
  simp [segToks]

/-- Between segments the expression insists on a slash. -/
theorem findSubmatch_segToks_cons {c : UInt8} (h : c ≠ slash) (pats : List SegPattern)
    (rest : Bytes) : findSubmatch (segToks pats) (c :: rest) = none := by
  cases pats with
  | nil => simp [segToks, findSubmatch, h]
  | cons p pats => simp [segToks_cons, findSubmatch, h]

/-- What is left of a path after a segment: nothing, or a slash and more. -/
def AtSlash (rest : Bytes) : Prop := ∀ c, rest.head? = some c → c = slash

theorem findSubmatch_word {w s rest : Bytes} (hw : slash ∉ w) (hs : slash ∉ s)
    (hrest : AtSlash rest) (pats : List SegPattern) :
    findSubmatch (w.map .lit ++ segToks pats) (s ++ rest) =
      if s = w then findSubmatch (segToks pats) rest else none := by
  induction w generalizing s with
  | nil =>
      cases s with
      | nil => simp
      | cons c s =>
          have hc : c ≠ slash := fun e => hs (by simp [e])
          simp [findSubmatch_segToks_cons hc]
  | cons b w ih =>
      cases s with
      | nil =>
          cases rest with
          | nil => simp [findSubmatch]
          | cons c rest =>
              have hc : c = slash := hrest c rfl
              have hb : c ≠ b := fun e => hw (by simp [← hc, e])
              simp [findSubmatch, hb]
      | cons c s =>
          simp only [List.mem_cons, not_or] at hw hs
          by_cases hcb : c = b
          · simp [findSubmatch, hcb, ih hw.2 hs.2]
          · simp [findSubmatch, hcb]

/-- A variable takes a whole segment: a shorter capture leaves no slash behind. -/
theorem findSubmatch_var {s rest : Bytes} (hne : s ≠ []) (hs : slash ∉ s)
    (hrest : AtSlash rest) (pats : List SegPattern) :
    findSubmatch (.group :: segToks pats) (s ++ rest) =
      (s :: ·) <$> findSubmatch (segToks pats) rest := by
  have run : (s ++ rest).takeWhile (· != slash) = s := by
    rw [List.takeWhile_append_of_pos fun c hc => by simpa using fun e : c = slash => hs (e ▸ hc)]
    cases rest with
    | nil => simp
    | cons c rest => simp [hrest c rfl]
  obtain ⟨n, hn⟩ : ∃ n, s.length = n + 1 :=
    ⟨s.length - 1, by have := List.length_pos_iff.mpr hne; omega⟩
  have shorter : ∀ i ∈ (List.range n).reverse,
      ((s ++ rest).take (i + 1) :: ·) <$>
        findSubmatch (segToks pats) ((s ++ rest).drop (i + 1)) = none := by
    intro i hi
    have lt : i + 1 < s.length := by
      have := List.mem_range.mp (List.mem_reverse.mp hi)
      omega
    have inside : s[i + 1] ≠ slash := fun e => hs (e ▸ List.getElem_mem lt)
    rw [List.drop_append_of_le_length (by omega), List.drop_eq_getElem_cons lt,
      List.cons_append, findSubmatch_segToks_cons inside]
    rfl
  rw [findSubmatch, run, hn, List.range_succ, List.reverse_append, List.reverse_singleton,
    List.singleton_append, List.findSome?_cons, ← hn, List.take_left, List.drop_left]
  cases findSubmatch (segToks pats) rest with
  | none => exact List.findSome?_eq_none_iff.mpr shorter
  | some caps => rfl

theorem atSlash_tail (segs : List Bytes) (trailing : Bool) :
    AtSlash (segs.flatMap (slash :: ·) ++ if trailing then [slash] else []) := by
  intro c h
  cases segs with
  | nil => cases trailing <;> simp_all
  | cons s segs => simpa [eq_comm] using h

/-- Matching a strict-slash template is matching its segments. -/
theorem findSubmatch_segments {pats : List SegPattern} {segs : List Bytes}
    (hp : ∀ p ∈ pats, p.Proper) (hs : ∀ s ∈ segs, IsSegment s) (trailing : Bool) :
    findSubmatch (segToks pats)
        (segs.flatMap (slash :: ·) ++ if trailing then [slash] else []) =
      matchSegs pats segs := by
  induction pats generalizing segs with
  | nil =>
      cases segs with
      | nil => cases trailing <;> rfl
      | cons s segs =>
          have hne := (hs s List.mem_cons_self).nonempty
          simp [segToks, findSubmatch, matchSegs, hne]
  | cons p pats ih =>
      have proper := hp p List.mem_cons_self
      cases segs with
      | nil =>
          cases p with
          | word w =>
              cases w with
              | nil => exact absurd rfl proper.1
              | cons c w =>
                  cases trailing <;> simp [segToks_cons, findSubmatch, matchSegs, SegPattern.toks]
          | var => cases trailing <;> simp [segToks_cons, findSubmatch, matchSegs, SegPattern.toks]
      | cons s segs =>
          have seg := hs s List.mem_cons_self
          have tail := ih (fun q hq => hp q (List.mem_cons_of_mem _ hq))
            (fun t ht => hs t (List.mem_cons_of_mem _ ht))
          rw [segToks_cons, List.flatMap_cons, List.cons_append, List.cons_append, findSubmatch,
            if_pos rfl, List.append_assoc]
          cases p with
          | word w =>
              rw [SegPattern.toks, findSubmatch_word proper.2 seg.noSlash (atSlash_tail segs trailing),
                tail, matchSegs]
          | var =>
              rw [SegPattern.toks, List.singleton_append,
                findSubmatch_var seg.nonempty seg.noSlash (atSlash_tail segs trailing), tail,
                matchSegs]

theorem findSubmatch_pathOf {pats : List SegPattern} {segs : List Bytes}
    (hp : ∀ p ∈ pats, p.Proper) (hs : ∀ s ∈ segs, IsSegment s) (trailing : Bool) :
    findSubmatch (segToks pats) (pathOf segs trailing) = matchSegs pats segs := by
  cases segs with
  | nil => exact findSubmatch_segments hp hs true
  | cons s segs => exact findSubmatch_segments hp hs trailing

/-- A prefix template matches the paths that start with its text. -/
theorem findSubmatch_literal (w s : Bytes) :
    findSubmatch (w.map .lit) s = if w <+: s then some [] else none := by
  induction w generalizing s with
  | nil => simp [findSubmatch]
  | cons c w ih =>
      cases s with
      | nil => simp [findSubmatch]
      | cons b s =>
          by_cases h : b = c
          · simp [findSubmatch, h, ih]
          · simp [findSubmatch, h, Ne.symm h]

end Mux
