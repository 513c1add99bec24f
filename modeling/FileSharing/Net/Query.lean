import FileSharing.Net.Percent
import Mathlib.Data.List.Sort
import Mathlib.Order.Defs.LinearOrder

/-!
Form values and the `application/x-www-form-urlencoded` format: the encoder
sorts by key and keeps the order of the values of one key, the decoder drops
pairs it cannot read. Decoding an encoding returns every value of every key.
-/

namespace Net

abbrev ampersand : UInt8 := 0x26
abbrev equals : UInt8 := 0x3D
abbrev plus : UInt8 := 0x2B
abbrev semicolon : UInt8 := 0x3B

/-- url.Values, as the key and value pairs in the order they were added. -/
abbrev Values : Type := List (Bytes × Bytes)

namespace Values

def add (v : Values) (key value : Bytes) : Values := v ++ [(key, value)]

/-- `v[key]`: all values of a key, in order. -/
def all (v : Values) (key : Bytes) : List Bytes := (v.filter fun p => p.1 = key).map (·.2)

/-- The first value of a key, empty when there is none. -/
def get (v : Values) (key : Bytes) : Bytes := (v.all key).head?.getD []

@[simp] theorem all_nil (key : Bytes) : all [] key = [] := rfl

@[simp] theorem all_cons (p : Bytes × Bytes) (v : Values) (key : Bytes) :
    all (p :: v) key = if p.1 = key then p.2 :: all v key else all v key := by
  by_cases h : p.1 = key <;> simp [all, h]

@[simp] theorem all_append (v w : Values) (key : Bytes) :
    all (v ++ w) key = all v key ++ all w key := by
  simp [all]

end Values

/-- The unreserved bytes of RFC 3986. -/
def unreserved (c : UInt8) : Bool :=
  isAlnum c || c == 0x2D || c == 0x5F || c == 0x2E || c == 0x7E

def queryEscape (s : Bytes) : Bytes :=
  s.flatMap fun c =>
    if c = space then [plus]
    else if unreserved c then [c]
    else escapeByte upperHex c

def plusToSpace (c : UInt8) : UInt8 := if c = plus then space else c

/-- In a query component a plus sign stands for a space. -/
def queryUnescape (s : Bytes) : Option Bytes := unescape (s.map plusToSpace)

private theorem plusToSpace_hex {c : UInt8} (h : isHex c = true) : plusToSpace c = c := by
  have hne : c ≠ plus := by
    rintro rfl
    cases h
  simp [plusToSpace, hne]

private theorem map_escapeByte (c : UInt8) :
    (escapeByte upperHex c).map plusToSpace = escapeByte upperHex c := by
  rw [List.map_congr_left (g := id), List.map_id]
  intro d hd
  cases mem_escapeByte hexDigits_upper hd with
  | inl e => rw [e]; rfl
  | inr e => exact plusToSpace_hex e

/-- Undoing the plus signs leaves an ordinary percent-encoding. -/
theorem map_plusToSpace_queryEscape (s : Bytes) :
    (queryEscape s).map plusToSpace =
      escape (fun c => c == space || unreserved c) upperHex s := by
  induction s with
  | nil => rfl
  | cons c s ih =>
      have step : queryEscape (c :: s) =
          (if c = space then [plus] else if unreserved c then [c] else escapeByte upperHex c) ++
            queryEscape s := rfl
      rw [step, escape_cons, List.map_append, ih]
      congr 1
      by_cases hs : c = space
      · subst hs
        rfl
      · by_cases hu : unreserved c = true
        · have hp : c ≠ plus := by
            rintro rfl
            cases hu
          simp [hs, hu, plusToSpace, hp]
        · simp [hs, hu, map_escapeByte]

theorem queryUnescape_queryEscape (s : Bytes) : queryUnescape (queryEscape s) = some s := by
  rw [queryUnescape, map_plusToSpace_queryEscape]
  exact unescape_escape (by decide) hexDigits_upper s

/-- A separator is neither unreserved nor a byte of an escape. -/
theorem not_mem_queryEscape {d : UInt8} (hu : unreserved d = false) (hp : d ≠ plus)
    (hc : d ≠ percent) (hh : isHex d = false) (s : Bytes) : d ∉ queryEscape s := by
  intro h
  obtain ⟨c, -, hd⟩ := List.mem_flatMap.mp h
  split at hd
  · exact hp (List.mem_singleton.mp hd)
  · split at hd
    · rw [List.mem_singleton.mp hd] at hu
      simp_all
    · cases mem_escapeByte hexDigits_upper hd with
      | inl e => exact hc e
      | inr e => simp [hh] at e

/-- strings.Cut: the parts before and after the first separator. -/
def cut (sep : UInt8) : Bytes → Bytes × Bytes
  | [] => ([], [])
  | c :: rest => if c = sep then ([], rest) else ((c :: (cut sep rest).1), (cut sep rest).2)

theorem cut_append {sep : UInt8} {s : Bytes} (h : sep ∉ s) (rest : Bytes) :
    cut sep (s ++ sep :: rest) = (s, rest) := by
  induction s with
  | nil => simp [cut]
  | cons c s ih =>
      simp only [List.mem_cons, not_or] at h
      simp [cut, Ne.symm h.1, ih h.2]

def encodePair (p : Bytes × Bytes) : Bytes := queryEscape p.1 ++ equals :: queryEscape p.2

/-- Values.Encode: sorted by key, the values of one key in their order. -/
def Values.encode (v : Values) : Bytes :=
  [ampersand].intercalate ((v.insertionSort fun p q => p.1 ≤ q.1).map encodePair)

/-- One step of url.ParseQuery; `none` where Go skips the pair. -/
def parsePair (s : Bytes) : Option (Bytes × Bytes) :=
  if s.contains semicolon || s.isEmpty then none
  else
    match queryUnescape (cut equals s).1, queryUnescape (cut equals s).2 with
    | some key, some value => some (key, value)
    | _, _ => none

def parseQuery (query : Bytes) : Values := (query.splitOn ampersand).filterMap parsePair

theorem not_mem_encodePair {d : UInt8} (hu : unreserved d = false) (hp : d ≠ plus)
    (hc : d ≠ percent) (hh : isHex d = false) (he : d ≠ equals) (p : Bytes × Bytes) :
    d ∉ encodePair p := by
  intro h
  rcases List.mem_append.mp h with h | h
  · exact not_mem_queryEscape hu hp hc hh _ h
  · rcases List.mem_cons.mp h with h | h
    · exact he h
    · exact not_mem_queryEscape hu hp hc hh _ h

theorem parsePair_encodePair (p : Bytes × Bytes) : parsePair (encodePair p) = some p := by
  have hsemi : semicolon ∉ encodePair p :=
    not_mem_encodePair (by decide) (by decide) (by decide) (by decide) (by decide) p
  have hcut : cut equals (encodePair p) = (queryEscape p.1, queryEscape p.2) :=
    cut_append (not_mem_queryEscape (by decide) (by decide) (by decide) (by decide) _) _
  have hne : (encodePair p).isEmpty = false := by simp [encodePair]
  simp [parsePair, hsemi, hne, hcut, queryUnescape_queryEscape]

theorem parseQuery_encode (v : Values) :
    parseQuery v.encode = v.insertionSort fun p q => p.1 ≤ q.1 := by
  set sorted := v.insertionSort fun p q => p.1 ≤ q.1 with hsorted
  cases hv : sorted with
  | nil => simp [Values.encode, ← hsorted, hv, parseQuery, parsePair]
  | cons p rest =>
      have clean : ∀ l ∈ sorted.map encodePair, ampersand ∉ l := by
        intro l hl h
        obtain ⟨q, -, rfl⟩ := List.mem_map.mp hl
        exact not_mem_encodePair (by decide) (by decide) (by decide) (by decide) (by decide) q h
      have split : v.encode.splitOn ampersand = sorted.map encodePair := by
        rw [Values.encode, ← hsorted]
        exact List.splitOn_intercalate _ clean (by simp [hv])
      rw [parseQuery, split, List.filterMap_map, ← hv]
      have each : parsePair ∘ encodePair = some := funext parsePair_encodePair
      rw [each, List.filterMap_some]

/-- Sorting by key does not reorder the values of one key. -/
theorem all_insertionSort (v : Values) (key : Bytes) :
    Values.all (v.insertionSort fun p q => p.1 ≤ q.1) key = v.all key := by
  have kept : ∀ p ∈ v.filter fun p => p.1 = key, p.1 = key := by
    intro p hp
    simpa using (List.mem_filter.mp hp).2
  have ordered : (v.filter fun p => p.1 = key).Pairwise fun p q => p.1 ≤ q.1 := by
    refine List.pairwise_of_forall_mem_list fun p hp q hq => ?_
    rw [kept p hp, kept q hq]
    exact List.le_refl _
  have sub := (List.sublist_insertionSort ordered List.filter_sublist).filter fun p => p.1 = key
  rw [List.filter_filter] at sub
  simp only [Bool.and_self] at sub
  have perm := (List.perm_insertionSort (fun p q => p.1 ≤ q.1) v).filter fun p => p.1 = key
  unfold Values.all
  rw [sub.eq_of_length perm.length_eq.symm]

/-- The form a server decodes holds the values that were encoded. -/
theorem all_parseQuery_encode (v : Values) (key : Bytes) :
    (parseQuery v.encode).all key = v.all key := by
  rw [parseQuery_encode, all_insertionSort]

end Net
