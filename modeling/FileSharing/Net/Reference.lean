import FileSharing.Net.Path

/-!
URI references and their resolution against a base, after RFC 3986: the split
of a reference into components (appendix B), the removal of dot segments
(section 5.2.4), the merge of a relative path (5.2.3) and the resolution
algorithm (5.2.2).
-/

namespace Net

structure Reference where
  scheme : Option Bytes
  authority : Option Bytes
  path : Bytes
  query : Option Bytes
  fragment : Option Bytes
deriving DecidableEq

/-- An absolute URI without its fragment, the path still percent-encoded. -/
structure Target where
  scheme : Option Bytes
  authority : Option Bytes
  path : Bytes
  query : Option Bytes
deriving DecidableEq

/-- Two targets of one host. -/
structure Target.SameHost (t u : Target) : Prop where
  scheme : t.scheme = u.scheme
  authority : t.authority = u.authority

theorem Target.SameHost.trans {t u v : Target} (h : t.SameHost u) (h' : u.SameHost v) :
    t.SameHost v :=
  ⟨h.scheme.trans h'.scheme, h.authority.trans h'.authority⟩

def isSchemeByte (c : UInt8) : Bool := isAlnum c || (str "+-.").contains c
def isAuthorityByte (c : UInt8) : Bool := c != slash && c != question && c != hash
def isPathByte (c : UInt8) : Bool := c != question && c != hash

/-- The text before the first colon, when it can be a scheme (section 3.1). -/
def splitScheme (s : Bytes) : Option Bytes × Bytes :=
  let name := s.takeWhile isSchemeByte
  let rest := s.dropWhile isSchemeByte
  if name.head?.any (fun c => isLower c || isUpper c) ∧ rest.head? = some colon then
    (some name, rest.tail)
  else (none, s)

def splitAuthority (s : Bytes) : Option Bytes × Bytes :=
  if [slash, slash].isPrefixOf s then
    (some ((s.drop 2).takeWhile isAuthorityByte), (s.drop 2).dropWhile isAuthorityByte)
  else (none, s)

def splitQuery (s : Bytes) : Option Bytes × Bytes :=
  if s.head? = some question then
    (some (s.tail.takeWhile (· != hash)), s.tail.dropWhile (· != hash))
  else (none, s)

def parseReference (s : Bytes) : Reference :=
  let (scheme, s) := splitScheme s
  let (authority, s) := splitAuthority s
  let path := s.takeWhile isPathByte
  let (query, s) := splitQuery (s.dropWhile isPathByte)
  { scheme, authority, path, query, fragment := if s.head? = some hash then some s.tail else none }

/-- Remove the last segment of the output together with its slash. -/
def removeLast (out : Bytes) : Bytes := ((out.reverse.dropWhile (· != slash)).drop 1).reverse

/-- The loop of section 5.2.4, one input segment a round. -/
def removeDotSegmentsLoop : Nat → Bytes → Bytes → Bytes
  | 0, _, out => out
  | _ + 1, [], out => out
  | fuel + 1, c :: rest, out =>
    if c = slash then
      let seg := rest.takeWhile (· != slash)
      let tail := rest.dropWhile (· != slash)
      if seg = dot then removeDotSegmentsLoop fuel (if tail = [] then [slash] else tail) out
      else if seg = dotdot then
        removeDotSegmentsLoop fuel (if tail = [] then [slash] else tail) (removeLast out)
      else removeDotSegmentsLoop fuel tail (out ++ slash :: seg)
    else
      let seg := (c :: rest).takeWhile (· != slash)
      let tail := (c :: rest).dropWhile (· != slash)
      if seg = dot ∨ seg = dotdot then removeDotSegmentsLoop fuel tail.tail out
      else removeDotSegmentsLoop fuel tail (out ++ seg)

def removeDotSegments (p : Bytes) : Bytes := removeDotSegmentsLoop p.length p []

/-- The base path up to and including its last slash. -/
def directory (p : Bytes) : Bytes := (p.reverse.dropWhile (· != slash)).reverse

def mergePath (base : Target) (p : Bytes) : Bytes :=
  if base.authority.isSome ∧ base.path = [] then slash :: p else directory base.path ++ p

def resolve (base : Target) (r : Reference) : Target :=
  if r.scheme.isSome then
    { scheme := r.scheme, authority := r.authority, path := removeDotSegments r.path,
      query := r.query }
  else if r.authority.isSome then
    { base with
      authority := r.authority, path := removeDotSegments r.path, query := r.query }
  else if r.path = [] then
    { base with query := if r.query.isSome then r.query else base.query }
  else if r.path.head? = some slash then
    { base with path := removeDotSegments r.path, query := r.query }
  else { base with path := removeDotSegments (mergePath base r.path), query := r.query }

/-- Resolution of a reference as it stands in a page or a Location header. -/
def follow (base : Target) (ref : Bytes) : Target := resolve base (parseReference ref)

theorem takeWhile_segment {p : UInt8 → Bool} {s : Bytes} (rest : Bytes) (h : ∀ c ∈ s, p c = true)
    (hrest : ∀ c, rest.head? = some c → p c = false) :
    (s ++ rest).takeWhile p = s ∧ (s ++ rest).dropWhile p = rest := by
  induction s with
  | nil =>
      cases rest with
      | nil => simp
      | cons c rest => simp [hrest c rfl]
  | cons c s ih =>
      have tail := ih fun b hb => h b (List.mem_cons_of_mem _ hb)
      simp [h c List.mem_cons_self, tail]

section Dots
variable {segs : List Bytes} (h : ∀ s ∈ segs, slash ∉ s ∧ s ≠ dot ∧ s ≠ dotdot)
include h

/-- Elements other than dots pass through the loop. -/
theorem removeDotSegmentsLoop_append (fuel : Nat) (out : Bytes) {rest : Bytes}
    (hrest : ∀ c, rest.head? = some c → c = slash) :
    removeDotSegmentsLoop (fuel + segs.length) (segs.flatMap (slash :: ·) ++ rest) out =
      removeDotSegmentsLoop fuel rest (out ++ segs.flatMap (slash :: ·)) := by
  induction segs generalizing out with
  | nil => simp
  | cons s segs ih =>
      obtain ⟨noSlash, notDot, notDotdot⟩ := h s List.mem_cons_self
      obtain ⟨take, drop⟩ := takeWhile_segment (p := (· != slash)) (s := s)
        (segs.flatMap (slash :: ·) ++ rest)
        (fun c hc => by simpa using fun e : c = slash => noSlash (e ▸ hc))
        (fun c hc => by
          cases segs with
          | nil => simp [hrest c hc]
          | cons t segs => simp [← (Option.some_inj.mp hc : slash = c)])
      rw [List.flatMap_cons, List.cons_append, List.cons_append, List.append_assoc,
        List.length_cons, ← Nat.add_assoc, removeDotSegmentsLoop]
      simp only [if_pos, take, drop, notDot, notDotdot, if_false]
      rw [ih fun t ht => h t (List.mem_cons_of_mem _ ht)]
      simp

theorem removeLast_segments :
    removeLast (segs.flatMap (slash :: ·)) = segs.dropLast.flatMap (slash :: ·) := by
  cases segs using List.reverseRecOn with
  | nil => rfl
  | append_singleton init s =>
      obtain ⟨noSlash, -⟩ := h s (by simp)
      have back : ((init ++ [s]).flatMap (slash :: ·)).reverse =
          s.reverse ++ slash :: (init.flatMap (slash :: ·)).reverse := by
        simp
      obtain ⟨-, drop⟩ := takeWhile_segment (p := (· != slash)) (s := s.reverse)
        (slash :: (init.flatMap (slash :: ·)).reverse)
        (fun c hc => by simpa using fun e : c = slash => noSlash (e ▸ List.mem_reverse.mp hc))
        (fun c hc => by simp [← (Option.some_inj.mp hc : slash = c)])
      rw [removeLast, back, drop, List.drop_one, List.tail_cons, List.reverse_reverse,
        List.dropLast_concat]

/-- The last element alone may be a dot segment. -/
theorem removeDotSegments_last {s : Bytes} (hs : slash ∉ s) :
    removeDotSegments (segs.flatMap (slash :: ·) ++ slash :: s) =
      if s = dot then segs.flatMap (slash :: ·) ++ [slash]
      else if s = dotdot then segs.dropLast.flatMap (slash :: ·) ++ [slash]
      else segs.flatMap (slash :: ·) ++ slash :: s := by
  have bound : segs.length ≤ (segs.flatMap (slash :: ·)).length := by
    clear h
    induction segs with
    | nil => simp
    | cons t segs ih => simp only [List.flatMap_cons, List.length_append, List.length_cons]; omega
  have last : ∀ (fuel : Nat) (out : Bytes), s.length < fuel →
      removeDotSegmentsLoop fuel (slash :: s) out =
        if s = dot then out ++ [slash]
        else if s = dotdot then removeLast out ++ [slash]
        else out ++ slash :: s := by
    intro fuel out enough
    obtain ⟨take, drop⟩ := takeWhile_segment (p := (· != slash)) (s := s) []
      (fun c hc => by simpa using fun e : c = slash => hs (e ▸ hc)) (by simp)
    rw [List.append_nil] at take drop
    obtain ⟨k, rfl⟩ : ∃ k, fuel = k + 1 := ⟨fuel - 1, by omega⟩
    rw [removeDotSegmentsLoop]
    simp only [if_pos, take, drop]
    split
    · rename_i e
      obtain ⟨k, rfl⟩ : ∃ j, k = j + 1 := ⟨k - 1, by rw [e] at enough; simp at enough; omega⟩
      cases k <;> rfl
    · split
      · rename_i e
        obtain ⟨k, rfl⟩ : ∃ j, k = j + 1 := ⟨k - 1, by rw [e] at enough; simp at enough; omega⟩
        cases k <;> rfl
      · cases k <;> rfl
  have len : (segs.flatMap (slash :: ·) ++ slash :: s).length =
      (segs.flatMap (slash :: ·)).length - segs.length + s.length + 1 + segs.length := by
    simp only [List.length_append, List.length_cons]
    omega
  have start : ∀ c, (slash :: s).head? = some c → c = slash := fun c hc =>
    (Option.some_inj.mp hc).symm
  rw [removeDotSegments, len, removeDotSegmentsLoop_append h _ _ start, last _ _ (by omega),
    List.nil_append, removeLast_segments h]

theorem removeDotSegments_segments :
    removeDotSegments (segs.flatMap (slash :: ·)) = segs.flatMap (slash :: ·) := by
  cases segs using List.reverseRecOn with
  | nil => rfl
  | append_singleton init s =>
      obtain ⟨noSlash, notDot, notDotdot⟩ := h s (by simp)
      have last := removeDotSegments_last (fun t ht => h t (List.mem_append_left _ ht)) noSlash
      rw [if_neg notDot, if_neg notDotdot] at last
      simpa using last

end Dots

theorem directory_slash (p : Bytes) : directory (p ++ [slash]) = p ++ [slash] := by
  simp [directory]

theorem splitAuthority_none {s : Bytes} (h : ∀ t, s ≠ slash :: slash :: t) :
    splitAuthority s = (none, s) := by
  refine if_neg fun hp => ?_
  obtain ⟨t, ht⟩ := List.isPrefixOf_iff_prefix.mp hp
  exact h t ht.symm

/-- A reference that starts with a single slash has a path and keeps the host. -/
theorem parseReference_rooted {s : Bytes} (h : s.head? ≠ some slash) :
    (parseReference (slash :: s)).scheme = none ∧
    (parseReference (slash :: s)).authority = none ∧
    (parseReference (slash :: s)).path = slash :: s.takeWhile isPathByte := by
  have delimiter : isSchemeByte slash = false := by decide
  have scheme : splitScheme (slash :: s) = (none, slash :: s) := by
    simp [splitScheme, delimiter]
  have authority : splitAuthority (slash :: s) = (none, slash :: s) := by
    refine splitAuthority_none fun t ht => h ?_
    rw [(List.cons.inj ht).2]
    rfl
  have path : (slash :: s).takeWhile isPathByte = slash :: s.takeWhile isPathByte :=
    List.takeWhile_cons_of_pos (by decide)
  simp [parseReference, scheme, authority, path]

/-- Without a scheme and a slash in front a reference is relative to the path. -/
theorem parseReference_relative {s : Bytes} (hc : (splitScheme s).1 = none)
    (hs : s.head? ≠ some slash) :
    (parseReference s).scheme = none ∧ (parseReference s).authority = none ∧
      (parseReference s).path = s.takeWhile isPathByte := by
  have scheme : splitScheme s = (none, s) := by
    simp only [splitScheme] at hc ⊢
    split
    · rename_i named
      rw [if_pos named] at hc
      cases hc
    · rfl
  have authority : splitAuthority s = (none, s) :=
    splitAuthority_none fun t ht => hs (by rw [ht]; rfl)
  simp [parseReference, scheme, authority]

theorem splitScheme_none {s : Bytes} (hc : colon ∉ s) : (splitScheme s).1 = none := by
  have rest : (s.dropWhile isSchemeByte).head? ≠ some colon := fun h =>
    hc (List.dropWhile_suffix _ |>.subset (List.mem_of_mem_head? h))
  simp [splitScheme, rest]

theorem follow_rooted (base : Target) {s : Bytes} (h : s.head? ≠ some slash) :
    (follow base (slash :: s)).SameHost base ∧
      (follow base (slash :: s)).path = removeDotSegments (slash :: s.takeWhile isPathByte) := by
  obtain ⟨scheme, authority, path⟩ := parseReference_rooted h
  refine ⟨⟨?_, ?_⟩, ?_⟩ <;> simp [follow, resolve, scheme, authority, path]

/-- A reference with a scheme and without slashes leads to no host. -/
theorem follow_scheme (base : Target) {s : Bytes} (hc : (splitScheme s).1 ≠ none)
    (hs : slash ∉ s) : (follow base s).authority = none := by
  obtain ⟨scheme, named⟩ := Option.ne_none_iff_exists'.mp hc
  have rest : slash ∉ (splitScheme s).2 := by
    intro h
    simp only [splitScheme] at h
    split at h
    · exact hs ((List.dropWhile_suffix _).subset (List.mem_of_mem_tail h))
    · exact hs h
  have authority : splitAuthority (splitScheme s).2 = (none, (splitScheme s).2) :=
    splitAuthority_none fun t ht => rest (by rw [ht]; exact List.mem_cons_self)
  simp [follow, resolve, parseReference, named, authority]

/-- A relative reference leads on from the directory of the base. -/
theorem follow_relative {base : Target} {dir s : Bytes} (hb : base.path = dir ++ [slash])
    (hc : (splitScheme s).1 = none) (hs : s.head? ≠ some slash) :
    (follow base s).SameHost base ∧
      (follow base s).path =
        if s.takeWhile isPathByte = [] then base.path
        else removeDotSegments (dir ++ slash :: s.takeWhile isPathByte) := by
  obtain ⟨scheme, authority, path⟩ := parseReference_relative hc hs
  have rooted : (s.takeWhile isPathByte).head? ≠ some slash := by
    cases s with
    | nil => simp
    | cons c s =>
        rw [List.takeWhile_cons]
        split
        · simpa using hs
        · simp
  have merged : ∀ p, mergePath base p = dir ++ slash :: p := fun p => by
    simp [mergePath, hb, directory_slash]
  by_cases empty : s.takeWhile isPathByte = []
  · refine ⟨⟨?_, ?_⟩, ?_⟩ <;> simp [follow, resolve, scheme, authority, path, empty]
  · refine ⟨⟨?_, ?_⟩, ?_⟩ <;> simp [follow, resolve, scheme, authority, path, empty, rooted, merged]

end Net
