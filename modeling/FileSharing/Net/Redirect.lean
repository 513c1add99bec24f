import FileSharing.Net.Location

/-!
What a redirect does to a path. A path that is written percent-encoded in front
of a query comes through `http.Redirect`, the header and the resolution of the
Location unchanged. A word that is written raw may lose bytes on the way, and
every loss makes it shorter.
-/

namespace Net

/-- What may follow the path of a URL: nothing, or a query. -/
def IsTail (s : Bytes) : Prop := ∀ c, s.head? = some c → c = question

theorem isTail_nil : IsTail [] := fun _ h => by cases h

theorem isTail_query (q : Bytes) : IsTail (question :: q) := fun _ h => (Option.some_inj.mp h).symm

theorem IsTail.eq {s : Bytes} (h : IsTail s) : s = [] ∨ ∃ q, s = question :: q := by
  cases s with
  | nil => exact .inl rfl
  | cons c q => exact .inr ⟨q, by rw [h c rfl]⟩

theorem URL.string_eq (u : URL) : ∃ tail, IsTail tail ∧ u.string = escapePath u.path ++ tail := by
  rw [URL.string]
  split
  · exact ⟨[], isTail_nil, rfl⟩
  · exact ⟨_, isTail_query _, rfl⟩

theorem pathOf_eq_flatMap (segs : List Bytes) (trailing : Bool) : ∃ last : List Bytes,
    (last = [] ∨ last = [[]]) ∧ pathOf segs trailing = (segs ++ last).flatMap (slash :: ·) := by
  cases segs with
  | nil => exact ⟨[[]], .inr rfl, rfl⟩
  | cons s segs =>
      cases trailing with
      | true => exact ⟨[[]], .inr rfl, by simp [pathOf]⟩
      | false => exact ⟨[], .inl rfl, by simp [pathOf]⟩

section Escaped
variable {segs : List Bytes} (hs : ∀ s ∈ segs, IsSegment s) (trailing : Bool)

theorem escapePath_pathOf :
    escapePath (pathOf segs trailing) = pathOf (segs.map escapePath) trailing := by
  have slashed : ∀ segs : List Bytes, escapePath (segs.flatMap (slash :: ·)) =
      (segs.map escapePath).flatMap (slash :: ·) := by
    intro segs
    induction segs with
    | nil => rfl
    | cons s segs ih =>
        rw [List.flatMap_cons, escapePath_append, ih]
        rfl
  cases segs with
  | nil => rfl
  | cons s segs =>
      rw [pathOf, escapePath_append, slashed]
      cases trailing <;> rfl

theorem isSegment_escapePath {s : Bytes} (h : IsSegment s) : IsSegment (escapePath s) := by
  have back : ∀ {t : Bytes}, percent ∉ t → escapePath s = t → s = t := by
    intro t ht e
    have decoded := escapePath_unescape s
    rw [e, unescape_of_no_percent ht] at decoded
    exact (Option.some_inj.mp decoded).symm
  refine ⟨?_, ?_, ?_, ?_⟩
  · exact fun e => h.nonempty (back (by decide) e)
  · intro mem
    obtain ⟨c, hc, hmem⟩ := List.mem_flatMap.mp mem
    split at hmem
    · rw [← List.mem_singleton.mp hmem] at hc
      exact h.noSlash hc
    · cases mem_escapeByte hexDigits_upper hmem with
      | inl e => cases e
      | inr e => cases e
  · exact fun e => h.notDot (back (by decide) e)
  · exact fun e => h.notDotdot (back (by decide) e)

include hs

theorem isSegment_map_escapePath : ∀ s ∈ segs.map escapePath, IsSegment s := by
  intro s h
  obtain ⟨t, ht, rfl⟩ := List.mem_map.mp h
  exact isSegment_escapePath (hs t ht)

theorem removeDotSegments_pathOf :
    removeDotSegments (pathOf segs trailing) = pathOf segs trailing := by
  obtain ⟨last, hlast, path⟩ := pathOf_eq_flatMap segs trailing
  rw [path]
  refine removeDotSegments_segments ?_
  intro s h
  cases List.mem_append.mp h with
  | inl h => exact ⟨(hs s h).noSlash, (hs s h).notDot, (hs s h).notDotdot⟩
  | inr h =>
      cases hlast with
      | inl nil => simp [nil] at h
      | inr one =>
          rw [one, List.mem_singleton] at h
          rw [h]
          decide

/-- http.Redirect leaves a clean path alone, whatever url.Parse says of it. -/
theorem redirectURL_pathOf (verdict : Option ParsedURL) (oldpath : Bytes) {tail : Bytes}
    (clean_path : question ∉ pathOf segs trailing) (htail : IsTail tail) :
    redirectURL verdict oldpath (pathOf segs trailing ++ tail) = pathOf segs trailing ++ tail := by
  have head : (pathOf segs trailing ++ tail).head? = some slash := by
    cases segs <;> rfl
  obtain ⟨take, drop⟩ := takeWhile_segment (p := (· != question)) tail
    (fun c hc => by simpa using fun e : c = question => clean_path (e ▸ hc))
    (fun c hc => by simp [htail c hc])
  cases verdict with
  | none => rfl
  | some u =>
      simp only [redirectURL]
      split
      · simp only [take, drop, clean, segments_pathOf hs]
        congr 1
        cases segs with
        | nil => rfl
        | cons s segs =>
            have hne := List.cons_ne_nil s segs
            have last := getLast_pathOf hs hne false
            cases trailing with
            | true =>
                rw [if_pos ⟨(getLast_pathOf hs hne true).mpr rfl, fun e => by simpa using last.mp e⟩]
                simp [pathOf]
            | false => rw [if_neg fun both => by simpa using last.mp both.1]
      · rfl

end Escaped

theorem trimRight_append {s : Bytes} (hs : ∀ c ∈ s, isOWS c = false) {tail : Bytes}
    (htail : IsTail tail) : ∃ tail', IsTail tail' ∧ trimRight (s ++ tail) = s ++ tail' := by
  cases htail.eq with
  | inl nil =>
      refine ⟨[], isTail_nil, ?_⟩
      rw [nil, List.append_nil]
      cases s using List.reverseRecOn with
      | nil => rfl
      | append_singleton init c => exact List.rdropWhile_concat_neg _ _ _ (by simp [hs c (by simp)])
  | inr query =>
      obtain ⟨q, rfl⟩ := query
      induction q using List.reverseRecOn with
      | nil => exact ⟨[question], isTail_query [], List.rdropWhile_concat_neg _ _ _ (by decide)⟩
      | append_singleton init c ih =>
          have assoc : s ++ question :: (init ++ [c]) = s ++ question :: init ++ [c] := by simp
          cases hc : isOWS c with
          | true =>
              obtain ⟨tail', htail', trimmed⟩ := ih (isTail_query init)
              refine ⟨tail', htail', ?_⟩
              rw [assoc, trimRight, List.rdropWhile_concat_pos _ _ _ hc]
              exact trimmed
          | false =>
              refine ⟨question :: (init ++ [c]), isTail_query _, ?_⟩
              rw [assoc, trimRight, List.rdropWhile_concat_neg _ _ _ (by simp [hc])]

/-- A header carries an escaped path; of the query it may lose blanks. -/
theorem headerValue_escaped {path tail : Bytes} (head : path.head? = some slash)
    (legal : ∀ c ∈ path, isOWS c = false) (htail : IsTail tail) :
    ∃ tail', IsTail tail' ∧ headerValue (path ++ tail) = path ++ tail' := by
  have lines : path.map newlineToSpace = path := by
    rw [List.map_congr_left (g := id), List.map_id]
    intro c hc
    refine if_neg fun line => ?_
    have blank : isOWS c = true := by
      obtain rfl | rfl := line <;> decide
    rw [legal c hc] at blank
    cases blank
  have mapped : IsTail (tail.map newlineToSpace) := by
    cases htail.eq with
    | inl nil => rw [nil]; exact isTail_nil
    | inr query =>
        obtain ⟨q, rfl⟩ := query
        exact isTail_query _
  have start : (path ++ tail.map newlineToSpace).dropWhile isOWS =
      path ++ tail.map newlineToSpace := by
    cases path with
    | nil => cases head
    | cons c path => exact List.dropWhile_cons_of_neg (by simp [legal c List.mem_cons_self])
  rw [headerValue, List.map_append, lines, start]
  exact trimRight_append legal mapped

theorem hexEscape_of_ascii {s : Bytes} (h : ∀ c ∈ s, isASCII c = true) :
    hexEscapeNonASCII s = s := by
  induction s with
  | nil => rfl
  | cons c s ih =>
      rw [hexEscape_ascii (h c List.mem_cons_self), ih fun d hd => h d (List.mem_cons_of_mem c hd)]

theorem IsTail.hexEscape {tail : Bytes} (h : IsTail tail) : IsTail (hexEscapeNonASCII tail) := by
  cases h.eq with
  | inl nil => rw [nil]; exact isTail_nil
  | inr query =>
      obtain ⟨q, rfl⟩ := query
      rw [hexEscape_ascii (by decide)]
      exact isTail_query _

theorem escapePath_bytes (p : Bytes) :
    ∀ c ∈ escapePath p, isASCII c = true ∧ isOWS c = false := by
  have kept : ∀ c, keepPath c = true → isASCII c = true ∧ isOWS c = false :=
    forall_byte (by decide)
  intro c hc
  obtain ⟨d, -, hd⟩ := List.mem_flatMap.mp hc
  split at hd
  · rename_i keep
    rw [List.mem_singleton.mp hd]
    exact kept d keep
  · cases mem_escapeByte hexDigits_upper hd with
    | inl e => rw [e]; decide
    | inr e => exact ⟨isASCII_of_isHex c e, isOWS_of_isHex c e⟩

/-- A reference that is a clean path leads to that path on the same host. -/
theorem follow_pathOf (t : Target) {segs : List Bytes} (hs : ∀ s ∈ segs, IsSegment s)
    (trailing : Bool) (plain : ∀ c ∈ pathOf segs trailing, isPathByte c = true) {tail : Bytes}
    (htail : IsTail tail) :
    (follow t (pathOf segs trailing ++ tail)).SameHost t ∧
      (follow t (pathOf segs trailing ++ tail)).path = pathOf segs trailing := by
  have shape : ∃ rest, pathOf segs trailing = slash :: rest ∧ (rest ++ tail).head? ≠ some slash := by
    cases segs with
    | nil =>
        refine ⟨[], rfl, fun h => ?_⟩
        cases htail slash h
    | cons s segs =>
        have seg := hs s List.mem_cons_self
        refine ⟨_, pathOf_cons s segs trailing, ?_⟩
        cases s with
        | nil => exact absurd rfl seg.nonempty
        | cons c s =>
            intro h
            exact seg.noSlash (by simp [Option.some_inj.mp h])
  obtain ⟨rest, path, head⟩ := shape
  have bytes : ∀ c ∈ rest, isPathByte c = true := fun c hc =>
    plain c (by rw [path]; exact List.mem_cons_of_mem slash hc)
  obtain ⟨take, -⟩ := takeWhile_segment tail bytes fun c hc => by rw [htail c hc]; decide
  obtain ⟨same, reached⟩ := follow_rooted t head
  rw [take] at reached
  rw [path, List.cons_append]
  refine ⟨same, reached.trans ?_⟩
  rw [← path]
  exact removeDotSegments_pathOf hs trailing

/-- A Location that is an escaped clean path leads to that path. -/
theorem follow_escaped (t : Target) {segs : List Bytes} (hs : ∀ s ∈ segs, IsSegment s)
    (trailing : Bool) {tail : Bytes} (htail : IsTail tail) :
    let next := follow t (headerValue (escapePath (pathOf segs trailing) ++ tail))
    next.SameHost t ∧ next.path = escapePath (pathOf segs trailing) := by
  intro next
  have head : (escapePath (pathOf segs trailing)).head? = some slash := by
    rw [escapePath_pathOf]
    cases segs <;> rfl
  obtain ⟨tail', htail', value⟩ := headerValue_escaped head
    (fun c hc => (escapePath_bytes _ c hc).2) htail
  have plain := isPathByte_escapePath (pathOf segs trailing)
  simp only [next, value]
  rw [escapePath_pathOf] at plain ⊢
  exact follow_pathOf t (isSegment_map_escapePath hs) trailing plain htail'

/-- So does the Location that http.Redirect makes of it. -/
theorem follow_redirectURL (t : Target) {segs : List Bytes} (hs : ∀ s ∈ segs, IsSegment s)
    (trailing : Bool) {tail : Bytes} (htail : IsTail tail) (verdict : Option ParsedURL)
    (oldpath : Bytes) :
    let next := follow t (headerValue (hexEscapeNonASCII
      (redirectURL verdict oldpath (escapePath (pathOf segs trailing) ++ tail))))
    next.SameHost t ∧ next.path = escapePath (pathOf segs trailing) := by
  intro next
  have unquestioned : question ∉ pathOf (segs.map escapePath) trailing := by
    rw [← escapePath_pathOf]
    intro h
    cases isPathByte_escapePath _ _ h
  have same : hexEscapeNonASCII
      (redirectURL verdict oldpath (escapePath (pathOf segs trailing) ++ tail)) =
        escapePath (pathOf segs trailing) ++ hexEscapeNonASCII tail := by
    have kept := redirectURL_pathOf (isSegment_map_escapePath hs) trailing verdict oldpath
      unquestioned htail
    rw [← escapePath_pathOf] at kept
    rw [kept, hexEscape_append, hexEscape_of_ascii fun c hc => (escapePath_bytes _ c hc).1]
  simp only [next, same]
  exact follow_escaped t hs trailing htail.hexEscape

/-- A word that a Location can carry as it is. -/
structure IsPlain (s : Bytes) : Prop where
  undelimited : ∀ c ∈ s, c ∉ [question, hash, percent, 0x0A, 0x0D]
  trimmed : trimRight s = s

theorem segments_word {s : Bytes} (hs : slash ∉ s) :
    segments (slash :: s) = if s = [] ∨ s = dot ∨ s = dotdot then [] else [s] := by
  have split := @splitOn_pathOf s [] (by simpa using hs) false
  have path : pathOf [s] false = slash :: s := by simp [pathOf]
  rw [path] at split
  rw [segments, split]
  by_cases nil : s = [] <;> by_cases one : s = dot <;> by_cases two : s = dotdot <;>
    simp [cleanStep, nil, one, two]

theorem trimRight_cons {c : UInt8} (hc : isOWS c = false) (s : Bytes) :
    trimRight (c :: s) = c :: trimRight s := by
  cases rest : (s.reverse.dropWhile isOWS).isEmpty with
  | true => simp [trimRight, List.rdropWhile, List.dropWhile_append, hc, List.isEmpty_iff.mp rest]
  | false => simp [trimRight, List.rdropWhile, List.dropWhile_append, rest]

section Word
variable {s : Bytes} (hs : slash ∉ s)
include hs

/-- http.Redirect leaves a rooted word alone, or cleans it away in front of its query. -/
theorem redirectURL_word (verdict : Option ParsedURL) (oldpath : Bytes) :
    redirectURL verdict oldpath (slash :: s) = slash :: s ∨
      ∃ tail, IsTail tail ∧ redirectURL verdict oldpath (slash :: s) = slash :: tail := by
  have word : slash ∉ s.takeWhile (· != question) := fun h => hs ((List.takeWhile_prefix _).subset h)
  have tail : IsTail (s.dropWhile (· != question)) := by
    intro c hc
    simpa [hc] using List.head?_dropWhile_not (· != question) s
  have whole : s.takeWhile (· != question) ++ s.dropWhile (· != question) = s :=
    List.takeWhile_append_dropWhile
  cases verdict with
  | none => exact .inl rfl
  | some u =>
      simp only [redirectURL]
      split
      · have rooted : (slash :: s).head? = some slash := rfl
        have take : (slash :: s).takeWhile (· != question) = slash :: s.takeWhile (· != question) :=
          List.takeWhile_cons_of_pos (by decide)
        have drop : (slash :: s).dropWhile (· != question) = s.dropWhile (· != question) :=
          List.dropWhile_cons_of_pos (by decide)
        simp only [rooted, if_true, take, drop, clean, segments_word word]
        by_cases dots : s.takeWhile (· != question) = [] ∨ s.takeWhile (· != question) = dot ∨
          s.takeWhile (· != question) = dotdot
        · refine .inr ⟨_, tail, ?_⟩
          rw [if_pos dots, if_neg fun both => both.2 rfl]
          rfl
        · have proper := not_or.mp dots
          simp only [not_or] at proper
          have seg : ∀ t ∈ [s.takeWhile (· != question)], IsSegment t := by
            intro t ht
            rw [List.mem_singleton.mp ht]
            exact ⟨proper.1, word, proper.2.1, proper.2.2⟩
          have path : pathOf [s.takeWhile (· != question)] false =
              slash :: s.takeWhile (· != question) := by
            simp [pathOf]
          have open_ended := getLast_pathOf seg (List.cons_ne_nil _ _) false
          rw [path] at open_ended
          refine .inl ?_
          rw [if_neg dots, path, if_neg fun both => Bool.false_ne_true (open_ended.mp both.1),
            List.cons_append, whole]
      · exact .inl rfl

theorem slash_not_mem_hexEscape : slash ∉ hexEscapeNonASCII s := by
  intro h
  obtain ⟨c, hc, mem⟩ := List.mem_flatMap.mp h
  split at mem
  · rw [← List.mem_singleton.mp mem] at hc
    exact hs hc
  · cases mem_escapeByte hexDigits_lower mem with
    | inl e => cases e
    | inr e => cases e

end Word

theorem headerValue_word (s : Bytes) :
    headerValue (hexEscapeNonASCII (slash :: s)) =
      slash :: hexEscapeNonASCII (trimRight (s.map newlineToSpace)) := by
  have blank : isOWS slash = false := by decide
  have line : newlineToSpace slash = slash := by decide
  rw [hexEscape_ascii (by decide), headerValue, List.map_cons, map_hexEscape, line,
    List.dropWhile_cons_of_neg (by simp [blank]), trimRight_cons blank, trimRight_hexEscape]

theorem slash_not_mem_lines {s : Bytes} (hs : slash ∉ s) : slash ∉ s.map newlineToSpace := by
  intro h
  obtain ⟨c, hc, e⟩ := List.mem_map.mp h
  unfold newlineToSpace at e
  split at e
  · cases e
  · rw [e] at hc
    exact hs hc

/-- Where a Location leads that is a rooted word. -/
theorem follow_word (t : Target) {s : Bytes} (hs : slash ∉ s) :
    let word := hexEscapeNonASCII ((trimRight (s.map newlineToSpace)).takeWhile isPathByte)
    let next := follow t (headerValue (hexEscapeNonASCII (slash :: s)))
    next.SameHost t ∧ next.path = if word = dot ∨ word = dotdot then [slash] else slash :: word := by
  intro word next
  have trimmed : slash ∉ trimRight (s.map newlineToSpace) := fun h =>
    slash_not_mem_lines hs ((List.rdropWhile_prefix isOWS _).subset h)
  have noSlash : slash ∉ word :=
    slash_not_mem_hexEscape fun h => trimmed ((List.takeWhile_prefix _).subset h)
  have head : (hexEscapeNonASCII (trimRight (s.map newlineToSpace))).head? ≠ some slash := fun h =>
    slash_not_mem_hexEscape trimmed (List.mem_of_mem_head? h)
  obtain ⟨same, path⟩ := follow_rooted t head
  have high : ∀ c, isASCII c = false → isPathByte c = true := forall_byte (by decide)
  rw [takeWhile_hexEscape (by decide) isPathByte_of_isHex high] at path
  have dots := @removeDotSegments_last [] (by simp) word noSlash
  simp only [next, headerValue_word]
  refine ⟨same, path.trans (dots.trans ?_)⟩
  by_cases one : word = dot <;> by_cases two : word = dotdot <;> simp [one, two]

/-- A plain word arrives. -/
theorem follow_plain (t : Target) {s : Bytes} (hs : IsSegment s) (plain : IsPlain s) :
    let next := follow t (headerValue (hexEscapeNonASCII (slash :: s)))
    next.SameHost t ∧ unescape next.path = some (slash :: s) := by
  intro next
  have lines : s.map newlineToSpace = s := by
    rw [List.map_congr_left (g := id), List.map_id]
    intro c hc
    refine if_neg fun line => plain.undelimited c hc ?_
    obtain rfl | rfl := line <;> decide
  have whole : s.takeWhile isPathByte = s := by
    refine List.takeWhile_eq_self_iff.mpr (forall_isPathByte ?_ ?_)
    · exact fun h => plain.undelimited _ h (by decide)
    · exact fun h => plain.undelimited _ h (by decide)
  have decoded : unescape (hexEscapeNonASCII s) = some s := by
    rw [unescape_hexEscape]
    exact unescape_of_no_percent fun h => plain.undelimited _ h (by decide)
  have back : ∀ {d : Bytes}, hexEscapeNonASCII s = d → percent ∉ d → s = d := by
    intro d e hd
    rw [e, unescape_of_no_percent hd] at decoded
    exact (Option.some_inj.mp decoded).symm
  obtain ⟨same, path⟩ := follow_word t hs.noSlash
  rw [lines, plain.trimmed, whole, if_neg] at path
  · refine ⟨same, ?_⟩
    rw [path, unescape_cons (by decide), decoded]
    rfl
  · intro e
    cases e with
    | inl e => exact hs.notDot (back e (by decide))
    | inr e => exact hs.notDotdot (back e (by decide))

/-- A word that arrives is plain. -/
theorem plain_of_arrives (t : Target) {s p : Bytes} (hs : slash ∉ s)
    (decoded : unescape (follow t (headerValue (hexEscapeNonASCII (slash :: s)))).path = some p)
    (arrives : segments p = [s]) : IsPlain s := by
  obtain ⟨-, path⟩ := follow_word t hs
  rw [path] at decoded
  split at decoded
  · rw [unescape_of_no_percent (by decide)] at decoded
    rw [← Option.some_inj.mp decoded] at arrives
    cases arrives
  · rw [unescape_cons (by decide), unescape_hexEscape] at decoded
    obtain ⟨word, read, rfl⟩ := Option.map_eq_some_iff.mp decoded
    have short : (trimRight (s.map newlineToSpace)).takeWhile isPathByte <+:
        trimRight (s.map newlineToSpace) := List.takeWhile_prefix _
    have trim : trimRight (s.map newlineToSpace) <+: s.map newlineToSpace :=
      List.rdropWhile_prefix _ _
    have shrunk := unescape_length read
    have bound := weight_segments_slash word
    rw [arrives, weight_cons, weight_nil, List.length_cons] at bound
    have short_le := short.length_le
    have trim_le := trim.length_le
    have len : (s.map newlineToSpace).length = s.length := List.length_map _
    -- nothing is lost, so that each step leaves its input alone
    have whole := short.eq_of_length_le (by omega)
    have trimmed := trim.eq_of_length_le (by omega)
    rw [whole, trimmed] at read shrunk
    have unescaped : percent ∉ s.map newlineToSpace := List.count_eq_zero.mp (by omega)
    rw [unescape_of_no_percent unescaped] at read
    rw [← Option.some_inj.mp read, segments_word (slash_not_mem_lines hs)] at arrives
    have lines : s.map newlineToSpace = s := by
      split at arrives
      · cases arrives
      · exact (List.cons.inj arrives).1
    rw [lines] at whole trimmed unescaped
    refine ⟨?_, trimmed⟩
    intro c hc bad
    have path : isPathByte c = true := List.takeWhile_eq_self_iff.mp (by rwa [trimmed] at whole) c hc
    have line : newlineToSpace c = c := List.map_inj_left.mp (lines.trans (List.map_id s).symm) c hc
    simp only [List.mem_cons, List.not_mem_nil, or_false] at bad
    obtain rfl | rfl | rfl | rfl | rfl := bad
    · cases path
    · cases path
    · exact unescaped hc
    · cases line
    · cases line

end Net
