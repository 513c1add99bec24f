import FileSharing.Net.Percent
import Mathlib.Algebra.BigOperators.Group.List.Basic
import Mathlib.Algebra.GroupWithZero.Nat
import Mathlib.Data.List.Induction

/-!
Rooted slash-separated paths. `segments` is what `path.Clean` keeps of a path;
`pathOf` writes segments back. The two are inverse on segments that are neither
empty nor dots, and cleaning never makes a path longer.
-/

namespace Net

abbrev dot : Bytes := [0x2E]
abbrev dotdot : Bytes := [0x2E, 0x2E]

/-- A path element that cleaning leaves alone. -/
structure IsSegment (s : Bytes) : Prop where
  nonempty : s ≠ []
  noSlash : slash ∉ s
  notDot : s ≠ dot
  notDotdot : s ≠ dotdot

instance (s : Bytes) : Decidable (IsSegment s) :=
  decidable_of_iff (s ≠ [] ∧ slash ∉ s ∧ s ≠ dot ∧ s ≠ dotdot)
    ⟨fun ⟨a, b, c, d⟩ => ⟨a, b, c, d⟩, fun ⟨a, b, c, d⟩ => ⟨a, b, c, d⟩⟩

abbrev Segment : Type := { s : Bytes // IsSegment s }

/-- One element of path.Clean on a rooted path. -/
def cleanStep (out : List Bytes) (elem : Bytes) : List Bytes :=
  if elem = [] ∨ elem = dot then out
  else if elem = dotdot then out.dropLast
  else out ++ [elem]

def segments (p : Bytes) : List Bytes := (p.splitOn slash).foldl cleanStep []

/-- The path with these segments, with or without a trailing slash. -/
def pathOf : List Bytes → Bool → Bytes
  | [], _ => [slash]
  | segs@(_ :: _), trailing => segs.flatMap (slash :: ·) ++ if trailing then [slash] else []

/-- path.Clean of a rooted path. -/
def clean (p : Bytes) : Bytes := pathOf (segments p) false

@[simp] theorem pathOf_nil (trailing : Bool) : pathOf [] trailing = [slash] := rfl

theorem pathOf_cons (s : Bytes) (segs : List Bytes) (trailing : Bool) :
    pathOf (s :: segs) trailing =
      slash :: s ++ (segs.flatMap (slash :: ·) ++ if trailing then [slash] else []) := by
  simp [pathOf]

theorem intercalate_segments (segs : List Bytes) :
    [slash].intercalate ([] :: segs) = segs.flatMap (slash :: ·) := by
  induction segs with
  | nil => rfl
  | cons s segs ih =>
      cases segs with
      | nil => simp
      | cons t segs =>
          rw [List.flatMap_cons, ← ih]
          simp

theorem splitOn_pathOf {s : Bytes} {segs : List Bytes} (h : ∀ t ∈ s :: segs, slash ∉ t)
    (trailing : Bool) :
    (pathOf (s :: segs) trailing).splitOn slash =
      [] :: s :: segs ++ if trailing then [[]] else [] := by
  have whole : pathOf (s :: segs) trailing =
      [slash].intercalate ([] :: (s :: segs ++ if trailing then [[]] else [])) := by
    rw [intercalate_segments, pathOf]
    cases trailing <;> simp
  rw [whole]
  refine List.splitOn_intercalate _ ?_ (by simp)
  intro t ht
  cases trailing <;> simp only [List.mem_cons, List.mem_append] at ht h <;> grind

theorem foldl_cleanStep {segs : List Bytes} (h : ∀ s ∈ segs, IsSegment s) (out : List Bytes) :
    segs.foldl cleanStep out = out ++ segs := by
  induction segs generalizing out with
  | nil => simp
  | cons s segs ih =>
      have hs := h s List.mem_cons_self
      rw [List.foldl_cons, ih fun t ht => h t (List.mem_cons_of_mem _ ht)]
      simp [cleanStep, hs.nonempty, hs.notDot, hs.notDotdot]

theorem segments_pathOf {segs : List Bytes} (h : ∀ s ∈ segs, IsSegment s) (trailing : Bool) :
    segments (pathOf segs trailing) = segs := by
  cases segs with
  | nil => rfl
  | cons s segs =>
      rw [segments, splitOn_pathOf fun t ht => (h t ht).noSlash]
      rw [List.cons_append, List.foldl_cons, List.foldl_append, foldl_cleanStep h]
      cases trailing <;> simp [cleanStep]

theorem getLast_pathOf {segs : List Bytes} (h : ∀ s ∈ segs, IsSegment s) (hne : segs ≠ [])
    (trailing : Bool) : (pathOf segs trailing).getLast? = some slash ↔ trailing = true := by
  cases segs using List.reverseRecOn with
  | nil => exact absurd rfl hne
  | append_singleton init s =>
      have path : pathOf (init ++ [s]) trailing =
          (init ++ [s]).flatMap (slash :: ·) ++ if trailing then [slash] else [] := by
        cases init <;> rfl
      rw [path]
      cases trailing with
      | true => simp only [if_true, List.getLast?_concat]
      | false =>
          have seg := h s (by simp)
          obtain hs | ⟨s₀, c, hs⟩ := List.eq_nil_or_concat s
          · exact absurd hs seg.nonempty
          · rw [List.concat_eq_append] at hs
            have last : (init ++ [s]).flatMap (slash :: ·) =
                init.flatMap (slash :: ·) ++ slash :: s₀ ++ [c] := by
              simp [hs]
            have hc : c ≠ slash := fun e => seg.noSlash (by simp [hs, e])
            simp only [Bool.false_eq_true, if_false, List.append_nil]
            rw [last, List.getLast?_concat]
            simp [hc]

theorem not_mem_splitOn {p s : Bytes} (h : s ∈ p.splitOn slash) : slash ∉ s := by
  induction p generalizing s with
  | nil => simp_all
  | cons c p ih =>
      rw [List.splitOn_cons_eq_if_modifyHead] at h
      split at h
      · rcases List.mem_cons.mp h with rfl | h
        · simp
        · exact ih h
      · rename_i hc
        obtain ⟨head, tail, split⟩ := List.exists_cons_of_ne_nil (List.splitOn_ne_nil slash p)
        rw [split, List.modifyHead_cons] at h
        rcases List.mem_cons.mp h with rfl | h
        · have := ih (s := head) (by simp [split])
          have hne : ¬slash = c := fun e => hc (by simp [e])
          simp [hne, this]
        · exact ih (by simp [split, h])

theorem isSegment_cleanStep {out : List Bytes} {elem : Bytes}
    (hout : ∀ s ∈ out, IsSegment s) (helem : slash ∉ elem) :
    ∀ s ∈ cleanStep out elem, IsSegment s := by
  intro s hs
  unfold cleanStep at hs
  split at hs
  · exact hout s hs
  · split at hs
    · exact hout s ((List.dropLast_sublist out).subset hs)
    · rcases List.mem_append.mp hs with hs | hs
      · exact hout s hs
      · rw [List.mem_singleton.mp hs]
        simp_all only [not_or]
        exact ⟨by tauto, helem, by tauto, by tauto⟩

theorem isSegment_of_mem_segments {p s : Bytes} (h : s ∈ segments p) : IsSegment s := by
  have keep : ∀ (elems out : List Bytes), (∀ e ∈ elems, slash ∉ e) →
      (∀ s ∈ out, IsSegment s) → ∀ s ∈ elems.foldl cleanStep out, IsSegment s := by
    intro elems
    induction elems with
    | nil => exact fun out _ hout => hout
    | cons e elems ih =>
        intro out helems hout
        exact ih _ (fun e' he' => helems e' (List.mem_cons_of_mem _ he'))
          (isSegment_cleanStep hout (helems e List.mem_cons_self))
  exact keep _ [] (fun e he => not_mem_splitOn he) (by simp) s h

theorem segments_slash (p : Bytes) : segments (slash :: p) = segments p := by
  simp [segments, List.splitOn_cons_eq_if_modifyHead, cleanStep]

/-- The bytes that segments take up in a path, their slashes included. -/
def weight (segs : List Bytes) : Nat := (segs.map fun s => s.length + 1).sum

@[simp] theorem weight_nil : weight [] = 0 := rfl

@[simp] theorem weight_cons (s : Bytes) (segs : List Bytes) :
    weight (s :: segs) = s.length + 1 + weight segs := rfl

@[simp] theorem weight_append (segs segs' : List Bytes) :
    weight (segs ++ segs') = weight segs + weight segs' := by
  induction segs with
  | nil => simp
  | cons s segs ih => simp only [List.cons_append, weight_cons, ih]; omega

theorem length_flatMap_slash (segs : List Bytes) :
    (segs.flatMap (slash :: ·)).length = weight segs := by
  induction segs with
  | nil => rfl
  | cons s segs ih =>
      rw [List.flatMap_cons, List.length_append, ih, List.length_cons, weight_cons]

theorem weight_cleanStep (out : List Bytes) (elem : Bytes) :
    weight (cleanStep out elem) ≤ weight out + (elem.length + 1) := by
  unfold cleanStep
  split
  · omega
  · split
    · rcases List.eq_nil_or_concat out with rfl | ⟨init, last, rfl⟩
      · simp
      · rw [List.concat_eq_append, List.dropLast_concat, weight_append]
        omega
    · simp

theorem weight_splitOn (p : Bytes) : weight (p.splitOn slash) = p.length + 1 := by
  induction p with
  | nil => rfl
  | cons c p ih =>
      obtain ⟨head, tail, split⟩ := List.exists_cons_of_ne_nil (List.splitOn_ne_nil slash p)
      rw [List.splitOn_cons_eq_if_modifyHead]
      rw [split, weight_cons] at ih
      rw [split]
      split
      · simp only [weight_cons, List.length_nil, List.length_cons]
        omega
      · simp only [List.modifyHead_cons, weight_cons, List.length_cons]
        omega

theorem weight_foldl_cleanStep (elems out : List Bytes) :
    weight (elems.foldl cleanStep out) ≤ weight out + weight elems := by
  induction elems generalizing out with
  | nil => simp
  | cons e elems ih =>
      have rest := ih (cleanStep out e)
      have first := weight_cleanStep out e
      simp only [List.foldl_cons, weight_cons]
      omega

/-- Cleaning never lengthens a path. -/
theorem weight_segments_le (p : Bytes) : weight (segments p) ≤ p.length + 1 := by
  calc weight (segments p) ≤ weight [] + weight (p.splitOn slash) :=
        weight_foldl_cleanStep _ []
    _ = p.length + 1 := by rw [weight_splitOn, weight_nil, Nat.zero_add]

theorem weight_segments_slash (p : Bytes) : weight (segments (slash :: p)) ≤ (slash :: p).length := by
  rw [segments_slash]
  exact weight_segments_le p

end Net
