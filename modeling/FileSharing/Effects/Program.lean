import Mathlib.Data.List.Basic

/-!
Programs that act on the world through a fixed signature of operations, each
with its own type of replies. A program is a finite tree: what the world
replies is not decided by the program, so a property of a program is a property
of every reply the world can give.

`Ensures` is the rule calculus for whole runs; `Reaches` follows a run that
other runs may interrupt between any two operations.
-/

namespace Effects

/-- The operations a program may perform and what each one is answered with. -/
structure Signature where
  Op : Type
  Reply : Op → Type

/-- One operation together with the reply it received. -/
abbrev Event (S : Signature) : Type := (op : S.Op) × S.Reply op

inductive Program (S : Signature) (α : Type) : Type where
  | pure (a : α)
  | call (op : S.Op) (next : S.Reply op → Program S α)

namespace Program

variable {S : Signature} {α β γ : Type}

def bind : Program S α → (α → Program S β) → Program S β
  | .pure a, f => f a
  | .call op next, f => .call op fun r => (next r).bind f

instance : Monad (Program S) where
  pure := .pure
  bind := .bind

/-- Perform a single operation and return its reply. -/
def perform (op : S.Op) : Program S (S.Reply op) := .call op .pure

@[simp] theorem pure_eq (a : α) : (Pure.pure a : Program S α) = .pure a := rfl

@[simp] theorem pure_bind (a : α) (f : α → Program S β) :
    ((.pure a : Program S α) >>= f) = f a := rfl

@[simp] theorem call_bind (op : S.Op) (next : S.Reply op → Program S α)
    (f : α → Program S β) :
    (.call op next >>= f) = .call op fun r => next r >>= f := rfl

@[simp] theorem perform_bind (op : S.Op) (f : S.Reply op → Program S β) :
    (perform op >>= f) = .call op f := rfl

theorem bind_assoc (p : Program S α) (f : α → Program S β) (g : β → Program S γ) :
    p >>= f >>= g = p >>= fun a => f a >>= g := by
  induction p with
  | pure a => rfl
  | call op next ih =>
      simp only [call_bind]
      congr 1
      funext r
      exact ih r

/-- A complete run: the operations in order, each with its reply, and the result. -/
inductive Runs : Program S α → List (Event S) → α → Prop where
  | pure (a : α) : Runs (.pure a) [] a
  | call {op : S.Op} {next : S.Reply op → Program S α} {r : S.Reply op}
      {es : List (Event S)} {a : α} (rest : Runs (next r) es a) :
      Runs (.call op next) (⟨op, r⟩ :: es) a

/-- A run of two programs in sequence is a run of each. -/
theorem runs_bind (p : Program S α) (f : α → Program S β) (t : List (Event S)) (b : β) :
    Runs (p >>= f) t b ↔ ∃ es a es', Runs p es a ∧ Runs (f a) es' b ∧ t = es ++ es' := by
  constructor
  · intro run
    induction p generalizing t with
    | pure a => exact ⟨[], a, t, .pure a, run, rfl⟩
    | call op next ih =>
        cases run with
        | @call _ _ r t _ rest =>
            obtain ⟨es, a, es', first, second, rfl⟩ := ih r t rest
            exact ⟨_, a, es', .call first, second, rfl⟩
  · intro runs
    obtain ⟨es, a, es', first, second, rfl⟩ := runs
    induction first with
    | pure a => exact second
    | call rest ih => exact .call (ih second)

/-- No complete run continues another. -/
theorem Runs.eq_of_append {p : Program S α} {es es' x y : List (Event S)} {a a' : α}
    (run : Runs p es a) (run' : Runs p es' a') (same : es ++ x = es' ++ y) : es = es' ∧ a = a' := by
  induction run generalizing es' with
  | pure a =>
      cases run' with
      | pure => exact ⟨rfl, rfl⟩
  | call rest ih =>
      cases run' with
      | call rest' =>
          simp only [List.cons_append, List.cons.injEq, Sigma.mk.injEq, true_and] at same
          obtain ⟨reply, same⟩ := same
          cases reply
          obtain ⟨rfl, rfl⟩ := ih rest' same
          exact ⟨rfl, rfl⟩

/-- Every run of the program satisfies `Q` on its events and its result. -/
def Ensures : Program S α → (List (Event S) → α → Prop) → Prop
  | .pure a, Q => Q [] a
  | .call op next, Q => ∀ r, (next r).Ensures fun es a => Q (⟨op, r⟩ :: es) a

@[simp] theorem ensures_pure (a : α) (Q : List (Event S) → α → Prop) :
    (.pure a : Program S α).Ensures Q ↔ Q [] a := Iff.rfl

@[simp] theorem ensures_call (op : S.Op) (next : S.Reply op → Program S α)
    (Q : List (Event S) → α → Prop) :
    (.call op next : Program S α).Ensures Q ↔
      ∀ r, (next r).Ensures fun es a => Q (⟨op, r⟩ :: es) a := Iff.rfl

@[simp] theorem ensures_perform (op : S.Op)
    (Q : List (Event S) → S.Reply op → Prop) :
    (perform op).Ensures Q ↔ ∀ r, Q [⟨op, r⟩] r := Iff.rfl

theorem ensures_iff_runs (p : Program S α) (Q : List (Event S) → α → Prop) :
    p.Ensures Q ↔ ∀ es a, Runs p es a → Q es a := by
  induction p generalizing Q with
  | pure a =>
      constructor
      · intro h es b run
        cases run with
        | pure => exact h
      · exact fun h => h _ _ (.pure a)
  | call op next ih =>
      simp only [ensures_call, ih]
      constructor
      · intro h es a run
        cases run with
        | call rest => exact h _ _ _ rest
      · exact fun h r es a rest => h _ _ (.call rest)

/-- A program with one possible outcome. -/
theorem runs_of_ensures {p : Program S α} {t : List (Event S)} {a : α}
    (h : ∀ Q, p.Ensures Q ↔ Q t a) (es : List (Event S)) (b : α) :
    Runs p es b ↔ es = t ∧ b = a := by
  constructor
  · exact (ensures_iff_runs p fun es b => es = t ∧ b = a).mp ((h _).mpr ⟨rfl, rfl⟩) es b
  · rintro ⟨rfl, rfl⟩
    exact (h (Runs p)).mp ((ensures_iff_runs p _).mpr fun _ _ run => run)

theorem Ensures.mono {p : Program S α} {Q R : List (Event S) → α → Prop}
    (h : p.Ensures Q) (imp : ∀ es a, Q es a → R es a) : p.Ensures R := by
  rw [ensures_iff_runs] at h ⊢
  exact fun es a run => imp es a (h es a run)

theorem Ensures.and {p : Program S α} {Q R : List (Event S) → α → Prop}
    (hq : p.Ensures Q) (hr : p.Ensures R) : p.Ensures fun es a => Q es a ∧ R es a := by
  rw [ensures_iff_runs] at hq hr ⊢
  exact fun es a run => ⟨hq es a run, hr es a run⟩

/-- The sequencing rule: the second program is judged on the events of both. -/
@[simp] theorem ensures_bind (p : Program S α) (f : α → Program S β)
    (Q : List (Event S) → β → Prop) :
    (p >>= f).Ensures Q ↔
      p.Ensures fun es a => (f a).Ensures fun es' b => Q (es ++ es') b := by
  induction p generalizing Q with
  | pure a => rfl
  | call op next ih => simp only [call_bind, ensures_call, ih, List.cons_append]

/-- A world that can answer every operation completes every program. -/
theorem exists_run [∀ op, Inhabited (S.Reply op)] (p : Program S α) :
    ∃ es a, Runs p es a := by
  induction p with
  | pure a => exact ⟨[], a, .pure a⟩
  | call op next ih =>
      obtain ⟨es, a, run⟩ := ih default
      exact ⟨_, a, .call run⟩

/-- A property that every run has holds of some run. -/
theorem Ensures.exists [∀ op, Inhabited (S.Reply op)] {p : Program S α}
    {Q : List (Event S) → α → Prop} (h : p.Ensures Q) : ∃ es a, Runs p es a ∧ Q es a := by
  obtain ⟨es, a, run⟩ := exists_run p
  exact ⟨es, a, run, (ensures_iff_runs p Q).mp h es a run⟩

/-- No run of the program is longer. -/
def AtMost (n : Nat) (p : Program S α) : Prop := p.Ensures fun es _ => es.length ≤ n

theorem AtMost.pure {n : Nat} (a : α) : (.pure a : Program S α).AtMost n := Nat.zero_le n

theorem AtMost.perform (op : S.Op) : (perform op).AtMost 1 := fun _ => Nat.le_refl 1

theorem AtMost.mono {p : Program S α} {n m : Nat} (h : p.AtMost n) (le : n ≤ m) : p.AtMost m :=
  Ensures.mono h fun _ _ short => Nat.le_trans short le

theorem AtMost.bind {p : Program S α} {f : α → Program S β} {n m : Nat} (hp : p.AtMost n)
    (hf : ∀ a, (f a).AtMost m) : (p >>= f).AtMost (n + m) := by
  rw [AtMost, ensures_bind]
  refine Ensures.mono hp ?_
  intro es a short
  refine Ensures.mono (hf a) ?_
  intro es' _ short'
  rw [List.length_append]
  exact Nat.add_le_add short short'

/-- `q` is what is left of `p` after the given events. -/
inductive Reaches (p : Program S α) : List (Event S) → Program S α → Prop where
  | refl : Reaches p [] p
  | step {es : List (Event S)} {op : S.Op} {next : S.Reply op → Program S α}
      (before : Reaches p es (.call op next)) (r : S.Reply op) :
      Reaches p (es ++ [⟨op, r⟩]) (next r)

theorem Reaches.complete {p q : Program S α} {es es' : List (Event S)} {a : α}
    (before : Reaches p es q) (rest : Runs q es' a) : Runs p (es ++ es') a := by
  induction before generalizing es' with
  | refl => exact rest
  | step before r ih =>
      rw [List.append_assoc]
      exact ih (.call rest)

/-- What every complete run satisfies, and what only looks backwards, holds at
every point where the program may be interrupted. -/
theorem Ensures.interrupted [∀ op, Inhabited (S.Reply op)] {p q : Program S α}
    {es : List (Event S)} {P : List (Event S) → Prop}
    (h : p.Ensures fun es _ => P es)
    (closed : ∀ es es', P (es ++ es') → P es) (reached : Reaches p es q) : P es := by
  obtain ⟨es', a, rest⟩ := exists_run q
  exact closed es es' ((ensures_iff_runs p _).mp h _ a (reached.complete rest))

end Program
end Effects
