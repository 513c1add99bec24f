import Mathlib.Data.Multiset.AddSub

/-!
Machines whose steps may show a label. What every step keeps holds of every run;
a machine that refines another shows nothing in its runs that the other does not
show in its own.
-/

namespace Effects

/-- A start, and steps between states that may show a label. -/
structure Machine (σ ℓ : Type) where
  init : σ
  Step : σ → Option ℓ → σ → Prop

namespace Machine

variable {σ τ ℓ : Type}

/-- The labels of a run in their order, and the state that it has come to. -/
inductive Run (m : Machine σ ℓ) : List ℓ → σ → Prop where
  | init : Run m [] m.init
  | step {ls : List ℓ} {s s' : σ} {l : Option ℓ} (run : Run m ls s) (next : m.Step s l s') :
      Run m (ls ++ l.toList) s'

/-- A property of the labels and the state that every step keeps. -/
theorem Run.invariant {m : Machine σ ℓ} {P : List ℓ → σ → Prop} (start : P [] m.init)
    (keep : ∀ {ls s l s'}, P ls s → m.Step s l s' → P (ls ++ l.toList) s') {ls : List ℓ} {s : σ}
    (run : m.Run ls s) : P ls s := by
  induction run with
  | init => exact start
  | step run next ih => exact keep ih next

/-- What steps can be taken from a state, and where they lead. -/
inductive Leads (m : Machine σ ℓ) : σ → List ℓ → σ → Prop where
  | refl (s : σ) : Leads m s [] s
  | step {s s' s'' : σ} {l : Option ℓ} {ls : List ℓ} (next : m.Step s l s')
      (rest : Leads m s' ls s'') : Leads m s (l.toList ++ ls) s''

theorem Leads.trans {m : Machine σ ℓ} {s s' s'' : σ} {ls ls' : List ℓ} (first : m.Leads s ls s')
    (rest : m.Leads s' ls' s'') : m.Leads s (ls ++ ls') s'' := by
  induction first with
  | refl s => exact rest
  | step next first ih =>
      rw [List.append_assoc]
      exact .step next (ih rest)

/-- A run may go on. -/
theorem Run.leads {m : Machine σ ℓ} {s s' : σ} {ls ls' : List ℓ} (run : m.Run ls s)
    (leads : m.Leads s ls' s') : m.Run (ls ++ ls') s' := by
  induction leads generalizing ls with
  | refl s => simpa using run
  | step next rest ih =>
      rw [← List.append_assoc]
      exact ih (run.step next)

/-- Where a label is seen in a run, a step has shown it. -/
theorem Run.shown {m : Machine σ ℓ} {ls before after : List ℓ} {l : ℓ} {s : σ} (run : m.Run ls s)
    (split : ls = before ++ l :: after) :
    ∃ s₁ s₂, m.Run before s₁ ∧ m.Step s₁ (some l) s₂ := by
  induction run generalizing after with
  | init => exact absurd split (by simp)
  | @step ls s s' note run next ih =>
      cases note with
      | none => exact ih (by simpa using split)
      | some l' =>
          obtain rfl | ⟨after, last, rfl⟩ := List.eq_nil_or_concat after
          · obtain ⟨rfl, same⟩ := List.append_inj' split rfl
            cases List.singleton_inj.mp same
            exact ⟨s, s', run, next⟩
          · rw [List.concat_eq_append, ← List.cons_append, ← List.append_assoc] at split
            exact ih (List.append_inj' split rfl).1

/-- Every step of the one machine is a step of the other with the same label, or
shows nothing and leaves the other where it is. -/
structure Refines (m : Machine σ ℓ) (n : Machine τ ℓ) (R : σ → τ → Prop) : Prop where
  init : R m.init n.init
  step : ∀ {s t l s'}, R s t → m.Step s l s' →
    l = none ∧ R s' t ∨ ∃ t', n.Step t l t' ∧ R s' t'

/-- The labels of a run are labels of a run of the machine that is refined. -/
theorem Refines.run {m : Machine σ ℓ} {n : Machine τ ℓ} {R : σ → τ → Prop}
    (refines : m.Refines n R) {ls : List ℓ} {s : σ} (run : m.Run ls s) :
    ∃ t, n.Run ls t ∧ R s t := by
  induction run with
  | init => exact ⟨n.init, .init, refines.init⟩
  | step run next ih =>
      obtain ⟨t, run, related⟩ := ih
      cases refines.step related next with
      | inl quiet =>
          obtain ⟨rfl, related⟩ := quiet
          exact ⟨t, by simpa using run, related⟩
      | inr moved =>
          obtain ⟨t', next, related⟩ := moved
          exact ⟨t', .step run next, related⟩

end Machine

/-- All that a run shows of one kind. -/
def seen {ν α : Type} (kind : ν → Option α) (notes : List ν) : Multiset α :=
  notes.filterMap kind

theorem seen_concat {ν α : Type} (kind : ν → Option α) (notes : List ν) (note : ν) :
    seen kind (notes ++ [note]) =
      (kind note).elim (seen kind notes) fun x => x ::ₘ seen kind notes := by
  rw [seen, List.filterMap_append, ← Multiset.coe_add, Multiset.add_comm]
  cases shows : kind note with
  | none => simp [shows, seen]
  | some x => simp [shows, seen]

end Effects
