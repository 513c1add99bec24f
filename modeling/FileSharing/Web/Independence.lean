import FileSharing.Web.System

/-!
Browsers do not see each other. What a browser gets of a run, its cookies, its
threads and what passes on its behalf, is all there is to a run of its own actions
alone.
-/

namespace FileSharing
open Net Effects

def Exchange.browser : Exchange → Browser
  | .sent b _ _ => b
  | .answered b _ _ _ => b

/-- A state with a single browser left. -/
def System.of (s : System) (b : Browser) : System where
  jar := fun b' => if b' = b then s.jar b' else []
  threads := s.threads.filter fun thread => thread.browser = b
  history := s.history.filter fun e => e.browser = b

/-- An action as the browser would take it alone, where the threads have these
owners: its own threads are numbered without the others. -/
def Action.of (b : Browser) (owners : List Browser) : Action → Option Action
  | .request b' r keep => if b' = b then some (.request b' r keep) else none
  | .advance i reply =>
    if owners[i]? = some b then some (.advance ((owners.take i).count b) reply) else none
  | .deliver i keep =>
    if owners[i]? = some b then some (.deliver ((owners.take i).count b) keep) else none

/-- The owners of the threads after an action. -/
def Action.owners (owners : List Browser) : Action → List Browser
  | .request b _ _ => owners ++ [b]
  | .advance _ _ | .deliver _ _ => owners

/-- The actions that concern a browser. -/
def actionsOf (b : Browser) : List Browser → List Action → List Action
  | _, [] => []
  | owners, action :: actions =>
    (action.of b owners).toList ++ actionsOf b (action.owners owners) actions

section Kept
variable {α : Type} {p : α → Bool} {x y : α}

/-- Where an element that is kept stands among those that are kept. -/
theorem filter_getElem? {l : List α} {i : Nat} (found : l[i]? = some x) (hx : p x = true) :
    (l.filter p)[(l.take i).countP p]? = some x := by
  induction l generalizing i with
  | nil => cases found
  | cons z l ih =>
      cases i with
      | zero =>
          cases found
          rw [List.filter_cons_of_pos hx]
          rfl
      | succ i =>
          have later := ih found
          cases hz : p z with
          | true => simpa [List.filter_cons_of_pos hz, hz] using later
          | false => simpa [hz] using later

theorem filter_set {l : List α} {i : Nat} (found : l[i]? = some x) (hx : p x = true)
    (hy : p y = true) : (l.set i y).filter p = (l.filter p).set ((l.take i).countP p) y := by
  induction l generalizing i with
  | nil => cases found
  | cons z l ih =>
      cases i with
      | zero =>
          cases found
          simp [hx, hy]
      | succ i =>
          have later := ih found
          cases hz : p z <;> simp [hz, later]

theorem filter_set_other {l : List α} {i : Nat} (found : l[i]? = some x) (hx : p x = false)
    (hy : p y = false) : (l.set i y).filter p = l.filter p := by
  induction l generalizing i with
  | nil => cases found
  | cons z l ih =>
      cases i with
      | zero =>
          cases found
          simp [hx, hy]
      | succ i =>
          have later := ih found
          cases hz : p z <;> simp [hz, later]

end Kept

theorem advance_browser (h : Handler) (reply : (op : Op) → world.Reply op) (thread : Thread) :
    (thread.advance h reply).1.browser = thread.browser ∧
      ∀ e ∈ (thread.advance h reply).2, e.browser = thread.browser := by
  obtain ⟨b, request, events, phase⟩ := thread
  cases phase with
  | running rest =>
      cases rest with
      | pure a => simp [Thread.advance]
      | call op next => cases op <;> simp [Thread.advance, Exchange.browser]
  | waiting name req next =>
      simp only [Thread.advance]
      split <;> simp [Exchange.browser]

section Step
variable (h : Handler) (deployed : Bool) (s : System) (b : Browser)

theorem count_owners (i : Nat) :
    ((s.threads.map (·.browser)).take i).count b =
      (s.threads.take i).countP fun thread => thread.browser = b := by
  rw [← List.map_take, List.count, List.countP_map]
  rfl

/-- A thread of the browser, by its number among the browser's threads. -/
theorem thread_of {i : Nat} {thread : Thread} (found : s.threads[i]? = some thread)
    (own : thread.browser = b) :
    (s.of b).threads[((s.threads.map (·.browser)).take i).count b]? = some thread := by
  rw [count_owners]
  exact filter_getElem? found (decide_eq_true own)

theorem owner_iff {i : Nat} {thread : Thread} (found : s.threads[i]? = some thread) :
    (s.threads.map (·.browser))[i]? = some b ↔ thread.browser = b := by
  rw [List.getElem?_map, found, Option.map_some, Option.some_inj]

theorem advance_of (i : Nat) (reply : (op : Op) → world.Reply op) :
    ((Action.advance i reply).of b (s.threads.map (·.browser))).toList.foldl (System.step h deployed)
      (s.of b) = (s.step h deployed (.advance i reply)).of b := by
  cases found : s.threads[i]? with
  | none => simp [Action.of, System.step, found]
  | some thread =>
      obtain ⟨browser, exchanges⟩ := advance_browser h reply thread
      by_cases own : thread.browser = b
      · have here := (owner_iff s b found).mpr own
        have number := thread_of s b found own
        have kept : ∀ e ∈ (thread.advance h reply).2, decide (e.browser = b) = true :=
          fun e he => decide_eq_true ((exchanges e he).trans own)
        have moved := filter_set (p := fun thread => decide (thread.browser = b)) found
          (decide_eq_true own) (decide_eq_true (browser.trans own))
        rw [← count_owners] at moved
        simp only [Action.of, here, if_true, Option.toList_some, List.foldl_cons, List.foldl_nil,
          System.step, number, found]
        simp only [System.of, moved, List.filter_append, List.filter_eq_self.mpr kept]
      · have other := mt (owner_iff s b found).mp own
        have dropped : ∀ e ∈ (thread.advance h reply).2, ¬decide (e.browser = b) = true := by
          intro e he same
          exact own ((exchanges e he).symm.trans (of_decide_eq_true same))
        have moved := filter_set_other (p := fun thread => decide (thread.browser = b)) found
          (decide_eq_false own) (decide_eq_false (browser ▸ own))
        simp only [Action.of, other, if_false, Option.toList_none, List.foldl_nil, System.step, found]
        simp only [System.of, moved, List.filter_append, List.filter_eq_nil_iff.mpr dropped,
          List.nil_append]

theorem deliver_of (i : Nat) (keep : Cookie → Bool) :
    ((Action.deliver i keep).of b (s.threads.map (·.browser))).toList.foldl (System.step h deployed)
      (s.of b) = (s.step h deployed (.deliver i keep)).of b := by
  cases found : s.threads[i]? with
  | none => simp [Action.of, System.step, found]
  | some thread =>
      by_cases own : thread.browser = b
      · have here := (owner_iff s b found).mpr own
        have number := thread_of s b found own
        simp only [Action.of, here, if_true, Option.toList_some, List.foldl_cons, List.foldl_nil,
          System.step, number, found]
        simp only [System.of, own, System.mk.injEq, and_true]
        funext b'
        by_cases same : b' = b <;> simp [same]
      · have other := mt (owner_iff s b found).mp own
        simp only [Action.of, other, if_false, Option.toList_none, List.foldl_nil, System.step, found,
          System.of, System.mk.injEq, and_true]
        funext b'
        by_cases same : b' = b
        · simp [same, Ne.symm own]
        · simp [same]

/-- An action moves what a browser sees as the browser's own action does, or not at
all. -/
theorem step_of (action : Action) :
    (action.of b (s.threads.map (·.browser))).toList.foldl (System.step h deployed) (s.of b) =
      (s.step h deployed action).of b := by
  cases action with
  | request b' r keep =>
      by_cases own : b' = b
      · simp [Action.of, System.step, System.of, own]
      · simp [Action.of, System.step, System.of, own]
  | advance i reply => exact advance_of h deployed s b i reply
  | deliver i keep => exact deliver_of h deployed s b i keep

theorem step_owners (action : Action) :
    (s.step h deployed action).threads.map (·.browser) =
      action.owners (s.threads.map (·.browser)) := by
  cases action with
  | request b r keep => simp [System.step, Action.owners]
  | advance i reply =>
      cases found : s.threads[i]? with
      | none => simp [System.step, Action.owners, found]
      | some thread =>
          have browser := (advance_browser h reply thread).1
          have same : (s.threads.map (·.browser))[i]? = some thread.browser := by
            rw [List.getElem?_map, found, Option.map_some]
          obtain ⟨lt, owner⟩ := List.getElem?_eq_some_iff.mp same
          simp only [System.step, Action.owners, found, List.map_set, browser]
          rw [← owner, List.set_getElem_self lt]
  | deliver i keep =>
      simp only [System.step, Action.owners]
      cases s.threads[i]? <;> rfl

end Step

theorem steps_of (h : Handler) (deployed : Bool) (b : Browser) (s : System)
    (actions : List Action) :
    (actionsOf b (s.threads.map (·.browser)) actions).foldl (System.step h deployed) (s.of b) =
      (actions.foldl (System.step h deployed) s).of b := by
  induction actions generalizing s with
  | nil => rfl
  | cons action actions ih =>
      rw [actionsOf, List.foldl_append, step_of, ← step_owners h deployed, ih, List.foldl_cons]

/-- Whatever the other browsers do and however it is interleaved, a browser gets the
cookies, the threads and the exchanges that it would get alone. -/
theorem run_independent (h : Handler) (deployed : Bool) (b : Browser) (actions : List Action) :
    System.run h deployed (actionsOf b [] actions) = (System.run h deployed actions).of b := by
  have alone : System.init.of b = System.init := by
    simp [System.of, System.init]
  have steps := steps_of h deployed b .init actions
  rw [alone] at steps
  exact steps

end FileSharing
