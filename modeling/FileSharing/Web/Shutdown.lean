import FileSharing.Web.Command

/-!
A stop can always be brought to its end: what is under way is answered, the connections
close, and the main thread returns before any deadline has cut it short.
-/

namespace FileSharing
open Net Effects

namespace Service
variable {α : Type} {cfg : ServiceConfig} {h : Handler} {actions : List α}

/-- A turn of a thread; what it asks fails. -/
def turn (j : Nat) : Action := .advance j fun _ => default

theorem note_turn (t : System) (j : Nat) :
    ∀ note ∈ (t.note h (turn j)).toList, ∃ e, note = .exchanged e := by
  intro note shown
  rw [turn, System.note] at shown
  cases found : t.threads[j]? with
  | none =>
      rw [found] at shown
      cases shown
  | some thread =>
      rw [found, Option.bind_some, Option.mem_toList] at shown
      obtain ⟨e, -, rfl⟩ := Option.map_eq_some_iff.mp shown
      exact ⟨e, rfl⟩

/-- The threads may take any turns while the main thread waits. -/
theorem turns_lead (js : List Nat) {s : Service α} (alive : s.main ≠ .returned) :
    ∃ notes, (machine cfg h actions).Leads s notes
        { s with system := (js.map turn).foldl (System.step h true) s.system } ∧
      ∀ note ∈ notes, ∃ e, note = .exchanged e := by
  induction js generalizing s with
  | nil => exact ⟨[], .refl s, fun _ none => (List.not_mem_nil none).elim⟩
  | cons j js ih =>
      let s' : Service α := { s with system := s.system.step h true (turn j) }
      have alive' : s'.main ≠ .returned := alive
      obtain ⟨notes, leads, exchanged⟩ := ih alive'
      have next : (machine cfg h actions).Step s (s.system.note h (turn j)) s' :=
        .connection alive (.advances j _)
      refine ⟨_, .step next leads, ?_⟩
      intro note member
      cases List.mem_append.mp member with
      | inl now => exact note_turn s.system j note now
      | inr later => exact exchanged note later

/-- The requests that are served, in the order in which they have arrived. -/
def requests (t : System) : List Incoming := t.threads.map Thread.request

theorem requests_turn (h : Handler) (t : System) (j : Nat) :
    requests (t.step h true (turn j)) = requests t := by
  simp only [turn, System.step]
  cases found : t.threads[j]? with
  | none => rfl
  | some thread =>
      have same := (later_advance h (fun _ => default) thread).1.request
      obtain ⟨lt, rfl⟩ := List.getElem?_eq_some_iff.mp found
      simp only [requests, List.map_set, same]
      rw [← List.map_set, List.set_getElem_self lt]

theorem requests_turns (h : Handler) (t : System) (js : List Nat) :
    requests ((js.map turn).foldl (System.step h true) t) = requests t := by
  induction js generalizing t with
  | nil => rfl
  | cons j js ih => exact (ih _).trans (requests_turn h t j)

theorem length_turns (h : Handler) (t : System) (js : List Nat) :
    ((js.map turn).foldl (System.step h true) t).threads.length = t.threads.length := by
  simpa [requests] using congrArg List.length (requests_turns h t js)

/-- With turns enough all threads have finished. -/
theorem turns_finish_all {t : System} (sound : t.Sound h true) :
    ∃ js : List Nat, ∀ thread ∈ ((js.map turn).foldl (System.step h true) t).threads,
      thread.Finished := by
  let js := ((List.range t.threads.length).map (List.replicate (bound + 1))).flatten
  refine ⟨js, fun thread' member => ?_⟩
  obtain ⟨j, found'⟩ := List.mem_iff_getElem?.mp member
  obtain ⟨lt, -⟩ := List.getElem?_eq_some_iff.mp found'
  rw [length_turns] at lt
  have found : t.threads[j]? = some t.threads[j] := List.getElem?_eq_getElem lt
  have own : (List.replicate (bound + 1) j).Sublist js :=
    List.sublist_flatten_of_mem (List.mem_map.mpr ⟨j, List.mem_range.mpr lt, rfl⟩)
  have serve : ∀ action ∈ (List.replicate (bound + 1) j).map turn, action.Serves h j := by
    intro action among
    rw [List.map_replicate] at among
    rw [List.eq_of_mem_replicate among]
    exact ⟨rfl, fun _ _ => rfl⟩
  have enough : bound < ((List.replicate (bound + 1) j).map turn).length := by simp
  obtain ⟨thread, found'', -, finished⟩ :=
    turns_finish true found sound (own.map turn) serve enough
  rw [Option.some_inj.mp (found'.symm.trans found'')]
  exact finished

/-- The connections of finished threads close one after the other. -/
theorem closes_lead {s : Service α} (alive : s.main ≠ .returned)
    (finished : ∀ thread ∈ s.system.threads, thread.Finished) (before rest : List Connection)
    (serves : Serves rest s.system.threads) :
    (machine cfg h actions).Leads { s with connections := before ++ rest } []
      { s with connections := before ++ rest.map fun _ => .closed } := by
  induction rest generalizing before with
  | nil => exact .refl _
  | cons c rest ih =>
      have others : Serves rest s.system.threads := fun j member =>
        serves j (List.mem_cons_of_mem _ member)
      have later := ih (before ++ [.closed]) others
      simp only [List.append_assoc, List.singleton_append] at later
      let at' := fun c : Connection => { s with connections := before ++ c :: rest }
      have idle : (machine cfg h actions).Leads (at' .idle) []
          { s with connections := before ++ .closed :: rest.map fun _ => .closed } := by
        have here : (at' .idle).connections[before.length]? = some .idle := by simp [at']
        have next : (machine cfg h actions).Step (at' .idle) none
            { s with connections := (before ++ .idle :: rest).set before.length .closed } :=
          .connection alive (.closes here)
        rw [List.set_append_right _ _ (Nat.le_refl _), Nat.sub_self, List.set_cons_zero] at next
        exact .step next later
      rw [List.map_cons]
      cases c with
      | closed => exact later
      | idle => exact idle
      | active j =>
          have lt := serves j List.mem_cons_self
          have here : (at' (.active j)).connections[before.length]? = some (.active j) := by
            simp [at']
          have next : (machine cfg h actions).Step (at' (.active j)) none
              { s with connections := (before ++ .active j :: rest).set before.length .idle } :=
            .connection alive (.answers here (List.getElem?_eq_getElem lt)
              (finished _ (List.getElem_mem lt)))
          rw [List.set_append_right _ _ (Nat.le_refl _), Nat.sub_self, List.set_cons_zero] at next
          exact .step next idle

/-- The post actions are performed one after the other. -/
theorem posts_lead (rest : List α) (s : Service α) :
    (machine cfg h actions).Leads { s with main := .posting rest } []
      { s with main := .returned, performed := s.performed ++ rest } := by
  induction rest generalizing s with
  | nil =>
      have next : (machine cfg h actions).Step { s with main := .posting [] } none
          { s with main := .returned } := .main (.ends rfl)
      rw [List.append_nil]
      exact .step next (.refl _)
  | cons action rest ih =>
      have next : (machine cfg h actions).Step { s with main := .posting (action :: rest) } none
          { s with main := .posting rest, performed := s.performed ++ [action] } :=
        .main (.posts rfl)
      have later := ih { s with performed := s.performed ++ [action] }
      rw [List.append_assoc, List.singleton_append] at later
      exact .step next later

/-- What a stop may come to. -/
theorem stop_leads {notes : List Note} {s : Service α} (run : (machine cfg h actions).Run notes s)
    (draining : s.main = .draining) :
    ∃ notes' s', (machine cfg h actions).Leads s notes' s' ∧ s'.main = .returned ∧
      s'.performed = actions ∧ s'.log = s.log ∧ (∀ note ∈ notes', ∃ e, note = .exchanged e) ∧
      requests s'.system = requests s.system := by
  obtain ⟨sound, -, serves, consistent⟩ := keeps_run run
  have unposted : s.performed = [] := by
    rw [Consistent, draining] at consistent
    exact consistent.1
  have alive : s.main ≠ .returned := by simp [draining]
  obtain ⟨js, finished⟩ := turns_finish_all sound
  let s₁ : Service α := { s with system := (js.map turn).foldl (System.step h true) s.system }
  let s₂ : Service α := { s₁ with connections := s₁.connections.map fun _ => .closed }
  let s₃ : Service α := { s₂ with main := .returned, performed := s₂.performed ++ actions }
  have serves₁ : Serves s₁.connections s₁.system.threads := by
    intro j member
    rw [length_turns]
    exact serves j member
  have turns : ∃ notes', (machine cfg h actions).Leads s notes' s₁ ∧
      ∀ note ∈ notes', ∃ e, note = .exchanged e := turns_lead js alive
  have closes : (machine cfg h actions).Leads s₁ [] s₂ :=
    closes_lead (s := s₁) alive finished [] s₁.connections serves₁
  have quiet : ∀ c ∈ s₂.connections, c = .closed := by
    intro c member
    obtain ⟨_, -, rfl⟩ := List.mem_map.mp member
    rfl
  have drained : (machine cfg h actions).Step s₂ none { s₂ with main := .posting actions } :=
    .main (.drained draining quiet)
  have posts : (machine cfg h actions).Leads { s₂ with main := .posting actions } [] s₃ :=
    posts_lead actions s₂
  obtain ⟨notes', turned, exchanged⟩ := turns
  have performed : s₃.performed = actions := by simp [s₃, s₂, s₁, unposted]
  refine ⟨notes', s₃, ?_, rfl, performed, rfl, exchanged, requests_turns h s.system js⟩
  simpa using (turned.trans closes).trans (.step drained posts)

end Service

namespace Process
variable {α : Type} {l : Launch α} {cfg : CommandConfig} {h : Handler} {actions : List α}

/-- What the service can do, the process can. -/
theorem leads_running {s s' : Service α} {notes : List Note}
    (leads : (Service.machine cfg.service h actions).Leads s notes s') :
    (machine l).Leads (.running cfg h actions s) notes (.running cfg h actions s') := by
  induction leads with
  | refl s => exact .refl _
  | step next rest ih => exact .step (.runs next) ih

end Process

end FileSharing
