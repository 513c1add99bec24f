import FileSharing.Web.Relay

/-!
The middleware around every route. It recovers every panic of the handler it
wraps, but answers only those whose value is an error.
-/

namespace FileSharing
open Net Effects

/-- What the middleware adds to the handler's own events. -/
def Handler.recoverEvents (h : Handler) : Completion → Trace
  | .panicked (.error text) =>
    errorEvents h.lib ((HttpError.newInternalError (str "recover from panic")).withError text)
      (str "RecoverHandler")
  | .panicked .other | .returned => []

theorem runs_recoverMiddleware (h : Handler) (next : Request → Act Completion) (r : Request)
    (t : Trace) :
    (h.recoverMiddleware next r).Runs t () ↔
      ∃ es c, (next r).Runs es c ∧ t = es ++ h.recoverEvents c := by
  have answer : ∀ c (Q : Trace → Unit → Prop), Program.Ensures
      (match c with
        | .panicked (.error text) =>
          h.error ((HttpError.newInternalError (str "recover from panic")).withError text)
            (str "RecoverHandler")
        | .panicked .other | .returned => pure ()) Q ↔ Q (h.recoverEvents c) () := by
    intro c Q
    cases c with
    | returned => rfl
    | panicked v =>
        cases v with
        | error text => exact ensures_error h Q _ _
        | other => rfl
  have outcome := fun c => Program.runs_of_ensures (answer c)
  rw [Handler.recoverMiddleware, Program.runs_bind]
  constructor
  · intro runs
    obtain ⟨es, c, es', run, rest, rfl⟩ := runs
    rw [((outcome c es' ()).mp rest).1]
    exact ⟨es, c, run, rfl⟩
  · intro runs
    obtain ⟨es, c, run, rfl⟩ := runs
    exact ⟨es, c, _, run, (outcome c _ ()).mpr ⟨rfl, rfl⟩, rfl⟩

/-- Neither a status nor a byte of the body. -/
def Unwritten (es : Trace) : Prop := es.findSome? statusOf = none

/-- The JSON response for an internal error. -/
structure InternalError (lib : Stdlib) (w : ResponseWriter) : Prop where
  status : w.status = some 400
  header : (str "Content-Type", str "application/json; charset=utf-8") ∈ w.sentHeader
  body : w.body = lib.encodeError codeInternalError (str "recover from panic")

/-- A response that says nothing went wrong and nothing else. -/
def EmptySuccess (w : ResponseWriter) : Prop := w.status = some 200 ∧ w.body = []

/-- The response to a handler that made these events and completed so. -/
def Recovered (lib : Stdlib) (es : Trace) (w : ResponseWriter) : Completion → Prop
  | .returned => w = response es
  | .panicked _ => (Unwritten es → InternalError lib w) ∧ ¬EmptySuccess w

/-- A panic that is no error is only noticed by what was written before it. -/
def Noticed (es : Trace) : Completion → Prop
  | .returned | .panicked (.error _) => True
  | .panicked .other =>
    es.flatMap output ≠ [] ∨ ∃ code, es.findSome? statusOf = some code ∧ code ≠ 200

/-- encoding/json never encodes an object as nothing. -/
def Stdlib.Encodes (lib : Stdlib) : Prop :=
  ∀ code description, lib.encodeError code description ≠ []

section Middleware
variable (h : Handler) {es : Trace}

theorem output_unwritten (unwritten : Unwritten es) : es.flatMap output = [] := by
  have silent : ∀ e : Event world, statusOf e = none → output e = [] := by
    intro e he
    cases e with
    | mk op reply =>
        cases op with
        | tell c => cases c <;> first | rfl | cases he
        | executeTemplate page =>
            simp only [statusOf] at he
            split at he
            · assumption
            · cases he
        | doRequest | now | randomBoundary => rfl
  refine List.flatMap_eq_nil_iff.mpr fun e he => silent e ?_
  exact List.findSome?_eq_none_iff.mp unwritten e he

theorem internalError_unwritten (text : Bytes) (unwritten : Unwritten es) :
    InternalError h.lib (response (es ++ h.recoverEvents (.panicked (.error text)))) := by
  have status : (es.foldl ResponseWriter.step .fresh).status = none := by
    rw [foldl_status, unwritten]
    rfl
  constructor
  · rw [response_status, List.findSome?_append, unwritten]
    rfl
  · rw [response, List.foldl_append, Handler.recoverEvents, errorEvents_step _ _ _ status]
    exact List.mem_cons_self
  · rw [response_body, List.flatMap_append, output_unwritten unwritten]
    exact output_errorEvents h.lib _ (str "RecoverHandler")

theorem recovered_iff_noticed (encodes : h.lib.Encodes) (c : Completion) :
    Recovered h.lib es (response (es ++ h.recoverEvents c)) c ↔ Noticed es c := by
  cases c with
  | returned => exact iff_of_true (congrArg response (List.append_nil es)) trivial
  | panicked v =>
      cases v with
      | error text =>
          refine iff_of_true ⟨internalError_unwritten h text, ?_⟩ trivial
          intro empty
          have body := empty.2
          rw [response_body, List.flatMap_append, Handler.recoverEvents, output_errorEvents,
            List.append_eq_nil_iff] at body
          exact encodes _ _ body.2
      | other =>
          have same : es ++ h.recoverEvents (.panicked .other) = es := List.append_nil es
          rw [same]
          cases hs : es.findSome? statusOf with
          | none =>
              have quiet := output_unwritten hs
              have unanswered : ¬InternalError h.lib (response es) := by
                intro internal
                have status := internal.status
                rw [response_status, hs] at status
                cases status
              simp [Recovered, Noticed, Unwritten, hs, quiet, unanswered]
          | some code =>
              simp [Recovered, Noticed, Unwritten, EmptySuccess, response_status, response_body, hs,
                -List.flatMap_eq_nil_iff]
              by_cases hc : code = 200 <;> simp [hc]

end Middleware

theorem Stdlib.plain_encodes : Stdlib.plain.Encodes := by
  intro code description
  exact List.append_ne_nil_of_right_ne_nil _ (by decide)

end FileSharing
