import FileSharing.Mux.Router
import Mathlib.Data.List.Find

/-!
Where strict slash leads. A route that corrects the ending of a path is found
again at the corrected path, with the same variables, as long as every route
captures the same of both paths.
-/

namespace Mux
open Net

variable {H : Type}

/-- The variables that a route captures of a path. -/
def Route.vars (r : Route H) (p : Bytes) : List (Bytes × Bytes) :=
  r.path.elim [] fun rr => rr.varsN.zip ((findSubmatch rr.regexp p).getD [])

/-- The path of a route has the other ending. -/
def Route.corrects (r : Route H) (p : Bytes) : Bool :=
  r.path.any fun rr =>
    (findSubmatch rr.regexp p).isSome && rr.strictSlash && hasSlash p != hasSlash rr.template

theorem setMatch_eq (r : Route H) (req : Req) (t : Option (Target H)) :
    setMatch r.path req ⟨t, [], none⟩ =
      ⟨if r.corrects req.url.path then some (.redirectHandler (toggleSlash req.url).string) else t,
        r.vars req.url.path, none⟩ := by
  cases path : r.path with
  | none => simp [setMatch, Route.corrects, Route.vars, path]
  | some rr =>
      obtain found | ⟨caps, found⟩ :=
        Option.eq_none_or_eq_some (findSubmatch rr.regexp req.url.path)
      · simp [setMatch, Route.corrects, Route.vars, path, found]
      · by_cases corrects : rr.strictSlash = true ∧ hasSlash req.url.path ≠ hasSlash rr.template
        · simp [setMatch, Route.corrects, Route.vars, path, found, corrects]
        · have accepts : r.corrects req.url.path = false := by
            simpa [Route.corrects, path, found] using corrects
          simp [setMatch, Route.vars, path, found, corrects, accepts]

theorem answer_eq (r : Route H) (h : H) (req : Req) :
    r.answer h req =
      if r.corrects req.url.path then .redirectHandler (toggleSlash req.url).string
      else .handle h (r.vars req.url.path) := by
  rw [Route.answer, setMatch_eq]
  cases r.corrects req.url.path <;> rfl

/-- The route that the scan stops at, by its handler, with its variables. -/
def Router.chosen (router : Router H) (req : Req) : Option (H × List (Bytes × Bytes)) := do
  let r ← router.routes.find? fun r => r.fits req.url.path && r.allows req.method
  let h ← r.handler
  some (h, r.vars req.url.path)

/-- A request that is handled is handled by the chosen route. -/
theorem chosen_of_handle {router : Router H} {req : Req}
    (handlers : ∀ r ∈ router.routes, r.handler.isSome)
    (clean : cleanPath req.url.path = req.url.path) {h : H} {vars : List (Bytes × Bytes)}
    (handled : router.serveHTTP req = .handle h vars) : router.chosen req = some (h, vars) := by
  obtain ⟨r, h', found, handler, answer⟩ :=
    serveHTTP_found handlers clean handled (by simp) (by simp)
  rw [answer_eq] at answer
  split at answer
  · cases answer
  · cases answer
    simp [Router.chosen, found, handler]

/-- A route makes the same of two paths. -/
structure Route.Agrees (r : Route H) (p p' : Bytes) : Prop where
  fits : r.fits p = r.fits p'
  captures : ∀ rr, r.path = some rr → findSubmatch rr.regexp p = findSubmatch rr.regexp p'

theorem Route.Agrees.vars {r : Route H} {p p' : Bytes} (agrees : r.Agrees p p') :
    r.vars p = r.vars p' := by
  rw [Route.vars, Route.vars]
  cases path : r.path with
  | none => rfl
  | some rr => rw [Option.elim_some, Option.elim_some, agrees.captures rr path]

/-- No route corrects both endings of a path. -/
theorem corrects_other {r : Route H} {p p' : Bytes} (other : hasSlash p' = !hasSlash p)
    (corrects : r.corrects p = true) : r.corrects p' = false := by
  rw [Route.corrects] at corrects ⊢
  cases path : r.path with
  | none => rfl
  | some rr =>
      simp only [path, Option.any_some, Bool.and_eq_true, bne_iff_ne] at corrects
      have own : (!hasSlash p) = hasSlash rr.template := Bool.not_eq.mpr corrects.2
      simp [other, own]

/-- The corrected request is handled by the route that corrected it. -/
theorem serveHTTP_corrected {router : Router H} {url : Bytes}
    (handlers : ∀ r ∈ router.routes, r.handler.isSome) (req req' : Req)
    (clean : cleanPath req.url.path = req.url.path)
    (clean' : cleanPath req'.url.path = req'.url.path) (method : req.method = req'.method)
    (agrees : ∀ r ∈ router.routes, r.Agrees req.url.path req'.url.path)
    (other : hasSlash req'.url.path = !hasSlash req.url.path)
    (redirected : router.serveHTTP req = .redirectHandler url) :
    ∃ h vars, router.chosen req = some (h, vars) ∧ router.serveHTTP req' = .handle h vars := by
  obtain ⟨r, h, found, handler, answer⟩ :=
    serveHTTP_found handlers clean redirected (by simp) (by simp)
  have agree := agrees r (List.mem_of_find?_eq_some found)
  have same : (router.routes.find? fun r => r.fits req'.url.path && r.allows req'.method) =
      some r := by
    rw [← found]
    refine List.find?_congr ?_
    intro r hr
    rw [(agrees r hr).fits, method]
  rw [answer_eq] at answer
  split at answer
  · rename_i corrects
    refine ⟨h, r.vars req.url.path, by simp [Router.chosen, found, handler], ?_⟩
    rw [serveHTTP_eq router req' handlers clean', firstMatch, same]
    simp [handler, answer_eq, corrects_other other corrects, agree.vars]
  · cases answer

end Mux
