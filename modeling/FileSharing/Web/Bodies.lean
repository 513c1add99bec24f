import FileSharing.Web.Ledger

/-!
Gateway response bodies: which ones a run received and how often it closed each.
The handlers close the bodies they are given, but processRequest gives away only
those of 200 replies.
-/

namespace FileSharing
open Net Effects

/-- The responses that Do returned with a nil error. -/
def fetched (t : Trace) : List GatewayResponse :=
  t.filterMap fun
    | ⟨.doRequest _ _, .ok rsp⟩ => some rsp
    | _ => none

def closings (t : Trace) (id : Nat) : Nat := t.countP fun e => e.1 = .tell (.closeBody id)

def AllClosedOnce (t : Trace) : Prop := ∀ rsp ∈ fetched t, closings t rsp.body.id = 1

@[simp] theorem fetched_nil : fetched [] = [] := rfl

@[simp] theorem fetched_append (t t' : Trace) : fetched (t ++ t') = fetched t ++ fetched t' :=
  List.filterMap_append

@[simp] theorem closings_append (t t' : Trace) (id : Nat) :
    closings (t ++ t') id = closings t id + closings t' id :=
  List.countP_append

@[simp] theorem fetched_doRequest_ok (name : Bytes) (req : GatewayRequest) (rsp : GatewayResponse)
    (t : Trace) : fetched (asked name req (.ok rsp) :: t) = rsp :: fetched t := rfl

@[simp] theorem fetched_doRequest_error (name : Bytes) (req : GatewayRequest) (err : Bytes)
    (t : Trace) : fetched (asked name req (.error err) :: t) = fetched t := rfl

@[simp] theorem closings_doRequest (name : Bytes) (req : GatewayRequest)
    (reply : Except Bytes GatewayResponse) (t : Trace) (id : Nat) :
    closings (asked name req reply :: t) id = closings t id := by
  simp [closings, asked]

@[simp] theorem fetched_told (c : Command) (t : Trace) : fetched (told c :: t) = fetched t := rfl

@[simp] theorem fetched_executed (page : Page) (rendered : Rendered) (t : Trace) :
    fetched (executed page rendered :: t) = fetched t := rfl

@[simp] theorem closings_closeBody (id : Nat) (t : Trace) :
    closings (told (.closeBody id) :: t) id = closings t id + 1 := by
  simp [closings, told]

/-- Events that neither receive nor close a body. -/
def bodiless : Event world → Bool
  | ⟨.doRequest _ _, _⟩ => false
  | ⟨.tell (.closeBody _), _⟩ => false
  | _ => true

theorem bodiless_of_setsIssued {h : Handler} {name : Bytes} {req : GatewayRequest}
    {rsp : GatewayResponse} {e : Event world} (he : h.SetsIssued name req rsp e) : bodiless e := by
  cases e with
  | mk op reply =>
      cases op with
      | doRequest name req => cases he
      | tell c =>
          cases c with
          | closeBody id => cases he
          | _ => rfl
      | executeTemplate | now | randomBoundary => rfl

theorem bodiless_of_quiet {e : Event world} (he : quiet e) : bodiless e := by
  cases e with
  | mk op reply =>
      cases op with
      | doRequest name req => cases he
      | tell c =>
          cases c with
          | closeBody id => cases he
          | _ => rfl
      | executeTemplate | now | randomBoundary => rfl

theorem fetched_bodiless {t : Trace} (ht : ∀ e ∈ t, bodiless e) : fetched t = [] := by
  refine List.filterMap_eq_nil_iff.mpr ?_
  intro e he
  have hb := ht e he
  cases e with
  | mk op reply =>
      cases op with
      | doRequest name req => cases hb
      | tell | executeTemplate | now | randomBoundary => rfl

theorem closings_bodiless {t : Trace} (ht : ∀ e ∈ t, bodiless e) (id : Nat) :
    closings t id = 0 := by
  refine List.countP_eq_zero.mpr ?_
  intro e he close
  have hb := ht e he
  cases e with
  | mk op reply =>
      simp only [decide_eq_true_eq] at close
      subst close
      cases hb

theorem Ledger.bodies {h : Handler} {sends : Bytes → GatewayRequest → Prop} {t : Trace}
    (ht : Ledger h sends t) :
    AllClosedOnce t ↔ ∀ rsp ∈ fetched t, rsp.statusCode = 200 := by
  have silent : ∀ {t : Trace}, Silent t → ∀ e ∈ t, bodiless e :=
    fun hs e he => bodiless_of_quiet (hs e he)
  cases ht with
  | idle ht => simp [AllClosedOnce, fetched_bodiless (silent ht)]
  | @refused pre post name req reply hpre sent hreply hpost =>
      cases reply with
      | error err =>
          simp [AllClosedOnce, fetched_bodiless (silent hpre), fetched_bodiless (silent hpost)]
      | ok rsp =>
          have status : rsp.statusCode ≠ 200 := fun hs => hreply ⟨rsp, rfl, hs⟩
          simp [AllClosedOnce, fetched_bodiless (silent hpre), fetched_bodiless (silent hpost),
            closings_bodiless (silent hpre), closings_bodiless (silent hpost), status]
  | @accepted pre mid post name req rsp hpre sent status hmid hpost =>
      have hmid : ∀ e ∈ mid, bodiless e := fun e he => bodiless_of_setsIssued (hmid e he)
      simp [AllClosedOnce, fetched_bodiless (silent hpre), fetched_bodiless (silent hpost),
        fetched_bodiless hmid, closings_bodiless (silent hpre), closings_bodiless (silent hpost),
        closings_bodiless hmid, status]

/-- A handler closes every body it received exactly once if and only if every
response it received was a 200: an error response leaks its body. -/
theorem bodies_closed_once_iff (h : Handler) (name : HandlerName) (r : Request) :
    (h.run name r).Ensures fun t _ =>
      AllClosedOnce t ↔ ∀ rsp ∈ fetched t, rsp.statusCode = 200 :=
  (run_ledger h r name).mono fun _ _ ht => ht.bodies

/-- A download answered with status 500. -/
theorem body_leaks :
    ¬∀ (h : Handler) (name : HandlerName) (r : Request),
      (h.run name r).Ensures fun t _ => AllClosedOnce t := by
  intro closed
  have leak := closed .plain .getFileHandler
    { method := str "GET", url := ⟨str "/common/a/", []⟩, cookies := [], form := []
      multipart := .error [], ctx := [] } (.ok ⟨500, [], ⟨0, [], none⟩⟩) () () () ()
  have never := leak ⟨500, [], ⟨0, [], none⟩⟩ (by decide)
  exact absurd never (by decide)

end FileSharing
