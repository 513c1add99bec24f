import FileSharing.Effects.Machine
import FileSharing.Web.Parameters
import FileSharing.Web.System
import Mathlib.Data.Multiset.MapFold
import Mathlib.Data.Multiset.Count

/-!
What the service is for, without routers, cookies and threads: a desk that takes
the requests of browsers, brings each of them to the gateway at most once, and
keeps the tokens that the gateway hands out, every one for its browser and its
storage.
-/

namespace FileSharing
open Net Effects

/-- What can be seen of a run: a request arrives, or something passes between
the service and the gateway. -/
inductive Note where
  | arrived (b : Browser) (r : Incoming)
  | exchanged (e : Exchange)

/-- The endpoint of the gateway that a handler works with. -/
def HandlerName.gateway : HandlerName → Bytes
  | .registerHandler => str "register"
  | .loginHandler => str "login"
  | .indexHTMLHandler => str "index.html"
  | .viewHandler => str "list"
  | .uploadHandler => str "upload"
  | .removeHandler => str "remove"
  | .getFileHandler => str "file"
  | .shareTextHandler => str "shareText"

/-- The storage of a request: the path names it, for a registration the form. -/
def HandlerName.storage (handler : HandlerName) (r : Incoming) (a : Answer) : Bytes :=
  if handler = .registerHandler then r.form.get (str "name") else a.storage

/-- What a request may be brought to the gateway as: the operation that the decision
list has for it, under its own method, for its storage and its area. -/
structure Handler.Brings (h : Handler) (r : Incoming) (name : Bytes) (req : GatewayRequest)
    (handler : HandlerName) (a : Answer) : Prop where
  decided : decision r.method (segments r.url.path) = some a
  endpoint : a.endpoint = .handler handler
  storage : name = handler.storage r a
  named : name ≠ []
  method : req.method = r.method
  url : req.url = h.makeURL handler.gateway
  fields : handler ≠ .uploadHandler → req.fields.all (str "storage") = [name] ∧
    req.fields.all (str "permanent") = if a.isPermanent then [str "true"] else []

structure Desk where
  /-- The requests that were not brought to the gateway. -/
  pending : Multiset (Browser × Incoming)
  /-- The requests that the gateway has yet to answer. -/
  unanswered : Multiset (Browser × Bytes × GatewayRequest)
  /-- The tokens of a browser for a storage. -/
  holds : Browser → Bytes → Bytes → Prop

/-- The tokens after a reply. -/
def Desk.grant (h : Handler) (holds : Browser → Bytes → Bytes → Prop) (b : Browser) (name : Bytes)
    (req : GatewayRequest) (reply : Except Bytes GatewayResponse) :
    Browser → Bytes → Bytes → Prop :=
  fun b' name' token => holds b' name' token ∨
    b' = b ∧ name' = name ∧ ∃ rsp, reply = .ok rsp ∧ rsp.statusCode = 200 ∧ h.Issued req rsp token

inductive Desk.Step (h : Handler) : Desk → Option Note → Desk → Prop where
  | arrives {pending unanswered holds} (b : Browser) (r : Incoming) :
      Step h ⟨pending, unanswered, holds⟩ (some (.arrived b r))
        ⟨(b, r) ::ₘ pending, unanswered, holds⟩
  | asks {pending unanswered holds} (b : Browser) (r : Incoming) (name : Bytes)
      (req : GatewayRequest) {handler : HandlerName} {a : Answer}
      (brings : h.Brings r name req handler a)
      (authorized : ∀ bearer, req.authorization = some bearer →
        ∃ token, bearer = str "Bearer " ++ token ∧ holds b name token) :
      Step h ⟨(b, r) ::ₘ pending, unanswered, holds⟩ (some (.exchanged (.sent b name req)))
        ⟨pending, (b, name, req) ::ₘ unanswered, holds⟩
  | hears {pending unanswered holds} (b : Browser) (name : Bytes) (req : GatewayRequest)
      (reply : Except Bytes GatewayResponse) :
      Step h ⟨pending, (b, name, req) ::ₘ unanswered, holds⟩
        (some (.exchanged (.answered b name req reply)))
        ⟨pending, unanswered, grant h holds b name req reply⟩

def Desk.machine (h : Handler) : Machine Desk Note where
  init := { pending := 0, unanswered := 0, holds := fun _ _ _ => False }
  Step := Desk.Step h

def Note.arrival? : Note → Option (Browser × Incoming)
  | .arrived b r => some (b, r)
  | .exchanged _ => none

def Note.sent? : Note → Option (Browser × Bytes × GatewayRequest)
  | .exchanged (.sent b name req) => some (b, name, req)
  | _ => none

def Note.answered? : Note → Option (Browser × Bytes × GatewayRequest)
  | .exchanged (.answered b name req _) => some (b, name, req)
  | _ => none

/-- The books of a run. Every request of a browser is pending or was brought to the
gateway, once, as one of its requests; and of these every one is unanswered or was
answered, once. -/
structure Desk.Accounts (h : Handler) (notes : List Note) (d : Desk)
    (brought : Multiset ((Browser × Incoming) × Bytes × GatewayRequest)) : Prop where
  arrived : seen Note.arrival? notes = d.pending + brought.map (·.1)
  sent : seen Note.sent? notes = brought.map fun p => (p.1.1, p.2)
  brings : ∀ p ∈ brought, ∃ handler a, h.Brings p.1.2 p.2.1 p.2.2 handler a
  answered : seen Note.sent? notes = d.unanswered + seen Note.answered? notes

theorem Desk.Step.accounts {h : Handler} {notes : List Note} {d d' : Desk} {note : Option Note}
    (step : Desk.Step h d note d') (before : ∃ brought, Desk.Accounts h notes d brought) :
    ∃ brought, Desk.Accounts h (notes ++ note.toList) d' brought := by
  obtain ⟨brought, arrived, sent, brings, answered⟩ := before
  cases step with
  | arrives b r =>
      refine ⟨brought, ?_, ?_, brings, ?_⟩
      · rw [Option.toList_some, seen_concat]
        exact (congrArg ((b, r) ::ₘ ·) arrived).trans (Multiset.cons_add _ _ _).symm
      · rw [Option.toList_some, seen_concat]
        exact sent
      · rw [Option.toList_some, seen_concat, seen_concat]
        exact answered
  | asks b r name req here authorized =>
      refine ⟨((b, r), name, req) ::ₘ brought, ?_, ?_, ?_, ?_⟩
      · rw [Option.toList_some, seen_concat, Multiset.map_cons, Multiset.add_cons]
        exact arrived.trans (Multiset.cons_add _ _ _)
      · rw [Option.toList_some, seen_concat, Multiset.map_cons]
        exact congrArg ((b, name, req) ::ₘ ·) sent
      · intro p hp
        cases Multiset.mem_cons.mp hp with
        | inl this =>
            rw [this]
            exact ⟨_, _, here⟩
        | inr before => exact brings p before
      · rw [Option.toList_some, seen_concat, seen_concat]
        exact (congrArg ((b, name, req) ::ₘ ·) answered).trans (Multiset.cons_add _ _ _).symm
  | hears b name req reply =>
      refine ⟨brought, ?_, ?_, brings, ?_⟩
      · rw [Option.toList_some, seen_concat]
        exact arrived
      · rw [Option.toList_some, seen_concat]
        exact sent
      · rw [Option.toList_some, seen_concat, seen_concat]
        exact answered.trans ((Multiset.cons_add _ _ _).trans (Multiset.add_cons _ _ _).symm)

/-- Every run of the desk keeps its books. -/
theorem Desk.accounts {h : Handler} {notes : List Note} {d : Desk}
    (run : (Desk.machine h).Run notes d) : ∃ brought, Desk.Accounts h notes d brought := by
  have opened : Desk.Accounts h [] (Desk.machine h).init 0 :=
    ⟨rfl, rfl, fun p hp => absurd hp (Multiset.notMem_zero p), rfl⟩
  exact run.invariant (P := fun notes d => ∃ brought, Desk.Accounts h notes d brought)
    ⟨0, opened⟩ fun before step => Desk.Step.accounts step before

end FileSharing
