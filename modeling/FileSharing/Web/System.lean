import FileSharing.Web.Ledger
import FileSharing.Web.Routes

/-!
The service among its browsers. Every request is served by a thread of its own.
A gateway request leaves in one step and is answered in another, and the cookies
a thread has set so far may reach its browser at any time, so that a run is any
list of actions.
-/

namespace FileSharing
open Net Effects

abbrev Browser : Type := Nat

/-- What passes between the service and the gateway on behalf of a browser. -/
inductive Exchange where
  | sent (b : Browser) (name : Bytes) (req : GatewayRequest)
  | answered (b : Browser) (name : Bytes) (req : GatewayRequest)
      (reply : Except Bytes GatewayResponse)
deriving DecidableEq

/-- A thread runs, or waits for the gateway. -/
inductive Phase where
  | running (rest : Act Unit)
  | waiting (name : Bytes) (req : GatewayRequest)
      (next : Except Bytes GatewayResponse → Act Unit)

structure Thread where
  browser : Browser
  request : Incoming
  events : Trace
  phase : Phase

/-- The state of a run; the latest exchange stands first. -/
structure System where
  jar : Browser → List (Bytes × Bytes)
  threads : List Thread
  history : List Exchange

inductive Action where
  | request (b : Browser) (r : Incoming) (keep : Bytes × Bytes → Bool)
  | advance (i : Nat) (reply : (op : Op) → world.Reply op)
  | deliver (i : Nat) (keep : Cookie → Bool)

def cookieOf : Event world → Option Cookie
  | ⟨.tell (.addCookie c), _⟩ => some c
  | _ => none

instance (h : Handler) (req : GatewayRequest) : Decidable (h.IssuesToken req) :=
  inferInstanceAs (Decidable (_ ∨ _))

/-- The tokens in a reply are legal cookie values. -/
def Handler.legalReply (h : Handler) (req : GatewayRequest) :
    Except Bytes GatewayResponse → Bool
  | .error _ => true
  | .ok rsp =>
    decide (rsp.statusCode = 200 →
      rsp.xToken.all validCookieValueByte ∧
        (h.IssuesToken req → rsp.body.err = none → rsp.body.data.all validCookieValueByte))

/-- One operation of a thread; a reply with an illegal token does not occur. -/
def Thread.advance (h : Handler) (reply : (op : Op) → world.Reply op) (thread : Thread) :
    Thread × List Exchange :=
  match thread.phase with
  | .running (.pure _) => (thread, [])
  | .running (.call (.doRequest name req) next) =>
    ({ thread with phase := .waiting name req next }, [.sent thread.browser name req])
  | .running (.call op next) =>
    ({ thread with
        events := thread.events ++ [⟨op, reply op⟩], phase := .running (next (reply op)) }, [])
  | .waiting name req next =>
    let answer : Except Bytes GatewayResponse := reply (.doRequest name req)
    if h.legalReply req answer then
      ({ thread with
          events := thread.events ++ [asked name req answer], phase := .running (next answer) },
        [.answered thread.browser name req answer])
    else (thread, [])

/-- What a browser's next request carries is some of what it holds. -/
def System.step (h : Handler) (deployed : Bool) (s : System) : Action → System
  | .request b r keep =>
    let r := { r with cookies := (s.jar b).filter keep }
    { s with threads := s.threads ++ [⟨b, r, [], .running (serveHTTP h deployed r)⟩] }
  | .advance i reply =>
    match s.threads[i]? with
    | none => s
    | some thread =>
      let (thread, exchanges) := thread.advance h reply
      { s with threads := s.threads.set i thread, history := exchanges ++ s.history }
  | .deliver i keep =>
    match s.threads[i]? with
    | none => s
    | some thread =>
      let cookies := (thread.events.filterMap cookieOf).filter keep
      { s with
        jar := fun b =>
          if b = thread.browser then cookies.map (fun c => (c.name, c.value)) ++ s.jar b
          else s.jar b }

def System.init : System := { jar := fun _ => [], threads := [], history := [] }

def System.run (h : Handler) (deployed : Bool) (actions : List Action) : System :=
  actions.foldl (System.step h deployed) .init

end FileSharing
