import FileSharing.Net.Json
import FileSharing.Web.Completion
import FileSharing.Web.Config

/-!
Package `service`: the configuration that is loaded, and a service that runs. Its main
thread, the thread of its http server and the connections of the clients take their
steps in any order until the main thread has returned.
-/

namespace FileSharing
open Net Effects

/-- The part of the configuration that the package reads. -/
structure ServiceConfig where
  port : Int64
deriving DecidableEq

def ServiceConfig.validate (c : ServiceConfig) : Except Bytes Unit :=
  if c.port ≤ 0 then .error (str "invalid port: " ++ decimalInt c.port.toInt) else .ok ()

/-- The configuration of the command, with the part of the package. -/
structure CommandConfig extends Config where
  service : ServiceConfig
deriving DecidableEq

/-- fmt.Errorf with the error at the end. -/
def wrapped {α : Type} (text : Bytes) : Except Bytes α → Except Bytes α
  | .error err => .error (text ++ err)
  | .ok a => .ok a

/-- The file that was read, or the error of it. -/
def loadConfig (unmarshal : Bytes → Except Bytes CommandConfig) (file : Except Bytes Bytes) :
    Except Bytes CommandConfig := do
  let buf ← wrapped (str "read file error: ") file
  let cfg ← wrapped (str "unmarshal yml error: ") (unmarshal buf)
  wrapped (str "validate error: ") cfg.validate
  wrapped (str "service validate error: ") cfg.service.validate
  pure cfg

/-- What is logged, with the error that it is logged with. -/
inductive LogLine where
  | nameEmpty
  | loadConfigError (err : Bytes)
  | setupFailed (err : Bytes)
  | httpStarted (port : Int64)
  | httpFailed (err : Bytes)
  | httpStopped
  | rpcStarted
  | rpcFailed (err : Bytes)
  | rpcStopped
  | shutdownFailed (err : Bytes)
deriving DecidableEq

def LogLine.message : LogLine → Bytes
  | .nameEmpty => str "service name is empty"
  | .loadConfigError _ => str "load config error"
  | .setupFailed _ => str "failed to setup service"
  | .httpStarted port => str "http server started at " ++ decimalInt port.toInt
  | .httpFailed _ => str "failed to run http server"
  | .httpStopped => str "http server stopped"
  | .rpcStarted => str "rpc server started"
  | .rpcFailed _ => str "failed to run service"
  | .rpcStopped => str "rpc server stopped"
  | .shutdownFailed _ => str "failed to shutdown http server"

/-- Where Run is, from the start of the http server on. -/
inductive MainThread (α : Type) where
  | launched
  | serving
  | stopped
  | draining
  | posting (rest : List α)
  | returned

/-- Where the function around ListenAndServe is. -/
inductive ServerThread where
  | launched
  | announced
  | listening
  | failing (err : Bytes)
  | ending
  | returned

/-- A connection waits for a request, or its request is served by a thread. -/
inductive Connection where
  | idle
  | active (thread : Nat)
  | closed
deriving DecidableEq

structure Service (α : Type) where
  main : MainThread α
  server : ServerThread
  shutdown : Bool
  connections : List Connection
  system : System
  performed : List α
  log : List LogLine

namespace Service
variable {α : Type}

def init : Service α :=
  { main := .launched, server := .launched, shutdown := false, connections := [], system := .init
    performed := [], log := [] }

/-- The rest of Run; the rpc server comes to its end by itself. Shutdown waits for the
connections until its deadline. -/
inductive MainStep (actions : List α) : Service α → Service α → Prop where
  | serves {s : Service α} (here : s.main = .launched) :
      MainStep actions s { s with main := .serving, log := s.log ++ [.rpcStarted] }
  | fails {s : Service α} (err : Bytes) (here : s.main = .serving) :
      MainStep actions s { s with main := .posting actions, log := s.log ++ [.rpcFailed err] }
  | stops {s : Service α} (here : s.main = .serving) :
      MainStep actions s { s with main := .stopped, log := s.log ++ [.rpcStopped] }
  | shutsDown {s : Service α} (here : s.main = .stopped) :
      MainStep actions s { s with main := .draining, shutdown := true }
  | drained {s : Service α} (here : s.main = .draining) (quiet : ∀ c ∈ s.connections, c = .closed) :
      MainStep actions s { s with main := .posting actions }
  | timesOut {s : Service α} (here : s.main = .draining) :
      MainStep actions s
        { s with
          main := .posting actions
          log := s.log ++ [.shutdownFailed (str "context deadline exceeded")] }
  | posts {s : Service α} {action : α} {rest : List α} (here : s.main = .posting (action :: rest)) :
      MainStep actions s { s with main := .posting rest, performed := s.performed ++ [action] }
  | ends {s : Service α} (here : s.main = .posting []) :
      MainStep actions s { s with main := .returned }

/-- The thread of the http server. It does not listen once it has been shut down. -/
inductive ServerStep (cfg : ServiceConfig) : Service α → Service α → Prop where
  | announces {s : Service α} (here : s.server = .launched) :
      ServerStep cfg s { s with server := .announced, log := s.log ++ [.httpStarted cfg.port] }
  | listens {s : Service α} (here : s.server = .announced) (running : s.shutdown = false) :
      ServerStep cfg s { s with server := .listening }
  | fails {s : Service α} (err : Bytes)
      (here : s.server = .announced ∨ s.server = .listening ∧ s.shutdown = false) :
      ServerStep cfg s { s with server := .failing err }
  | closes {s : Service α} (here : s.server = .announced ∨ s.server = .listening)
      (closed : s.shutdown = true) :
      ServerStep cfg s { s with server := .failing (str "http: Server closed") }
  | reports {s : Service α} {err : Bytes} (here : s.server = .failing err) :
      ServerStep cfg s { s with server := .ending, log := s.log ++ [.httpFailed err] }
  | ends {s : Service α} (here : s.server = .ending) :
      ServerStep cfg s { s with server := .returned, log := s.log ++ [.httpStopped] }

/-- The threads that serve the connections: one request after the other. -/
inductive ConnectionStep (h : Handler) : Service α → Option Note → Service α → Prop where
  | accepts {s : Service α} (listening : s.server = .listening) (running : s.shutdown = false) :
      ConnectionStep h s none { s with connections := s.connections ++ [.idle] }
  | requests {s : Service α} {i : Nat} (b : Browser) (r : Incoming) (keep : Bytes × Bytes → Bool)
      (here : s.connections[i]? = some .idle) :
      ConnectionStep h s (s.system.note h (.request b r keep))
        { s with
          connections := s.connections.set i (.active s.system.threads.length)
          system := s.system.step h true (.request b r keep) }
  | advances {s : Service α} (j : Nat) (reply : (op : Op) → world.Reply op) :
      ConnectionStep h s (s.system.note h (.advance j reply))
        { s with system := s.system.step h true (.advance j reply) }
  | delivers {s : Service α} (j : Nat) (keep : Cookie → Bool) :
      ConnectionStep h s (s.system.note h (.deliver j keep))
        { s with system := s.system.step h true (.deliver j keep) }
  | answers {s : Service α} {i j : Nat} {thread : Thread}
      (here : s.connections[i]? = some (.active j)) (found : s.system.threads[j]? = some thread)
      (finished : thread.Finished) :
      ConnectionStep h s none { s with connections := s.connections.set i .idle }
  | closes {s : Service α} {i : Nat} (here : s.connections[i]? = some .idle) :
      ConnectionStep h s none { s with connections := s.connections.set i .closed }

/-- The other threads are gone when the main thread has returned. -/
inductive Step (cfg : ServiceConfig) (h : Handler) (actions : List α) :
    Service α → Option Note → Service α → Prop where
  | main {s s' : Service α} (step : MainStep actions s s') : Step cfg h actions s none s'
  | server {s s' : Service α} (alive : s.main ≠ .returned) (step : ServerStep cfg s s') :
      Step cfg h actions s none s'
  | connection {s s' : Service α} {note : Option Note} (alive : s.main ≠ .returned)
      (step : ConnectionStep h s note s') : Step cfg h actions s note s'

def machine (cfg : ServiceConfig) (h : Handler) (actions : List α) : Machine (Service α) Note where
  init := .init
  Step := Step cfg h actions

/-! Every step is one of the threads that serve the requests, or is not seen. -/

theorem connection_refines {h : Handler} {s s' : Service α} {note : Option Note}
    (step : ConnectionStep h s note s') :
    note = none ∧ s'.system = s.system ∨ (System.machine h true).Step s.system note s'.system := by
  cases step with
  | accepts | answers | closes => exact .inl ⟨rfl, rfl⟩
  | requests b r keep here => exact .inr ⟨.request b r keep, rfl, rfl⟩
  | advances j reply => exact .inr ⟨.advance j reply, rfl, rfl⟩
  | delivers j keep => exact .inr ⟨.deliver j keep, rfl, rfl⟩

theorem main_system {actions : List α} {s s' : Service α} (step : MainStep actions s s') :
    s'.system = s.system := by
  cases step <;> rfl

theorem server_system {cfg : ServiceConfig} {s s' : Service α} (step : ServerStep cfg s s') :
    s'.system = s.system := by
  cases step <;> rfl

/-- A running service refines its threads. -/
theorem machine_refines_system (cfg : ServiceConfig) (h : Handler) (actions : List α) :
    (machine cfg h actions).Refines (System.machine h true) fun s t => s.system = t where
  init := rfl
  step := by
    rintro s _ note s' rfl step
    cases step with
    | main step => exact .inl ⟨rfl, main_system step⟩
    | server alive step => exact .inl ⟨rfl, server_system step⟩
    | connection alive step =>
        cases connection_refines step with
        | inl quiet => exact .inl quiet
        | inr moved => exact .inr ⟨_, moved, rfl⟩

/-! Who serves whom. -/

/-- A thread that has not finished has its connection. -/
def Carried (connections : List Connection) (threads : List Thread) : Prop :=
  ∀ j thread, threads[j]? = some thread → thread.Finished ∨ .active j ∈ connections

/-- Another element of the list stays when one is replaced. -/
theorem mem_set_other {β : Type} {l : List β} {i : Nat} {x y : β} (z : β) (member : x ∈ l)
    (here : l[i]? = some y) (other : x ≠ y) : x ∈ l.set i z := by
  obtain ⟨k, found⟩ := List.mem_iff_getElem?.mp member
  have apart : i ≠ k := by
    rintro rfl
    exact other (Option.some_inj.mp (found.symm.trans here))
  exact List.mem_of_getElem? ((List.getElem?_set_ne apart).trans found)

/-- A connection that serves no unfinished thread may change. -/
theorem Carried.set {connections : List Connection} {threads : List Thread} {i : Nat}
    {c : Connection} (carried : Carried connections threads) (here : connections[i]? = some c)
    (spare : ∀ j thread, threads[j]? = some thread → c = .active j → thread.Finished)
    (c' : Connection) : Carried (connections.set i c') threads := by
  intro j thread found
  cases carried j thread found with
  | inl finished => exact .inl finished
  | inr member =>
      by_cases same : c = .active j
      · exact .inl (spare j thread found same)
      · exact .inr (mem_set_other c' member here (Ne.symm same))

/-- The thread of a new request. -/
theorem Carried.request {h : Handler} {connections : List Connection} {t : System} {i : Nat}
    (carried : Carried connections t.threads) (here : connections[i]? = some .idle) (b : Browser)
    (r : Incoming) (keep : Bytes × Bytes → Bool) :
    Carried (connections.set i (.active t.threads.length))
      (t.step h true (.request b r keep)).threads := by
  have kept := carried.set here (fun _ _ _ same => by cases same) (.active t.threads.length)
  intro j thread found
  simp only [System.step] at found
  by_cases old : j < t.threads.length
  · rw [List.getElem?_append_left old] at found
    exact kept j thread found
  · have last : j = t.threads.length := by
      have lt := (List.getElem?_eq_some_iff.mp found).1
      rw [List.length_append, List.length_singleton] at lt
      omega
    subst last
    obtain ⟨lt, -⟩ := List.getElem?_eq_some_iff.mp here
    exact .inr (List.mem_set lt _)

theorem length_action (h : Handler) (t : System) {action : Action}
    (old : ∀ b r keep, action ≠ .request b r keep) :
    (t.step h true action).threads.length = t.threads.length := by
  cases action with
  | request b r keep => exact absurd rfl (old b r keep)
  | advance i reply =>
      simp only [System.step]
      cases t.threads[i]? with
      | none => rfl
      | some thread => exact List.length_set
  | deliver i keep =>
      simp only [System.step]
      cases t.threads[i]? <;> rfl

/-- Any other action of the threads. -/
theorem Carried.action {h : Handler} {connections : List Connection} {t : System} {action : Action}
    (carried : Carried connections t.threads) (old : ∀ b r keep, action ≠ .request b r keep) :
    Carried connections (t.step h true action).threads := by
  have count := length_action h t old
  intro j thread' found
  cases before : t.threads[j]? with
  | none =>
      rw [List.getElem?_eq_none_iff, ← count, ← List.getElem?_eq_none_iff, found] at before
      cases before
  | some thread =>
      cases carried j thread before with
      | inr member => exact .inr member
      | inl finished =>
          refine .inl ?_
          obtain ⟨reply, rfl, moved⟩ | ⟨-, stays⟩ := step_thread (h := h) true before action
          · rw [moved] at found
            rw [← Option.some_inj.mp found]
            exact (later_advance h reply thread).1.kept finished
          · rw [stays] at found
            rw [← Option.some_inj.mp found]
            exact finished

theorem connection_carried {h : Handler} {s s' : Service α} {note : Option Note}
    (carried : Carried s.connections s.system.threads) (step : ConnectionStep h s note s') :
    Carried s'.connections s'.system.threads := by
  cases step with
  | accepts listening running =>
      intro j thread found
      exact (carried j thread found).imp_right fun member => List.mem_append_left _ member
  | requests b r keep here => exact carried.request here b r keep
  | advances j reply => exact carried.action fun _ _ _ => by simp
  | delivers j keep => exact carried.action fun _ _ _ => by simp
  | answers here found finished =>
      refine carried.set here ?_ .idle
      intro j' thread' found' same
      cases same
      rw [Option.some_inj.mp (found'.symm.trans found)]
      exact finished
  | closes here => exact carried.set here (fun _ _ _ same => by cases same) .closed

/-- A connection serves a thread that there is. -/
def Serves (connections : List Connection) (threads : List Thread) : Prop :=
  ∀ j, .active j ∈ connections → j < threads.length

theorem connection_serves {h : Handler} {s s' : Service α} {note : Option Note}
    (serves : Serves s.connections s.system.threads) (step : ConnectionStep h s note s') :
    Serves s'.connections s'.system.threads := by
  intro j member
  cases step with
  | accepts listening running =>
      cases List.mem_append.mp member with
      | inl before => exact serves j before
      | inr now => cases List.mem_singleton.mp now
  | requests b r keep here =>
      simp only [System.step, List.length_append, List.length_singleton]
      cases List.mem_or_eq_of_mem_set member with
      | inl before => exact Nat.lt_succ_of_lt (serves j before)
      | inr now =>
          cases now
          exact Nat.lt_succ_self _
  | advances i reply =>
      rw [length_action h s.system fun _ _ _ => by simp]
      exact serves j member
  | delivers i keep =>
      rw [length_action h s.system fun _ _ _ => by simp]
      exact serves j member
  | answers here found finished | closes here =>
      cases List.mem_or_eq_of_mem_set member with
      | inl before => exact serves j before
      | inr now => cases now

/-! What a stop waits for. -/

/-- Shut down, and without a connection that is still open. -/
def Quiet (s : Service α) : Prop := s.shutdown = true ∧ ∀ c ∈ s.connections, c = .closed

/-- The log tells of a stop that was not cut short. -/
def Stopped (s : Service α) : Prop := .rpcStopped ∈ s.log ∧ ∀ err, .shutdownFailed err ∉ s.log

/-- What was done so far and what the log says of it, wherever the main thread is. -/
def Consistent (actions : List α) (s : Service α) : Prop :=
  match s.main with
  | .launched | .serving =>
    s.performed = [] ∧ .rpcStopped ∉ s.log ∧ ∀ err, .shutdownFailed err ∉ s.log
  | .stopped => s.performed = [] ∧ s.Stopped
  | .draining => s.performed = [] ∧ s.shutdown = true ∧ s.Stopped
  | .posting rest => s.performed ++ rest = actions ∧ (s.Stopped → s.Quiet)
  | .returned => s.performed = actions ∧ (s.Stopped → s.Quiet)

theorem main_consistent {actions : List α} {s s' : Service α} (consistent : s.Consistent actions)
    (step : MainStep actions s s') : s'.Consistent actions := by
  unfold Consistent at consistent ⊢
  cases step with
  | serves here =>
      rw [here] at consistent
      simpa using consistent
  | fails err here =>
      rw [here] at consistent
      obtain ⟨none, running, -⟩ := consistent
      refine ⟨by simp [none], fun stopped => ?_⟩
      simpa [running] using stopped.1
  | stops here =>
      rw [here] at consistent
      obtain ⟨none, -, intime⟩ := consistent
      refine ⟨none, List.mem_append_right _ (List.mem_singleton_self _), fun err => ?_⟩
      simpa using intime err
  | shutsDown here =>
      rw [here] at consistent
      exact ⟨consistent.1, rfl, consistent.2⟩
  | drained here quiet =>
      rw [here] at consistent
      obtain ⟨none, shut, -⟩ := consistent
      exact ⟨by simp [none], fun _ => ⟨shut, quiet⟩⟩
  | timesOut here =>
      rw [here] at consistent
      refine ⟨by simp [consistent.1], fun stopped => ?_⟩
      exact absurd (List.mem_append_right _ (List.mem_singleton_self _)) (stopped.2 _)
  | posts here =>
      rw [here] at consistent
      refine ⟨?_, consistent.2⟩
      rw [List.append_assoc]
      exact consistent.1
  | ends here =>
      rw [here] at consistent
      obtain ⟨done, quiet⟩ := consistent
      rw [List.append_nil] at done
      exact ⟨done, quiet⟩

/-- What the other threads leave of the main thread's books. -/
structure Beside (s s' : Service α) : Prop where
  main : s'.main = s.main
  performed : s'.performed = s.performed
  shutdown : s'.shutdown = s.shutdown
  stopped : .rpcStopped ∈ s'.log ↔ .rpcStopped ∈ s.log
  failed : ∀ err, .shutdownFailed err ∈ s'.log ↔ .shutdownFailed err ∈ s.log
  quiet : s.Quiet → s'.Quiet

theorem Beside.consistent {actions : List α} {s s' : Service α} (beside : s.Beside s')
    (consistent : s.Consistent actions) : s'.Consistent actions := by
  have same : s'.Stopped ↔ s.Stopped := by
    simp only [Stopped, beside.stopped, beside.failed]
  unfold Consistent at consistent ⊢
  rw [beside.main, beside.performed, beside.shutdown, same]
  simp only [beside.stopped, beside.failed]
  cases at' : s.main with
  | launched | serving | stopped | draining =>
      rw [at'] at consistent
      exact consistent
  | posting rest | returned =>
      rw [at'] at consistent
      exact ⟨consistent.1, fun stopped => beside.quiet (consistent.2 stopped)⟩

theorem server_beside {cfg : ServiceConfig} {s s' : Service α} (step : ServerStep cfg s s') :
    s.Beside s' := by
  cases step with
  | announces | listens | fails | closes | reports | ends =>
      exact ⟨rfl, rfl, rfl, by simp, by simp, id⟩

theorem connection_beside {h : Handler} {s s' : Service α} {note : Option Note}
    (step : ConnectionStep h s note s') : s.Beside s' := by
  have busy : ∀ {i : Nat} {c : Connection}, s.connections[i]? = some c → c ≠ .closed →
      ¬s.Quiet := by
    intro i c here isOpen quiet
    exact isOpen (quiet.2 c (List.mem_of_getElem? here))
  cases step with
  | accepts listening running =>
      refine ⟨rfl, rfl, rfl, .rfl, fun _ => .rfl, fun quiet => ?_⟩
      exact absurd quiet.1 (by simp [running])
  | requests b r keep here | answers here found finished | closes here =>
      exact ⟨rfl, rfl, rfl, .rfl, fun _ => .rfl, fun quiet => absurd quiet (busy here (by simp))⟩
  | advances | delivers => exact ⟨rfl, rfl, rfl, .rfl, fun _ => .rfl, id⟩

/-- What holds in every run of a service. -/
structure Keeps (h : Handler) (actions : List α) (s : Service α) : Prop where
  sound : s.system.Sound h true
  carried : Carried s.connections s.system.threads
  serves : Serves s.connections s.system.threads
  consistent : s.Consistent actions

theorem keeps_run {cfg : ServiceConfig} {h : Handler} {actions : List α} {notes : List Note}
    {s : Service α} (run : (machine cfg h actions).Run notes s) : s.Keeps h actions := by
  have start : (init : Service α).Keeps h actions := by
    refine ⟨init_sound h true, fun j thread found => ?_, fun j member => ?_, ?_⟩
    · cases found
    · cases member
    · simp [Consistent, init]
  refine run.invariant (P := fun _ s => Keeps h actions s) start ?_
  intro _ s _ s' keeps step
  obtain ⟨sound, carried, serves, consistent⟩ := keeps
  cases step with
  | main step =>
      refine ⟨main_system step ▸ sound, ?_, ?_, main_consistent consistent step⟩
      · cases step <;> exact carried
      · cases step <;> exact serves
  | server alive step =>
      refine ⟨server_system step ▸ sound, ?_, ?_, (server_beside step).consistent consistent⟩
      · cases step <;> exact carried
      · cases step <;> exact serves
  | connection alive step =>
      refine ⟨?_, connection_carried carried step, connection_serves serves step,
        (connection_beside step).consistent consistent⟩
      cases connection_refines step with
      | inl quiet => exact quiet.2 ▸ sound
      | inr moved =>
          obtain ⟨action, -, moved⟩ := moved
          exact moved ▸ step_sound sound action

/-- The server has told of itself, or nobody was served. -/
def Announced (cfg : ServiceConfig) (notes : List Note) (s : Service α) : Prop :=
  .httpStarted cfg.port ∈ s.log ∨
    notes = [] ∧ s.server = .launched ∧ s.connections = [] ∧ s.system.threads = []

theorem connection_announced {cfg : ServiceConfig} {h : Handler} {s s' : Service α}
    {notes : List Note} {note : Option Note} (announced : s.Announced cfg notes)
    (step : ConnectionStep h s note s') : s'.Announced cfg (notes ++ note.toList) := by
  have told : s'.log = s.log := by cases step <;> rfl
  cases announced with
  | inl said => exact .inl (told ▸ said)
  | inr unserved =>
      obtain ⟨rfl, launched, unconnected, unthreaded⟩ := unserved
      cases step with
      | accepts listening running =>
          rw [launched] at listening
          cases listening
      | requests b r keep here | answers here found finished | closes here =>
          rw [unconnected] at here
          cases here
      | advances j reply | delivers j keep =>
          refine .inr ⟨?_, launched, unconnected, ?_⟩ <;>
            simp [System.note, System.step, unthreaded]

theorem announced_run {cfg : ServiceConfig} {h : Handler} {actions : List α} {notes : List Note}
    {s : Service α} (run : (machine cfg h actions).Run notes s) : s.Announced cfg notes := by
  refine run.invariant (P := fun notes s => Announced cfg notes s) (.inr ⟨rfl, rfl, rfl, rfl⟩) ?_
  intro notes s note s' announced step
  cases step with
  | main step =>
      rw [Option.toList_none, List.append_nil]
      cases step with
      | shutsDown here | drained here quiet | posts here | ends here => exact announced
      | serves here | fails err here | stops here | timesOut here =>
          exact announced.imp_left fun said => List.mem_append_left _ said
  | server alive step =>
      rw [Option.toList_none, List.append_nil]
      cases step with
      | announces here => exact .inl (List.mem_append_right _ (List.mem_singleton_self _))
      | listens here running | fails err here | closes here closed =>
          refine announced.imp_right fun unserved => ?_
          simp [unserved.2.1] at here
      | reports here | ends here =>
          refine .inl (List.mem_append_left _ ?_)
          refine announced.resolve_right fun unserved => ?_
          simp [unserved.2.1] at here
  | connection alive step => exact connection_announced announced step

end Service
end FileSharing
