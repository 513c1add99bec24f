import FileSharing.Web.Service

/-!
The command `web` from its start to its end: a configuration that is refused serves
nothing, and one that is accepted is what every request is served with.
-/

namespace FileSharing
open Net Effects

/-- What Run is called with: a setup makes the routes of a handler and adds its post
actions, or fails. -/
structure Launch (α : Type) where
  name : Bytes
  unmarshal : Bytes → Except Bytes CommandConfig
  file : Except Bytes Bytes
  setup : CommandConfig → Except Bytes (Handler × List α)

/-- The setup of the command. -/
def web (lib : Stdlib) (unmarshal : Bytes → Except Bytes CommandConfig)
    (file : Except Bytes Bytes) : Launch Empty :=
  { name := str "web", unmarshal, file, setup := fun cfg => .ok (cfg.handler lib, []) }

inductive Process (α : Type) where
  | starting
  | configured (cfg : CommandConfig)
  | refused (line : LogLine)
  | running (cfg : CommandConfig) (h : Handler) (actions : List α) (s : Service α)

namespace Process
variable {α : Type}

inductive Step (l : Launch α) : Process α → Option Note → Process α → Prop where
  | unnamed (empty : l.name = []) : Step l .starting none (.refused .nameEmpty)
  | unconfigured {err : Bytes} (named : l.name ≠ [])
      (bad : loadConfig l.unmarshal l.file = .error err) :
      Step l .starting none (.refused (.loadConfigError err))
  | configures {cfg : CommandConfig} (named : l.name ≠ [])
      (loaded : loadConfig l.unmarshal l.file = .ok cfg) : Step l .starting none (.configured cfg)
  | unready {cfg : CommandConfig} {err : Bytes} (bad : l.setup cfg = .error err) :
      Step l (.configured cfg) none (.refused (.setupFailed err))
  | launches {cfg : CommandConfig} {h : Handler} {actions : List α}
      (ready : l.setup cfg = .ok (h, actions)) :
      Step l (.configured cfg) none (.running cfg h actions .init)
  | runs {cfg : CommandConfig} {h : Handler} {actions : List α} {s s' : Service α}
      {note : Option Note} (step : (Service.machine cfg.service h actions).Step s note s') :
      Step l (.running cfg h actions s) note (.running cfg h actions s')

def machine (l : Launch α) : Machine (Process α) Note where
  init := .starting
  Step := Step l

/-- How a process has come to where it is. -/
def Reached (l : Launch α) (notes : List Note) : Process α → Prop
  | .starting => notes = []
  | .configured cfg => notes = [] ∧ loadConfig l.unmarshal l.file = .ok cfg
  | .refused _ => notes = []
  | .running cfg h actions s =>
    loadConfig l.unmarshal l.file = .ok cfg ∧ l.setup cfg = .ok (h, actions) ∧
      (Service.machine cfg.service h actions).Run notes s

theorem reached_run {l : Launch α} {notes : List Note} {p : Process α}
    (run : (machine l).Run notes p) : p.Reached l notes := by
  have start : Reached l [] .starting := rfl
  refine run.invariant (P := fun notes p => Reached l notes p) start ?_
  intro notes p note p' reached step
  cases step with
  | unnamed empty | unconfigured named bad => exact (List.append_nil notes).trans reached
  | configures named loaded => exact ⟨(List.append_nil notes).trans reached, loaded⟩
  | unready bad => exact (List.append_nil notes).trans reached.1
  | launches ready =>
      obtain ⟨rfl, loaded⟩ := reached
      exact ⟨loaded, ready, .init⟩
  | runs step =>
      obtain ⟨loaded, ready, run⟩ := reached
      exact ⟨loaded, ready, .step run step⟩

end Process

theorem bind_ok {α β : Type} {x : Except Bytes α} {f : α → Except Bytes β} {b : β}
    (ok : x >>= f = .ok b) : ∃ a, x = .ok a ∧ f a = .ok b := by
  cases x with
  | error err => cases ok
  | ok a => exact ⟨a, rfl, ok⟩

theorem wrapped_ok {α : Type} {text : Bytes} {x : Except Bytes α} {a : α}
    (ok : wrapped text x = .ok a) : x = .ok a := by
  cases x with
  | error err => cases ok
  | ok b => exact ok

/-- A configuration that was loaded has passed both of its checks. -/
theorem loadConfig_valid {unmarshal : Bytes → Except Bytes CommandConfig}
    {file : Except Bytes Bytes} {cfg : CommandConfig} (loaded : loadConfig unmarshal file = .ok cfg) :
    (∃ buf, file = .ok buf ∧ unmarshal buf = .ok cfg) ∧ cfg.validate = .ok () ∧
      cfg.service.validate = .ok () := by
  obtain ⟨buf, read, loaded⟩ := bind_ok loaded
  obtain ⟨cfg', parsed, loaded⟩ := bind_ok loaded
  obtain ⟨_, valid, loaded⟩ := bind_ok loaded
  obtain ⟨_, valid', loaded⟩ := bind_ok loaded
  cases loaded
  exact ⟨⟨buf, wrapped_ok read, wrapped_ok parsed⟩, wrapped_ok valid, wrapped_ok valid'⟩

theorem Config.validate_ok {c : Config} (valid : c.validate = .ok ()) :
    c.gatewayHost ≠ [] ∧ 0 < c.sessionExpirePeriodInSec.toInt := by
  have positive := ValidConfig.period_pos ⟨c, valid⟩
  refine ⟨?_, positive⟩
  intro empty
  rw [validate, if_pos empty] at valid
  cases valid

theorem ServiceConfig.validate_ok {c : ServiceConfig} (valid : c.validate = .ok ()) :
    0 < c.port.toInt := by
  rw [validate] at valid
  split at valid
  · cases valid
  · rename_i positive
    exact Int64.lt_iff_toInt_lt.mp (Int64.not_le.mp positive)

/-- All that is ever seen of the command is what the desk shows for the handler of a
valid configuration, and nothing before its http server has told of itself. -/
theorem command_refines_desk {lib : Stdlib} {unmarshal : Bytes → Except Bytes CommandConfig}
    {file : Except Bytes Bytes} {notes : List Note} {p : Process Empty}
    (run : (Process.machine (web lib unmarshal file)).Run notes p) (busy : notes ≠ []) :
    ∃ cfg s, p = .running cfg (cfg.handler lib) [] s ∧
      (∃ buf, file = .ok buf ∧ unmarshal buf = .ok cfg) ∧ cfg.gatewayHost ≠ [] ∧
      0 < cfg.sessionExpirePeriodInSec.toInt ∧ 0 < cfg.service.port.toInt ∧
      .httpStarted cfg.service.port ∈ s.log ∧
      (Desk.machine (cfg.handler lib)).Run notes (s.system.desk (cfg.handler lib)) := by
  have reached := Process.reached_run run
  cases p with
  | starting | refused line => exact absurd reached busy
  | configured cfg => exact absurd reached.1 busy
  | running cfg h actions s =>
      obtain ⟨loaded, ready, run⟩ := reached
      cases ready
      obtain ⟨source, valid, port⟩ := loadConfig_valid loaded
      obtain ⟨host, period⟩ := Config.validate_ok valid
      have announced := (Service.announced_run run).resolve_right fun unserved => busy unserved.1
      obtain ⟨t, threads, rfl⟩ := (Service.machine_refines_system _ _ _).run run
      obtain ⟨d, shown, -, rfl⟩ := (machine_refines _ true).run threads
      exact ⟨cfg, s, rfl, source, host, period, ServiceConfig.validate_ok port, announced, shown⟩

/-- The first visit of a command. -/
theorem command_refines_desk_visited :
    let visit : Incoming :=
      { method := str "GET", url := ⟨str "/a/", []⟩, cookies := [], form := []
        multipart := .error [] }
    ∃ (cfg : CommandConfig) (s : Service Empty), .httpStarted cfg.service.port ∈ s.log ∧
      (Desk.machine (cfg.handler .plain)).Run [.arrived 0 visit]
        (s.system.desk (cfg.handler .plain)) := by
  intro visit
  let cfg : CommandConfig := ⟨⟨str "http://gateway", 3600⟩, ⟨8080⟩⟩
  let l := web .plain (fun _ => .ok cfg) (.ok [])
  have alive : ∀ s : Service Empty, s.main = .launched → s.main ≠ .returned := by
    intro s here
    simp [here]
  have configured := Machine.Run.step (m := Process.machine l) .init (.configures (by decide) rfl)
  have launched := configured.step (.launches rfl)
  have announced := launched.step (.runs (.server (alive _ rfl) (.announces rfl)))
  have listening := announced.step (.runs (.server (alive _ rfl) (.listens rfl rfl)))
  have accepted := listening.step (.runs (.connection (alive _ rfl) (.accepts rfl rfl)))
  have visited := accepted.step (.runs (.connection (alive _ rfl)
    (.requests (i := 0) 0 visit (fun _ => true) rfl)))
  obtain ⟨cfg', s, -, -, -, -, -, told, shown⟩ :=
    command_refines_desk visited (List.cons_ne_nil _ _)
  exact ⟨cfg', s, told, shown⟩

/-- The log says so, with or without an error. -/
def Service.Says {α : Type} (s : Service α) (message : Bytes) : Prop :=
  ∃ line ∈ s.log, line.message = message

/-- The messages with which a stop is told are not those of anything else. -/
theorem stop_messages (line : LogLine) :
    (line.message = str "rpc server stopped" ↔ line = .rpcStopped) ∧
      (line.message = str "failed to shutdown http server" ↔
        ∃ err, line = .shutdownFailed err) := by
  cases line with
  | httpStarted port =>
      have first : ∀ text : Bytes, text.head? ≠ some 0x68 →
          (LogLine.httpStarted port).message ≠ text := by
        rintro text other rfl
        exact other rfl
      simp [first (str "rpc server stopped") (by decide),
        first (str "failed to shutdown http server") (by decide)]
  | nameEmpty | loadConfigError | setupFailed | httpFailed | httpStopped | rpcStarted | rpcFailed
  | rpcStopped | shutdownFailed =>
      simp only [LogLine.message, reduceCtorEq, iff_false, exists_const, true_and, and_true,
        LogLine.shutdownFailed.injEq, exists_eq']
      decide

theorem Service.stopped_iff {α : Type} (s : Service α) :
    s.Stopped ↔ s.Says (str "rpc server stopped") ∧
      ¬s.Says (str "failed to shutdown http server") := by
  simp only [Stopped, Says, stop_messages]
  constructor
  · rintro ⟨stopped, intime⟩
    refine ⟨⟨_, stopped, rfl⟩, ?_⟩
    rintro ⟨_, member, err, rfl⟩
    exact intime err member
  · rintro ⟨⟨_, stopped, rfl⟩, intime⟩
    exact ⟨stopped, fun err member => intime ⟨_, member, err, rfl⟩⟩

end FileSharing
