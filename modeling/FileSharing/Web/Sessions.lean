import FileSharing.Effects.Machine
import FileSharing.Net.CookieStore
import FileSharing.Web.Exchange
import FileSharing.Web.System

/-!
CookieSession as a store of tokens: a browser with a clock keeps them under the names
of the storages, and GetToken finds the one that was set last, for as long as it lasts.
-/

namespace FileSharing
open Net Effects

/-- Remove sends a cookie that has expired. -/
def CookieSession.remove (name : Bytes) : Act Unit :=
  httpSetCookie ⟨name, [], str "/", 0, true⟩

/-- A call of the session, with the moment SetToken read from its clock and the
answer of GetToken. -/
inductive SessionCall where
  | setToken (token name : Bytes) (moment : Int)
  | remove (name : Bytes)
  | getToken (name : Bytes) (answer : Option Bytes)

structure Client where
  store : CookieStore
  time : Int

/-- The browser gets the cookies of a response. -/
def Client.receive (c : Client) (t : Trace) : Client :=
  { c with store := (t.filterMap cookieOf).foldl (fun store c' => store.receive c.time c') c.store }

inductive Client.Step (cs : CookieSession) : Client → Option SessionCall → Client → Prop where
  | passes {c : Client} {now : Int} (later : c.time ≤ now) :
      Step cs c none { c with time := now }
  | setToken {c : Client} {token name : Bytes} {moment : Int} {t : Trace}
      (run : (cs.setToken token name).Runs t ()) (reads : clock moment ∈ t) :
      Step cs c (some (.setToken token name moment)) (c.receive t)
  | remove {c : Client} {name : Bytes} {t : Trace} (run : (CookieSession.remove name).Runs t ()) :
      Step cs c (some (.remove name)) (c.receive t)
  | getToken {c : Client} {name : Bytes} {r : Request}
      (carries : r.cookies = c.store.carried c.time) :
      Step cs c (some (.getToken name (CookieSession.getToken name r))) c

/-- A browser without cookies, at so many nanoseconds after the first one of 1970. -/
def sessionMachine (cs : CookieSession) (epoch : Nat) : Machine Client SessionCall where
  init := ⟨.empty, epoch + 1⟩
  Step := Client.Step cs

/-- The call that decides what is known of a name: the token that was set last and
its moment. -/
def lastToken (name : Bytes) (calls : List SessionCall) : Option (Bytes × Int) :=
  calls.foldl
    (fun last call =>
      match call with
      | .setToken token n moment => if n = name then some (token, moment) else last
      | .remove n => if n = name then none else last
      | .getToken _ _ => last)
    none

/-- What a session is for: the token that was set last, until its period is over. A
name that no cookie can have is not kept. -/
def CookieSession.current (cs : CookieSession) (name : Bytes) (calls : List SessionCall)
    (now : Int) : Option Bytes :=
  if isToken name then
    (lastToken name calls).bind fun last =>
      if expired now (wireExpires (last.2 + cs.period.toInt)) then none
      else some (sanitizeCookieValue last.1)
  else none

theorem lastToken_append (name : Bytes) (calls : List SessionCall) (call : SessionCall) :
    lastToken name (calls ++ [call]) =
      match call with
      | .setToken token n moment => if n = name then some (token, moment) else lastToken name calls
      | .remove n => if n = name then none else lastToken name calls
      | .getToken _ _ => lastToken name calls := by
  rw [lastToken, List.foldl_append]
  rfl

/-- What the browser holds for every name is what the calls left of it. -/
structure Keeps (cs : CookieSession) (calls : List SessionCall) (c : Client) : Prop where
  late : 0 < c.time
  current : ∀ name now, c.time ≤ now → c.store.value? now name = cs.current name calls now

/-- Time only makes cookies expire. -/
theorem expired_later {now later : Int} {expires : Option Int} (le : now ≤ later)
    (past : expired now expires = true) : expired later expires = true := by
  cases expires with
  | none => cases past
  | some e =>
      simp only [expired, decide_eq_true_eq] at past ⊢
      omega

/-- What a request carries once a cookie has been received. -/
theorem value_receive (store : CookieStore) (time : Int) (c : Cookie) (name : Bytes) {now : Int}
    (le : time ≤ now) :
    (store.receive time c).value? now name =
      if name = c.name then
        if expired now (wireExpires c.expires) then none else some c.value
      else store.value? now name := by
  rw [CookieStore.value_lookup, CookieStore.lookup_receive]
  split
  · split
    · rename_i past
      rw [if_pos (expired_later le past)]
      rfl
    · rfl
  · rw [CookieStore.value_lookup]

theorem setToken_cookies {cs : CookieSession} {token name : Bytes} {moment : Int} {t : Trace}
    (run : (cs.setToken token name).Runs t ()) (reads : clock moment ∈ t) :
    t.filterMap cookieOf = if isToken name then [cs.cookie token name moment] else [] := by
  have events : ∃ now, t = cs.tokenEvents token name now :=
    (Program.ensures_iff_runs _ fun t _ => ∃ now, t = cs.tokenEvents token name now).mp
      ((ensures_setToken _ cs token name).mpr fun now => ⟨now, rfl⟩) t () run
  obtain ⟨now, rfl⟩ := events
  have same : moment = now := by
    cases List.mem_cons.mp reads with
    | inl here =>
        cases here
        rfl
    | inr later =>
        split at later
        · cases List.mem_singleton.mp later
        · cases later
  rw [same, CookieSession.tokenEvents]
  split <;> rfl

theorem remove_cookies {name : Bytes} {t : Trace} (run : (CookieSession.remove name).Runs t ()) :
    t.filterMap cookieOf = if isToken name then [⟨name, [], str "/", 0, true⟩] else [] := by
  rw [CookieSession.remove, httpSetCookie] at run
  by_cases legal : isToken name = true
  · rw [if_pos legal] at run ⊢
    cases run with
    | call rest =>
        cases rest with
        | pure => rfl
  · rw [if_neg legal] at run ⊢
    cases run with
    | pure => rfl

/-- A call for another name decides nothing, and none does for a name that no cookie can
have. -/
theorem current_append (cs : CookieSession) {name n : Bytes} (other : name ≠ n ∨ isToken n = false)
    (calls : List SessionCall) {call : SessionCall}
    (about : (∃ token moment, call = .setToken token n moment) ∨ call = .remove n) (now : Int) :
    cs.current name (calls ++ [call]) now = cs.current name calls now := by
  by_cases legal : isToken name = true
  · have apart : n ≠ name := by
      rintro rfl
      exact other.elim (fun h => h rfl) fun h => Bool.false_ne_true (h.symm.trans legal)
    rw [CookieSession.current, CookieSession.current, lastToken_append]
    rcases about with ⟨token, moment, rfl⟩ | rfl
    · simp only [if_neg apart]
    · simp only [if_neg apart]
  · rw [CookieSession.current, CookieSession.current, if_neg legal, if_neg legal]

/-- A call that sends one cookie, for its own name, keeps what is known of the others. -/
theorem Keeps.receive {cs : CookieSession} {calls : List SessionCall} {c : Client}
    (keeps : Keeps cs calls c) {name : Bytes} {call : SessionCall}
    (about : (∃ token moment, call = .setToken token name moment) ∨ call = .remove name) {t : Trace}
    {cookie : Cookie} (named : cookie.name = name)
    (sent : t.filterMap cookieOf = if isToken name then [cookie] else [])
    (decides : isToken name = true → ∀ now, c.time ≤ now →
      (if expired now (wireExpires cookie.expires) then none else some cookie.value) =
        cs.current name (calls ++ [call]) now) :
    Keeps cs (calls ++ [call]) (c.receive t) := by
  refine ⟨keeps.late, ?_⟩
  intro other now le
  have le : c.time ≤ now := le
  have before := keeps.current other now le
  rw [Client.receive, sent]
  by_cases legal : isToken name = true
  · rw [if_pos legal]
    simp only [List.foldl_cons, List.foldl_nil]
    rw [value_receive _ _ _ _ le, named]
    by_cases same : other = name
    · rw [if_pos same, same]
      exact decides legal now le
    · rw [if_neg same, current_append cs (.inl same) calls about, before]
  · rw [if_neg legal, current_append cs (.inr (by simpa using legal)) calls about]
    exact before

theorem Keeps.step {cs : CookieSession} {calls : List SessionCall} {c c' : Client}
    {l : Option SessionCall} (keeps : Keeps cs calls c) (next : Client.Step cs c l c') :
    Keeps cs (calls ++ l.toList) c' := by
  cases next with
  | @passes now later =>
      refine ⟨Int.lt_of_lt_of_le keeps.late later, ?_⟩
      intro name now le
      rw [Option.toList_none, List.append_nil]
      exact keeps.current name now (Int.le_trans later le)
  | @setToken token name moment t run reads =>
      refine keeps.receive (.inl ⟨token, moment, rfl⟩) rfl (setToken_cookies run reads) ?_
      intro legal now _
      rw [CookieSession.current, if_pos legal, lastToken_append]
      simp only [CookieSession.cookie, if_true]
      rfl
  | @remove name t run =>
      refine keeps.receive (.inr rfl) rfl (remove_cookies run) ?_
      intro legal now le
      have zero : wireExpires 0 = some 0 := by decide
      have past : expired now (some 0) = true := by
        simp only [expired, decide_eq_true_eq]
        exact Int.lt_of_lt_of_le keeps.late le
      rw [CookieSession.current, if_pos legal, lastToken_append]
      simp [zero, past]
  | @getToken name r carries =>
      refine ⟨keeps.late, ?_⟩
      intro other now le
      rw [keeps.current other now le, CookieSession.current, CookieSession.current,
        Option.toList_some, lastToken_append]

theorem keeps_run {cs : CookieSession} {epoch : Nat} {calls : List SessionCall} {c : Client}
    (run : (sessionMachine cs epoch).Run calls c) : Keeps cs calls c := by
  have start : (0 : Int) < epoch + 1 := by omega
  refine run.invariant ⟨start, ?_⟩ fun keeps next => keeps.step next
  intro name now le
  rw [CookieSession.current]
  split <;> rfl

/-- Whatever calls were made before and whenever, GetToken answers with the token that
was set last, until its period is over or it was removed. -/
theorem token_kept {cs : CookieSession} {epoch : Nat} {calls : List SessionCall} {c c' : Client}
    {name : Bytes} {answer : Option Bytes} (run : (sessionMachine cs epoch).Run calls c)
    (next : (sessionMachine cs epoch).Step c (some (.getToken name answer)) c') :
    answer = cs.current name calls c.time := by
  have keeps := keeps_run run
  cases next with
  | @getToken _ r carries =>
      rw [← keeps.current name c.time (Int.le_refl _), CookieSession.getToken, CookieStore.value?,
        carries]
      by_cases empty : name = []
      · rw [if_pos empty, ← CookieStore.value?, keeps.current name c.time (Int.le_refl _), empty]
        rfl
      · rw [if_neg empty]

/-- One token, asked for while it lasts. -/
theorem token_kept_once :
    some (str "t") = (CookieSession.mk 3600).current (str "a")
      [.setToken (str "t") (str "a") 7] 1 := by
  let cs := CookieSession.mk 3600
  let r : Request :=
    { method := str "GET", url := ⟨str "/a/", []⟩, cookies := [(str "a", str "t")], form := []
      multipart := .error [], ctx := [] }
  have runs : (cs.setToken (str "t") (str "a")).Ensures fun t a =>
      Program.Runs (cs.setToken (str "t") (str "a")) t a :=
    (Program.ensures_iff_runs _ _).mpr fun _ _ run => run
  have run := (ensures_setToken _ cs _ _).mp runs 7
  have stored := Machine.Run.step (m := sessionMachine cs 0) .init
    (Client.Step.setToken run List.mem_cons_self)
  exact token_kept stored (Client.Step.getToken (r := r) (by decide))

end FileSharing
