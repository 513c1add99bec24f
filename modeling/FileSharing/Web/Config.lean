import FileSharing.Web.Exchange

/-!
The command `web`: the configurations it accepts and the session it starts with
them. The lifetime of a session is computed in 64-bit nanoseconds.
-/

namespace FileSharing
open Net Effects

/-- The configuration of the service; an int has 64 bits. -/
structure Config where
  gatewayHost : Bytes
  sessionExpirePeriodInSec : Int64
deriving DecidableEq

def Config.validate (c : Config) : Except Bytes Unit :=
  if c.gatewayHost = [] then .error (str "gateway_host is required")
  else if c.sessionExpirePeriodInSec ≤ 0 then .error (str "invalid session_expire_period")
  else .ok ()

/-- A configuration that the service starts with. -/
structure ValidConfig extends Config where
  valid : toConfig.validate = .ok ()

def newCookieSession (period : Int64) : CookieSession := { expirePeriod := period }

/-- The handler that main makes routes for. -/
def Config.handler (c : Config) (lib : Stdlib) : Handler :=
  { gwh := c.gatewayHost, session := newCookieSession c.sessionExpirePeriodInSec, lib }

/-- Every cookie expires so many seconds after the moment it was set. -/
def CookieSession.LastsExactly (cs : CookieSession) (seconds : Int) : Prop :=
  ∀ token name, (cs.setToken token name).Ensures fun t _ =>
    ∀ now c, clock now ∈ t → told (.addCookie c) ∈ t →
      c.expires = now + seconds * 1000000000 ∧ now < c.expires

theorem ValidConfig.period_pos (c : ValidConfig) : 0 < c.sessionExpirePeriodInSec.toInt := by
  have valid := c.valid
  rw [Config.validate] at valid
  split at valid
  · cases valid
  · split at valid
    · cases valid
    · rename_i positive
      exact Int64.lt_iff_toInt_lt.mp (Int64.not_le.mp positive)

namespace CookieSession
variable (cs : CookieSession)

/-- The product is exact up to the longest period whose nanoseconds fit into 64
bits. -/
theorem period_exact (positive : 0 < cs.expirePeriod.toInt) :
    cs.period.toInt = cs.expirePeriod.toInt * 1000000000 ↔ cs.expirePeriod.toInt ≤ 9223372036 := by
  have bound := cs.expirePeriod.toInt_lt
  have nanoseconds : (1000000000 : Int64).toInt = 1000000000 := rfl
  rw [period, Int64.toInt_mul, nanoseconds, Int.bmod]
  omega

/-- All that the cookies show of the session is its period. -/
theorem lastsExactly_iff (seconds : Int) :
    cs.LastsExactly seconds ↔ cs.period.toInt = seconds * 1000000000 ∧ 0 < seconds := by
  simp only [LastsExactly, ensures_setToken]
  constructor
  · intro lasts
    have set : told (.addCookie (cs.cookie [] (str "a") 0)) ∈ cs.tokenEvents [] (str "a") 0 :=
      List.mem_cons_of_mem _ (List.mem_singleton.mpr rfl)
    obtain ⟨exact, later⟩ := lasts [] (str "a") 0 0 _ List.mem_cons_self set
    simp only [cookie] at exact later
    omega
  · intro exact token name now now' c read set
    have sent : c = cs.cookie token name now := by
      rcases List.mem_cons.mp set with same | same
      · cases same
      · split at same
        · cases List.mem_singleton.mp same
          rfl
        · cases same
    have moment : now' = now := by
      rcases List.mem_cons.mp read with same | same
      · cases same
        rfl
      · split at same
        · cases List.mem_singleton.mp same
        · cases same
    rw [sent, moment, cookie]
    simp only
    omega

end CookieSession

/-- Exactly the configurations whose sessions last as long as they say. -/
theorem lifetime_exact_iff (c : ValidConfig) (lib : Stdlib) :
    (c.handler lib).session.LastsExactly c.sessionExpirePeriodInSec.toInt ↔
      c.sessionExpirePeriodInSec.toInt ≤ 9223372036 := by
  rw [CookieSession.lastsExactly_iff, and_iff_left c.period_pos]
  exact CookieSession.period_exact (c.handler lib).session c.period_pos

/-- The shortest period that is too long: its sessions have ended before they
begin. -/
theorem lifetime_wraps :
    ¬∀ (c : ValidConfig) (lib : Stdlib),
      (c.handler lib).session.LastsExactly c.sessionExpirePeriodInSec.toInt := by
  intro exact
  have lasts := exact ⟨⟨str "http://gateway", 9223372037⟩, by decide⟩ .plain
  rw [CookieSession.lastsExactly_iff] at lasts
  exact absurd lasts.1 (by decide)

end FileSharing
