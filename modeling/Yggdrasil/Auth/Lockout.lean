import Yggdrasil.Lib.Go
import Yggdrasil.Lib.Value
import Yggdrasil.Lib.Workers

/-!
# The lock after failed logins

After some wrong passwords in a row an account is locked for a while. Logins interleave statement by
statement; one whose check cannot be read goes on, and one whose failure cannot be counted is
refused all the same.
-/

namespace Yggdrasil.Auth.Login

open Text

/-! ## Configuration -/

/-- How many failures lock an account, and for how long. -/
structure Config where
  threshold : ℕ
  lockMillis : ℤ

/-- A positive number, or else the default. -/
def positiveFromEnv (v : String) (default : ℤ) : ℤ :=
  match atoi (trimSpace v) with
  | some n => if 0 < n then n else default
  | none => default

/-- The failures, ten unless a positive number is given. -/
def loginFailureThresholdFromEnv (v : String) : ℕ := (positiveFromEnv v 10).toNat

/-- The minutes, as a duration of nanoseconds in 64 bits, in milliseconds. -/
def loginLockMillisFromEnv (v : String) : ℤ :=
  (Int64.ofInt (positiveFromEnv v 5 * 60000000000)).toInt.tdiv 1000000

/-- The configuration of the environment. -/
def Config.fromEnv (failureThreshold lockMinutes : String) : Config :=
  ⟨loginFailureThresholdFromEnv failureThreshold, loginLockMillisFromEnv lockMinutes⟩

theorem positiveFromEnv_pos (v : String) {default : ℤ} (h : 0 < default) :
    0 < positiveFromEnv v default := by
  unfold positiveFromEnv
  cases atoi (trimSpace v) with
  | none => exact h
  | some n =>
    dsimp only
    split_ifs with hn
    · exact hn
    · exact h

theorem loginFailureThresholdFromEnv_pos (v : String) : 0 < loginFailureThresholdFromEnv v := by
  have hpos := positiveFromEnv_pos v (show (0 : ℤ) < 10 by decide)
  rw [loginFailureThresholdFromEnv]
  omega

/-- The lock is for some time, unless the minutes are too many for a duration. -/
theorem loginLockMillisFromEnv_pos {v : String} (h : positiveFromEnv v 5 ≤ 153722867) :
    0 < loginLockMillisFromEnv v := by
  have hpos := positiveFromEnv_pos v (show (0 : ℤ) < 5 by decide)
  generalize hn : positiveFromEnv v 5 = n at h hpos
  have hfits : (Int64.ofInt (n * 60000000000)).toInt = n * 60000000000 := by
    refine Int64.toInt_ofInt_of_le ?_ ?_ <;> norm_num <;> omega
  have hmillis : n * 60000000000 = n * 60000 * 1000000 := by omega
  rw [loginLockMillisFromEnv, hn, hfits, hmillis, Int.mul_tdiv_cancel _ (by decide)]
  omega

/-! ## Accounts -/

/-- The columns of an account that logins read and write; instants are in microseconds. -/
structure AuthIdentity where
  failedAttempts : ℕ := 0
  lockedUntil : Option ℤ := none
  passwordScheme : String := ""
  passwordHash : Option String := none
  mfaPasswordVersion : String := ""

namespace AuthIdentity

/-- The account is locked at this time. -/
def isAccountLocked (a : AuthIdentity) (now : ℤ) : Bool := a.lockedUntil.any (now < ·)

/-- A failure is counted, and locks the account at the threshold. -/
def recordLoginFailure (cfg : Config) (now : ℤ) (a : AuthIdentity) : AuthIdentity :=
  { a with
    failedAttempts := a.failedAttempts + 1
    lockedUntil := if cfg.threshold ≤ a.failedAttempts + 1 then some (now + cfg.lockMillis * 1000)
      else a.lockedUntil }

/-- The failures are forgotten. -/
def resetLoginFailures (a : AuthIdentity) : AuthIdentity :=
  { a with failedAttempts := 0, lockedUntil := none }

end AuthIdentity

/-! ## What ends a stretch of guesses -/

/-- A wrong password is compared, the count is taken back after a right one, or a lock expires. -/
inductive Event
  | wrong
  | reset
  | expired
  deriving DecidableEq

/-- The wrong passwords since the last reset, where the latest event is the first. -/
def guesses : List Event → ℕ
  | .wrong :: log => guesses log + 1
  | _ => 0

/-- No more than `T` wrong passwords are compared between two resets. -/
def Bounded (T : ℕ) (log : List Event) : Prop :=
  ∀ k, List.replicate k Event.wrong <:+: log → k ≤ T

theorem le_guesses {k : ℕ} {log : List Event} (h : List.replicate k Event.wrong <+: log) :
    k ≤ guesses log := by
  induction k generalizing log with
  | zero => exact Nat.zero_le _
  | succ k ih =>
    obtain ⟨rest, rfl⟩ := h
    rw [List.replicate_succ, List.cons_append, guesses]
    exact Nat.succ_le_succ (ih (List.prefix_append _ _))

theorem Bounded.cons {T : ℕ} {e : Event} {log : List Event} (h : Bounded T log)
    (he : guesses (e :: log) ≤ T) : Bounded T (e :: log) := by
  intro k hk
  rcases List.infix_cons_iff.1 hk with hprefix | hinfix
  · exact (le_guesses hprefix).trans he
  · exact h k hinfix

/-! ## Logins -/

/-- A login. -/
structure LoginWithPasswordRequest where
  identifier : String
  password : String

/-- The account, the time, and what has happened, the latest first. -/
structure Db where
  identity : AuthIdentity
  now : ℤ := 0
  log : List Event := []

/-- Where a login is: found, not locked, the hash read, or the password compared. -/
inductive Phase
  | idle
  | resolved (password : String)
  | unlocked (password : String)
  | loaded (scheme hash version password : String)
  | mismatched
  | matched (version : String)
  | ended (outcome : Except Fault String)

namespace Phase

/-- The login is between its check and its end. -/
def Critical : Phase → Prop
  | unlocked _ | loaded _ _ _ _ | mismatched | matched _ => True
  | idle | resolved _ | ended _ => False

instance : DecidablePred Critical := fun phase => by
  cases phase <;> first | exact isTrue trivial | exact isFalse id

/-- The login is between its check and its comparison. -/
def Armed : Phase → Prop
  | unlocked _ | loaded _ _ _ _ => True
  | _ => False

theorem Armed.critical {phase : Phase} (h : phase.Armed) : phase.Critical := by
  cases phase <;> trivial

/-- The login ends with an error. -/
def refused (e : String) : Phase := ended (.error (.errorf e []))

/-- The error that does not say what was wrong. -/
def invalidCredentials : Phase := refused "invalid credentials"

end Phase

/-- A login begins, makes its next statement, or fails at it; or time passes. -/
inductive Call
  | login (req : LoginWithPasswordRequest) (status : Except Fault (Option String))
  | next
  | fail (e : Fault)
  | tick (d : ℕ)

section Statements

variable (cm : CaseMap)

/-- The beginning of `VerifyLoginCredentialsWithMFAVersion`. -/
def beginLogin (req : LoginWithPasswordRequest) (status : Except Fault (Option String)) : Phase :=
  if trimSpace req.identifier = "" then .refused "identifier is required"
  else if trimSpace req.password = "" then .refused "password is required"
  else
    match status with
    | .error e => .ended (.error e)
    | .ok none => .invalidCredentials
    | .ok (some status) =>
      if toLower cm (trimSpace status) = "active" then .resolved req.password
      else .invalidCredentials

/-- The hash of the password is read. -/
def getPasswordCredentialRow (a : AuthIdentity) (password : String) : Phase :=
  match a.passwordHash with
  | none => .invalidCredentials
  | some hash =>
    let scheme := if a.passwordScheme = "" then "pbkdf2_sha256" else a.passwordScheme
    .loaded scheme hash a.mfaPasswordVersion password

variable (cfg : Config) (verify : String → String → String → Bool)

/-- The next statement of a login. -/
def verifyLogin (db : Db) : Phase → Option (Db × Phase)
  | .resolved password =>
    some (db, if db.identity.isAccountLocked db.now then .refused "account locked"
      else .unlocked password)
  | .unlocked password => some (db, getPasswordCredentialRow db.identity password)
  | .loaded scheme hash version password =>
    if verify scheme hash password then some (db, .matched version)
    else some ({ db with log := .wrong :: db.log }, .mismatched)
  | .mismatched =>
    let identity := db.identity.recordLoginFailure cfg db.now
    some ({ db with identity },
      if identity.isAccountLocked db.now then .refused "account locked" else .invalidCredentials)
  | .matched version =>
    some ({ db with identity := db.identity.resetLoginFailures, log := .reset :: db.log },
      .ended (.ok version))
  | .idle | .ended _ => none

/-- A statement of a login fails: what it was for is passed over where the code does so. -/
def failLogin (e : Fault) : Phase → Option Phase
  -- A lock that cannot be read is taken for none.
  | .resolved password => some (.unlocked password)
  | .unlocked _ => some (.ended (.error e))
  -- Neither the count nor its reset changes what the caller is told.
  | .mismatched => some .invalidCredentials
  | .matched version => some (.ended (.ok version))
  | .idle | .loaded _ _ _ _ | .ended _ => none

/-- Time passes, and a lock may expire. -/
def Db.tick (db : Db) (d : ℕ) : Db :=
  { db with
    now := db.now + d
    log := if db.identity.isAccountLocked db.now ∧ ¬ db.identity.isAccountLocked (db.now + d) then
      .expired :: db.log else db.log }

/-- What a login does. -/
def act {W : Type} (_ : W) (call : Call) (db : Db) (phase : Phase) : Option (Db × Phase) :=
  match call, phase with
  | .login req status, .idle | .login req status, .ended _ =>
    some (db, beginLogin cm req status)
  | .login _ _, _ => none
  | .next, phase => verifyLogin cfg verify db phase
  | .fail e, phase => (failLogin e phase).map (db, ·)
  | .tick d, phase => some (db.tick d, phase)

end Statements

/-- What an act does. -/
inductive Acts (cfg : Config) (db : Db) : Call → Phase → Db → Phase → Prop
  | ticks (d : ℕ) (phase : Phase) : Acts cfg db (.tick d) phase (db.tick d) phase
  | turns {call : Call} {phase phase' : Phase} (hphase : phase ≠ .mismatched)
      (hphase' : ¬ phase'.Critical) : Acts cfg db call phase db phase'
  | unlocks (password : String) (h : db.identity.isAccountLocked db.now = false) :
      Acts cfg db .next (.resolved password) db (.unlocked password)
  | trusts (password : String) (e : Fault) :
      Acts cfg db (.fail e) (.resolved password) db (.unlocked password)
  | loads (password scheme hash version : String) :
      Acts cfg db .next (.unlocked password) db (.loaded scheme hash version password)
  | agrees {phase : Phase} (hphase : phase.Armed) (version : String) :
      Acts cfg db .next phase db (.matched version)
  | differs {phase : Phase} (hphase : phase.Armed) :
      Acts cfg db .next phase { db with log := .wrong :: db.log } .mismatched
  | records {phase' : Phase} (hphase' : ¬ phase'.Critical) :
      Acts cfg db .next .mismatched
        { db with identity := db.identity.recordLoginFailure cfg db.now } phase'
  | forgets {phase' : Phase} (e : Fault) (hphase' : ¬ phase'.Critical) :
      Acts cfg db (.fail e) .mismatched db phase'
  | resets {phase' : Phase} (version : String) (hphase' : ¬ phase'.Critical) :
      Acts cfg db .next (.matched version)
        { db with identity := db.identity.resetLoginFailures, log := .reset :: db.log } phase'

section Acts

variable {cm : CaseMap} {cfg : Config} {verify : String → String → String → Bool} {W : Type}
  {i : W} {call : Call} {db db' : Db} {phase phase' : Phase}

theorem not_critical_beginLogin (req : LoginWithPasswordRequest)
    (status : Except Fault (Option String)) : ¬ (beginLogin cm req status).Critical := by
  unfold beginLogin
  split_ifs
  · exact id
  · exact id
  · match status with
    | .error e => exact id
    | .ok none => exact id
    | .ok (some status) =>
      dsimp only
      split_ifs <;> exact id

theorem acts_verifyLogin (h : verifyLogin cfg verify db phase = some (db', phase')) :
    Acts cfg db .next phase db' phase' := by
  cases phase with
  | idle => cases h
  | ended outcome => cases h
  | resolved password =>
    cases h
    cases hlocked : db.identity.isAccountLocked db.now with
    | true => exact .turns (by simp) id
    | false => exact .unlocks password hlocked
  | unlocked password =>
    cases h
    rw [getPasswordCredentialRow]
    cases db.identity.passwordHash with
    | none => exact .turns (by simp) id
    | some hash => exact .loads password _ hash _
  | loaded scheme hash version password =>
    have harmed : (Phase.loaded scheme hash version password).Armed := trivial
    rw [verifyLogin] at h
    split_ifs at h
    · cases h
      exact .agrees harmed version
    · cases h
      exact .differs harmed
  | mismatched =>
    cases h
    refine .records ?_
    split_ifs <;> exact id
  | matched version =>
    cases h
    exact .resets version id

theorem acts (h : act cm cfg verify i call db phase = some (db', phase')) :
    Acts cfg db call phase db' phase' := by
  cases call with
  | login req status =>
    cases phase with
    | idle =>
      cases h
      exact .turns (by simp) (not_critical_beginLogin req status)
    | ended outcome =>
      cases h
      exact .turns (by simp) (not_critical_beginLogin req status)
    | _ => cases h
  | next => exact acts_verifyLogin h
  | fail e =>
    cases phase with
    | resolved password =>
      cases h
      exact .trusts password e
    | unlocked password =>
      cases h
      exact .turns (by simp) id
    | mismatched =>
      cases h
      exact .forgets e id
    | matched version =>
      cases h
      exact .turns (by simp) id
    | _ => cases h
  | tick d =>
    cases h
    exact .ticks d _

end Acts

/-! ## Runs -/

section Run

variable {W : Type} [DecidableEq W] (cm : CaseMap) (cfg : Config)
  (verify : String → String → String → Bool)

/-- The states that logins lead through, from one in which there are none. -/
def logins (identity : AuthIdentity) (now : ℤ) (calls : ℕ → W × Call) : ℕ → World W Db Phase :=
  World.after (act cm cfg verify) calls ⟨{ identity, now }, fun _ => .idle⟩

/-- A login is checked with no other between check and end, and its failure is counted. -/
structure Careful (w : World W Db Phase) (call : W × Call) : Prop where
  alone : ∀ password, w.own call.1 = .resolved password → call.2 = .next →
    ∀ j, ¬ (w.own j).Critical
  read : ∀ password e, w.own call.1 = .resolved password → call.2 ≠ .fail e
  counted : ∀ e, w.own call.1 = .mismatched → call.2 ≠ .fail e

/-- The guesses are bounded and counted, but for that of a login that has not come to it. -/
structure Guarded (w : World W Db Phase) : Prop where
  exclusive : w.Exclusive Phase.Critical
  bounded : Bounded cfg.threshold w.shared.log
  room : ∀ i, (w.own i).Armed → guesses w.shared.log < cfg.threshold
  counted : guesses w.shared.log ≤ w.shared.identity.failedAttempts + 1
  settled : (∀ i, w.own i ≠ .mismatched) →
    guesses w.shared.log ≤ w.shared.identity.failedAttempts ∧
    (0 < guesses w.shared.log → cfg.threshold ≤ w.shared.identity.failedAttempts →
      w.shared.identity.isAccountLocked w.shared.now = true)

variable {cm cfg verify} {w : World W Db Phase} {call : W × Call}

variable (cm verify) in
/-- No login enters the critical part but by its check. -/
theorem Guarded.exclusive_step (h : Guarded cfg w) (hcall : Careful w call) :
    (World.step (act cm cfg verify) call w).Exclusive Phase.Critical := by
  refine h.exclusive.step fun db phase hact hcritical => ?_
  have hacts := acts hact
  generalize hbefore : w.own call.1 = before at hacts
  generalize hlabel : call.2 = label at hacts
  cases hacts with
  | ticks => exact .inl (hbefore ▸ hcritical)
  | turns _ hphase => exact absurd hcritical hphase
  | unlocks password => exact .inr (hcall.alone password hbefore hlabel)
  | trusts password e => exact absurd hlabel (hcall.read password e hbefore)
  | loads => exact .inl trivial
  | agrees harmed => exact .inl harmed.critical
  | differs harmed => exact .inl harmed.critical
  | records hphase => exact absurd hcritical hphase
  | forgets e hphase => exact absurd hcritical hphase
  | resets _ hphase => exact absurd hcritical hphase

/-- A login goes on, and neither the account nor what has happened changes. -/
theorem Guarded.update (h : Guarded cfg w) {i : W} {phase : Phase}
    (hexclusive : World.Exclusive Phase.Critical ⟨w.shared, Function.update w.own i phase⟩)
    (hbefore : w.own i ≠ .mismatched)
    (harmed : phase.Armed → guesses w.shared.log < cfg.threshold) :
    Guarded cfg ⟨w.shared, Function.update w.own i phase⟩ where
  exclusive := hexclusive
  bounded := h.bounded
  room := by
    rw [Function.forall_update_iff w.own fun _ phase =>
      phase.Armed → guesses w.shared.log < cfg.threshold]
    exact ⟨harmed, fun j _ => h.room j⟩
  counted := h.counted
  settled hnone := h.settled fun j hj => by
    by_cases hi : j = i
    · exact hbefore (hi ▸ hj)
    · exact hnone j ((Function.update_of_ne hi _ _).trans hj)

/-- Only one login is between its check and its end, and the others neither compare nor count. -/
theorem Guarded.room_update (h : Guarded cfg w) {i : W} (hi : (w.own i).Critical) {phase : Phase}
    (hphase : ¬ phase.Armed) (n : ℕ) :
    ∀ j, (Function.update w.own i phase j).Armed → n < cfg.threshold := by
  rw [Function.forall_update_iff w.own fun _ phase => phase.Armed → n < cfg.threshold]
  refine ⟨fun harmed => absurd harmed hphase, fun j hj harmed => ?_⟩
  exact absurd (h.exclusive j i harmed.critical hi) hj

omit [DecidableEq W] in
theorem Guarded.tick (h : Guarded cfg w) (hpos : 0 < cfg.threshold) (d : ℕ) :
    Guarded cfg ⟨w.shared.tick d, w.own⟩ := by
  by_cases hexpires : w.shared.identity.isAccountLocked w.shared.now = true ∧
      ¬ w.shared.identity.isAccountLocked (w.shared.now + d) = true
  · have hlog : (w.shared.tick d).log = .expired :: w.shared.log := if_pos hexpires
    have hguesses : guesses (w.shared.tick d).log = 0 := by rw [hlog]; rfl
    refine ⟨h.exclusive, ?_, fun _ _ => ?_, ?_, fun _ => ⟨?_, ?_⟩⟩ <;> dsimp only
    · rw [hlog]
      exact h.bounded.cons (Nat.zero_le _)
    · rwa [hguesses]
    · rw [hguesses]
      exact Nat.zero_le _
    · rw [hguesses]
      exact Nat.zero_le _
    · rw [hguesses]
      exact fun hlt => absurd hlt (lt_irrefl 0)
  · -- Nothing expires: a lock stays in force.
    have hlog : (w.shared.tick d).log = w.shared.log := if_neg hexpires
    refine ⟨h.exclusive, ?_, ?_, ?_, fun hnone => ?_⟩ <;> dsimp only <;> rw [hlog]
    · exact h.bounded
    · exact h.room
    · exact h.counted
    · obtain ⟨hcounted, hlock⟩ := h.settled hnone
      refine ⟨hcounted, fun hlt hfull => ?_⟩
      by_contra hnot
      exact hexpires ⟨hlock hlt hfull, hnot⟩

theorem Guarded.step (h : Guarded cfg w) (hcfg : 0 < cfg.lockMillis) (hpos : 0 < cfg.threshold)
    (hcall : Careful w call) : Guarded cfg (World.step (act cm cfg verify) call w) := by
  have hexclusive := h.exclusive_step cm verify hcall
  obtain heq | ⟨db, phase, hact, heq⟩ := World.step_cases (act cm cfg verify) w call
  · rwa [heq]
  rw [heq] at hexclusive ⊢
  have hacts := acts hact
  generalize hbefore : w.own call.1 = before at hacts
  generalize hlabel : call.2 = label at hacts
  cases hacts with
  | ticks d =>
    subst hbefore
    rw [Function.update_eq_self]
    exact h.tick hpos d
  | turns hphase hphase' =>
    exact h.update hexclusive (hbefore ▸ hphase) fun harmed => absurd harmed.critical hphase'
  | unlocks password hlocked =>
    -- No failure is to be counted, and the account is not locked: a guess is left.
    refine h.update hexclusive (by simp [hbefore]) fun _ => ?_
    have hnone := hcall.alone password hbefore hlabel
    obtain ⟨hcounted, hlock⟩ := h.settled fun j hj => hnone j (hj ▸ trivial)
    by_contra hfull
    have hlocked' := hlock (by omega) (by omega)
    simp [hlocked] at hlocked'
  -- A check that cannot be read would let the login pass, whatever the lock is.
  | trusts password e => exact absurd hlabel (hcall.read password e hbefore)
  | loads password =>
    exact h.update hexclusive (by simp [hbefore]) fun _ => h.room call.1 (hbefore ▸ trivial)
  | agrees harmed =>
    refine h.update hexclusive (fun heq => ?_) fun hnot => absurd hnot id
    rw [← hbefore, heq] at harmed
    exact harmed
  | differs harmed =>
    -- The guess that was left is made. It is not counted yet: nothing is claimed of the lock.
    subst hbefore
    have hroom := h.room call.1 harmed
    obtain ⟨hcounted, -⟩ := h.settled fun j hj => by
      by_cases hself : j = call.1
      · rw [← hself, hj] at harmed
        exact harmed
      · exact hself (h.exclusive j call.1 (hj ▸ trivial) harmed.critical)
    refine ⟨hexclusive, h.bounded.cons hroom, ?_, ?_, fun hnone => ?_⟩
    · exact h.room_update harmed.critical id _
    · exact Nat.succ_le_succ hcounted
    · exact absurd (Function.update_self _ _ _) (hnone call.1)
  | records hphase =>
    -- Every guess is counted now, and the one that reaches the threshold has locked the account.
    have hcritical : (w.own call.1).Critical := hbefore ▸ trivial
    refine ⟨hexclusive, h.bounded, ?_, ?_, fun _ => ⟨h.counted, fun _ hfull => ?_⟩⟩
    · exact h.room_update hcritical (fun harmed => hphase harmed.critical) _
    · exact h.counted.trans (Nat.le_succ _)
    · rw [AuthIdentity.isAccountLocked, show AuthIdentity.lockedUntil _ = _ from if_pos hfull]
      have hlt : w.shared.now < w.shared.now + cfg.lockMillis * 1000 := by omega
      exact decide_eq_true hlt
  | forgets e hphase => exact absurd hlabel (hcall.counted e hbefore)
  | resets version hphase =>
    have hcritical : (w.own call.1).Critical := hbefore ▸ trivial
    refine ⟨hexclusive, h.bounded.cons (Nat.zero_le _), ?_, Nat.zero_le _,
      fun _ => ⟨Nat.zero_le _, fun hlt => absurd hlt (lt_irrefl 0)⟩⟩
    exact h.room_update hcritical (fun harmed => hphase harmed.critical) _

theorem guarded_logins (hcfg : 0 < cfg.lockMillis) (hpos : 0 < cfg.threshold)
    {identity : AuthIdentity} {now : ℤ} {calls : ℕ → W × Call}
    (hcalls : ∀ n, Careful (logins cm cfg verify identity now calls n) (calls n)) (n : ℕ) :
    Guarded cfg (logins cm cfg verify identity now calls n) := by
  induction n with
  | zero =>
    refine ⟨fun i j hi => absurd hi id, fun k hk => ?_, fun i hi => absurd hi id, Nat.zero_le _,
      fun _ => ⟨Nat.zero_le _, fun hlt => absurd hlt (lt_irrefl 0)⟩⟩
    rw [(List.replicate_eq_nil_iff _).1 (List.infix_nil.1 hk)]
    exact Nat.zero_le _
  | succ n ih => exact ih.step hcfg hpos (hcalls n)

variable (cm verify) in
/-- With careful logins, the guesses between two resets are at most the threshold. -/
theorem lockout_bounds_guesses (failureThreshold : String) {lockMinutes : String}
    (hminutes : positiveFromEnv lockMinutes 5 ≤ 153722867) (identity : AuthIdentity) (now : ℤ)
    {calls : ℕ → W × Call}
    (hcalls : ∀ n, Careful
      (logins cm (.fromEnv failureThreshold lockMinutes) verify identity now calls n) (calls n))
    (n : ℕ) :
    Bounded (loginFailureThresholdFromEnv failureThreshold) (logins cm
      (.fromEnv failureThreshold lockMinutes) verify identity now calls n).shared.log := by
  have hlock := loginLockMillisFromEnv_pos hminutes
  have hpos := loginFailureThresholdFromEnv_pos failureThreshold
  rw [Config.fromEnv] at hcalls ⊢
  generalize loginLockMillisFromEnv lockMinutes = millis at *
  generalize loginFailureThresholdFromEnv failureThreshold = threshold at *
  exact (guarded_logins hlock hpos hcalls n).bounded

end Run

namespace Sample

/-- A login with a wrong password. -/
def guess : Call := .login ⟨"ada", "secret"⟩ (.ok (some "active"))

/-- An account with a password. -/
def account : AuthIdentity := { passwordHash := some "h" }

/-- A login begins while another one is between its check and its end, and waits for it. -/
def waiting (n : ℕ) : Bool × Call :=
  [(true, guess), (true, .next), (false, guess), (true, .next), (true, .next), (true, .next),
    (false, .next), (true, guess), (false, .next), (false, .next), (false, .next),
    (true, .next)].getD n (true, .tick 1)

/-- The states of these logins, where two wrong passwords lock the account. -/
def waitingRun : ℕ → World Bool Db Phase :=
  logins ascii (.fromEnv "2" "") (fun _ _ _ => false) account 0 waiting

/-- Two logins at once. -/
def atOnce (n : ℕ) : Bool × Call := (n % 2 = 1, if n < 2 then guess else .next)

end Sample

/-- The third login finds the account locked by the other two. -/
theorem lockout_bounds_guesses_waiting :
    (Sample.waitingRun 12).shared.log = [.wrong, .wrong] ∧
      ∀ n, Bounded (loginFailureThresholdFromEnv "2") (Sample.waitingRun n).shared.log := by
  refine ⟨by decide +kernel, lockout_bounds_guesses ascii _ "2" (by decide +kernel) Sample.account 0
    fun n => ?_⟩
  change Careful (Sample.waitingRun n) (Sample.waiting n)
  by_cases hn : n < 12
  · -- A login that goes on is past its check, or no login is.
    have hcalls : ∀ n < 12, n ∈ [2, 7] ∨ ((Sample.waitingRun n).own (Sample.waiting n).1).Critical ∨
        ∀ j, ¬ ((Sample.waitingRun n).own j).Critical := by decide +kernel
    have hfail (e : Fault) : (Sample.waiting n).2 ≠ .fail e := by interval_cases n <;> exact nofun
    refine ⟨fun password hphase hnext j => ?_, fun _ e _ => hfail e, fun e _ => hfail e⟩
    rcases hcalls n hn with hbegins | hcritical | hnone
    · rcases List.mem_pair.1 hbegins with rfl | rfl <;> cases hnext
    · rw [hphase] at hcritical
      cases hcritical
    · exact hnone j
  · have hcall : Sample.waiting n = (true, .tick 1) := List.getD_eq_default _ _ (not_lt.1 hn)
    rw [hcall]
    exact ⟨nofun, fun _ _ _ => nofun, fun _ _ => nofun⟩

/-- Two logins at once both find the account unlocked, where one wrong password locks it. -/
theorem not_lockout_bounds_guesses :
    ¬ Bounded (loginFailureThresholdFromEnv "1")
      (logins ascii (.fromEnv "1" "") (fun _ _ _ => false) Sample.account 0 Sample.atOnce
        8).shared.log := by
  intro h
  have hlog : (logins ascii (.fromEnv "1" "") (fun _ _ _ => false) Sample.account 0 Sample.atOnce
      8).shared.log = [.wrong, .wrong] := by decide +kernel
  rw [hlog] at h
  exact absurd (h 2 (List.infix_refl _)) (by decide +kernel)

end Yggdrasil.Auth.Login
