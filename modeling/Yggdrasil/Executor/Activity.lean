import Yggdrasil.Lib.Check
import Yggdrasil.Lib.Go
import Yggdrasil.Lib.Table

/-!
# The activity of an executor

An executor is a machine that is started when there is work for it. What decides it is one record
(`ExecutorActivityState`), written whole by transactions that check it before and after
(`updateExecutorActivity`). A time that is not set is `0`.
-/

namespace Yggdrasil.Executor

open Check

/-- Why an operation does not commit. -/
inductive ActivityError
  /-- The revision or the state is not the one that was read. -/
  | conflict
  | refused (text : String)
  /-- The context, the database, or a port failed. -/
  | external

/-! ## The record -/

/-- The times and limits of a policy. -/
structure ExecutorActivityPolicy where
  leaseTTL : ℤ
  idleAfter : ℤ
  maxObservationAge : ℤ
  maxTasks : ℤ
  deriving DecidableEq

/-- The lease of a task, in the sequence of its events. -/
structure ExecutorTaskLease where
  owner : String
  sequence : ℕ
  expiresAt : ℤ
  released : Bool

/-- How far a stop has come. -/
inductive StopStage
  | draining
  | possibleSend
  deriving DecidableEq

/-- A stop that is under way. -/
structure ExecutorStopReservation where
  id : String
  epoch : ℕ
  stage : StopStage
  createdAt : ℤ
  sendAt : ℤ

/-- How far a job has come. -/
inductive JobState
  | queued
  | admitting
  | running
  | finished
  deriving DecidableEq

/-- A job of a task. -/
structure Job where
  taskID : String
  owner : String
  state : JobState
  bootID : String

/-- The machine that is meant. -/
structure ExactResource where
  accountID : String
  region : String
  instanceID : String
  ownershipBindingID : String
  deriving DecidableEq

/-- What a command does. -/
inductive PowerAction
  | start
  | stop
  deriving DecidableEq

/-- How a command has ended. -/
inductive PowerResult
  | succeeded
  | rejectedNoEffect

/-- A command to the provider. -/
structure PowerCommand where
  id : String
  action : PowerAction
  resource : ExactResource
  issuedAt : ℤ
  joined : Bool
  result : Option PowerResult

/-- A map from texts. -/
abbrev Ledger (V : Type) := Table (fun entry : String × V => entry.1)

/-- The record of an executor. -/
structure ExecutorActivityState where
  revision : ℕ
  updatedAt : ℤ
  idleSince : ℤ
  demandChangedAt : ℤ
  quietObservedAt : ℤ
  epoch : ℕ
  tasks : Ledger ExecutorTaskLease
  stop : Option ExecutorStopReservation
  jobs : Ledger Job
  power : Option PowerCommand
  powerHistory : Ledger PowerCommand
  boundResource : Option ExactResource
  pinnedPolicy : Option ExecutorActivityPolicy

/-- A lease is taken, extended or released. -/
structure ExecutorActivityEvent where
  taskID : String
  owner : String
  sequence : ℕ
  release : Bool

/-- What was seen of the worker. -/
structure ExecutorActivityObservation where
  observedAt : ℤ
  epoch : ℕ
  complete : Bool
  admissionClosed : Bool
  activeJobs : ℤ

/-- The observation of nothing. -/
def ExecutorActivityObservation.zero : ExecutorActivityObservation := ⟨0, 0, false, false, 0⟩

/-- The largest counter. -/
def maxUint64 : ℕ := 2 ^ 64 - 1

/-- A short text on one line, without blanks around it. -/
def activityID (s : String) : Bool :=
  0 < s.utf8ByteSize && s.utf8ByteSize ≤ 256 && Text.trimSpace s == s &&
    !Text.containsAny s ['\r', '\n', '\t']

/-- The lease is held at the instant `t`. -/
def ExecutorTaskLease.live (lease : ExecutorTaskLease) (t : ℤ) : Bool :=
  !lease.released && t < lease.expiresAt

variable (s : ExecutorActivityState)

/-- How many leases are live. -/
def executorActiveTasks (now : ℤ) : ℕ :=
  s.tasks.count (·.2.live now)

/-- How many jobs are not finished. -/
def activeJobs : ℕ := s.jobs.count (·.2.state ≠ .finished)

/-! ## Validation -/

/-- The machine, and what may be done to it. -/
structure PowerBinding where
  enabled : Bool
  resource : ExactResource
  allowedActions : List String

/-- Twelve decimal digits. -/
def accountText (s : String) : Bool :=
  s.utf8ByteSize = 12 && (Text.bytes s).all Text.isDigitByte

/-- Two lower-case letters, a word of them and a number, with hyphens between. -/
def regionText (s : String) : Bool :=
  match Text.bytes s with
  | a :: b :: 0x2D :: rest =>
    Text.isLowerByte a && Text.isLowerByte b && !(rest.takeWhile Text.isLowerByte).isEmpty &&
      match rest.dropWhile Text.isLowerByte with
      | 0x2D :: number => !number.isEmpty && number.all Text.isDigitByte
      | _ => false
  | _ => false

/-- The letter `i`, a hyphen and seventeen hexadecimal digits. -/
def instanceText (s : String) : Bool :=
  match Text.bytes s with
  | 0x69 :: 0x2D :: digits => digits.length = 17 && digits.all Text.isHex
  | _ => false

/-- The machine is given exactly, with both actions allowed. -/
def validatePowerBinding (b : PowerBinding) : Except ActivityError Unit := do
  require (accountText b.resource.accountID && regionText b.resource.region &&
    instanceText b.resource.instanceID && activityID b.resource.ownershipBindingID &&
    b.allowedActions.length = 2) (.refused "exact operator power binding required")
  require (b.allowedActions.all (fun a => a == "start" || a == "stop") &&
    decide b.allowedActions.Nodup) (.refused "only start/stop allowed")

/-- A job is of a task that has the same owner, and has a boot once it is not queued. -/
def validateJob (id : String) (j : Job) : Except ActivityError Unit := do
  require (activityID id && activityID j.taskID && activityID j.owner)
    (.refused "invalid job record")
  require ((s.tasks.get? j.taskID).any (·.2.owner == j.owner) &&
    (j.state = .queued || j.bootID != "")) (.refused "job owner/lifetime missing")

/-- The pending command is of the bound machine, and has not ended. -/
def validatePower (now : ℤ) (cmd : PowerCommand) : Except ActivityError Unit := do
  require (activityID cmd.id && cmd.issuedAt != 0 && cmd.issuedAt ≤ now && !cmd.joined)
    (.refused "invalid pending power command")
  require (s.boundResource == some cmd.resource && cmd.result.isNone)
    (.refused "pending power binding missing")

/-- A command of the history has ended. -/
def validateHistory (now : ℤ) (id : String) (cmd : PowerCommand) : Except ActivityError Unit :=
  require (activityID id && id == cmd.id && cmd.joined && cmd.issuedAt != 0 &&
    cmd.issuedAt ≤ now && cmd.result.isSome && s.boundResource == some cmd.resource)
    (.refused "invalid power history")

/-- The check of an entry that may not be there. -/
def validateSome {α : Type} (check : α → Except ActivityError Unit) :
    Option α → Except ActivityError Unit
  | none => .ok ()
  | some x => check x

/-- The check of every entry, in turn. -/
def validateAll {V : Type} (check : String → V → Except ActivityError Unit)
    (entries : Ledger V) : Except ActivityError Unit :=
  validateEach (fun entry : String × V => entry.1) (fun _ entry => check entry.1 entry.2) []
    entries.rows

variable (p : ExecutorActivityPolicy)

/-- The jobs and commands of the record are valid. -/
def validateRuntimeState (now : ℤ) : Except ActivityError Unit := do
  validateSome (fun r => validatePowerBinding ⟨false, r, ["start", "stop"]⟩) s.boundResource
  require (s.jobs.rows.length ≤ p.maxTasks && s.powerHistory.rows.length ≤ p.maxTasks)
    (.refused "runtime ledger exhausted")
  validateAll (validateJob s) s.jobs
  validateSome (validatePower s now) s.power
  validateAll (validateHistory s now) s.powerHistory

/-- A lease has an owner, a sequence and a time. -/
def validateTask (id : String) (task : ExecutorTaskLease) : Except ActivityError Unit :=
  require (activityID id && activityID task.owner && task.sequence != 0 && task.expiresAt != 0)
    (.refused "invalid executor task state")

/-- A stop is of the current epoch, and its times are in order. -/
def validateStop (now : ℤ) (stop : ExecutorStopReservation) : Except ActivityError Unit :=
  require (activityID stop.id && stop.epoch != 0 && stop.epoch == s.epoch &&
    stop.createdAt != 0 && stop.createdAt ≤ now &&
    (stop.stage = .draining || (stop.createdAt ≤ stop.sendAt && stop.sendAt ≤ now)))
    (.refused "invalid executor stop state")

/-- The bounds of a policy. -/
def ExecutorActivityPolicy.bounded : Bool :=
  5 * Instant.second ≤ p.leaseTTL && p.leaseTTL ≤ 300 * Instant.second &&
    Instant.second ≤ p.idleAfter && p.idleAfter ≤ 86400 * Instant.second &&
    Instant.second ≤ p.maxObservationAge && p.maxObservationAge ≤ p.leaseTTL &&
    1 ≤ p.maxTasks && p.maxTasks ≤ 100000

/-- The record is valid at this time. -/
def validateExecutorActivity (now : ℤ) : Except ActivityError Unit := do
  require (s.pinnedPolicy.all (· == p)) (.refused "executor activity policy changed")
  validateRuntimeState s p now
  require (now != 0 && p.bounded && s.revision != maxUint64 && s.demandChangedAt ≤ now &&
    s.updatedAt ≤ now && s.idleSince ≤ now && s.quietObservedAt ≤ now &&
    (s.idleSince == 0 || (s.quietObservedAt != 0 && s.idleSince ≤ s.quietObservedAt)) &&
    s.tasks.rows.length ≤ p.maxTasks) (.refused "invalid executor activity policy/state/clock")
  validateAll validateTask s.tasks
  validateSome (validateStop s now) s.stop

/-! ## Reducers -/

/-- A drain that has not been sent gives way to demand, and the epoch moves on. -/
def cancelDraining (exhausted : String) (s : ExecutorActivityState) :
    Except ActivityError ExecutorActivityState :=
  if s.stop.any (·.stage = .draining) then do
    require (s.epoch != maxUint64) (.refused exhausted)
    .ok { s with epoch := s.epoch + 1, stop := none }
  else .ok s

/-- The lease of an event that is new. A release does not cancel a drain. -/
def writeLease (e : ExecutorActivityEvent) (now : ℤ) (s : ExecutorActivityState) : Except
    ActivityError ExecutorActivityState :=
  let lease : ExecutorTaskLease := ⟨e.owner, e.sequence, now + p.leaseTTL, e.release⟩
  let demand := { s with
    tasks := s.tasks.upsert (e.taskID, lease)
    demandChangedAt := now
    idleSince := 0
    quietObservedAt := 0 }
  if e.release then .ok demand else cancelDraining "executor epoch exhausted" demand

/-- An event of a lease, which is new or a repetition of the last one. -/
def applyExecutorActivity (e : ExecutorActivityEvent) (now : ℤ) (s : ExecutorActivityState) : Except
    ActivityError ExecutorActivityState := do
  validateExecutorActivity s p now
  require (activityID e.taskID && activityID e.owner && e.sequence != 0)
    (.refused "executor task identity/sequence required")
  match s.tasks.get? e.taskID with
  | none => do
    require (!e.release && e.sequence == 1 && s.tasks.rows.length < p.maxTasks)
      (.refused "executor task acquisition refused")
    writeLease p e now s
  | some (_, old) => do
    require (old.owner == e.owner) (.refused "executor task owner mismatch")
    -- A retry neither prolongs a lease nor revives one.
    if e.sequence ≤ old.sequence then .ok s
    else do
      require (old.live now) (.refused "executor task lease ended; acquire a new run ID")
      writeLease p e now s

variable (o : ExecutorActivityObservation)

/-- The observation is complete and not too old. -/
def executorObservationFresh (p : ExecutorActivityPolicy) (now : ℤ) : Bool :=
  o.complete && 0 ≤ o.activeJobs && o.observedAt != 0 && o.observedAt ≤ now &&
    Instant.sub now o.observedAt ≤ p.maxObservationAge

/-- The executor has been quiet for long enough. -/
def executorQuietReady (now : ℤ) : Bool :=
  activeJobs s == 0 && s.power.isNone && executorActiveTasks s now == 0 &&
    executorObservationFresh o p now && s.demandChangedAt ≤ o.observedAt && o.activeJobs == 0 &&
    s.idleSince != 0 && p.idleAfter ≤ Instant.sub now s.idleSince && s.quietObservedAt != 0 &&
    Instant.sub now s.quietObservedAt ≤ p.maxObservationAge

/-- Nothing in the record or the observation speaks against being idle. -/
def quietAt (now : ℤ) : Bool :=
  activeJobs s == 0 && s.power.isNone && executorObservationFresh o p now &&
    executorActiveTasks s now == 0 && o.activeJobs == 0 && s.demandChangedAt ≤ o.observedAt

/-- An observation begins, continues or ends the quiet time. -/
def observeExecutorQuiet (now : ℤ) (s : ExecutorActivityState) : Except ActivityError
    ExecutorActivityState := do
  validateExecutorActivity s p now
  if quietAt s p o now then
    let restart := s.idleSince == 0 || s.quietObservedAt == 0 ||
      p.maxObservationAge < Instant.sub o.observedAt s.quietObservedAt
    .ok { s with
      idleSince := if restart then o.observedAt else s.idleSince
      quietObservedAt := o.observedAt }
  else .ok { s with idleSince := 0, quietObservedAt := 0 }

/-- A stop is reserved when the executor has been quiet. -/
def reserveExecutorStop (id : String) (o : ExecutorActivityObservation) (now : ℤ)
    (s : ExecutorActivityState) : Except ActivityError ExecutorActivityState := do
  validateExecutorActivity s p now
  require (s.stop.isNone && activityID id && s.epoch != maxUint64 && executorQuietReady s p o now)
    (.refused "executor stop reservation refused")
  .ok { s with epoch := s.epoch + 1, stop := some ⟨id, s.epoch + 1, .draining, now, 0⟩ }

/-- The observation acknowledges the drain `stop`, which is the one that is asked for. -/
def acknowledgesDrain (id : String) (o : ExecutorActivityObservation)
    (stop : ExecutorStopReservation) : Bool :=
  stop.id == id && stop.stage = .draining && o.admissionClosed && o.epoch == stop.epoch &&
    stop.createdAt ≤ o.observedAt

/-- The stop may be sent, once the worker has acknowledged the drain. -/
def markExecutorStopPossibleSend (id : String) (o : ExecutorActivityObservation) (now : ℤ)
    (s : ExecutorActivityState) : Except ActivityError ExecutorActivityState := do
  validateExecutorActivity s p now
  require (s.stop.any (acknowledgesDrain id o) && executorQuietReady s p o now)
    (.refused "executor stop send refused")
  .ok { s with stop := s.stop.map ({ · with stage := .possibleSend, sendAt := now }) }

/-- A job is queued by the owner of a live lease. -/
def queueJob (taskID jobID owner : String) (now : ℤ) (s : ExecutorActivityState) : Except
    ActivityError ExecutorActivityState := do
  require ((s.tasks.get? taskID).any (fun (_, lease) => lease.owner == owner && lease.live now) &&
    activityID jobID) (.refused "current owned task lease required for job")
  match s.jobs.get? jobID with
  | some (_, old) => do
    require (old.taskID == taskID && old.owner == owner) (.refused "job identity conflict")
    .ok s
  | none => do
    require (s.jobs.rows.length < p.maxTasks) (.refused "job ledger exhausted")
    cancelDraining "epoch exhausted" { s with
      jobs := s.jobs.upsert (jobID, ⟨taskID, owner, .queued, ""⟩)
      demandChangedAt := now
      idleSince := 0
      quietObservedAt := 0 }

/-! ## Workflow operations -/

/-- The operations of workflow steps. -/
inductive WorkflowOperation
  | initializeExecutorActivity
  | recordExecutorActivity
  | observeExecutorActivity
  | reserveExecutorStop
  | prepareExecutorStop
  | unsupported

/-- The input of an operation. -/
structure WorkflowRequest where
  jobID : String
  event : ExecutorActivityEvent
  observation : ExecutorActivityObservation
  reservationID : String

/-- What an operation makes of the record. -/
def applyWorkflowOperation (operation : WorkflowOperation) (owner : String)
    (request : WorkflowRequest) (now : ℤ) (s : ExecutorActivityState) : Except ActivityError
    ExecutorActivityState :=
  match operation with
  | .initializeExecutorActivity => .ok s
  | .recordExecutorActivity => do
    require (request.event.owner == "") (.refused "executor task owner is workflow-authored")
    require (request.jobID == "" || !request.event.release)
      (.refused "release cannot enqueue a job")
    let s ← applyExecutorActivity p { request.event with owner } now s
    if request.jobID = "" then .ok s
    else queueJob p request.event.taskID request.jobID owner now s
  | .observeExecutorActivity => observeExecutorQuiet p request.observation now s
  | .reserveExecutorStop =>
    Executor.reserveExecutorStop p request.reservationID request.observation now s
  | .prepareExecutorStop =>
    markExecutorStopPossibleSend p request.reservationID request.observation now s
  | .unsupported => .error (.refused "unsupported executor activity workflow operation")

/-! ## Transactions -/

/-- One change of the record: it is checked before and after, and the policy is pinned. -/
def updateExecutorActivity (now : ℤ)
    (change : ExecutorActivityState → Except ActivityError ExecutorActivityState)
    (s : ExecutorActivityState) : Except ActivityError ExecutorActivityState := do
  validateExecutorActivity s p now
  let changed ← change { s with pinnedPolicy := some (s.pinnedPolicy.getD p) }
  let next := { changed with revision := s.revision + 1, updatedAt := now }
  validateExecutorActivity next p now
  .ok next

/-- The stored row of a scope. -/
structure ActivityRow where
  binding : String
  revision : ℕ
  state : ExecutorActivityState

/-- The largest integer that a float64 has exactly. -/
def maxActivityRevision : ℕ := 9007199254740991

/-- The record that an explicit initialization stores. -/
def initialState (now : ℤ) : ExecutorActivityState where
  revision := 0
  updatedAt := now
  idleSince := 0
  demandChangedAt := 0
  quietObservedAt := 0
  epoch := 1
  tasks := .empty
  stop := none
  jobs := .empty
  power := none
  powerHistory := .empty
  boundResource := none
  pinnedPolicy := none

/-- The policy and its digest, and whether a missing row is initialized. -/
structure Account where
  binding : String
  policy : ExecutorActivityPolicy
  createsRow : Bool

/-- The row that a transaction finds. -/
def ActivityRow.found (account : Account) (now : ℤ) : Option ActivityRow → Option ActivityRow
  | none => if account.createsRow then some ⟨account.binding, 0, initialState now⟩ else none
  | some row => some row

/-- One transaction on the row; `refusal` is a failure of authorization or the database. -/
def runPostgres (account : Account) (now : ℤ) (refusal : Option ActivityError)
    (change : ExecutorActivityState → Except ActivityError ExecutorActivityState)
    (row : Option ActivityRow) : Except ActivityError ActivityRow := do
  requireNone refusal
  match ActivityRow.found account now row with
  | none => .error .external
  | some row => do
    require (row.binding == account.binding) .external
    require (row.state.revision == row.revision && row.revision < maxActivityRevision &&
      row.state.updatedAt != 0) (.refused "executor activity state/revision mismatch")
    let next ← updateExecutorActivity account.policy now change row.state
    require (row.revision < maxActivityRevision - 1) .conflict
    .ok ⟨row.binding, next.revision, next⟩

end Yggdrasil.Executor
