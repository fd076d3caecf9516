import Yggdrasil.Executor.Activity
import Yggdrasil.Lib.Run

/-!
# The controller of an executor

A reconcile pass reads and writes the activity record in several transactions, and calls the
provider and the worker between them (`Phase`). Any number of passes run at once, workflow
operations come between their moves, the replies are arbitrary, a pass may crash, and a commit may
land without a reply (`Delivery`).
-/

namespace Yggdrasil.Executor

open Check

/-! ## Ports -/

/-- The states of a machine. -/
inductive InstanceState
  | running
  | stopped
  | other
  deriving DecidableEq

/-- What the provider says of the machine. -/
structure PowerSnapshot where
  resource : ExactResource
  state : InstanceState
  bootID : String
  observedAt : ℤ

/-- The reply to a settlement query; a state that is neither result is `none`. -/
structure PowerSettlement where
  commandID : String
  resource : ExactResource
  action : PowerAction
  originalInvocationJoined : Bool
  state : Option PowerResult

/-- The states of a job at the worker. -/
inductive WorkerJobState
  | finished
  | running
  | other
  deriving DecidableEq

/-- What the worker says of itself. -/
structure WorkerSnapshot where
  resource : ExactResource
  bootID : String
  observedAt : ℤ
  complete : Bool
  ready : Bool
  closed : Bool
  epoch : ℕ
  jobs : List (String × WorkerJobState)

/-- A controller, with the account of its transactions. -/
structure Controller where
  binding : PowerBinding
  policy : ExecutorActivityPolicy
  account : Account
  /-- The transactions, the provider and the worker are there. -/
  installed : Bool

/-- An observation of this time is not too old. -/
def runtimeFresh (at_ now : ℤ) (p : ExecutorActivityPolicy) : Bool :=
  at_ != 0 && at_ ≤ now && Instant.sub now at_ ≤ p.maxObservationAge

variable (w : WorkerSnapshot)

/-- The worker is the one on the machine, and its answer fresh. -/
def validWorker (power : PowerSnapshot) (now : ℤ) (p : ExecutorActivityPolicy) : Bool :=
  w.complete && w.resource == power.resource && w.bootID != "" && w.bootID == power.bootID &&
    runtimeFresh w.observedAt now p

/-! ## The transactions of a pass -/

/-- The change of one transaction, as a workflow operation or a pass submits it. -/
inductive Reducer
  | workflow (operation : WorkflowOperation) (owner : String) (request : WorkflowRequest)
  | bind (c : Controller)
  /-- The provider's observation is still fresh. -/
  | confirm (p : ExecutorActivityPolicy) (o : PowerSnapshot)
  | settle (p : ExecutorActivityPolicy) (o : PowerSnapshot) (cmd : PowerCommand)
      (result : PowerResult)
  | start (c : Controller) (o : PowerSnapshot) (id : String)
  | stop (c : Controller) (o : ExecutorActivityObservation) (id : String)
  | unknownInventory (p : ExecutorActivityPolicy)
  /-- The jobs as the worker has them. -/
  | inventory (p : ExecutorActivityPolicy) (o : PowerSnapshot) (w : WorkerSnapshot)
  | admission (p : ExecutorActivityPolicy) (w : WorkerSnapshot) (id : String)
  /-- A quiet observation, and the reservation of a stop under a random identifier, which may
      be unavailable. -/
  | observe (p : ExecutorActivityPolicy) (o : ExecutorActivityObservation) (id : Option String)

/-- The command that a controller records. -/
def Controller.command (c : Controller) (action : PowerAction) (id : String) (now : ℤ) :
    PowerCommand := ⟨id, action, c.binding.resource, now, false, none⟩

/-- The record is bound to the machine of the controller. -/
def bindResource (c : Controller) (s : ExecutorActivityState) :
    Except ActivityError ExecutorActivityState := do
  require (s.pinnedPolicy.all (· == c.policy)) (.refused "controller policy mismatch")
  require (s.boundResource.all (· == c.binding.resource))
    (.refused "executor resource binding changed")
  .ok { s with boundResource := some c.binding.resource }

variable (p : ExecutorActivityPolicy)

variable (o : PowerSnapshot)

variable (cmd : PowerCommand)

/-- A command that has ended goes to the history. -/
def settleCommand (result : PowerResult) (now : ℤ) (s : ExecutorActivityState) : Except
    ActivityError ExecutorActivityState := do
  require (runtimeFresh o.observedAt now p) (.refused "settlement observation expired")
  require (s.power.any (·.id == cmd.id)) .conflict
  require (s.powerHistory.rows.length < p.maxTasks) (.refused "power history exhausted")
  let settled := { s with
    powerHistory := s.powerHistory.upsert (cmd.id, { cmd with joined := true, result })
    power := none }
  match cmd.action with
  | .start => .ok settled
  | .stop => do
    require (s.epoch != maxUint64) (.refused "epoch exhausted")
    .ok { settled with epoch := s.epoch + 1, stop := none, idleSince := 0, quietObservedAt := 0 }

/-- A command is recorded when there is no other, under a new identifier. -/
def send (c : Controller) (action : PowerAction) (id : String)
    (prepare : ExecutorActivityState → Except ActivityError ExecutorActivityState) (now : ℤ)
    (s : ExecutorActivityState) : Except ActivityError ExecutorActivityState := do
  require (s.powerHistory.rows.length < c.policy.maxTasks)
    (.refused "power history exhausted before send")
  require (s.power.isNone && !(s.powerHistory.get? id).any (·.2.id != "")) .conflict
  let prepared ← prepare s
  .ok { prepared with power := some (c.command action id now) }

/-- There is something to start the machine for. -/
def prepareStart (now : ℤ) (s : ExecutorActivityState) : Except ActivityError ExecutorActivityState
    := do
  require (runtimeFresh o.observedAt now p) (.refused "start observation expired")
  require (s.stop.isNone && (0 < executorActiveTasks s now || 0 < activeJobs s)) .conflict
  .ok s

/-- What the inventory of the worker makes of a job. -/
def inventoryJob (id : String) (job : Job) : Except ActivityError Job :=
  if job.state = .queued ∨ job.state = .finished then .ok job
  else
    match w.jobs.lookup id with
    | none => .error (.refused "owned job lifetime missing")
    | some state => do
      require (job.bootID == w.bootID) (.refused "owned job lifetime missing")
      match state with
      | .finished => .ok { job with state := .finished }
      | .running => .ok { job with state := .running }
      | .other => .error (.refused "unknown worker job state")

/-- The jobs of a record after an inventory that passed. -/
def inventoryJobs (jobs : Ledger Job) : Ledger Job :=
  jobs.map (fun (id, job) => (id, (inventoryJob w id job).toOption.getD job)) fun _ => rfl

/-- The jobs are brought up to what the worker says. -/
def takeInventory (w : WorkerSnapshot) (now : ℤ) (s : ExecutorActivityState) : Except ActivityError
    ExecutorActivityState := do
  require (validWorker w o now p) (.refused "worker observation expired")
  validateAll (fun id job => (inventoryJob w id job).map fun _ => ()) s.jobs
  .ok { s with jobs := inventoryJobs w s.jobs }

/-- A job that is to be handed to the worker. -/
def Job.pending (j : Job) : Bool := j.state = .queued || j.state = .admitting

/-- A queued job is admitted, when no power command or stop is under way. -/
def admitJob (w : WorkerSnapshot) (id : String) (now : ℤ) (s : ExecutorActivityState) : Except
    ActivityError ExecutorActivityState := do
  require (runtimeFresh w.observedAt now p) (.refused "admission observation expired")
  require (s.power.isNone && s.stop.isNone) .conflict
  match s.jobs.get? id with
  | none => .error .conflict
  | some (_, j) => do
    require j.pending .conflict
    .ok { s with jobs := s.jobs.upsert (id, { j with state := .admitting, bootID := w.bootID }) }

/-- The observation is recorded, and a stop reserved if it is time. -/
def observeAndReserve (o : ExecutorActivityObservation) (id : Option String) (now : ℤ)
    (s : ExecutorActivityState) : Except ActivityError ExecutorActivityState := do
  let s ← observeExecutorQuiet p o now s
  if executorQuietReady s p o now then
    match id with
    | none => .error .external
    | some id => reserveExecutorStop p id o now s
  else .ok s

/-- The change that a reducer makes, in a transaction of an account with policy `p`. -/
def Reducer.apply (now : ℤ) (s : ExecutorActivityState) : Reducer → Except ActivityError
    ExecutorActivityState
  | workflow operation owner request => applyWorkflowOperation p operation owner request now s
  | bind c => bindResource c s
  | confirm p o => do
    require (runtimeFresh o.observedAt now p) (.refused "provider observation expired or future")
    .ok s
  | settle p o cmd result => settleCommand p o cmd result now s
  | start c o id => send c .start id (prepareStart c.policy o now) now s
  | stop c o id => send c .stop id (markExecutorStopPossibleSend c.policy id o now) now s
  | unknownInventory p => observeExecutorQuiet p .zero now s
  | inventory p o w => takeInventory p o w now s
  | admission p w id => admitJob p w id now s
  | observe p o id => observeAndReserve p o id now s

/-! ## A pass -/

/-- Where a reconcile pass is. -/
inductive Phase
  | start
  | bound
  | observed (o : PowerSnapshot)
  /-- It is about to ask how the outstanding command ended. -/
  | settling (o : PowerSnapshot) (cmd : PowerCommand)
  /-- It is about to record that the command has ended. -/
  | joined (o : PowerSnapshot) (cmd : PowerCommand) (result : PowerResult)
  | starting (o : PowerSnapshot)
  /-- It is about to ask the worker. -/
  | inspecting (o : PowerSnapshot)
  | uninspected
  | inspected (o : PowerSnapshot) (w : WorkerSnapshot)
  | admitting (w : WorkerSnapshot) (id : String) (epoch : ℕ)
  | opening (epoch : ℕ)
  | quiet (o : ExecutorActivityObservation)
  | closing (epoch : ℕ)
  | stopping (id : String) (o : ExecutorActivityObservation)
  /-- The admission of a job is recorded, and it is about to hand the job to the worker. -/
  | admitted (id : String) (epoch : ℕ) (bootID : String)
  /-- The command is recorded, and it is about to send it. -/
  | sending (cmd : PowerCommand)
  | finished (status : String) (failure : Option ActivityError)

/-- What becomes of a transaction that is committed, and what its caller learns of it. -/
inductive Delivery
  | replied
  | lost
  | failed

/-- What a transaction meets: the clock, a failure before the commit, and the commit. -/
structure Attempt where
  now : ℤ
  refusal : Option ActivityError
  delivery : Delivery

/-- The next move of a pass, with what it meets. -/
inductive Move
  /-- A transaction, with the random identifier it draws and the job that the iteration over
      the jobs comes to first. -/
  | transact (attempt : Attempt) (random : Option String) (first : String)
  | observePower (reply : Option PowerSnapshot)
  | querySettlement (reply : Option PowerSettlement)
  | observeWorker (reply : Option WorkerSnapshot)
  /-- The call that is next, which the port carries out or not, and its reply. -/
  | call (carriedOut : Bool) (failure : Option ActivityError)

/-- The power state in which a command has ended with a result. -/
def PowerCommand.goal (result : PowerResult) : InstanceState :=
  match cmd.action, result with
  | .start, .succeeded | .stop, .rejectedNoEffect => .running
  | .stop, .succeeded | .start, .rejectedNoEffect => .stopped

/-- The result of a command, when its settlement and the observation agree that it has ended. -/
def settlementResult (settled : PowerSettlement) : Option PowerResult :=
  settled.state.filter fun result =>
    settled.commandID == cmd.id && settled.resource == cmd.resource &&
      settled.action = cmd.action && settled.originalInvocationJoined &&
      o.state = cmd.goal result && cmd.issuedAt ≤ o.observedAt

/-- The observation that the inventory of a worker is. -/
def WorkerSnapshot.observation : ExecutorActivityObservation :=
  ⟨w.observedAt, w.epoch, w.complete, w.closed, w.jobs.countP (·.2 ≠ .finished)⟩

/-- The pending job that the iteration over the jobs comes to first. -/
def firstPending (s : ExecutorActivityState) (first : String) : Option String :=
  let pending := s.jobs.rows.filter (·.2.pending)
  ((pending.find? (·.1 = first)).or pending.head?).map (·.1)

namespace Controller

variable (c : Controller)

/-- The transaction that a pass submits. -/
def reducer (random : Option String) : Phase → Option Reducer
  | .start => if c.binding.enabled && c.installed &&
      (validatePowerBinding c.binding).toOption.isSome then some (.bind c) else none
  | .observed o => some (.confirm c.policy o)
  | .joined o cmd result => some (.settle c.policy o cmd result)
  | .starting o => random.map (.start c o)
  | .uninspected => some (.unknownInventory c.policy)
  | .inspected o w => some (.inventory c.policy o w)
  | .admitting w id _ => some (.admission c.policy w id)
  | .quiet o => some (.observe c.policy o random)
  | .stopping id o => some (.stop c o id)
  | _ => none

/-- After the provider's observation was confirmed. -/
def confirmed (o : PowerSnapshot) (s : ExecutorActivityState) : Phase :=
  match s.power with
  | some cmd =>
    if cmd.resource ≠ c.binding.resource then
      .finished "recovery_pending" (some (.refused "pending command resource changed"))
    else .settling o cmd
  | none =>
    if s.stop.any (·.stage = .possibleSend) then .finished "recovery_pending" none
    else if (0 < executorActiveTasks s s.updatedAt ∨ 0 < activeJobs s) ∧ o.state = .stopped then
      .starting o
    else if o.state ≠ .running then .finished "waiting_provider" none
    else .inspecting o

/-- After the inventory of the worker was recorded. -/
def inventoried (w : WorkerSnapshot) (first : String) (s : ExecutorActivityState) : Phase :=
  match firstPending s first with
  | some id =>
    if !w.ready then .finished "waiting_ready" none
    else if w.closed || w.epoch ≠ s.epoch then .opening s.epoch
    else .admitting w id s.epoch
  | none =>
    match s.stop with
    | none => .quiet w.observation
    | some stop =>
      if !w.closed || w.epoch ≠ stop.epoch then .closing stop.epoch
      else .stopping stop.id w.observation

/-- After a transaction of the pass has replied with the record `s`. -/
def replied (random : Option String) (first : String) (s : ExecutorActivityState) :
    Phase → Phase
  | .start =>
    if s.pinnedPolicy = some c.policy then .bound
    else .finished "hold"
      (some (.refused "controller differs from operator activity policy"))
  | .observed o => c.confirmed o s
  | .joined .. => .finished "settled" none
  | .starting _ => .sending (c.command .start (random.getD "") s.updatedAt)
  | .uninspected => .finished "inventory_unknown" none
  | .inspected _ w => inventoried w first s
  | .admitting w id epoch => .admitted id epoch w.bootID
  | .quiet _ => .finished "observed" none
  | .stopping id _ => .sending (c.command .stop id s.updatedAt)
  | phase => phase

/-- After a transaction of the pass has failed. -/
def failed (e : ActivityError) : Phase → Phase
  | .joined .. => .finished "settled" (some e)
  | .uninspected => .finished "inventory_unknown" (some e)
  | .quiet _ => .finished "observed" (some e)
  | _ => .finished "hold" (some e)

/-- A pass that has nothing to submit: it is disabled, or has no random identifier. -/
def unsubmitted : Phase → Phase
  | .start =>
    if c.binding.enabled && c.installed then
      .finished "hold" (some (match validatePowerBinding c.binding with
        | .error e => e
        | .ok _ => .external))
    else .finished "disabled" (some (.refused "executor controller disabled or unbound"))
  | .starting _ => .finished "hold" (some .external)
  | phase => phase

/-- After the provider was asked for its state. -/
def powerObserved : Option PowerSnapshot → Phase
  | some o =>
    if o.resource = c.binding.resource then .observed o
    else .finished "hold" (some (.refused "exact provider observation unavailable"))
  | none => .finished "hold" (some (.refused "exact provider observation unavailable"))

/-- After the worker was asked for its inventory. -/
def workerObserved (o : PowerSnapshot) : Option WorkerSnapshot → Phase
  | some w =>
    if w.complete && w.resource == o.resource && w.bootID != "" && w.bootID == o.bootID then
      .inspected o w
    else .uninspected
  | none => .uninspected

end Controller

/-- After the provider was asked how a command ended. -/
def settlementQueried (reply : Option PowerSettlement) : Phase :=
  match reply.bind (settlementResult o cmd) with
  | some result => .joined o cmd result
  | none => .finished "recovery_pending" none

/-- After a call to the provider or the worker. -/
def called (failure : Option ActivityError) : Phase → Phase
  | .opening _ => .finished "opening_admission" failure
  | .closing _ => .finished "draining" failure
  | .admitted .. =>
    .finished (if failure.isSome then "admission_unknown" else "job_admitted") failure
  | .sending cmd => .finished (match cmd.action with
    | .start => "start_requested"
    | .stop => "stop_requested") failure
  | phase => phase

/-! ## The system -/

/-- The stored row, and the passes of all controllers. -/
structure System where
  row : Option ActivityRow
  passes : ℕ → Phase

/-- A workflow operation, or a move of a pass. -/
inductive Event
  | workflow (account : Account) (attempt : Attempt) (operation : WorkflowOperation)
      (owner : String) (request : WorkflowRequest)
  | move (k : ℕ) (m : Move)

/-- The row after a transaction, and what its caller learns. -/
def transact (account : Account) (attempt : Attempt) (r : Reducer) (row : Option ActivityRow) :
    Option ActivityRow × Except ActivityError ExecutorActivityState :=
  match runPostgres account attempt.now attempt.refusal
      (fun s => r.apply account.policy attempt.now s) row with
  | .error e => (row, .error e)
  | .ok next =>
    match attempt.delivery with
    | .replied => (some next, .ok next.state)
    | .lost => (some next, .error (.refused "executor activity commit outcome unknown"))
    | .failed => (row, .error (.refused "executor activity commit outcome unknown"))

section

variable (controllers : ℕ → Controller)

variable (s : System)

/-- The transaction that an event submits. -/
def System.submits : Event → Option (Account × Attempt × Reducer)
  | .workflow account attempt operation owner request =>
    some (account, attempt, .workflow operation owner request)
  | .move k (.transact attempt random _) =>
    ((controllers k).reducer random (s.passes k)).map ((controllers k).account, attempt, ·)
  | _ => none

/-- The row after an event. -/
def System.nextRow (e : Event) : Option ActivityRow :=
  match s.submits controllers e with
  | none => s.row
  | some (account, attempt, r) => (transact account attempt r s.row).1

/-- Where a move leaves a pass. A move that does not fit the phase does nothing. -/
def Controller.next (c : Controller) (row : Option ActivityRow) (phase : Phase) : Move → Phase
  | .transact attempt random first =>
    match c.reducer random phase with
    | none => c.unsubmitted phase
    | some r =>
      match (transact c.account attempt r row).2 with
      | .ok s => c.replied random first s phase
      | .error e => Controller.failed e phase
  | .observePower reply =>
    match phase with
    | .bound => c.powerObserved reply
    | phase => phase
  | .querySettlement reply =>
    match phase with
    | .settling o cmd => settlementQueried o cmd reply
    | phase => phase
  | .observeWorker reply =>
    match phase with
    | .inspecting o => Controller.workerObserved o reply
    | phase => phase
  | .call _ failure => called failure phase

/-- The record and the passes after an event. -/
def System.advance (e : Event) : System where
  row := s.nextRow controllers e
  passes :=
    match e with
    | .workflow .. => s.passes
    | .move k m => Function.update s.passes k ((controllers k).next s.row (s.passes k) m)

/-- The events of a run of the system. -/
def Advances (e : Event) (s' : System) : Prop := s' = s.advance controllers e

end

variable (s : System)

/-- The command that an event sends for execution. -/
def System.executes : Event → Option PowerCommand
  | .move k (.call true _) =>
    match s.passes k with
    | .sending cmd => some cmd
    | _ => none
  | _ => none

/-- The job that an event hands to the worker. -/
def System.admits : Event → Option String
  | .move k (.call true _) =>
    match s.passes k with
    | .admitted id _ _ => some id
    | _ => none
  | _ => none

/-- The command whose original invocation an event reports as joined. -/
def System.joins : Event → Option String
  | .move k (.querySettlement (some settled)) =>
    match s.passes k with
    | .settling _ _ =>
      if settled.originalInvocationJoined then some settled.commandID else none
    | _ => none
  | _ => none

/-- The record of the scope. -/
def System.state? : Option ExecutorActivityState := s.row.map (·.state)

/-- The run of a sequence of events. -/
def execute (controllers : ℕ → Controller) (ε : ℕ → Event) (s : System) : ℕ → System
  | 0 => s
  | n + 1 => (execute controllers ε s n).advance controllers (ε n)

theorem isRun_execute (controllers : ℕ → Controller) (ε : ℕ → Event) (s : System) :
    IsRun (Advances controllers) (execute controllers ε s) ε := fun _ => rfl

/-- Nothing is stored, and every pass is yet to begin. -/
def System.initial : System := ⟨none, fun _ => .start⟩

end Yggdrasil.Executor
