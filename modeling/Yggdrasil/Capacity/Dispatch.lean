import Yggdrasil.Capacity.Dispatch.Envelope
import Yggdrasil.Lib.Run
import Yggdrasil.Lib.Table

/-!
# Dispatch jobs

The durable queue of capacity workflows (`Tables`): the jobs with their leases, the wakes that were
coalesced into them, and the workflow runs they own. Each operation is one transaction, made by any
worker with any arguments. What it takes from the clock, the catalog, the locks and its context is
its environment (`Env`), and is arbitrary at every call. Other code may rewrite the workflow runs
between two transactions (`Step.rewrite`).
-/

namespace Yggdrasil.Capacity.Dispatch

open Check

/-! ## Tables -/

/-- A dimension of a realm: what at most one job is active in. -/
structure Scope where
  realm : String
  environment : String
  domain : String
  dimension : String
  deriving DecidableEq

/-- The dimension that an envelope is for. -/
def CapacityDispatchEnvelope.scope (e : CapacityDispatchEnvelope) : Scope :=
  ⟨e.realm, e.environment, e.domain, e.dimension⟩

/-- How far a job has come. -/
inductive JobState
  | queued
  | started
  | unknown
  | returned
  deriving DecidableEq

/-- The columns of a job. The instant of its last update is never read. -/
structure JobColumns where
  id : String
  runID : String
  protocol : String
  scope : Scope
  sourceTick : String
  envelope : String
  envelopeSHA256 : String
  state : JobState := .queued
  leaseOwner : Option String := none
  fencingToken : ℤ := 0
  leaseExpiresAt : Option ℤ := none
  startedAt : Option ℤ := none
  returnedAt : Option ℤ := none
  pendingWakeCount : ℕ := 1
  returnStatus : Option String := none
  returnError : Option String := none
  finalizationError : Option String := none
  finalizationAckAt : Option ℤ := none
  createdAt : ℤ

namespace JobColumns

/-- A text of at most `n` characters that is not empty. -/
def bounded (s : String) (n : ℕ) : Bool := 1 ≤ s.length && s.length ≤ n

variable (c : JobColumns)

/-- The instants that a state has. -/
def lifecycle : Bool :=
  match c.state with
  | .queued => c.startedAt.isNone && c.returnedAt.isNone
  | .started => c.startedAt.isSome && c.returnedAt.isNone
  | .unknown => c.startedAt.isSome
  | .returned => c.startedAt.isSome && c.returnedAt.isSome

/-- A lease has an owner, a deadline and a positive fence, or none of them. -/
def leased : Bool :=
  (c.leaseOwner.isNone && c.leaseExpiresAt.isNone && c.fencingToken == 0) ||
    (c.leaseOwner.isSome && c.leaseExpiresAt.isSome && 0 < c.fencingToken)

/-- The checks of the table. -/
def checks : Bool :=
  capacityDispatchDigest c.envelopeSHA256 && 0 ≤ c.fencingToken &&
    c.fencingToken ≤ 9007199254740991 && 1 ≤ c.pendingWakeCount && c.pendingWakeCount ≤ 32 &&
    bounded c.protocol 128 && bounded c.scope.realm 64 && bounded c.scope.environment 128 &&
    bounded c.scope.domain 128 && bounded c.scope.dimension 128 && bounded c.sourceTick 256 &&
    c.envelope.utf8ByteSize ≤ 16384 && c.leased && c.lifecycle &&
    (c.returnedAt.isNone || c.startedAt.isSome) &&
    (c.finalizationAckAt.isNone || (c.state == .returned && c.returnedAt.isSome))

/-- The job holds its dimension: a return holds it until it is acknowledged. -/
def active : Bool :=
  match c.state with
  | .returned => c.finalizationAckAt.isNone
  | _ => true

/-- The columns that never change. -/
def identity : String × String × String × Scope × String × String × String × ℤ :=
  (c.id, c.runID, c.protocol, c.scope, c.sourceTick, c.envelope, c.envelopeSHA256, c.createdAt)

/-- Who holds the claim, under which token and until when. -/
def lease : Option String × ℤ × Option ℤ :=
  (c.leaseOwner, c.fencingToken, c.leaseExpiresAt)

end JobColumns

/-- A row of the jobs. -/
structure JobRow extends JobColumns where
  valid : toJobColumns.checks = true

/-- Jobs are stored by their id. -/
def JobRow.key (r : JobRow) : String := r.id

/-- A tick of a dimension, and the job it was coalesced into. -/
structure WakeRow where
  scope : Scope
  sourceTick : String
  jobID : String

/-- A tick wakes a dimension once. -/
def WakeRow.key (w : WakeRow) : Scope × String := (w.scope, w.sourceTick)

/-- The statuses of a workflow run. -/
inductive RunStatus
  | pending
  | running
  | succeeded
  | failed
  | cancelled
  deriving DecidableEq

/-- A row of the workflow runs, with inputs and metadata as canonical JSON. -/
structure WorkflowRun where
  id : String
  workflowNamespace : String
  workflowName : String
  workflowVersion : Option ℤ
  status : RunStatus := .pending
  inputs : Option String
  metadata : Option String
  result : Option String := none
  error : Option String := none
  startedAt : Option ℤ := none
  finishedAt : Option ℤ := none

/-- The tables of the queue, and that of the runs. -/
structure Tables where
  jobs : Table JobRow.key
  wakes : Table WakeRow.key
  runs : Table WorkflowRun.id

/-- A start: the state is queued, and the lease has not expired. -/
def startAllowed (clock : ℤ) (old new : JobColumns) : Bool :=
  old.protocol == capacityDispatchProtocol && old.state == .queued && new.state == .started &&
    new.leaseOwner.isSome &&
    new.leaseExpiresAt.any fun deadline => clock < deadline && new.startedAt.all (· < deadline)

/-- A claim of a queued job: the lease has expired, and the fence is the next one. -/
def claimAllowed (clock : ℤ) (old new : JobColumns) : Bool :=
  old.protocol == capacityDispatchProtocol && old.state == .queued && new.state == .queued &&
    new.startedAt.isNone && new.fencingToken == old.fencingToken + 1 && new.leaseOwner.isSome &&
    new.leaseExpiresAt.any (clock < ·) && old.leaseExpiresAt.all (· ≤ clock)

/-- The trigger of the jobs: whether the update of `old` to `new` may pass. -/
def guardCapacityDispatchJob (clock : ℤ) (old new : JobColumns) : Bool :=
  new.identity == old.identity &&
    (old.startedAt.isNone || (new.startedAt == old.startedAt && new.lease == old.lease)) &&
    (old.startedAt.isSome || new.startedAt.isNone || startAllowed clock old new) &&
    (old.startedAt.isSome || new.lease == old.lease || claimAllowed clock old new) &&
    old.pendingWakeCount ≤ new.pendingWakeCount &&
    new.pendingWakeCount ≤ old.pendingWakeCount + 1 &&
    (old.returnedAt.isNone || (new.returnedAt == old.returnedAt &&
      new.returnStatus == old.returnStatus && new.returnError == old.returnError)) &&
    (old.finalizationAckAt.isNone || (new.finalizationAckAt == old.finalizationAckAt &&
      new.state == old.state)) &&
    (old.finalizationAckAt.isSome || new.finalizationAckAt.isNone ||
      (old.state == .returned && old.returnedAt.isSome && new.state == .returned &&
        old.leaseExpiresAt.all (clock < ·))) &&
    (match old.state with
      | .returned => new.state == .returned || new.state == .unknown
      | .unknown => new.state == .unknown
      | .started => new.state != .queued
      | .queued => true)

/-- No other row that is active holds the dimension of `row`. -/
def scopeFree (jobs : Table JobRow.key) (row : JobRow) : Bool :=
  !row.active || jobs.rows.all fun r => r.id == row.id || !r.active || r.scope != row.scope

/-- Writes `new` over the row `old`, if the checks, the trigger and the index let it. -/
def updateJob (refusal : DispatchError) (clock : ℤ) (old : JobRow) (new : JobColumns)
    (t : Tables) : Except DispatchError Tables :=
  if h : new.checks = true then do
    require (guardCapacityDispatchJob clock old.toJobColumns new && scopeFree t.jobs ⟨new, h⟩)
      refusal
    .ok { t with jobs := t.jobs.set ⟨new, h⟩ }
  else .error refusal

/-- Inserts a job, which the checks, the keys and the unique index must let pass. -/
def insertJob (new : JobColumns) (t : Tables) : Except DispatchError Tables :=
  if h : new.checks = true then do
    require (t.jobs.rows.all (·.runID != new.runID) && scopeFree t.jobs ⟨new, h⟩) .envelope
    match t.jobs.insert? ⟨new, h⟩ with
    | none => .error .envelope
    | some jobs => .ok { t with jobs }
  else .error .envelope

/-- The tick is stored as a wake of the job. -/
def insertCapacityDispatchWake (e : CapacityDispatchEnvelope) (jobID : String) (t : Tables) :
    Except DispatchError Tables :=
  match t.wakes.insert? ⟨e.scope, e.sourceTick, jobID⟩ with
  | none => .error .envelope
  | some wakes => .ok { t with wakes }

/-! ## Environment -/

/-- An error of the language, as far as it is told apart. -/
structure GoError where
  canceled : Bool := false
  deadlineExceeded : Bool := false

/-- Several errors as one. -/
def GoError.join : Option GoError → Option GoError → Option GoError
  | none, e => e
  | e, none => e
  | some a, some b =>
    some ⟨a.canceled || b.canceled, a.deadlineExceeded || b.deadlineExceeded⟩

/-- A row of the catalog, and what is read of the spec of a capacity policy. -/
structure ManifestRow where
  id : String
  kind : String
  ns : String
  name : String
  version : ℤ
  checksum : String
  active : Bool
  spec : Option (Option Bool) := some none

/-- What a transaction finds: the clock, the catalog, locked jobs, failures of its context. -/
structure Env where
  clock : ℕ → ℤ
  manifests : List ManifestRow
  locked : String → Bool
  context : ℕ → Option GoError

/-- A job with its envelope read. -/
structure CapacityDispatchJob extends CapacityDispatchEnvelope where
  envelopeSHA256 : String
  state : JobState
  leaseOwner : String
  fencingToken : ℤ
  leaseExpiresAt : Option ℤ
  startedAt : Option ℤ
  returnedAt : Option ℤ
  finalizationAckAt : Option ℤ
  pendingWakeCount : ℕ

/-! ## Reads -/

section Reads

variable (codec : Codec)

/-- The job of a row whose text is the envelope `e`. -/
def JobRow.job (r : JobRow) (e : CapacityDispatchEnvelope) : CapacityDispatchJob where
  toCapacityDispatchEnvelope := e
  envelopeSHA256 := r.envelopeSHA256
  state := r.state
  leaseOwner := r.leaseOwner.getD nilUUID
  fencingToken := r.fencingToken
  leaseExpiresAt := r.leaseExpiresAt
  startedAt := r.startedAt
  returnedAt := r.returnedAt
  finalizationAckAt := r.finalizationAckAt
  pendingWakeCount := r.pendingWakeCount

/-- The columns of a row repeat its envelope `e`, whose text it has. -/
def rowMatches (r : JobRow) (e : CapacityDispatchEnvelope) : Bool :=
  (encodeCapacityDispatchEnvelope codec e).toOption == some r.envelope && e.jobID == r.id &&
    e.runID == r.runID && e.protocol == r.protocol && e.scope == r.scope &&
    e.sourceTick == r.sourceTick

/-- The job of a row, whose envelope must be the one that the row was made from. -/
def decodeJob (r : JobRow) : Except DispatchError CapacityDispatchJob :=
  match codec.decodeEnvelope r.envelope with
  | none => .error .envelope
  | some e => do
    require (codec.sha256 r.envelope == r.envelopeSHA256) .envelope
    require (rowMatches codec r e) .envelope
    .ok (r.job e)

/-- The job with an id. -/
def readCapacityDispatchJob (t : Tables) (id : String) :
    Except DispatchError CapacityDispatchJob :=
  match t.jobs.get? id with
  | none => .error .claim
  | some r => decodeJob codec r

/-- The claim that `b` stands for is the one that `a` has now. -/
def sameCapacityDispatchClaim (a b : CapacityDispatchJob) : Bool :=
  ((encodeCapacityDispatchEnvelope codec b.toCapacityDispatchEnvelope).toOption.any fun raw =>
      codec.sha256 raw == a.envelopeSHA256) &&
    a.envelopeSHA256 == b.envelopeSHA256 && a.jobID == b.jobID && a.runID == b.runID &&
    a.leaseOwner != nilUUID && a.leaseOwner == b.leaseOwner && 0 < a.fencingToken &&
    a.fencingToken == b.fencingToken && a.leaseExpiresAt.isSome &&
    a.leaseExpiresAt == b.leaseExpiresAt

/-- The claim has not expired, and the job is queued, or started where that is allowed. -/
def liveCapacityDispatchClaim (job : CapacityDispatchJob) (now : ℤ) (allowStarted : Bool) : Bool :=
  job.protocol == capacityDispatchProtocol && job.leaseExpiresAt.any (now < ·) &&
    ((job.state == .queued && job.startedAt.isNone) ||
      (allowStarted && job.state == .started && job.startedAt.isSome && job.returnedAt.isNone))

/-- The catalog has the exact revision that a pin names, and it is in force. -/
def pinCurrent (manifests : List ManifestRow) (kind : String)
    (pin : CapacityDispatchManifestPin) : Bool :=
  manifests.any fun m => m.id == pin.id && m.kind == kind && m.ns == pin.ns &&
    m.name == pin.name && m.version == pin.version && m.checksum == pin.checksum && m.active

/-- The run is where the state of its job says it is. -/
def runFollows (job : CapacityDispatchJob) (run : WorkflowRun) : Bool :=
  match job.state with
  | .queued => run.status == .pending && run.startedAt.isNone
  | .started => run.status == .running && run.startedAt.isSome && run.startedAt == job.startedAt
  | .returned => (run.status == .succeeded || run.status == .failed) && run.startedAt.isSome &&
      run.startedAt == job.startedAt && run.finishedAt.isSome && run.finishedAt == job.returnedAt
  | .unknown => true

/-- The run carries what the envelope was admitted with. -/
def runCarries (job : CapacityDispatchJob) (run : WorkflowRun) : Bool :=
  run.workflowNamespace == job.workflow.ns && run.workflowName == job.workflow.name &&
    run.workflowVersion == some job.workflow.version &&
    capacityDispatchEnvelopeHashes codec run.inputs run.metadata ==
      some (job.inputsSHA256, job.metadataSHA256)

/-- Every catalog revision that the job was admitted with is still in force. -/
def pinsCurrent (manifests : List ManifestRow) (job : CapacityDispatchJob) : Bool :=
  pinCurrent manifests "capacity_policy" job.policy &&
    pinCurrent manifests "workflow" job.workflow && pinCurrent manifests "rbac" job.rbac &&
    job.authorizationPolicy.all (pinCurrent manifests "policy")

/-- The run and the catalog are still those of the original request. -/
def checkCapacityDispatchOriginal (env : Env) (t : Tables) (job : CapacityDispatchJob) : Bool :=
  ((t.runs.get? job.runID).any fun run => runFollows job run && runCarries codec job run) &&
    pinsCurrent env.manifests job

end Reads

/-! ## Transactions -/

section Transactions

variable (codec : Codec) (env : Env)

/-- The reply to an enqueue: the job of the tick, and whether it was there before. -/
structure Enqueued where
  job : CapacityDispatchJob
  coalesced : Bool

variable (e : CapacityDispatchEnvelope)

/-- Counts a tick with the job that is active in its dimension. -/
def coalesce (row : JobRow) (t : Tables) : Except DispatchError (Tables × Enqueued) :=
  match decodeJob codec row with
  | .error _ => .error .envelope
  | .ok job => do
    require (job.protocol == capacityDispatchProtocol) .envelope
    require (job.pendingWakeCount < maxCapacityDispatchPendingWakes) .saturated
    let t ← updateJob .envelope (env.clock 0) row
      { row.toJobColumns with pendingWakeCount := row.pendingWakeCount + 1 } t
    let t ← insertCapacityDispatchWake e job.jobID t
    .ok (t, ⟨{ job with pendingWakeCount := job.pendingWakeCount + 1 }, true⟩)

/-- The run of an envelope, before it has started. -/
def pendingRun : WorkflowRun where
  id := e.runID
  workflowNamespace := e.workflow.ns
  workflowName := e.workflow.name
  workflowVersion := some e.workflow.version
  inputs := e.inputs
  metadata := codec.metadataJSON e.metadata

/-- The columns of a new job with the durable text `raw`. -/
def queuedJob (raw : String) : JobColumns where
  id := e.jobID
  runID := e.runID
  protocol := e.protocol
  scope := e.scope
  sourceTick := e.sourceTick
  envelope := raw
  envelopeSHA256 := codec.sha256 raw
  createdAt := env.clock 0

/-- The first job of a dimension in which none is active, with its run. -/
def createJob (raw : String) (t : Tables) : Except DispatchError (Tables × Enqueued) :=
  match t.runs.insert? (pendingRun codec e) with
  | none => .error .envelope
  | some runs => do
    let t ← insertJob (queuedJob codec env e raw) { t with runs }
    let t ← insertCapacityDispatchWake e e.jobID t
    .ok (t, ⟨⟨e, codec.sha256 raw, .queued, nilUUID, 0, none, none, none, none, 1⟩, false⟩)

/-- A wake joins the job that waits in its dimension, or makes one. -/
def enqueueCapacityDispatch (t : Tables) : Except DispatchError (Tables × Enqueued) := do
  require (env.context 0).isNone .envelope
  let raw ← encodeCapacityDispatchEnvelope codec e
  match t.wakes.get? (e.scope, e.sourceTick) with
  | some wake => do
    let job ← readCapacityDispatchJob codec t wake.jobID
    .ok (t, ⟨job, true⟩)
  | none =>
    match t.jobs.rows.find? fun r => r.scope = e.scope && r.active with
    | some row => coalesce codec env e row t
    | none => createJob codec env e raw t

/-- The catalog has the revision of a pin, as the query for claimable jobs asks for it. -/
def pinActive (manifests : List ManifestRow) (kind : String)
    (pin : CapacityDispatchManifestPin) : Bool :=
  manifests.any fun m => m.id == pin.id && m.kind == kind && m.active && m.checksum == pin.checksum

/-- The query for claimable jobs: never started, the lease over, run and pins untouched. -/
def claimable (realm environment : String) (t : Tables) (r : JobRow) : Bool :=
  r.scope.realm == realm && r.scope.environment == environment &&
    r.protocol == capacityDispatchProtocol && r.state == .queued && r.startedAt.isNone &&
    r.leaseExpiresAt.all (· ≤ env.clock 0) &&
    ((t.runs.get? r.runID).any fun run => run.status == .pending && run.startedAt.isNone) &&
    ((codec.decodeEnvelope r.envelope).any fun e =>
      pinActive env.manifests "capacity_policy" e.policy &&
        pinActive env.manifests "workflow" e.workflow && pinActive env.manifests "rbac" e.rbac &&
        e.authorizationPolicy.all (pinActive env.manifests "policy")) &&
    !env.locked r.id

/-- The order of the queue. -/
def earlier (a b : JobRow) : Bool :=
  a.createdAt < b.createdAt || (a.createdAt == b.createdAt && a.id < b.id)

/-- The earliest of some jobs. -/
def earliest : List JobRow → Option JobRow
  | [] => none
  | r :: rs =>
    match earliest rs with
    | none => some r
    | some s => if earlier s r then some s else some r

/-- The time that a claim is granted: a job of the Guest source protocol gets five minutes. -/
def grantedLease (job : CapacityDispatchJob) (lease : ℤ) : Except DispatchError ℤ :=
  match env.manifests.find? fun m => m.id = job.policy.id && m.checksum = job.policy.checksum &&
      m.active with
  | none => .error .claim
  | some m =>
    match m.spec with
    | none => .error .claim
    | some none => .ok lease
    | some (some valid) => do
      require valid .claim
      .ok (300 * Instant.second)

/-- The columns of a claimed job. The deadline has the precision of microseconds. -/
def claimedJob (row : JobRow) (owner : String) (lease : ℤ) : JobColumns :=
  { row.toJobColumns with
    leaseOwner := some owner
    fencingToken := row.fencingToken + 1
    leaseExpiresAt := some (env.clock 1 + lease / 1000 * 1000) }

/-- The earliest job that can be claimed is leased to the owner. -/
def claimCapacityDispatch (realm environment owner : String) (lease : ℤ) (t : Tables) :
    Except DispatchError (Tables × CapacityDispatchJob) := do
  require (owner != nilUUID && capacityDispatchText realm 64 &&
    capacityDispatchText environment 128 && Instant.second ≤ lease &&
    lease ≤ 300 * Instant.second && (env.context 0).isNone) .claim
  match earliest (t.jobs.rows.filter (claimable codec env realm environment t)) with
  | none => .error .claim
  | some row =>
    match decodeJob codec row with
    | .error _ => .error .claim
    | .ok job => do
      require (checkCapacityDispatchOriginal codec env t job) .claim
      let lease ← grantedLease env job lease
      require (row.fencingToken < 9007199254740991) .claim
      let next := claimedJob env row owner lease
      let t ← updateJob .claim (env.clock 2) row next t
      .ok (t, { job with
        leaseOwner := owner
        fencingToken := next.fencingToken
        leaseExpiresAt := next.leaseExpiresAt })

/-- The rows of `runs` with `id` and `p` become `f` of them: `none` when there is none. -/
def updateRun (runs : Table WorkflowRun.id) (id : String) (p : WorkflowRun → Bool)
    (f : WorkflowRun → WorkflowRun) : Option (Table WorkflowRun.id) :=
  match runs.get? id with
  | none => none
  | some run => if p run then some (runs.set { f run with id := run.id }) else none

/-- Marks that the workflow of a claimed job may have started. -/
def startCapacityDispatch (job : CapacityDispatchJob) (t : Tables) :
    Except DispatchError (Tables × CapacityDispatchJob) := do
  require (env.context 0).isNone .claim
  match t.jobs.get? job.jobID with
  | none => .error .claim
  | some row =>
    match decodeJob codec row with
    | .error _ => .error .claim
    | .ok current => do
      let now := env.clock 0
      require (sameCapacityDispatchClaim codec current job &&
        checkCapacityDispatchOriginal codec env t current &&
        liveCapacityDispatchClaim current now false) .claim
      match updateRun t.runs job.runID (fun run => run.status == .pending && run.startedAt.isNone)
          fun run => { run with status := .running, startedAt := some now } with
      | none => .error .claim
      | some runs => do
        let t ← updateJob .claim (env.clock 1) row
          { row.toJobColumns with state := .started, startedAt := some now } { t with runs }
        .ok (t, { current with state := .started, startedAt := some now })

/-! ### Finishing -/

/-- A version of a manifest. -/
structure ManifestReference where
  id : String
  kind : String
  ns : String
  name : String
  version : ℤ

/-- What a workflow returned, with its JSON. -/
structure RunWorkflowResponse where
  workflow : ManifestReference
  status : String
  json : Option String

/-- A return that a worker has observed, and the job it was claimed as. -/
structure Return where
  job : CapacityDispatchJob
  response : RunWorkflowResponse
  returnedAt : ℤ
  runErr : Option GoError

/-- The error that is recorded with a return. -/
def capacityDispatchReturnError (runErr contextErr : Option GoError) (uncertain : Bool) : String :=
  if contextErr.any (·.deadlineExceeded) || runErr.any (·.deadlineExceeded) then
    "capacity dispatch original deadline exceeded"
  else if contextErr.isSome || runErr.any (·.canceled) then
    "capacity dispatch original context refused"
  else if runErr.isSome then
    "capacity dispatch original workflow returned error"
  else if uncertain then
    DispatchError.unknown.message
  else
    ""

/-- The status of a return, as it is compared. -/
def returnStatus (response : RunWorkflowResponse) : String :=
  .ofList ((Text.trimSpace response.status).toList.map codec.toLower)

/-- The statuses with which a run has ended. -/
def terminalStatus (status : String) : Bool :=
  status == "succeeded" || status == "committed" || status == "failed" || status == "cancelled"

/-- The response is of the workflow that the job pins. -/
def returnsWorkflow (job : CapacityDispatchJob) (response : RunWorkflowResponse) : Bool :=
  response.workflow.id == job.workflow.id && response.workflow.ns == job.workflow.ns &&
    response.workflow.name == job.workflow.name &&
    response.workflow.version == job.workflow.version && response.workflow.kind == "workflow"

variable (r : Return)

variable (contextErr : Option GoError)

/-- What is wrong with a return when it is looked at first. -/
def firstDoubt (current : CapacityDispatchJob) (t : Tables) : Bool :=
  contextErr.isSome || (env.context 0).isSome ||
    !liveCapacityDispatchClaim current (env.clock 0) true ||
    !checkCapacityDispatchOriginal codec env t current ||
    r.runErr.any (fun e => e.canceled || e.deadlineExceeded) ||
    !returnsWorkflow current r.response || !terminalStatus (returnStatus codec r.response)

variable (current : CapacityDispatchJob)

/-- Before a return is written the context and the deadline are looked at again. -/
def secondDoubt : Bool :=
  (env.context 1).isSome || !current.leaseExpiresAt.any (env.clock 1 < ·)

/-- The deadline has passed when a return is written. -/
def late : Bool :=
  current.leaseExpiresAt.any (· ≤ env.clock 2)

/-- An error text, or the text of an uncertain return. -/
def orUnknown (message : String) : String :=
  if message = "" then DispatchError.unknown.message else message

/-- The state that the write of a return leaves, which is unknown if it is doubted. -/
structure Verdict where
  uncertain : Bool
  /-- The cause that the job keeps. -/
  returnError : String
  /-- The cause that the run keeps. -/
  runError : String

/-- What is recorded of a return, and whether it is in doubt. -/
def verdict (current : CapacityDispatchJob) (t : Tables) : Verdict :=
  let message := capacityDispatchReturnError r.runErr contextErr
    (firstDoubt codec env r contextErr current t)
  if firstDoubt codec env r contextErr current t then ⟨true, message, orUnknown message⟩
  else if secondDoubt env current then ⟨true, orUnknown message, orUnknown message⟩
  else if late env current then ⟨true, DispatchError.unknown.message, orUnknown message⟩
  else ⟨false, message, message⟩

/-- A return in doubt is unknown. -/
def Verdict.state (v : Verdict) : JobState := if v.uncertain then .unknown else .returned

/-- The status of the run. -/
def Verdict.runStatus (v : Verdict) (r : Return) : RunStatus :=
  let status := returnStatus codec r.response
  if !v.uncertain && r.runErr.isNone && (status == "succeeded" || status == "committed") then
    .succeeded
  else
    .failed

/-- A text, or nothing. -/
def nullIfEmpty (s : String) : Option String := if s = "" then none else some s

/-- A return that the worker has written: the claim it was written under, as it was before. -/
structure FirstCommit where
  current : CapacityDispatchJob
  uncertain : Bool
  state : JobState

/-- What one attempt to write a return finds. -/
inductive Attempt
  /-- The return is written, and must be committed. -/
  | written (t : Tables) (first : FirstCommit)
  /-- The return was written before. -/
  | landed (current : CapacityDispatchJob)

/-- The row carries the exact return, and is not acknowledged. -/
def capacityDispatchFirstCommitLanded (returnedAt : ℤ) : Bool :=
  (current.state == .returned || current.state == .unknown) &&
    current.returnedAt == some returnedAt && current.finalizationAckAt.isNone

/-- Writes the return of the row `row`, which is started. -/
def writeReturn (row : JobRow) (current : CapacityDispatchJob) (t : Tables) : Except DispatchError
    (Tables × FirstCommit) :=
  match r.response.json with
  | none => .error .unknown
  | some json => do
    let v := verdict codec env r contextErr current t
    let t ← updateJob .finishTransient (env.clock 3) row
      { row.toJobColumns with
        state := v.state
        returnedAt := some r.returnedAt
        returnStatus := some (returnStatus codec r.response)
        returnError := nullIfEmpty v.returnError } t
    match updateRun t.runs r.job.runID
        (fun run => (run.status == .running || (v.uncertain && run.status == .cancelled)) &&
          run.startedAt == current.startedAt)
        fun run => { run with
          status := v.runStatus codec r
          result := some json
          error := nullIfEmpty v.runError
          finishedAt := some r.returnedAt } with
    | none => .error .claim
    | some runs => .ok ({ t with runs }, ⟨current, v.uncertain, v.state⟩)

/-- One attempt to write a return, up to its commit. -/
def finishCapacityDispatchFirstCommit (t : Tables) : Except DispatchError Attempt :=
  match t.jobs.get? r.job.jobID with
  -- A row that is not found is reported like a failure to read it.
  | none => .error .finishTransient
  | some row =>
    match decodeJob codec row with
    | .error _ => .error .claim
    | .ok current => do
      require (sameCapacityDispatchClaim codec current r.job && r.returnedAt != 0) .claim
      if current.state = .started then do
        require current.startedAt.isSome .claim
        let (t, first) ← writeReturn codec env r contextErr row current t
        .ok (.written t first)
      else do
        require (capacityDispatchFirstCommitLanded current r.returnedAt) .claim
        .ok (.landed current)

/-- Records that the commit of a return was observed. -/
def acknowledgeCapacityDispatchFinalization (job : CapacityDispatchJob) (t : Tables) :
    Except DispatchError Tables := do
  require (env.context 0).isNone .unknown
  match t.jobs.get? job.jobID with
  | none => .error .unknown
  | some row =>
    match decodeJob codec row with
    | .error _ => .error .unknown
    | .ok current => do
      require (sameCapacityDispatchClaim codec current job && current.state == .returned &&
        current.returnedAt.isSome && current.finalizationAckAt.isNone &&
        checkCapacityDispatchOriginal codec env t current &&
        row.leaseExpiresAt.any (env.clock 0 < ·)) .unknown
      updateJob .unknown (env.clock 2) row
        { row.toJobColumns with finalizationAckAt := some (env.clock 1) } t

/-- Downgrades a return that is not acknowledged. -/
def markCapacityDispatchFinalizationUnknown (job : CapacityDispatchJob) (reason : String)
    (t : Tables) : Except DispatchError Tables :=
  match t.jobs.get? job.jobID, job.startedAt with
  | some row, some startedAt => do
    require (row.runID == job.runID && row.scope.realm == job.realm &&
      row.scope.environment == job.environment && row.envelopeSHA256 == job.envelopeSHA256 &&
      row.leaseOwner == some job.leaseOwner && row.fencingToken == job.fencingToken &&
      job.leaseExpiresAt.isSome && row.leaseExpiresAt == job.leaseExpiresAt &&
      (row.state == .returned || row.state == .unknown) && row.finalizationAckAt.isNone &&
      row.returnedAt.isSome) .claim
    let t ← updateJob .claim (env.clock 0) row
      { row.toJobColumns with state := .unknown, finalizationError := some reason } t
    .ok { t with runs :=
      (updateRun t.runs job.runID (·.startedAt == some startedAt) fun run =>
        { run with status := .failed, error := some reason }).getD t.runs }
  | _, _ => .error .claim

end Transactions

/-! ## Runs -/

/-- The transactions of the queue. -/
inductive Operation
  | enqueue (e : CapacityDispatchEnvelope)
  | claim (realm environment owner : String) (lease : ℤ)
  | start (job : CapacityDispatchJob)
  | finish (r : Return) (contextErr : Option GoError)
  | acknowledge (job : CapacityDispatchJob)
  | markUnknown (job : CapacityDispatchJob) (reason : String)

/-- What a transaction replies. -/
inductive Reply
  | enqueued (reply : Enqueued)
  | job (job : CapacityDispatchJob)
  | written (first : FirstCommit)
  | landed (current : CapacityDispatchJob)
  | done

/-- One transaction: the tables it leaves when it commits, and its reply. -/
def perform (codec : Codec) (operation : Operation) (env : Env) (t : Tables) :
    Except DispatchError (Tables × Reply) :=
  match operation with
  | .enqueue e => do
    let (t, reply) ← enqueueCapacityDispatch codec env e t
    .ok (t, .enqueued reply)
  | .claim realm environment owner lease => do
    let (t, job) ← claimCapacityDispatch codec env realm environment owner lease t
    .ok (t, .job job)
  | .start job => do
    let (t, job) ← startCapacityDispatch codec env job t
    .ok (t, .job job)
  | .finish r contextErr => do
    match ← finishCapacityDispatchFirstCommit codec env r contextErr t with
    | .written t first => .ok (t, .written first)
    | .landed current => .ok (t, .landed current)
  | .acknowledge job => do
    let t ← acknowledgeCapacityDispatchFinalization codec env job t
    .ok (t, .done)
  | .markUnknown job reason => do
    let t ← markCapacityDispatchFinalizationUnknown env job reason t
    .ok (t, .done)

/-- A call that committed, with the reply that its caller got or lost. -/
structure Committed where
  operation : Operation
  env : Env
  reply : Reply

/-- A call commits, or leaves the tables (`none`); other code writes only the workflow runs. -/
inductive Step (codec : Codec) : Tables → Option Committed → Tables → Prop
  | commit {t t' : Tables} {c : Committed} :
      perform codec c.operation c.env t = .ok (t', c.reply) → Step codec t (some c) t'
  | refuse (t : Tables) : Step codec t none t
  | rewrite (t : Tables) (runs : Table WorkflowRun.id) : Step codec t none { t with runs }

/-- A call with its environment, when it commits. -/
def commit (codec : Codec) (call : Operation × Env) (t : Tables) : Option (Tables × Committed) :=
  match perform codec call.1 call.2 t with
  | .ok (t', reply) => some (t', ⟨call.1, call.2, reply⟩)
  | .error _ => none

theorem step_of_commit {codec : Codec} {call : Operation × Env} {t t' : Tables} {c : Committed}
    (h : commit codec call t = some (t', c)) : Step codec t (some c) t' := by
  rw [commit] at h
  split at h
  next hperform =>
    cases h
    exact .commit hperform
  · cases h

/-! ## A small queue -/

namespace Sample

/-- A digest in hexadecimal digits. -/
def digest : String := "0123456789abcdef0123456789abcdef0123456789abcdef0123456789abcdef"

/-- The request of a tick, with a job of its own. -/
def envelope (tick : String) : CapacityDispatchEnvelope where
  protocol := capacityDispatchProtocol
  jobID := "job " ++ tick
  runID := "run " ++ tick
  realm := "ops"
  environment := "prod"
  domain := "web"
  dimension := "guests"
  sourceTick := tick
  policy := ⟨"policy", "ops", "web", 1, digest⟩
  workflow := ⟨"workflow", "ops", "scale", 1, digest⟩
  rbac := ⟨"rbac", "ops", "scale", 1, digest⟩
  authorizationPolicy := none
  machinePrincipalID := "machine"
  principalSHA256 := digest
  bindingSHA256 := digest
  inputs := some "policy web"
  metadata := [(workflowRunCreatorMachinePrincipalMetadataKey, some "machine"),
    ("triggered_by", some "workflow_scheduler"), ("manifest_id", some "workflow"),
    ("scheduled_for", some tick)]
  inputsSHA256 := digest
  metadataSHA256 := digest

/-- An envelope is told by its tick, and there is one digest. -/
def codec : Codec where
  policySelector _ _ := "policy web"
  metadataJSON _ := some "metadata"
  envelopeJSON e := some e.sourceTick
  decodeEnvelope raw := some (envelope raw)
  sha256 _ := digest
  parseUUID s := some s
  toLower c := c

/-- What a call at `s` seconds finds: every pin is in force and nothing is locked. -/
def env (s : ℤ) : Env where
  clock n := s * Instant.second + n
  manifests := [⟨"policy", "capacity_policy", "ops", "web", 1, digest, true, some none⟩,
    ⟨"workflow", "workflow", "ops", "scale", 1, digest, true, some none⟩,
    ⟨"rbac", "rbac", "ops", "scale", 1, digest, true, some none⟩]
  locked _ := false
  context _ := none

/-- The job of the first tick, as the second claim of it replies. -/
def job : CapacityDispatchJob :=
  ⟨envelope "one", digest, .queued, "second", 2, some (140 * Instant.second + 1), none, none,
    none, 2⟩

/-- The return of its workflow. -/
def returned : Return :=
  ⟨job, ⟨⟨"workflow", "workflow", "ops", "scale", 1⟩, "succeeded", some "result"⟩,
    132 * Instant.second, none⟩

/-- The tables are empty. -/
def start : Tables := ⟨.empty, .empty, .empty⟩

/-- Two ticks are coalesced, the job is claimed twice, started, finished and acknowledged. -/
def calls : ℕ → Option (Operation × Env)
  | 0 => some (.enqueue (envelope "one"), env 100)
  | 1 => some (.enqueue (envelope "two"), env 105)
  | 2 => some (.claim "ops" "prod" "first" (10 * Instant.second), env 110)
  | 3 => some (.claim "ops" "prod" "second" (10 * Instant.second), env 130)
  | 4 => some (.start job, env 131)
  | 5 => some (.finish returned none, env 133)
  | 6 => some (.acknowledge { job with state := .started }, env 134)
  | _ => none

end Sample

end Yggdrasil.Capacity.Dispatch
