import Yggdrasil.Capacity.Dispatch.Jobs

/-!
# Finishing calls

A worker that has observed the return of its workflow writes the return until one transaction
commits, and then acknowledges it or marks it unknown in a second one (`Call`). Other workers act
between any two moves, and a commit may land without a reply (`Delivery`). The calls refine the
queue (`step_advance`).
-/

namespace Yggdrasil.Capacity.Dispatch

/-! ## One call -/

/-- What becomes of a transaction that is committed, and what its caller learns of it. -/
inductive Delivery
  | replied
  | lost
  | failed
  deriving DecidableEq

/-- The errors that a call returns, joined. -/
structure Result where
  dispatch : List DispatchError
  other : Option GoError

/-- Where a finishing call is. -/
inductive Phase
  /-- It is about to make an attempt to write the return. -/
  | attempting (attempt : ℕ)
  /-- A commit has failed to reply, and it is about to read the row again. -/
  | unsure (attempt : ℕ)
  /-- It has observed its own commit. -/
  | observed (first : FirstCommit)
  /-- It is about to acknowledge the return. -/
  | releasing (current : CapacityDispatchJob)
  /-- It is about to mark the return unknown, and to return `ok` or `failed`. -/
  | marking (current : CapacityDispatchJob) (reason : String) (ok failed : Result)
  | finished (result : Result)

/-- A finishing call: its return, its context, how long it retries, and where it is. -/
structure Call where
  ret : Return
  contextErr : Option GoError
  stop : ℤ
  minimumAttempts : ℕ
  phase : Phase

/-- A call begins; it retries until `stop`, and at least `minimumAttempts` times. -/
def finishCapacityDispatch (ret : Return) (contextErr : Option GoError) (stop : ℤ)
    (minimumAttempts : ℕ) : Call :=
  ⟨{ ret with returnedAt := ret.returnedAt / 1000 * 1000 }, contextErr, stop, minimumAttempts,
    .attempting 1⟩

namespace Call

variable (c : Call)

/-- After an attempt that did not commit: the next one, unless the time is over. -/
def retry (attempt : ℕ) (now : ℤ) (shutdown : Bool) : Phase :=
  if (c.minimumAttempts ≤ attempt ∧ c.stop ≤ now) ∨ shutdown = true then
    .finished ⟨[.finalizationPending], c.ret.runErr⟩
  else
    .attempting (attempt + 1)

/-- The commit landed, but this call did not observe it: it is never acknowledged. -/
def commitLost (current : CapacityDispatchJob) : Phase :=
  if current.state = .returned then
    .marking current (capacityDispatchReturnError none (some { deadlineExceeded := true }) true)
      ⟨[.unknown], c.ret.runErr⟩ ⟨[.unknown, .claim], c.ret.runErr⟩
  else
    .finished ⟨[.unknown], c.ret.runErr⟩

/-- After an attempt to write the return, of which `delivery` says what became of its commit. -/
def attempted (codec : Codec) (env : Env) (delivery : Delivery) (now : ℤ) (shutdown : Bool)
    (attempt : ℕ) (t : Tables) : Phase :=
  match finishCapacityDispatchFirstCommit codec env c.ret c.contextErr t with
  | .error .finishTransient => c.retry attempt now shutdown
  | .error e => .finished ⟨[e], none⟩
  | .ok (.landed current) => c.commitLost current
  | .ok (.written _ first) => if delivery = .replied then .observed first else .unsure attempt

/-- After a commit that did not reply, from what the row says. -/
def reread (codec : Codec) (now : ℤ) (shutdown : Bool) (attempt : ℕ) (t : Tables) : Phase :=
  match readCapacityDispatchJob codec t c.ret.job.jobID with
  | .error _ => c.retry attempt now shutdown
  | .ok current =>
    if sameCapacityDispatchClaim codec current c.ret.job then
      if current.state = .started ∧ current.returnedAt = none then c.retry attempt now shutdown
      else if capacityDispatchFirstCommitLanded current c.ret.returnedAt then c.commitLost current
      else .finished ⟨[.claim], none⟩
    else .finished ⟨[.claim], none⟩

/-- What the fences that are passed to a call return: one that is nil is an error. -/
def fenceErr (fences : List (Option (Option GoError))) : Option GoError :=
  fences.foldl (fun e fence => match fence with
    | none => some {}
    | some err => GoError.join e err) none

/-- After the observed commit the context has failed, or the deadline has passed. -/
def observedErr (env : Env) (current : CapacityDispatchJob) : Option GoError :=
  GoError.join (env.context 0)
    (if current.leaseExpiresAt.any (env.clock 0 < ·) then none
      else some { deadlineExceeded := true })

/-- After the observed commit, the context and the clock are looked at once more. -/
def checked (env : Env) (fences : List (Option (Option GoError))) (first : FirstCommit) : Phase :=
  let ackErr := observedErr env first.current
  let fenced := GoError.join (fenceErr fences) (env.context 1)
  let mark (e : Option GoError) (ok failed : Option GoError) : Phase :=
    .marking first.current (capacityDispatchReturnError none e true) ⟨[.unknown], ok⟩
      ⟨[.unknown, .claim], failed⟩
  if ackErr.isSome then mark ackErr (GoError.join c.ret.runErr ackErr) ackErr
  else if first.uncertain then .finished ⟨[.unknown], GoError.join c.ret.runErr c.contextErr⟩
  else if fenced.isSome then
    mark fenced (GoError.join c.ret.runErr fenced) (GoError.join c.ret.runErr fenced)
  else .releasing first.current

/-- After the acknowledgement. -/
def released (codec : Codec) (env : Env) (delivery : Delivery) (current : CapacityDispatchJob)
    (t : Tables) : Phase :=
  match acknowledgeCapacityDispatchFinalization codec env current t with
  | .error _ => .finished ⟨[.unknown], c.ret.runErr⟩
  | .ok _ =>
    if delivery = .replied then .finished ⟨[], GoError.join c.ret.runErr (env.context 1)⟩
    else .finished ⟨[.unknown], c.ret.runErr⟩

end Call

/-- What a call does next. -/
inductive Move
  | attempt (env : Env) (delivery : Delivery) (now : ℤ) (shutdown : Bool)
  /-- An attempt, or a read, fails before it has done anything. -/
  | stumble (now : ℤ) (shutdown : Bool)
  | reread (now : ℤ) (shutdown : Bool)
  | check (env : Env) (fences : List (Option (Option GoError)))
  /-- The second transaction: the acknowledgement, or the mark. -/
  | settle (env : Env) (delivery : Delivery)

/-- The transaction that a move submits. -/
def Call.submits (c : Call) : Move → Option (Operation × Env × Delivery)
  | .attempt env delivery _ _ =>
    match c.phase with
    | .attempting _ => some (.finish c.ret c.contextErr, env, delivery)
    | _ => none
  | .settle env delivery =>
    match c.phase with
    | .releasing current => some (.acknowledge current, env, delivery)
    | .marking current reason _ _ => some (.markUnknown current reason, env, delivery)
    | _ => none
  | _ => none

variable (codec : Codec)

/-- Where a move leaves a call. A move that does not fit the phase does nothing. -/
def Call.next (c : Call) (t : Tables) : Move → Phase
  | .attempt env delivery now shutdown =>
    match c.phase with
    | .attempting attempt => c.attempted codec env delivery now shutdown attempt t
    | phase => phase
  | .stumble now shutdown =>
    match c.phase with
    | .attempting attempt | .unsure attempt => c.retry attempt now shutdown
    | phase => phase
  | .reread now shutdown =>
    match c.phase with
    | .unsure attempt => c.reread codec now shutdown attempt t
    | phase => phase
  | .check env fences =>
    match c.phase with
    | .observed first => c.checked env fences first
    | phase => phase
  | .settle env delivery =>
    match c.phase with
    | .releasing current => c.released codec env delivery current t
    | .marking current reason ok failed =>
      match markCapacityDispatchFinalizationUnknown env current reason t with
      | .error _ => .finished failed
      | .ok _ => .finished (if delivery = .replied then ok else failed)
    | phase => phase

/-! ## The system -/

/-- The tables, and the finishing calls of all processes. -/
structure System where
  tables : Tables
  calls : ℕ → Option Call

/-- What happens to the tables and to the finishing calls. -/
inductive Event
  /-- A worker enqueues, claims or starts a job. -/
  | transact (operation : Operation) (env : Env) (delivery : Delivery)
  /-- Other code writes the workflow runs. -/
  | rewrite (runs : Table WorkflowRun.id)
  /-- A finishing call begins, of any return. -/
  | begin (p : ℕ) (ret : Return) (contextErr : Option GoError) (stop : ℤ) (minimumAttempts : ℕ)
  | move (p : ℕ) (m : Move)
  | crash (p : ℕ)

/-- The transactions of a worker before its workflow has returned. -/
def Operation.beforeReturn : Operation → Bool
  | enqueue _ | claim .. | start _ => true
  | _ => false

variable (s : System)

/-- The transaction that an event submits. -/
def Event.submits : Event → Option (Operation × Env × Delivery)
  | transact operation env delivery =>
    if operation.beforeReturn then some (operation, env, delivery) else none
  | move p m => (s.calls p).bind (·.submits m)
  | _ => none

/-- What becomes of the tables, and the commit that lands. -/
def submit (t : Tables) : Operation × Env × Delivery → Tables × Option Committed
  | (_, _, .failed) => (t, none)
  | (operation, env, _) =>
    match commit codec (operation, env) t with
    | none => (t, none)
    | some (t', c) => (t', some c)

/-- The commit that an event makes. -/
def System.committed (e : Event) : Option Committed :=
  (e.submits s).bind fun submission => (submit codec s.tables submission).2

/-- The tables after an event. -/
def System.nextTables (e : Event) : Tables :=
  match e with
  | .rewrite runs => { s.tables with runs }
  | e =>
    match e.submits s with
    | none => s.tables
    | some submission => (submit codec s.tables submission).1

/-- The calls after an event. -/
def System.nextCalls : Event → ℕ → Option Call
  | .begin p ret contextErr stop minimumAttempts =>
    if (s.calls p).isNone then
      Function.update s.calls p (some (finishCapacityDispatch ret contextErr stop minimumAttempts))
    else s.calls
  | .move p m =>
    match s.calls p with
    | none => s.calls
    | some c => Function.update s.calls p (some { c with phase := c.next codec s.tables m })
  | .crash p => Function.update s.calls p none
  | _ => s.calls

/-- The tables and the calls after an event. -/
def System.advance (e : Event) : System :=
  ⟨s.nextTables codec e, s.nextCalls codec e⟩

/-- A run of the system: its states, and the event after each. -/
def Advances (e : Event) (s' : System) : Prop :=
  s' = s.advance codec e

variable {codec : Codec} {s s' : System} {e : Event}

theorem step_submit {t : Tables} {submission : Operation × Env × Delivery} :
    Step codec t (submit codec t submission).2 (submit codec t submission).1 := by
  obtain ⟨operation, env, delivery⟩ := submission
  cases delivery with
  | failed => exact .refuse t
  | replied | lost =>
    cases hcommit : commit codec (operation, env) t with
    | none => simpa [submit, hcommit] using Step.refuse t
    | some result => simpa [submit, hcommit] using step_of_commit hcommit

/-- The calls refine the queue: each event is a step of it. -/
theorem step_advance (codec : Codec) (s : System) (e : Event) :
    Step codec s.tables (s.committed codec e) (s.advance codec e).tables := by
  cases hsubmits : e.submits s with
  | none =>
    have hnone : s.committed codec e = none := by rw [System.committed, hsubmits]; rfl
    rw [hnone, System.advance, System.nextTables.eq_def]
    cases e with
    | rewrite runs => exact .rewrite s.tables runs
    | _ => simpa only [hsubmits] using Step.refuse s.tables
  | some submission =>
    have hsome : s.committed codec e = (submit codec s.tables submission).2 := by
      rw [System.committed, hsubmits]
      rfl
    have htables : s.nextTables codec e = (submit codec s.tables submission).1 := by
      cases e with
      | rewrite runs => cases hsubmits
      | _ => simp only [System.nextTables, hsubmits]
    rw [hsome, System.advance, htables]
    exact step_submit

theorem isRun_tables {σ : ℕ → System} {ε : ℕ → Event} (h : IsRun (Advances codec) σ ε) :
    IsRun (Step codec) (fun n => (σ n).tables) (fun n => (σ n).committed codec (ε n)) := by
  intro n
  have hstep := step_advance codec (σ n) (ε n)
  rw [← h n] at hstep
  exact hstep

/-- The run of a sequence of events. -/
def execute (codec : Codec) (ε : ℕ → Event) (s : System) : ℕ → System
  | 0 => s
  | n + 1 => (execute codec ε s n).advance codec (ε n)

theorem isRun_execute (codec : Codec) (ε : ℕ → Event) (s : System) :
    IsRun (Advances codec) (execute codec ε s) ε := fun _ => rfl

namespace Sample

/-- No jobs and no calls. -/
def system : System := ⟨start, fun _ => none⟩

/-- A worker starts the job of two ticks, and then the finishing call goes on as given. -/
def events (finishing : ℕ → Event) (n : ℕ) : Event :=
  if n < 5 then
    match calls n with
    | some (operation, env) => .transact operation env .replied
    | none => .crash 0
  else finishing (n - 5)

/-- The finishing call of the job. -/
def call : Call := finishCapacityDispatch returned none (200 * Instant.second) 3

/-- The commit of the return is observed, and acknowledged in time. -/
def observing : ℕ → Event
  | 0 => .begin 0 returned none (200 * Instant.second) 3
  | 1 => .move 0 (.attempt (env 133) .replied 0 false)
  | 2 => .move 0 (.check (env 134) [])
  | 3 => .move 0 (.settle (env 135) .replied)
  | _ => .crash 0

/-- The commit of the return loses its reply, and the mark does not commit. -/
def losing : ℕ → Event
  | 0 => .begin 0 returned none (200 * Instant.second) 3
  | 1 => .move 0 (.attempt (env 133) .lost 0 false)
  | 2 => .move 0 (.reread 0 false)
  | 3 => .move 0 (.settle (env 134) .failed)
  | _ => .crash 0

end Sample

end Yggdrasil.Capacity.Dispatch
