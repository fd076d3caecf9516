import Yggdrasil.Executor.Controller

/-!
# What the transactions of an executor do

Each reducer that passes has one of the outcomes of `Outcome`. A committed transaction is an outcome
between two checked records (`Commit`), and `System.acquires_of_advance` says how the three phases
are entered on which the safety of the controller rests.
-/

namespace Yggdrasil.Executor

open Check

variable {p q : ExecutorActivityPolicy} {now : ℤ} {s s' : ExecutorActivityState} {r : Reducer}
  {o : ExecutorActivityObservation} {id : String} {text owner : String} {cmd : PowerCommand}
  {w : WorkerSnapshot} {k : ℕ} {random : Option String}

/-! ## Checked records -/

/-- What the checks of a record say, as far as the results use it. -/
structure Valid (p : ExecutorActivityPolicy) (now : ℤ) (s : ExecutorActivityState) : Prop where
  pinned : ∀ q, s.pinnedPolicy = some q → q = p
  bounded : p.bounded = true
  updated : s.updatedAt ≤ now
  history : ∀ entry ∈ s.powerHistory, entry.1 = entry.2.id ∧ entry.2.id ≠ ""

theorem valid_of_validate (h : validateExecutorActivity s p now = .ok ()) : Valid p now s := by
  simp only [validateExecutorActivity, validateRuntimeState, unit_bind_eq_ok, require_eq_ok,
    Bool.and_eq_true, decide_eq_true_eq] at h
  obtain ⟨hpinned, ⟨-, -, -, -, hhistory⟩, hclock, -, -⟩ := h
  refine ⟨fun q hq => ?_, hclock.1.1.1.1.1.1.1.2, hclock.1.1.1.1.2, fun entry hentry => ?_⟩
  · simpa [hq] using hpinned
  · obtain ⟨-, hcheck⟩ := exists_check_of_validateEach hhistory hentry
    simp only [validateHistory, require_eq_ok, Bool.and_eq_true, beq_iff_eq] at hcheck
    have hid : entry.1 = entry.2.id := hcheck.1.1.1.1.1.2
    refine ⟨hid, fun hempty => ?_⟩
    rw [hid, hempty] at hcheck
    exact absurd hcheck.1.1.1.1.1.1 (by decide)

/-! ## Outcomes -/

/-- The record after a quiet observation. -/
def observed (p : ExecutorActivityPolicy) (o : ExecutorActivityObservation) (now : ℤ)
    (s : ExecutorActivityState) : ExecutorActivityState :=
  if quietAt s p o now then
    { s with
      idleSince := if s.idleSince == 0 || s.quietObservedAt == 0 ||
        p.maxObservationAge < Instant.sub o.observedAt s.quietObservedAt then o.observedAt
        else s.idleSince
      quietObservedAt := o.observedAt }
  else { s with idleSince := 0, quietObservedAt := 0 }

/-- The record with a new reservation. -/
def reserved (id : String) (now : ℤ) (s : ExecutorActivityState) : ExecutorActivityState :=
  { s with epoch := s.epoch + 1, stop := some ⟨id, s.epoch + 1, .draining, now, 0⟩ }

/-- The record whose drain may have been sent. -/
def marked (stop : ExecutorStopReservation) (now : ℤ) (s : ExecutorActivityState) :
    ExecutorActivityState :=
  { s with stop := some { stop with stage := .possibleSend, sendAt := now } }

/-- After new demand: an unsent drain cancelled, a lease written and a job queued. -/
structure Demand (s s' : ExecutorActivityState) : Prop where
  power : s'.power = s.power
  history : s'.powerHistory = s.powerHistory
  pinned : s'.pinnedPolicy = s.pinnedPolicy
  stop : s'.stop = s.stop ∨ s'.stop = none
  idle : s'.idleSince = 0
  jobs : s'.jobs = s.jobs ∨ ∃ id job, s.jobs.get? id = none ∧ job.state = .queued ∧
    s'.jobs = s.jobs.upsert (id, job)

/-- What a record and an observation have that are ready for a stop. -/
structure Ready (p : ExecutorActivityPolicy) (now : ℤ) (s : ExecutorActivityState)
    (o : ExecutorActivityObservation) : Prop where
  jobs : activeJobs s = 0
  power : s.power = none
  tasks : executorActiveTasks s now = 0
  complete : o.complete = true
  inventory : o.activeJobs = 0
  idle : s.idleSince ≠ 0
  window : p.idleAfter ≤ Instant.sub now s.idleSince

theorem ready_of_executorQuietReady (h : executorQuietReady s p o now = true) :
    Ready p now s o := by
  simp only [executorQuietReady, executorObservationFresh, Bool.and_eq_true, beq_iff_eq,
    bne_iff_ne, decide_eq_true_eq, Option.isNone_iff_eq_none] at h
  obtain ⟨⟨⟨⟨⟨⟨⟨⟨⟨hjobs, hpower⟩, htasks⟩, hfresh⟩, -⟩, hinventory⟩, hidle⟩, hwindow⟩, -⟩, -⟩ := h
  exact ⟨hjobs, hpower, htasks, hfresh.1.1.1.1, hinventory, hidle, hwindow⟩

/-- What a drain that is marked was acknowledged with. -/
structure Drained (p : ExecutorActivityPolicy) (now : ℤ) (s : ExecutorActivityState)
    (stop : ExecutorStopReservation) (o : ExecutorActivityObservation) : Prop where
  draining : s.stop = some stop
  closed : o.admissionClosed = true
  epoch : o.epoch = stop.epoch
  ready : Ready p now s o

/-- No command is outstanding, and none had the identifier. -/
structure Unused (s : ExecutorActivityState) (id : String) : Prop where
  power : s.power = none
  history : s.powerHistory.get? id = none

/-- The command that a reducer records as ended. -/
def Reducer.settles : Reducer → Option String
  | settle _ _ cmd _ => some cmd.id
  | _ => none

/-- The observation with which a reducer marks a drain as possibly sent. -/
def Reducer.evidence : Reducer → Option ExecutorActivityObservation
  | workflow .prepareExecutorStop _ request => some request.observation
  | stop _ o _ => some o
  | _ => none

/-- What a reducer that passes does to the record. -/
inductive Outcome (p : ExecutorActivityPolicy) (now : ℤ) (r : Reducer) :
    ExecutorActivityState → ExecutorActivityState → Prop
  | same (s : ExecutorActivityState) : Outcome p now r s s
  | bind (s : ExecutorActivityState) (resource : ExactResource) :
      Outcome p now r s { s with boundResource := some resource }
  | demand {s s' : ExecutorActivityState} (h : Demand s s') : Outcome p now r s s'
  | observe (s : ExecutorActivityState) (o : ExecutorActivityObservation) :
      Outcome p now r s (observed p o now s)
  | reserve {s : ExecutorActivityState} (id : String) (o : ExecutorActivityObservation)
      (hstop : s.stop = none) (hready : Ready p now s o) : Outcome p now r s (reserved id now s)
  | observeReserve {s : ExecutorActivityState} (id : String) (o : ExecutorActivityObservation)
      (hstop : s.stop = none)
      (hready : Ready p now (observed p o now s) o) :
      Outcome p now r s (reserved id now (observed p o now s))
  | mark {s : ExecutorActivityState} {stop : ExecutorStopReservation}
      (o : ExecutorActivityObservation) (hr : r.evidence = some o)
      (h : Drained p now s stop o) :
      Outcome p now r s (marked stop now s)
  | start {s : ExecutorActivityState} (cmd : PowerCommand) (hunused : Unused s cmd.id)
      (hstop : s.stop = none) : Outcome p now r s { s with power := some cmd }
  | stop {s : ExecutorActivityState} {stop : ExecutorStopReservation}
      (o : ExecutorActivityObservation) (cmd : PowerCommand)
      (hr : r.evidence = some o) (haction : cmd.action = .stop) (hid : cmd.id = stop.id)
      (hunused : Unused s cmd.id) (h : Drained p now s stop o) :
      Outcome p now r s { marked stop now s with power := some cmd }
  | settleStart {s : ExecutorActivityState} {old : PowerCommand} (cmd : PowerCommand)
      (hr : r.settles = some cmd.id) (hpower : s.power = some old) (hid : old.id = cmd.id) :
      Outcome p now r s
        { s with powerHistory := s.powerHistory.upsert (cmd.id, cmd), power := none }
  | settleStop {s : ExecutorActivityState} {old : PowerCommand} (cmd : PowerCommand)
      (hr : r.settles = some cmd.id) (hpower : s.power = some old) (hid : old.id = cmd.id) :
      Outcome p now r s { s with
        powerHistory := s.powerHistory.upsert (cmd.id, cmd)
        power := none
        epoch := s.epoch + 1
        stop := none
        idleSince := 0
        quietObservedAt := 0 }
  | inventory (s : ExecutorActivityState) (w : WorkerSnapshot) :
      Outcome p now r s { s with jobs := inventoryJobs w s.jobs }
  | admission {s : ExecutorActivityState} (id : String) {job : Job} (bootID : String)
      (hpower : s.power = none) (hstop : s.stop = none) (hjob : s.jobs.get? id = some (id, job))
      (hpending : job.pending = true) :
      Outcome p now r s
        { s with jobs := s.jobs.upsert (id, { job with state := .admitting, bootID }) }

theorem Demand.trans {s₁ s₂ s₃ : ExecutorActivityState} (h₁ : Demand s₁ s₂)
    (hjobs : s₂.jobs = s₁.jobs) (h₂ : Demand s₂ s₃) : Demand s₁ s₃ where
  power := h₂.power.trans h₁.power
  history := h₂.history.trans h₁.history
  pinned := h₂.pinned.trans h₁.pinned
  stop := by
    rcases h₂.stop with h | h
    · rw [h]
      exact h₁.stop
    · exact .inr h
  idle := h₂.idle
  jobs := hjobs ▸ h₂.jobs

theorem cancelDraining_eq_ok (h : cancelDraining text s = .ok s') :
    (s' = s ∨ s' = { s with epoch := s.epoch + 1, stop := none }) := by
  simp only [cancelDraining] at h
  split at h
  · rw [require_bind] at h
    exact .inr (Except.ok.inj h.2).symm
  · exact .inl (Except.ok.inj h).symm

/-- Demand that was written, with or without a drain to cancel. -/
theorem demand_of_cancelDraining {s₀ : ExecutorActivityState} (hdemand : Demand s₀ s)
    (h : cancelDraining text s = .ok s') : Demand s₀ s' := by
  rcases cancelDraining_eq_ok h with rfl | rfl
  · exact hdemand
  · exact { hdemand with stop := .inr rfl }

theorem demand_of_writeLease {e : ExecutorActivityEvent} (h : writeLease p e now s = .ok s') :
    Demand s s' ∧ s'.jobs = s.jobs := by
  simp only [writeLease] at h
  split at h
  · cases h
    exact ⟨⟨rfl, rfl, rfl, .inl rfl, rfl, .inl rfl⟩, rfl⟩
  · rcases cancelDraining_eq_ok h with rfl | rfl
    · exact ⟨⟨rfl, rfl, rfl, .inl rfl, rfl, .inl rfl⟩, rfl⟩
    · exact ⟨⟨rfl, rfl, rfl, .inr rfl, rfl, .inl rfl⟩, rfl⟩

theorem applyExecutorActivity_eq_ok {e : ExecutorActivityEvent}
    (h : applyExecutorActivity p e now s = .ok s') :
    s' = s ∨ (Demand s s' ∧ s'.jobs = s.jobs) := by
  simp only [applyExecutorActivity, unit_bind_eq_ok] at h
  obtain ⟨-, -, h⟩ := h
  split at h
  · exact .inr (demand_of_writeLease (unit_bind_eq_ok.1 h).2)
  · rw [unit_bind_eq_ok] at h
    obtain ⟨-, h⟩ := h
    split at h
    · exact .inl (Except.ok.inj h).symm
    · exact .inr (demand_of_writeLease (unit_bind_eq_ok.1 h).2)

theorem queueJob_eq_ok {taskID jobID : String} (h : queueJob p taskID jobID owner now s = .ok s') :
    s' = s ∨ Demand s s' := by
  simp only [queueJob, unit_bind_eq_ok] at h
  obtain ⟨-, h⟩ := h
  split at h
  · rw [unit_bind_eq_ok] at h
    exact .inl (Except.ok.inj h.2).symm
  next hnew =>
    rw [unit_bind_eq_ok] at h
    refine .inr (demand_of_cancelDraining ?_ h.2)
    exact ⟨rfl, rfl, rfl, .inl rfl, rfl, .inr ⟨jobID, _, hnew, rfl, rfl⟩⟩

theorem observeExecutorQuiet_eq_ok (h : observeExecutorQuiet p o now s = .ok s') :
    Valid p now s ∧ s' = observed p o now s := by
  rw [observeExecutorQuiet, unit_bind_eq_ok] at h
  refine ⟨valid_of_validate h.1, ?_⟩
  have hresult := h.2
  rw [observed]
  split at hresult
  next hquiet => rw [if_pos hquiet, ← Except.ok.inj hresult]
  next hbusy => rw [if_neg hbusy, ← Except.ok.inj hresult]

theorem reserveExecutorStop_eq_ok (h : reserveExecutorStop p id o now s = .ok s') :
    s.stop = none ∧ Ready p now s o ∧ s' = reserved id now s := by
  simp only [reserveExecutorStop, unit_bind_eq_ok, require_eq_ok, Bool.and_eq_true,
    Option.isNone_iff_eq_none] at h
  obtain ⟨-, ⟨⟨⟨hstop, -⟩, -⟩, hready⟩, h⟩ := h
  exact ⟨hstop, ready_of_executorQuietReady hready, (Except.ok.inj h).symm⟩

theorem markExecutorStopPossibleSend_eq_ok
    (h : markExecutorStopPossibleSend p id o now s = .ok s') :
    Valid p now s ∧ ∃ stop, stop.id = id ∧ Drained p now s stop o ∧ s' = marked stop now s := by
  simp only [markExecutorStopPossibleSend, unit_bind_eq_ok, require_eq_ok, Bool.and_eq_true] at h
  obtain ⟨hvalid, ⟨hany, hready⟩, h⟩ := h
  obtain ⟨stop, hstop, hack⟩ := (Option.any_eq_true _ _).1 hany
  simp only [acknowledgesDrain, Bool.and_eq_true, beq_iff_eq] at hack
  obtain ⟨⟨⟨⟨hid, -⟩, hclosed⟩, hepoch⟩, -⟩ := hack
  refine ⟨valid_of_validate hvalid, stop, hid,
    ⟨hstop, hclosed, hepoch, ready_of_executorQuietReady hready⟩, ?_⟩
  rw [← Except.ok.inj h, hstop]
  rfl

/-- The operations of a workflow either keep the record, or are one of the named outcomes. -/
theorem outcome_of_applyWorkflowOperation {operation : WorkflowOperation}
    {request : WorkflowRequest}
    (h : applyWorkflowOperation p operation owner request now s = .ok s') :
    Outcome p now (.workflow operation owner request) s s' := by
  cases operation with
  | initializeExecutorActivity =>
    cases h
    exact .same s
  | recordExecutorActivity =>
    simp only [applyWorkflowOperation, unit_bind_eq_ok] at h
    obtain ⟨-, -, h⟩ := h
    obtain ⟨s₁, hlease, h⟩ := bind_eq_ok.1 h
    -- The lease and the job are each new or already there.
    have hjob : s' = s₁ ∨ Demand s₁ s' := by
      split at h
      · exact .inl (Except.ok.inj h).symm
      · exact queueJob_eq_ok h
    rcases applyExecutorActivity_eq_ok hlease with rfl | ⟨hdemand, hjobs⟩
    · rcases hjob with rfl | hqueued
      · exact .same _
      · exact .demand hqueued
    · rcases hjob with rfl | hqueued
      · exact .demand hdemand
      · exact .demand (hdemand.trans hjobs hqueued)
  | observeExecutorActivity =>
    rw [(observeExecutorQuiet_eq_ok h).2]
    exact .observe s _
  | reserveExecutorStop =>
    obtain ⟨hstop, hready, rfl⟩ := reserveExecutorStop_eq_ok h
    exact .reserve _ _ hstop hready
  | prepareExecutorStop =>
    obtain ⟨-, stop, -, hdrained, rfl⟩ := markExecutorStopPossibleSend_eq_ok h
    exact .mark _ rfl hdrained
  | unsupported => cases h

/-! ## The transactions of a pass -/

theorem outcome_of_settleCommand {o : PowerSnapshot} {result : PowerResult}
    (h : settleCommand q o cmd result now s = .ok s') :
    Outcome p now (.settle q o cmd result) s s' := by
  simp only [settleCommand, unit_bind_eq_ok, require_eq_ok] at h
  obtain ⟨-, hany, -, h⟩ := h
  obtain ⟨old, hpower, hid⟩ := (Option.any_eq_true _ _).1 hany
  rw [beq_iff_eq] at hid
  split at h
  · rw [← Except.ok.inj h]
    exact .settleStart { cmd with joined := true, result := some result } rfl hpower hid
  · rw [unit_bind_eq_ok] at h
    rw [← Except.ok.inj h.2]
    exact .settleStop { cmd with joined := true, result := some result } rfl hpower hid

/-- A checked record has no command under an identifier that `send` lets pass. -/
theorem unused_of_send (hvalid : Valid p now s)
    (h : (s.power.isNone && !(s.powerHistory.get? id).any (·.2.id != "")) = true) :
    Unused s id := by
  rw [Bool.and_eq_true, Option.isNone_iff_eq_none] at h
  refine ⟨h.1, ?_⟩
  cases hget : s.powerHistory.get? id with
  | none => rfl
  | some entry =>
    have hne := (hvalid.history entry (Table.get?_eq_some.1 hget).1).2
    simp [hget, hne] at h

theorem send_eq_ok {c : Controller} {action : PowerAction}
    {prepare : ExecutorActivityState → Except ActivityError ExecutorActivityState}
    (hvalid : Valid p now s) (h : send c action id prepare now s = .ok s') :
    Unused s id ∧ ∃ prepared, prepare s = .ok prepared ∧
      s' = { prepared with power := some (c.command action id now) } := by
  simp only [send, unit_bind_eq_ok, require_eq_ok] at h
  obtain ⟨-, hunused, h⟩ := h
  obtain ⟨prepared, hprepared, h⟩ := bind_eq_ok.1 h
  exact ⟨unused_of_send hvalid hunused, prepared, hprepared, (Except.ok.inj h).symm⟩

theorem prepareStart_eq_ok {o : PowerSnapshot} (h : prepareStart q o now s = .ok s') :
    s.stop = none ∧ s' = s := by
  simp only [prepareStart, unit_bind_eq_ok, require_eq_ok, Bool.and_eq_true,
    Option.isNone_iff_eq_none] at h
  exact ⟨h.2.1.1, (Except.ok.inj h.2.2).symm⟩

theorem admitJob_eq_ok (h : admitJob q w id now s = .ok s') :
    s.power = none ∧ s.stop = none ∧ ∃ job, s.jobs.get? id = some (id, job) ∧
      job.pending = true ∧
      s' = { s with
        jobs := s.jobs.upsert (id, { job with state := .admitting, bootID := w.bootID }) } := by
  simp only [admitJob, unit_bind_eq_ok, require_eq_ok, Bool.and_eq_true,
    Option.isNone_iff_eq_none] at h
  obtain ⟨-, ⟨hpower, hstop⟩, h⟩ := h
  split at h
  · cases h
  next key job hget =>
    have hkey : key = id := (Table.get?_eq_some.1 hget).2
    simp only [unit_bind_eq_ok, require_eq_ok] at h
    subst hkey
    exact ⟨hpower, hstop, job, hget, h.1, (Except.ok.inj h.2).symm⟩

/-- A reducer that passes on a checked record, whose policy is pinned, has an outcome. -/
theorem outcome_of_apply (hvalid : Valid p now s) (hpinned : s.pinnedPolicy = some p)
    (h : r.apply p now s = .ok s') : Outcome p now r s s' := by
  cases r with
  | workflow operation owner request => exact outcome_of_applyWorkflowOperation h
  | bind c =>
    simp only [Reducer.apply, bindResource, unit_bind_eq_ok] at h
    rw [← Except.ok.inj h.2.2]
    exact .bind s _
  | confirm q o =>
    simp only [Reducer.apply, unit_bind_eq_ok] at h
    rw [← Except.ok.inj h.2]
    exact .same s
  | settle q o cmd result => exact outcome_of_settleCommand h
  | start c o id =>
    obtain ⟨hunused, prepared, hprepared, rfl⟩ := send_eq_ok hvalid h
    obtain ⟨hstop, rfl⟩ := prepareStart_eq_ok hprepared
    exact .start (c.command .start id now) hunused hstop
  | stop c o id =>
    obtain ⟨hunused, prepared, hprepared, rfl⟩ := send_eq_ok hvalid h
    obtain ⟨hcontroller, stop, rfl, hdrained, rfl⟩ := markExecutorStopPossibleSend_eq_ok hprepared
    rw [← hcontroller.pinned p hpinned] at hdrained
    exact .stop o (c.command .stop stop.id now) rfl rfl rfl hunused hdrained
  | unknownInventory q =>
    obtain ⟨hcontroller, rfl⟩ := observeExecutorQuiet_eq_ok h
    rw [← hcontroller.pinned p hpinned]
    exact .observe s .zero
  | inventory q o w =>
    simp only [Reducer.apply, takeInventory, unit_bind_eq_ok] at h
    rw [← Except.ok.inj h.2.2]
    exact .inventory s w
  | admission q w id =>
    obtain ⟨hpower, hstop, job, hjob, hpending, rfl⟩ := admitJob_eq_ok h
    exact .admission id w.bootID hpower hstop hjob hpending
  | observe q o id =>
    simp only [Reducer.apply, observeAndReserve] at h
    obtain ⟨s₁, hobserve, hrest⟩ := bind_eq_ok.1 h
    obtain ⟨hcontroller, rfl⟩ := observeExecutorQuiet_eq_ok hobserve
    rw [← hcontroller.pinned p hpinned] at hrest
    split at hrest
    · split at hrest
      · cases hrest
      next id =>
        obtain ⟨hstop, hready, rfl⟩ := reserveExecutorStop_eq_ok hrest
        have hstop' : s.stop = none := by
          rw [observed] at hstop
          split at hstop <;> exact hstop
        exact .observeReserve id o hstop' hready
    · rw [← Except.ok.inj hrest]
      exact .observe s o

/-! ## Commits -/

/-- A committed transaction, from the stored record `s` to `s'`. -/
structure Commit (p : ExecutorActivityPolicy) (now : ℤ) (r : Reducer)
    (s s' : ExecutorActivityState) : Prop where
  valid : Valid p now s
  changes : ∃ changed, r.apply p now { s with pinnedPolicy := some p } = .ok changed ∧
    s' = { changed with revision := s.revision + 1, updatedAt := now }
  valid' : Valid p now s'

theorem Commit.valid_pinned (h : Commit p now r s s') :
    Valid p now { s with pinnedPolicy := some p } :=
  { h.valid with pinned := fun _ hq => (Option.some.inj hq).symm }

theorem Commit.outcome (h : Commit p now r s s') :
    ∃ changed, Outcome p now r { s with pinnedPolicy := some p } changed ∧
      s' = { changed with revision := s.revision + 1, updatedAt := now } := by
  obtain ⟨changed, happly, hs'⟩ := h.changes
  exact ⟨changed, outcome_of_apply h.valid_pinned rfl happly, hs'⟩

theorem commit_of_updateExecutorActivity
    (h : updateExecutorActivity p now (fun t => r.apply p now t) s = .ok s') :
    Commit p now r s s' := by
  rw [updateExecutorActivity, unit_bind_eq_ok] at h
  obtain ⟨hvalid, h⟩ := h
  obtain ⟨changed, hchange, h⟩ := bind_eq_ok.1 h
  rw [unit_bind_eq_ok] at h
  have hs := valid_of_validate hvalid
  have hpin : s.pinnedPolicy.getD p = p := by
    cases hpinned : s.pinnedPolicy with
    | none => rfl
    | some q => exact hs.pinned q hpinned
  rw [hpin] at hchange
  rw [← Except.ok.inj h.2]
  exact ⟨hs, ⟨changed, hchange, rfl⟩, valid_of_validate h.1⟩

/-- The record that a transaction at `now` starts from. -/
def System.record (s : System) (now : ℤ) : ExecutorActivityState :=
  s.state?.getD (initialState now)

theorem commit_of_runPostgres {account : Account} {refusal : Option ActivityError} {sys : System}
    {next : ActivityRow}
    (h : runPostgres account now refusal (fun t => r.apply account.policy now t) sys.row =
      .ok next) :
    Commit account.policy now r (sys.record now) next.state := by
  rw [runPostgres, unit_bind_eq_ok] at h
  obtain ⟨-, h⟩ := h
  split at h
  · cases h
  next row hfound =>
    simp only [unit_bind_eq_ok] at h
    obtain ⟨-, -, h⟩ := h
    obtain ⟨s', hupdate, h⟩ := bind_eq_ok.1 h
    rw [unit_bind_eq_ok] at h
    rw [← Except.ok.inj h.2]
    have hrecord : sys.record now = row.state := by
      rw [System.record, System.state?]
      cases hrow : sys.row with
      | none =>
        simp only [hrow, ActivityRow.found] at hfound
        split at hfound
        · rw [← Option.some.inj hfound]
          rfl
        · cases hfound
      | some old =>
        simp only [hrow, ActivityRow.found, Option.some.injEq] at hfound
        rw [hfound]
        rfl
    rw [hrecord]
    exact commit_of_updateExecutorActivity hupdate

/-! ## Events -/

variable {controllers : ℕ → Controller} {sys : System} {e : Event}

/-- The event commits the reducer `r`, and leaves the record `s'`. -/
structure System.Commits (controllers : ℕ → Controller) (sys : System) (e : Event)
    (account : Account) (attempt : Attempt) (r : Reducer) (s' : ExecutorActivityState) : Prop where
  submits : sys.submits controllers e = some (account, attempt, r)
  after : (sys.advance controllers e).state? = some s'
  commit : Commit account.policy attempt.now r (sys.record attempt.now) s'

/-- A transaction keeps the row and replies with an error, or commits what it replies. -/
theorem transact_cases (account : Account) (attempt : Attempt) (r : Reducer)
    (row : Option ActivityRow) :
    ((transact account attempt r row).1 = row ∧ ∀ s, (transact account attempt r row).2 ≠ .ok s) ∨
    ∃ next, runPostgres account attempt.now attempt.refusal
        (fun t => r.apply account.policy attempt.now t) row = .ok next ∧
      (transact account attempt r row).1 = some next ∧
      ∀ s, (transact account attempt r row).2 = .ok s → next.state = s := by
  rw [transact]
  cases hrun : runPostgres account attempt.now attempt.refusal
      (fun t => r.apply account.policy attempt.now t) row with
  | error e => simp
  | ok next =>
    dsimp only
    cases attempt.delivery <;> simp

/-- An event leaves the record, or commits a reducer. -/
theorem System.state?_advance (controllers : ℕ → Controller) (sys : System) (e : Event) :
    (sys.advance controllers e).state? = sys.state? ∨
      ∃ account attempt r s', sys.Commits controllers e account attempt r s' := by
  cases hsubmits : sys.submits controllers e with
  | none =>
    left
    simp only [state?, advance, nextRow, hsubmits]
  | some submission =>
    obtain ⟨account, attempt, r⟩ := submission
    have hrow : (sys.advance controllers e).row = (transact account attempt r sys.row).1 := by
      simp only [advance, nextRow, hsubmits]
    rcases transact_cases account attempt r sys.row with ⟨hkept, -⟩ | ⟨next, hrun, hnext, -⟩
    · left
      rw [state?, hrow, hkept, state?]
    · refine .inr ⟨account, attempt, r, next.state, hsubmits, ?_, commit_of_runPostgres hrun⟩
      rw [state?, hrow, hnext]
      rfl

/-- A pass that learns of a commit has made it. -/
theorem System.commits_of_reply {attempt : Attempt} (first : String)
    (hr : (controllers k).reducer random (sys.passes k) = some r)
    (h : (transact (controllers k).account attempt r sys.row).2 = .ok s) :
    sys.Commits controllers (.move k (.transact attempt random first)) (controllers k).account
      attempt r s := by
  have hsubmits : sys.submits controllers (.move k (.transact attempt random first)) =
      some ((controllers k).account, attempt, r) := by
    rw [submits, hr]
    rfl
  rcases transact_cases (controllers k).account attempt r sys.row with
    ⟨-, hrefused⟩ | ⟨next, hrun, hnext, hreply⟩
  · exact absurd h (hrefused s)
  · obtain rfl := hreply s h
    refine ⟨hsubmits, ?_, commit_of_runPostgres hrun⟩
    simp only [state?, advance, nextRow, hsubmits, hnext, Option.map_some]

theorem System.passes_advance (h : (sys.advance controllers e).passes k ≠ sys.passes k) :
    ∃ m, e = .move k m ∧
      (sys.advance controllers e).passes k = (controllers k).next sys.row (sys.passes k) m := by
  cases e with
  | workflow => exact absurd rfl h
  | move j m =>
    by_cases hkj : k = j
    · subst hkj
      exact ⟨m, rfl, Function.update_self ..⟩
    · exact absurd (Function.update_of_ne hkj ..) h

variable {c : Controller} {row : Option ActivityRow} {phase : Phase} {m : Move}

/-- The phases in which a pass holds what it may not hold twice. -/
def Phase.holding : Phase → Bool
  | joined .. | admitted .. | sending _ => true
  | _ => false

theorem holding_unsubmitted (h : (c.unsubmitted phase).holding = true) :
    c.unsubmitted phase = phase := by
  cases phase with
  | start =>
    simp only [Controller.unsubmitted] at h
    split at h <;> cases h
  | starting o => cases h
  | _ => rfl

/-- A pass comes to hold something by a transaction that replies, or by a settlement. -/
theorem next_holding (h : (c.next row phase m).holding = true) (hne : c.next row phase m ≠ phase) :
    (∃ attempt random first r s, m = .transact attempt random first ∧
      c.reducer random phase = some r ∧ (transact c.account attempt r row).2 = .ok s ∧
      c.next row phase m = c.replied random first s phase) ∨
    ∃ o cmd reply, m = .querySettlement reply ∧ phase = .settling o cmd ∧
      c.next row phase m = settlementQueried o cmd reply := by
  cases m with
  | transact attempt random first =>
    simp only [Controller.next] at h hne ⊢
    split at h
    next hr =>
      simp only [hr] at hne
      exact absurd (holding_unsubmitted h) hne
    next r hr =>
      split at h
      next s hs => exact .inl ⟨attempt, random, first, r, s, rfl, hr, hs, rfl⟩
      next => cases phase <;> cases h
  | observePower reply =>
    cases phase with
    | bound =>
      simp only [Controller.next, Controller.powerObserved.eq_def] at h
      repeat' split at h
      all_goals cases h
    | _ => exact absurd rfl hne
  | querySettlement reply =>
    cases phase with
    | settling o cmd => exact .inr ⟨o, cmd, reply, rfl, rfl, rfl⟩
    | _ => exact absurd rfl hne
  | observeWorker reply =>
    cases phase with
    | inspecting o =>
      simp only [Controller.next, Controller.workerObserved.eq_def] at h
      repeat' split at h
      all_goals cases h
    | _ => exact absurd rfl hne
  | call carriedOut failure => cases phase <;> first | exact absurd rfl hne | cases h

/-! ## What a pass holds -/

theorem Commit.start {c : Controller} {o : PowerSnapshot} (h : Commit p now (.start c o id) s s') :
    Unused s id ∧ s'.power = some (c.command .start id now) ∧ s'.stop = none ∧
      s'.updatedAt = now := by
  obtain ⟨changed, happly, rfl⟩ := h.changes
  obtain ⟨hunused, prepared, hprepared, rfl⟩ := send_eq_ok h.valid_pinned happly
  obtain ⟨hstop, rfl⟩ := prepareStart_eq_ok hprepared
  exact ⟨⟨hunused.power, hunused.history⟩, rfl, hstop, rfl⟩

theorem Commit.stop {c : Controller} (h : Commit p now (.stop c o id) s s') :
    Unused s id ∧ s'.power = some (c.command .stop id now) ∧ s'.updatedAt = now := by
  obtain ⟨changed, happly, rfl⟩ := h.changes
  obtain ⟨hunused, prepared, hprepared, rfl⟩ := send_eq_ok h.valid_pinned happly
  exact ⟨⟨hunused.power, hunused.history⟩, rfl, rfl⟩

/-- The job is in the record, in the state `state`. -/
def JobIn (s : ExecutorActivityState) (id : String) (state : JobState) : Prop :=
  ∃ job, s.jobs.get? id = some (id, job) ∧ job.state = state

theorem Commit.admission (h : Commit p now (.admission q w id) s s') :
    s.power = none ∧ s.stop = none ∧ (JobIn s id .queued ∨ JobIn s id .admitting) ∧
      JobIn s' id .admitting ∧ s'.stop = none := by
  obtain ⟨changed, happly, rfl⟩ := h.changes
  obtain ⟨hpower, hstop, job, hjob, hpending, rfl⟩ := admitJob_eq_ok happly
  refine ⟨hpower, hstop, ?_, ⟨{ job with state := .admitting, bootID := w.bootID }, ?_, rfl⟩, hstop⟩
  · simp only [Job.pending, Bool.or_eq_true, decide_eq_true_eq] at hpending
    exact hpending.imp (⟨job, hjob, ·⟩) (⟨job, hjob, ·⟩)
  · exact (Table.get?_upsert ..).trans (if_pos rfl)

/-- A pass holds something after the reply to a start, a stop or an admission. -/
theorem replied_holding {first : String} (hr : c.reducer random phase = some r)
    (h : (c.replied random first s phase).holding = true) :
    (∃ o id, phase = .starting o ∧ random = some id ∧ r = .start c o id) ∨
    (∃ id o, phase = .stopping id o ∧ r = .stop c o id) ∨
    (∃ w id epoch, phase = .admitting w id epoch ∧ r = .admission c.policy w id) := by
  cases phase with
  | starting o =>
    obtain ⟨id, hrandom, rfl⟩ := Option.map_eq_some_iff.1 hr
    exact .inl ⟨o, id, rfl, hrandom, rfl⟩
  | stopping id o =>
    cases hr
    exact .inr (.inl ⟨id, o, rfl, rfl⟩)
  | admitting w id epoch =>
    cases hr
    exact .inr (.inr ⟨w, id, epoch, rfl, rfl⟩)
  | start =>
    simp only [Controller.replied] at h
    split at h <;> cases h
  | observed o =>
    simp only [Controller.replied, Controller.confirmed] at h
    repeat' split at h
    all_goals cases h
  | inspected o w =>
    simp only [Controller.replied, Controller.inventoried] at h
    repeat' split at h
    all_goals cases h
  | joined | uninspected | quiet => cases h
  | _ => cases hr

theorem holding_settlementQueried {o : PowerSnapshot} {reply : Option PowerSettlement}
    (h : (settlementQueried o cmd reply).holding = true) :
    ∃ settled result, reply = some settled ∧ settled.commandID = cmd.id ∧
      settled.originalInvocationJoined = true ∧
      settlementQueried o cmd reply = .joined o cmd result := by
  rw [settlementQueried] at h ⊢
  split at h
  next result hresult =>
    obtain ⟨settled, rfl, hsettled⟩ := Option.bind_eq_some_iff.1 hresult
    simp only [settlementResult, Option.filter_eq_some_iff, Bool.and_eq_true, beq_iff_eq]
      at hsettled
    exact ⟨settled, result, rfl, hsettled.2.1.1.1.1.1, hsettled.2.1.1.2, rfl⟩
  next => cases h

/-- How a pass comes to hold something. -/
inductive Acquires (controllers : ℕ → Controller) (sys : System) (e : Event) (k : ℕ) : Phase → Prop
  | start {attempt : Attempt} {o : PowerSnapshot} {id : String} {s' : ExecutorActivityState}
      (h : sys.Commits controllers e (controllers k).account attempt
        (.start (controllers k) o id) s') :
      Acquires controllers sys e k (.sending ((controllers k).command .start id s'.updatedAt))
  | stop {attempt : Attempt} {o : ExecutorActivityObservation} {id : String}
      {s' : ExecutorActivityState}
      (h : sys.Commits controllers e (controllers k).account attempt
        (.stop (controllers k) o id) s') :
      Acquires controllers sys e k (.sending ((controllers k).command .stop id s'.updatedAt))
  | admission {attempt : Attempt} {w : WorkerSnapshot} {id : String} {epoch : ℕ}
      {s' : ExecutorActivityState}
      (h : sys.Commits controllers e (controllers k).account attempt
        (.admission (controllers k).policy w id) s') :
      Acquires controllers sys e k (.admitted id epoch w.bootID)
  | joined {o : PowerSnapshot} {cmd : PowerCommand} {result : PowerResult}
      (h : sys.joins e = some cmd.id) : Acquires controllers sys e k (.joined o cmd result)

theorem System.acquires_of_advance {held : Phase} (hheld : held.holding = true)
    (h : (sys.advance controllers e).passes k = held) (hne : sys.passes k ≠ held) :
    (∃ m, e = .move k m) ∧ Acquires controllers sys e k held := by
  subst h
  obtain ⟨m, rfl, hnext⟩ := passes_advance hne.symm
  refine ⟨⟨m, rfl⟩, ?_⟩
  rw [hnext] at hheld hne ⊢
  rcases next_holding hheld hne.symm with
    ⟨attempt, random, first, r, s, rfl, hr, hs, hreplied⟩ | ⟨o, cmd, reply, rfl, hphase, hqueried⟩
  · have hcommits := System.commits_of_reply first hr hs
    rw [hreplied] at hheld ⊢
    rcases replied_holding hr hheld with
      ⟨o, id, hphase, rfl, rfl⟩ | ⟨id, o, hphase, rfl⟩ | ⟨w, id, epoch, hphase, rfl⟩
    · rw [hphase]
      exact .start hcommits
    · rw [hphase]
      exact .stop hcommits
    · rw [hphase]
      exact .admission hcommits
  · rw [hqueried] at hheld ⊢
    obtain ⟨settled, result, rfl, hid, hsettled, hjoined⟩ := holding_settlementQueried hheld
    rw [hjoined]
    refine .joined ?_
    simp [joins, hphase, hsettled, hid]

end Yggdrasil.Executor
