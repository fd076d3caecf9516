import Yggdrasil.Capacity.Dispatch

/-!
# What a dispatch transaction does

One inversion of every transaction: what it found and what it wrote when it committed (`Change`,
`change_of_perform`), and the trigger that each of its updates has passed (`Update`).
-/

namespace Yggdrasil.Capacity.Dispatch

open Check

variable {codec : Codec} {env : Env} {t t' : Tables} {row : JobRow} {job : CapacityDispatchJob}
  {e : CapacityDispatchEnvelope} {new : JobColumns} {clock : ℤ} {reply : Enqueued}
  {old : JobColumns}

/-! ## Writes -/

/-- The row `row'` is `row` with the columns `new`, and the trigger let the update pass. -/
structure Update (clock : ℤ) (row : JobRow) (new : JobColumns) (row' : JobRow) : Prop where
  columns : row'.toJobColumns = new
  guard : guardCapacityDispatchJob clock row.toJobColumns row'.toJobColumns = true

theorem updateJob_eq_ok {refusal : DispatchError} (h : updateJob refusal clock row new t = .ok t') :
    ∃ row', Update clock row new row' ∧ t' = { t with jobs := t.jobs.set row' } := by
  rw [updateJob] at h
  split at h
  next hchecks =>
    simp only [unit_bind_eq_ok, require_eq_ok, Bool.and_eq_true, Except.ok.injEq] at h
    exact ⟨⟨new, hchecks⟩, ⟨rfl, h.1.1⟩, h.2.symm⟩
  · cases h

theorem insertJob_eq_ok (h : insertJob new t = .ok t') :
    ∃ row jobs, row.toJobColumns = new ∧ t.jobs.insert? row = some jobs ∧
      t' = { t with jobs } := by
  rw [insertJob] at h
  split at h
  next hchecks =>
    simp only [unit_bind_eq_ok, require_eq_ok] at h
    obtain ⟨-, h⟩ := h
    split at h
    · cases h
    next jobs hjobs =>
      cases h
      exact ⟨⟨new, hchecks⟩, jobs, rfl, hjobs, rfl⟩
  · cases h

theorem insertCapacityDispatchWake_eq_ok {jobID : String}
    (h : insertCapacityDispatchWake e jobID t = .ok t') :
    ∃ wakes, t.wakes.insert? ⟨e.scope, e.sourceTick, jobID⟩ = some wakes ∧
      t' = { t with wakes } := by
  rw [insertCapacityDispatchWake] at h
  split at h
  · cases h
  next wakes hwakes =>
    cases h
    exact ⟨wakes, hwakes, rfl⟩

/-! ## Reads -/

theorem decodeJob_eq_ok (h : decodeJob codec row = .ok job) :
    job = row.job job.toCapacityDispatchEnvelope ∧
      rowMatches codec row job.toCapacityDispatchEnvelope = true := by
  rw [decodeJob] at h
  split at h
  · cases h
  next e he =>
    simp only [unit_bind_eq_ok, require_eq_ok, Except.ok.injEq] at h
    obtain ⟨-, hmatches, rfl⟩ := h
    exact ⟨rfl, hmatches⟩

theorem jobID_of_decodeJob (h : decodeJob codec row = .ok job) : job.jobID = row.id := by
  have hmatches := (decodeJob_eq_ok h).2
  simp only [rowMatches, Bool.and_eq_true, beq_iff_eq] at hmatches
  exact hmatches.1.1.1.1.2

theorem readCapacityDispatchJob_eq_ok {id : String}
    (h : readCapacityDispatchJob codec t id = .ok job) :
    ∃ row ∈ t.jobs, row.id = id ∧ decodeJob codec row = .ok job := by
  rw [readCapacityDispatchJob] at h
  split at h
  · cases h
  next row hrow => exact ⟨row, (Table.get?_eq_some.1 hrow).1, (Table.get?_eq_some.1 hrow).2, h⟩

theorem mem_of_earliest {rows : List JobRow} (h : earliest rows = some row) : row ∈ rows := by
  induction rows generalizing row with
  | nil => cases h
  | cons r rs ih =>
    rw [earliest] at h
    split at h
    · cases h
      exact List.mem_cons_self
    next s hs =>
      split at h
      · cases h
        exact List.mem_cons_of_mem r (ih hs)
      · cases h
        exact List.mem_cons_self

/-! ## Rows -/

namespace JobRow

variable {r : JobRow}

theorem lifecycle_eq (r : JobRow) : r.lifecycle = true := by
  have := r.valid
  simp only [JobColumns.checks, Bool.and_eq_true] at this
  exact this.1.1.2

theorem startedAt_of_queued (h : r.state = .queued) : r.startedAt = none := by
  have := r.lifecycle_eq
  simp only [JobColumns.lifecycle, h, Bool.and_eq_true, Option.isNone_iff_eq_none] at this
  exact this.1

theorem returnedAt_of_started (h : r.state = .started) : r.returnedAt = none := by
  have := r.lifecycle_eq
  simp only [JobColumns.lifecycle, h, Bool.and_eq_true, Option.isNone_iff_eq_none] at this
  exact this.2

theorem startedAt_of_returned (h : r.state = .returned) : r.startedAt.isSome := by
  have := r.lifecycle_eq
  simp only [JobColumns.lifecycle, h, Bool.and_eq_true] at this
  exact this.1

/-- A row that carries a return has returned, or is unknown. -/
theorem state_of_returnedAt (h : r.returnedAt.isSome) :
    r.state = .returned ∨ r.state = .unknown := by
  have := r.lifecycle_eq
  cases hstate : r.state with
  | queued | started =>
    simp only [JobColumns.lifecycle, hstate, Bool.and_eq_true, Option.isNone_iff_eq_none] at this
    simp [this.2] at h
  | unknown => exact .inr rfl
  | returned => exact .inl rfl

theorem pendingWakeCount_le (r : JobRow) : r.pendingWakeCount ≤ 32 := by
  have := r.valid
  simp only [JobColumns.checks, Bool.and_eq_true, decide_eq_true_eq] at this
  omega

theorem state_of_acknowledged (h : r.finalizationAckAt ≠ none) : r.state = .returned := by
  have := r.valid
  simp only [JobColumns.checks, Bool.and_eq_true, Bool.or_eq_true, beq_iff_eq,
    Option.isNone_iff_eq_none] at this
  exact (this.2.resolve_left h).1

theorem active_iff : r.active = true ↔ r.finalizationAckAt = none := by
  constructor
  · intro hactive
    by_contra hack
    rw [JobColumns.active, state_of_acknowledged hack] at hactive
    exact hack (Option.isNone_iff_eq_none.1 hactive)
  · intro hack
    rw [JobColumns.active]
    split
    · exact Option.isNone_iff_eq_none.2 hack
    · rfl

theorem finalizationAckAt_of_ne (h : r.state ≠ .returned) : r.finalizationAckAt = none := by
  by_contra hack
  exact h (state_of_acknowledged hack)

end JobRow

/-! ## One transaction -/

/-- What a transaction found and wrote. -/
inductive Change (codec : Codec) (env : Env) (t : Tables) : Operation → Tables → Reply → Prop
  /-- The tick was enqueued before. -/
  | duplicate {e : CapacityDispatchEnvelope} {wake : WakeRow} {job : CapacityDispatchJob}
      (hwake : t.wakes.get? (e.scope, e.sourceTick) = some wake)
      (hjob : readCapacityDispatchJob codec t wake.jobID = .ok job) :
      Change codec env t (.enqueue e) t (.enqueued ⟨job, true⟩)
  /-- The tick wakes the job that is active in its dimension. -/
  | coalesce {e : CapacityDispatchEnvelope} {row row' : JobRow} {job : CapacityDispatchJob}
      {wakes : Table WakeRow.key} (hrow : row ∈ t.jobs) (hscope : row.scope = e.scope)
      (hactive : row.active = true) (hjob : job.jobID = row.id)
      (hupdate : Update (env.clock 0) row
        { row.toJobColumns with pendingWakeCount := row.pendingWakeCount + 1 } row')
      (hwakes : t.wakes.insert? ⟨e.scope, e.sourceTick, row.id⟩ = some wakes) :
      Change codec env t (.enqueue e) { t with jobs := t.jobs.set row', wakes }
        (.enqueued ⟨job, true⟩)
  /-- The tick has a job of its own. -/
  | create {e : CapacityDispatchEnvelope} {raw : String} {row : JobRow}
      {job : CapacityDispatchJob} {jobs : Table JobRow.key} {wakes : Table WakeRow.key}
      {runs : Table WorkflowRun.id} (hcolumns : row.toJobColumns = queuedJob codec env e raw)
      (hfree : ∀ r ∈ t.jobs, r.scope = e.scope → r.active = false)
      (hjob : job.jobID = e.jobID) (hjobs : t.jobs.insert? row = some jobs)
      (hwakes : t.wakes.insert? ⟨e.scope, e.sourceTick, e.jobID⟩ = some wakes) :
      Change codec env t (.enqueue e) ⟨jobs, wakes, runs⟩ (.enqueued ⟨job, false⟩)
  | claim {realm environment owner : String} {lease granted : ℤ} {row row' : JobRow}
      {job : CapacityDispatchJob} (hrow : row ∈ t.jobs) (hstate : row.state = .queued)
      (hupdate : Update (env.clock 2) row (claimedJob env row owner granted) row')
      (hjob : job.jobID = row.id) (hfence : job.fencingToken = row'.fencingToken) :
      Change codec env t (.claim realm environment owner lease)
        { t with jobs := t.jobs.set row' } (.job job)
  | start {job current : CapacityDispatchJob} {row row' : JobRow} {runs : Table WorkflowRun.id}
      (hrow : t.jobs.get? job.jobID = some row) (hstate : row.state = .queued)
      (hupdate : Update (env.clock 1) row
        { row.toJobColumns with state := .started, startedAt := some (env.clock 0) } row') :
      Change codec env t (.start job) { t with jobs := t.jobs.set row', runs } (.job current)
  | finish {r : Return} {contextErr : Option GoError} {current : CapacityDispatchJob}
      {row row' : JobRow} {runs : Table WorkflowRun.id}
      (hrow : t.jobs.get? r.job.jobID = some row) (hread : decodeJob codec row = .ok current)
      (hsame : sameCapacityDispatchClaim codec current r.job = true)
      (hstate : row.state = .started)
      (hupdate : Update (env.clock 3) row
        { row.toJobColumns with
          state := (verdict codec env r contextErr current t).state
          returnedAt := some r.returnedAt
          returnStatus := some (returnStatus codec r.response)
          returnError := nullIfEmpty (verdict codec env r contextErr current t).returnError }
        row') :
      Change codec env t (.finish r contextErr) { t with jobs := t.jobs.set row', runs }
        (.written ⟨current, (verdict codec env r contextErr current t).uncertain,
          (verdict codec env r contextErr current t).state⟩)
  /-- The return was written before. -/
  | landed {r : Return} {contextErr : Option GoError} {current : CapacityDispatchJob}
      {row : JobRow} (hrow : t.jobs.get? r.job.jobID = some row)
      (hread : decodeJob codec row = .ok current)
      (hsame : sameCapacityDispatchClaim codec current r.job = true)
      (hlanded : capacityDispatchFirstCommitLanded current r.returnedAt = true) :
      Change codec env t (.finish r contextErr) t (.landed current)
  | acknowledge {job current : CapacityDispatchJob} {row row' : JobRow}
      (hrow : t.jobs.get? job.jobID = some row) (hread : decodeJob codec row = .ok current)
      (hsame : sameCapacityDispatchClaim codec current job = true)
      (hstate : row.state = .returned) (hack : row.finalizationAckAt = none)
      (horiginal : checkCapacityDispatchOriginal codec env t current = true)
      (hlive : row.leaseExpiresAt.any (env.clock 0 < ·) = true)
      (hupdate : Update (env.clock 2) row
        { row.toJobColumns with finalizationAckAt := some (env.clock 1) } row') :
      Change codec env t (.acknowledge job) { t with jobs := t.jobs.set row' } .done
  | markUnknown {job : CapacityDispatchJob} {reason : String} {row row' : JobRow}
      {runs : Table WorkflowRun.id} (hrow : t.jobs.get? job.jobID = some row)
      (hstate : row.state = .returned ∨ row.state = .unknown)
      (hack : row.finalizationAckAt = none)
      (hupdate : Update (env.clock 0) row
        { row.toJobColumns with state := .unknown, finalizationError := some reason } row') :
      Change codec env t (.markUnknown job reason) { t with jobs := t.jobs.set row', runs } .done

theorem change_of_coalesce (hrow : row ∈ t.jobs) (hscope : row.scope = e.scope)
    (hactive : row.active = true) (h : coalesce codec env e row t = .ok (t', reply)) :
    Change codec env t (.enqueue e) t' (.enqueued reply) := by
  rw [coalesce] at h
  split at h
  · cases h
  next job hjob =>
    simp only [unit_bind_eq_ok] at h
    obtain ⟨-, -, h⟩ := h
    obtain ⟨t₁, hset, h⟩ := bind_eq_ok.1 h
    obtain ⟨t₂, hwake, h⟩ := bind_eq_ok.1 h
    cases h
    obtain ⟨row', hupdate, rfl⟩ := updateJob_eq_ok hset
    obtain ⟨wakes, hwakes, rfl⟩ := insertCapacityDispatchWake_eq_ok hwake
    have hid : job.jobID = row.id := jobID_of_decodeJob hjob
    exact .coalesce hrow hscope hactive hid hupdate (hid ▸ hwakes)

theorem change_of_createJob {raw : String}
    (hfree : ∀ r ∈ t.jobs, r.scope = e.scope → r.active = false)
    (h : createJob codec env e raw t = .ok (t', reply)) :
    Change codec env t (.enqueue e) t' (.enqueued reply) := by
  rw [createJob] at h
  split at h
  · cases h
  next runs hruns =>
    obtain ⟨t₁, hjob, h⟩ := bind_eq_ok.1 h
    obtain ⟨t₂, hwake, h⟩ := bind_eq_ok.1 h
    cases h
    obtain ⟨row, jobs, hcolumns, hjobs, rfl⟩ := insertJob_eq_ok hjob
    obtain ⟨wakes, hwakes, rfl⟩ := insertCapacityDispatchWake_eq_ok hwake
    exact .create hcolumns hfree rfl hjobs hwakes

theorem change_of_enqueue (h : enqueueCapacityDispatch codec env e t = .ok (t', reply)) :
    Change codec env t (.enqueue e) t' (.enqueued reply) := by
  simp only [enqueueCapacityDispatch, unit_bind_eq_ok] at h
  obtain ⟨-, h⟩ := h
  obtain ⟨raw, -, h⟩ := bind_eq_ok.1 h
  split at h
  next wake hwake =>
    obtain ⟨job, hjob, h⟩ := bind_eq_ok.1 h
    cases h
    exact .duplicate hwake hjob
  · split at h
    next row hrow =>
      have hfound := List.find?_some hrow
      simp only [Bool.and_eq_true, decide_eq_true_eq] at hfound
      exact change_of_coalesce (List.mem_of_find?_eq_some hrow) hfound.1 hfound.2 h
    next hnone =>
      refine change_of_createJob (fun r hr hscope => ?_) h
      have := List.find?_eq_none.1 hnone r hr
      simpa [hscope] using this

theorem change_of_claim {realm environment owner : String} {lease : ℤ}
    (h : claimCapacityDispatch codec env realm environment owner lease t = .ok (t', job)) :
    Change codec env t (.claim realm environment owner lease) t' (.job job) := by
  simp only [claimCapacityDispatch, unit_bind_eq_ok] at h
  obtain ⟨-, h⟩ := h
  split at h
  · cases h
  next row hrow =>
    split at h
    · cases h
    next read hread =>
      simp only [unit_bind_eq_ok] at h
      obtain ⟨-, h⟩ := h
      obtain ⟨granted, -, h⟩ := bind_eq_ok.1 h
      simp only [unit_bind_eq_ok] at h
      obtain ⟨-, h⟩ := h
      obtain ⟨t₁, hset, h⟩ := bind_eq_ok.1 h
      cases h
      obtain ⟨row', hupdate, rfl⟩ := updateJob_eq_ok hset
      obtain ⟨hmem, hclaimable⟩ := List.mem_filter.1 (mem_of_earliest hrow)
      simp only [claimable, Bool.and_eq_true, beq_iff_eq] at hclaimable
      obtain ⟨⟨⟨⟨⟨⟨-, hstate⟩, -⟩, -⟩, -⟩, -⟩, -⟩ := hclaimable
      have hid : read.jobID = row.id := jobID_of_decodeJob hread
      exact .claim hmem hstate hupdate hid (by rw [hupdate.columns])

theorem state_of_live {now : ℤ} (h : liveCapacityDispatchClaim (row.job e) now false = true) :
    row.state = .queued := by
  simp only [liveCapacityDispatchClaim, Bool.and_eq_true, Bool.or_eq_true, beq_iff_eq,
    Bool.false_and, Bool.false_eq_true, or_false] at h
  exact h.2.1

theorem change_of_start {reply : CapacityDispatchJob}
    (h : startCapacityDispatch codec env job t = .ok (t', reply)) :
    Change codec env t (.start job) t' (.job reply) := by
  simp only [startCapacityDispatch, unit_bind_eq_ok] at h
  obtain ⟨-, h⟩ := h
  split at h
  · cases h
  next row hrow =>
    split at h
    · cases h
    next current hread =>
      simp only [unit_bind_eq_ok, require_eq_ok, Bool.and_eq_true] at h
      obtain ⟨⟨-, hlive⟩, h⟩ := h
      split at h
      · cases h
      next runs hruns =>
        obtain ⟨t₁, hset, h⟩ := bind_eq_ok.1 h
        cases h
        obtain ⟨row', hupdate, rfl⟩ := updateJob_eq_ok hset
        rw [(decodeJob_eq_ok hread).1] at hlive
        exact .start hrow (state_of_live hlive) hupdate

theorem change_of_finish {r : Return} {contextErr : Option GoError} {attempt : Attempt}
    (h : finishCapacityDispatchFirstCommit codec env r contextErr t = .ok attempt) :
    (∃ t' first, attempt = .written t' first ∧
      Change codec env t (.finish r contextErr) t' (.written first)) ∨
    ∃ current, attempt = .landed current ∧
      Change codec env t (.finish r contextErr) t (.landed current) := by
  simp only [finishCapacityDispatchFirstCommit] at h
  split at h
  · cases h
  next row hrow =>
    split at h
    · cases h
    next current hread =>
      simp only [unit_bind_eq_ok, require_eq_ok, Bool.and_eq_true] at h
      obtain ⟨⟨hsame, -⟩, h⟩ := h
      split at h
      next hstate =>
        simp only [unit_bind_eq_ok] at h
        obtain ⟨-, h⟩ := h
        obtain ⟨⟨t₁, first⟩, hwrite, h⟩ := bind_eq_ok.1 h
        cases h
        refine .inl ⟨t₁, first, rfl, ?_⟩
        rw [writeReturn] at hwrite
        split at hwrite
        · cases hwrite
        · obtain ⟨t₂, hset, hwrite⟩ := bind_eq_ok.1 hwrite
          obtain ⟨row', hupdate, rfl⟩ := updateJob_eq_ok hset
          split at hwrite
          · cases hwrite
          · cases hwrite
            rw [(decodeJob_eq_ok hread).1] at hstate
            exact .finish hrow hread hsame hstate hupdate
      · simp only [unit_bind_eq_ok, require_eq_ok] at h
        obtain ⟨hlanded, h⟩ := h
        cases h
        exact .inr ⟨current, rfl, .landed hrow hread hsame hlanded⟩

theorem change_of_acknowledge
    (h : acknowledgeCapacityDispatchFinalization codec env job t = .ok t') :
    Change codec env t (.acknowledge job) t' .done := by
  simp only [acknowledgeCapacityDispatchFinalization, unit_bind_eq_ok] at h
  obtain ⟨-, h⟩ := h
  split at h
  · cases h
  next row hrow =>
    split at h
    · cases h
    next current hread =>
      simp only [unit_bind_eq_ok, require_eq_ok, Bool.and_eq_true, beq_iff_eq,
        Option.isNone_iff_eq_none] at h
      obtain ⟨⟨⟨⟨⟨⟨hsame, hstate⟩, -⟩, hack⟩, horiginal⟩, hlive⟩, hset⟩ := h
      obtain ⟨row', hupdate, rfl⟩ := updateJob_eq_ok hset
      rw [(decodeJob_eq_ok hread).1] at hstate hack
      exact .acknowledge hrow hread hsame hstate hack horiginal hlive hupdate

theorem change_of_markUnknown {reason : String}
    (h : markCapacityDispatchFinalizationUnknown env job reason t = .ok t') :
    Change codec env t (.markUnknown job reason) t' .done := by
  rw [markCapacityDispatchFinalizationUnknown] at h
  split at h
  next row startedAt hrow hstarted =>
    simp only [unit_bind_eq_ok, require_eq_ok, Bool.and_eq_true, Bool.or_eq_true, beq_iff_eq,
      Option.isNone_iff_eq_none] at h
    obtain ⟨⟨⟨⟨-, hstate⟩, hack⟩, -⟩, h⟩ := h
    obtain ⟨t₁, hset, h⟩ := bind_eq_ok.1 h
    cases h
    obtain ⟨row', hupdate, rfl⟩ := updateJob_eq_ok hset
    exact .markUnknown hrow hstate hack hupdate
  · cases h

theorem change_of_perform {operation : Operation} {reply : Reply}
    (h : perform codec operation env t = .ok (t', reply)) :
    Change codec env t operation t' reply := by
  cases operation with
  | enqueue e =>
    obtain ⟨⟨t₁, enqueued⟩, h₁, h⟩ := bind_eq_ok.1 h
    cases h
    exact change_of_enqueue h₁
  | claim realm environment owner lease =>
    obtain ⟨⟨t₁, job⟩, h₁, h⟩ := bind_eq_ok.1 h
    cases h
    exact change_of_claim h₁
  | start job =>
    obtain ⟨⟨t₁, current⟩, h₁, h⟩ := bind_eq_ok.1 h
    cases h
    exact change_of_start h₁
  | finish r contextErr =>
    obtain ⟨attempt, h₁, h⟩ := bind_eq_ok.1 h
    rcases change_of_finish h₁ with ⟨t₁, first, rfl, hchange⟩ | ⟨current, rfl, hchange⟩ <;>
    · cases h
      exact hchange
  | acknowledge job =>
    obtain ⟨t₁, h₁, h⟩ := bind_eq_ok.1 h
    cases h
    exact change_of_acknowledge h₁
  | markUnknown job reason =>
    obtain ⟨t₁, h₁, h⟩ := bind_eq_ok.1 h
    cases h
    exact change_of_markUnknown h₁

theorem change_of_step {c : Committed} (h : Step codec t (some c) t') :
    Change codec c.env t c.operation t' c.reply := by
  cases h with
  | commit h => exact change_of_perform h

/-- A job keeps what it is, its start and its return, and is not active again. -/
structure Follows (r r' : JobRow) : Prop where
  id_eq : r'.id = r.id
  scope_eq : r'.scope = r.scope
  fence_le : r.fencingToken ≤ r'.fencingToken
  started_eq : r.startedAt.isSome → r'.startedAt = r.startedAt ∧ r'.lease = r.lease
  returned_eq : r.returnedAt.isSome → r'.returnedAt = r.returnedAt
  unknown_of : r.state = .unknown → r'.state = .unknown
  active_of : r'.active = true → r.active = true

theorem Follows.refl (r : JobRow) : Follows r r :=
  ⟨rfl, rfl, le_rfl, fun _ => ⟨rfl, rfl⟩, fun _ => rfl, id, id⟩

theorem Follows.trans {r s u : JobRow} (h : Follows r s) (h' : Follows s u) : Follows r u where
  id_eq := h'.id_eq.trans h.id_eq
  scope_eq := h'.scope_eq.trans h.scope_eq
  fence_le := h.fence_le.trans h'.fence_le
  started_eq := fun hstarted => by
    obtain ⟨hs, hlease⟩ := h.started_eq hstarted
    obtain ⟨hs', hlease'⟩ := h'.started_eq (hs ▸ hstarted)
    exact ⟨hs'.trans hs, hlease'.trans hlease⟩
  returned_eq := fun hreturned => by
    have hr := h.returned_eq hreturned
    exact (h'.returned_eq (hr ▸ hreturned)).trans hr
  unknown_of := fun hunknown => h'.unknown_of (h.unknown_of hunknown)
  active_of := fun hactive => h.active_of (h'.active_of hactive)

theorem fence_le_of_guard (h : guardCapacityDispatchJob clock old new = true) :
    old.fencingToken ≤ new.fencingToken := by
  simp only [guardCapacityDispatchJob, Bool.and_eq_true, Bool.or_eq_true, beq_iff_eq] at h
  obtain ⟨⟨⟨⟨⟨⟨⟨⟨⟨-, hstart⟩, -⟩, hclaim⟩, -⟩, -⟩, -⟩, -⟩, -⟩, -⟩ := h
  have hsame : new.lease = old.lease → old.fencingToken ≤ new.fencingToken := fun hlease => by
    simp only [JobColumns.lease, Prod.mk.injEq] at hlease
    exact hlease.2.1.ge
  rcases hstart with hnone | ⟨-, hlease⟩
  · rcases hclaim with (hsome | hlease) | hallowed
    · simp [Option.isNone_iff_eq_none.1 hnone] at hsome
    · exact hsame hlease
    · simp only [claimAllowed, Bool.and_eq_true, beq_iff_eq] at hallowed
      omega
  · exact hsame hlease

theorem active_of_guard (h : guardCapacityDispatchJob clock old new = true)
    (hactive : new.active = true) : old.active = true := by
  simp only [guardCapacityDispatchJob, Bool.and_eq_true, Bool.or_eq_true, beq_iff_eq] at h
  obtain ⟨⟨⟨-, hack⟩, -⟩, -⟩ := h
  rcases hack with hnone | ⟨hack, hstate⟩
  · simp only [JobColumns.active]
    split
    · exact hnone
    · rfl
  · simp only [JobColumns.active, hack, hstate] at hactive ⊢
    exact hactive

theorem Update.follows {row' : JobRow} (h : Update clock row new row') : Follows row row' := by
  have hguard := h.guard
  simp only [guardCapacityDispatchJob, Bool.and_eq_true, Bool.or_eq_true, beq_iff_eq] at hguard
  obtain ⟨⟨⟨⟨⟨⟨⟨⟨⟨hid, hstart⟩, -⟩, -⟩, -⟩, -⟩, hreturn⟩, -⟩, -⟩, hstate⟩ := hguard
  simp only [JobColumns.identity, Prod.mk.injEq] at hid
  refine ⟨hid.1, hid.2.2.2.1, fence_le_of_guard h.guard, fun hstarted => ?_,
    fun hreturned => ?_, fun hunknown => ?_, active_of_guard h.guard⟩
  · rcases hstart with hnone | hkept
    · simp [Option.isNone_iff_eq_none.1 hnone] at hstarted
    · exact hkept
  · rcases hreturn with hnone | hkept
    · simp [Option.isNone_iff_eq_none.1 hnone] at hreturned
    · exact hkept.1.1
  · simpa [hunknown] using hstate

end Yggdrasil.Capacity.Dispatch
