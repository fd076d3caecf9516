import Yggdrasil.Capacity.Dispatch.Spec

/-!
# The queue of jobs

What holds over every run of the queue (`dispatch_jobs`). To the queue a transaction is one of four
effects (`Effect`), of which each preserves the invariant that relates jobs and wakes (`Queued`).
-/

namespace Yggdrasil.Capacity.Dispatch

variable {codec : Codec} {env : Env} {t t' : Tables} {r row row' : JobRow}
  {c : Committed} {id : String} {jobs : Table JobRow.key} {job : CapacityDispatchJob}
  {e : CapacityDispatchEnvelope}

/-! ## Effects -/

/-- What a step does to jobs and wakes. -/
inductive Effect (t t' : Tables) : Prop
  | keep (hjobs : t'.jobs = t.jobs) (hwakes : t'.wakes = t.wakes)
  | update {row row' : JobRow} (hrow : row ∈ t.jobs) (hfollows : Follows row row')
      (hack : row.finalizationAckAt = none)
      (hcount : row'.pendingWakeCount = row.pendingWakeCount)
      (hjobs : t'.jobs = t.jobs.set row') (hwakes : t'.wakes = t.wakes)
  | wake {row row' : JobRow} {tick : String} (hrow : row ∈ t.jobs) (hfollows : Follows row row')
      (hack : row.finalizationAckAt = none)
      (hcount : row'.pendingWakeCount = row.pendingWakeCount + 1)
      (hjobs : t'.jobs = t.jobs.set row')
      (hwakes : t.wakes.insert? ⟨row.scope, tick, row.id⟩ = some t'.wakes)
  | create {row : JobRow} {tick : String}
      (hfree : ∀ r ∈ t.jobs, r.scope = row.scope → r.active = false)
      (hcount : row.pendingWakeCount = 1) (hjobs : t.jobs.insert? row = some t'.jobs)
      (hwakes : t.wakes.insert? ⟨row.scope, tick, row.id⟩ = some t'.wakes)

theorem Effect.of_update {clock : ℤ} {new : JobColumns} {runs : Table WorkflowRun.id}
    (hrow : row ∈ t.jobs) (hupdate : Update clock row new row')
    (hack : row.finalizationAckAt = none) (hcount : new.pendingWakeCount = row.pendingWakeCount)
    (hjobs : jobs = t.jobs.set row') : Effect t ⟨jobs, t.wakes, runs⟩ :=
  .update hrow hupdate.follows hack (hupdate.columns ▸ hcount) hjobs rfl

theorem Change.effect {operation : Operation} {reply : Reply}
    (h : Change codec env t operation t' reply) : Effect t t' := by
  cases h with
  | duplicate | landed => exact .keep rfl rfl
  | coalesce hrow hscope hactive _ hupdate hwakes =>
    exact .wake hrow hupdate.follows (JobRow.active_iff.1 hactive) (by rw [hupdate.columns]) rfl
      (hscope ▸ hwakes)
  | @create e raw row _ _ wakes _ hcolumns hfree _ hjobs hwakes =>
    have hscope : row.scope = e.scope := by rw [hcolumns, queuedJob]
    have hid : row.id = e.jobID := by rw [hcolumns, queuedJob]
    have hcount : row.pendingWakeCount = 1 := by rw [hcolumns, queuedJob]
    have hwake : t.wakes.insert? ⟨row.scope, e.sourceTick, row.id⟩ = some wakes := by
      rw [hscope, hid]
      exact hwakes
    exact .create (fun r hr hr' => hfree r hr (hr'.trans hscope)) hcount hjobs hwake
  | claim hrow hstate hupdate =>
    exact .of_update hrow hupdate (JobRow.finalizationAckAt_of_ne (by simp [hstate])) rfl rfl
  | start hrow hstate hupdate =>
    exact .of_update (Table.get?_eq_some.1 hrow).1 hupdate
      (JobRow.finalizationAckAt_of_ne (by simp [hstate])) rfl rfl
  | finish hrow _ _ hstate hupdate =>
    exact .of_update (Table.get?_eq_some.1 hrow).1 hupdate
      (JobRow.finalizationAckAt_of_ne (by simp [hstate])) rfl rfl
  | acknowledge hrow _ _ _ hack _ _ hupdate =>
    exact .of_update (Table.get?_eq_some.1 hrow).1 hupdate hack rfl rfl
  | markUnknown hrow _ hack hupdate =>
    exact .of_update (Table.get?_eq_some.1 hrow).1 hupdate hack rfl rfl

theorem effect_of_step {label : Option Committed} (h : Step codec t label t') : Effect t t' := by
  cases h with
  | commit h => exact (change_of_perform h).effect
  | refuse | rewrite => exact .keep rfl rfl

/-- No step removes a job. -/
theorem Effect.exists_follows (h : Effect t t') (hr : r ∈ t.jobs) :
    ∃ r' ∈ t'.jobs, Follows r r' := by
  cases h with
  | keep hjobs => exact ⟨r, hjobs ▸ hr, .refl r⟩
  | update hrow hfollows _ _ hjobs | wake hrow hfollows _ _ hjobs =>
    rw [hjobs]
    exact (Table.rel_set .refl hrow hfollows.id_eq hfollows).1 r hr
  | create _ _ hjobs => exact ⟨r, (Table.mem_of_insert? hjobs).2 (.inr hr), .refl r⟩

/-- No step removes or changes a wake. -/
theorem Effect.mem_wakes {w : WakeRow} (h : Effect t t') (hw : w ∈ t.wakes) : w ∈ t'.wakes := by
  cases h with
  | keep _ hwakes | update _ _ _ _ _ hwakes => exact hwakes ▸ hw
  | wake _ _ _ _ _ hwakes | create _ _ _ hwakes => exact (Table.mem_of_insert? hwakes).2 (.inr hw)

/-- No step changes a job that is acknowledged. -/
theorem Effect.mem_of_acknowledged (h : Effect t t') (hr : r ∈ t.jobs)
    (hack : r.finalizationAckAt ≠ none) : r ∈ t'.jobs := by
  cases h with
  | keep hjobs => exact hjobs ▸ hr
  | @update row row' hrow hfollows hnone _ hjobs | @wake row row' _ hrow hfollows hnone _ hjobs =>
    rw [hjobs]
    refine Table.mem_set.2 (.inr ⟨hr, fun hid => hack ?_⟩)
    rw [Table.eq_of_key_eq hr hrow (hid.trans hfollows.id_eq)]
    exact hnone
  | create _ _ hjobs => exact (Table.mem_of_insert? hjobs).2 (.inr hr)

/-! ## The invariant -/

/-- No two active jobs hold the same dimension. -/
def ActiveUnique (t : Tables) : Prop :=
  ∀ i ∈ t.jobs, ∀ j ∈ t.jobs, i.active = true → j.active = true → i.scope = j.scope → i = j

/-- Every wake is of a job of its dimension. -/
def WakesJob (t : Tables) : Prop :=
  ∀ w ∈ t.wakes, ∃ j ∈ t.jobs, j.id = w.jobID ∧ j.scope = w.scope

/-- Every job counts its wakes. -/
def CountsWakes (t : Tables) : Prop :=
  ∀ j ∈ t.jobs, t.wakes.count (·.jobID == j.id) = j.pendingWakeCount

/-- What holds of the tables in every run. -/
structure Queued (t : Tables) : Prop where
  active_unique : ActiveUnique t
  wakes_job : WakesJob t
  counts_wakes : CountsWakes t

theorem ActiveUnique.of_follows (h : ActiveUnique t) (hjobs : t'.jobs = jobs)
    (hback : ∀ r' ∈ jobs, ∃ r ∈ t.jobs, Follows r r') : ActiveUnique t' := by
  intro i hi j hj hiactive hjactive hscope
  obtain ⟨i₀, hi₀, hfi⟩ := hback i (hjobs ▸ hi)
  obtain ⟨j₀, hj₀, hfj⟩ := hback j (hjobs ▸ hj)
  have heq : i₀ = j₀ := h i₀ hi₀ j₀ hj₀ (hfi.active_of hiactive) (hfj.active_of hjactive)
    (hfi.scope_eq.symm.trans (hscope.trans hfj.scope_eq))
  exact Table.eq_of_key_eq hi hj (hfi.id_eq.trans (heq ▸ hfj.id_eq.symm))

theorem Effect.activeUnique (h : Effect t t') (hunique : ActiveUnique t) : ActiveUnique t' := by
  cases h with
  | keep hjobs => exact hunique.of_follows hjobs fun r hr => ⟨r, hr, .refl r⟩
  | update hrow hfollows _ _ hjobs | wake hrow hfollows _ _ hjobs =>
    exact hunique.of_follows hjobs (Table.rel_set .refl hrow hfollows.id_eq hfollows).2
  | @create row _ hfree _ hjobs =>
    intro i hi j hj hiactive hjactive hscope
    -- A job that was there is not active in the dimension of the new one.
    rcases (Table.mem_of_insert? hjobs).1 hi with rfl | hi <;>
      rcases (Table.mem_of_insert? hjobs).1 hj with rfl | hj
    · rfl
    · simp [hfree j hj hscope.symm] at hjactive
    · simp [hfree i hi hscope] at hiactive
    · exact hunique i hi j hj hiactive hjactive hscope

theorem Effect.wakesJob (h : Effect t t') (hwakes : WakesJob t) : WakesJob t' := by
  have hold : ∀ w ∈ t.wakes, ∃ j ∈ t'.jobs, j.id = w.jobID ∧ j.scope = w.scope := fun w hw => by
    obtain ⟨j, hj, hid, hscope⟩ := hwakes w hw
    obtain ⟨j', hj', hfollows⟩ := h.exists_follows hj
    exact ⟨j', hj', hfollows.id_eq.trans hid, hfollows.scope_eq.trans hscope⟩
  intro w hw
  cases h with
  | keep _ heq | update _ _ _ _ _ heq => exact hold w (heq ▸ hw)
  | @wake row row' _ hrow hfollows _ _ hjobs hinsert =>
    rcases (Table.mem_of_insert? hinsert).1 hw with rfl | hw
    · have hmem : row' ∈ t'.jobs :=
        hjobs ▸ Table.mem_set.2 (.inl ⟨rfl, row, hrow, hfollows.id_eq.symm⟩)
      exact ⟨row', hmem, hfollows.id_eq, hfollows.scope_eq⟩
    · exact hold w hw
  | @create row _ _ _ hjobs hinsert =>
    rcases (Table.mem_of_insert? hinsert).1 hw with rfl | hw
    · exact ⟨row, (Table.mem_of_insert? hjobs).2 (.inl rfl), rfl, rfl⟩
    · exact hold w hw

theorem Effect.countsWakes (h : Effect t t') (hwakes : WakesJob t) (hcounts : CountsWakes t) :
    CountsWakes t' := by
  intro j hj
  cases h with
  | keep hjobs heq =>
    rw [heq]
    exact hcounts j (hjobs ▸ hj)
  | @update row row' hrow hfollows _ hcount hjobs heq =>
    rw [heq]
    rcases Table.mem_set.1 (hjobs ▸ hj) with ⟨rfl, -⟩ | ⟨hj, -⟩
    · rw [hfollows.id_eq, hcounts row hrow, hcount]
    · exact hcounts j hj
  | @wake row row' _ hrow hfollows _ hcount hjobs hinsert =>
    rw [Table.count_insert? hinsert]
    rcases Table.mem_set.1 (hjobs ▸ hj) with ⟨rfl, -⟩ | ⟨hj, hne⟩
    · simp [hfollows.id_eq, hcounts row hrow, hcount]
    · have hnot : (row.id == j.id) = false :=
        beq_eq_false_iff_ne.2 fun hid => hne (hid.symm.trans hfollows.id_eq.symm)
      simp [hnot, hcounts j hj]
  | @create row _ _ hcount hjobs hinsert =>
    rw [Table.count_insert? hinsert]
    have hfresh := (Table.insert?_eq_some hjobs).1
    rcases (Table.mem_of_insert? hjobs).1 hj with rfl | hj
    · -- The job is new, so no wake was of it.
      have hzero : t.wakes.count (·.jobID == j.id) = 0 := Table.count_eq_zero.2 fun w hw => by
        obtain ⟨i, hi, hid, -⟩ := hwakes w hw
        exact beq_eq_false_iff_ne.2 fun heq => hfresh i hi (hid.trans heq)
      simp [hzero, hcount]
    · have hnot : (row.id == j.id) = false := beq_eq_false_iff_ne.2 fun hid => hfresh j hj hid.symm
      simp [hnot, hcounts j hj]

theorem Effect.queued (h : Effect t t') (hqueued : Queued t) : Queued t' :=
  ⟨h.activeUnique hqueued.active_unique, h.wakesJob hqueued.wakes_job,
    h.countsWakes hqueued.wakes_job hqueued.counts_wakes⟩

/-! ## Runs -/

/-- The commit started a job. -/
def Committed.Starts (c : Committed) (id : String) : Prop :=
  ∃ job, c.operation = .start job ∧ job.jobID = id

/-- The commit claimed a job, and replied with it. -/
def Committed.Claims (c : Committed) (job : CapacityDispatchJob) : Prop :=
  (∃ realm environment owner lease, c.operation = .claim realm environment owner lease) ∧
    c.reply = .job job

/-- The commit enqueued the tick of an envelope, and replied with its job. -/
def Committed.Enqueues (c : Committed) (e : CapacityDispatchEnvelope) (id : String) : Prop :=
  c.operation = .enqueue e ∧ ∃ reply, c.reply = .enqueued reply ∧ reply.job.jobID = id

/-- The tick of a dimension was coalesced into the job `j`. -/
def TickOf (t : Tables) (scope : Scope) (tick : String) (j : JobRow) : Prop :=
  j ∈ t.jobs ∧ ⟨scope, tick, j.id⟩ ∈ t.wakes

theorem Change.of_starts (h : Step codec t (some c) t') (hstarts : c.Starts id) :
    ∃ r ∈ t.jobs, ∃ r' ∈ t'.jobs, r.id = id ∧ r'.id = id ∧ r.state = .queued ∧
      r'.startedAt.isSome := by
  obtain ⟨job, hop, rfl⟩ := hstarts
  have hchange := change_of_step h
  rw [hop] at hchange
  generalize c.reply = reply at hchange
  cases hchange with
  | @start _ _ row row' _ hrow hstate hupdate =>
    obtain ⟨hmem, hid⟩ := Table.get?_eq_some.1 hrow
    have hid' := hupdate.follows.id_eq
    refine ⟨row, hmem, row', Table.mem_set.2 (.inl ⟨rfl, row, hmem, hid'.symm⟩), hid,
      hid'.trans hid, hstate, ?_⟩
    rw [hupdate.columns]
    rfl

theorem Change.of_claims (h : Step codec t (some c) t') (hclaims : c.Claims job) :
    ∃ r ∈ t.jobs, ∃ r' ∈ t'.jobs, r.id = job.jobID ∧ r'.id = job.jobID ∧
      r.fencingToken < r'.fencingToken ∧ job.fencingToken = r'.fencingToken := by
  obtain ⟨⟨realm, environment, owner, lease, hop⟩, hreply⟩ := hclaims
  have hchange := change_of_step h
  rw [hop, hreply] at hchange
  cases hchange with
  | @claim _ _ _ _ _ row row' _ hrow _ hupdate hjob hfence =>
    have hid' := hupdate.follows.id_eq
    refine ⟨row, hrow, row', Table.mem_set.2 (.inl ⟨rfl, row, hrow, hid'.symm⟩), hjob.symm,
      hid'.trans hjob.symm, ?_, hfence⟩
    rw [hupdate.columns, claimedJob]
    exact Int.lt_succ row.fencingToken

theorem Change.of_enqueues (h : Step codec t (some c) t') (henqueues : c.Enqueues e id) :
    ⟨e.scope, e.sourceTick, id⟩ ∈ t'.wakes := by
  obtain ⟨hop, reply, hreply, rfl⟩ := henqueues
  have hchange := change_of_step h
  rw [hop, hreply] at hchange
  cases hchange with
  | @duplicate _ wake job hwake hjob =>
    obtain ⟨hmem, hkey⟩ := Table.get?_eq_some.1 hwake
    obtain ⟨row, -, hid, hread⟩ := readCapacityDispatchJob_eq_ok hjob
    have hjobID : job.jobID = wake.jobID := (jobID_of_decodeJob hread).trans hid
    simp only [WakeRow.key, Prod.mk.injEq] at hkey
    rw [← hkey.1, ← hkey.2, hjobID]
    exact hmem
  | coalesce _ _ _ hjob _ hwakes =>
    exact (Table.mem_of_insert? hwakes).2 (.inl (by rw [hjob]))
  | create _ _ hjob _ hwakes =>
    exact (Table.mem_of_insert? hwakes).2 (.inl (by rw [hjob]))

section Run

variable {ρ : ℕ → Tables} {δ : ℕ → Option Committed} {m n : ℕ} {d : Committed}

theorem exists_follows_of_isRun (h : IsRun (Step codec) ρ δ) (hmn : m ≤ n) (hr : r ∈ (ρ m).jobs) :
    ∃ r' ∈ (ρ n).jobs, Follows r r' := by
  refine h.stable (P := fun t => ∃ r' ∈ t.jobs, Follows r r') ?_ ⟨r, hr, .refl r⟩ hmn
  rintro s l s' ⟨r', hr', hfollows⟩ hstep
  obtain ⟨r'', hr'', hfollows'⟩ := (effect_of_step hstep).exists_follows hr'
  exact ⟨r'', hr'', hfollows.trans hfollows'⟩

theorem queued_of_isRun (h : IsRun (Step codec) ρ δ) (hjobs : (ρ 0).jobs = .empty)
    (hwakes : (ρ 0).wakes = .empty) (n : ℕ) : Queued (ρ n) := by
  have hstart : Queued (ρ 0) :=
    ⟨fun i hi => by simp [hjobs, Table.mem_def, Table.empty] at hi,
      fun w hw => by simp [hwakes, Table.mem_def, Table.empty] at hw,
      fun j hj => by simp [hjobs, Table.mem_def, Table.empty] at hj⟩
  exact h.invariant hstart (fun s l s' hs hstep => (effect_of_step hstep).queued hs) n

/-- A job that was started at `m` is not started again. -/
theorem not_starts_of_lt (h : IsRun (Step codec) ρ δ) (hmn : m < n) (hc : δ m = some c)
    (hd : δ n = some d) (hstarts : c.Starts id) : ¬ d.Starts id := by
  intro hstarts'
  obtain ⟨-, -, r, hr, -, hid, -, hsome⟩ := Change.of_starts (hc ▸ h m) hstarts
  obtain ⟨s, hs, -, -, hsid, -, hqueued, -⟩ := Change.of_starts (hd ▸ h n) hstarts'
  obtain ⟨r', hr', hfollows⟩ := exists_follows_of_isRun h hmn hr
  have heq : r' = s := Table.eq_of_key_eq hr' hs (hfollows.id_eq.trans (hid.trans hsid.symm))
  have hnone := JobRow.startedAt_of_queued hqueued
  rw [← heq, (hfollows.started_eq hsome).1] at hnone
  simp [hnone] at hsome

theorem fence_lt_of_lt (h : IsRun (Step codec) ρ δ) {job' : CapacityDispatchJob} (hmn : m < n)
    (hc : δ m = some c) (hd : δ n = some d) (hclaims : c.Claims job) (hclaims' : d.Claims job')
    (hid : job.jobID = job'.jobID) : job.fencingToken < job'.fencingToken := by
  obtain ⟨-, -, r, hr, -, hr_id, -, hfence⟩ := Change.of_claims (hc ▸ h m) hclaims
  obtain ⟨s, hs, s', -, hs_id, -, hlt, hfence'⟩ := Change.of_claims (hd ▸ h n) hclaims'
  obtain ⟨r', hr', hfollows⟩ := exists_follows_of_isRun h hmn hr
  have heq : r' = s :=
    Table.eq_of_key_eq hr' hs (hfollows.id_eq.trans (hr_id.trans (hid.trans hs_id.symm)))
  calc job.fencingToken = r.fencingToken := hfence
    _ ≤ r'.fencingToken := hfollows.fence_le
    _ = s.fencingToken := by rw [heq]
    _ < s'.fencingToken := hlt
    _ = job'.fencingToken := hfence'.symm

theorem eq_of_tickOf {scope : Scope} {tick : String} {i j : JobRow} (hi : TickOf t scope tick i)
    (hj : TickOf t scope tick j) : i = j := by
  have hwake := Table.eq_of_key_eq hi.2 hj.2 rfl
  simp only [WakeRow.mk.injEq, true_and] at hwake
  exact Table.eq_of_key_eq hi.1 hj.1 hwake

/-- The tick of a committed enqueue has the job of its reply from then on. -/
theorem exists_tickOf (h : IsRun (Step codec) ρ δ) (hqueued : ∀ n, Queued (ρ n)) (hnm : n < m)
    (hc : δ n = some c) (henqueues : c.Enqueues e id) :
    ∃ j, TickOf (ρ m) e.scope e.sourceTick j ∧ j.id = id := by
  have hwake : ⟨e.scope, e.sourceTick, id⟩ ∈ (ρ m).wakes :=
    h.stable (P := fun t => ⟨e.scope, e.sourceTick, id⟩ ∈ t.wakes)
      (fun s l s' hs hstep => (effect_of_step hstep).mem_wakes hs)
      (Change.of_enqueues (hc ▸ h n) henqueues) hnm
  obtain ⟨j, hj, hid, -⟩ := (hqueued m).wakes_job _ hwake
  exact ⟨j, ⟨hj, hid ▸ hwake⟩, hid⟩

/-- Over every run that begins without jobs: a job is started at most once; each claim raises its
    fence over every claim before; at most one job is active in a dimension; an enqueued tick has
    exactly the job that the reply named; and a job counts its wakes, which are 32 at most. -/
theorem dispatch_jobs (h : IsRun (Step codec) ρ δ) (hjobs : (ρ 0).jobs = .empty)
    (hwakes : (ρ 0).wakes = .empty) :
    (∀ m n c d id, δ m = some c → δ n = some d → c.Starts id → d.Starts id → m = n) ∧
    (∀ n c job, δ n = some c → c.Claims job →
      ∃ r ∈ (ρ n).jobs, ∃ r' ∈ (ρ (n + 1)).jobs, r.id = job.jobID ∧ r'.id = job.jobID ∧
        r.fencingToken < r'.fencingToken ∧ job.fencingToken = r'.fencingToken) ∧
    (∀ m n c d job job', m < n → δ m = some c → δ n = some d → c.Claims job → d.Claims job' →
      job.jobID = job'.jobID → job.fencingToken < job'.fencingToken) ∧
    (∀ n, ∀ i ∈ (ρ n).jobs, ∀ j ∈ (ρ n).jobs, i.active = true → j.active = true →
      i.scope = j.scope → i = j) ∧
    (∀ m n c e id, n < m → δ n = some c → c.Enqueues e id →
      ∃! j, TickOf (ρ m) e.scope e.sourceTick j ∧ j.id = id) ∧
    (∀ m scope tick i j, TickOf (ρ m) scope tick i → TickOf (ρ m) scope tick j → i = j) ∧
    ∀ n, ∀ j ∈ (ρ n).jobs,
      j.pendingWakeCount = (ρ n).wakes.count (·.jobID == j.id) ∧ j.pendingWakeCount ≤ 32 := by
  have hqueued := queued_of_isRun h hjobs hwakes
  refine ⟨fun m n c d id hc hd hstarts hstarts' => ?_,
    fun n c job hc hclaims => Change.of_claims (hc ▸ h n) hclaims,
    fun m n c d job job' => fence_lt_of_lt h, fun n => (hqueued n).active_unique,
    fun m n c e id hnm hc henqueues => ?_, fun m scope tick i j => eq_of_tickOf,
    fun n j hj => ⟨((hqueued n).counts_wakes j hj).symm, j.pendingWakeCount_le⟩⟩
  · rcases lt_trichotomy m n with hlt | heq | hlt
    · exact absurd hstarts' (not_starts_of_lt h hlt hc hd hstarts)
    · exact heq
    · exact absurd hstarts (not_starts_of_lt h hlt hd hc hstarts')
  · obtain ⟨j, hj, hid⟩ := exists_tickOf h hqueued hnm hc henqueues
    exact ⟨j, ⟨hj, hid⟩, fun i hi => eq_of_tickOf hi.1 hj⟩

/-- The job of two ticks is claimed twice and finished. -/
theorem sample_dispatch_jobs :
    ((replay (commit Sample.codec) Sample.calls Sample.start 7).jobs.rows.map fun j =>
      (j.pendingWakeCount, j.fencingToken, j.active)) = [(2, 2, false)] ∧
    ∀ j ∈ (replay (commit Sample.codec) Sample.calls Sample.start 7).jobs,
      j.pendingWakeCount = (replay (commit Sample.codec) Sample.calls Sample.start 7).wakes.count
        (·.jobID == j.id) ∧ j.pendingWakeCount ≤ 32 :=
  ⟨by decide +kernel,
    (dispatch_jobs (isRun_replay (commit Sample.codec) Sample.calls Sample.start
      (fun _ _ _ _ => step_of_commit) .refuse) rfl rfl).2.2.2.2.2.2 7⟩

end Run

end Yggdrasil.Capacity.Dispatch
