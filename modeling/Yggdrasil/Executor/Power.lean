import Yggdrasil.Executor.Spec

/-!
# Power commands

Whatever the interleaving, power commands do not overlap: a command is recorded before it is sent,
when none is recorded, until the provider reports its invocation as joined.
-/

namespace Yggdrasil.Executor

variable {p : ExecutorActivityPolicy} {now : ℤ} {r : Reducer} {s t : ExecutorActivityState}
  {id : String} {cmd : PowerCommand} {k : ℕ} {w : WorkerSnapshot}

/-! ## One transaction -/

theorem finished_of_activeJobs {job : Job} (h : activeJobs s = 0)
    (hjob : s.jobs.get? id = some (id, job)) : job.state = .finished := by
  have hcount := Table.count_eq_zero.1 h _ (Table.get?_eq_some.1 hjob).1
  simpa using hcount

@[simp]
theorem observed_keeps (p : ExecutorActivityPolicy) (o : ExecutorActivityObservation) (now : ℤ)
    (s : ExecutorActivityState) :
    (observed p o now s).power = s.power ∧
    (observed p o now s).powerHistory = s.powerHistory ∧
    (observed p o now s).stop = s.stop ∧ (observed p o now s).jobs = s.jobs ∧
    (observed p o now s).tasks = s.tasks := by
  rw [observed]
  split <;> exact ⟨rfl, rfl, rfl, rfl, rfl⟩

theorem Outcome.power (h : Outcome p now r s t) (hpower : s.power = some cmd) :
    t.power = some cmd ∨
      (r.settles = some cmd.id ∧ (t.powerHistory.get? cmd.id).isSome = true) := by
  cases h with
  | demand hdemand => exact .inl (hdemand.power.trans hpower)
  | start cmd' hunused => exact absurd hpower (by simp [hunused.power])
  | stop o cmd' hr haction hid hunused => exact absurd hpower (by simp [hunused.power])
  | settleStart cmd' hr hold hid | settleStop cmd' hr hold hid =>
    cases hold.symm.trans hpower
    refine .inr ⟨hid ▸ hr, ?_⟩
    rw [Table.get?_upsert, if_pos hid.symm]
    rfl
  | observe | observeReserve => exact .inl ((observed_keeps ..).1.trans hpower)
  | _ => exact .inl hpower

theorem Outcome.settled (h : Outcome p now r s t)
    (hsettled : (s.powerHistory.get? id).isSome = true) :
    (t.powerHistory.get? id).isSome = true := by
  cases h with
  | demand hdemand => rwa [hdemand.history]
  | settleStart cmd | settleStop cmd =>
    rw [Table.get?_upsert]
    split
    · rfl
    · exact hsettled
  | observe | observeReserve =>
    simp only [reserved, observed_keeps]
    exact hsettled
  | _ => exact hsettled

/-- A start that is recorded excludes a stop. -/
theorem Outcome.stop_of_start (h : Outcome p now r s t)
    (hs : ∀ cmd, s.power = some cmd → cmd.action = .start → s.stop = none)
    (hpower : t.power = some cmd) (haction : cmd.action = .start) : t.stop = none := by
  cases h with
  | demand hdemand =>
    rcases hdemand.stop with hstop | hstop
    · rw [hstop]
      exact hs cmd (hdemand.power ▸ hpower) haction
    · exact hstop
  | observe => simpa using hs cmd (by simpa using hpower) haction
  | reserve id o hstop hready =>
    have hnone : s.power = none := hready.power
    exact absurd hpower (by simp [reserved, hnone])
  | observeReserve id o hstop hready =>
    have hnone := hready.power
    exact absurd hpower (by rw [reserved, hnone]; nofun)
  | mark o hr hdrained =>
    have hnone : s.power = none := hdrained.ready.power
    exact absurd hpower (by simp [marked, hnone])
  | start cmd' hunused hstop => exact hstop
  | stop o cmd' hr hstop =>
    cases hpower
    cases hstop.symm.trans haction
  | settleStart => cases hpower
  | settleStop => rfl
  | _ => exact hs cmd hpower haction

/-- The drain may have been sent. -/
def possiblySent (stop : Option ExecutorStopReservation) : Bool :=
  stop.any (·.stage = .possibleSend)

/-- A drain is marked as possibly sent only when it was acknowledged, and the record quiet. -/
theorem Outcome.drained (h : Outcome p now r s t) (hs : possiblySent s.stop = false)
    (ht : possiblySent t.stop = true) :
    ∃ stop o, r.evidence = some o ∧ Drained p now s stop o ∧ t.stop = (marked stop now s).stop ∧
      t.tasks = s.tasks ∧ t.jobs = s.jobs := by
  cases h with
  | @mark stop o hr hdrained => exact ⟨stop, o, hr, hdrained, rfl, rfl, rfl⟩
  | @stop stop o cmd hr haction hid hunused hdrained =>
    exact ⟨stop, o, hr, hdrained, rfl, rfl, rfl⟩
  | demand hdemand =>
    rcases hdemand.stop with hstop | hstop
    · rw [hstop, hs] at ht
      cases ht
    · rw [hstop] at ht
      cases ht
  | observe => simp [hs] at ht
  | reserve | observeReserve => simp [reserved, possiblySent] at ht
  | settleStop => cases ht
  | _ => exact absurd ht (by simp [hs])

theorem inventoryJob_state {job : Job} (h : job.state = .queued ∨ job.state = .finished) :
    (inventoryJob w id job).toOption.getD job = job := by
  rw [inventoryJob, if_pos h]
  rfl

theorem get?_inventoryJobs {jobs : Ledger Job} :
    (inventoryJobs w jobs).get? id =
      (jobs.get? id).map fun (i, job) => (i, (inventoryJob w i job).toOption.getD job) :=
  Table.get?_map id

/-- While a stop or a command is recorded, no job leaves the queue. -/
theorem Outcome.queued (h : Outcome p now r s t) (hs : s.stop ≠ none ∨ s.power ≠ none) {job : Job}
    (hjob : t.jobs.get? id = some (id, job)) (hqueued : job.state ≠ .queued) :
    ∃ old, s.jobs.get? id = some (id, old) ∧ old.state ≠ .queued := by
  cases h with
  | demand hdemand =>
    rcases hdemand.jobs with hjobs | ⟨id', job', hnew, hstate, hjobs⟩
    · exact ⟨job, hjobs ▸ hjob, hqueued⟩
    · rw [hjobs, Table.get?_upsert] at hjob
      split at hjob
      · cases hjob
        exact absurd hstate hqueued
      · exact ⟨job, hjob, hqueued⟩
  | inventory w =>
    rw [get?_inventoryJobs] at hjob
    obtain ⟨⟨i, old⟩, hold, hmap⟩ := Option.map_eq_some_iff.1 hjob
    cases hmap
    refine ⟨old, hold, fun hold => hqueued ?_⟩
    rw [inventoryJob_state (.inl hold)]
    exact hold
  | admission id' bootID hpower hstop =>
    rcases hs with hs | hs
    · exact absurd hstop hs
    · exact absurd hpower hs
  | observe | observeReserve => exact ⟨job, by simpa [reserved] using hjob, hqueued⟩
  | _ => exact ⟨job, hjob, hqueued⟩

/-- The job was admitted and has kept stops away since, unless it is finished. -/
def Handed (s : ExecutorActivityState) (id : String) : Prop :=
  ∃ job, s.jobs.get? id = some (id, job) ∧ (job.state = .finished ∨ s.stop = none)

theorem Outcome.handed (h : Outcome p now r s t) (hs : Handed s id) : Handed t id := by
  obtain ⟨job, hjob, hstate⟩ := hs
  cases h with
  | demand hdemand =>
    have hstop : job.state = .finished ∨ t.stop = none := by
      rcases hdemand.stop with hstop | hstop
      · rwa [hstop]
      · exact .inr hstop
    refine ⟨job, ?_, hstop⟩
    rcases hdemand.jobs with hjobs | ⟨id', job', hnew, -, hjobs⟩
    · rwa [hjobs]
    · have hne : id' ≠ id := fun heq => by
        rw [heq, hjob] at hnew
        cases hnew
      rw [hjobs, Table.get?_upsert, if_neg hne]
      exact hjob
  | observe => exact ⟨job, by simpa using hjob, by simpa using hstate⟩
  | reserve id' o hstop hready =>
    exact ⟨job, hjob, .inl (finished_of_activeJobs hready.jobs hjob)⟩
  | observeReserve id' o hstop hready =>
    have hjob' : (observed p o now s).jobs.get? id = some (id, job) := by simpa using hjob
    exact ⟨job, hjob', .inl (finished_of_activeJobs hready.jobs hjob')⟩
  | mark o hr hdrained =>
    exact ⟨job, hjob, .inl (finished_of_activeJobs hdrained.ready.jobs hjob)⟩
  | stop o cmd hr haction hid hunused hdrained =>
    exact ⟨job, hjob, .inl (finished_of_activeJobs hdrained.ready.jobs hjob)⟩
  | settleStop => exact ⟨job, hjob, .inr rfl⟩
  | inventory w =>
    refine ⟨(inventoryJob w id job).toOption.getD job, ?_, ?_⟩
    · rw [get?_inventoryJobs, hjob]
      rfl
    · refine hstate.imp_left fun hfinished => ?_
      rw [inventoryJob_state (.inr hfinished)]
      exact hfinished
  | @admission id' job' bootID hpower hstop hjob' =>
    by_cases heq : id' = id
    · refine ⟨{ job' with state := .admitting, bootID }, ?_, .inr hstop⟩
      rw [Table.get?_upsert, if_pos heq, heq]
    · refine ⟨job, ?_, hstate⟩
      rw [Table.get?_upsert, if_neg heq]
      exact hjob
  | _ => exact ⟨job, hjob, hstate⟩

/-! ## One event -/

variable {controllers : ℕ → Controller} {sys : System} {e : Event}

/-- The command that is recorded. -/
def System.power (sys : System) : Option PowerCommand := sys.state?.bind (·.power)

/-- The stop that is reserved or may have been sent. -/
def System.stop (sys : System) : Option ExecutorStopReservation := sys.state?.bind (·.stop)

/-- The record of a job. -/
def System.job (sys : System) (id : String) : Option Job :=
  (sys.state?.bind (·.jobs.get? id)).map (·.2)

/-- The command is recorded as ended. -/
def System.settled (sys : System) (id : String) : Prop :=
  ∃ s, sys.state? = some s ∧ (s.powerHistory.get? id).isSome = true

/-- The observation with which an event marks a drain as possibly sent. -/
def System.evidence (controllers : ℕ → Controller) (sys : System) (e : Event) :
    Option ExecutorActivityObservation :=
  (sys.submits controllers e).bind fun (_, _, r) => r.evidence

theorem System.record_power (sys : System) (now : ℤ) : (sys.record now).power = sys.power := by
  rw [record, power]
  cases sys.state? <;> rfl

theorem System.record_stop (sys : System) (now : ℤ) : (sys.record now).stop = sys.stop := by
  rw [record, stop]
  cases sys.state? <;> rfl

theorem System.record_jobs (sys : System) (now : ℤ) (id : String) :
    (sys.record now).jobs.get? id = sys.state?.bind (·.jobs.get? id) := by
  rw [record]
  cases sys.state? <;> rfl

theorem System.settled_iff_record (sys : System) (now : ℤ) (id : String) :
    sys.settled id ↔ ((sys.record now).powerHistory.get? id).isSome = true := by
  rw [settled, record]
  cases sys.state? with
  | none => simp [initialState, Table.empty, Table.get?]
  | some s => simp

theorem System.job_eq_some {job : Job} {s : ExecutorActivityState} (h : sys.state? = some s) :
    sys.job id = some job ↔ s.jobs.get? id = some (id, job) := by
  rw [System.job, h, Option.bind_some, Option.map_eq_some_iff]
  constructor
  · rintro ⟨⟨i, job'⟩, hget, rfl⟩
    cases (Table.get?_eq_some.1 hget).2
    exact hget
  · intro hget
    exact ⟨(id, job), hget, rfl⟩

/-- A command is settled by a pass that has seen it joined. -/
theorem System.joined_of_settles {account : Account} {attempt : Attempt} {r : Reducer}
    (h : sys.submits controllers e = some (account, attempt, r)) (hr : r.settles = some id) :
    ∃ k o cmd result, sys.passes k = .joined o cmd result ∧ cmd.id = id := by
  cases r with
  | settle q o cmd result =>
    cases hr
    cases e with
    | workflow => cases h
    | move k m =>
      cases m with
      | transact attempt' random first =>
        simp only [submits, Option.map_eq_some_iff, Prod.mk.injEq] at h
        obtain ⟨r, hr, -, -, rfl⟩ := h
        generalize hphase : sys.passes k = phase at hr
        cases phase with
        | joined o' cmd' result' =>
          cases hr
          exact ⟨k, o, cmd, result, hphase, rfl⟩
        | start =>
          simp only [Controller.reducer] at hr
          split at hr <;> cases hr
        | starting o' =>
          obtain ⟨id', -, hid'⟩ := Option.map_eq_some_iff.1 hr
          cases hid'
        | _ => cases hr
      | _ => cases h
  | _ => cases hr

theorem System.power_advance (controllers : ℕ → Controller) (e : Event)
    (hpower : sys.power = some cmd) :
    (sys.advance controllers e).power = some cmd ∨
      ((sys.advance controllers e).settled cmd.id ∧
        ∃ k o ended result, sys.passes k = .joined o ended result ∧ ended.id = cmd.id) := by
  rcases sys.state?_advance controllers e with hsame | ⟨account, attempt, r, s', hcommits⟩
  · left
    rw [power, hsame]
    exact hpower
  · obtain ⟨t, houtcome, rfl⟩ := hcommits.commit.outcome
    have hrecord : (sys.record attempt.now).power = some cmd := (sys.record_power _).trans hpower
    rcases houtcome.power hrecord with hkept | ⟨hr, hsettled⟩
    · left
      rw [power, hcommits.after]
      exact hkept
    · exact .inr ⟨⟨_, hcommits.after, hsettled⟩, joined_of_settles hcommits.submits hr⟩

theorem System.settled_advance (h : sys.settled id) : (sys.advance controllers e).settled id := by
  rcases sys.state?_advance controllers e with hsame | ⟨account, attempt, r, s', hcommits⟩
  · rw [settled, hsame]
    exact h
  · obtain ⟨t, houtcome, rfl⟩ := hcommits.commit.outcome
    exact ⟨_, hcommits.after, houtcome.settled ((sys.settled_iff_record attempt.now id).1 h)⟩

/-- A start that is recorded excludes a stop. -/
def System.StartClear (sys : System) : Prop :=
  ∀ cmd, sys.power = some cmd → cmd.action = .start → sys.stop = none

theorem System.startClear_advance (h : sys.StartClear) :
    (sys.advance controllers e).StartClear := by
  rcases sys.state?_advance controllers e with hsame | ⟨account, attempt, r, s', hcommits⟩
  · rw [StartClear, power, stop, hsame]
    exact h
  · intro cmd hpower haction
    obtain ⟨t, houtcome, rfl⟩ := hcommits.commit.outcome
    rw [power, hcommits.after] at hpower
    rw [stop, hcommits.after]
    refine houtcome.stop_of_start (fun cmd' hpower' haction' => ?_) hpower haction
    exact (sys.record_stop _).trans (h cmd' ((sys.record_power _).symm.trans hpower') haction')

/-- While a stop or a command is recorded, an event takes no job out of the queue. -/
theorem System.queued_advance (h : sys.stop ≠ none ∨ sys.power ≠ none) {job : Job}
    (hjob : (sys.advance controllers e).job id = some job) (hqueued : job.state ≠ .queued) :
    ∃ old, sys.job id = some old ∧ old.state ≠ .queued := by
  rcases sys.state?_advance controllers e with hsame | ⟨account, attempt, r, s', hcommits⟩
  · rw [System.job, hsame] at hjob
    exact ⟨job, hjob, hqueued⟩
  · obtain ⟨t, houtcome, rfl⟩ := hcommits.commit.outcome
    rw [← sys.record_stop attempt.now, ← sys.record_power attempt.now] at h
    obtain ⟨old, hold, hstate⟩ :=
      houtcome.queued h ((job_eq_some hcommits.after).1 hjob) hqueued
    refine ⟨old, ?_, hstate⟩
    rw [System.job, ← sys.record_jobs attempt.now, show _ = _ from hold]
    rfl

/-- The job has been admitted, and is finished or has kept stops away since. -/
def System.Handed (sys : System) (id : String) : Prop :=
  ∃ s, sys.state? = some s ∧ Executor.Handed s id

theorem System.handed_advance (h : sys.Handed id) : (sys.advance controllers e).Handed id := by
  obtain ⟨s, hs, hhanded⟩ := h
  rcases sys.state?_advance controllers e with hsame | ⟨account, attempt, r, s', hcommits⟩
  · exact ⟨s, hsame.trans hs, hhanded⟩
  · obtain ⟨t, houtcome, rfl⟩ := hcommits.commit.outcome
    have hrecord : sys.record attempt.now = s := by rw [record, hs, Option.getD_some]
    rw [hrecord] at houtcome
    exact ⟨_, hcommits.after, houtcome.handed hhanded⟩

/-- The command is recorded, as outstanding or as ended. -/
def System.Recorded (sys : System) (id : String) : Prop :=
  (∃ cmd, sys.power = some cmd ∧ cmd.id = id) ∨ sys.settled id

theorem System.recorded_advance (h : sys.Recorded id) :
    (sys.advance controllers e).Recorded id := by
  rcases h with ⟨cmd, hpower, rfl⟩ | hsettled
  · rcases power_advance controllers e hpower with hkept | ⟨hsettled, -⟩
    · exact .inl ⟨cmd, hkept, rfl⟩
    · exact .inr hsettled
  · exact .inr (settled_advance hsettled)

theorem System.not_recorded_of_unused {now : ℤ} (h : Unused (sys.record now) id) :
    ¬ sys.Recorded id := by
  rintro (⟨cmd, hpower, -⟩ | hsettled)
  · rw [← sys.record_power now, h.power] at hpower
    cases hpower
  · rw [sys.settled_iff_record now, h.history] at hsettled
    cases hsettled

/-- A pass comes to send a command by recording it, under a new identifier. -/
theorem System.recorded_of_acquires (h : Acquires controllers sys e k (.sending cmd)) :
    ¬ sys.Recorded cmd.id ∧ (sys.advance controllers e).power = some cmd := by
  cases h with
  | start hcommits =>
    obtain ⟨hunused, hpower, -, hupdated⟩ := hcommits.commit.start
    refine ⟨not_recorded_of_unused hunused, ?_⟩
    rw [power, hcommits.after, hupdated]
    exact hpower
  | stop hcommits =>
    obtain ⟨hunused, hpower, hupdated⟩ := hcommits.commit.stop
    refine ⟨not_recorded_of_unused hunused, ?_⟩
    rw [power, hcommits.after, hupdated]
    exact hpower

theorem System.executes_eq_some (h : sys.executes e = some cmd) :
    ∃ k failure, e = .move k (.call true failure) ∧ sys.passes k = .sending cmd := by
  unfold executes at h
  split at h
  next k failure =>
    split at h
    next cmd' hphase =>
      cases h
      exact ⟨k, failure, rfl, hphase⟩
    next => cases h
  next => cases h

theorem System.admits_eq_some (h : sys.admits e = some id) :
    ∃ k epoch bootID, sys.passes k = .admitted id epoch bootID := by
  unfold admits at h
  split at h
  next k failure =>
    split at h
    next id' epoch bootID hphase =>
      cases h
      exact ⟨k, epoch, bootID, hphase⟩
    next => cases h
  next => cases h

/-! ## Runs -/

section

variable {σ : ℕ → System} {ε : ℕ → Event} {n : ℕ}

/-- The provider does not carry out an invocation after it has reported it as joined. -/
def JoinsEnd (σ : ℕ → System) (ε : ℕ → Event) : Prop :=
  ∀ i j id cmd, i < j → (σ i).joins (ε i) = some id → (σ j).executes (ε j) = some cmd → cmd.id ≠ id

section

variable (hrun : IsRun (Advances controllers) σ ε) (h0 : σ 0 = .initial)

include hrun h0

/-- What a pass holds it has come to hold at some step, and has held since. -/
theorem exists_acquires {held : Phase} (hheld : held.holding = true) (h : (σ n).passes k = held) :
    ∃ m < n, (∃ move, ε m = .move k move) ∧ Acquires controllers (σ m) (ε m) k held ∧
      ∀ t, m < t → t ≤ n → (σ t).passes k = held := by
  have hstart : (σ 0).passes k ≠ held := by
    rw [h0]
    rintro rfl
    cases hheld
  obtain ⟨m, hm, hnot, hsince⟩ := exists_entry (P := fun n => (σ n).passes k = held) hstart h
  have hnext := hsince (m + 1) m.lt_succ_self hm
  rw [hrun m] at hnext
  obtain ⟨hmove, hacquires⟩ := System.acquires_of_advance hheld hnext hnot
  exact ⟨m, hm, hmove, hacquires, hsince⟩

/-- A command that is about to be sent was recorded at some step, and has been held since. -/
theorem exists_recording (h : (σ n).passes k = .sending cmd) :
    ∃ m < n, (∃ move, ε m = .move k move) ∧ ¬ (σ m).Recorded cmd.id ∧
      (σ (m + 1)).power = some cmd ∧ ∀ t, m < t → t ≤ n → (σ t).passes k = .sending cmd := by
  obtain ⟨m, hm, hmove, hacquires, hsince⟩ := exists_acquires hrun h0 rfl h
  obtain ⟨hnew, hpower⟩ := System.recorded_of_acquires hacquires
  rw [← hrun m] at hpower
  exact ⟨m, hm, hmove, hnew, hpower, hsince⟩

/-- A command that is about to be recorded as ended was reported as joined. -/
theorem exists_joins {o : PowerSnapshot} {result : PowerResult}
    (h : (σ n).passes k = .joined o cmd result) : ∃ m < n, (σ m).joins (ε m) = some cmd.id := by
  obtain ⟨m, hm, -, hacquires, -⟩ := exists_acquires hrun h0 rfl h
  cases hacquires with
  | joined hjoins => exact ⟨m, hm, hjoins⟩

/-- No identifier is sent twice. -/
theorem eq_of_executes {i j : ℕ} {cmd' : PowerCommand} (hi : (σ i).executes (ε i) = some cmd)
    (hj : (σ j).executes (ε j) = some cmd') (hid : cmd.id = cmd'.id) : i = j := by
  -- The first of two passes to record the identifier keeps the other from doing so.
  wlog hij : i < j generalizing i j cmd cmd'
  · by_contra hne
    exact hne (this hj hi hid.symm (by omega)).symm
  obtain ⟨k, failure, hmove, hphase⟩ := System.executes_eq_some hi
  obtain ⟨k', failure', hmove', hphase'⟩ := System.executes_eq_some hj
  obtain ⟨m, hm, ⟨move, hk⟩, hnew, hpower, -⟩ := exists_recording hrun h0 hphase
  obtain ⟨m', hm', ⟨move', hk'⟩, hnew', hpower', hsince'⟩ := exists_recording hrun h0 hphase'
  have hstable {a b : ℕ} {id : String} (hab : a < b) (h : (σ (a + 1)).Recorded id) :
      (σ b).Recorded id :=
    hrun.stable (P := fun sys => sys.Recorded id)
      (fun _ _ _ hrecorded hstep => hstep ▸ System.recorded_advance hrecorded) h hab
  rcases lt_trichotomy m m' with hlt | rfl | hlt
  · exact absurd (hstable hlt (.inl ⟨cmd, hpower, hid⟩)) hnew'
  · -- One pass has recorded both, and it is finished once it has sent one.
    have hsame : k = k' := by
      rw [hk] at hk'
      cases hk'
      rfl
    subst hsame
    have hfinished := hsince' (i + 1) (by omega) (by omega)
    rw [hrun i, hmove] at hfinished
    simp only [System.advance, Function.update_self, hphase, Controller.next, called] at hfinished
    cases hfinished
  · exact absurd (hstable hlt (.inl ⟨cmd', hpower', hid.symm⟩)) hnew

/-- A recorded command stays recorded until it has been joined and is recorded as ended. -/
theorem power_or_joined {a b : ℕ} (hpower : (σ a).power = some cmd) (hab : a ≤ b) :
    (σ b).power = some cmd ∨
      ((σ b).settled cmd.id ∧ ∃ m < b, (σ m).joins (ε m) = some cmd.id) := by
  induction b, hab using Nat.le_induction with
  | base => exact .inl hpower
  | succ b _ ih =>
    rcases ih with hkept | ⟨hsettled, m, hm, hjoins⟩
    · rw [hrun b]
      rcases System.power_advance controllers (ε b) hkept with
        hkept | ⟨hsettled, k, o, ended, result, hphase, hid⟩
      · exact .inl hkept
      · obtain ⟨m, hm, hjoins⟩ := exists_joins hrun h0 hphase
        exact .inr ⟨hsettled, m, hm.trans b.lt_succ_self, hid ▸ hjoins⟩
    · rw [hrun b]
      exact .inr ⟨System.settled_advance hsettled, m, hm.trans b.lt_succ_self, hjoins⟩

/-- A command that is sent is the one that is recorded. -/
theorem power_of_executes (hport : JoinsEnd σ ε) (h : (σ n).executes (ε n) = some cmd) :
    (σ n).power = some cmd := by
  obtain ⟨k, failure, -, hphase⟩ := System.executes_eq_some h
  obtain ⟨m, hm, -, -, hpower, -⟩ := exists_recording hrun h0 hphase
  rcases power_or_joined hrun h0 hpower hm with hkept | ⟨-, i, hi, hjoins⟩
  · exact hkept
  · exact absurd rfl (hport i n _ cmd hi hjoins h)

/-- A command is outstanding when it is recorded, or was sent and is not recorded as ended. -/
def Outstanding (σ : ℕ → System) (ε : ℕ → Event) (n : ℕ) (cmd : PowerCommand) : Prop :=
  (σ n).power = some cmd ∨
    ((∃ i < n, (σ i).executes (ε i) = some cmd) ∧ ¬ (σ n).settled cmd.id)

theorem power_of_outstanding (hport : JoinsEnd σ ε) (h : Outstanding σ ε n cmd) :
    (σ n).power = some cmd := by
  rcases h with hpower | ⟨⟨i, hi, hexecutes⟩, hsettled⟩
  · exact hpower
  · have hpower := power_of_executes hrun h0 hport hexecutes
    rcases power_or_joined hrun h0 hpower hi.le with hkept | ⟨hended, -⟩
    · exact hkept
    · exact absurd hended hsettled

/-- A job that is handed over was admitted, and has kept stops away since. -/
theorem exists_admission {epoch : ℕ} {bootID : String}
    (h : (σ n).passes k = .admitted id epoch bootID) :
    (σ n).Handed id ∧ ∃ m < n, (σ m).power = none ∧ (σ m).stop = none ∧
      ∃ job, (σ (m + 1)).job id = some job ∧ job.state = .admitting := by
  obtain ⟨m, hm, -, hacquires, -⟩ := exists_acquires hrun h0 rfl h
  cases hacquires with
  | admission hcommits =>
    obtain ⟨hpower, hstop, -, ⟨job, hjob, hstate⟩, hstop'⟩ := hcommits.commit.admission
    have hafter := hcommits.after
    rw [← hrun m] at hafter
    refine ⟨?_, m, hm, ?_, ?_, job, (System.job_eq_some hafter).2 hjob, hstate⟩
    · refine hrun.stable (P := fun sys => sys.Handed id) (fun _ _ _ hhanded hstep => ?_)
        ⟨_, hafter, job, hjob, .inr hstop'⟩ hm
      rw [hstep]
      exact System.handed_advance hhanded
    · rwa [← System.record_power]
    · rwa [← System.record_stop]

end

/-- A stop is committed in the record `s`, with the observation `o`, and leaves `s'`. -/
structure StopCommitted (o : ExecutorActivityObservation) (s s' : ExecutorActivityState) :
    Prop where
  tasks : executorActiveTasks s s'.updatedAt = 0
  jobs : activeJobs s = 0
  closed : o.admissionClosed = true
  inventory : o.complete = true ∧ o.activeJobs = 0
  epoch : ∃ stop, s.stop = some stop ∧ o.epoch = stop.epoch ∧
    s'.stop = some { stop with stage := .possibleSend, sendAt := s'.updatedAt }
  kept : s'.tasks = s.tasks ∧ s'.jobs = s.jobs

theorem System.stopCommitted {s' : ExecutorActivityState}
    (hafter : (sys.advance controllers e).state? = some s') (hs' : possiblySent s'.stop = true)
    (hsys : possiblySent sys.stop = false) :
    ∃ s o, sys.state? = some s ∧ sys.evidence controllers e = some o ∧ StopCommitted o s s' := by
  rcases sys.state?_advance controllers e with hsame | ⟨account, attempt, r, s₁, hcommits⟩
  · rw [stop, ← hsame, hafter] at hsys
    exact absurd (hs'.symm.trans hsys) (by decide)
  · obtain ⟨t, houtcome, rfl⟩ := hcommits.commit.outcome
    cases hafter.symm.trans hcommits.after
    rw [← sys.record_stop attempt.now] at hsys
    obtain ⟨drain, o, hr, hdrained, hstop, htasks, hjobs⟩ := houtcome.drained hsys hs'
    -- A record that is draining has been stored.
    obtain ⟨s, hs⟩ : ∃ s, sys.state? = some s := by
      cases hstate : sys.state? with
      | some s => exact ⟨s, rfl⟩
      | none =>
        have hnone := hdrained.draining
        rw [show _ = sys.stop from sys.record_stop attempt.now, stop, hstate] at hnone
        cases hnone
    have hrecord : sys.record attempt.now = s := by rw [record, hs, Option.getD_some]
    rw [hrecord] at hdrained htasks hjobs hstop
    refine ⟨s, o, hs, ?_, hdrained.ready.tasks, hdrained.ready.jobs, hdrained.closed,
      ⟨hdrained.ready.complete, hdrained.ready.inventory⟩,
      ⟨drain, hdrained.draining, hdrained.epoch, hstop⟩, htasks, hjobs⟩
    rw [evidence, hcommits.submits]
    exact hr

/-- The safety of the power commands of every run, with a provider that does not carry out an
    invocation it has reported as joined. 1. At most one command is outstanding. 2. Every identifier
    is sent at most once. 3. A stop is committed only without a live lease or an unfinished job,
    with admission observed closed at its epoch. 4. While a stop or a command is outstanding, no job
    leaves the queue, and a start that is sent is the only command outstanding. 5. A job is handed
    over only after its admission was recorded with nothing outstanding, and if a stop is
    outstanding by then the job is finished. -/
theorem power_safety (hrun : IsRun (Advances controllers) σ ε) (h0 : σ 0 = .initial)
    (hport : JoinsEnd σ ε) :
    (∀ n cmd cmd', Outstanding σ ε n cmd → Outstanding σ ε n cmd' → cmd = cmd') ∧
    (∀ i j cmd cmd', (σ i).executes (ε i) = some cmd → (σ j).executes (ε j) = some cmd' →
      cmd.id = cmd'.id → i = j) ∧
    (∀ n s', (σ (n + 1)).state? = some s' → possiblySent s'.stop = true →
      possiblySent (σ n).stop = false →
      ∃ s o, (σ n).state? = some s ∧ (σ n).evidence controllers (ε n) = some o ∧
        StopCommitted o s s') ∧
    (∀ n, ((σ n).stop ≠ none ∨ ∃ cmd, Outstanding σ ε n cmd) →
      (∀ id job, (σ (n + 1)).job id = some job → job.state ≠ .queued →
        ∃ old, (σ n).job id = some old ∧ old.state ≠ .queued) ∧
      ∀ cmd, (σ n).executes (ε n) = some cmd → cmd.action = .start →
        (σ n).stop = none ∧ ∀ cmd', Outstanding σ ε n cmd' → cmd' = cmd) ∧
    (∀ n id, (σ n).admits (ε n) = some id →
      (∃ m < n, (σ m).stop = none ∧ (∀ cmd, ¬ Outstanding σ ε m cmd) ∧
        ∃ job, (σ (m + 1)).job id = some job ∧ job.state = .admitting) ∧
      ((σ n).stop ≠ none → ∃ job, (σ n).job id = some job ∧ job.state = .finished)) := by
  have hclear (n : ℕ) : (σ n).StartClear := by
    refine hrun.invariant (P := System.StartClear) ?_ (fun _ _ _ hclear hstep => ?_) n
    · rw [h0]
      nofun
    · rw [hstep]
      exact System.startClear_advance hclear
  have hunique (n : ℕ) (cmd cmd' : PowerCommand) (h : Outstanding σ ε n cmd)
      (h' : Outstanding σ ε n cmd') : cmd = cmd' := by
    have hpower := power_of_outstanding hrun h0 hport h
    exact Option.some.inj (hpower.symm.trans (power_of_outstanding hrun h0 hport h'))
  refine ⟨hunique, fun i j cmd cmd' hi hj hid => eq_of_executes hrun h0 hi hj hid,
    fun n s' hafter hs' hn => ?_, fun n hn => ⟨fun id job hjob hqueued => ?_, ?_⟩,
    fun n id hadmits => ?_⟩
  · rw [hrun n] at hafter
    exact System.stopCommitted hafter hs' hn
  · rw [hrun n] at hjob
    refine System.queued_advance (hn.imp_right ?_) hjob hqueued
    rintro ⟨cmd, hcmd⟩
    rw [power_of_outstanding hrun h0 hport hcmd]
    nofun
  · intro cmd hexecutes haction
    have hpower := power_of_executes hrun h0 hport hexecutes
    exact ⟨hclear n cmd hpower haction, fun cmd' hcmd' => hunique n cmd' cmd hcmd' (.inl hpower)⟩
  · obtain ⟨k, epoch, bootID, hphase⟩ := System.admits_eq_some hadmits
    obtain ⟨⟨s, hs, job, hjob, hstate⟩, m, hm, hpower, hstop, hadmitting⟩ :=
      exists_admission hrun h0 hphase
    refine ⟨⟨m, hm, hstop, fun cmd hcmd => ?_, hadmitting⟩, fun hne => ?_⟩
    · rw [power_of_outstanding hrun h0 hport hcmd] at hpower
      cases hpower
    · refine ⟨job, (System.job_eq_some hs).2 hjob, hstate.resolve_right fun hnone => hne ?_⟩
      rw [System.stop, hs]
      exact hnone

end

/-! ## A run -/

namespace Sample

/-- The policy of the sample. -/
def policy : ExecutorActivityPolicy :=
  ⟨30 * Instant.second, 10 * Instant.second, 5 * Instant.second, 100⟩

/-- The machine of the sample. -/
def resource : ExactResource :=
  ⟨"123456789012", "us-east-1", "i-0123456789abcdef0", "record"⟩

/-- The controller of the sample. -/
def controller : Controller :=
  ⟨⟨true, resource, ["start", "stop"]⟩, policy, ⟨"pin", policy, false⟩, true⟩

/-- A transaction at the second `n` that is committed and replies. -/
def commitAt (n : ℤ) : Attempt := ⟨n * Instant.second, none, .replied⟩

/-- The state of the machine at a time. -/
def powerAt (n : ℤ) (state : InstanceState) : PowerSnapshot :=
  ⟨resource, state, "boot", n * Instant.second⟩

/-- An idle worker at a time. -/
def workerAt (n : ℤ) : WorkerSnapshot :=
  ⟨resource, "boot", n * Instant.second, true, true, false, 1, []⟩

/-- The pass `k` makes a transaction at the second `n`. -/
def transactAt (k : ℕ) (n : ℤ) (random : Option String) : Event :=
  .move k (.transact (commitAt n) random "")

/-- The request of a task to queue a job. -/
def request : WorkflowRequest := ⟨"job", ⟨"task", "", 1, false⟩, .zero, ""⟩

/-- A pass sees the machine stopped; before it records its start, another one starts the machine. A
    third admits the job; then the first records its start, and the job is handed over. -/
def events : ℕ → Event
  | 0 => .workflow ⟨"pin", policy, true⟩ (commitAt 10) .initializeExecutorActivity "" request
  | 1 => .workflow ⟨"pin", policy, false⟩ (commitAt 10) .recordExecutorActivity "owner" request
  | 2 => transactAt 0 10 none
  | 3 => .move 0 (.observePower (powerAt 10 .stopped))
  | 4 => transactAt 0 10 none
  | 5 => transactAt 1 10 none
  | 6 => .move 1 (.observePower (powerAt 10 .stopped))
  | 7 => transactAt 1 10 none
  | 8 => transactAt 1 10 "first"
  | 9 => .move 1 (.call true none)
  | 10 => transactAt 2 11 none
  | 11 => .move 2 (.observePower (powerAt 11 .running))
  | 12 => transactAt 2 11 none
  | 13 => .move 2 (.querySettlement (some ⟨"first", resource, .start, true, some .succeeded⟩))
  | 14 => transactAt 2 11 none
  | 15 => transactAt 3 11 none
  | 16 => .move 3 (.observePower (powerAt 11 .running))
  | 17 => transactAt 3 11 none
  | 18 => .move 3 (.observeWorker (workerAt 11))
  | 19 => transactAt 3 11 none
  | 20 => transactAt 3 11 none
  | 21 => transactAt 0 12 "second"
  | 22 => .move 3 (.call true none)
  | _ => .move 4 (.call false none)

/-- The states of the run. -/
def run : ℕ → System := execute (fun _ => controller) events .initial

/-- At the end the job is handed over, and a command is recorded. -/
theorem run_end : (run 22).admits (events 22) = some "job" ∧
    (run 22).executes (events 22) = none ∧ (run 22).power.isSome = true ∧
    (run 9).admits (events 9) = none := by
  decide +kernel

variable {n : ℕ}

theorem eq_of_executes_run (h : (run n).executes (events n) = some cmd) : n = 9 := by
  rcases lt_or_ge n 22 with hn | hn
  · interval_cases n <;> first | rfl | simp [System.executes, events, transactAt] at h
  · rcases hn.eq_or_lt with rfl | hn
    · rw [run_end.2.1] at h
      cases h
    · obtain ⟨m, rfl⟩ := Nat.exists_eq_add_of_lt hn
      rw [show 22 + m + 1 = m + 23 by omega] at h
      cases h

theorem eq_of_joins_run (h : (run n).joins (events n) = some id) : n = 13 := by
  rcases lt_or_ge n 23 with hn | hn
  · interval_cases n <;> first | rfl | simp [System.joins, events, transactAt] at h
  · obtain ⟨m, rfl⟩ := Nat.exists_eq_add_of_le hn
    rw [Nat.add_comm] at h
    cases h

theorem eq_of_admits_run (h : (run n).admits (events n) = some id) (hn : n ≤ 22) : n = 22 := by
  rcases eq_or_ne n 9 with rfl | hne
  · rw [run_end.2.2.2] at h
    cases h
  · interval_cases n <;>
      first | rfl | exact absurd rfl hne | simp [System.admits, events, transactAt] at h

theorem joinsEnd_run : JoinsEnd run events := by
  intro i j id cmd hij hjoins hexecutes
  have hi := eq_of_joins_run hjoins
  have hj := eq_of_executes_run hexecutes
  omega

end Sample

theorem sample_power_safety :
    (∃ m < 22, (Sample.run m).stop = none ∧ (∀ cmd, ¬ Outstanding Sample.run Sample.events m cmd) ∧
      ∃ job, (Sample.run (m + 1)).job "job" = some job ∧ job.state = .admitting) ∧
    ∀ cmd cmd', Outstanding Sample.run Sample.events 22 cmd →
      Outstanding Sample.run Sample.events 22 cmd' → cmd = cmd' := by
  obtain ⟨hunique, -, -, -, hadmits⟩ :=
    power_safety (isRun_execute (fun _ => Sample.controller) Sample.events .initial) rfl
      Sample.joinsEnd_run
  exact ⟨(hadmits 22 "job" Sample.run_end.1).1, hunique 22⟩

/-- While something is outstanding, only jobs that the worker had are handed over to it. -/
def NoneHandedOver (σ : ℕ → System) (ε : ℕ → Event) : Prop :=
  ∀ n id, (σ n).admits (ε n) = some id →
    ((σ n).stop ≠ none ∨ ∃ cmd, Outstanding σ ε n cmd) → ∃ m < n, (σ m).admits (ε m) = some id

/-- A start may be recorded between the admission of a job and its handing over. -/
theorem not_noneHandedOver : ¬ ∀ (controllers : ℕ → Controller) (σ : ℕ → System) (ε : ℕ → Event),
    IsRun (Advances controllers) σ ε → σ 0 = .initial → JoinsEnd σ ε → NoneHandedOver σ ε := by
  intro h
  have hrun := isRun_execute (fun _ => Sample.controller) Sample.events .initial
  obtain ⟨cmd, hcmd⟩ := Option.isSome_iff_exists.1 Sample.run_end.2.2.1
  obtain ⟨m, hm, hadmits⟩ := h _ Sample.run _ hrun rfl Sample.joinsEnd_run 22 "job"
    Sample.run_end.1 (.inr ⟨cmd, .inl hcmd⟩)
  have := Sample.eq_of_admits_run hadmits hm.le
  omega

end Yggdrasil.Executor
