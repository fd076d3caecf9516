import Yggdrasil.Executor.Power

/-!
# The idle window before a stop

A stop is reserved when the record has been idle for `idleAfter`, counted from the time of an
observation, which is recorded later. Nothing ends the idleness without closing the window
(`window_succ`), but a lease may have been live in the lag of its first observation
(`not_idleThroughout`).
-/

namespace Yggdrasil.Executor

variable {p : ExecutorActivityPolicy} {now : ℤ} {r : Reducer} {s t : ExecutorActivityState}
  {since : ℤ}

/-! ## One transaction -/

/-- No job is unfinished, and no lease is live from the instant `ρ` on. -/
structure QuietFrom (s : ExecutorActivityState) (ρ : ℤ) : Prop where
  jobs : activeJobs s = 0
  tasks : ∀ entry ∈ s.tasks, entry.2.released = false → entry.2.expiresAt ≤ ρ

theorem QuietFrom.executorActiveTasks {ρ τ : ℤ} (h : QuietFrom s ρ) (hτ : ρ ≤ τ) :
    executorActiveTasks s τ = 0 := by
  refine Table.count_eq_zero.2 fun entry hentry => ?_
  have hexpires := h.tasks entry hentry
  cases hreleased : entry.2.released with
  | true => simp [ExecutorTaskLease.live, hreleased]
  | false =>
    have := hexpires hreleased
    simp only [ExecutorTaskLease.live, hreleased, Bool.not_false, Bool.true_and,
      decide_eq_false_iff_not]
    omega

theorem quietFrom_of_active (hjobs : activeJobs s = 0) (htasks : executorActiveTasks s now = 0) :
    QuietFrom s now := by
  refine ⟨hjobs, fun entry hentry hreleased => ?_⟩
  have hlive := Table.count_eq_zero.1 htasks entry hentry
  simpa [ExecutorTaskLease.live, hreleased] using hlive

theorem activeJobs_inventory {w : WorkerSnapshot} (h : activeJobs s = 0) :
    activeJobs { s with jobs := inventoryJobs w s.jobs } = 0 := by
  have hle : (inventoryJobs w s.jobs).count (·.2.state ≠ .finished) ≤
      s.jobs.count (·.2.state ≠ .finished) := by
    rw [inventoryJobs]
    refine Table.count_map_le fun entry _ hactive => ?_
    by_contra hfinished
    simp only [ne_eq, decide_not, Bool.not_eq_true', decide_eq_false_iff_not, not_not]
      at hfinished hactive
    rw [inventoryJob_state (.inr hfinished)] at hactive
    exact hactive hfinished
  exact Nat.eq_zero_of_le_zero (hle.trans_eq h)

/-- The window is kept, or newly opened on a quiet record by a fresh observation. -/
def KeepsWindow (p : ExecutorActivityPolicy) (now : ℤ) (s t : ExecutorActivityState) : Prop :=
  (t.idleSince = s.idleSince ∧ ∀ ρ, QuietFrom s ρ → QuietFrom t ρ) ∨
  (Instant.sub now t.idleSince ≤ p.maxObservationAge ∧ QuietFrom t now)

theorem keepsWindow_observed {o : ExecutorActivityObservation}
    (hidle : (observed p o now s).idleSince ≠ 0) : KeepsWindow p now s (observed p o now s) := by
  rw [observed] at hidle ⊢
  split at hidle
  next hquiet =>
    rw [if_pos hquiet]
    simp only [quietAt, executorObservationFresh, Bool.and_eq_true, beq_iff_eq,
      decide_eq_true_eq] at hquiet
    obtain ⟨⟨⟨⟨⟨hjobs, -⟩, hfresh⟩, htasks⟩, -⟩, -⟩ := hquiet
    have hquietFrom := quietFrom_of_active hjobs htasks
    by_cases hrestart : (s.idleSince == 0 || s.quietObservedAt == 0 ||
        decide (p.maxObservationAge < Instant.sub o.observedAt s.quietObservedAt)) = true
    · rw [if_pos hrestart]
      exact .inr ⟨hfresh.2, hquietFrom.jobs, hquietFrom.tasks⟩
    · rw [if_neg hrestart]
      exact .inl ⟨rfl, fun ρ hρ => ⟨hρ.jobs, hρ.tasks⟩⟩
  next => exact absurd rfl hidle

theorem Outcome.keepsWindow (h : Outcome p now r s t) (hidle : t.idleSince ≠ 0) :
    KeepsWindow p now s t := by
  cases h with
  | demand hdemand => exact absurd hdemand.idle hidle
  | settleStop => exact absurd rfl hidle
  | observe o => exact keepsWindow_observed hidle
  | observeReserve id o =>
    exact (keepsWindow_observed hidle).imp
      (fun h => ⟨h.1, fun ρ hρ => ⟨(h.2 ρ hρ).jobs, (h.2 ρ hρ).tasks⟩⟩)
      (fun h => ⟨h.1, h.2.jobs, h.2.tasks⟩)
  | inventory w => exact .inl ⟨rfl, fun ρ hρ => ⟨activeJobs_inventory hρ.jobs, hρ.tasks⟩⟩
  | admission id bootID hpower hstop hjob hpending =>
    -- There is no job to admit in a quiet record.
    refine .inl ⟨rfl, fun ρ hρ => ?_⟩
    rw [Job.pending, finished_of_activeJobs hρ.jobs hjob] at hpending
    cases hpending
  | _ => exact .inl ⟨rfl, fun ρ hρ => ⟨hρ.jobs, hρ.tasks⟩⟩

theorem Outcome.pinnedPolicy (h : Outcome p now r s t) : t.pinnedPolicy = s.pinnedPolicy := by
  cases h with
  | demand hdemand => exact hdemand.pinned
  | observe | observeReserve =>
    simp only [reserved, observed]
    split <;> rfl
  | _ => rfl

/-- A stop is reserved or marked when the window is as long as the policy asks. -/
theorem Outcome.idle_of_stop (h : Outcome p now r s t)
    (hstop : (s.stop = none ∧ t.stop ≠ none) ∨
      (possiblySent s.stop = false ∧ possiblySent t.stop = true)) :
    t.idleSince ≠ 0 ∧ p.idleAfter ≤ Instant.sub now t.idleSince := by
  have hnew (hsame : t.stop = s.stop) : False := by
    rw [hsame] at hstop
    rcases hstop with ⟨hnone, hne⟩ | ⟨hfalse, htrue⟩
    · exact hne hnone
    · rw [hfalse] at htrue
      cases htrue
  have hnone (hnone : t.stop = none) : False := by
    rw [hnone] at hstop
    rcases hstop with ⟨-, hne⟩ | ⟨-, htrue⟩
    · exact hne rfl
    · cases htrue
  cases h with
  | reserve id o hstop hready => exact ⟨hready.idle, hready.window⟩
  | observeReserve id o hstop hready => exact ⟨hready.idle, hready.window⟩
  | mark o hr hdrained => exact ⟨hdrained.ready.idle, hdrained.ready.window⟩
  | stop o cmd hr haction hid hunused hdrained =>
    exact ⟨hdrained.ready.idle, hdrained.ready.window⟩
  | demand hdemand => exact (hdemand.stop.elim hnew hnone).elim
  | observe o => exact (hnew (observed_keeps ..).2.2.1).elim
  | settleStop => exact (hnone rfl).elim
  | _ => exact (hnew rfl).elim

/-- A fresh observation is not much older than the transaction. -/
theorem lag_of_fresh (hbounded : p.bounded = true)
    (h : Instant.sub now since ≤ p.maxObservationAge) : now ≤ since + p.maxObservationAge := by
  simp only [ExecutorActivityPolicy.bounded, Bool.and_eq_true, decide_eq_true_eq] at hbounded
  simp only [Instant.second] at hbounded
  rw [Instant.sub_le_iff (by omega) (by omega)] at h
  omega

/-- A window that is long enough began that long ago. -/
theorem since_of_window (hbounded : p.bounded = true) (h : p.idleAfter ≤ Instant.sub now since) :
    since ≤ now - p.idleAfter := by
  simp only [ExecutorActivityPolicy.bounded, Bool.and_eq_true, decide_eq_true_eq] at hbounded
  simp only [Instant.second] at hbounded
  rw [Instant.le_sub_iff (by omega) ⟨by omega, by omega⟩] at h
  omega

/-! ## Runs -/

section

variable {controllers : ℕ → Controller} {σ : ℕ → System} {ε : ℕ → Event} {n : ℕ}

/-- A window is quiet from the time its observation was recorded, which is not long after. -/
def Window (σ : ℕ → System) (n : ℕ) (p : ExecutorActivityPolicy) (since : ℤ) : Prop :=
  ∃ m ≤ n, ∃ opened, (σ m).state? = some opened ∧
    opened.updatedAt ≤ since + p.maxObservationAge ∧
    ∀ j, m ≤ j → j ≤ n → ∀ s, (σ j).state? = some s → QuietFrom s opened.updatedAt

theorem Window.succ (h : Window σ n p since)
    (hnext : ∀ s ρ, (∀ s₀, (σ n).state? = some s₀ → QuietFrom s₀ ρ) →
      (σ (n + 1)).state? = some s → QuietFrom s ρ) : Window σ (n + 1) p since := by
  obtain ⟨m, hm, opened, hopened, hlag, hquiet⟩ := h
  refine ⟨m, hm.trans n.le_succ, opened, hopened, hlag, fun j hmj hj s hs => ?_⟩
  rcases Nat.le_succ_iff.1 hj with hj | rfl
  · exact hquiet j hmj hj s hs
  · exact hnext s _ (hquiet n hm le_rfl) hs

/-- A stored record has pinned its policy, and its window is quiet. -/
def Windowed (σ : ℕ → System) (n : ℕ) : Prop :=
  ∀ s, (σ n).state? = some s →
    ∃ p, s.pinnedPolicy = some p ∧ (s.idleSince ≠ 0 → Window σ n p s.idleSince)

theorem windowed_succ (hrun : IsRun (Advances controllers) σ ε) (h : Windowed σ n) :
    Windowed σ (n + 1) := by
  intro s' hs'
  rcases (σ n).state?_advance controllers (ε n) with
    hsame | ⟨account, attempt, r, s₁, hcommits⟩
  · rw [← hrun n] at hsame
    obtain ⟨p, hpinned, hwindow⟩ := h s' (hsame ▸ hs')
    refine ⟨p, hpinned, fun hidle => (hwindow hidle).succ fun s ρ hquiet hs => ?_⟩
    exact hquiet s (hsame ▸ hs)
  · obtain ⟨t, houtcome, rfl⟩ := hcommits.commit.outcome
    have hafter := hcommits.after
    rw [← hrun n, hs', Option.some.injEq] at hafter
    subst hafter
    refine ⟨account.policy, houtcome.pinnedPolicy, fun hidle => ?_⟩
    rcases houtcome.keepsWindow hidle with ⟨hsince, hkeeps⟩ | ⟨hfresh, hquiet⟩
    · -- The window was open in the record before, which has thus been stored.
      obtain ⟨s₀, hs₀⟩ : ∃ s₀, (σ n).state? = some s₀ := by
        cases hstate : (σ n).state? with
        | some s₀ => exact ⟨s₀, rfl⟩
        | none =>
          rw [System.record, hstate] at hsince
          exact absurd hsince hidle
      have hrecord : (σ n).record attempt.now = s₀ := by
        rw [System.record, hs₀, Option.getD_some]
      rw [hrecord] at hsince hkeeps hcommits
      obtain ⟨p, hpinned, hwindow⟩ := h s₀ hs₀
      have hvalid := hcommits.commit.valid
      rw [hrecord] at hvalid
      rw [hvalid.pinned p hpinned, ← hsince] at hwindow
      refine (hwindow hidle).succ fun s ρ hquiet hs => ?_
      rw [hs', Option.some.injEq] at hs
      subst hs
      have hs₀ρ := hquiet s₀ hs₀
      have ht := hkeeps ρ ⟨hs₀ρ.jobs, hs₀ρ.tasks⟩
      exact ⟨ht.jobs, ht.tasks⟩
    · refine ⟨n + 1, le_rfl, _, hs', ?_, fun j hj hj' s hs => ?_⟩
      · exact lag_of_fresh hcommits.commit.valid.bounded hfresh
      · rw [le_antisymm hj' hj, hs', Option.some.injEq] at hs
        subst hs
        exact ⟨hquiet.jobs, hquiet.tasks⟩

theorem windowed (hrun : IsRun (Advances controllers) σ ε) (h0 : σ 0 = .initial) :
    ∀ n, Windowed σ n
  | 0 => by
    intro s hs
    rw [h0] at hs
    cases hs
  | n + 1 => windowed_succ hrun (windowed hrun h0 n)

/-- The record `s` is in force at the instant `τ`, of those up to the step `n`. -/
def InForce (σ : ℕ → System) (n : ℕ) (τ : ℤ) (s : ExecutorActivityState) : Prop :=
  ∃ k ≤ n, (σ k).state? = some s ∧ s.updatedAt ≤ τ ∧
    ∀ j, k ≤ j → j ≤ n → ∀ s', (σ j).state? = some s' → s' = s ∨ τ < s'.updatedAt

/-- A window is quiet at every instant after it was recorded. -/
theorem Window.quiet {τ : ℤ} (h : Window σ n p since) (hτ : since + p.maxObservationAge ≤ τ)
    (hs : InForce σ n τ s) : activeJobs s = 0 ∧ executorActiveTasks s τ = 0 := by
  obtain ⟨m, hm, opened, hopened, hlag, hquiet⟩ := h
  obtain ⟨k, hk, hstate, -, hlast⟩ := hs
  have hfrom : QuietFrom s opened.updatedAt := by
    rcases le_total m k with hmk | hkm
    · exact hquiet k hmk hk s hstate
    · -- The record that opened the window had been stored by then.
      rcases hlast m hkm hm opened hopened with rfl | hlate
      · exact hquiet m le_rfl hm opened hopened
      · omega
  exact ⟨hfrom.jobs, hfrom.executorActiveTasks (hlag.trans hτ)⟩

/-- The step `n` leaves a new reservation, or a drain newly marked as possibly sent. -/
def Stops (sys : System) (s' : ExecutorActivityState) : Prop :=
  (sys.stop = none ∧ s'.stop ≠ none) ∨
    (possiblySent sys.stop = false ∧ possiblySent s'.stop = true)

/-- When a stop is reserved or marked as possibly sent, no lease was live and no job unfinished in
    the idle interval before, but for its first `maxObservationAge`. -/
theorem idle_window (hrun : IsRun (Advances controllers) σ ε) (h0 : σ 0 = .initial)
    {s' : ExecutorActivityState} (hs' : (σ (n + 1)).state? = some s') (hstops : Stops (σ n) s') :
    ∃ p, s'.pinnedPolicy = some p ∧ ∀ τ s,
      s'.updatedAt - p.idleAfter + p.maxObservationAge ≤ τ → τ ≤ s'.updatedAt →
      InForce σ (n + 1) τ s → activeJobs s = 0 ∧ executorActiveTasks s τ = 0 := by
  obtain ⟨p, hpinned, hwindow⟩ := windowed hrun h0 (n + 1) s' hs'
  refine ⟨p, hpinned, fun τ s hτ _ hs => ?_⟩
  rcases (σ n).state?_advance controllers (ε n) with
    hsame | ⟨account, attempt, r, s₁, hcommits⟩
  · -- The record did not change, and so neither did the stop.
    rw [← hrun n, hs'] at hsame
    rw [Stops, System.stop, ← hsame] at hstops
    rcases hstops with ⟨hnone, hne⟩ | ⟨hfalse, htrue⟩
    · exact absurd hnone hne
    · exact absurd (htrue.symm.trans hfalse) (by decide)
  · obtain ⟨t, houtcome, rfl⟩ := hcommits.commit.outcome
    have hafter := hcommits.after
    rw [← hrun n, hs', Option.some.injEq] at hafter
    subst hafter
    rw [Stops, ← (σ n).record_stop attempt.now] at hstops
    obtain ⟨hidle, hlong⟩ := houtcome.idle_of_stop hstops
    have hpolicy : p = account.policy :=
      Option.some.inj (hpinned.symm.trans houtcome.pinnedPolicy)
    subst hpolicy
    have hsince := since_of_window hcommits.commit.valid.bounded hlong
    have hrecorded : t.idleSince + account.policy.maxObservationAge ≤ τ :=
      (Int.add_le_add_right hsince _).trans hτ
    exact (hwindow hidle).quiet hrecorded hs

end

/-! ## A window without a lease -/

/-- The policy with the shortest lease, the given window, and observations as old as a lease. -/
def windowPolicy (seconds : ℤ) : ExecutorActivityPolicy :=
  ⟨5 * Instant.second, seconds * Instant.second, 5 * Instant.second, 100⟩

/-- A request with a quiet inventory of the given second. -/
def requestAt (seconds : ℤ) : WorkflowRequest :=
  ⟨"", ⟨"task", "", 1, false⟩, ⟨seconds * Instant.second, 1, true, false, 0⟩, "stop"⟩

namespace Waiting

/-- An operation at a time. -/
def callAt (seconds : ℤ) (operation : WorkflowOperation) (owner : String) : Event :=
  .workflow ⟨"pin", windowPolicy 10, false⟩ (Sample.commitAt seconds) operation owner
    (requestAt seconds)

/-- A lease expires at the second 15. Observations are recorded from 16 on, and a stop is reserved
    at 26. -/
def events : ℕ → Event
  | 0 =>
    .workflow ⟨"pin", windowPolicy 10, true⟩ (Sample.commitAt 10) .initializeExecutorActivity ""
      (requestAt 10)
  | 1 => callAt 10 .recordExecutorActivity "owner"
  | 2 => callAt 16 .observeExecutorActivity ""
  | 3 => callAt 21 .observeExecutorActivity ""
  | 4 => callAt 26 .observeExecutorActivity ""
  | 5 => callAt 26 .reserveExecutorStop ""
  | _ => .move 0 (.call false none)

/-- The states of the run. -/
def run : ℕ → System := execute (fun _ => Sample.controller) events .initial

/-- The record of the second 21 knows the lease, and the stop is reserved with the one of 26. -/
theorem run_states :
    ((run 4).state?.any fun s =>
      s.updatedAt = 21 * Instant.second && s.tasks.count (fun _ => true) = 1) = true ∧
    ((run 5).state?.all fun s => s.updatedAt = 26 * Instant.second) = true ∧
    ((run (5 + 1)).state?.any fun s => s.updatedAt = 26 * Instant.second && s.stop.isSome &&
      s.pinnedPolicy = some (windowPolicy 10)) = true ∧
    (run 5).stop.isNone = true := by
  decide +kernel

end Waiting

/-- At the second 23, in the window but for its lag, the record in force is quiet. -/
theorem sample_idle_window :
    ∃ s' s, (Waiting.run (5 + 1)).state? = some s' ∧ Stops (Waiting.run 5) s' ∧
      InForce Waiting.run (5 + 1) (23 * Instant.second) s ∧ s.tasks.count (fun _ => true) = 1 ∧
      activeJobs s = 0 ∧ executorActiveTasks s (23 * Instant.second) = 0 := by
  obtain ⟨s, hs, hlease⟩ := (Option.any_eq_true _ _).1 Waiting.run_states.1
  obtain ⟨s', hs', hstop⟩ := (Option.any_eq_true _ _).1 Waiting.run_states.2.2.1
  simp only [Bool.and_eq_true, decide_eq_true_eq] at hlease hstop
  obtain ⟨⟨hupdated', hsome⟩, hpinned⟩ := hstop
  have hstops : Stops (Waiting.run 5) s' := .inl
    ⟨Option.isNone_iff_eq_none.1 Waiting.run_states.2.2.2, Option.isSome_iff_ne_none.1 hsome⟩
  have hforce : InForce Waiting.run (5 + 1) (23 * Instant.second) s := by
    refine ⟨4, by omega, hs, hlease.1.trans_le (by decide), fun j hj hj' s₁ hs₁ => ?_⟩
    interval_cases j
    · exact .inl (Option.some.inj (hs₁.symm.trans hs))
    · have hupdated := Waiting.run_states.2.1
      rw [hs₁, Option.all_some, decide_eq_true_eq] at hupdated
      exact .inr (hupdated ▸ by decide)
    · rw [← Option.some.inj (hs'.symm.trans hs₁), hupdated']
      exact .inr (by decide)
  obtain ⟨p, hp, hquiet⟩ := idle_window
    (isRun_execute (fun _ => Sample.controller) Waiting.events .initial) rfl hs' hstops
  obtain rfl : windowPolicy 10 = p := Option.some.inj (hpinned.symm.trans hp)
  exact ⟨s', s, hs', hstops, hforce, hlease.2,
    hquiet _ s (hupdated' ▸ by decide) (hupdated' ▸ by decide) hforce⟩

/-! ## A lease in the lag -/

namespace Lagging

/-- An operation at a time, with the observation of second 11. -/
def callAt (seconds : ℤ) (operation : WorkflowOperation) (owner : String) : Event :=
  .workflow ⟨"pin", windowPolicy 1, false⟩ (Sample.commitAt seconds) operation owner (requestAt 11)

/-- A lease is live from 10 to 15. The observation of 11 is recorded at 15, and a stop is reserved
    with it. -/
def events : ℕ → Event
  | 0 =>
    .workflow ⟨"pin", windowPolicy 1, true⟩ (Sample.commitAt 10) .initializeExecutorActivity ""
      (requestAt 11)
  | 1 => callAt 10 .recordExecutorActivity "owner"
  | 2 => callAt 15 .observeExecutorActivity ""
  | 3 => callAt 15 .reserveExecutorStop ""
  | _ => .move 0 (.call false none)

/-- The states of the run. -/
def run : ℕ → System := execute (fun _ => Sample.controller) events .initial

/-- Half a second before the stop is reserved. -/
def instant : ℤ := 14500000000

/-- The lease is live at the instant, and the stop is reserved by the end of the second after it. -/
theorem run_states :
    ((run 2).state?.any fun s =>
      s.updatedAt = 10 * Instant.second && executorActiveTasks s instant = 1) = true ∧
    ((run 3).state?.all fun s => s.updatedAt = 15 * Instant.second) = true ∧
    ((run (3 + 1)).state?.any fun s =>
      s.updatedAt = 15 * Instant.second && s.stop.isSome &&
        s.pinnedPolicy = some (windowPolicy 1)) = true ∧
    (run 3).stop.isNone = true := by
  decide +kernel

end Lagging

/-- When a stop is reserved or marked as possibly sent, the whole idle interval before was idle. -/
def IdleThroughout (σ : ℕ → System) : Prop :=
  ∀ n s' p, (σ (n + 1)).state? = some s' → Stops (σ n) s' → s'.pinnedPolicy = some p →
    ∀ τ s, s'.updatedAt - p.idleAfter ≤ τ → τ ≤ s'.updatedAt → InForce σ (n + 1) τ s →
      activeJobs s = 0 ∧ executorActiveTasks s τ = 0

/-- The lease of the run was live half a second before the stop was reserved. -/
theorem not_idleThroughout : ¬ ∀ (controllers : ℕ → Controller) (σ : ℕ → System) (ε : ℕ → Event),
    IsRun (Advances controllers) σ ε → σ 0 = .initial → IdleThroughout σ := by
  intro h
  have hidle := h _ _ _ (isRun_execute (fun _ => Sample.controller) Lagging.events .initial) rfl
  obtain ⟨s, hs, hlease⟩ := (Option.any_eq_true _ _).1 Lagging.run_states.1
  obtain ⟨s', hs', hstop⟩ := (Option.any_eq_true _ _).1 Lagging.run_states.2.2.1
  simp only [Bool.and_eq_true, decide_eq_true_eq] at hlease hstop
  obtain ⟨⟨hupdated', hsome⟩, hpinned⟩ := hstop
  have hforce : InForce Lagging.run (3 + 1) Lagging.instant s := by
    refine ⟨2, by omega, hs, hlease.1.trans_le (by decide), fun j hj hj' s₁ hs₁ => ?_⟩
    interval_cases j
    · exact .inl (Option.some.inj (hs₁.symm.trans hs))
    · have hupdated := Lagging.run_states.2.1
      rw [hs₁, Option.all_some, decide_eq_true_eq] at hupdated
      exact .inr (hupdated ▸ by decide)
    · rw [← Option.some.inj (hs'.symm.trans hs₁), hupdated']
      exact .inr (by decide)
  have hquiet := hidle 3 s' (windowPolicy 1) hs'
    (.inl ⟨Option.isNone_iff_eq_none.1 Lagging.run_states.2.2.2, Option.isSome_iff_ne_none.1 hsome⟩)
    hpinned Lagging.instant s (hupdated' ▸ by decide) (hupdated' ▸ by decide) hforce
  exact absurd (hquiet.2.symm.trans hlease.2) (by decide)

end Yggdrasil.Executor
