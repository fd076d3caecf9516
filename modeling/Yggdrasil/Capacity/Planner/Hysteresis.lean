import Yggdrasil.Capacity.Planner.Envelope

/-!
# Hysteresis

A history is an unbounded sequence of calls of the planner, each given the clock that the one before
returned.
-/

namespace Yggdrasil.Capacity

open Check

variable {ext : External} {p : CapacityPolicySpec} {a : CapacityAssessment}
  {s : CapacitySnapshot} {previous : CapacityClockState} {now : ℤ} {dir : Direction}

/-! ## Windows of the clock -/

namespace CapacityClockState

/-- Neither window is open. -/
def NoWindow (c : CapacityClockState) : Prop := c.upSince = 0 ∧ c.downSince = 0

theorem NoWindow.window_eq {c : CapacityClockState} (h : c.NoWindow) (dir : Direction) :
    c.window dir = 0 := by
  cases dir
  · exact h.1
  · exact h.2

theorem window_openWindow (c : CapacityClockState) (dir dir' : Direction) (t : ℤ) :
    (c.openWindow dir t).window dir' = if dir' = dir then t else 0 := by
  cases dir <;> cases dir' <;> rfl

end CapacityClockState

theorem observe_window (dir : Direction) :
    (observe ext id p s previous now).window dir =
      if sameWindow ext id p s previous now then previous.window dir else 0 := by
  unfold observe
  split <;> cases dir <;> rfl

/-- No profile is eligible at `now` or later. -/
def Barren (p : CapacityPolicySpec) (now : ℤ) : Prop :=
  ∀ t ≥ now, ∀ units, selectEligibleProfile id p units t false = none

theorem Barren.mono {t : ℤ} (h : Barren p now) (ht : now ≤ t) : Barren p t :=
  fun t' ht' => h t' (ht.trans ht')

/-- A profile is current up to some instant. -/
theorem profilePlanningCurrent_mono {profile : CapacityProfile} {t t' : ℤ} (h : t ≤ t')
    (hcurrent : profilePlanningCurrent p profile t' = true) :
    profilePlanningCurrent p profile t = true := by
  unfold profilePlanningCurrent at hcurrent ⊢
  split at hcurrent <;> simp only [Bool.and_eq_true, decide_eq_true_eq] at hcurrent ⊢
  · exact ⟨hcurrent.1, by omega⟩
  · exact ⟨by omega, by omega⟩

/-- When no profile can repair the floor, none will ever be eligible. -/
theorem barren_of_select_none (hb : PolicyBounds p)
    (h : selectEligibleProfile id p p.floor now true = none) : Barren p now := by
  intro t ht units
  rw [selectEligibleProfile_eq_argmin, List.argmin_eq_none, List.filter_eq_nil_iff] at h ⊢
  intro profile hmem helig
  refine h profile hmem ?_
  have hp := hb.profiles profile hmem
  have := hp.floor_le_minUnits
  have := hp.minUnits_le_maxUnits
  simp only [eligible, Bool.and_eq_true, Bool.true_or, decide_eq_true_eq, true_and] at helig ⊢
  exact ⟨by omega, profilePlanningCurrent_mono (by omega) helig.2⟩

/-- An open window was opened or kept by pressure, unless no profile is eligible any more. -/
theorem plan_window (hb : PolicyBounds p)
    (h : (plan ext id p a previous now).clock.window dir ≠ 0) :
    Barren p now ∨ ∃ pressure, scanEvidence id p a now = .ok pressure ∧
      pressure.direction = some dir ∧
      (plan ext id p a previous now).clock = (observe ext id p a.snapshot previous now).openWindow
        dir ((observe ext id p a.snapshot previous now).since dir now) := by
  rcases plan_cases hb with ⟨-, -, hclock | hsel | ⟨pressure, dir', hscan, hdir, hclock⟩⟩ | hr |
    ⟨pressure, dir', hf⟩
  · exact absurd (hclock dir) h
  · exact .inl (barren_of_select_none hb hsel)
  · rw [hclock, CapacityClockState.window_openWindow] at h
    obtain ⟨rfl, -⟩ := ite_ne_right_iff.1 h
    exact .inr ⟨pressure, hscan, hdir, hclock⟩
  · rw [hr.clock_eq] at h
    exact absurd (CapacityClockState.window_reset _ dir) h
  · rw [hf.clock_eq, CapacityClockState.window_openWindow] at h
    obtain ⟨rfl, -⟩ := ite_ne_right_iff.1 h
    exact .inr ⟨pressure, hf.evidence, hf.direction, hf.clock_eq⟩

/-! ## Histories -/

/-- The arguments of one call, but for the clock. -/
structure Call where
  policy : CapacityPolicySpec
  assessment : CapacityAssessment
  now : ℤ

/-- The evidence of the call shows pressure in the direction `dir`. -/
def Call.Shows (c : Call) (dir : Direction) : Prop :=
  ∃ pressure, scanEvidence Machine.wrap c.policy c.assessment c.now = .ok pressure ∧
    pressure.direction = some dir

/-- Two calls are about the same resource, profile and policy fingerprint. -/
structure Call.Same (ext : External) (c c' : Call) : Prop where
  fingerprint_eq : ext.fingerprint c.policy = ext.fingerprint c'.policy
  resource_eq : c.assessment.snapshot.resourceUID = c'.assessment.snapshot.resourceUID
  workload_eq : c.assessment.snapshot.workloadUID = c'.assessment.snapshot.workloadUID
  version_eq : c.assessment.snapshot.workloadResourceVersion =
    c'.assessment.snapshot.workloadResourceVersion
  profile_eq : c.assessment.snapshot.profile = c'.assessment.snapshot.profile

theorem Call.Same.refl (c : Call) : c.Same ext c := ⟨rfl, rfl, rfl, rfl, rfl⟩

theorem Call.Same.trans {c c' c'' : Call} (h : c.Same ext c') (h' : c'.Same ext c'') :
    c.Same ext c'' :=
  ⟨h.1.trans h'.1, h.2.trans h'.2, h.3.trans h'.3, h.4.trans h'.4, h.5.trans h'.5⟩

/-- Calls, their clocks and decisions. A call is given the clock that the one before returned,
    whatever was recorded as the last action meanwhile; for another policy one without an open
    window. -/
structure IsHistory (ext : External) (calls : ℕ → Call) (clocks : ℕ → CapacityClockState)
    (decisions : ℕ → CapacityDecision) : Prop where
  returns : ∀ n, assess ext Machine.wrap (calls n).policy (calls n).assessment (clocks n)
    (calls n).now = .ok (decisions n)
  now_le : ∀ n, (calls n).now ≤ (calls (n + 1)).now
  starts : (clocks 0).NoWindow
  continues : ∀ n,
    (calls (n + 1)).policy = (calls n).policy ∧
        clocks (n + 1) =
          { (decisions n).clock with lastActionAt := (clocks (n + 1)).lastActionAt } ∨
      (clocks (n + 1)).NoWindow

/-- The calls from `i` to `n` form a run of pressure in the direction `dir`. -/
structure Lasts (ext : External) (calls : ℕ → Call) (dir : Direction) (i n : ℕ) : Prop where
  le : i ≤ n
  shows : ∀ k, i ≤ k → k ≤ n → (calls k).Shows dir
  same : ∀ k, i ≤ k → k ≤ n → (calls k).Same ext (calls n)
  gap_le : ∀ k, i ≤ k → k < n → (calls (k + 1)).now - (calls k).now ≤
    controllerGapSeconds (calls n).policy * Instant.second

variable {calls : ℕ → Call} {clocks : ℕ → CapacityClockState} {decisions : ℕ → CapacityDecision}
  {i n : ℕ}

theorem Lasts.single (h : (calls n).Shows dir) : Lasts ext calls dir n n where
  le := le_rfl
  shows _ hk hk' := le_antisymm hk hk' ▸ h
  same _ hk hk' := le_antisymm hk hk' ▸ Call.Same.refl _
  gap_le _ hk hk' := absurd hk' (not_lt.2 hk)

/-- A run goes on with a call that shows the pressure on the same resource, soon enough. -/
theorem Lasts.succ (h : Lasts ext calls dir i n) (hshows : (calls (n + 1)).Shows dir)
    (hpolicy : (calls (n + 1)).policy = (calls n).policy)
    (hsame : (calls n).Same ext (calls (n + 1)))
    (hgap : (calls (n + 1)).now - (calls n).now ≤
      controllerGapSeconds (calls (n + 1)).policy * Instant.second) :
    Lasts ext calls dir i (n + 1) where
  le := Nat.le_succ_of_le h.le
  shows k hk hk' := by
    rcases Nat.le_succ_iff.1 hk' with hk' | rfl
    · exact h.shows k hk hk'
    · exact hshows
  same k hk hk' := by
    rcases Nat.le_succ_iff.1 hk' with hk' | rfl
    · exact (h.same k hk hk').trans hsame
    · exact Call.Same.refl _
  gap_le k hk hk' := by
    rcases Nat.lt_succ_iff_lt_or_eq.1 hk' with hk' | rfl
    · exact hpolicy ▸ h.gap_le k hk hk'
    · exact hgap

/-- The clock `c` remembers the call `call` as the last observation. -/
structure Remembers (ext : External) (c : CapacityClockState) (call : Call) : Prop where
  fingerprint_eq : c.policyFingerprint = ext.fingerprint call.policy
  resource_eq : c.resourceUID = call.assessment.snapshot.resourceUID
  workload_eq : c.workloadUID = call.assessment.snapshot.workloadUID
  version_eq : c.workloadResourceVersion = call.assessment.snapshot.workloadResourceVersion
  profile_eq : c.profile = call.assessment.snapshot.profile
  observed_eq : c.lastObservedAt = call.now

/-- An open window stands for a run of pressure, unless no profile is eligible. -/
def Kept (ext : External) (calls : ℕ → Call) (clocks : ℕ → CapacityClockState) (n : ℕ) : Prop :=
  ∀ dir, (clocks n).window dir ≠ 0 → ∃ m, n = m + 1 ∧ (calls n).policy = (calls m).policy ∧
    (Barren (calls m).policy (calls m).now ∨
      Remembers ext (clocks n) (calls m) ∧
        ∃ i, Lasts ext calls dir i m ∧ (calls i).now = (clocks n).window dir)

namespace IsHistory

variable (h : IsHistory ext calls clocks decisions)
include h

theorem bounds (n : ℕ) : PolicyBounds (calls n).policy :=
  bounds_of_validatePolicy (assess_eq_ok.1 (h.returns n)).1

theorem decision_eq (n : ℕ) :
    plan ext id (calls n).policy (calls n).assessment (clocks n) (calls n).now = decisions n :=
  (assess_eq_ok.1 (h.returns n)).2

/-- The window that a call showing pressure works with began with a run up to this
    call. -/
theorem lasts_of_kept (hkept : Kept ext calls clocks n) (hshows : (calls n).Shows dir) :
    Barren (calls n).policy (calls n).now ∨ ∃ i, Lasts ext calls dir i n ∧
      (calls i).now = (observe ext id (calls n).policy (calls n).assessment.snapshot (clocks n)
        (calls n).now).since dir (calls n).now := by
  by_cases hw : (observe ext id (calls n).policy (calls n).assessment.snapshot (clocks n)
      (calls n).now).window dir = 0
  · exact .inr ⟨n, Lasts.single hshows, by rw [CapacityClockState.since, if_pos hw]⟩
  · have hobserve := hw
    rw [observe_window] at hobserve
    obtain ⟨hsame, hopen⟩ := ite_ne_right_iff.1 hobserve
    obtain ⟨m, rfl, hpolicy, hbarren | ⟨hrem, i, hlasts, hi⟩⟩ := hkept dir hopen
    · exact .inl (hpolicy ▸ hbarren.mono (h.now_le m))
    · right
      refine ⟨i, ?_, by rw [CapacityClockState.since, if_neg hw, observe_window, if_pos hsame, hi]⟩
      -- The clock accepted the window, so it remembers this very resource and policy.
      simp only [sameWindow, Bool.and_eq_true, beq_iff_eq, fresh, seconds_id,
        decide_eq_true_eq] at hsame
      obtain ⟨⟨⟨⟨⟨⟨h₁, h₂⟩, h₃⟩, h₄⟩, h₅⟩, -⟩, -, hfresh⟩ := hsame
      refine hlasts.succ hshows hpolicy ⟨hrem.1 ▸ h₁, hrem.2 ▸ h₂, hrem.3 ▸ h₃, hrem.4 ▸ h₄,
        hrem.5 ▸ h₅⟩ ?_
      rw [hrem.observed_eq] at hfresh
      linarith

/-- One call: what the clock it returns keeps. -/
theorem kept_succ (hkept : Kept ext calls clocks n) : Kept ext calls clocks (n + 1) := by
  intro dir hw
  rcases h.continues n with ⟨hpolicy, hclock⟩ | hno
  case inr => exact absurd (hno.window_eq dir) hw
  have hwindow : (clocks (n + 1)).window dir = (decisions n).clock.window dir := by
    rw [hclock]
    cases dir <;> rfl
  refine ⟨n, rfl, hpolicy, ?_⟩
  rw [hwindow, ← h.decision_eq n] at hw
  rcases plan_window (h.bounds n) hw with hbarren | ⟨pressure, hscan, hdir, hd⟩
  · exact .inl hbarren
  have hshows : (calls n).Shows dir :=
    ⟨pressure, by rw [scanEvidence_ovf Machine.wrap id (h.bounds n), hscan], hdir⟩
  rw [h.decision_eq n] at hd
  rcases h.lasts_of_kept hkept hshows with hbarren | ⟨i, hlasts, hi⟩
  · exact .inl hbarren
  · refine .inr ⟨?_, i, hlasts, ?_⟩
    · rw [hclock, hd]
      cases dir <;> exact ⟨rfl, rfl, rfl, rfl, rfl, rfl⟩
    · rw [hwindow, hd, CapacityClockState.window_openWindow, if_pos rfl, hi]

/-- Every call of a history is given a clock whose open windows began with runs. -/
theorem kept (n : ℕ) : Kept ext calls clocks n := by
  induction n with
  | zero => exact fun dir hw => absurd (h.starts.window_eq dir) hw
  | succ n ih => exact h.kept_succ ih

end IsHistory

/-- An action that is not a floor repair ends a run of calls that all show pressure in its
    direction, for the same resource, profile and policy, without too long a gap, for the hold time;
    and it does not come within the cooldown. -/
theorem hysteresis (ext : External) (calls : ℕ → Call) (clocks : ℕ → CapacityClockState)
    (decisions : ℕ → CapacityDecision) (h : IsHistory ext calls clocks decisions) (n : ℕ)
    (hact : (decisions n).action ≠ .hold)
    (hrepair : (decisions n).reason ≠ .protectedFloorRecovery) :
    (∃ dir i, Lasts ext calls dir i n ∧
      dir.hold (calls n).policy * Instant.second ≤ (calls n).now - (calls i).now ∧
      ((calls n).assessment.snapshot.units < (decisions n).units → dir = .up) ∧
      ((decisions n).units < (calls n).assessment.snapshot.units → dir = .down)) ∧
    ¬ Cooling (calls n).policy (clocks n) (calls n).now := by
  have hb := h.bounds n
  rw [← h.decision_eq n] at hact hrepair ⊢
  rcases plan_acts hb hact with hr | ⟨pressure, dir, hf⟩
  · exact absurd hr.reason_eq hrepair
  refine ⟨?_, hf.not_cooling⟩
  have hshows : (calls n).Shows dir :=
    ⟨pressure, by rw [scanEvidence_ovf Machine.wrap id hb, hf.evidence], hf.direction⟩
  rcases h.lasts_of_kept (h.kept n) hshows with hbarren | ⟨i, hlasts, hi⟩
  · -- An action needs an eligible profile.
    obtain ⟨profile, hm⟩ := hf.moves
    have hnone := hbarren (calls n).now le_rfl (dir.wanted (calls n).policy
      (calls n).assessment.snapshot.units)
    rw [hm.selected] at hnone
    cases hnone
  · have hlasted : ¬ _ := mt (windowPending_iff id (dir.hold_nonneg hb) (dir.hold_le hb)).2
      (Bool.not_eq_true _ ▸ hf.lasted)
    rw [← hi, not_or, not_lt] at hlasted
    obtain ⟨-, hup, hdown⟩ := Direction.wanted_step hb hf.not_below hf.units_le dir
    rw [← hf.units_eq hb] at hup hdown
    refine ⟨dir, i, hlasts, hlasted.1, fun hlt => ?_, fun hlt => ?_⟩
    · cases dir with
      | up => rfl
      | down => exact absurd (hdown rfl) (not_le.2 hlt)
    · cases dir with
      | up => exact absurd (hup rfl) (not_le.2 hlt)
      | down => rfl

namespace Sample

/-- Pressure at a hundred seconds, and again ten seconds later and ever after. -/
def call : ℕ → Call
  | 0 => ⟨policy, assessment 2 90 100, 100 * Instant.second⟩
  | _ + 1 => ⟨policy, assessment 2 90 110, 110 * Instant.second⟩

/-- The clock that has seen pressure since a hundred seconds, last at `t`. -/
def clockAt (t : ℤ) : CapacityClockState where
  resourceUID := "resource"
  workloadUID := "workload"
  workloadResourceVersion := "1"
  profile := "large"
  lastObservedAt := t * Instant.second
  upSince := 100 * Instant.second

/-- The clocks of a run. -/
def clock : ℕ → CapacityClockState
  | 0 => {}
  | 1 => clockAt 100
  | _ + 2 => clockAt 110

/-- The decisions of a run. -/
def decision : ℕ → CapacityDecision
  | 0 => ⟨.hold, .upWindowPending, "large", 2, 1, false, clockAt 100⟩
  | _ + 1 => ⟨.prepare, .profileTransitionRequired, "small", 3, 1, true, clockAt 110⟩

theorem isHistory : IsHistory external call clock decision where
  returns
    | 0 => by decide
    | 1 => by decide
    | _ + 2 => show assess external Machine.wrap (call 1).policy (call 1).assessment (clockAt 110)
        (call 1).now = .ok (decision 1) by decide
  now_le
    | 0 => by decide
    | _ + 1 => le_rfl
  starts := ⟨rfl, rfl⟩
  continues
    | 0 => .inl ⟨rfl, rfl⟩
    | _ + 1 => .inl ⟨rfl, rfl⟩

/-- The step to three small units follows a run that lasted ten seconds. -/
theorem sample_hysteresis :
    ∃ dir i, Lasts external call dir i 1 ∧
      dir.hold policy * Instant.second ≤ (call 1).now - (call i).now ∧ dir = .up := by
  obtain ⟨⟨dir, i, hlasts, hhold, hup, -⟩, -⟩ :=
    hysteresis external call clock decision isHistory 1 (by decide) (by decide)
  exact ⟨dir, i, hlasts, hhold, hup (by decide)⟩

end Sample

end Yggdrasil.Capacity
