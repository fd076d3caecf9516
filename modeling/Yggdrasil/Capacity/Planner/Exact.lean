import Yggdrasil.Capacity.Planner

/-!
# Exact planning and the shape of decisions

What the planner's code says once its machine arithmetic and its branches are
out of the way.
-/

namespace Yggdrasil.Capacity

open Check

variable {ext : External} (ovf ovf' : ℤ → ℤ) {p : CapacityPolicySpec} {a : CapacityAssessment}
  {s : CapacitySnapshot} {previous : CapacityClockState} {now units : ℤ} {repair : Bool}
  {profile : CapacityProfile} {windowStart : ℤ} {d : CapacityDecision}

/-! ## Exactness -/

/-- A duration of at most a day, either way, is computed exactly. -/
theorem seconds_eq {n : ℤ} (h : -86400 ≤ n) (h' : n ≤ 86400) :
    seconds ovf n = n * Instant.second := by
  refine Machine.result_of_fits ⟨?_, ?_⟩ <;> rw [Instant.second] <;> omega

@[simp]
theorem seconds_id (n : ℤ) : seconds id n = n * Instant.second := ite_self _

theorem fresh_ovf {t age : ℤ} (h : 1 ≤ age) (h' : age ≤ 3600) :
    fresh ovf t now age = fresh ovf' t now age := by
  simp only [fresh, seconds_eq _ (n := 5) (by norm_num) (by norm_num),
    seconds_eq _ (n := -age) (by omega) (by omega)]

theorem eligible_ovf (hp : ProfileBounds p profile) :
    eligible ovf p units now repair profile = eligible ovf' p units now repair profile := by
  have h := hp.readiness_nonneg
  simp only [eligible, seconds_eq _ (n := profile.readinessSeconds) (by omega) hp.readiness_le]

/-- A window is pending until the hold time has passed and is covered by evidence. -/
theorem windowPending_iff {since hold : ℤ} (h : 0 ≤ hold) (h' : hold ≤ 86400) :
    windowPending ovf now since windowStart hold = true ↔
      now - since < hold * Instant.second ∨ now - hold * Instant.second < windowStart := by
  have hfits : Machine.Fits (hold * Instant.second) := by
    constructor <;> rw [Instant.second] <;> omega
  have h0 : 0 ≤ hold * Instant.second := by rw [Instant.second]; omega
  rw [windowPending, seconds_eq _ (by omega) h', seconds_eq _ (n := -hold) (by omega) (by omega),
    Bool.or_eq_true, decide_eq_true_eq, decide_eq_true_eq, Instant.sub_lt_iff h0 hfits,
    neg_mul, ← sub_eq_add_neg]

variable (hb : PolicyBounds p)

include hb

theorem snapshotCurrent_ovf :
    snapshotCurrent ovf p s now = snapshotCurrent ovf' p s now := by
  simp only [snapshotCurrent, fresh_ovf ovf ovf' hb.one_le_age hb.age_le]

/-- The cost of a profile of a valid policy is at most 10¹⁷. -/
theorem profileCost_fits (hp : ProfileBounds p profile) (hu : units ≤ p.ceiling) :
    Machine.Fits (profile.unitMonthlyCostMinor * max units profile.minUnits) := by
  have hfloor := hb.one_le_floor.trans hp.floor_le_minUnits
  have hmax : max units profile.minUnits ≤ 100000 :=
    (max_le hu (hp.minUnits_le_maxUnits.trans hp.maxUnits_le_ceiling)).trans hb.ceiling_le
  have hnonneg : 0 ≤ max units profile.minUnits := le_max_of_le_right (by omega)
  have hle := mul_le_mul hp.cost_le hmax hnonneg (by norm_num)
  have h0 := mul_nonneg hp.cost_nonneg hnonneg
  exact ⟨by omega, by omega⟩

theorem profileCost_ovf (hp : ProfileBounds p profile) (hu : units ≤ p.ceiling) :
    profileCost ovf units profile = profile.unitMonthlyCostMinor * max units profile.minUnits :=
  Machine.result_of_fits (profileCost_fits hb hp hu)

/-! ## Selection -/

/-- What the selection minimises: the cost, then the name. -/
def costKey (units : ℤ) (profile : CapacityProfile) : ℤ ×ₗ String :=
  toLex (profile.unitMonthlyCostMinor * max units profile.minUnits, profile.name)

/-- `profile` is the least eligible one. -/
structure Cheapest (p : CapacityPolicySpec) (units now : ℤ) (repair : Bool)
    (profile : CapacityProfile) : Prop where
  mem : profile ∈ p.profiles
  is_eligible : eligible id p units now repair profile = true
  least : ∀ other ∈ p.profiles, eligible id p units now repair other = true →
    costKey units profile ≤ costKey units other

omit hb in
/-- The selection loop is a search for the least element. -/
theorem selectEligibleProfile_eq_argmin :
    selectEligibleProfile ovf p units now repair =
      (p.profiles.filter (eligible ovf p units now repair)).argmin
        fun profile => toLex (profileCost ovf units profile, profile.name) := by
  rw [selectEligibleProfile, List.argmin, List.foldl_filter]
  congr 1
  funext selected candidate
  split
  · cases selected with
    | none => rfl
    | some best => simp only [cheaper, List.argAux, Prod.Lex.toLex_lt_toLex]
  · rfl

theorem cheapest_of_select (hu : units ≤ p.ceiling)
    (h : selectEligibleProfile ovf p units now repair = some profile) :
    Cheapest p units now repair profile := by
  rw [selectEligibleProfile_eq_argmin] at h
  obtain ⟨hmem, helig⟩ := List.mem_filter.1 (List.argmin_mem h)
  refine ⟨hmem, eligible_ovf ovf id (hb.profiles _ hmem) ▸ helig, fun other ho hoe => ?_⟩
  rw [eligible_ovf id ovf (hb.profiles _ ho)] at hoe
  have hle := List.le_of_mem_argmin (List.mem_filter.2 ⟨ho, hoe⟩) h
  rwa [profileCost_ovf ovf hb (hb.profiles _ hmem) hu,
    profileCost_ovf ovf hb (hb.profiles _ ho) hu] at hle

omit hb in
/-- The least eligible profile has the name that any list of the same profiles
    gives. -/
theorem Cheapest.name_eq {q : CapacityPolicySpec} {other : CapacityProfile}
    (h : Cheapest p units now repair profile) (h' : Cheapest q units now repair other)
    (hmem : ∀ c, c ∈ p.profiles ↔ c ∈ q.profiles)
    (helig : ∀ c, eligible id p units now repair c = eligible id q units now repair c) :
    profile.name = other.name := by
  have hle := h.least other ((hmem _).2 h'.mem) (by rw [helig]; exact h'.is_eligible)
  have hge := h'.least profile ((hmem _).1 h.mem) (by rw [← helig]; exact h.is_eligible)
  exact congrArg (fun k => (ofLex k).2) (le_antisymm hle hge)

theorem eq_of_name_eq {c c' : CapacityProfile} (h : c ∈ p.profiles)
    (h' : c' ∈ p.profiles) (hname : c.name = c'.name) : c = c' :=
  List.inj_on_of_nodup_map hb.profiles_nodup h h' hname

theorem select_ovf (hu : units ≤ p.ceiling) :
    selectEligibleProfile ovf p units now repair =
      selectEligibleProfile ovf' p units now repair := by
  have hfilter : p.profiles.filter (eligible ovf p units now repair) =
      p.profiles.filter (eligible ovf' p units now repair) :=
    List.filter_congr fun c hc => eligible_ovf ovf ovf' (hb.profiles c hc)
  cases h : selectEligibleProfile ovf p units now repair with
  | none =>
    rw [selectEligibleProfile_eq_argmin, List.argmin_eq_none] at h
    rw [selectEligibleProfile_eq_argmin, ← hfilter, h, List.argmin_nil]
  | some c =>
    cases h' : selectEligibleProfile ovf' p units now repair with
    | none =>
      rw [selectEligibleProfile_eq_argmin, List.argmin_eq_none, ← hfilter] at h'
      rw [selectEligibleProfile_eq_argmin, h', List.argmin_nil] at h
      cases h
    | some c' =>
      have hc := cheapest_of_select ovf hb hu h
      have hc' := cheapest_of_select ovf' hb hu h'
      rw [eq_of_name_eq hb hc.mem hc'.mem (hc.name_eq hc' (fun _ => Iff.rfl) fun _ => rfl)]

/-! ## Exact evidence and decisions -/

theorem evidenceAvailable_ovf {rule : CapacitySignalRule}
    {e : CapacityEvidence} :
    evidenceAvailable ovf p rule e now = evidenceAvailable ovf' p rule e now := by
  simp only [evidenceAvailable, fresh_ovf ovf ovf' hb.one_le_age hb.age_le,
    seconds_eq _ (n := 5) (by norm_num) (by norm_num)]

theorem scanSignals_ovf {evidence : List CapacityEvidence}
    (rules : List CapacitySignalRule) (acc : Pressure) :
    scanSignals ovf p evidence now rules acc = scanSignals ovf' p evidence now rules acc := by
  induction rules generalizing acc with
  | nil => rfl
  | cons rule rules ih => simp only [scanSignals, evidenceAvailable_ovf ovf ovf' hb, ih]

theorem scanEvidence_ovf :
    scanEvidence ovf p a now = scanEvidence ovf' p a now := by
  simp only [scanEvidence, scanSignals_ovf ovf ovf' hb]

theorem sameWindow_ovf :
    sameWindow ext ovf p s previous now = sameWindow ext ovf' p s previous now := by
  have hgap : 1 ≤ controllerGapSeconds p ∧ controllerGapSeconds p ≤ 3600 := by
    have := hb.age_le
    have := hb.one_le_gap
    have := hb.gap_le_age
    unfold controllerGapSeconds
    split <;> omega
  simp only [sameWindow, fresh_ovf ovf ovf' hgap.1 hgap.2]

theorem observe_ovf :
    observe ext ovf p s previous now = observe ext ovf' p s previous now := by
  simp only [observe, sameWindow_ovf ovf ovf' hb]

/-- An action is cooling down at `now`. -/
def Cooling (p : CapacityPolicySpec) (previous : CapacityClockState) (now : ℤ) : Prop :=
  previous.lastActionAt ≠ 0 ∧ now - previous.lastActionAt < p.cooldownSeconds * Instant.second

theorem cooling_iff :
    (previous.lastActionAt ≠ 0 ∧
      Instant.sub now previous.lastActionAt < seconds ovf p.cooldownSeconds) ↔
      Cooling p previous now := by
  have h0 := hb.cooldown_nonneg
  have h1 := hb.cooldown_le
  rw [Cooling, seconds_eq _ (by omega) h1, Instant.sub_lt_iff] <;>
    simp only [Machine.Fits, Instant.second] <;> omega

theorem act_ovf {wanted : ℤ} (hw : wanted ≤ p.ceiling) :
    act ovf p s d previous now wanted = act ovf' p s d previous now wanted := by
  have h0 := hb.cooldown_nonneg
  have hcool : seconds ovf p.cooldownSeconds = seconds ovf' p.cooldownSeconds := by
    rw [seconds_eq ovf (by omega) hb.cooldown_le, seconds_eq ovf' (by omega) hb.cooldown_le]
  simp only [act, hcool, cheapestEligible, select_ovf ovf ovf' hb hw]

/-! ## The shape of decisions -/

/-- The two ways demand can press on capacity. -/
inductive Direction
  | up
  | down
  deriving DecidableEq

/-- The way the evidence presses. Pressure up takes precedence. -/
def Pressure.direction (pressure : Pressure) : Option Direction :=
  if pressure.up then some .up else if pressure.down then some .down else none

namespace Direction

/-- The time pressure must last. -/
def hold (p : CapacityPolicySpec) : Direction → ℤ
  | up => p.upHoldSeconds
  | down => p.downHoldSeconds

/-- The units one step away. -/
def wanted (p : CapacityPolicySpec) (units : ℤ) : Direction → ℤ
  | up => min p.ceiling (units + p.step)
  | down => max p.floor (units - p.step)

/-- The window of a direction is not over yet. -/
def pendingReason : Direction → Reason
  | up => .upWindowPending
  | down => .downWindowPending

theorem hold_nonneg (dir : Direction) : 0 ≤ dir.hold p := by
  have := hb.upHold_nonneg
  have := hb.one_le_downHold
  cases dir <;> simp only [hold] <;> omega

theorem hold_le (dir : Direction) : dir.hold p ≤ 86400 := by
  have := hb.upHold_le_downHold
  have := hb.downHold_le
  cases dir <;> simp only [hold] <;> omega

theorem wanted_le_ceiling (hu : units ≤ p.ceiling) (dir : Direction) :
    dir.wanted p units ≤ p.ceiling := by
  have := hb.floor_le_ceiling
  have := hb.one_le_step
  cases dir <;> simp only [wanted] <;> omega

theorem floor_le_wanted (hu : p.floor ≤ units) (dir : Direction) :
    p.floor ≤ dir.wanted p units := by
  have := hb.floor_le_ceiling
  have := hb.one_le_step
  cases dir <;> simp only [wanted] <;> omega

end Direction

namespace CapacityClockState

variable (c : CapacityClockState)

/-- The start of the open window, or zero. -/
def window : Direction → ℤ
  | .up => c.upSince
  | .down => c.downSince

/-- The clock with one window open since `t` and the other closed. -/
def openWindow (dir : Direction) (t : ℤ) : CapacityClockState :=
  match dir with
  | .up => { c with upSince := t, downSince := 0 }
  | .down => { c with upSince := 0, downSince := t }

omit hb in
theorem window_reset (c : CapacityClockState) (dir : Direction) : c.reset.window dir = 0 := by
  cases dir <;> rfl

/-- Since when pressure in one direction lasts, at a call at `now`. -/
def since (dir : Direction) (now : ℤ) : ℤ :=
  if c.window dir = 0 then now else c.window dir

end CapacityClockState

theorem units_step_fits (h0 : 0 ≤ units) (hu : units ≤ p.ceiling) :
    Machine.Fits (units + p.step) ∧ Machine.Fits (units - p.step) := by
  have := hb.one_le_step
  have := hb.step_le_ceiling
  have := hb.ceiling_le
  exact ⟨⟨by omega, by omega⟩, by omega, by omega⟩

omit hb in
theorem units_of_snapshotCurrent (h : snapshotCurrent ovf p s now = true) :
    0 ≤ s.units ∧ s.units ≤ p.ceiling := by
  simp only [snapshotCurrent, Bool.and_eq_true, decide_eq_true_eq] at h
  exact ⟨h.1.1.2, h.1.2⟩

/-- The window opens or stays open, and once it is not pending one step is taken. -/
theorem decidePressure_eq (h0 : 0 ≤ s.units) (hu : s.units ≤ p.ceiling) {pressure : Pressure} :
    decidePressure ext ovf p s d previous now pressure =
      let clock := observe ext id p s previous now
      match pressure.direction with
      | none => { d with clock := clock.reset }
      | some dir =>
        let d := { d with clock := clock.openWindow dir (clock.since dir now) }
        if windowPending id now (clock.since dir now) pressure.windowStart (dir.hold p) then
          { d with reason := dir.pendingReason }
        else act id p s d previous now (dir.wanted p s.units) := by
  obtain ⟨hadd, hsub⟩ := units_step_fits hb h0 hu
  have hpending (dir : Direction) (t w : ℤ) :
      windowPending ovf now t w (dir.hold p) = windowPending id now t w (dir.hold p) := by
    have hnonneg := Direction.hold_nonneg hb dir
    have hle := Direction.hold_le hb dir
    rw [Bool.eq_iff_iff, windowPending_iff ovf hnonneg hle, windowPending_iff id hnonneg hle]
  have hact (dir : Direction) (d : CapacityDecision) :
      act ovf p s d previous now (dir.wanted p s.units) =
        act id p s d previous now (dir.wanted p s.units) :=
    act_ovf ovf id hb (Direction.wanted_le_ceiling hb hu dir)
  rw [decidePressure, observe_ovf ovf id hb, Machine.result_of_fits hadd,
    Machine.result_of_fits hsub]
  simp only [← hpending, ← hact]
  rcases pressure with ⟨_ | _, _ | _, start⟩ <;> rfl

/-- A decision of a valid policy does not depend on what an overflow returns. -/
theorem plan_ovf :
    plan ext ovf p a previous now = plan ext ovf' p a previous now := by
  simp only [plan, snapshotCurrent_ovf ovf ovf' hb, scanEvidence_ovf ovf ovf' hb, repairFloor,
    select_ovf ovf ovf' hb hb.floor_le_ceiling]
  split
  · rfl
  · rename_i hcurrent
    obtain ⟨h0, hu⟩ := units_of_snapshotCurrent ovf' (by simpa using hcurrent)
    simp only [decidePressure_eq ovf hb h0 hu, decidePressure_eq ovf' hb h0 hu]

/-- `d` moves to the cheapest profile for `wanted` units. -/
structure Moves (p : CapacityPolicySpec) (s : CapacitySnapshot) (now wanted : ℤ) (repair : Bool)
    (profile : CapacityProfile) (d : CapacityDecision) : Prop where
  selected : selectEligibleProfile id p wanted now repair = some profile
  profile_eq : d.profile = profile.name
  units_eq : d.units = max wanted profile.minUnits
  action_eq : d.action = if profile.name ≠ s.profile then .prepare
    else if s.units < d.units then .expand else .drain

/-- `d` repairs the floor, and closes the windows of the clock. -/
structure RepairsFloor (p : CapacityPolicySpec) (s : CapacitySnapshot)
    (previous : CapacityClockState) (now : ℤ) (d : CapacityDecision) : Prop where
  below : s.units < p.floor
  moves : ∃ profile, Moves p s now p.floor true profile d
  reason_eq : d.reason = .protectedFloorRecovery
  clock_eq : d.clock = previous.reset

/-- `d` follows pressure in the direction `dir` that has lasted. -/
structure FollowsPressure (ext : External) (p : CapacityPolicySpec) (a : CapacityAssessment)
    (previous : CapacityClockState) (now : ℤ) (d : CapacityDecision) (pressure : Pressure)
    (dir : Direction) : Prop where
  not_below : p.floor ≤ a.snapshot.units
  units_le : a.snapshot.units ≤ p.ceiling
  evidence : scanEvidence id p a now = .ok pressure
  direction : pressure.direction = some dir
  lasted : windowPending id now ((observe ext id p a.snapshot previous now).since dir now)
    pressure.windowStart (dir.hold p) = false
  not_cooling : ¬ Cooling p previous now
  moves : ∃ profile, Moves p a.snapshot now (dir.wanted p a.snapshot.units) false profile d
  changes : ¬ (d.units = a.snapshot.units ∧ d.profile = a.snapshot.profile)
  clock_eq : d.clock = (observe ext id p a.snapshot previous now).openWindow dir
    ((observe ext id p a.snapshot previous now).since dir now)

/-- A step is a hold that changes only the reason, or a move that is not cooling
    down. -/
theorem act_cases (s : CapacitySnapshot) (d : CapacityDecision)
    (previous : CapacityClockState) (now wanted : ℤ) :
    (∃ reason, act id p s d previous now wanted = { d with reason }) ∨
      ¬ Cooling p previous now ∧
      (∃ profile, Moves p s now wanted false profile (act id p s d previous now wanted)) ∧
      ¬ ((act id p s d previous now wanted).units = s.units ∧
        (act id p s d previous now wanted).profile = s.profile) ∧
      (act id p s d previous now wanted).clock = d.clock := by
  by_cases hcool : Cooling p previous now
  · exact .inl ⟨.cooldown, if_pos ((cooling_iff id hb).2 hcool)⟩
  rw [act, if_neg (mt (cooling_iff id hb).1 hcool), cheapestEligible]
  cases hsel : selectEligibleProfile id p wanted now false with
  | none => exact .inl ⟨.validatedProfileUnavailable, rfl⟩
  | some profile =>
    by_cases hsame : max wanted profile.minUnits = s.units ∧ profile.name = s.profile
    · exact .inl ⟨.capacityBoundary, if_pos hsame⟩
    · refine .inr ⟨hcool, ⟨profile, hsel, ?_, ?_, ?_⟩, ?_, ?_⟩ <;>
        simp only [if_neg hsame] <;> split_ifs <;> simp_all

/-- The courses of a call: it holds, repairs the floor, or follows pressure. -/
theorem plan_cases :
    let d := plan ext id p a previous now
    let clock := observe ext id p a.snapshot previous now
    (d.action = .hold ∧ d.units = a.snapshot.units ∧
      ((∀ dir, d.clock.window dir = 0) ∨ selectEligibleProfile id p p.floor now true = none ∨
        ∃ pressure dir, scanEvidence id p a now = .ok pressure ∧ pressure.direction = some dir ∧
          d.clock = clock.openWindow dir (clock.since dir now))) ∨
    RepairsFloor p a.snapshot previous now d ∨
    ∃ pressure dir, FollowsPressure ext p a previous now d pressure dir := by
  intro d clock
  have hreset := CapacityClockState.window_reset
  by_cases hcurrent : snapshotCurrent id p a.snapshot now = true
  case neg => exact .inl (by simp [d, plan, hcurrent, holdUnknown, unchanged, hreset])
  by_cases hknown : knownProfile p a.snapshot.profile = true
  case neg => exact .inl (by simp [d, plan, hcurrent, hknown, holdUnknown, unchanged, hreset])
  by_cases hbelow : a.snapshot.units < p.floor
  · have hd : d = repairFloor id p a.snapshot (unchanged p a.snapshot previous) now := by
      simp [d, plan, hcurrent, hknown, hbelow]
    cases hsel : selectEligibleProfile id p p.floor now true with
    | none => exact .inl (by simp [hd, repairFloor, hsel, unchanged])
    | some profile =>
      rw [repairFloor, hsel] at hd
      refine .inr (.inl ⟨hbelow, ⟨profile, hsel, by rw [hd], by rw [hd], ?_⟩, by rw [hd],
        by rw [hd]; rfl⟩)
      -- The units of a repair are at least the floor, so it never drains.
      rw [hd, if_pos (lt_max_of_lt_left hbelow)]
  · cases hscan : scanEvidence id p a now with
    | error reason =>
      exact .inl (by
        simp [d, plan, hcurrent, hknown, hbelow, hscan, holdUnknown, unchanged, hreset])
    | ok pressure =>
      have hd : d = decidePressure ext id p a.snapshot (unchanged p a.snapshot previous)
          previous now pressure := by
        simp [d, plan, hcurrent, hknown, hbelow, hscan]
      obtain ⟨h0, hu⟩ := units_of_snapshotCurrent id hcurrent
      rw [decidePressure_eq id hb h0 hu] at hd
      cases hdir : pressure.direction with
      | none => exact .inl (by simp [hd, hdir, unchanged, hreset])
      | some dir =>
        simp only [hdir] at hd
        split at hd
        · exact .inl ⟨by rw [hd]; rfl, by rw [hd]; rfl,
            .inr (.inr ⟨pressure, dir, rfl, hdir, by rw [hd]⟩)⟩
        next hlasted =>
          rcases act_cases hb a.snapshot _ previous now (dir.wanted p a.snapshot.units) with
            ⟨reason, hact⟩ | ⟨hcool, hmoves, hchanges, hclock⟩
          · rw [hact] at hd
            exact .inl ⟨by rw [hd]; rfl, by rw [hd]; rfl,
              .inr (.inr ⟨pressure, dir, rfl, hdir, by rw [hd]⟩)⟩
          · rw [← hd] at hmoves hchanges hclock
            exact .inr (.inr ⟨pressure, dir, not_lt.1 hbelow, hu, hscan, hdir,
              by simpa using hlasted, hcool, hmoves, hchanges, hclock⟩)

/-- A decision that is not a hold repairs the floor or follows pressure. -/
theorem plan_acts (h : (plan ext id p a previous now).action ≠ .hold) :
    RepairsFloor p a.snapshot previous now (plan ext id p a previous now) ∨
      ∃ pressure dir,
        FollowsPressure ext p a previous now (plan ext id p a previous now) pressure dir :=
  (plan_cases hb).resolve_left fun hhold => h hhold.1

end Yggdrasil.Capacity
