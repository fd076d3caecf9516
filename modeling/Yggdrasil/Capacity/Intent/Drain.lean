import Yggdrasil.Capacity.Intent.Lease
import Yggdrasil.Capacity.Planner.Envelope

/-!
# The phases of a reduction

How a generation gets to `promoted` in every run that starts without a record. The table of allowed
transitions leaves one way to each phase (`passed`), and the run has been through it (`tracked`);
the planner drains exactly when it takes units from the profile that is there (`plan_drain`).
-/

namespace Yggdrasil.Capacity

variable {ext : External} {p : CapacityPolicySpec} {a : CapacityAssessment}
  {previous : CapacityClockState} {now : ℤ} {d : CapacityDecision} {next phase : Phase}
  {trail : List Phase} {n : ℕ} {o : CapacityIntent}

/-! ## Drains of the planner -/

theorem Moves.drain {s : CapacitySnapshot} {wanted : ℤ} {repair : Bool} {profile : CapacityProfile}
    (h : Moves p s now wanted repair profile d) :
    (d.profile = s.profile → d.units < s.units → d.action = .drain) ∧
      (d.action = .drain → d.profile = s.profile) := by
  refine ⟨fun hprofile hlt => ?_, fun hdrain => ?_⟩
  · rw [h.action_eq, if_neg (not_not.2 (h.profile_eq ▸ hprofile)), if_neg (not_lt.2 hlt.le)]
  · rw [h.profile_eq]
    by_contra hne
    rw [h.action_eq, if_pos hne] at hdrain
    cases hdrain

/-- A decision that takes units from the current profile drains, and keeps the profile. -/
theorem plan_drain (hb : PolicyBounds p) :
    let d := plan ext id p a previous now
    (d.profile = a.snapshot.profile → d.units < a.snapshot.units → d.action = .drain) ∧
      (d.action = .drain → d.profile = a.snapshot.profile) := by
  rcases plan_cases hb with ⟨hhold, hunits, -⟩ | hr | ⟨pressure, dir, hf⟩
  · refine ⟨fun _ hlt => absurd hlt (not_lt.2 hunits.ge), fun hdrain => ?_⟩
    rw [hhold] at hdrain
    cases hdrain
  · obtain ⟨profile, hm⟩ := hr.moves
    exact hm.drain
  · obtain ⟨profile, hm⟩ := hf.moves
    exact hm.drain

/-! ## The way to a phase -/

/-- The phases that a generation has passed on the way to its phase, the latest first. -/
def passed : Bool → Phase → Option (List Phase)
  | true, .draining => some []
  | true, .drained => some [.draining]
  | true, .promoted => some [.drained, .draining]
  | false, .preparing => some []
  | false, .prepared => some [.preparing]
  | false, .canary => some [.prepared, .preparing]
  | false, .promoted => some [.canary, .prepared, .preparing]
  | _, _ => none

theorem passed_advance {drains : Bool} (h : passed drains phase = some trail)
    (hallowed : capacityTransitionAllowed phase next = true) :
    passed drains next = some (phase :: trail) := by
  unfold capacityTransitionAllowed at hallowed
  split at hallowed <;> cases drains <;> simp_all [passed]

/-- The phases from which a generation is advanced, and the last. -/
def underway : Phase → Bool
  | .draining | .drained | .preparing | .prepared | .canary | .promoted => true
  | _ => false

/-- The record at `n` is of generation `g` in the phase `phase`. -/
def At (ρ : ℕ → Option CapacityIntent) (g : ℤ) (phase : Phase) (n : ℕ) : Prop :=
  ∃ o, ρ n = some o ∧ o.generation = g ∧ o.phase = phase

/-- Generation `g` went through the phases `trail`, the latest first, before `n`. -/
def Visits (ρ : ℕ → Option CapacityIntent) (g : ℤ) : List Phase → ℕ → Prop
  | [], _ => True
  | phase :: trail, n => ∃ i < n, At ρ g phase i ∧ Visits ρ g trail i

theorem Visits.succ {ρ : ℕ → Option CapacityIntent} {g : ℤ} (h : Visits ρ g trail n) :
    Visits ρ g trail (n + 1) := by
  cases trail with
  | nil => trivial
  | cons phase trail =>
    obtain ⟨i, hi, h⟩ := h
    exact ⟨i, hi.trans n.lt_succ_self, h⟩

/-! ## Runs -/

/-- The decision takes units from the profile of the baseline exactly by draining. -/
structure Consistent (o : CapacityIntent) : Prop where
  drains : o.decision.profile = o.baselineSnapshot.profile →
    o.decision.units < o.baselineSnapshot.units → o.decision.action = .drain
  keeps : o.decision.action = .drain → o.decision.profile = o.baselineSnapshot.profile

/-- Two records are of the same generation, phase and change of capacity. -/
structure SameChange (next o : CapacityIntent) : Prop where
  generation_eq : next.generation = o.generation
  phase_eq : next.phase = o.phase
  action_eq : next.decision.action = o.decision.action
  units_eq : next.decision.units = o.decision.units
  profile_eq : next.decision.profile = o.decision.profile
  baseline_eq : next.baselineSnapshot = o.baselineSnapshot

theorem SameChange.refl (o : CapacityIntent) : SameChange o o := ⟨rfl, rfl, rfl, rfl, rfl, rfl⟩

theorem Consistent.congr {next : CapacityIntent} (h : SameChange next o) (ho : Consistent o) :
    Consistent next where
  drains := by
    rw [h.profile_eq, h.units_eq, h.action_eq, h.baseline_eq]
    exact ho.drains
  keeps := by
    rw [h.profile_eq, h.action_eq, h.baseline_eq]
    exact ho.keeps

/-- The decision fits its baseline, and the run has been through the phases before. -/
def Tracked (ρ : ℕ → Option CapacityIntent) (n : ℕ) (o : CapacityIntent) : Prop :=
  underway o.phase = true → Consistent o ∧
    ∃ trail, passed (o.decision.action == .drain) o.phase = some trail ∧
      Visits ρ o.generation trail n

variable {ρ : ℕ → Option CapacityIntent} {δ : ℕ → Option Request}

theorem Consistent.of_claim {store : CapacityStore} {env : Env}
    (hd : assess ext Machine.wrap p a previous now = .ok d) (haction : d.action = o.decision.action)
    (hunits : d.units = o.decision.units) (hprofile : d.profile = o.decision.profile) :
    Consistent (claimed store p env o a) := by
  obtain ⟨hvalid, rfl⟩ := assess_eq_ok.1 hd
  obtain ⟨hdrain, hkeep⟩ := @plan_drain ext p a previous now (bounds_of_validatePolicy hvalid)
  rw [haction, hunits, hprofile] at hdrain
  rw [haction, hprofile] at hkeep
  exact ⟨hdrain, hkeep⟩

theorem tracked_step (h : IsRun (Step ext) ρ δ) (hn : ∀ o, ρ n = some o → Tracked ρ n o) :
    ∀ o, ρ (n + 1) = some o → Tracked ρ (n + 1) o := by
  intro next hnext hway
  have hstep := h n
  rw [hnext] at hstep
  generalize hold : ρ n = old, δ n = l at hstep
  have hkeep : ∀ o, ρ n = some o → SameChange next o → Consistent next ∧
      ∃ trail, passed (next.decision.action == .drain) next.phase = some trail ∧
        Visits ρ next.generation trail (n + 1) := by
    intro o ho hsame
    obtain ⟨hc, trail, hpassed, hvisits⟩ := hn o ho (hsame.phase_eq ▸ hway)
    refine ⟨hc.congr hsame, trail, ?_, hsame.generation_eq ▸ hvisits.succ⟩
    rw [hsame.action_eq, hsame.phase_eq, hpassed]
  cases hstep with
  | refuse => exact hkeep next hold (.refl _)
  | commit hperform =>
    cases change_of_perform hperform with
    | keep => exact hkeep next hold (.refl _)
    | renew | recover | renewRecovery => exact hkeep _ hold ⟨rfl, rfl, rfl, rfl, rfl, rfl⟩
    | assess _ ha =>
      rcases ha.outcome with ⟨hphase, -⟩ | ⟨hphase, -⟩ <;> simp [underway, hphase] at hway
    | reconcile _ _ _ _ houtcome =>
      rcases houtcome with rfl | rfl | rfl | rfl <;> simp [underway] at hway
    | claim _ _ _ _ hplan =>
      obtain ⟨d, hd, haction, hunits, hprofile⟩ := hplan
      refine ⟨.of_claim hd haction hunits hprofile, [], ?_, trivial⟩
      simp only [claimed]
      split
      · simp [*, passed]
      · rename_i hnot
        rw [beq_eq_false_iff_ne.2 hnot]
        rfl
    | advance _ _ _ hallowed =>
      obtain ⟨hc, trail, hpassed, hvisits⟩ := hn _ hold (by
        unfold capacityTransitionAllowed at hallowed
        split at hallowed <;> simp_all [underway])
      have hpassed' := passed_advance hpassed hallowed
      refine ⟨⟨?_, ?_⟩, _, by simpa only [advanced_keeps] using hpassed', ?_⟩
      · simpa using hc.drains
      · simpa using hc.keeps
      · rw [advanced_keeps.1]
        exact ⟨n, n.lt_succ_self, ⟨_, hold, rfl, rfl⟩, hvisits⟩

/-- Every record underway in a run that starts without a record is tracked. -/
theorem tracked (h : IsRun (Step ext) ρ δ) (h0 : ρ 0 = none) (n : ℕ) :
    ∀ o, ρ n = some o → Tracked ρ n o := by
  induction n with
  | zero => simp [h0]
  | succ n ih => exact tracked_step h ih

/-- The promotion of a reduction was committed on a proof that nothing is in flight. -/
def PromotedIdle (δ : ℕ → Option Request) (n : ℕ) (o : CapacityIntent) : Prop :=
  o.phase = .promoted → capacityIntentReduction o = true →
    ∃ i < n, ∃ r fence owner proof, δ i = some r ∧
      r.operation = .advance o.generation fence owner .promoted proof ∧ proof.inflight = some 0

theorem promotedIdle_step (h : IsRun (Step ext) ρ δ) (hn : ∀ o, ρ n = some o → PromotedIdle δ n o) :
    ∀ o, ρ (n + 1) = some o → PromotedIdle δ (n + 1) o := by
  intro next hnext hphase hred
  have hstep := h n
  rw [hnext] at hstep
  generalize hold : ρ n = old, hl : δ n = l at hstep
  have hkeep : ∀ o, ρ n = some o → SameChange next o →
      ∃ i < n + 1, ∃ r fence owner proof, δ i = some r ∧
        r.operation = .advance next.generation fence owner .promoted proof ∧
        proof.inflight = some 0 := by
    intro o ho hsame
    have hred' : capacityIntentReduction o = true := by
      rwa [capacityIntentReduction, ← hsame.action_eq, ← hsame.units_eq, ← hsame.baseline_eq]
    obtain ⟨i, hi, hpromote⟩ := hn o ho (hsame.phase_eq ▸ hphase) hred'
    exact ⟨i, hi.trans n.lt_succ_self, hsame.generation_eq ▸ hpromote⟩
  cases hstep with
  | refuse => exact hkeep next hold (.refl _)
  | commit hperform =>
    cases change_of_perform hperform with
    | keep => exact hkeep next hold (.refl _)
    | renew | recover | renewRecovery => exact hkeep _ hold ⟨rfl, rfl, rfl, rfl, rfl, rfl⟩
    | assess _ ha =>
      rcases ha.outcome with ⟨hphase', -⟩ | ⟨hphase', -⟩ <;> cases hphase.symm.trans hphase'
    | reconcile _ _ _ _ houtcome =>
      rcases houtcome with rfl | rfl | rfl | rfl <;> cases hphase
    | claim =>
      simp only [claimed] at hphase
      split at hphase <;> cases hphase
    | advance hop hlease _ _ hinflight =>
      rw [advanced_keeps.2.2.1] at hphase
      subst hphase
      rw [advanced_keeps.1, hlease.generation_eq]
      refine ⟨n, n.lt_succ_self, _, _, _, _, hl, hop, hinflight rfl ?_⟩
      simpa [capacityIntentReduction] using hred

theorem promotedIdle (h : IsRun (Step ext) ρ δ) (h0 : ρ 0 = none) (n : ℕ) :
    ∀ o, ρ n = some o → PromotedIdle δ n o := by
  induction n with
  | zero => simp [h0]
  | succ n ih => exact promotedIdle_step h ih

/-- A reduction is promoted with nothing in flight, after `draining` and `drained` if it keeps the
    profile of its baseline, and otherwise after `preparing`, `prepared` and `canary`. -/
theorem reduction_route (ext : External) (ρ : ℕ → Option CapacityIntent)
    (δ : ℕ → Option Request) (h : IsRun (Step ext) ρ δ) (h0 : ρ 0 = none) (n : ℕ)
    (o : CapacityIntent) (hn : ρ n = some o) (hphase : o.phase = .promoted)
    (hred : o.decision.units < o.baselineSnapshot.units) :
    (∃ i < n, ∃ r fence owner proof, δ i = some r ∧
      r.operation = .advance o.generation fence owner .promoted proof ∧
      proof.inflight = some 0) ∧
    (o.decision.profile = o.baselineSnapshot.profile →
      ∃ i j, i < j ∧ j < n ∧ At ρ o.generation .draining i ∧ At ρ o.generation .drained j) ∧
    (o.decision.profile ≠ o.baselineSnapshot.profile →
      ∃ i j k, i < j ∧ j < k ∧ k < n ∧ At ρ o.generation .preparing i ∧
        At ρ o.generation .prepared j ∧ At ρ o.generation .canary k) := by
  obtain ⟨hc, trail, hpassed, hvisits⟩ := tracked h h0 n o hn (by rw [hphase]; rfl)
  refine ⟨promotedIdle h h0 n o hn hphase (by simp [capacityIntentReduction, hred]),
    fun hprofile => ?_, fun hprofile => ?_⟩
  · rw [hc.drains hprofile hred, hphase] at hpassed
    cases hpassed
    obtain ⟨j, hj, hdrained, i, hi, hdraining, -⟩ := hvisits
    exact ⟨i, j, hi, hj, hdraining, hdrained⟩
  · have hnot : (o.decision.action == .drain) = false :=
      beq_eq_false_iff_ne.2 fun hdrain => hprofile (hc.keeps hdrain)
    rw [hnot, hphase] at hpassed
    cases hpassed
    obtain ⟨k, hk, hcanary, j, hj, hprepared, i, hi, hpreparing, -⟩ := hvisits
    exact ⟨i, j, k, hi, hj, hk, hpreparing, hprepared, hcanary⟩

/-- The sample run ends with two large units promoted to one small unit. -/
theorem sample_promoted :
    ∃ o, execute Sample.external Sample.calls none 6 = some o ∧ o.phase = .promoted ∧
      o.decision.units < o.baselineSnapshot.units ∧
      o.decision.profile ≠ o.baselineSnapshot.profile := by
  have hlast : (execute Sample.external Sample.calls none 6).any (fun o =>
      o.phase == .promoted && (o.decision.units < o.baselineSnapshot.units &&
        o.decision.profile != o.baselineSnapshot.profile)) = true := by decide
  obtain ⟨o, ho, hlast⟩ := (Option.any_eq_true _ _).1 hlast
  simp only [Bool.and_eq_true, beq_iff_eq, decide_eq_true_eq, bne_iff_ne] at hlast
  exact ⟨o, ho, hlast⟩

/-- The change of profile goes through the preparation of the new one. -/
theorem sample_reduction_route :
    ∃ g i j k, i < j ∧ j < k ∧ k < 6 ∧
      At (execute Sample.external Sample.calls none) g .preparing i ∧
      At (execute Sample.external Sample.calls none) g .prepared j ∧
      At (execute Sample.external Sample.calls none) g .canary k := by
  obtain ⟨o, ho, hphase, hred, hprofile⟩ := sample_promoted
  exact ⟨o.generation, (reduction_route Sample.external _ _
    (isRun_execute Sample.external Sample.calls none) rfl 6 o ho hphase hred).2.2 hprofile⟩

/-- That every reduction is drained, whatever profile the decision selects. -/
def ReductionsDrained (ext : External) : Prop :=
  ∀ (ρ : ℕ → Option CapacityIntent) (δ : ℕ → Option Request), IsRun (Step ext) ρ δ → ρ 0 = none →
    ∀ n o, ρ n = some o → o.phase = .promoted → o.decision.units < o.baselineSnapshot.units →
      ∃ i j, i < j ∧ j < n ∧ At ρ o.generation .draining i ∧ At ρ o.generation .drained j

/-- From two large units to one small unit, nothing is ever draining. -/
theorem not_reductionsDrained : ¬ ReductionsDrained Sample.external := by
  intro h
  obtain ⟨o, ho, hphase, hred, -⟩ := sample_promoted
  obtain ⟨i, j, hij, hj, ⟨o', ho', -, hdraining⟩, -⟩ :=
    h _ _ (isRun_execute Sample.external Sample.calls none) rfl 6 o ho hphase hred
  have hphases : ∀ i < 6, (execute Sample.external Sample.calls none i).all
      (·.phase != .draining) = true := by decide
  have hnot := hphases i (by omega)
  simp [ho', hdraining] at hnot

end Yggdrasil.Capacity
