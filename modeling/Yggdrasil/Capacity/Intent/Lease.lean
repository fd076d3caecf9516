import Yggdrasil.Capacity.Intent.Spec

/-!
# Leases and fencing of an intent

The record of a scope under every interleaving of its seven operations
(`intent_leases`).
-/

namespace Yggdrasil.Capacity

variable {ext : External} {old new : Option CapacityIntent} {l : Option Request} {g : ℤ}

/-- The generation of a record; nothing is below every record. -/
def generationOf (s : Option CapacityIntent) : WithBot ℤ :=
  s.elim ⊥ fun o => (o.generation : WithBot ℤ)

/-- The fencing token of a record. -/
def fenceOf (s : Option CapacityIntent) : WithBot ℤ :=
  s.elim ⊥ fun o => (o.fencingToken : WithBot ℤ)

/-! ## Monotonicity -/

theorem generation_le (h : Step ext old l new) : generationOf old ≤ generationOf new := by
  cases h with
  | refuse => exact le_rfl
  | commit h =>
    cases change_of_perform h with
    | assess _ h =>
      cases old with
      | none => exact bot_le
      | some o =>
        refine WithBot.coe_le_coe.2 ?_
        rcases h.outcome with ⟨-, hgen⟩ | ⟨-, hgen | ⟨o', ho, -, hgen⟩⟩
        · exact hgen.ge
        · exact hgen ▸ (lt_add_one _).le
        · exact hgen ▸ (congrArg CapacityIntent.generation (Option.some.inj ho)).le
    | advance => exact WithBot.coe_le_coe.2 advanced_keeps.1.ge
    | _ => exact le_rfl

theorem fence_le (h : Step ext old l new) : fenceOf old ≤ fenceOf new := by
  cases h with
  | refuse => exact le_rfl
  | commit h =>
    cases change_of_perform h with
    | assess _ h =>
      cases old with
      | none => exact bot_le
      | some o => exact WithBot.coe_le_coe.2 h.fence_eq.ge
    | claim | recover => exact WithBot.coe_le_coe.2 (lt_add_one _).le
    | advance => exact WithBot.coe_le_coe.2 advanced_keeps.2.1.ge
    | _ => exact le_rfl

/-- The operations that take a new lease. -/
def Operation.TakesLease : Operation → Prop
  | claim .. | recover .. => True
  | _ => False

theorem fence_lt {r : Request} (h : Step ext old (some r) new) (hop : r.operation.TakesLease) :
    fenceOf old < fenceOf new := by
  cases h with
  | commit h =>
    cases change_of_perform h with
    | claim | recover => exact WithBot.coe_lt_coe.2 (lt_add_one _)
    | _ hop' => simp [*, Operation.TakesLease] at hop

/-! ## Started and recovered generations -/

/-- Generation `g` is not, and never again will be, an unclaimed proposal. -/
def Started (g : ℤ) (s : Option CapacityIntent) : Prop :=
  ∃ o, s = some o ∧ (g < o.generation ∨ o.generation = g ∧ o.phase ≠ .proposed)

/-- Generation `g` is past, for recovery only, or closed. -/
def Recovered (g : ℤ) (s : Option CapacityIntent) : Prop :=
  ∃ o, s = some o ∧ (g < o.generation ∨ o.generation = g ∧ o.phase ≠ .proposed ∧
    (o.recoveryOnly = true ∨ pendingCapacityPhase o.phase = false))

/-- After a started generation an assessment goes on to the next one, or holds. -/
theorem Assessed.generation_of_started {o next : CapacityIntent} (h : Assessed (some o) next)
    (ho : g < o.generation ∨ o.generation = g ∧ o.phase ≠ .proposed) :
    g < next.generation ∨ next.generation = g ∧ next.phase = .hold := by
  rcases h.outcome with ⟨hphase, hgen⟩ | ⟨-, hgen | ⟨o', ho', hproposed, hgen⟩⟩
  · rw [hgen, Option.elim_some]
    exact ho.imp_right fun ho => ⟨ho.1, hphase⟩
  · rw [hgen, Option.elim_some]
    left
    rcases ho with ho | ⟨ho, -⟩ <;> omega
  · cases ho'
    rw [hgen]
    exact .inl (ho.resolve_right fun ho => ho.2 hproposed)

theorem started_step (h : Started g old) (hstep : Step ext old l new) : Started g new := by
  obtain ⟨o, rfl, ho⟩ := h
  cases hstep with
  | refuse => exact ⟨o, rfl, ho⟩
  | commit h =>
    cases change_of_perform h with
    | keep => exact ⟨_, rfl, ho⟩
    | assess _ h =>
      refine ⟨_, rfl, (h.generation_of_started ho).imp_right fun hnext => ⟨hnext.1, ?_⟩⟩
      simp [hnext.2]
    | claim _ _ hphase => exact ⟨_, rfl, .inl (ho.resolve_right fun ho => ho.2 hphase)⟩
    | renew | recover | renewRecovery => exact ⟨_, rfl, ho⟩
    | advance _ _ _ hallowed =>
      refine ⟨_, rfl, ?_⟩
      simp only [advanced_keeps]
      refine ho.imp_right fun ho => ⟨ho.1, ?_⟩
      rintro rfl
      cases ho' : o.phase <;> simp [capacityTransitionAllowed, ho'] at hallowed
    | reconcile _ _ _ _ houtcome =>
      refine ⟨_, rfl, ho.imp_right fun ho => ⟨ho.1, ?_⟩⟩
      rcases houtcome with rfl | rfl | rfl | rfl <;> simp

theorem recovered_step (h : Recovered g old) (hstep : Step ext old l new) : Recovered g new := by
  obtain ⟨o, rfl, ho⟩ := h
  cases hstep with
  | refuse => exact ⟨o, rfl, ho⟩
  | commit h =>
    cases change_of_perform h with
    | keep => exact ⟨_, rfl, ho⟩
    | assess _ h =>
      refine ⟨_, rfl, (h.generation_of_started (ho.imp_right fun ho => ⟨ho.1, ho.2.1⟩)).imp_right
        fun hnext => ⟨hnext.1, by simp [hnext.2], .inr (by simp [hnext.2, pendingCapacityPhase])⟩⟩
    | claim _ _ hphase => exact ⟨_, rfl, .inl (ho.resolve_right fun ho => ho.2.1 hphase)⟩
    | recover => exact ⟨_, rfl, ho.imp_right fun ho => ⟨ho.1, ho.2.1, .inl rfl⟩⟩
    | renewRecovery => exact ⟨_, rfl, ho⟩
    | reconcile _ _ _ _ houtcome =>
      refine ⟨_, rfl, ho.imp_right fun ho => ⟨ho.1, ?_⟩⟩
      rcases houtcome with rfl | rfl | rfl | rfl <;> simp [pendingCapacityPhase]
    -- A normal lease of `g` would need a pending record that is not for recovery.
    | renew _ hlease hrec =>
      exact ⟨_, rfl, .inl (ho.resolve_right fun ho => by simp [hrec, hlease.pending] at ho)⟩
    | advance _ hlease hrec =>
      refine ⟨_, rfl, .inl ?_⟩
      rw [advanced_keeps.1]
      exact ho.resolve_right fun ho => by simp [hrec, hlease.pending] at ho

/-! ## Runs -/

variable (δ : ℕ → Option Request)

/-- Step `n` of the run is a committed claim of generation `g`. -/
def ClaimsAt (n : ℕ) (g : ℤ) : Prop :=
  ∃ r a, δ n = some r ∧ r.operation = .claim g a

/-- Step `n` of the run is a committed recovery of generation `g`. -/
def RecoversAt (n : ℕ) (g : ℤ) : Prop :=
  ∃ r a, δ n = some r ∧ r.operation = .recover g a

/-- Step `n` of the run is a committed normal renewal or advance of generation `g`. -/
def ActsAt (n : ℕ) (g : ℤ) : Prop :=
  ∃ r, δ n = some r ∧ ((∃ fence owner, r.operation = .renew g fence owner) ∨
    ∃ fence owner phase proof, r.operation = .advance g fence owner phase proof)

/-- Someone passes the normal or the recovery lease check with this owner and token at `now`. -/
def PassesLease (ext : External) (s : Option CapacityIntent) (now : ℤ) (owner : String)
    (fence : ℤ) : Prop :=
  ∃ store policy generation o,
    (∃ p, checkLease ext store policy p now s generation fence owner = .ok o) ∨
      checkRecoveryLease ext store policy now s generation fence owner = .ok o

theorem PassesLease.holds {s : Option CapacityIntent} {now fence : ℤ} {owner : String}
    (h : PassesLease ext s now owner fence) :
    ∃ o, s = some o ∧ o.leaseOwner = owner ∧ o.fencingToken = fence := by
  obtain ⟨store, policy, generation, o, ⟨p, h⟩ | h⟩ := h
  · obtain ⟨hs, hlease, -⟩ := checkLease_eq_ok h
    exact ⟨o, hs, hlease.owner_eq, hlease.fence_eq⟩
  · obtain ⟨hs, hlease, -⟩ := checkRecoveryLease_eq_ok h
    exact ⟨o, hs, hlease.owner_eq, hlease.fence_eq⟩

section

variable {ρ : ℕ → Option CapacityIntent} {δ : ℕ → Option Request} {n : ℕ}

theorem change_of_isRun (h : IsRun (Step ext) ρ δ) {r : Request} (hr : δ n = some r) :
    ∃ next, ρ (n + 1) = some next ∧ Change ext r (ρ n) next := by
  have hstep := h n
  rw [hr] at hstep
  generalize ρ n = old, ρ (n + 1) = new at hstep ⊢
  cases hstep with
  | commit h => exact ⟨_, rfl, change_of_perform h⟩

theorem claim_of_claimsAt (h : IsRun (Step ext) ρ δ) (hn : ClaimsAt δ n g) :
    (∃ o, ρ n = some o ∧ o.generation = g ∧ o.phase = .proposed) ∧ Started g (ρ (n + 1)) := by
  obtain ⟨r, a, hr, hop⟩ := hn
  obtain ⟨next, hnext, hchange⟩ := change_of_isRun h hr
  rw [hnext]
  generalize ρ n = old at hchange ⊢
  cases hchange with
  | claim hop' hgen hphase =>
    cases hop'.symm.trans hop
    refine ⟨⟨_, rfl, hgen, hphase⟩, _, rfl, .inr ⟨hgen, ?_⟩⟩
    simp only [claimed]
    split <;> simp
  | _ hop' => simp [hop] at hop'

theorem recovered_of_recoversAt (h : IsRun (Step ext) ρ δ) (hn : RecoversAt δ n g) :
    Recovered g (ρ (n + 1)) := by
  obtain ⟨r, a, hr, hop⟩ := hn
  obtain ⟨next, hnext, hchange⟩ := change_of_isRun h hr
  rw [hnext]
  generalize ρ n = old at hchange ⊢
  cases hchange with
  | recover hop' hgen hphase =>
    cases hop'.symm.trans hop
    exact ⟨_, rfl, .inr ⟨hgen, hphase, .inl rfl⟩⟩
  | _ hop' => simp [hop] at hop'

theorem lease_of_actsAt (h : IsRun (Step ext) ρ δ) (hn : ActsAt δ n g) :
    ∃ o, ρ n = some o ∧ o.generation = g ∧ o.recoveryOnly = false ∧
      pendingCapacityPhase o.phase = true := by
  obtain ⟨r, hr, hop⟩ := hn
  obtain ⟨next, -, hchange⟩ := change_of_isRun h hr
  generalize ρ n = old at hchange ⊢
  cases hchange with
  | renew hop' hlease hrec =>
    rw [hop'] at hop
    rcases hop with ⟨_, _, hop⟩ | ⟨_, _, _, _, hop⟩ <;> cases hop
    exact ⟨_, rfl, hlease.generation_eq, hrec, hlease.pending⟩
  | advance hop' hlease hrec =>
    rw [hop'] at hop
    rcases hop with ⟨_, _, hop⟩ | ⟨_, _, _, _, hop⟩ <;> cases hop
    exact ⟨_, rfl, hlease.generation_eq, hrec, hlease.pending⟩
  | _ hop' => simp [hop'] at hop

end

/-- In every run of the seven operations: generation and fencing token never decrease, a claim or a
    recovery raises the token, each generation is claimed at most once, after its recovery it is not
    renewed or advanced normally, and at every instant at most one pair of owner and token passes a
    lease check. -/
theorem intent_leases (ext : External) (ρ : ℕ → Option CapacityIntent) (δ : ℕ → Option Request)
    (h : IsRun (Step ext) ρ δ) :
    (∀ i j, i ≤ j → generationOf (ρ i) ≤ generationOf (ρ j) ∧ fenceOf (ρ i) ≤ fenceOf (ρ j)) ∧
    (∀ n r, δ n = some r → r.operation.TakesLease → fenceOf (ρ n) < fenceOf (ρ (n + 1))) ∧
    (∀ i j g, ClaimsAt δ i g → ClaimsAt δ j g → i = j) ∧
    (∀ i j g, i < j → RecoversAt δ i g → ¬ ActsAt δ j g) ∧
    (∀ n now owner fence owner' fence', PassesLease ext (ρ n) now owner fence →
      PassesLease ext (ρ n) now owner' fence' → owner = owner' ∧ fence = fence') := by
  -- A generation claimed at `i` is started ever after, and a claim needs a proposal.
  have honce : ∀ i j g, i < j → ClaimsAt δ i g → ¬ ClaimsAt δ j g := by
    intro i j g hij hi hj
    have hstarted := h.stable (fun _ _ _ => started_step) (claim_of_claimsAt h hi).2 hij
    obtain ⟨o, ho, hgen, hphase⟩ := (claim_of_claimsAt h hj).1
    obtain ⟨o', ho', hlater | ⟨-, hnot⟩⟩ := hstarted <;> cases ho.symm.trans ho'
    · omega
    · exact hnot hphase
  refine ⟨fun i j hij => ⟨h.monotone generationOf (fun _ _ _ => generation_le) hij,
    h.monotone fenceOf (fun _ _ _ => fence_le) hij⟩, fun n r hr hop => ?_, fun i j g hi hj => ?_,
    fun i j g hij hi hj => ?_, fun n now owner fence owner' fence' hp hp' => ?_⟩
  · exact fence_lt (hr ▸ h n) hop
  · rcases lt_trichotomy i j with hij | hij | hij
    · exact absurd hj (honce i j g hij hi)
    · exact hij
    · exact absurd hi (honce j i g hij hj)
  · have hrecovered := h.stable (fun _ _ _ => recovered_step) (recovered_of_recoversAt h hi) hij
    obtain ⟨o, ho, hgen, hrec, hpending⟩ := lease_of_actsAt h hj
    obtain ⟨o', ho', hlater | ⟨-, -, hrec' | hnot⟩⟩ := hrecovered <;> cases ho.symm.trans ho'
    · omega
    · exact absurd hrec' (by simp [hrec])
    · exact absurd hnot (by simp [hpending])
  · obtain ⟨o, ho, howner, hfence⟩ := hp.holds
    obtain ⟨o', ho', howner', hfence'⟩ := hp'.holds
    cases ho.symm.trans ho'
    exact ⟨howner.symm.trans howner', hfence.symm.trans hfence'⟩

namespace Sample

/-- The manifest of the policy. -/
def manifest : Manifest :=
  ⟨"capacity_policy", "6f1c2a5e-3b0d-4c8e-9a71-2d4e5f60718a", "ops", "web", "checksum", some policy⟩

/-- A store with an executor. -/
def store : CapacityStore :=
  ⟨true, "0b9d7c42-51ef-4d63-8a2b-7c6e5d4f3a21", nilUUID, "", false, none⟩

/-- A call at `t` seconds that no guard objects to. -/
def request (t : ℤ) (operation : Operation) : Request where
  store := store
  policy := manifest
  operation := operation
  env := { now := t * Instant.second, newOwner := "owner", stored := some ("checksum", true),
           workflowActive := none, ledger := ⟨0, 0, 0, 0, 0, 0⟩, refusesBefore := none,
           refusesAfter := none }

/-- A healthy receipt at `t` seconds of `units` units of a profile. -/
def receipt (profile : String) (units t : ℤ) : CapacityTransitionProof where
  assessment := ⟨{ snapshot units t with profile }, [evidence 10 t]⟩
  observedAt := t * Instant.second
  receiptRef := "receipt"
  healthy := true
  inflight := some 0

/-- The cheaper single small unit is proposed, claimed, prepared, tried and promoted. -/
def calls : ℕ → Option Request
  | 0 => some (request 100 (.assess (assessment 2 10 100)))
  | 1 => some (request 120 (.assess (assessment 2 10 120)))
  | 2 => some (request 121 (.claim 1 (assessment 2 10 121)))
  | 3 => some (request 122 (.advance 1 1 "owner" .prepared (receipt "large" 2 122)))
  | 4 => some (request 123 (.advance 1 1 "owner" .canary (receipt "large" 2 123)))
  | 5 => some (request 124 (.advance 1 1 "owner" .promoted (receipt "small" 1 124)))
  | _ => none

end Sample

/-- The claim of the sample run commits and raises the fencing token. -/
theorem sample_intent_leases :
    ClaimsAt (committed Sample.external Sample.calls none) 2 1 ∧
      fenceOf (execute Sample.external Sample.calls none 2) <
        fenceOf (execute Sample.external Sample.calls none 3) := by
  have hclaim : committed Sample.external Sample.calls none 2 =
      some (Sample.request 121 (.claim 1 (Sample.assessment 2 10 121))) := by decide
  have hleases :=
    intent_leases Sample.external _ _ (isRun_execute Sample.external Sample.calls none)
  exact ⟨⟨_, _, hclaim, rfl⟩, hleases.2.1 2 _ hclaim trivial⟩

end Yggdrasil.Capacity
