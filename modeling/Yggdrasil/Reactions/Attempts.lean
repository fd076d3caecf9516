import Mathlib.Data.Nat.Count
import Yggdrasil.Reactions.Finished

/-!
# The attempts of a reaction

An adapter that answers with an error after the last retry has the reaction given up, but other
failures only let it fail, whatever the attempt: there is no bound (`not_attempts_bounded`).
-/

namespace Yggdrasil.Reactions

variable {R W : Type} [DecidableEq R]

/-! ## Counting -/

section Moves

variable {cfg : Config} {call : Call R} {id : R} {row : Reaction} {row' : Option Reaction}
  {flight flight' : Option Flight}

/-- Only a claim changes the attempts. -/
theorem attempt_of_moves (h : Moves cfg call id (some row) flight row' flight') :
    row'.map (·.attempt) =
      some (row.attempt + if claims call id (some row) flight then 1 else 0) := by
  cases h with
  | stay _ _ hclaims | dropped _ _ hclaims =>
    rw [hclaims]
    rfl
  | claimed _ _ hclaims =>
    rw [hclaims]
    rfl
  | called _ _ hcall | unprepared _ _ _ hcall | answered _ _ _ hcall =>
    subst hcall
    rfl
  | marked _ _ mark _ hcall =>
    subst hcall
    cases mark <;> rfl
  | healed _ _ _ hheals =>
    cases call with
    | heal => rfl
    | _ => cases hheals

end Moves

variable [DecidableEq W] (cfg : Config) (calls : ℕ → W × Call R) (rows : Rows R) (id : R)

/-- The act claims the reaction. -/
def ClaimedAt (n : ℕ) : Prop :=
  claims (calls n).2 id (rowAt cfg calls rows n id)
    (flightAt cfg calls rows n (calls n).1 id) = true

instance : DecidablePred (ClaimedAt cfg calls rows id) := fun _ => instDecidableEqBool _ _

/-- The reaction was just recorded. -/
def Recorded : Prop := ∃ row, rows id = some row ∧ row.status = .pending ∧ row.attempt = 0

variable {cfg calls rows id} {n : ℕ}

variable (cfg calls) in
/-- The attempts of a reaction are its claims. -/
theorem attempt_eq_count (hstart : Recorded rows id) (n : ℕ) :
    ∃ row, rowAt cfg calls rows n id = some row ∧
      row.attempt = Nat.count (ClaimedAt cfg calls rows id) n := by
  induction n with
  | zero =>
    obtain ⟨row, hrow, _, hattempt⟩ := hstart
    exact ⟨row, hrow, hattempt⟩
  | succ n ih =>
    obtain ⟨row, hrow, hattempt⟩ := ih
    have hmoves := (run_moves cfg calls rows n id).1
    rw [hrow] at hmoves
    obtain ⟨row', hrow', hattempt'⟩ := Option.map_eq_some_iff.1 (attempt_of_moves hmoves)
    refine ⟨row', hrow', ?_⟩
    simp only [hattempt', hattempt, Nat.count_succ, ClaimedAt, hrow]

/-! ## The bound -/

variable (cfg calls rows id) in
/-- After the last retry, the act neither heals the reaction nor fails to prepare its call. -/
def Settles (n : ℕ) : Prop :=
  ∀ row, rowAt cfg calls rows n id = some row → cfg.retries < row.attempt →
    heals cfg (calls n).2 id (some row) = false ∧
      ∀ failure, (calls n).2 ≠ .prepare id (some failure)

/-- A reaction that may be claimed, or is about to, has retries left. -/
structure InBounds (cfg : Config) (row : Reaction) (flights : W → Option Flight) : Prop where
  attempt_le : row.attempt ≤ cfg.retries + 1
  due_le : row.status = .pending ∨ row.status = .failed → row.attempt ≤ cfg.retries
  failing_le : ∀ i attempt errMsg backoff,
    flights i = some ⟨attempt, .marking (.failed errMsg backoff)⟩ → attempt ≤ cfg.retries

/-- An answer is only followed by another attempt if there are retries left. -/
theorem le_retries_of_answerMark {attempt : ℕ} {err : Option String} {errMsg : String}
    {backoff : ℤ} (h : answerMark cfg attempt err = .failed errMsg backoff) :
    attempt ≤ cfg.retries := by
  unfold answerMark at h
  split at h
  · cases h
  · split at h
    · cases h
    · next hbackoff => exact le_retries_of_backoffFor cfg (Bool.eq_false_iff.2 hbackoff)

/-- An act keeps a reaction in bounds, if it settles the last attempt. -/
theorem InBounds.moves {call : Call R} {row : Reaction} {row' : Option Reaction}
    {flights flights' : W → Option Flight} {k : W} (h : InBounds cfg row flights)
    (hheld : HeldBy (some row) flights)
    (hmoves : Moves cfg call id (some row) (flights k) row' (flights' k))
    (hothers : ∀ i, i ≠ k → flights' i = flights i)
    (hsettles : cfg.retries < row.attempt → heals cfg call id (some row) = false ∧
      ∀ failure, call ≠ .prepare id (some failure)) :
    ∃ row'', row' = some row'' ∧ InBounds cfg row'' flights' := by
  -- The others mark what they were about to; what matters is the worker of the act.
  have hfailing : (∀ attempt errMsg backoff,
      flights' k = some ⟨attempt, .marking (.failed errMsg backoff)⟩ → attempt ≤ cfg.retries) →
      ∀ i attempt errMsg backoff,
        flights' i = some ⟨attempt, .marking (.failed errMsg backoff)⟩ →
          attempt ≤ cfg.retries := by
    intro hself i attempt errMsg backoff hflight
    by_cases hi : i = k
    · exact hself attempt errMsg backoff (hi ▸ hflight)
    · rw [hothers i hi] at hflight
      exact h.failing_le i attempt errMsg backoff hflight
  have hattempt : ∀ flight, flights k = some flight → row.attempt = flight.attempt := by
    intro flight hflight
    obtain ⟨⟨row', hrow', -, heq⟩, -⟩ := hheld k flight hflight
    cases hrow'
    exact heq
  generalize hk : flights k = before at hmoves
  generalize hk' : flights' k = after at hmoves
  rw [hk'] at hfailing
  cases hmoves with
  | stay =>
    exact ⟨row, rfl, h.attempt_le, h.due_le, hfailing fun attempt errMsg backoff heq =>
      h.failing_le k attempt errMsg backoff (hk.trans heq)⟩
  | claimed _ _ hclaims =>
    exact ⟨_, rfl, Nat.succ_le_succ (h.due_le (status_of_claims hclaims)), nofun, hfailing nofun⟩
  | called => exact ⟨row, rfl, h.attempt_le, h.due_le, hfailing nofun⟩
  | unprepared _ attempt failure hcall =>
    -- Here and at a healing the source has no test of the attempt, and the condition takes over.
    refine ⟨row, rfl, h.attempt_le, h.due_le, hfailing fun _ _ _ heq => ?_⟩
    cases heq
    have hrow : row.attempt = attempt := hattempt _ hk
    by_contra hlate
    exact (hsettles (hrow ▸ not_le.1 hlate)).2 failure hcall
  | answered _ attempt err =>
    refine ⟨row, rfl, h.attempt_le, h.due_le, hfailing fun _ _ _ heq => ?_⟩
    have hmark := Stage.marking.inj (Flight.mk.inj (Option.some.inj heq)).2
    cases (Flight.mk.inj (Option.some.inj heq)).1
    exact le_retries_of_answerMark hmark
  | marked _ attempt mark now =>
    cases mark with
    | failed errMsg backoff =>
      have hle : row.attempt ≤ cfg.retries :=
        (hattempt _ hk).le.trans (h.failing_le k attempt errMsg backoff hk)
      exact ⟨_, rfl, h.attempt_le, fun _ => hle, hfailing nofun⟩
    | _ => exact ⟨_, rfl, h.attempt_le, nofun, hfailing nofun⟩
  | dropped => exact ⟨row, rfl, h.attempt_le, h.due_le, hfailing nofun⟩
  | healed _ _ now hheals =>
    have hle : row.attempt ≤ cfg.retries := by
      by_contra hlate
      rw [(hsettles (not_le.1 hlate)).1] at hheals
      cases hheals
    exact ⟨_, rfl, h.attempt_le, fun _ => hle, hfailing fun attempt errMsg backoff heq =>
      h.failing_le k attempt errMsg backoff (hk.trans heq)⟩

section

variable (hstart : Recorded rows id) (habandoned : ∀ n, Abandoned cfg calls rows id n)
  (hsettles : ∀ n, Settles cfg calls rows id n) (n : ℕ)

include hstart habandoned hsettles

theorem inBounds_after :
    ∃ row, rowAt cfg calls rows n id = some row ∧
      InBounds cfg row (flightAt cfg calls rows n · id) := by
  induction n with
  | zero =>
    obtain ⟨row, hrow, _, hattempt⟩ := hstart
    refine ⟨row, hrow, ?_, fun _ => ?_, nofun⟩
    · rw [hattempt]
      exact Nat.zero_le _
    · rw [hattempt]
      exact Nat.zero_le _
  | succ n ih =>
    obtain ⟨row, hrow, hbounds⟩ := ih
    have hheld := held_after habandoned n
    obtain ⟨hmoves, hothers⟩ := run_moves cfg calls rows n id
    rw [hrow] at hheld hmoves
    exact hbounds.moves hheld hmoves hothers (hsettles n row hrow)

/-- The claims of a reaction are in bounds. -/
theorem inBounds_count :
    ∃ row, rowAt cfg calls rows n id = some row ∧
      row.attempt = Nat.count (ClaimedAt cfg calls rows id) n ∧
      InBounds cfg row (flightAt cfg calls rows n · id) := by
  obtain ⟨row, hrow, hbounds⟩ := inBounds_after hstart habandoned hsettles n
  obtain ⟨row', hrow', hattempt⟩ := attempt_eq_count cfg calls hstart n
  rw [hrow] at hrow'
  cases hrow'
  exact ⟨row, hrow, hattempt, hbounds⟩

end

/-- A reaction is claimed at most once more than it is retried, and is then never claimed again. -/
theorem attempts_bounded (hstart : Recorded rows id)
    (habandoned : ∀ n, Abandoned cfg calls rows id n)
    (hsettles : ∀ n, Settles cfg calls rows id n) (n : ℕ) :
    Nat.count (ClaimedAt cfg calls rows id) n ≤ cfg.retries + 1 ∧
    (Nat.count (ClaimedAt cfg calls rows id) n = cfg.retries + 1 →
      (∃ row, rowAt cfg calls rows n id = some row ∧
        (row.status = .inProgress ∨ row.status = .succeeded ∨ row.status = .deadLettered)) ∧
      ∀ k, n ≤ k → ¬ ClaimedAt cfg calls rows id k) := by
  have hcount : ∀ n, Nat.count (ClaimedAt cfg calls rows id) n ≤ cfg.retries + 1 := by
    intro n
    obtain ⟨row, -, hattempt, hbounds⟩ := inBounds_count hstart habandoned hsettles n
    exact hattempt ▸ hbounds.attempt_le
  refine ⟨hcount n, fun hlast => ⟨?_, fun k hk hclaimed => ?_⟩⟩
  · obtain ⟨row, hrow, hattempt, hbounds⟩ := inBounds_count hstart habandoned hsettles n
    have hdue := hbounds.due_le
    refine ⟨row, hrow, ?_⟩
    cases hstatus : row.status with
    | pending | failed =>
      have hle := hdue (by simp [hstatus])
      omega
    | inProgress => exact .inl rfl
    | succeeded => exact .inr (.inl rfl)
    | deadLettered => exact .inr (.inr rfl)
  · have hnext := hcount (k + 1)
    rw [Nat.count_succ, if_pos hclaimed] at hnext
    have hmono := Nat.count_monotone (ClaimedAt cfg calls rows id) hk
    omega

namespace Sample

/-- One retry. -/
def once : Config := { maxAttempts := 1 }

/-- The adapter answers both attempts with an error. -/
def refused (n : ℕ) : Unit × Call Unit :=
  ((), [.claim [()] 0 0, .prepare () none, .answer () (some "refused"), .mark () 0 false,
    .claim [()] later later, .prepare () none, .answer () (some "refused"),
    .mark () later false].getD n .crash)

theorem recorded_recorded : Recorded recorded () := ⟨_, rfl, rfl, rfl⟩

theorem settles_refused : ∀ n, Settles once refused recorded () n
  | 0 | 1 | 2 | 3 | 4 | 5 | 6 | 7 | _ + 8 => fun _ _ _ => ⟨rfl, nofun⟩

theorem abandoned_refused : ∀ n, Abandoned once refused recorded () n
  | 0 | 1 | 2 | 3 | 4 | 5 | 6 | 7 | _ + 8 => nofun

/-- When an act takes place. -/
def moment (n : ℕ) : ℤ := n * later

/-- Two acts are further apart than the threshold. -/
theorem moment_lt_sub (n : ℕ) : moment n < moment (n + 2) - 600 * Instant.second := by
  simp only [moment, later, Instant.second]
  omega

/-- The worker of each attempt crashes, and the reaction is healed. -/
def crashing (n : ℕ) : Unit × Call Unit :=
  ((), if n % 3 = 0 then .claim [()] (moment n) (moment n)
    else if n % 3 = 1 then .crash else .heal [()] (moment n))

/-- The reaction is due, for so many attempts, and no worker has it. -/
def Due (n attempts : ℕ) : Prop :=
  ∃ row, rowAt {} crashing recorded n () = some row ∧ row.claimable (moment n) = true ∧
    row.attempt = attempts ∧ flightAt {} crashing recorded n () () = none

theorem crashing_claim (k : ℕ) :
    crashing (3 * k) = ((), .claim [()] (moment (3 * k)) (moment (3 * k))) := by
  simp [crashing]

theorem crashing_crash (k : ℕ) : crashing (3 * k + 1) = ((), .crash) := by
  have hmod : (3 * k + 1) % 3 = 1 := by omega
  simp [crashing, hmod]

theorem crashing_heal (k : ℕ) :
    crashing (3 * k + 2) = ((), .heal [()] (moment (3 * k + 2))) := by
  have hmod : (3 * k + 2) % 3 = 2 := by omega
  simp [crashing, hmod]

/-- After a crash no worker has the reaction, and its row is as before. -/
theorem after_crash (k : ℕ) :
    rowAt {} crashing recorded (3 * k + 2) () = rowAt {} crashing recorded (3 * k + 1) () ∧
      flightAt {} crashing recorded (3 * k + 2) () () = none :=
  run_succ_of_act (crashing_crash k) rfl ()

variable {k : ℕ}

/-- A reaction that is due is claimed. -/
theorem after_claim {row : Reaction} (hrow : rowAt {} crashing recorded (3 * k) () = some row)
    (hclaimable : row.claimable (moment (3 * k)) = true)
    (hflight : flightAt {} crashing recorded (3 * k) () () = none) :
    rowAt {} crashing recorded (3 * k + 1) () = some (row.claim (moment (3 * k))) := by
  rw [(run_succ_of_act (crashing_claim k) rfl ()).1]
  change (run {} crashing recorded (3 * k)).shared () = some row at hrow
  change (run {} crashing recorded (3 * k)).own () () = none at hflight
  refine claimPendingBatch_of_claims ?_ hrow
  rw [hrow, hflight, claims, Option.any_some, hclaimable]
  decide

/-- A reaction that was claimed two acts before is healed. -/
theorem after_heal {row : Reaction}
    (hrow : rowAt {} crashing recorded (3 * k + 2) () = some (row.claim (moment (3 * k)))) :
    rowAt {} crashing recorded (3 * k + 2 + 1) () =
        some ((row.claim (moment (3 * k))).heal (moment (3 * k + 2))) ∧
      flightAt {} crashing recorded (3 * k + 2 + 1) () () =
        flightAt {} crashing recorded (3 * k + 2) () () := by
  refine ⟨?_, (run_succ_of_act (crashing_heal k) rfl ()).2⟩
  rw [(run_succ_of_act (crashing_heal k) rfl ()).1]
  refine healStuckInProgress_of_heals ?_ hrow
  have hlate : (row.claim (moment (3 * k))).stuck ({} : Config).stuckThreshold
      (moment (3 * k + 2)) = true := stuck_claim (moment_lt_sub (3 * k))
  rw [heals, Option.any_some, hlate]
  decide

/-- The reaction is due again after each healing. -/
theorem Due.succ (h : Due (3 * k) k) : Due (3 * (k + 1)) (k + 1) := by
  have hnext : 3 * (k + 1) = 3 * k + 2 + 1 := by omega
  obtain ⟨row, hrow, hclaimable, hattempt, hflight⟩ := h
  obtain ⟨hkept, hnone⟩ := after_crash k
  obtain ⟨hhealed, hsame⟩ := after_heal (hkept.trans (after_claim hrow hclaimable hflight))
  refine ⟨_, hhealed, claimable_heal ?_, congrArg (· + 1) hattempt, hsame.trans hnone⟩
  simp only [moment, later, Instant.second]
  omega

theorem due (k : ℕ) : Due (3 * k) k := by
  induction k with
  | zero => exact ⟨_, rfl, rfl, rfl, rfl⟩
  | succ k ih => exact ih.succ

/-- Only reactions of crashed workers are healed. -/
theorem abandoned_crashing (n : ℕ) : Abandoned {} crashing recorded () n := by
  obtain ⟨k, rfl | rfl | rfl⟩ : ∃ k, n = 3 * k ∨ n = 3 * k + 1 ∨ n = 3 * k + 2 :=
    ⟨n / 3, by omega⟩
  · rw [Abandoned, crashing_claim]
    exact nofun
  · rw [Abandoned, crashing_crash]
    exact nofun
  · exact fun _ _ => (after_crash k).2

end Sample

theorem attempts_bounded_refused :
    (rowAt Sample.once Sample.refused Sample.recorded 8 ()).map (·.status) = some .deadLettered ∧
    ∀ k, 8 ≤ k → ¬ ClaimedAt Sample.once Sample.refused Sample.recorded () k := by
  have hcount : Nat.count (ClaimedAt Sample.once Sample.refused Sample.recorded ()) 8 =
      Sample.once.retries + 1 := by
    decide +kernel
  exact ⟨rfl, ((attempts_bounded Sample.recorded_recorded Sample.abandoned_refused
    Sample.settles_refused 8).2 hcount).2⟩

/-- No function of the maximal attempts bounds the claims: a worker may crash in every attempt. -/
theorem not_attempts_bounded : ¬ ∃ bound : ℕ → ℕ, ∀ (cfg : Config) (calls : ℕ → Unit × Call Unit)
    (rows : Rows Unit) (id : Unit), Recorded rows id → (∀ n, Abandoned cfg calls rows id n) →
      ∀ n, Nat.count (ClaimedAt cfg calls rows id) n ≤ bound cfg.maxAttempts := by
  rintro ⟨bound, h⟩
  obtain ⟨row, hrow, -, hattempt, -⟩ := Sample.due (bound 3 + 1)
  obtain ⟨row', hrow', hcount⟩ :=
    attempt_eq_count {} Sample.crashing Sample.recorded_recorded (3 * (bound 3 + 1))
  rw [hrow] at hrow'
  cases hrow'
  have hle : Nat.count (ClaimedAt {} Sample.crashing Sample.recorded ()) (3 * (bound 3 + 1)) ≤
      bound 3 := h {} Sample.crashing Sample.recorded () Sample.recorded_recorded
    Sample.abandoned_crashing _
  omega

end Yggdrasil.Reactions
