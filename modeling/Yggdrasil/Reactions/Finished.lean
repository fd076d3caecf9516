import Yggdrasil.Reactions.Store

/-!
# Finished reactions

A worker may be slow: its reaction is healed, another worker claims it and finishes it, and then the
first one calls the adapter again and marks the row (`not_stays_finished`).
-/

namespace Yggdrasil.Reactions

variable {R W : Type} [DecidableEq R]

/-! ## Who has a reaction -/

/-- A worker that has the reaction is the only one, and the row is as it claimed it. -/
def HeldBy (row : Option Reaction) (flights : W → Option Flight) : Prop :=
  ∀ i flight, flights i = some flight →
    (∃ row', row = some row' ∧ row'.status = .inProgress ∧ row'.attempt = flight.attempt) ∧
    ∀ j, j ≠ i → flights j = none

section HeldBy

variable {cfg : Config} {call : Call R} {id : R} {row row' : Option Reaction}
  {flights flights' : W → Option Flight} {k : W} {reaction : Reaction} {flight : Option Flight}

/-- Workers that drop the reaction leave it to the one that has it. -/
theorem HeldBy.mono (h : HeldBy row flights)
    (hle : ∀ i, flights' i = flights i ∨ flights' i = none) : HeldBy row flights' := by
  intro i flight hflight
  obtain heq | heq := hle i
  · obtain ⟨hrow, hothers⟩ := h i flight (heq ▸ hflight)
    refine ⟨hrow, fun j hj => ?_⟩
    obtain heq | heq := hle j
    · rw [heq, hothers j hj]
    · exact heq
  · rw [heq] at hflight
    cases hflight

/-- One worker has the reaction, if any. -/
theorem heldBy_of_only (hothers : ∀ i, i ≠ k → flights i = none)
    (hrow : ∀ flight, flights k = some flight →
      ∃ row', row = some row' ∧ row'.status = .inProgress ∧ row'.attempt = flight.attempt) :
    HeldBy row flights := by
  intro i flight hflight
  by_cases hi : i = k
  · subst hi
    exact ⟨hrow flight hflight, hothers⟩
  · rw [hothers i hi] at hflight
    cases hflight

theorem HeldBy.eq_none (h : HeldBy (some reaction) flights)
    (hstatus : reaction.status ≠ .inProgress) (i : W) : flights i = none := by
  cases hflight : flights i with
  | none => rfl
  | some flight =>
    obtain ⟨⟨row', hrow', hin, -⟩, -⟩ := h i flight hflight
    cases hrow'
    exact absurd hin hstatus

theorem status_of_claims (h : claims call id (some reaction) flight = true) :
    reaction.status = .pending ∨ reaction.status = .failed := by
  cases call with
  | claim ids now startedAt =>
    simp only [claims, Option.any_some, Reaction.claimable, Bool.decide_and, Bool.and_eq_true,
      decide_eq_true_iff] at h
    exact h.2.2.1
  | _ => cases h

/-- An act keeps that, if it heals only what nobody has. -/
theorem HeldBy.moves (h : HeldBy row flights)
    (hmoves : Moves cfg call id row (flights k) row' (flights' k))
    (hothers : ∀ i, i ≠ k → flights' i = flights i)
    (habandoned : heals cfg call id row = true → ∀ i, flights i = none) :
    HeldBy row' flights' := by
  -- When the worker of the act has the reaction, the others have not, before and after it.
  have halone : ∀ flight, flights k = some flight → ∀ i, i ≠ k → flights' i = none :=
    fun flight hflight i hi => (hothers i hi).trans ((h k flight hflight).2 i hi)
  generalize hk : flights k = before at hmoves
  generalize hk' : flights' k = after at hmoves
  cases hmoves with
  | stay =>
    refine h.mono fun i => .inl ?_
    by_cases hi : i = k
    · rw [hi, hk, hk']
    · exact hothers i hi
  | claimed reaction startedAt hclaims =>
    have hnone := h.eq_none (by rcases status_of_claims hclaims with hs | hs <;> simp [hs])
    refine heldBy_of_only (k := k) (fun i hi => (hothers i hi).trans (hnone i))
      fun flight hflight => ?_
    rw [hk'] at hflight
    cases hflight
    exact ⟨_, rfl, rfl, rfl⟩
  | called _ attempt | unprepared _ attempt | answered _ attempt =>
    refine heldBy_of_only (halone _ hk) fun flight hflight => ?_
    rw [hk'] at hflight
    cases hflight
    exact (h k _ hk).1
  | marked =>
    refine heldBy_of_only (halone _ hk) fun flight hflight => ?_
    rw [hk'] at hflight
    cases hflight
  | dropped =>
    refine h.mono fun i => ?_
    by_cases hi : i = k
    · exact .inr (hi ▸ hk')
    · exact .inl (hothers i hi)
  | healed reaction _ now hheals =>
    have hnone := habandoned hheals
    refine heldBy_of_only (k := k) (fun i hi => (hothers i hi).trans (hnone i))
      fun flight hflight => ?_
    rw [hk', ← hk, hnone k] at hflight
    cases hflight

end HeldBy

/-! ## Runs -/

variable [DecidableEq W] (cfg : Config) (calls : ℕ → W × Call R) (rows : Rows R) (id : R)

/-- The act heals the reaction only if no worker has it. -/
def Abandoned (n : ℕ) : Prop :=
  heals cfg (calls n).2 id (rowAt cfg calls rows n id) = true →
    ∀ i, flightAt cfg calls rows n i id = none

/-- The act calls the adapter for the reaction. -/
def Dispatched (n : ℕ) : Prop :=
  (calls n).2 = .prepare id none ∧
    ∃ attempt, flightAt cfg calls rows n (calls n).1 id = some ⟨attempt, .claimed⟩

variable {cfg calls rows id} {m n : ℕ} {row : Reaction}

theorem held_after (habandoned : ∀ n, Abandoned cfg calls rows id n) (n : ℕ) :
    HeldBy (rowAt cfg calls rows n id) (flightAt cfg calls rows n · id) := by
  induction n with
  | zero => exact nofun
  | succ n ih =>
    obtain ⟨hmoves, hothers⟩ := run_moves cfg calls rows n id
    exact ih.moves hmoves hothers (habandoned n)

theorem rowAt_succ_of_finished (habandoned : ∀ n, Abandoned cfg calls rows id n)
    (hrow : rowAt cfg calls rows n id = some row) (hfinished : row.status.finished = true) :
    rowAt cfg calls rows (n + 1) id = some row := by
  have hstatus : row.status ≠ .inProgress := by
    intro hin
    rw [hin] at hfinished
    cases hfinished
  have hheld := held_after habandoned n
  obtain ⟨hmoves, -⟩ := run_moves cfg calls rows n id
  rw [hrow] at hheld hmoves
  have hflight : flightAt cfg calls rows n (calls n).1 id = none := hheld.eq_none hstatus _
  rw [hflight] at hmoves
  generalize rowAt cfg calls rows (n + 1) id = row' at hmoves ⊢
  generalize flightAt cfg calls rows (n + 1) (calls n).1 id = flight' at hmoves
  cases hmoves with
  | stay | dropped => rfl
  | claimed _ _ hclaims =>
    rcases status_of_claims hclaims with hpending | hfailed
    · rw [hpending] at hfinished
      cases hfinished
    · rw [hfailed] at hfinished
      cases hfinished
  | healed _ _ _ _ hin => exact absurd hin hstatus

/-- A finished reaction stays so, if reactions are healed only when no worker has them. -/
theorem stays_finished (habandoned : ∀ n, Abandoned cfg calls rows id n)
    (hrow : rowAt cfg calls rows m id = some row) (hfinished : row.status.finished = true)
    (hmn : m ≤ n) :
    rowAt cfg calls rows n id = some row ∧ ¬ Dispatched cfg calls rows id n := by
  have hlater : rowAt cfg calls rows n id = some row := by
    induction n, hmn using Nat.le_induction with
    | base => exact hrow
    | succ n _ ih => exact rowAt_succ_of_finished habandoned ih hfinished
  refine ⟨hlater, ?_⟩
  rintro ⟨-, attempt, hflight⟩
  obtain ⟨⟨row', hrow', hin, -⟩, -⟩ := held_after habandoned n _ _ hflight
  rw [hlater] at hrow'
  cases hrow'
  rw [hin] at hfinished
  cases hfinished

namespace Sample

/-- A reaction that was just recorded. -/
def recorded (_ : Unit) : Option Reaction := some { nextAttemptAt := some 0 }

/-- A moment after the threshold. -/
def later : ℤ := 1000 * Instant.second

/-- A worker crashes, the reaction is healed, and another attempt succeeds. -/
def recovered (n : ℕ) : Unit × Call Unit :=
  ((), [.claim [()] 0 0, .crash, .heal [()] later, .claim [()] later later, .prepare () none,
    .answer () none, .mark () later false].getD n .crash)

/-- Another worker finishes the reaction before the first calls the adapter and marks it. -/
def slow (n : ℕ) : Bool × Call Unit :=
  [(false, .claim [()] 0 0), (true, .heal [()] later), (true, .claim [()] later later),
    (true, .prepare () none), (true, .answer () none), (true, .mark () later false),
    (false, .prepare () none), (false, .answer () (some "timeout")),
    (false, .mark () later false)].getD n (true, .crash)

theorem abandoned_recovered : ∀ n, Abandoned {} recovered recorded () n
  | 2 => fun _ _ => rfl
  | 0 | 1 | 3 | 4 | 5 | 6 | _ + 7 => nofun

end Sample

theorem stays_finished_recovered :
    (rowAt {} Sample.recovered Sample.recorded 7 ()).map (·.status) = some .succeeded ∧
    ∀ n, 7 ≤ n → rowAt {} Sample.recovered Sample.recorded n () =
        rowAt {} Sample.recovered Sample.recorded 7 () ∧
      ¬ Dispatched {} Sample.recovered Sample.recorded () n := by
  refine ⟨rfl, fun n hn => ?_⟩
  exact stays_finished Sample.abandoned_recovered rfl rfl hn

/-- A slow worker dispatches a finished reaction again and changes its status. -/
theorem not_stays_finished : ¬ ∀ (cfg : Config) (calls : ℕ → Bool × Call Unit) (rows : Rows Unit)
    (id : Unit) (row : Reaction) (m n : ℕ), rowAt cfg calls rows m id = some row →
      row.status.finished = true → m ≤ n →
        rowAt cfg calls rows n id = some row ∧ ¬ Dispatched cfg calls rows id n := by
  intro h
  have hsame := (h {} Sample.slow Sample.recorded () _ 6 9 rfl rfl (by decide)).1
  have hstatus : (rowAt {} Sample.slow Sample.recorded 9 ()).map (·.status) = some .succeeded := by
    rw [hsame]
    rfl
  exact absurd hstatus (by decide +kernel)

end Yggdrasil.Reactions
