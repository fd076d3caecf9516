import Yggdrasil.Lib.Runes
import Yggdrasil.Lib.Workers

/-!
# Reactions to events

An event leaves a reaction for each integration. Workers claim those that are due, call the adapter,
and mark them; a reaction whose worker has stopped is healed. The statement that marks it asks only
for its id.
-/

namespace Yggdrasil.Reactions

open Function Instant

/-! ## Rows -/

/-- The statuses of a reaction. -/
inductive Status
  | pending
  | inProgress
  | succeeded
  | failed
  | deadLettered
  deriving DecidableEq

/-- A status that nothing is to follow. -/
def Status.finished : Status → Bool
  | .succeeded | .deadLettered => true
  | _ => false

/-- A row of `integration_event_reactions`. -/
structure Reaction where
  status : Status := .pending
  attempt : ℕ := 0
  nextAttemptAt : Option ℤ
  startedAt : Option ℤ := none
  finishedAt : Option ℤ := none
  lastError : Option Runes := none

variable {R : Type}

/-- The reactions by their ids. -/
abbrev Rows (R : Type) := R → Option Reaction

/-- A statement that updates the rows that meet its condition. -/
def updateWhere (rows : Rows R) (cond : R → Reaction → Bool) (f : Reaction → Reaction) : Rows R :=
  fun id => (rows id).map fun row => if cond id row then f row else row

/-- The reaction is due. -/
def Reaction.claimable (now : ℤ) (row : Reaction) : Bool :=
  (row.status = .pending ∨ row.status = .failed) ∧ row.nextAttemptAt.any (· ≤ now)

/-- The row of a reaction that is claimed. -/
def Reaction.claim (startedAt : ℤ) (row : Reaction) : Reaction :=
  { row with
    status := .inProgress, attempt := row.attempt + 1, startedAt := some startedAt
    lastError := none }

/-- The reaction is in progress for longer than the threshold. -/
def Reaction.stuck (threshold now : ℤ) (row : Reaction) : Bool :=
  row.status = .inProgress ∧ row.startedAt.any (· < now - threshold)

/-- The row of a reaction that is healed. -/
def Reaction.heal (now : ℤ) (row : Reaction) : Reaction :=
  { row with
    status := .failed, nextAttemptAt := some now
    lastError := some (.ofString "healed from stuck in_progress") }

/-- The first 4096 bytes of a message, which may end inside a character. -/
def clip (msg : String) : Runes := (Runes.ofString msg).takeBytes 4096

/-- How a worker marks a reaction. -/
inductive Mark
  | succeeded
  | failed (errMsg : String) (backoff : ℤ)
  | deadLettered (errMsg : String)

/-- `MarkSucceeded`, `MarkFailed` and `MarkDeadLettered`. -/
def Mark.apply (now : ℤ) (row : Reaction) : Mark → Reaction
  | .succeeded => { row with status := .succeeded, finishedAt := some now, lastError := none }
  | .failed errMsg backoff =>
    { row with
      status := .failed, nextAttemptAt := some (now + backoff), lastError := some (clip errMsg) }
  | .deadLettered errMsg =>
    { row with
      status := .deadLettered, finishedAt := some now, lastError := some (clip errMsg) }

/-! ## Backoff -/

/-- What the environment of the process configures. -/
structure Config where
  maxAttempts : ℕ := 3
  max_pos : 0 < maxAttempts := by decide
  attempt1 : ℤ := 60 * second
  attempt2 : ℤ := 300 * second
  attempt3 : ℤ := 900 * second
  stuckThreshold : ℤ := 600 * second

variable (cfg : Config)

/-- How long a reaction waits for the next attempt, and whether it is given up. -/
def backoffFor (attempt : ℕ) : ℤ × Bool :=
  if attempt < 1 ∨ attempt > cfg.maxAttempts then (0, true)
  else match attempt with
    | 1 => (cfg.attempt1, false)
    | 2 => (cfg.attempt2, false)
    | 3 => (cfg.attempt3, false)
    | _ => (0, true)

/-- The last attempt that another one follows. -/
def Config.retries : ℕ := min cfg.maxAttempts 3

theorem le_retries_of_backoffFor {attempt : ℕ} (h : (backoffFor cfg attempt).2 = false) :
    attempt ≤ cfg.retries := by
  unfold backoffFor at h
  split at h
  · cases h
  · next hrange =>
    have hthree : attempt ≤ 3 := by
      split at h
      · decide
      · decide
      · decide
      · cases h
    rw [Config.retries]
    omega

/-! ## Acts -/

/-- What a worker does about a reaction that it has claimed. -/
inductive Stage
  | claimed
  | calling
  | marking (mark : Mark)

/-- A reaction in the hands of a worker. -/
structure Flight where
  attempt : ℕ
  stage : Stage

/-- The attempts that are under way. -/
abbrev Flights (R : Type) := R → Option Flight

/-- Why an adapter is not called. -/
inductive Failure
  | fetchEvent (err : String)
  | buildPayload (err : String)

/-- The texts of the errors. -/
def Failure.text : Failure → String
  | .fetchEvent err => "fetch event: " ++ err
  | .buildPayload err => "build payload: " ++ err

/-- The acts. A claim names the rows that the statement reaches, and a healing as well. -/
inductive Call (R : Type)
  | claim (ids : List R) (now startedAt : ℤ)
  | prepare (id : R) (failure : Option Failure)
  | answer (id : R) (err : Option String)
  | mark (id : R) (now : ℤ) (fails : Bool)
  | panicked (id : R)
  | crash
  | heal (ids : List R) (now : ℤ)

variable [DecidableEq R]

/-- A claim takes the reaction, also before the last batch of its worker is done. -/
def claims (call : Call R) (id : R) (row : Option Reaction) (flight : Option Flight) : Bool :=
  match call with
  | .claim ids now _ => id ∈ ids ∧ flight = none ∧ row.any (·.claimable now)
  | _ => false

/-- A healing takes the reaction from its worker. -/
def heals (call : Call R) (id : R) (row : Option Reaction) : Bool :=
  match call with
  | .heal ids now => id ∈ ids ∧ row.any (·.stuck cfg.stuckThreshold now)
  | _ => false

/-- The reactions that are due are claimed. -/
def claimPendingBatch (rows : Rows R) (flights : Flights R) (ids : List R) (now startedAt : ℤ) :
    Rows R × Flights R :=
  let taken id := claims (.claim ids now startedAt) id (rows id) (flights id)
  (updateWhere rows (fun id _ => taken id) (·.claim startedAt),
    fun id => if taken id then (rows id).map fun row => ⟨row.attempt + 1, .claimed⟩ else flights id)

/-- The reactions that have been stuck are due again. -/
def healStuckInProgress (rows : Rows R) (ids : List R) (now : ℤ) : Rows R :=
  updateWhere rows (fun id row => heals cfg (.heal ids now) id (some row)) (·.heal now)

section Statements

variable {cfg} {id : R} {row : Reaction} {rows : Rows R} {flights : Flights R} {ids : List R}
  {now startedAt : ℤ}

theorem claimPendingBatch_of_claims
    (h : claims (.claim ids now startedAt) id (rows id) (flights id) = true)
    (hrow : rows id = some row) :
    (claimPendingBatch rows flights ids now startedAt).1 id = some (row.claim startedAt) := by
  simp only [claimPendingBatch, updateWhere, if_pos h]
  rw [hrow, Option.map_some]

theorem healStuckInProgress_of_heals (h : heals cfg (.heal ids now) id (some row) = true)
    (hrow : rows id = some row) :
    healStuckInProgress cfg rows ids now id = some (row.heal now) := by
  rw [healStuckInProgress, updateWhere, hrow, Option.map_some, if_pos h]

/-- A reaction is stuck when the threshold has passed since its claim. -/
theorem stuck_claim {threshold : ℤ} (h : startedAt < now - threshold) :
    (row.claim startedAt).stuck threshold now = true := by
  simpa [Reaction.stuck, Reaction.claim] using h

theorem claimable_heal {at_ : ℤ} (h : at_ ≤ now) : (row.heal at_).claimable now = true := by
  simpa [Reaction.claimable, Reaction.heal] using h

end Statements

/-- How a reaction is marked after the answer of the adapter. -/
def answerMark (attempt : ℕ) : Option String → Mark
  | none => .succeeded
  | some err =>
    if (backoffFor cfg attempt).2 then .deadLettered err
    else .failed err (backoffFor cfg attempt).1

/-- What an act does, if it is possible. -/
def act {W : Type} (_ : W) (call : Call R) (rows : Rows R) (flights : Flights R) :
    Option (Rows R × Flights R) :=
  match call with
  | .claim ids now startedAt => some (claimPendingBatch rows flights ids now startedAt)
  | .prepare id failure =>
    match flights id with
    | some ⟨attempt, .claimed⟩ =>
      match failure with
      | none => some (rows, update flights id (some ⟨attempt, .calling⟩))
      -- the wait of `BackoffFor` is used, and whether the reaction is given up is not
      | some failure => some (rows, update flights id (some ⟨attempt,
          .marking (.failed failure.text (backoffFor cfg attempt).1)⟩))
    | _ => none
  | .answer id err =>
    match flights id with
    | some ⟨attempt, .calling⟩ => some (rows, update flights id (some ⟨attempt,
        .marking (answerMark cfg attempt err)⟩))
    | _ => none
  | .mark id now fails =>
    match flights id with
    | some ⟨_, .marking mark⟩ =>
      -- `WHERE id=$1`: neither the status nor the attempt of the row is asked for
      some (if fails then rows else updateWhere rows (fun id' _ => id' = id) (mark.apply now),
        update flights id none)
    | _ => none
  | .panicked id => some (rows, update flights id none)
  | .crash => some (rows, fun _ => none)
  | .heal ids now => some (healStuckInProgress cfg rows ids now, flights)

/-! ## What an act does to one reaction -/

/-- What an act does to a reaction and to the worker of the act. -/
inductive Moves (call : Call R) (id : R) :
    Option Reaction → Option Flight → Option Reaction → Option Flight → Prop
  | stay (row : Option Reaction) (flight : Option Flight)
      (hclaims : claims call id row flight = false) : Moves call id row flight row flight
  | claimed (row : Reaction) (startedAt : ℤ) (hclaims : claims call id (some row) none = true) :
    Moves call id (some row) none (some (row.claim startedAt)) (some ⟨row.attempt + 1, .claimed⟩)
  | called (row : Option Reaction) (attempt : ℕ) (hcall : call = .prepare id none) :
    Moves call id row (some ⟨attempt, .claimed⟩) row (some ⟨attempt, .calling⟩)
  | unprepared (row : Option Reaction) (attempt : ℕ) (failure : Failure)
      (hcall : call = .prepare id (some failure)) :
    Moves call id row (some ⟨attempt, .claimed⟩) row
      (some ⟨attempt, .marking (.failed failure.text (backoffFor cfg attempt).1)⟩)
  | answered (row : Option Reaction) (attempt : ℕ) (err : Option String)
      (hcall : call = .answer id err) :
    Moves call id row (some ⟨attempt, .calling⟩) row
      (some ⟨attempt, .marking (answerMark cfg attempt err)⟩)
  | marked (row : Reaction) (attempt : ℕ) (mark : Mark) (now : ℤ)
      (hcall : call = .mark id now false) :
    Moves call id (some row) (some ⟨attempt, .marking mark⟩) (some (mark.apply now row)) none
  | dropped (row : Option Reaction) (flight : Option Flight)
      (hclaims : claims call id row flight = false) : Moves call id row flight row none
  | healed (row : Reaction) (flight : Option Flight) (now : ℤ)
      (hheals : heals cfg call id (some row) = true) (hstatus : row.status = .inProgress) :
    Moves call id (some row) flight (some (row.heal now)) flight

section Moves

variable {cfg} {W : Type} {i : W} {call : Call R} {rows rows' : Rows R}
  {flights flights' : Flights R}

/-- A change of the flight of one reaction leaves the others. -/
theorem moves_update {key : R} {flight : Option Flight}
    (hclaims : ∀ id, claims call id (rows id) (flights id) = false)
    (hkey : Moves cfg call key (rows key) (flights key) (rows' key) flight)
    (hrows : ∀ id, id ≠ key → rows' id = rows id) (id : R) :
    Moves cfg call id (rows id) (flights id) (rows' id)
      (update flights key flight id) := by
  by_cases hid : id = key
  · subst hid
    rwa [update_self]
  · rw [update_of_ne hid, hrows id hid]
    exact .stay _ _ (hclaims id)

theorem moves_claim (ids : List R) (now startedAt : ℤ) (id : R) :
    Moves cfg (.claim ids now startedAt) id (rows id) (flights id)
      ((claimPendingBatch rows flights ids now startedAt).1 id)
      ((claimPendingBatch rows flights ids now startedAt).2 id) := by
  simp only [claimPendingBatch, updateWhere]
  by_cases htaken : claims (.claim ids now startedAt) id (rows id) (flights id) = true
  · simp only [if_pos htaken]
    have hparts := htaken
    simp only [claims, decide_eq_true_iff, Option.any_eq_true] at hparts
    obtain ⟨_, hflight, row, hrow, _⟩ := hparts
    rw [hflight, hrow] at htaken ⊢
    exact .claimed row startedAt htaken
  · simp only [if_neg htaken, Option.map_id']
    exact .stay _ _ (Bool.eq_false_iff.2 htaken)

theorem moves_heal (ids : List R) (now : ℤ) (id : R) :
    Moves cfg (.heal ids now) id (rows id) (flights id) (healStuckInProgress cfg rows ids now id)
      (flights id) := by
  rw [healStuckInProgress, updateWhere]
  cases hrow : rows id with
  | none => exact .stay _ _ rfl
  | some row =>
    rw [Option.map_some]
    split
    next hheals =>
      have hparts := hheals
      simp only [heals, Option.any_some, Reaction.stuck, Bool.decide_and, Bool.and_eq_true,
        decide_eq_true_iff] at hparts
      exact .healed row _ now hheals hparts.2.1
    next => exact .stay _ _ rfl

theorem moves (h : act cfg i call rows flights = some (rows', flights')) (id : R) :
    Moves cfg call id (rows id) (flights id) (rows' id) (flights' id) := by
  unfold act at h
  cases call with
  | claim ids now startedAt =>
    cases h
    exact moves_claim ids now startedAt id
  | prepare key failure =>
    simp only at h
    split at h
    next attempt hflight =>
      cases failure <;> cases h
      · exact moves_update (fun _ => rfl) (hflight ▸ .called _ attempt rfl) (fun _ _ => rfl) id
      · exact moves_update (fun _ => rfl) (hflight ▸ .unprepared _ attempt _ rfl)
          (fun _ _ => rfl) id
    next => cases h
  | answer key err =>
    simp only at h
    split at h
    next attempt hflight =>
      cases h
      exact moves_update (fun _ => rfl) (hflight ▸ .answered _ attempt err rfl) (fun _ _ => rfl) id
    next => cases h
  | mark key now fails =>
    simp only at h
    split at h
    next attempt mark hflight =>
      cases h
      cases fails with
      | true => exact moves_update (fun _ => rfl) (.dropped _ _ rfl) (fun _ _ => rfl) id
      | false =>
        refine moves_update (fun _ => rfl) ?_ (fun id hid => ?_) id
        · cases hrow : rows key with
          | none => simpa [updateWhere, hrow] using Moves.dropped none _ rfl
          | some row =>
            simpa [updateWhere, hrow, hflight] using Moves.marked row attempt mark now rfl
        · simp [updateWhere, hid]
    next => cases h
  | panicked key =>
    cases h
    exact moves_update (fun _ => rfl) (.dropped _ _ rfl) (fun _ _ => rfl) id
  | crash =>
    cases h
    exact .dropped _ _ rfl
  | heal ids now =>
    cases h
    exact moves_heal ids now id

end Moves

/-! ## Runs -/

section Runs

variable {W : Type} [DecidableEq W] (calls : ℕ → W × Call R) (rows : Rows R)

/-- A run of the acts, of workers that have claimed nothing at first. -/
def run (n : ℕ) : World W (Rows R) (Flights R) :=
  World.after (act cfg) calls ⟨rows, fun _ _ => none⟩ n

/-- The row of a reaction before an act. -/
def rowAt (n : ℕ) (id : R) : Option Reaction := (run cfg calls rows n).shared id

/-- What a worker has in hand before an act. -/
def flightAt (n : ℕ) (i : W) (id : R) : Option Flight := (run cfg calls rows n).own i id

variable {cfg calls rows} in
theorem run_succ_of_act {n : ℕ} {i : W} {call : Call R} {out : Rows R × Flights R}
    (hcall : calls n = (i, call))
    (h : act cfg i call (run cfg calls rows n).shared ((run cfg calls rows n).own i) = some out)
    (id : R) :
    rowAt cfg calls rows (n + 1) id = out.1 id ∧
      flightAt cfg calls rows (n + 1) i id = out.2 id := by
  have hsucc : run cfg calls rows (n + 1) =
      World.step (act cfg) (calls n) (run cfg calls rows n) := rfl
  simp only [rowAt, flightAt, hsucc, hcall, World.step, h, update_self, and_self]

/-- An act moves the reaction and its own worker, and leaves the others. -/
theorem run_moves (n : ℕ) (id : R) :
    Moves cfg (calls n).2 id (rowAt cfg calls rows n id) (flightAt cfg calls rows n (calls n).1 id)
        (rowAt cfg calls rows (n + 1) id) (flightAt cfg calls rows (n + 1) (calls n).1 id) ∧
    ∀ i, i ≠ (calls n).1 →
      flightAt cfg calls rows (n + 1) i id = flightAt cfg calls rows n i id := by
  have hsucc : run cfg calls rows (n + 1) =
      World.step (act cfg) (calls n) (run cfg calls rows n) := rfl
  simp only [rowAt, flightAt, hsucc, World.step]
  split
  next hact =>
    refine ⟨.stay _ _ ?_, fun _ _ => rfl⟩
    -- a claim is always possible
    cases hcall : (calls n).2 with
    | claim => rw [hcall] at hact; cases hact
    | _ => rfl
  next rows' flights' hact =>
    refine ⟨?_, fun i hi => by simp only [update_of_ne hi]⟩
    simp only [update_self]
    exact moves hact id

end Runs

end Yggdrasil.Reactions
