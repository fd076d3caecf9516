import Yggdrasil.Triggers.Pass

/-!
# No match is lost

A pass saves its cursor after all its matches. When a statement fails, the pass logs it and goes on,
and the saved cursor is past a match that nobody will find again.
-/

namespace Yggdrasil.Triggers

open Events

variable {W : Type}

/-- The pair was recorded, or refused. -/
def Settled (s : Shared W) (pair : Pair) : Prop :=
  hasWorkflowEventMatched s.ever pair = true ∨ pair ∈ s.refused

/-- The matches of a batch are settled, or among those that are to come. -/
def Open (s : Shared W) (batch : Batch) (todo : List Match) : Prop :=
  ∀ m ∈ batch.found, m ∈ todo ∨ Settled s m.pair

/-- What a worker knows about its batch. -/
def Pending (_ : W) (s : Shared W) : Pass → Prop
  | .matching batch todo => Open s batch todo
  | .admitted batch current todo => Open s batch (current :: todo)
  | .unmatched batch current todo => Open s batch (current :: todo)
  | .recorded batch _ todo => Open s batch todo
  | _ => True

/-- What is in the log was in it, and the matches of saved passes are settled. -/
structure Covered (s : Shared W) : Prop where
  ever : s.log ⊆ s.ever
  settled : ∀ pair ∈ s.covered, Settled s pair

variable [DecidableEq W] {i j : W} {call : Act} {s s' : Shared W} {pass pass' other : Pass}

theorem Passes.settled (h : Passes i call s pass s' pass') {pair : Pair} (hpair : Settled s pair) :
    Settled s' pair := by
  have hever : s.ever ⊆ s'.ever := by
    cases h with
    | record => exact List.subset_cons_self _ _
    | append => exact List.subset_cons_self _ _
    | _ => exact fun _ => id
  have hrefused : s.refused ⊆ s'.refused := by
    cases h with
    | refuse => exact List.subset_cons_self _ _
    | _ => exact fun _ => id
  exact hpair.imp (hasWorkflowEventMatched_mono hever) fun hmem => hrefused hmem

theorem Passes.pending (h : Passes i call s pass s' pass') (hother : Pending j s other) :
    Pending j s' other := by
  have hopen {batch : Batch} {todo : List Match} (hopen : Open s batch todo) :
      Open s' batch todo := fun m hm => (hopen m hm).imp id h.settled
  cases other with
  | matching => exact hopen hother
  | admitted => exact hopen hother
  | unmatched => exact hopen hother
  | recorded => exact hopen hother
  | _ => trivial

omit [DecidableEq W] in
/-- The first match of those to come is done. -/
theorem Open.tail {batch : Batch} {current : Match} {todo : List Match}
    (h : Open s batch (current :: todo)) (hcurrent : Settled s current.pair) :
    Open s batch todo := by
  intro m hm
  rcases h m hm with hmem | hsettled
  · rcases List.mem_cons.1 hmem with rfl | hmem
    · exact .inr hcurrent
    · exact .inl hmem
  · exact .inr hsettled

/-- A reliable act keeps what its worker knows about its batch. -/
theorem Passes.pending_self (h : Passes i call s pass s' pass') (hs : Covered s)
    (hcall : call.Reliable) (hpass : Pending i s pass) : Pending i s' pass' := by
  have hself := h.pending hpass
  cases h with
  | acquire => trivial
  | quiet _ _ hquiet =>
    cases pass' with
    | matching | admitted | unmatched | recorded => cases hquiet
    | _ => trivial
  | find => exact fun m hm => .inl hm
  | refuse batch current todo => exact Open.tail hself (.inr List.mem_cons_self)
  | admitted => exact hself
  | known batch current todo h =>
    exact Open.tail hself (.inl (hasWorkflowEventMatched_mono hs.ever h))
  | unknown => exact hself
  | record draft batch current todo _ hpass' =>
    have hdone := Open.tail hself (.inl (hasWorkflowEventMatched_matchedEvent draft current s.ever))
    rcases hpass' with rfl | rfl <;> exact hdone
  | drop _ _ _ _ hunreliable => exact absurd hcall hunreliable
  | undispatched => exact hself
  | dispatch => exact hself
  | save => trivial
  | unlock _ _ hpass' =>
    rcases hpass' with rfl | ⟨-, rfl⟩
    · trivial
    · exact hself
  | append => exact hself
  | expire => exact hself

/-- The matches of a pass are settled when it saves its cursor. -/
theorem Passes.covered (h : Passes i call s pass s' pass') (hs : Covered s)
    (hpass : Pending i s pass) : Covered s' := by
  have hsettled (pair) (hpair : pair ∈ s.covered) : Settled s' pair :=
    h.settled (hs.settled pair hpair)
  cases h with
  | record =>
    exact ⟨List.cons_subset_cons _ hs.ever, hsettled⟩
  | append => exact ⟨List.cons_subset_cons _ hs.ever, hsettled⟩
  | expire => exact ⟨fun e he => hs.ever (List.mem_filter.1 he).1, hsettled⟩
  | save batch =>
    refine ⟨hs.ever, fun pair hpair => ?_⟩
    rcases List.mem_append.1 hpair with hpair | hpair
    · obtain ⟨m, hm, rfl⟩ := List.mem_map.1 hpair
      exact (hpass m hm).resolve_left List.not_mem_nil
    · exact hsettled pair hpair
  | _ => exact ⟨hs.ever, hsettled⟩

/-- The cursor moves only at the end of a pass, whose matches are covered then. -/
theorem Passes.cursor (h : Passes i call s pass s' pass') (hmoves : s'.cursor ≠ s.cursor) :
    ∃ batch, pass = .matching batch [] ∧ s'.cursor = batch.nextCursor
      ∧ ∀ m ∈ batch.found, m.pair ∈ s'.covered := by
  cases h with
  | save batch =>
    exact ⟨batch, rfl, rfl, fun m hm => List.mem_append_left _ (List.mem_map_of_mem hm)⟩
  | _ => exact absurd rfl hmoves

/-- When no statement that a match depends on fails, every match of a pass that saved its cursor was
    recorded or refused; and only such passes save it. -/
theorem covered_recorded (texts : Texts) (calls : ℕ → W × Act) (hcalls : ∀ n, (calls n).2.Reliable)
    (n : ℕ) :
    (∀ pair ∈ (triggerPasses texts calls n).shared.covered,
      Settled (triggerPasses texts calls n).shared pair)
    ∧ ((triggerPasses texts calls (n + 1)).shared.cursor
        ≠ (triggerPasses texts calls n).shared.cursor →
      ∃ batch, (triggerPasses texts calls n).own (calls n).1 = .matching batch []
        ∧ (triggerPasses texts calls (n + 1)).shared.cursor = batch.nextCursor
        ∧ ∀ m ∈ batch.found, m.pair ∈ (triggerPasses texts calls (n + 1)).shared.covered) := by
  have hsound : (triggerPasses texts calls n).Sound Covered Pending := by
    refine World.sound_after ?_ (fun n hn => hn.step fun s pass hact => ?_) n
    · exact ⟨⟨fun _ => id, nofun⟩, fun _ => trivial⟩
    · have hpasses := passes hact
      exact ⟨hpasses.covered hn.1 (hn.2 _), hpasses.pending_self hn.1 (hcalls n) (hn.2 _),
        fun j _ => hpasses.pending (hn.2 j)⟩
  refine ⟨hsound.1.settled, fun hmoves => ?_⟩
  rw [triggerPasses, World.after_succ] at hmoves ⊢
  obtain heq | ⟨s', pass', hact, heq⟩ :=
    World.step_cases (runWorkflowEventTriggersPass texts) (triggerPasses texts calls n) (calls n)
  · exact absurd (congrArg (fun w => w.shared.cursor) heq) hmoves
  · have hshared : (World.step (runWorkflowEventTriggersPass texts) (calls n)
        (triggerPasses texts calls n)).shared = s' := congrArg World.shared heq
    rw [triggerPasses] at hshared
    rw [hshared] at hmoves ⊢
    exact (passes hact).cursor hmoves

/-! ## One event and one workflow -/

section Sample

/-- Texts without formats and regular expressions. -/
def plainTexts : Texts :=
  { sprint := fun _ => "", matchString := fun _ _ => none, cm := Text.ascii }

/-- A workflow that is triggered by new manifests. -/
def onCreated : ManifestRow where
  id := "w"
  namespace_ := "global"
  name := "react"
  kind := "workflow"
  active := true
  mode := some "event"
  spec := some {
    event := some
      { types := ["manifest.*"], aggregateFilter := none, payloadFilters := [],
        defaultInputs := [] }
    enabled := none }
  trimmed := rfl

/-- The event of a new manifest. -/
def manifestCreated (id : String) (sequence : ℕ) : Event :=
  { eventID := id, sequence, type := "manifest.created", schemaVersion := "v1",
    aggregateType := "manifest", aggregateID := "m", emittedAt := 0, payload := .nil }

/-- A pass over one event that matches; the record of the match has an outcome. -/
def onePass (outcome : Outcome) : ℕ → Unit × Act
  | 0 => ((), .append (manifestCreated "e1" 1))
  | 1 => ((), .acquire false)
  | 2 => ((), .load (some [onCreated]))
  | 3 => ((), .position false)
  | 4 => ((), .pull false)
  | 5 => ((), .gate .open_)
  | 6 => ((), .check false)
  | 7 => ((), .emit (manifestCreated "e2" 2) outcome)
  | 8 => ((), .dispatch true false)
  | 9 => ((), .save .done)
  | _ => ((), .release)

theorem onePass_covered_recorded :
    (triggerPasses plainTexts (onePass .done) 10).shared.covered = [("w", "e1")]
    ∧ (∀ n, (onePass .done n).2.Reliable)
    ∧ (∀ pair ∈ (triggerPasses plainTexts (onePass .done) 10).shared.covered,
      Settled (triggerPasses plainTexts (onePass .done) 10).shared pair)
    ∧ ((triggerPasses plainTexts (onePass .done) 11).shared.cursor
        ≠ (triggerPasses plainTexts (onePass .done) 10).shared.cursor →
      ∃ batch, (triggerPasses plainTexts (onePass .done) 10).own (onePass .done 10).1
          = .matching batch []
        ∧ (triggerPasses plainTexts (onePass .done) 11).shared.cursor = batch.nextCursor
        ∧ ∀ m ∈ batch.found,
          m.pair ∈ (triggerPasses plainTexts (onePass .done) 11).shared.covered) := by
  have hreliable (n) : (onePass .done n).2.Reliable := by
    unfold onePass
    split <;> trivial
  exact ⟨by decide +kernel, hreliable,
    covered_recorded plainTexts (onePass .done) hreliable 10⟩

end Sample

/-- Every match of a pass that saved its cursor was recorded or refused. -/
def CoveredRecorded : Prop :=
  ∀ (texts : Texts) (calls : ℕ → Unit × Act) (n : ℕ),
    ∀ pair ∈ (triggerPasses texts calls n).shared.covered,
      Settled (triggerPasses texts calls n).shared pair

/-- The record of a match fails, and the pass saves its cursor all the same. -/
theorem not_coveredRecorded : ¬ CoveredRecorded := by
  intro h
  have hcalls : ("w", "e1") ∈ (triggerPasses plainTexts (onePass .failed) 10).shared.covered := by
    decide +kernel
  rcases h _ _ _ _ hcalls with hmatched | hrefused
  · revert hmatched
    decide +kernel
  · revert hrefused
    decide +kernel

end Yggdrasil.Triggers
