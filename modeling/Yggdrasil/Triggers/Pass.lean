import Yggdrasil.Events.Log
import Yggdrasil.Lib.Glob
import Yggdrasil.Lib.Workers

/-!
# Passes over the event log

One worker at a time, the holder of an advisory lock, passes over the events after the saved cursor,
records each match and dispatches a run. When the session of the lock is lost, the lock is free
while its worker is still in its pass.
-/

namespace Yggdrasil.Triggers

open Events Text

/-! ## Triggers -/

/-- What an event must be about. -/
structure AggregateFilter where
  aggregateType : String
  namePattern : String

/-- A condition on the payload. -/
structure PayloadFilter where
  path : String
  operator : String
  value : Value

/-- The events that a workflow is triggered by. -/
structure EventTriggerSpec where
  types : List String
  aggregateFilter : Option AggregateFilter
  payloadFilters : List PayloadFilter
  defaultInputs : Value.Fields

/-- A workflow that is triggered by events. Its identity is a UUID, a text without blanks. -/
structure EventTriggerWorkflow where
  manifestID : String
  namespace_ : String
  name : String
  trigger : EventTriggerSpec
  trimmed : trimSpace manifestID = manifestID

/-- What the trigger of a workflow says, when its specification can be read. -/
structure TriggerSection where
  event : Option EventTriggerSpec
  enabled : Option Bool

/-- A row of the manifests. -/
structure ManifestRow where
  id : String
  namespace_ : String
  name : String
  kind : String
  active : Bool
  mode : Option String
  spec : Option TriggerSection
  trimmed : trimSpace id = id

/-- The active workflows with an event trigger that is enabled. -/
def loadEventTriggerWorkflows (rows : List ManifestRow) : List EventTriggerWorkflow :=
  (rows.filter fun row => row.kind = "workflow" && row.active && row.mode = some "event").filterMap
    fun row => do
      let spec ← row.spec
      let trigger ← spec.event
      if spec.enabled.getD true then
        some { manifestID := row.id, namespace_ := row.namespace_, name := row.name, trigger,
               trimmed := row.trimmed }
      else none

/-- How values are written, what a regular expression matches, and letter case. -/
structure Texts where
  sprint : Value → String
  matchString : String → String → Option Bool
  cm : CaseMap

section Match

variable (texts : Texts)

/-- The value at a dotted path. -/
def dottedPathLookup (obj : Value.Fields) (path : String) : Value :=
  (split path '.').foldl (fun current part =>
    match current with
    | .map fields => (fields.lookup part).getD .nil
    | _ => .nil) (.map obj)

/-- The value is written like an item of the list. -/
def sliceContainsValue (slice item : Value) : Bool :=
  match slice with
  | .list items => items.any fun i => texts.sprint i = texts.sprint item
  | _ => false

/-- The payload meets a condition. -/
def applyPayloadFilter (payload : Value.Fields) (filter : PayloadFilter) : Bool :=
  let value := dottedPathLookup payload filter.path
  match toLower texts.cm (trimSpace filter.operator) with
  | "eq" => texts.sprint value = texts.sprint filter.value
  | "neq" => texts.sprint value ≠ texts.sprint filter.value
  | "in" => sliceContainsValue texts filter.value value
  | "not_in" => !sliceContainsValue texts filter.value value
  | "contains" => contains (texts.sprint value) (texts.sprint filter.value)
  | "matches" =>
    match filter.value with
    | .str pattern => (texts.matchString pattern (texts.sprint value)).getD false
    | _ => false
  | _ => false

/-- The entries of a payload, when it is an object. -/
def payloadFields : Value → Option Value.Fields
  | .map fields => some fields
  | .nil => some []
  | _ => none

/-- The event has a type of the trigger, and passes its filters. -/
def eventMatchesTrigger (event : Event) (trigger : EventTriggerWorkflow) : Bool :=
  trigger.trigger.types.any (fun pattern => Glob.pathMatch pattern event.type = some true)
    && trigger.trigger.aggregateFilter.all (fun filter =>
      (filter.aggregateType = "" || event.aggregateType = filter.aggregateType)
        && (filter.namePattern = "" ||
          Glob.pathMatch filter.namePattern event.aggregateID = some true))
    && (trigger.trigger.payloadFilters.isEmpty
      || (payloadFields event.payload).any fun payload =>
        trigger.trigger.payloadFilters.all (applyPayloadFilter texts payload))

end Match

/-! ## The record of a match -/

/-- A workflow and an event, by their identities. -/
abbrev Pair := String × String

/-- The type of the event that records a match. -/
def matchedType : String := "workflow.event.matched"

/-- The log has a record of the pair. -/
def hasWorkflowEventMatched (log : List Event) (pair : Pair) : Bool :=
  log.any fun e => e.type = matchedType && e.aggregateID = pair.1
    && (payloadFields e.payload).any fun fields =>
      match fields.lookup "matched_event_id" with
      | some (.str id) => id = pair.2
      | _ => false

/-- The record of a match; its identity, number and time are given. -/
def matchedEvent (draft : Event) (trigger : EventTriggerWorkflow) (event : Event) : Event :=
  { draft with
    type := matchedType
    schemaVersion := "v1"
    aggregateType := "workflow"
    aggregateID := trimSpace trigger.manifestID
    payload := .map ([("workflow_manifest_id", .str trigger.manifestID),
      ("matched_event_id", .str event.eventID), ("matched_event_type", .str event.type),
      ("matched_aggregate_id", .str event.aggregateID)]
      ++ if trigger.trigger.defaultInputs.isEmpty then []
        else [("default_inputs", .map trigger.trigger.defaultInputs)]) }

/-! ## Passes -/

/-- A match that a pass has found. -/
structure Match where
  trigger : EventTriggerWorkflow
  event : Event

/-- The trigger and the event of a match. -/
def Match.pair (m : Match) : Pair := (m.trigger.manifestID, m.event.eventID)

/-- The log, the cursor, the lock, the matches of saved passes, the refused pairs, the runs. -/
structure Shared (W : Type) where
  log : List Event
  ever : List Event
  cursor : String
  lock : Option W
  covered : List Pair
  refused : List Pair
  dispatched : List Pair

/-- A batch of a pass: its matches, and the cursor after it. -/
structure Batch where
  found : List Match
  nextCursor : String

/-- Where a worker is in its pass. -/
inductive Pass
  | idle
  | leading
  | loaded (triggers : List EventTriggerWorkflow)
  | positioned (triggers : List EventTriggerWorkflow) (cursor : String)
  | matching (batch : Batch) (todo : List Match)
  | admitted (batch : Batch) (current : Match) (todo : List Match)
  | unmatched (batch : Batch) (current : Match) (todo : List Match)
  | recorded (batch : Batch) (current : Match) (todo : List Match)
  | releasing

/-- The outcome of a statement; an unknown one took effect, but its caller gets an error. -/
inductive Outcome
  | done
  | unknown
  | failed

/-- A workflow is locked, without an owner, protected, or may be dispatched. -/
inductive Gate
  | locked
  | ownerUnknown
  | protected_
  | open_

/-- The acts of a worker, and what else happens to the log: other events, and retention. -/
inductive Act
  | acquire (fails : Bool)
  | load (rows : Option (List ManifestRow))
  | position (fails : Bool)
  | pull (fails : Bool)
  | gate (answer : Gate)
  | check (fails : Bool)
  | emit (draft : Event) (outcome : Outcome)
  | dispatch (brokerLive fails : Bool)
  | save (outcome : Outcome)
  | release
  | loseLock
  | crash
  | append (event : Event)
  | expire (expired : Event → Bool)

section Passes

variable {W : Type} [DecidableEq W] (texts : Texts)

/-- The lock is free, if the worker has it. -/
def Shared.unlock (s : Shared W) (i : W) : Shared W :=
  { s with lock := if s.lock = some i then none else s.lock }

/-- The log has one more event. -/
def Shared.append (s : Shared W) (event : Event) : Shared W :=
  { s with log := event :: s.log, ever := event :: s.ever }

/-- The matches of a batch, event by event. -/
def findMatches (events : List Event) (triggers : List EventTriggerWorkflow) : List Match :=
  events.flatMap fun event =>
    (triggers.filter (eventMatchesTrigger texts event)).map fun trigger => { trigger, event }

/-- An act of a worker in its pass. -/
def runWorkflowEventTriggersPass (i : W) (call : Act) (s : Shared W) (pass : Pass) :
    Option (Shared W × Pass) :=
  match call, pass with
  | .acquire fails, .idle =>
    if fails ∨ s.lock ≠ none then some (s, .idle) else some ({ s with lock := some i }, .leading)
  | .load rows, .leading =>
    match rows.map loadEventTriggerWorkflows with
    | none => some (s, .releasing)
    | some [] => some (s, .releasing)
    | some triggers => some (s, .loaded triggers)
  | .position fails, .loaded triggers =>
    some (s, if fails then .releasing else .positioned triggers s.cursor)
  | .pull fails, .positioned triggers cursor =>
    if fails then some (s, .releasing)
    else
      match pullEvents s.log { cursor, limit := 100 } with
      | .error _ => some (s, .releasing)
      | .ok response =>
        if response.events.isEmpty then some (s, .releasing)
        else
          let found := findMatches texts response.events triggers
          some (s, .matching { found, nextCursor := response.nextCursor } found)
  | .gate answer, .matching batch (current :: todo) =>
    match answer with
    | .locked => some (s, .releasing)
    | .ownerUnknown => some (s, .matching batch todo)
    | .protected_ => some ({ s with refused := current.pair :: s.refused }, .matching batch todo)
    | .open_ => some (s, .admitted batch current todo)
  | .check fails, .admitted batch current todo =>
    if fails then some (s, .matching batch todo)
    else if hasWorkflowEventMatched s.log current.pair then some (s, .matching batch todo)
    else some (s, .unmatched batch current todo)
  | .emit draft outcome, .unmatched batch current todo =>
    match outcome with
    | .failed => some (s, .matching batch todo)
    | .unknown =>
      some (s.append (matchedEvent draft current.trigger current.event), .matching batch todo)
    | .done =>
      some (s.append (matchedEvent draft current.trigger current.event),
        .recorded batch current todo)
  | .dispatch brokerLive fails, .recorded batch current todo =>
    if ¬ brokerLive ∨ fails then some (s, .matching batch todo)
    else some ({ s with dispatched := current.pair :: s.dispatched }, .matching batch todo)
  | .save outcome, .matching batch [] =>
    match outcome with
    | .failed => some (s, .releasing)
    | _ =>
      some ({ s with
        cursor := batch.nextCursor
        covered := batch.found.map Match.pair ++ s.covered }, .releasing)
  | .release, .releasing => some (s.unlock i, .idle)
  | .loseLock, _ => some (s.unlock i, pass)
  | .crash, _ => some (s.unlock i, .idle)
  | .append event, _ => some (s.append event, pass)
  | .expire expired, _ => some ({ s with log := s.log.filter fun e => !expired e }, pass)
  | _, _ => none

end Passes

theorem hasWorkflowEventMatched_matchedEvent (draft : Event) (m : Match) (log : List Event) :
    hasWorkflowEventMatched (matchedEvent draft m.trigger m.event :: log) m.pair = true := by
  rw [hasWorkflowEventMatched, List.any_cons, Bool.or_eq_true]
  refine .inl ?_
  simp [matchedEvent, payloadFields, Match.pair, m.trigger.trimmed, List.lookup]

theorem hasWorkflowEventMatched_mono {log log' : List Event} {pair : Pair} (hsub : log ⊆ log')
    (h : hasWorkflowEventMatched log pair = true) : hasWorkflowEventMatched log' pair = true := by
  rw [hasWorkflowEventMatched, List.any_eq_true] at h ⊢
  obtain ⟨e, he, hmatch⟩ := h
  exact ⟨e, hsub he, hmatch⟩

/-! ## What an act does -/

/-- The pass has no batch. -/
def Pass.Quiet : Pass → Prop
  | .idle | .leading | .loaded _ | .positioned _ _ | .releasing => True
  | _ => False

/-- No statement that a match depends on fails. -/
def Act.Reliable : Act → Prop
  | .gate .ownerUnknown => False
  | .check true => False
  | .emit _ .failed => False
  | _ => True

/-- What an act of a worker does. -/
inductive Passes {W : Type} [DecidableEq W] (i : W) (call : Act) (s : Shared W) :
    Pass → Shared W → Pass → Prop
  | acquire (hlock : s.lock = none) : Passes i call s .idle { s with lock := some i } .leading
  | quiet (pass pass' : Pass) (hquiet : pass'.Quiet) (hidle : pass' ≠ .idle → pass ≠ .idle) :
      Passes i call s pass s pass'
  | find (pass : Pass) (hidle : pass ≠ .idle) (batch : Batch) :
      Passes i call s pass s (.matching batch batch.found)
  | refuse (batch : Batch) (current : Match) (todo : List Match) :
      Passes i call s (.matching batch (current :: todo))
        { s with refused := current.pair :: s.refused } (.matching batch todo)
  | admitted (batch : Batch) (current : Match) (todo : List Match) :
      Passes i call s (.matching batch (current :: todo)) s (.admitted batch current todo)
  | known (batch : Batch) (current : Match) (todo : List Match)
      (h : hasWorkflowEventMatched s.log current.pair = true) :
      Passes i call s (.admitted batch current todo) s (.matching batch todo)
  | unknown (batch : Batch) (current : Match) (todo : List Match)
      (h : hasWorkflowEventMatched s.log current.pair = false) :
      Passes i call s (.admitted batch current todo) s (.unmatched batch current todo)
  | record (draft : Event) (batch : Batch) (current : Match) (todo : List Match) (pass' : Pass)
      (hpass' : pass' = .matching batch todo ∨ pass' = .recorded batch current todo) :
      Passes i call s (.unmatched batch current todo)
        (s.append (matchedEvent draft current.trigger current.event)) pass'
  | drop (pass : Pass) (batch : Batch) (todo : List Match) (hidle : pass ≠ .idle)
      (hcall : ¬ call.Reliable) : Passes i call s pass s (.matching batch todo)
  | undispatched (batch : Batch) (current : Match) (todo : List Match) :
      Passes i call s (.recorded batch current todo) s (.matching batch todo)
  | dispatch (batch : Batch) (current : Match) (todo : List Match) :
      Passes i call s (.recorded batch current todo)
        { s with dispatched := current.pair :: s.dispatched } (.matching batch todo)
  | save (batch : Batch) :
      Passes i call s (.matching batch [])
        { s with
          cursor := batch.nextCursor
          covered := batch.found.map Match.pair ++ s.covered } .releasing
  | unlock (pass pass' : Pass) (hpass' : pass' = .idle ∨ call = .loseLock ∧ pass' = pass) :
      Passes i call s pass (s.unlock i) pass'
  | append (pass : Pass) (event : Event) : Passes i call s pass (s.append event) pass
  | expire (pass : Pass) (expired : Event → Bool) (hcall : call = .expire expired) :
      Passes i call s pass { s with log := s.log.filter fun e => !expired e } pass

theorem passes {W : Type} [DecidableEq W] {texts : Texts} {i : W} {call : Act} {s s' : Shared W}
    {pass pass' : Pass}
    (h : runWorkflowEventTriggersPass texts i call s pass = some (s', pass')) :
    Passes i call s pass s' pass' := by
  unfold runWorkflowEventTriggersPass at h
  split at h
  next fails =>
    split at h
    · cases h
      exact .quiet _ _ trivial id
    next hfree =>
      cases h
      exact .acquire (not_not.1 (not_or.1 hfree).2)
  next rows =>
    split at h
    · cases h
      exact .quiet _ _ trivial nofun
    · cases h
      exact .quiet _ _ trivial nofun
    · cases h
      exact .quiet _ _ trivial nofun
  next fails triggers =>
    cases h
    cases fails <;> exact .quiet _ _ trivial nofun
  next fails triggers cursor =>
    split at h
    · cases h
      exact .quiet _ _ trivial nofun
    split at h
    · cases h
      exact .quiet _ _ trivial nofun
    next response _ =>
      split at h
      · cases h
        exact .quiet _ _ trivial nofun
      · cases h
        exact .find (.positioned triggers cursor) nofun
          { found := findMatches texts response.events triggers, nextCursor := response.nextCursor }
  next answer batch current todo =>
    split at h
    · cases h
      exact .quiet _ _ trivial nofun
    · cases h
      exact .drop _ _ _ nofun id
    · cases h
      exact .refuse batch current todo
    · cases h
      exact .admitted batch current todo
  next fails batch current todo =>
    split at h
    next hfails =>
      cases h
      subst hfails
      exact .drop _ _ _ nofun id
    split at h
    next hknown =>
      cases h
      exact .known batch current todo hknown
    next hunknown =>
      cases h
      exact .unknown batch current todo (Bool.not_eq_true _ ▸ hunknown)
  next draft outcome batch current todo =>
    split at h
    · cases h
      exact .drop _ _ _ nofun id
    · cases h
      exact .record draft batch current todo _ (.inl rfl)
    · cases h
      exact .record draft batch current todo _ (.inr rfl)
  next brokerLive fails batch current todo =>
    split at h
    · cases h
      exact .undispatched batch current todo
    · cases h
      exact .dispatch batch current todo
  next outcome batch =>
    split at h
    · cases h
      exact .quiet _ _ trivial nofun
    · cases h
      exact .save batch
  next =>
    cases h
    exact .unlock _ _ (.inl rfl)
  next =>
    cases h
    exact .unlock _ _ (.inr ⟨rfl, rfl⟩)
  next =>
    cases h
    exact .unlock _ _ (.inl rfl)
  next event =>
    cases h
    exact .append _ event
  next expired =>
    cases h
    exact .expire _ expired rfl
  next => cases h

/-! ## Runs -/

/-- An empty log without a saved cursor, and workers outside their passes. -/
def unstarted {W : Type} : World W (Shared W) Pass where
  shared :=
    { log := [], ever := [], cursor := "", lock := none, covered := [], refused := [],
      dispatched := [] }
  own _ := .idle

/-- What a sequence of acts of the workers leads through. -/
def triggerPasses {W : Type} [DecidableEq W] (texts : Texts) (calls : ℕ → W × Act) :
    ℕ → World W (Shared W) Pass :=
  World.after (runWorkflowEventTriggersPass texts) calls unstarted

end Yggdrasil.Triggers
