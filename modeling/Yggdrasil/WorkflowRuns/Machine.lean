import Yggdrasil.Lib.Encode
import Yggdrasil.WorkflowRuns.Idempotent

/-!
# Machine principals

An asynchronous dispatch by a machine principal is stored with the principal as its creator, under a
digest of the principal and the client's key. It is only given the runs that it has created.
-/

namespace Yggdrasil.WorkflowRuns.Machine

open Text Manifest

variable {json : Json}

/-! ## The metadata of a dispatch -/

/-- The caller of a dispatch; the ids of machine principals are trimmed when they are loaded. -/
structure Actor where
  machinePrincipalID : String
  legacyMigration : Bool := false
  trimmed : trimSpace machinePrincipalID = machinePrincipalID

/-- The caller is a machine principal. -/
def Actor.IsMachine (actor : Actor) : Prop := actor.machinePrincipalID ≠ ""

instance (actor : Actor) : Decidable actor.IsMachine := inferInstanceAs (Decidable (_ ≠ _))

/-- The key of the principal in the metadata. -/
def creatorKey : String := "yggdrasil.io/creator_machine_principal_id"

/-- The key of the mark of older clients. -/
def legacyBridgeKey : String := "yggdrasil.io/creator_legacy_workflow_bridge"

variable (sha256 : List UInt8 → List UInt8)

/-- The key of a machine, hashed with the machine. -/
def scopedMachineWorkflowIdempotencyKey (principalID clientKey : String) : String :=
  let material := lengthPrefixed (trimSpace principalID) (trimSpace clientKey)
  "machine-sha256:" ++ hexEncode (sha256 (bytes material))

/-- The client's metadata without the reserved entries, with the stamp of the legacy bridge. -/
def dropReserved (metadata : Value.Fields) (actor : Actor) : Value.Fields :=
  let metadata := (metadata.delete creatorKey).delete legacyBridgeKey
  if actor.legacyMigration then metadata.set legacyBridgeKey (.str "true") else metadata

/-- The metadata that is stored, and the client's key if it is replaced. -/
def bindWorkflowRunMachineActor (metadata : Value.Fields) (actor : Actor) :
    Value.Fields × String :=
  let metadata := dropReserved metadata actor
  if actor.IsMachine then
    let metadata := metadata.set creatorKey (.str actor.machinePrincipalID)
    match metadata.lookup "idempotency_key" with
    | some (.str key) =>
      if trimSpace key = "" then (metadata, "")
      else
        (metadata.set "idempotency_key"
          (.str (scopedMachineWorkflowIdempotencyKey sha256 actor.machinePrincipalID key)), key)
    | _ => (metadata, "")
  else (metadata, "")

/-! ## Statements -/

/-- The answer to a dispatch: as its insertion, or that the run found is not the caller's. -/
inductive Reply
  | outcome (outcome : Outcome)
  | foreign (id : String)

/-- The id of the run that an answer is about. -/
def Reply.about : Reply → Option String
  | .outcome (.created id) | .outcome (.deduped id) | .foreign id => some id
  | .outcome (.conflict _ run) | .outcome (.violation run) => some run.id
  | .outcome .missing | .outcome (.failed _) => none

/-- A dispatch, between its statements. -/
inductive Phase
  | idle
  | waiting (actor : Actor) (req : Request)
  | checking (actor : Actor) (id : String)

/-- Metadata of the server's own runs, which have no idempotency key. -/
abbrev ServerMetadata := { metadata : Value.Fields // metadata.lookup "idempotency_key" = none }

/-- The runs, with the principals that have created them, and what callers were given. -/
structure State (json : Json) where
  runs : Runs json
  created : List (String × String)
  replies : List (Actor × Reply)
  reads : List (Actor × WorkflowRun)

/-- The steps of a request. -/
inductive Call
  | dispatch (actor : Actor) (req : Request) (manifests : Catalog.Manifests) (env : Runs.Env)
      (lost : Option Fault)
  | lookup (fails : Option Fault)
  | checkOwner (fails : Option Fault)
  | read (actor : Actor) (id : String)
  | record (req : Request) (metadata : ServerMetadata)
  | write (f : WorkflowRun → Progress)

/-- The run is stored as created by the principal. -/
def ownedBy (json : Json) (principalID : String) (run : WorkflowRun) : Bool :=
  run.metadataText json creatorKey = some (trimSpace principalID)

/-- The run belongs to the machine. -/
def workflowRunOwnedByMachinePrincipal (runs : Runs json) (id principalID : String) : Bool :=
  (runs.get? id).any (ownedBy json principalID)

/-- The run, if it belongs to the machine. -/
def getWorkflowRunForMachinePrincipal (runs : Runs json) (id principalID : String) :
    Option WorkflowRun :=
  (runs.get? id).filter (ownedBy json principalID)

/-- The lookup of a run by its id. -/
def readWorkflowRun (runs : Runs json) (actor : Actor) (id : String) : Option WorkflowRun :=
  if actor.IsMachine then getWorkflowRunForMachinePrincipal runs id actor.machinePrincipalID
  else runs.get? id

/-- The request as it is stored. -/
def bound (actor : Actor) (req : Request) : Request :=
  { req with metadata := (bindWorkflowRunMachineActor sha256 req.metadata actor).1 }

/-- The answer to a dispatch is given. -/
def State.reply (s : State json) (actor : Actor) (reply : Reply) : State json × Phase :=
  ({ s with replies := (actor, reply) :: s.replies }, .idle)

variable (s : State json)

/-- The first statement of a dispatch that is prepared. -/
def dispatchAsyncWorkflowRun (actor : Actor) (req : Request) (lost : Option Fault) : State json ×
    Phase :=
  let req := bound sha256 actor req
  match insertWorkflowRunIdempotent s.runs req with
  | .stored runs =>
    { s with
      runs := runs
      created := (actor.machinePrincipalID, req.id) :: s.created }.reply actor
        (.outcome (lost.elim (.created req.id) .failed))
  | .answer outcome => s.reply actor (.outcome outcome)
  | .lookup => (s, .waiting actor req)

/-- The second statement, after which the owner of a known run is checked. -/
def State.known (actor : Actor) : Outcome → State json × Phase
  | .deduped id =>
    if actor.IsMachine then (s, .checking actor id) else s.reply actor (.outcome (.deduped id))
  | outcome => s.reply actor (.outcome outcome)

variable (cm : CaseMap) (codec : Runs.Codec)

/-- What a step of a request does. -/
def act {W : Type*} (_ : W) (call : Call) (s : State json) (phase : Phase) :
    Option (State json × Phase) :=
  match call, phase with
  | .dispatch actor req manifests env lost, .idle =>
    match Runs.prepareWorkflowRun cm codec manifests env ⟨req.selector, req.inputs⟩ with
    | .error _ => none
    | .ok _ => some (dispatchAsyncWorkflowRun sha256 s actor req lost)
  | .lookup fails, .waiting actor req =>
    some (s.known actor (fails.elim (lookupWorkflowRun s.runs req) .failed))
  | .checkOwner fails, .checking actor id =>
    some (s.reply actor (match fails with
      | some fault => .outcome (.failed fault)
      | none =>
        if workflowRunOwnedByMachinePrincipal s.runs id actor.machinePrincipalID then
          .outcome (.deduped id)
        else .foreign id))
  | .read actor id, phase =>
    (readWorkflowRun s.runs actor id).map fun run =>
      ({ s with reads := (actor, run) :: s.reads }, phase)
  | .record req metadata, phase =>
    let run := { req with metadata := metadata.1 }.run json
    match s.runs.insert run with
    | .stored runs =>
      some ({ s with
        runs := runs
        created := ((run.metadataText json creatorKey).getD "", run.id) :: s.created }, phase)
    | _ => none
  | .write f, phase => some ({ s with runs := s.runs.update f }, phase)
  | _, _ => none

/-- Nothing is stored, and no dispatch has begun. -/
def start (json : Json) (W : Type*) : World W (State json) Phase :=
  ⟨⟨.empty, [], [], []⟩, fun _ => .idle⟩

/-- No principal is given a run that another has created, or an answer because of it. -/
structure Isolated (s : State json) : Prop where
  replies : ∀ actor reply id, (actor, reply) ∈ s.replies → actor.IsMachine →
    reply.about = some id → ∀ other ≠ "", (other, id) ∈ s.created →
      other = actor.machinePrincipalID
  reads : ∀ actor run, (actor, run) ∈ s.reads → actor.IsMachine →
    (actor.machinePrincipalID, run.id) ∈ s.created

/-! ## Keys -/

variable {actor : Actor} {req : Request}

section Keys

variable {sha256}

theorem toList_scoped (p key : String) :
    (scopedMachineWorkflowIdempotencyKey sha256 p key).toList = "machine-sha256:".toList ++
      (hexEncode (sha256 (bytes (lengthPrefixed (trimSpace p) (trimSpace key))))).toList := by
  exact String.toList_append

/-- Keys of different principals are different. -/
theorem scoped_left_inj (hsha : Function.Injective sha256) {p q key key' : String}
    (h : scopedMachineWorkflowIdempotencyKey sha256 p key =
      scopedMachineWorkflowIdempotencyKey sha256 q key') : trimSpace p = trimSpace q := by
  have hchars := congrArg String.toList h
  rw [toList_scoped, toList_scoped] at hchars
  have hhex := hexEncode_injective (String.toList_inj.1 (List.append_cancel_left hchars))
  have hbytes : bytes (lengthPrefixed (trimSpace p) (trimSpace key)) =
      bytes (lengthPrefixed (trimSpace q) (trimSpace key')) := hsha hhex
  exact lengthPrefixed_left_inj
    (String.toByteArray_inj.1 (ByteArray.ext (Array.toList_inj.1 hbytes)))

theorem trimSpace_scoped (p key : String) :
    trimSpace (scopedMachineWorkflowIdempotencyKey sha256 p key) =
      scopedMachineWorkflowIdempotencyKey sha256 p key := by
  refine trimSpace_eq_self fun c hc => ?_
  rw [toList_scoped, List.mem_append] at hc
  rcases hc with hc | hc
  · have hlabel : ∀ c ∈ "machine-sha256:".toList, isSpace c = false := by simp [isSpace]
    exact hlabel c hc
  · exact isSpace_of_mem_hexEncode hc

theorem scoped_ne_empty (p key : String) :
    scopedMachineWorkflowIdempotencyKey sha256 p key ≠ "" := by
  intro h
  have hchars := congrArg String.toList h
  rw [toList_scoped] at hchars
  exact absurd (List.append_eq_nil_iff.1 hchars).1 (by decide)

/-- The key is scoped, or none that is in the index. -/
def Scopable (metadata : Value.Fields) : Prop :=
  match metadata.lookup "idempotency_key" with
  | none | some .nil => True
  | some (.str key) => key = "" ∨ trimSpace key ≠ ""
  | some _ => False

theorem lookup_dropReserved (metadata : Value.Fields) (actor : Actor) {k : String}
    (hk : k ≠ legacyBridgeKey) :
    (dropReserved metadata actor).lookup k =
      if k = creatorKey then none else metadata.lookup k := by
  have hdeleted : ((metadata.delete creatorKey).delete legacyBridgeKey).lookup k =
      if k = creatorKey then none else metadata.lookup k := by
    rw [Value.Fields.lookup_delete_of_ne _ hk]
    split
    next h => rw [h, Value.Fields.lookup_delete_self]
    next h => rw [Value.Fields.lookup_delete_of_ne _ h]
  unfold dropReserved
  split
  · rw [Value.Fields.lookup_set_of_ne _ _ hk, hdeleted]
  · exact hdeleted

theorem lookup_bound_creator (actor : Actor) (req : Request) :
    (bound sha256 actor req).metadata.lookup creatorKey =
      if actor.IsMachine then some (.str actor.machinePrincipalID) else none := by
  dsimp only [bound, bindWorkflowRunMachineActor]
  split
  · split
    · split
      · rw [Value.Fields.lookup_set_self]
      · rw [Value.Fields.lookup_set_of_ne _ _ (by decide), Value.Fields.lookup_set_self]
    · rw [Value.Fields.lookup_set_self]
  · exact lookup_dropReserved req.metadata actor (by decide)

/-- The key that is stored for a machine principal is scoped, if it is in the index. -/
theorem lookup_bound_key (hmachine : actor.IsMachine) (hscopable : Scopable req.metadata)
    {v : Value} (h : (bound sha256 actor req).metadata.lookup "idempotency_key" = some v) :
    v = .nil ∨ v = .str "" ∨
      ∃ key, v =
        .str (scopedMachineWorkflowIdempotencyKey sha256 actor.machinePrincipalID key) := by
  have hkey : ((dropReserved req.metadata actor).set creatorKey
      (.str actor.machinePrincipalID)).lookup "idempotency_key" =
        req.metadata.lookup "idempotency_key" := by
    rw [Value.Fields.lookup_set_of_ne _ _ (by decide), lookup_dropReserved _ _ (by decide),
      if_neg (by decide)]
  dsimp only [bound, bindWorkflowRunMachineActor] at h
  rw [if_pos hmachine] at h
  unfold Scopable at hscopable
  split at h
  next key hlookup =>
    rw [hkey] at hlookup
    rw [hlookup] at hscopable
    split at h
    next hblank =>
      rw [hkey, hlookup] at h
      cases h
      exact .inr (.inl (by rw [hscopable.resolve_right (not_not.2 hblank)]))
    next =>
      rw [Value.Fields.lookup_set_self] at h
      cases h
      exact .inr (.inr ⟨key, rfl⟩)
  next hnotStr =>
    rw [hkey] at h hnotStr
    rw [h] at hscopable
    cases v with
    | nil => exact .inl rfl
    | str key => exact absurd h (hnotStr key)
    | bool | float | int | list | map | other => exact hscopable.elim

/-- The entry of a document is that of the metadata, if there is one. -/
theorem lookup_mustEncodeJSON {fields : Value.Fields} {k : String} {d : Value}
    (h : (mustEncodeJSON json fields).lookup k = some d) :
    ∃ v, fields.lookup k = some v ∧ Value.marshal json.supports v = some d := by
  cases hdoc : Value.marshalFields json.supports fields with
  | none =>
    rw [mustEncodeJSON, hdoc] at h
    cases h
  | some doc =>
    rw [mustEncodeJSON_lookup (by rw [hdoc]; rfl)] at h
    exact Option.bind_eq_some_iff.1 h

theorem creator_bound {q : String}
    (h : ((bound sha256 actor req).header json).metadataText json creatorKey = some q) :
    q = actor.machinePrincipalID := by
  obtain ⟨d, hd, hq⟩ := Option.bind_eq_some_iff.1 h
  obtain ⟨v, hv, hmarshal⟩ := lookup_mustEncodeJSON hd
  rw [lookup_bound_creator] at hv
  split at hv
  · cases hv
    cases hmarshal
    exact (Option.some.inj hq).symm
  · cases hv

/-- The key in the index is the one that is looked up, and it is scoped. -/
theorem indexed_bound (hmachine : actor.IsMachine) (hscopable : Scopable req.metadata) {k : String}
    (h : ((bound sha256 actor req).header json).indexed json = some k) :
    (bound sha256 actor req).key = k ∧
      ∃ key, k = scopedMachineWorkflowIdempotencyKey sha256 actor.machinePrincipalID key := by
  obtain ⟨htext, hne⟩ := Option.filter_eq_some_iff.1 h
  obtain ⟨d, hd, hk⟩ := Option.bind_eq_some_iff.1 htext
  obtain ⟨v, hv, hmarshal⟩ := lookup_mustEncodeJSON hd
  rcases lookup_bound_key hmachine hscopable hv with rfl | rfl | ⟨key, rfl⟩
  · cases hmarshal
    cases hk
  · cases hmarshal
    cases hk
    simp at hne
  · cases hmarshal
    cases hk
    refine ⟨?_, key, rfl⟩
    rw [Request.key, workflowRunIdempotencyKey, hv]
    exact trimSpace_scoped _ key

end Keys

/-! ## Steps -/

/-- A run that a principal has created, as it is stored. -/
structure Creates (json : Json) (p : String) (run : Header) : Prop where
  creator : ∀ q, run.metadataText json creatorKey = some q → q = p
  key : ∀ k, run.indexed json = some k → p = "" ∨
    trimSpace p = p ∧ ∃ key, k = scopedMachineWorkflowIdempotencyKey sha256 p key

/-- The run was created by the caller, or by no machine principal. -/
def Visible (actor : Actor) (id : String) : Prop :=
  ∃ p, (p, id) ∈ s.created ∧ (p = actor.machinePrincipalID ∨ p = "")

/-- What holds of the runs and the replies. -/
structure Consistent (s : State json) : Prop where
  run : ∀ run ∈ s.runs, ∃ p, (p, run.id) ∈ s.created ∧ Creates sha256 json p run.toHeader
  exists_run : ∀ entry ∈ s.created, ∃ run ∈ s.runs, run.id = entry.2
  nodup : (s.created.map Prod.snd).Nodup
  replies : ∀ actor reply id, (actor, reply) ∈ s.replies → actor.IsMachine →
    reply.about = some id → Visible s actor id
  reads : ∀ actor run, (actor, run) ∈ s.reads → actor.IsMachine →
    (actor.machinePrincipalID, run.id) ∈ s.created

/-- What is known between the statements of a dispatch. -/
def Knows : Phase → Prop
  | .idle => True
  | .waiting actor req => actor.IsMachine →
    ∃ key, req.key = scopedMachineWorkflowIdempotencyKey sha256 actor.machinePrincipalID key
  | .checking actor id => Visible s actor id

/-- The dispatches of machine principals have keys that are scoped. -/
def Call.Scopable : Call → Prop
  | .dispatch actor req _ _ _ => actor.IsMachine → Machine.Scopable req.metadata
  | _ => True

/-- What a statement does. -/
inductive Acts (s : State json) : Phase → State json → Phase → Prop
  | stored (p : String) (run : WorkflowRun) (runs : Runs json) (replies : List (Actor × Reply))
      (phase : Phase) (hcreates : Creates sha256 json p run.toHeader)
      (hmem : ∀ r, r ∈ runs ↔ r = run ∨ r ∈ s.runs) (hid : ∀ r ∈ s.runs, r.id ≠ run.id)
      (hreplies : ∀ actor reply id, (actor, reply) ∈ replies → reply.about = some id →
        (actor, reply) ∈ s.replies ∨ id = run.id ∧ p = actor.machinePrincipalID) :
      Acts s phase
        { s with runs := runs, created := (p, run.id) :: s.created, replies := replies } phase
  | replied (phase : Phase) (actor : Actor) (reply : Reply)
      (hreply : actor.IsMachine → ∀ id, reply.about = some id → Visible s actor id) :
      Acts s phase { s with replies := (actor, reply) :: s.replies } .idle
  | moved (phase phase' : Phase) (hknows : Knows sha256 s phase') : Acts s phase s phase'
  | read (phase : Phase) (actor : Actor) (run : WorkflowRun)
      (hread : actor.IsMachine → (actor.machinePrincipalID, run.id) ∈ s.created) :
      Acts s phase { s with reads := (actor, run) :: s.reads } phase
  | wrote (phase : Phase) (f : WorkflowRun → Progress) :
      Acts s phase { s with runs := s.runs.update f } phase

variable {sha256 cm codec} {W : Type*} {i : W} {call : Call} {s s' : State json}
  {phase phase' : Phase}

theorem creates_bound (hscopable : actor.IsMachine → Machine.Scopable req.metadata) :
    Creates sha256 json actor.machinePrincipalID ((bound sha256 actor req).header json) where
  creator _ := creator_bound
  key k hk := by
    by_cases hmachine : actor.IsMachine
    · exact .inr ⟨actor.trimmed, (indexed_bound hmachine (hscopable hmachine) hk).2⟩
    · exact .inl (not_not.1 hmachine)

theorem creates_record (req : Request) (metadata : ServerMetadata) :
    Creates sha256 json
      (((({ req with metadata := metadata.1 }.header json)).metadataText json creatorKey).getD "")
      ({ req with metadata := metadata.1 }.header json) where
  creator q hq := by rw [hq, Option.getD_some]
  key k hk := by
    obtain ⟨htext, -⟩ := Option.filter_eq_some_iff.1 hk
    obtain ⟨d, hd, -⟩ := Option.bind_eq_some_iff.1 htext
    obtain ⟨v, hv, -⟩ := lookup_mustEncodeJSON hd
    rw [metadata.2] at hv
    cases hv

/-- A run with a key of the caller is the caller's, or no machine principal's. -/
theorem Consistent.visible (hs : Consistent sha256 s) (hsha : Function.Injective sha256)
    {run : WorkflowRun} (hrun : run ∈ s.runs) {key : String}
    (hkey : run.indexed json =
      some (scopedMachineWorkflowIdempotencyKey sha256 actor.machinePrincipalID key)) :
    Visible s actor run.id := by
  obtain ⟨p, hp, hcreates⟩ := hs.run run hrun
  refine ⟨p, hp, ?_⟩
  rcases hcreates.key _ hkey with hnone | ⟨htrimmed, key', heq⟩
  · exact .inr hnone
  · have hsame := scoped_left_inj hsha heq
    rw [actor.trimmed, htrimmed] at hsame
    exact .inl hsame.symm

/-- The answer of a lookup is about a run that the caller may know of. -/
theorem Consistent.visible_lookup (hs : Consistent sha256 s) (hsha : Function.Injective sha256)
    {key : String}
    (hkey : req.key = scopedMachineWorkflowIdempotencyKey sha256 actor.machinePrincipalID key)
    {id : String} (h : (Reply.outcome (lookupWorkflowRun s.runs req)).about = some id) :
    Visible s actor id := by
  have hne : req.key ≠ "" := by
    rw [hkey]
    exact scoped_ne_empty _ key
  obtain ⟨run, hrun, hindexed, hrest⟩ | ⟨-, heq⟩ := lookupWorkflowRun_cases s.runs req hne
  · have hvisible : Visible s actor run.id := hs.visible hsha hrun (hindexed.trans (by rw [hkey]))
    rcases hrest with ⟨-, heq⟩ | ⟨-, heq⟩
    · rw [heq] at h
      cases h
      exact hvisible
    · rw [heq] at h
      cases h
      exact hvisible
  · rw [heq] at h
    cases h

theorem acts_dispatch (hscopable : actor.IsMachine → Machine.Scopable req.metadata)
    (lost : Option Fault) :
    Acts sha256 s .idle (dispatchAsyncWorkflowRun sha256 s actor req lost).1
      (dispatchAsyncWorkflowRun sha256 s actor req lost).2 := by
  have hinserts := s.runs.inserts ((bound sha256 actor req).run json)
  dsimp only [dispatchAsyncWorkflowRun, insertWorkflowRunIdempotent]
  generalize s.runs.insert ((bound sha256 actor req).run json) = inserted at hinserts ⊢
  cases hinserts with
  | stored runs hmem hid =>
    refine .stored _ ((bound sha256 actor req).run json) runs _ .idle (creates_bound hscopable)
      hmem hid fun actor' reply id hreply habout => ?_
    rcases List.mem_cons.1 hreply with heq | hreply
    · cases heq
      cases lost with
      | none =>
        cases habout
        exact .inr ⟨rfl, rfl⟩
      | some fault => cases habout
    · exact .inl hreply
  | clash run k hrun hk hrk =>
    dsimp only
    by_cases hempty : (bound sha256 actor req).key = ""
    · -- a machine principal has no key that is indexed and not seen
      rw [if_pos hempty]
      refine .replied _ actor _ fun hmachine id _ => ?_
      obtain ⟨hkey, key, hscoped⟩ := indexed_bound hmachine (hscopable hmachine) hk
      exact absurd (hscoped.symm.trans (hkey.symm.trans hempty)) (scoped_ne_empty _ key)
    · rw [if_neg hempty]
      refine .moved _ _ fun hmachine => ?_
      obtain ⟨hkey, key, hscoped⟩ := indexed_bound hmachine (hscopable hmachine) hk
      exact ⟨key, hkey.trans hscoped⟩
  | taken => exact .replied _ actor _ fun _ id habout => nomatch habout

theorem acts_lookup (hs : Consistent sha256 s) (hsha : Function.Injective sha256)
    (hknows : Knows sha256 s (.waiting actor req)) (fails : Option Fault) :
    Acts sha256 s (.waiting actor req)
      (s.known actor (fails.elim (lookupWorkflowRun s.runs req) .failed)).1
      (s.known actor (fails.elim (lookupWorkflowRun s.runs req) .failed)).2 := by
  have hvisible (hmachine : actor.IsMachine) (id : String)
      (habout : (Reply.outcome (fails.elim (lookupWorkflowRun s.runs req) .failed)).about =
        some id) : Visible s actor id := by
    obtain ⟨key, hkey⟩ := hknows hmachine
    cases fails with
    | none => exact hs.visible_lookup hsha hkey habout
    | some fault => cases habout
  generalize fails.elim (lookupWorkflowRun s.runs req) .failed = outcome at hvisible ⊢
  cases outcome with
  | deduped id =>
    dsimp only [State.known]
    split
    next hmachine => exact .moved _ _ (hvisible hmachine id rfl)
    next => exact .replied _ actor _ hvisible
  | created | conflict | violation | missing | failed => exact .replied _ actor _ hvisible

theorem acts (hsha : Function.Injective sha256) (hs : Consistent sha256 s)
    (hknows : Knows sha256 s phase) (hscopable : call.Scopable)
    (h : act sha256 cm codec i call s phase = some (s', phase')) :
    Acts sha256 s phase s' phase' := by
  unfold act at h
  split at h
  next =>
    split at h
    · cases h
    · obtain ⟨rfl, rfl⟩ := Prod.ext_iff.1 (Option.some.inj h)
      exact acts_dispatch hscopable _
  next =>
    obtain ⟨rfl, rfl⟩ := Prod.ext_iff.1 (Option.some.inj h)
    exact acts_lookup hs hsha hknows _
  next fails actor id =>
    cases h
    refine .replied _ actor _ fun _ id' habout => ?_
    have heq : id' = id := by
      cases fails with
      | none =>
        dsimp only at habout
        split at habout <;> exact (Option.some.inj habout).symm
      | some fault => cases habout
    rw [heq]
    exact hknows
  next phase actor id =>
    obtain ⟨run, hrun, heq⟩ := Option.map_eq_some_iff.1 h
    cases heq
    refine .read _ actor run fun hmachine => ?_
    rw [readWorkflowRun, if_pos hmachine] at hrun
    obtain ⟨hget, howned⟩ := Option.filter_eq_some_iff.1 hrun
    -- The run that a machine principal reads is its own.
    obtain ⟨p, hp, hcreates⟩ := hs.run run (Runs.get?_eq_some.1 hget).1
    have heq := hcreates.creator _ (of_decide_eq_true howned)
    rw [actor.trimmed] at heq
    rwa [heq]
  next phase req metadata =>
    have hinserts := s.runs.inserts ({ req with metadata := metadata.1 }.run json)
    dsimp only at h
    generalize s.runs.insert ({ req with metadata := metadata.1 }.run json) = inserted
      at h hinserts
    cases hinserts with
    | stored runs hmem hid =>
      cases h
      exact .stored _ _ runs _ _ (creates_record req metadata) hmem hid fun _ _ _ hreply _ =>
        .inl hreply
    | clash => cases h
    | taken => cases h
  next =>
    cases h
    exact .wrote _ _
  next => cases h

/-! ## Runs of statements -/

theorem Acts.created_subset (h : Acts sha256 s phase s' phase') : s.created ⊆ s'.created := by
  cases h with
  | stored => exact List.subset_cons_self _ _
  | replied | moved | read | wrote => exact fun _ => id

theorem Visible.mono {id : String} (h : Visible s actor id) (hsub : s.created ⊆ s'.created) :
    Visible s' actor id := by
  obtain ⟨p, hp, howner⟩ := h
  exact ⟨p, hsub hp, howner⟩

theorem Knows.mono (h : Knows sha256 s phase) (hsub : s.created ⊆ s'.created) :
    Knows sha256 s' phase := by
  cases phase with
  | idle => trivial
  | waiting => exact h
  | checking => exact Visible.mono h hsub

theorem Acts.knows (h : Acts sha256 s phase s' phase') (hknows : Knows sha256 s phase) :
    Knows sha256 s' phase' := by
  have hsub := h.created_subset
  cases h with
  | moved _ _ hknows' => exact hknows'
  | replied => trivial
  | stored | read | wrote => exact hknows.mono hsub

theorem Acts.consistent (h : Acts sha256 s phase s' phase') (hs : Consistent sha256 s) :
    Consistent sha256 s' := by
  have hsub := h.created_subset
  cases h with
  | stored p run runs replies _ hcreates hmem hid hreplies =>
    refine ⟨fun r hr => ?_, fun entry hentry => ?_, ?_,
      fun actor reply id hreply hmachine habout => ?_,
      fun actor r hread hmachine => hsub (hs.reads actor r hread hmachine)⟩
    · rcases (hmem r).1 hr with rfl | hr
      · exact ⟨p, List.mem_cons_self, hcreates⟩
      · obtain ⟨q, hq, hcreates'⟩ := hs.run r hr
        exact ⟨q, List.mem_cons_of_mem _ hq, hcreates'⟩
    · rcases List.mem_cons.1 hentry with rfl | hentry
      · exact ⟨run, (hmem run).2 (.inl rfl), rfl⟩
      · obtain ⟨r, hr, heq⟩ := hs.exists_run entry hentry
        exact ⟨r, (hmem r).2 (.inr hr), heq⟩
    · refine List.nodup_cons.2 ⟨fun hin => ?_, hs.nodup⟩
      obtain ⟨entry, hentry, heq⟩ := List.mem_map.1 hin
      obtain ⟨r, hr, hr'⟩ := hs.exists_run entry hentry
      exact hid r hr (hr'.trans heq)
    · rcases hreplies actor reply id hreply habout with hreply | ⟨rfl, rfl⟩
      · exact (hs.replies actor reply id hreply hmachine habout).mono hsub
      · exact ⟨_, List.mem_cons_self, .inl rfl⟩
  | replied _ actor reply hreply =>
    refine ⟨hs.run, hs.exists_run, hs.nodup,
      fun actor' reply' id hin hmachine habout => ?_, hs.reads⟩
    rcases List.mem_cons.1 hin with heq | hin
    · cases heq
      exact hreply hmachine id habout
    · exact hs.replies actor' reply' id hin hmachine habout
  | moved => exact hs
  | read _ actor run hread =>
    refine ⟨hs.run, hs.exists_run, hs.nodup, hs.replies, fun actor' run' hin hmachine => ?_⟩
    rcases List.mem_cons.1 hin with heq | hin
    · cases heq
      exact hread hmachine
    · exact hs.reads actor' run' hin hmachine
  | wrote _ f =>
    refine ⟨fun run hrun => ?_, fun entry hentry => ?_, hs.nodup, hs.replies, hs.reads⟩
    · obtain ⟨old, hold, rfl⟩ := Runs.mem_update.1 hrun
      exact hs.run old hold
    · obtain ⟨run, hrun, heq⟩ := hs.exists_run entry hentry
      exact ⟨_, Runs.mem_update.2 ⟨run, hrun, rfl⟩, heq⟩

theorem consistent_start (W : Type*) : Consistent sha256 (start json W).shared where
  run _ h := absurd h Runs.notMem_empty
  exists_run _ h := nomatch h
  nodup := List.nodup_nil
  replies _ _ _ h := nomatch h
  reads _ _ h := nomatch h

/-- A run has one creator. -/
theorem Consistent.isolated (hs : Consistent sha256 s) : Isolated s where
  replies actor reply id hreply hmachine habout other hother hcreated := by
    obtain ⟨p, hp, howner⟩ := hs.replies actor reply id hreply hmachine habout
    have hsame := List.inj_on_of_nodup_map hs.nodup hcreated hp rfl
    cases hsame
    exact howner.resolve_right hother
  reads := hs.reads

section Interleaving

variable [DecidableEq W] {calls : ℕ → W × Call}

/-- Machine principals are isolated, if the digest is injective and their keys are scoped. -/
theorem isolated_after (hsha : Function.Injective sha256)
    (hscopable : ∀ n, (calls n).2.Scopable) (n : ℕ) :
    Isolated (World.after (act sha256 cm codec) calls (start json W) n).shared := by
  have hsound : (World.after (act sha256 cm codec) calls (start json W) n).Sound
      (Consistent sha256) fun _ s phase => Knows sha256 s phase := by
    refine World.sound_after ⟨consistent_start W, fun _ => trivial⟩
      (fun n hn => hn.step fun s phase hact => ?_) n
    have hacts := acts hsha hn.1 (hn.2 _) (hscopable n) hact
    exact ⟨hacts.consistent hn.1, hacts.knows (hn.2 _),
      fun j _ => (hn.2 j).mono hacts.created_subset⟩
  exact hsound.1.isolated

end Interleaving

namespace Sample

/-- A machine. -/
def alpha : Actor := ⟨"alpha", false, by decide +kernel⟩

/-- Another machine. -/
def beta : Actor := ⟨"beta", false, by decide +kernel⟩

/-- A dispatch with an idempotency key. -/
def dispatch (actor : Actor) (id : String) (key : Value) : Unit × Call :=
  ((), .dispatch actor
    { id, selector := { name := "deploy" }, metadata := [("idempotency_key", key)] }
    Idempotent.Sample.twoWorkflows Runs.Sample.calm none)

/-- The worlds of the calls. -/
def after (calls : ℕ → Unit × Call) : ℕ → World Unit (State WorkflowRuns.Sample.plain) Phase :=
  World.after (act id ascii Runs.Sample.twoSpecs) calls (start WorkflowRuns.Sample.plain Unit)

/-- Two machine principals dispatch under the same key, and look at the first run. -/
def sameKey : ℕ → Unit × Call
  | 0 => dispatch alpha "r1" (.str "k")
  | 1 => dispatch beta "r2" (.str "k")
  | _ => ((), .read beta "r1")

/-- The same with a key that is a number. -/
def sameNumber : ℕ → Unit × Call
  | 0 => dispatch alpha "r1" (.float 1)
  | _ => dispatch beta "r2" (.float 1)

end Sample

theorem sameKey_isolated : Isolated (Sample.after Sample.sameKey 3).shared := by
  refine isolated_after Function.injective_id (fun n => ?_) 3
  match n with
  | 0 => exact fun _ => .inr (by decide +kernel)
  | 1 => exact fun _ => .inr (by decide +kernel)
  | _ + 2 => trivial

/-- Machine principals are isolated, whatever the keys of their dispatches are. -/
def MachinesIsolated : Prop :=
  ∀ sha256 : List UInt8 → List UInt8, Function.Injective sha256 →
    ∀ (cm : CaseMap) (codec : Runs.Codec) (json : Json) (calls : ℕ → Unit × Call) (n : ℕ),
      Isolated (World.after (act sha256 cm codec) calls (start json Unit) n).shared

/-- A dispatch is refused because of a run of another machine principal. -/
theorem not_machinesIsolated : ¬ MachinesIsolated := by
  intro h
  have hisolated := h id Function.injective_id ascii Runs.Sample.twoSpecs
    WorkflowRuns.Sample.plain Sample.sameNumber 2
  have hreply : ("beta", some "r1") ∈ (Sample.after Sample.sameNumber 2).shared.replies.map
      fun entry => (entry.1.machinePrincipalID, entry.2.about) := by decide +kernel
  have hcreated : ("alpha", "r1") ∈ (Sample.after Sample.sameNumber 2).shared.created := by
    decide +kernel
  obtain ⟨⟨actor, reply⟩, hin, heq⟩ := List.mem_map.1 hreply
  obtain ⟨hactor, habout⟩ := Prod.mk.inj heq
  have hmachine : actor.IsMachine := by
    rw [Actor.IsMachine, hactor]
    decide
  have hsame := hisolated.replies actor reply "r1" hin hmachine habout "alpha" (by decide) hcreated
  rw [hactor] at hsame
  exact absurd hsame (by decide)

end Yggdrasil.WorkflowRuns.Machine
