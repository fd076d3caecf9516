import Yggdrasil.Capacity.Policy

/-!
# The envelope of a dispatch

A request to run a capacity workflow is a closed record (`CapacityDispatchEnvelope`), and
`encodeCapacityDispatchEnvelope` is the one way to its durable text. JSON and SHA-256 are given by a
`Codec`, and every result holds for every codec.
-/

namespace Yggdrasil.Capacity.Dispatch

open Check

/-- The only protocol of envelopes. -/
def capacityDispatchProtocol : String := "capacity_dispatch_prestart_v1"

/-- How many wakes may join a job. -/
def maxCapacityDispatchPendingWakes : ℕ := 32

/-- How an operation of the queue is refused. -/
inductive DispatchError
  | envelope
  | claim
  | saturated
  | unknown
  | finalizationPending
  | finishTransient

/-- The texts of the errors. -/
def DispatchError.message : DispatchError → String
  | envelope => "capacity dispatch envelope refused"
  | claim => "capacity dispatch claim unavailable or stale"
  | saturated => "capacity dispatch pending wakes saturated"
  | unknown => "capacity dispatch actual return is uncertain"
  | finalizationPending => "capacity dispatch actual return observed but not yet recorded"
  | finishTransient => "capacity dispatch finalization attempt did not commit"

/-- An exact revision of the catalog. -/
structure CapacityDispatchManifestPin where
  id : String
  ns : String
  name : String
  version : ℤ
  checksum : String

/-- The metadata of a run. A value that is not a text is `none`. -/
abbrev Metadata := List (String × Option String)

/-- The text that `m` has under `key`. -/
def Metadata.get (m : Metadata) (key : String) : Option String := (m.lookup key).join

/-- A request to run a workflow. Its inputs are canonical JSON; `none` is a value without one. -/
structure CapacityDispatchEnvelope where
  protocol : String
  jobID : String
  runID : String
  realm : String
  environment : String
  domain : String
  dimension : String
  sourceTick : String
  policy : CapacityDispatchManifestPin
  workflow : CapacityDispatchManifestPin
  rbac : CapacityDispatchManifestPin
  authorizationPolicy : Option CapacityDispatchManifestPin
  machinePrincipalID : String
  principalSHA256 : String
  bindingSHA256 : String
  inputs : Option String
  metadata : Metadata
  inputsSHA256 : String
  metadataSHA256 : String

/-- JSON, SHA-256, UUIDs and letter case. -/
structure Codec where
  /-- The canonical JSON of the inputs that select the policy of a namespace and name. -/
  policySelector : String → String → String
  /-- The canonical JSON of the metadata. -/
  metadataJSON : Metadata → Option String
  /-- The canonical JSON of an envelope. -/
  envelopeJSON : CapacityDispatchEnvelope → Option String
  /-- The envelope of a text, which must have no other fields. -/
  decodeEnvelope : String → Option CapacityDispatchEnvelope
  /-- The hexadecimal digest of a text. -/
  sha256 : String → String
  /-- The canonical form of a UUID. -/
  parseUUID : String → Option String
  /-- The lower-case form of a character. -/
  toLower : Char → Char

section

variable (codec : Codec)

/-- A text within its limit, without blanks around it and line breaks in it. -/
def capacityDispatchText (s : String) (limit : ℕ) : Bool :=
  s != "" && s.utf8ByteSize ≤ limit && s == Text.trimSpace s &&
    !Text.containsAny s ['\x00', '\r', '\n']

/-- A SHA-256 digest in lower case. -/
def capacityDispatchDigest (s : String) : Bool := Text.hexDigits 64 s

/-- A manifest that is pinned down to its checksum. -/
def capacityDispatchPin (p : CapacityDispatchManifestPin) : Bool :=
  p.id != nilUUID && capacityDispatchText p.ns 64 && capacityDispatchText p.name 64 &&
    0 < p.version && capacityDispatchDigest p.checksum

/-- An id in its canonical form. -/
def canonicalDemandUUID (s : String) : Bool := codec.parseUUID s == some s && s != nilUUID

/-- The key of the principal that has created a run. -/
def workflowRunCreatorMachinePrincipalMetadataKey : String :=
  "yggdrasil.io/creator_machine_principal_id"

variable (e : CapacityDispatchEnvelope)

/-- The run was requested by an event, and not by the scheduler. -/
def demand : Bool :=
  e.metadata.get "triggered_by" == some "capacity_demand"

/-- The metadata name the event or the schedule that the tick stands for. -/
def checkSource : Except DispatchError Unit :=
  if demand e then
    match e.metadata.get "source_event_id", e.metadata.get "source_run_id",
        e.metadata.get "source_workflow_id", e.metadata.get "source_event_sha256" with
    | some eventID, some runID, some workflowID, some bodySHA =>
      require (canonicalDemandUUID codec eventID && canonicalDemandUUID codec runID &&
        canonicalDemandUUID codec workflowID && capacityDispatchDigest bodySHA &&
        e.sourceTick == "event:" ++ eventID) .envelope
    | _, _, _, _ => .error .envelope
  else
    require (e.metadata.get "triggered_by" == some "workflow_scheduler" &&
      e.metadata.get "scheduled_for" == some e.sourceTick) .envelope

/-- The entries that metadata may have, by the kind of request. -/
def metadataEntry (key value : String) : Bool :=
  if key = workflowRunCreatorMachinePrincipalMetadataKey ∨ key = "triggered_by" ∨
      key = "manifest_id" then
    true
  else if key = "scheduled_for" then
    !demand e
  else if key = "source_event_id" ∨ key = "source_run_id" ∨ key = "source_workflow_id" ∨
      key = "source_event_sha256" then
    demand e
  else if key = "capacity_dispatch_protocol" then
    value == e.protocol
  else if key = "capacity_dispatch_job_id" then
    value == e.jobID
  else
    false

/-- Every entry of the metadata is one of those that are known. -/
def checkMetadata : Except DispatchError Unit :=
  require (e.metadata.all fun (key, value) =>
    value.any fun s => capacityDispatchText s 256 && metadataEntry e key s) .envelope

/-- The digests of inputs and metadata, given by their canonical JSON. -/
def capacityDispatchEnvelopeHashes (inputs metadata : Option String) : Option (String × String) :=
  match inputs, metadata with
  | some i, some m => some (codec.sha256 i, codec.sha256 m)
  | _, _ => none

/-- The durable text of an envelope that is a closed request. -/
def encodeCapacityDispatchEnvelope : Except DispatchError String :=
  do
    require (e.protocol == capacityDispatchProtocol && e.jobID != nilUUID && e.runID != nilUUID &&
      capacityDispatchText e.realm 64 && e.policy.ns == e.realm &&
      capacityDispatchText e.environment 128 && capacityDispatchText e.domain 128 &&
      capacityDispatchText e.dimension 128 && capacityDispatchText e.sourceTick 256 &&
      capacityDispatchText e.machinePrincipalID 128 && capacityDispatchPin e.policy &&
      capacityDispatchPin e.workflow && capacityDispatchPin e.rbac &&
      e.authorizationPolicy.all capacityDispatchPin && capacityDispatchDigest e.principalSHA256 &&
      capacityDispatchDigest e.bindingSHA256) .envelope
    require (e.inputs == some (codec.policySelector e.policy.ns e.policy.name)) .envelope
    require (e.metadata.get workflowRunCreatorMachinePrincipalMetadataKey ==
      some e.machinePrincipalID && e.metadata.get "manifest_id" == some e.workflow.id) .envelope
    checkSource codec e
    checkMetadata e
    require (capacityDispatchEnvelopeHashes codec e.inputs (codec.metadataJSON e.metadata) ==
      some (e.inputsSHA256, e.metadataSHA256)) .envelope
    match codec.envelopeJSON e with
    | none => .error .envelope
    | some raw => do
      require (raw.utf8ByteSize ≤ 16384) .envelope
      .ok raw

end

end Yggdrasil.Capacity.Dispatch
