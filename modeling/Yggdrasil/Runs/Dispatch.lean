import Yggdrasil.Catalog.History
import Yggdrasil.Manifest.Order
import Yggdrasil.Runs.Authorize

/-!
# Dispatching workflow runs while manifests change

A dispatch looks the workflow up and evaluates its authorization contract, and then hands the
request on, which looks the workflow up again by the same selector. Versions come and go at any time
between. Other failures are refusals of the environment, which may come at any statement.
-/

namespace Yggdrasil.Runs

open Check Text Manifest

/-! ## Stored manifests -/

/-- How stored specifications and ids are read. -/
structure Codec where
  workflow : String → Except Fault WorkflowManifestSpec
  rbac : String → Except Fault RBACManifestSpec
  policy : String → Except Fault PolicyManifestSpec
  uuid : String → Option String

/-- The error of a manifest that is not there. -/
def manifestNotFound : Fault := .errorf "manifest not found" []

variable (cm : CaseMap) (codec : Codec)

/-- The row with the highest version. -/
def newest (rows : List Catalog.Manifest) : Option Catalog.Manifest :=
  rows.foldl (fun best row =>
    if best.all (·.version < row.version) then some row else best) none

variable (store : Catalog.Manifests)

/-- The newest version of a logical manifest, or the given one. -/
def resolveManifest (kind namespaceName name : String) (version : Option ℤ) (activeOnly : Bool) :
    Except Fault Catalog.Manifest :=
  let identity : Catalog.Identity := ⟨toLower cm (trimSpace kind),
    toLower cm (trimSpace namespaceName), toLower cm (trimSpace name)⟩
  match newest (store.rows.filter fun row =>
    row.identity = identity ∧ version.all ((row.version : ℤ) = ·) ∧
      (activeOnly → row.active)) with
  | some row => .ok row
  | none => .error manifestNotFound

/-- The version with an id. -/
def getManifestByID (id : String) : Except Fault Catalog.Manifest :=
  match store.get? id with
  | some row => .ok row
  | none => .error manifestNotFound

/-- The manifest that a selector names; the errors of bad selectors are the caller's. -/
def resolveSelector (kind : String) (selector : ManifestSelector) (badId noName : Fault) :
    Except Fault Catalog.Manifest :=
  if trimSpace selector.manifestId ≠ "" then
    match codec.uuid (trimSpace selector.manifestId) with
    | none => .error badId
    | some id => getManifestByID store id
  else if trimSpace selector.name = "" then .error noName
  else
    let namespaceName := trimSpace selector.namespaceName
    resolveManifest cm store kind (if namespaceName = "" then "global" else namespaceName)
      (trimSpace selector.name) selector.version true

/-- The version that a request selects. -/
def resolveManifestForKind (kind : String) (selector : ManifestSelector) :
    Except Fault Catalog.Manifest :=
  resolveSelector cm codec store kind selector (.errorf "invalid manifest id" [])
    (.errorf "manifest name is required when manifest_id is not provided" [])

/-- The version that an authorization selects. -/
def resolveWorkflowAuthorizationManifest (kind : String) (selector : ManifestSelector) :
    Except Fault Catalog.Manifest :=
  resolveSelector cm codec store kind selector
    (.errorf "invalid %s authorization manifest id" [.text kind])
    (.errorf "%s authorization manifest name is required" [.text kind])

/-- The workflow that is selected, which must be active. -/
def resolveActiveWorkflowManifestSpec (selector : ManifestSelector) :
    Except Fault (Catalog.Manifest × WorkflowManifestSpec) := do
  let row ← resolveManifestForKind cm codec store "workflow" selector
  require (equalFold cm (trimSpace row.identity.kind) "workflow" && row.active) manifestNotFound
  let spec ← (codec.workflow row.spec).mapError (.wrap "parse workflow spec: %w" [])
  .ok (row, spec)

/-! ## Dispatches -/

/-- A request to run a workflow. -/
structure RunWorkflowRequest where
  workflow : ManifestSelector
  inputs : Value.Fields := []

/-- How far a dispatch has come. From the first lookup on it carries what that lookup found. -/
inductive Phase
  | received
  | looked (row : Catalog.Manifest) (spec : WorkflowManifestSpec)
  | rbacRead (row : Catalog.Manifest) (spec : WorkflowManifestSpec) (rbac : RBACManifestSpec)
  | policyRead (row : Catalog.Manifest) (spec : WorkflowManifestSpec) (rbac : RBACManifestSpec)
      (policy : Option PolicyManifestSpec)
  | authorized (row : Catalog.Manifest) (spec : WorkflowManifestSpec)
  | launched (row : Catalog.Manifest) (spec : WorkflowManifestSpec)
  | executed (row : Catalog.Manifest) (spec : WorkflowManifestSpec) (ran : Catalog.Manifest)
      (ranSpec : WorkflowManifestSpec)
  | ended

/-- What the first lookup found, while the second is yet to come. -/
def Phase.pending : Phase → Option (Catalog.Manifest × WorkflowManifestSpec)
  | .looked row spec | .rbacRead row spec _ | .policyRead row spec _ _
  | .authorized row spec | .launched row spec => some (row, spec)
  | .received | .executed _ _ _ _ | .ended => none

/-- A request, and how far it has come. -/
structure Dispatch where
  request : RunWorkflowRequest
  actor : WorkflowRunActor
  phase : Phase := .received

/-- What a statement of a dispatch gets from elsewhere. -/
structure Env where
  regexp : String → String → Except Fault Bool
  identities : Identities
  refusal : Option Fault := none
  async : Bool := false
  deduped : Bool := false

/-- Machine principals select open workflows with a contract, by name only. -/
def lookupDispatch (d : Dispatch) : Except Fault (Catalog.Manifest × WorkflowManifestSpec) := do
  let selector := d.request.workflow
  require (d.actor.machinePrincipal.isNone || trimSpace selector.manifestId = "")
    (workflowAuthorizationDenied ("%w: machine dispatch must select the current active workflow " ++
      "by namespace and name; manifest_id is not allowed") [])
  require (d.actor.machinePrincipal.isNone || selector.version.isNone)
    (workflowAuthorizationDenied ("%w: machine dispatch must select the current active workflow " ++
      "by namespace and name; version is not allowed") [])
  let (row, spec) ← resolveActiveWorkflowManifestSpec cm codec store selector
  require (d.actor.machinePrincipal.all fun principal =>
      (trimSpace row.identity.namespace_, trimSpace row.identity.name) ∈ principal.allowedWorkflows)
    (workflowAuthorizationDenied "%w: machine principal is not allowed for workflow:%s:%s"
      [.text row.identity.namespace_, .text row.identity.name])
  require (d.actor.machinePrincipal.isNone || spec.authorization.isSome)
    (workflowAuthorizationDenied "%w: machine dispatch requires workflow spec.authorization" [])
  .ok (row, spec)

/-- The part of `ValidateWorkflowSpec` that is about the steps. -/
def validateWorkflowSpec (spec : WorkflowManifestSpec) : Except Fault Unit := do
  validateWorkflowSteps cm spec
  ((workflowExecutionOrder cm spec.steps.length spec).getD (.ok [])).map fun _ => ()

/-- The workflow that the selector names now, checked, with its inputs merged. -/
def prepareWorkflowRun (env : Env) (request : RunWorkflowRequest) : Except Fault
    (Catalog.Manifest × WorkflowManifestSpec × RunWorkflowRequest) := do
  let selector := request.workflow
  require (trimSpace selector.manifestId ≠ "" || trimSpace selector.namespaceName ≠ "" ||
      trimSpace selector.name ≠ "" || selector.version.isSome)
    (.errorf "workflow requires manifest_id or name" [])
  let (row, spec) ← resolveActiveWorkflowManifestSpec cm codec store selector
  validateWorkflowSpec cm spec
  requireNone env.refusal
  .ok (row, spec, { request with inputs := mergeWorkflowInputs spec request.inputs })

/-- The resource of a workflow. -/
def workflowResource (row : Catalog.Manifest) : String :=
  "workflow:" ++ row.identity.namespace_ ++ ":" ++ row.identity.name

/-- A statement that succeeds with a dispatch, or else ends it. -/
def Dispatch.proceed (d : Dispatch) (result : Except Fault Dispatch) : Dispatch :=
  match result with
  | .ok d' => d'
  | .error _ => { d with phase := .ended }

/-- Runs what the selector names now. -/
def Dispatch.run (env : Env) (d : Dispatch) (row : Catalog.Manifest) (spec : WorkflowManifestSpec) :
    Except Fault Dispatch := do
  let (ran, ranSpec, request) ← prepareWorkflowRun cm codec store env d.request
  .ok { d with request, phase := .executed row spec ran ranSpec }

/-- The next statement of a dispatch. -/
def Dispatch.advance (env : Env) (d : Dispatch) : Dispatch :=
  d.proceed <| match d.phase with
    | .received => do
      requireNone env.refusal
      let (row, spec) ← lookupDispatch cm codec store d
      .ok { d with phase :=
        if spec.authorization.isNone then .authorized row spec else .looked row spec }
    | .looked row spec =>
      match spec.authorization with
      | none => .ok { d with phase := .authorized row spec }
      | some contract => do
        requireNone env.refusal
        let stored ← resolveWorkflowAuthorizationManifest cm codec store "rbac" contract.rbac
        let rbac ← codec.rbac stored.spec
        .ok { d with phase := .rbacRead row spec rbac }
    | .rbacRead row spec rbac =>
      match spec.authorization.bind (·.policy) with
      | none => .ok { d with phase := .policyRead row spec rbac none }
      | some selector => do
        requireNone env.refusal
        let stored ← resolveWorkflowAuthorizationManifest cm codec store "policy" selector
        let policy ← codec.policy stored.spec
        .ok { d with phase := .policyRead row spec rbac (some policy) }
    | .policyRead row spec rbac policy => do
      requireNone env.refusal
      evaluateDispatch cm env.regexp env.identities rbac policy spec (workflowResource row)
        d.request.inputs d.actor
      .ok { d with phase := .authorized row spec }
    | .authorized row spec =>
      -- Machine principals are always asynchronous; others as they or the manifest choose.
      if d.actor.machinePrincipal.isSome || env.async then do
        let (_, _, request) ← prepareWorkflowRun cm codec store env d.request
        .ok { d with request, phase := if env.deduped then .ended else .launched row spec }
      else d.run cm codec store env row spec
    | .launched row spec => d.run cm codec store env row spec
    | .executed _ _ _ _ | .ended => .ok d

/-! ## The system -/

/-- The catalog, the ids that it has issued, and the dispatches. -/
structure State where
  catalog : Catalog.History.State
  issued : List String
  dispatches : ℕ → Option Dispatch

/-- A manifest is written, or a dispatch begins or goes on. -/
inductive Event
  | write (op : Catalog.History.Op)
  | receive (i : ℕ) (request : RunWorkflowRequest) (actor : WorkflowRunActor)
  | advance (i : ℕ) (env : Env)

/-- The id that a write issues. -/
def issues : Catalog.History.Op → List String
  | .createManifestVersion _ _ id => [id]
  | _ => []

/-- The next event; an id is never issued twice. -/
def State.next (e : Event) (s : State) : State :=
  match e with
  | .write op =>
    if ∀ id ∈ issues op, id ∉ s.issued then
      { s with catalog := Catalog.History.step op s.catalog, issued := issues op ++ s.issued }
    else s
  | .receive i request actor =>
    if (s.dispatches i).isNone then
      { s with dispatches := Function.update s.dispatches i (some { request, actor }) }
    else s
  | .advance i env =>
    let d := (s.dispatches i).map (Dispatch.advance cm codec s.catalog.manifests env)
    { s with dispatches := Function.update s.dispatches i d }

/-- A step of the system. -/
def Steps (s : State) (e : Event) (s' : State) : Prop := s' = s.next cm codec e

/-! ## What one statement does -/

/-- A selector names a row: by its id, or by its logical manifest. -/
def Selects (selector : ManifestSelector) (row : Catalog.Manifest) : Prop :=
  if trimSpace selector.manifestId ≠ "" then
    codec.uuid (trimSpace selector.manifestId) = some row.id
  else
    row.identity = ⟨toLower cm (trimSpace "workflow"),
      toLower cm (trimSpace (if trimSpace selector.namespaceName = "" then "global"
        else trimSpace selector.namespaceName)),
      toLower cm (trimSpace (trimSpace selector.name))⟩

variable {cm codec} {store : Catalog.Manifests} {selector : ManifestSelector} {env : Env}
  {d : Dispatch} {row row' : Catalog.Manifest} {spec : WorkflowManifestSpec} {s : State}

theorem mem_of_newest {rows : List Catalog.Manifest} (h : newest rows = some row) : row ∈ rows := by
  -- The loop ends with a row it went through, or with the best row before it.
  suffices ∀ best : Option Catalog.Manifest, rows.foldl (fun best row =>
      if best.all (·.version < row.version) then some row else best) best = some row →
      row ∈ rows ∨ best = some row from (this none h).resolve_right nofun
  clear h
  induction rows with
  | nil => exact fun best h => .inr h
  | cons first rows ih =>
    intro best h
    rw [List.foldl_cons] at h
    rcases ih _ h with h | h
    · exact .inl (List.mem_cons_of_mem _ h)
    · split at h
      · cases h
        exact .inl List.mem_cons_self
      · exact .inr h

/-- What is found by name is stored under that name. -/
theorem resolveManifest_eq_ok {kind namespaceName name : String} {version : Option ℤ}
    {activeOnly : Bool}
    (h : resolveManifest cm store kind namespaceName name version activeOnly = .ok row) :
    row ∈ store ∧ row.identity = ⟨toLower cm (trimSpace kind),
      toLower cm (trimSpace namespaceName), toLower cm (trimSpace name)⟩ := by
  rw [resolveManifest] at h
  split at h
  next found hfound =>
    cases h
    have hmem := mem_of_newest hfound
    simp only [List.mem_filter, decide_eq_true_eq] at hmem
    exact ⟨hmem.1, hmem.2.1⟩
  next => cases h

/-- What is found by a selector is stored and named by it. -/
theorem resolveManifestForKind_eq_ok
    (h : resolveManifestForKind cm codec store "workflow" selector = .ok row) :
    row ∈ store ∧ Selects cm codec selector row := by
  rw [resolveManifestForKind, resolveSelector] at h
  split at h
  next hid =>
    rw [Selects, if_pos hid]
    split at h
    · cases h
    next id huuid =>
      rw [getManifestByID] at h
      split at h
      next found hfound =>
        cases h
        obtain ⟨hmem, rfl⟩ := Table.get?_eq_some.1 hfound
        exact ⟨hmem, huuid⟩
      next => cases h
  next hid =>
    rw [Selects, if_neg hid]
    split at h
    · cases h
    · exact resolveManifest_eq_ok h

/-- What a lookup finds is stored, active and named by the selector. -/
theorem resolveActiveWorkflowManifestSpec_eq_ok
    (h : resolveActiveWorkflowManifestSpec cm codec store selector = .ok (row, spec)) :
    row ∈ store ∧ row.active = true ∧ Selects cm codec selector row ∧
      codec.workflow row.spec = .ok spec := by
  rw [resolveActiveWorkflowManifestSpec, bind_eq_ok] at h
  obtain ⟨found, hfound, h⟩ := h
  rw [require_bind, Bool.and_eq_true, bind_eq_ok] at h
  obtain ⟨⟨-, hactive⟩, parsed, hparsed, h⟩ := h
  cases h
  obtain ⟨hmem, hselects⟩ := resolveManifestForKind_eq_ok hfound
  exact ⟨hmem, hactive, hselects, mapError_eq_ok.1 hparsed⟩

theorem lookupDispatch_eq_ok (h : lookupDispatch cm codec store d = .ok (row, spec)) :
    resolveActiveWorkflowManifestSpec cm codec store d.request.workflow = .ok (row, spec) := by
  rw [lookupDispatch, require_bind, require_bind, bind_eq_ok] at h
  obtain ⟨-, -, ⟨found, parsed⟩, hfound, h⟩ := h
  rw [require_bind, require_bind] at h
  obtain ⟨-, -, h⟩ := h
  cases h
  exact hfound

theorem prepareWorkflowRun_eq_ok {request request' : RunWorkflowRequest}
    (h : prepareWorkflowRun cm codec store env request = .ok (row, spec, request')) :
    resolveActiveWorkflowManifestSpec cm codec store request.workflow = .ok (row, spec) ∧
      request'.workflow = request.workflow := by
  rw [prepareWorkflowRun, require_bind, bind_eq_ok] at h
  obtain ⟨-, ⟨found, parsed⟩, hfound, h⟩ := h
  rw [unit_bind_eq_ok, unit_bind_eq_ok] at h
  obtain ⟨-, -, h⟩ := h
  cases h
  exact ⟨hfound, rfl⟩

/-- What one statement may do to a dispatch. -/
inductive Advances (cm : CaseMap) (codec : Codec) (store : Catalog.Manifests) (d d' : Dispatch) :
    Prop
  | looks (row : Catalog.Manifest) (spec : WorkflowManifestSpec)
      (hfound : resolveActiveWorkflowManifestSpec cm codec store d.request.workflow =
        .ok (row, spec))
      (hpending : d'.phase.pending = some (row, spec))
      (hselector : d'.request.workflow = d.request.workflow)
  | goes (row : Catalog.Manifest) (spec : WorkflowManifestSpec)
      (hbefore : d.phase.pending = some (row, spec))
      (hpending : d'.phase.pending = some (row, spec))
      (hselector : d'.request.workflow = d.request.workflow)
  | runs (row ran : Catalog.Manifest) (spec ranSpec : WorkflowManifestSpec)
      (hbefore : d.phase.pending = some (row, spec))
      (hfound : resolveActiveWorkflowManifestSpec cm codec store d.request.workflow =
        .ok (ran, ranSpec))
      (hphase : d'.phase = .executed row spec ran ranSpec)
  | ends (hphase : d'.phase = .ended)
  | stays (heq : d' = d)

theorem Advances.proceed {result : Except Fault Dispatch}
    (h : ∀ d', result = .ok d' → Advances cm codec store d d') :
    Advances cm codec store d (d.proceed result) := by
  cases result with
  | ok d' => exact h d' rfl
  | error e => exact .ends rfl

theorem Advances.run {d' : Dispatch} (hpending : d.phase.pending = some (row, spec))
    (h : d.run cm codec store env row spec = .ok d') : Advances cm codec store d d' := by
  rw [Dispatch.run, bind_eq_ok] at h
  obtain ⟨⟨ran, ranSpec, request⟩, hprepared, h⟩ := h
  cases h
  exact .runs row ran spec ranSpec hpending (prepareWorkflowRun_eq_ok hprepared).1 rfl

theorem advances (d : Dispatch) : Advances cm codec store d (d.advance cm codec store env) := by
  refine .proceed fun d' h => ?_
  cases hphase : d.phase with
  | received =>
    rw [hphase, unit_bind_eq_ok, bind_eq_ok] at h
    obtain ⟨-, ⟨row, spec⟩, hfound, h⟩ := h
    cases h
    refine .looks row spec (lookupDispatch_eq_ok hfound) ?_ rfl
    split <;> rfl
  | looked row spec =>
    have hbefore : d.phase.pending = some (row, spec) := by rw [hphase]; rfl
    simp only [hphase] at h
    split at h
    · cases h
      exact .goes row spec hbefore rfl rfl
    · rw [unit_bind_eq_ok, bind_eq_ok] at h
      obtain ⟨-, stored, -, h⟩ := h
      obtain ⟨rbac, -, h⟩ := bind_eq_ok.1 h
      cases h
      exact .goes row spec hbefore rfl rfl
  | rbacRead row spec rbac =>
    have hbefore : d.phase.pending = some (row, spec) := by rw [hphase]; rfl
    simp only [hphase] at h
    split at h
    · cases h
      exact .goes row spec hbefore rfl rfl
    · rw [unit_bind_eq_ok, bind_eq_ok] at h
      obtain ⟨-, stored, -, h⟩ := h
      obtain ⟨policy, -, h⟩ := bind_eq_ok.1 h
      cases h
      exact .goes row spec hbefore rfl rfl
  | policyRead row spec rbac policy =>
    simp only [hphase, unit_bind_eq_ok] at h
    obtain ⟨-, -, h⟩ := h
    cases h
    exact .goes row spec (by rw [hphase]; rfl) rfl rfl
  | authorized row spec =>
    have hbefore : d.phase.pending = some (row, spec) := by rw [hphase]; rfl
    simp only [hphase] at h
    split at h
    · obtain ⟨⟨ran, ranSpec, request⟩, hprepared, h⟩ := bind_eq_ok.1 h
      cases h
      have hselector := (prepareWorkflowRun_eq_ok hprepared).2
      cases hdeduped : env.deduped with
      | true => exact .ends (by simp)
      | false => exact .goes row spec hbefore (by simp [Phase.pending]) hselector
    · exact .run hbefore h
  | launched row spec =>
    rw [hphase] at h
    exact .run (by rw [hphase]; rfl) h
  | executed | ended =>
    rw [hphase] at h
    cases h
    exact .stays rfl

/-! ## What one write does -/

/-- A write adds the only active row of its manifest, or deactivates and removes rows. -/
inductive Writes (store store' : Catalog.Manifests) (op : Catalog.History.Op) : Prop
  | adds (doc : Catalog.ManifestDocument) (checksum : String) (version : ℕ) (id : String) (now : ℤ)
      (hop : op = .createManifestVersion doc checksum id)
      (hrows : ∀ row ∈ store', row = doc.row checksum version id now ∨
        (row.active = true → row ∈ store ∧ row.identity ≠ doc.identity) ∧
          ∃ old ∈ store, old.id = row.id)
  | keeps (hrows : ∀ row ∈ store', (row.active = true → row ∈ store) ∧
      ∃ old ∈ store, old.id = row.id)

theorem writes (op : Catalog.History.Op) (s : Catalog.History.State) :
    Writes s.manifests (Catalog.History.step op s).manifests op := by
  -- What is active after an update was so before.
  have hupdate {p : Catalog.Manifest → Bool} {row : Catalog.Manifest}
      (h : row ∈ s.manifests.deactivate s.clock p) :
      (row.active = true → row ∈ s.manifests ∧ p row = false) ∧
        ∃ old ∈ s.manifests, old.id = row.id := by
    obtain ⟨old, hold, rfl⟩ := Catalog.Manifests.mem_deactivate.1 h
    refine ⟨fun hactive => ?_, old, hold, (old.deactivate_id _ p).symm⟩
    obtain ⟨hp, heq⟩ := Catalog.Manifest.deactivate_of_active hactive
    rw [heq]
    exact ⟨hold, hp⟩
  have hall : ∀ row ∈ s.manifests, (row.active = true → row ∈ s.manifests) ∧
      ∃ old ∈ s.manifests, old.id = row.id := fun row hrow => ⟨fun _ => hrow, row, hrow, rfl⟩
  cases op with
  | tick d => exact .keeps hall
  | createManifestVersion doc checksum id =>
    rw [Catalog.History.step]
    cases hcreate : Catalog.History.createManifestVersion s.manifests doc checksum id s.clock with
    | none => exact .keeps hall
    | some store' =>
      refine .adds doc checksum (s.manifests.nextVersion doc.identity) id s.clock rfl
        fun row hrow => ?_
      refine ((Table.mem_of_insert? hcreate).1 hrow).imp_right fun hrow => ?_
      obtain ⟨hactive, hold⟩ := hupdate hrow
      refine ⟨fun h => ⟨(hactive h).1, fun hidentity => ?_⟩, hold⟩
      simpa [hidentity, h] using (hactive h).2
  | markManifestInactive id =>
    refine .keeps fun row hrow => ?_
    obtain ⟨hactive, hold⟩ := hupdate hrow
    exact ⟨fun h => (hactive h).1, hold⟩
  | hardDeleteManifest | purgeInactiveManifests =>
    exact .keeps fun row hrow => hall row (Table.mem_filter.1 hrow).1

/-! ## Undisturbed runs -/

/-- A manifest has at most one active version, and the ids of the rows have been issued. -/
structure WellFormed (s : State) : Prop where
  active_unique : ∀ row ∈ s.catalog.manifests, ∀ row' ∈ s.catalog.manifests, row.active = true →
    row'.active = true → row.identity = row'.identity → row = row'
  issued : ∀ row ∈ s.catalog.manifests, row.id ∈ s.issued

/-- What the first lookup of a dispatch found is still what its selector would find. -/
structure Holds (cm : CaseMap) (codec : Codec) (s : State) (selector : ManifestSelector)
    (row : Catalog.Manifest) (spec : WorkflowManifestSpec) : Prop where
  parsed : codec.workflow row.spec = .ok spec
  issued : row.id ∈ s.issued
  selects : Selects cm codec selector row
  current : ∀ row' ∈ s.catalog.manifests, row'.active = true → Selects cm codec selector row' →
    row' = row

/-- No version is created while a dispatch that selects it by name is between its lookups. -/
def Undisturbed (s : State) (e : Event) : Prop :=
  ∀ doc checksum id, e = .write (.createManifestVersion doc checksum id) →
    Catalog.documentActive doc = true →
    ∀ i d row found, s.dispatches i = some d → d.phase.pending = some (row, found) →
      trimSpace d.request.workflow.manifestId = "" → row.identity ≠ doc.identity

section Write

variable {op : Catalog.History.Op} {catalog : Catalog.History.State}

theorem WellFormed.write (hs : WellFormed s)
    (hop : Writes s.catalog.manifests catalog.manifests op) :
    WellFormed { s with catalog, issued := issues op ++ s.issued } := by
  cases hop with
  | adds doc checksum version id now hop hrows =>
    subst hop
    refine ⟨fun row hrow row' hrow' hactive hactive' hkey => ?_, fun row hrow => ?_⟩
    · rcases hrows row hrow with rfl | ⟨hold, -⟩ <;> rcases hrows row' hrow' with rfl | ⟨hold', -⟩
      · rfl
      · exact absurd hkey.symm (hold' hactive').2
      · exact absurd hkey (hold hactive).2
      · exact hs.active_unique _ (hold hactive).1 _ (hold' hactive').1 hactive hactive' hkey
    · rcases hrows row hrow with rfl | ⟨-, old, hold, hid⟩
      · exact List.mem_cons_self
      · exact List.mem_cons_of_mem _ (hid ▸ hs.issued old hold)
  | keeps hrows =>
    refine ⟨fun row hrow row' hrow' hactive hactive' hkey => ?_, fun row hrow => ?_⟩
    · exact hs.active_unique _ ((hrows row hrow).1 hactive) _ ((hrows row' hrow').1 hactive')
        hactive hactive' hkey
    · obtain ⟨-, old, hold, hid⟩ := hrows row hrow
      exact List.mem_append_right _ (hid ▸ hs.issued old hold)

/-- Two rows that a selector names by their ids have the same id. -/
theorem Selects.id_eq (h : Selects cm codec selector row) (h' : Selects cm codec selector row')
    (hid : trimSpace selector.manifestId ≠ "") : row.id = row'.id := by
  rw [Selects, if_pos hid] at h h'
  exact Option.some_inj.1 (h.symm.trans h')

/-- Two rows that a selector names otherwise are versions of one manifest. -/
theorem Selects.identity_eq (h : Selects cm codec selector row)
    (h' : Selects cm codec selector row') (hid : trimSpace selector.manifestId = "") :
    row.identity = row'.identity := by
  rw [Selects, if_neg (not_not.2 hid)] at h h'
  exact h.trans h'.symm

attribute [irreducible] Selects

/-- A write keeps what a dispatch found current, unless it creates a version of it. -/
theorem Holds.write (h : Holds cm codec s selector row spec)
    (hop : Writes s.catalog.manifests catalog.manifests op)
    (hnew : ∀ id ∈ issues op, id ∉ s.issued)
    (hcreate : ∀ doc checksum id, op = .createManifestVersion doc checksum id →
      Catalog.documentActive doc = true → trimSpace selector.manifestId = "" →
      row.identity ≠ doc.identity) :
    Holds cm codec { s with catalog, issued := issues op ++ s.issued } selector row spec := by
  refine ⟨h.parsed, List.mem_append_right _ h.issued, h.selects, fun row' hrow' hactive hsel => ?_⟩
  cases hop with
  | adds doc checksum version id now hop hrows =>
    subst hop
    rcases hrows row' hrow' with rfl | ⟨hold, -⟩
    · by_cases hempty : trimSpace selector.manifestId = ""
      · exact absurd (h.selects.identity_eq hsel hempty) (hcreate _ _ _ rfl hactive hempty)
      · have hid : row.id = id := h.selects.id_eq hsel hempty
        exact absurd (hid ▸ h.issued) (hnew id (List.mem_singleton_self _))
    · exact h.current row' (hold hactive).1 hactive hsel
  | keeps hrows => exact h.current row' ((hrows row' hrow').1 hactive) hactive hsel

end Write

/-- What a lookup finds is what the selector finds. -/
theorem Holds.of_resolve (hs : WellFormed s)
    (h : resolveActiveWorkflowManifestSpec cm codec s.catalog.manifests selector =
      .ok (row, spec)) :
    Holds cm codec s selector row spec := by
  obtain ⟨hmem, hactive, hselects, hparsed⟩ := resolveActiveWorkflowManifestSpec_eq_ok h
  refine ⟨hparsed, hs.issued row hmem, hselects, fun row' hmem' hactive' hselects' => ?_⟩
  by_cases hid : trimSpace selector.manifestId = ""
  · exact hs.active_unique _ hmem' _ hmem hactive' hactive (hselects'.identity_eq hselects hid)
  · exact Table.eq_of_key_eq hmem' hmem (hselects'.id_eq hselects hid)

/-- A later lookup by the same selector finds the same version and specification. -/
theorem Holds.eq_of_resolve {ran : Catalog.Manifest} {ranSpec : WorkflowManifestSpec}
    (h : Holds cm codec s selector row spec)
    (hran : resolveActiveWorkflowManifestSpec cm codec s.catalog.manifests selector =
      .ok (ran, ranSpec)) : ran = row ∧ ranSpec = spec := by
  obtain ⟨hmem, hactive, hselects, hparsed⟩ := resolveActiveWorkflowManifestSpec_eq_ok hran
  have heq := h.current ran hmem hactive hselects
  rw [heq, h.parsed] at hparsed
  cases hparsed
  exact ⟨heq, rfl⟩

/-- What holds of every dispatch of an undisturbed run. -/
structure Sound (cm : CaseMap) (codec : Codec) (s : State) (d : Dispatch) : Prop where
  pending : ∀ row spec, d.phase.pending = some (row, spec) →
    Holds cm codec s d.request.workflow row spec
  executed : ∀ row spec ran ranSpec, d.phase = .executed row spec ran ranSpec →
    ran = row ∧ ranSpec = spec

/-- Nothing is required of a dispatch that has not looked anything up. -/
theorem Sound.received (request : RunWorkflowRequest) (actor : WorkflowRunActor) :
    Sound cm codec s { request, actor } where
  pending row spec h := by simp [Phase.pending] at h
  executed row spec ran ranSpec h := by simp at h

theorem Sound.advance (hs : WellFormed s) {d' : Dispatch} (h : Sound cm codec s d)
    (hd : Advances cm codec s.catalog.manifests d d') : Sound cm codec s d' := by
  cases hd with
  | looks row spec hfound hpending hselector =>
    refine ⟨fun row' spec' hpending' => ?_, fun row' spec' ran ranSpec hphase => ?_⟩
    · cases hpending.symm.trans hpending'
      rw [hselector]
      exact .of_resolve hs hfound
    · simp [hphase, Phase.pending] at hpending
  | goes row spec hbefore hpending hselector =>
    refine ⟨fun row' spec' hpending' => ?_, fun row' spec' ran ranSpec hphase => ?_⟩
    · cases hpending.symm.trans hpending'
      rw [hselector]
      exact h.pending row spec hbefore
    · simp [hphase, Phase.pending] at hpending
  | runs row ran spec ranSpec hbefore hfound hphase =>
    refine ⟨fun row' spec' hpending' => ?_, fun row' spec' ran' ranSpec' hphase' => ?_⟩
    · simp [hphase, Phase.pending] at hpending'
    · cases hphase.symm.trans hphase'
      exact (h.pending row spec hbefore).eq_of_resolve hfound
  | ends hphase =>
    refine ⟨fun row' spec' hpending' => ?_, fun row' spec' ran' ranSpec' hphase' => ?_⟩
    · simp [hphase, Phase.pending] at hpending'
    · cases hphase.symm.trans hphase'
  | stays heq => exact heq ▸ h

/-- The invariant of undisturbed runs. -/
structure Consistent (cm : CaseMap) (codec : Codec) (s : State) : Prop extends WellFormed s where
  sound : ∀ i d, s.dispatches i = some d → Sound cm codec s d

theorem Consistent.update (h : Consistent cm codec s) (i : ℕ) (d : Option Dispatch)
    (hd : ∀ d', d = some d' → Sound cm codec s d') :
    Consistent cm codec { s with dispatches := Function.update s.dispatches i d } := by
  refine ⟨⟨h.active_unique, h.issued⟩, fun j d' hd' => ?_⟩
  have hsound : Sound cm codec s d' := by
    by_cases hij : j = i
    · subst hij
      exact hd d' (by simpa using hd')
    · exact h.sound j d' (by simpa [hij] using hd')
  refine ⟨fun row spec hpending => ?_, hsound.executed⟩
  have held := hsound.pending row spec hpending
  exact ⟨held.parsed, held.issued, held.selects, held.current⟩

theorem Consistent.next {e : Event} (h : Consistent cm codec s) (he : Undisturbed s e) :
    Consistent cm codec (s.next cm codec e) := by
  cases e with
  | write op =>
    rw [State.next]
    split
    next hnew =>
      have hop := writes op s.catalog
      refine ⟨h.toWellFormed.write hop, fun i d hd => ⟨fun row spec hpending => ?_, ?_⟩⟩
      · refine ((h.sound i d hd).pending row spec hpending).write hop hnew ?_
        intro doc checksum id hcreate hactive hempty
        exact he doc checksum id (by rw [hcreate]) hactive i d row spec hd hpending hempty
      · exact (h.sound i d hd).executed
    next => exact h
  | receive i request actor =>
    rw [State.next]
    split
    · refine h.update i _ fun d hd => ?_
      rw [← Option.some_inj.1 hd]
      exact .received request actor
    · exact h
  | advance i env =>
    refine h.update i _ fun d' hd' => ?_
    obtain ⟨d, hd, rfl⟩ := Option.map_eq_some_iff.1 hd'
    exact (h.sound i d hd).advance h.toWellFormed (advances d)

/-- When no version is created while a dispatch that selects it by name is between its two lookups,
    what is executed is the version whose authorization contract was evaluated. -/
theorem executed_is_authorized {ρ : ℕ → State} {δ : ℕ → Event} (hrun : IsRun (Steps cm codec) ρ δ)
    (hstart : WellFormed (ρ 0)) (hnone : ∀ i, (ρ 0).dispatches i = none)
    (hundisturbed : ∀ n, Undisturbed (ρ n) (δ n)) (n i : ℕ) {d : Dispatch}
    (hd : (ρ n).dispatches i = some d) {row ran : Catalog.Manifest}
    {spec ranSpec : WorkflowManifestSpec} (hphase : d.phase = .executed row spec ran ranSpec) :
    ran = row ∧ ranSpec = spec := by
  have hconsistent (n : ℕ) : Consistent cm codec (ρ n) := by
    induction n with
    | zero => exact ⟨hstart, fun i d hd => by simp [hnone i] at hd⟩
    | succ n ih => exact (hrun n).symm ▸ ih.next (hundisturbed n)
  exact ((hconsistent n).sound i d hd).executed row spec ran ranSpec hphase

namespace Sample

/-- A workflow of one step, under the contract. -/
def applying (contract : Option WorkflowAuthorizationSpec) : WorkflowManifestSpec :=
  { authorization := contract, steps := [Manifest.Sample.step "apply" []] }

/-- The contract of operators. -/
def operators : WorkflowAuthorizationSpec := { rbac := { name := "operators" }, policy := none }

/-- Two stored specifications, of which one has a contract. -/
def twoSpecs : Codec where
  workflow text := .ok (applying (if text = "protected" then some operators else none))
  rbac _ := .ok roles
  policy _ := .ok validationOnly
  uuid id := some id

/-- Nothing fails. -/
def calm : Env := { regexp := noRegexp, identities := noCollaborators }

/-- A document of a workflow, with the specification. -/
def workflow (name spec : String) : Catalog.ManifestDocument :=
  { apiVersion := "v1", kind := "workflow", metadata := { name, namespace_ := "global" }, spec }

/-- The first version of a workflow, without a contract. -/
def oneVersion : State where
  catalog := { manifests := ⟨[(workflow "deploy" "open").row "" 1 "m1" 0], List.nodup_singleton _⟩ }
  issued := ["m1"]
  dispatches _ := none

theorem wellFormed_oneVersion : WellFormed oneVersion := by
  refine ⟨fun row hrow row' hrow' _ _ _ => ?_, fun row hrow => ?_⟩
  · rw [List.mem_singleton.1 hrow, List.mem_singleton.1 hrow']
  · rw [List.mem_singleton.1 hrow]
    exact List.mem_singleton_self _

/-- One dispatch by name, and nothing else. -/
def quiet : ℕ → Event
  | 0 => .receive 0 { workflow := { name := "deploy" } } bot
  | _ => .advance 0 calm

/-- The same, with a version under a contract created after the check. -/
def overtaken : ℕ → Event
  | 0 => .receive 0 { workflow := { name := "deploy" } } bot
  | 2 => .write (.createManifestVersion (workflow "deploy" "protected") "" "m2")
  | _ => .advance 0 calm

/-- The authorized and the executed version, and whether the latter has a contract. -/
def versions (s : State) : Option (String × String × Bool) :=
  (s.dispatches 0).bind fun d =>
    match d.phase with
    | .executed row _ ran ranSpec => some (row.id, ran.id, ranSpec.authorization.isSome)
    | _ => none

theorem exists_executed {id ranId : String} {contract : Bool}
    (h : versions s = some (id, ranId, contract)) :
    ∃ d row spec ran ranSpec, s.dispatches 0 = some d ∧
      d.phase = .executed row spec ran ranSpec ∧ row.id = id ∧ ran.id = ranId := by
  rw [versions, Option.bind_eq_some_iff] at h
  obtain ⟨d, hd, h⟩ := h
  split at h
  next row spec ran ranSpec hphase =>
    cases h
    exact ⟨d, row, spec, ran, ranSpec, hd, hphase, rfl, rfl⟩
  next => cases h

end Sample

theorem sample_executed_is_authorized :
    ∃ d row spec ran ranSpec,
      (unfold (State.next ascii Sample.twoSpecs) Sample.quiet Sample.oneVersion 3).dispatches 0 =
        some d ∧ d.phase = .executed row spec ran ranSpec ∧ ran = row ∧ ranSpec = spec := by
  have hversions : Sample.versions
      (unfold (State.next ascii Sample.twoSpecs) Sample.quiet Sample.oneVersion 3) =
        some ("m1", "m1", false) := by decide +kernel
  obtain ⟨d, row, spec, ran, ranSpec, hd, hphase, -, -⟩ := Sample.exists_executed hversions
  have hundisturbed (n : ℕ) (s : State) : Undisturbed s (Sample.quiet n) := by
    rintro doc checksum id h
    cases n <;> cases h
  obtain ⟨heq, hspec⟩ := executed_is_authorized (isRun_unfold _ Sample.quiet _)
    Sample.wellFormed_oneVersion (fun _ => rfl) (fun n => hundisturbed n _) 3 0 hd hphase
  exact ⟨d, row, spec, ran, ranSpec, hd, hphase, heq, hspec⟩

/-- What is executed is what was authorized, whatever is written meanwhile. -/
def ExecutedIsAuthorized : Prop :=
  ∀ cm codec ρ δ, IsRun (Steps cm codec) ρ δ → WellFormed (ρ 0) →
    (∀ i, (ρ 0).dispatches i = none) → ∀ n i d row spec ran ranSpec,
    (ρ n).dispatches i = some d → d.phase = .executed row spec ran ranSpec →
      ran = row ∧ ranSpec = spec

/-- A version under a contract that is created after the check is executed. -/
theorem not_executedIsAuthorized : ¬ ExecutedIsAuthorized := by
  intro h
  have hversions : Sample.versions
      (unfold (State.next ascii Sample.twoSpecs) Sample.overtaken Sample.oneVersion 4) =
        some ("m1", "m2", true) := by decide +kernel
  obtain ⟨d, row, spec, ran, ranSpec, hd, hphase, hrow, hran⟩ := Sample.exists_executed hversions
  have heq := (h ascii Sample.twoSpecs _ _ (isRun_unfold _ Sample.overtaken _)
    Sample.wellFormed_oneVersion (fun _ => rfl) 4 0 d row spec ran ranSpec hd hphase).1
  rw [heq, hrow] at hran
  exact absurd hran (by decide)

/-- The contract of that version denies the actor. -/
example : evaluateDispatch ascii Sample.noRegexp Sample.noCollaborators Sample.roles none
    (Sample.applying (some Sample.operators)) "workflow:global:deploy" [] Sample.bot =
      .error (workflowAuthorizationDenied "%w for %s" [.text "workflow:global:deploy"]) := by
  decide +kernel

end Yggdrasil.Runs
