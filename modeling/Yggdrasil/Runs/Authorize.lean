import Yggdrasil.Manifest.Authorization
import Yggdrasil.Manifest.Workflow
import Yggdrasil.Lib.Trim

/-!
# Who asks for a workflow run

Before a workflow is run, its roles and its policy are evaluated for the authenticated actor. The
policy is shown the merged inputs, in which `collaborator` and `teams` are replaced, while `subject`
and `subjects` are only filled in where the inputs have none.
-/

namespace Yggdrasil.Runs

open Check Text Manifest

/-! ## Merging inputs -/

mutual

/-- A value given over an existing one: maps are merged, anything else is replaced. -/
def mergeWorkflowValue : Option Value → Value → Value
  | some (.map base), .map fields => .map (mergeWorkflowMaps base fields)
  | _, value => value

/-- The entries of a map given over those of another. -/
def mergeWorkflowMaps : Value.Fields → Value.Fields → Value.Fields
  | base, [] => base
  | base, (key, value) :: rest =>
    mergeWorkflowMaps (base.set key (mergeWorkflowValue (base.lookup key) value)) rest

end

/-- The defaults of the workflow, overridden by the inputs of the request. -/
def mergeWorkflowInputs (spec : WorkflowManifestSpec) (inputs : Value.Fields) : Value.Fields :=
  if spec.defaults.isEmpty then inputs else mergeWorkflowMaps spec.defaults inputs

/-! ## The actor -/

/-- A machine, and the workflows that it may dispatch. -/
structure MachinePrincipal where
  principalId : String
  allowedWorkflows : List (String × String)

/-- The authenticated caller: a collaborator, or a service given as a subject. -/
structure WorkflowRunActor where
  collaboratorId : String := ""
  subject : RBACSubject := ⟨"", ""⟩
  machinePrincipal : Option MachinePrincipal := none

/-- A collaborator, as policies see them. -/
structure Collaborator where
  id : String
  slug : String
  status : String
  displayName : String
  primaryEmail : String
  personalData : Value.Fields := []
  employmentData : Value.Fields := []
  thirdPartyIdentities : Value.Fields := []
  traits : Value.Fields := []
  metadata : Value.Fields := []

/-- A team, as policies see it. -/
structure Team where
  id : String
  slug : String
  name : String
  type : String
  status : String
  owners : List String := []
  traits : Value.Fields := []
  metadata : Value.Fields := []

/-- The collaborators of an id, with the teams that confer authority on them. -/
abbrev Identities := String → Except Fault (Collaborator × List Team)

/-- The subjects of a collaborator: itself, then its teams. -/
def authorizationSubjects (collaborator : Collaborator) (teams : List Team) : List RBACSubject :=
  ⟨"collaborator", collaborator.slug⟩ :: teams.map fun team => ⟨"team", team.slug⟩

/-- The collaborator as a value. -/
def describeCollaborator (collaborator : Collaborator) : Value :=
  .map [("id", .str collaborator.id), ("slug", .str collaborator.slug),
    ("status", .str collaborator.status), ("display_name", .str collaborator.displayName),
    ("primary_email", .str collaborator.primaryEmail),
    ("personal_data", .map collaborator.personalData),
    ("employment_data", .map collaborator.employmentData),
    ("third_party_identities", .map collaborator.thirdPartyIdentities),
    ("traits", .map collaborator.traits), ("metadata", .map collaborator.metadata)]

/-- The teams as a value. -/
def describeTeams (teams : List Team) : Value :=
  .other "[]map[string]any" (.list (teams.map fun team =>
    .map [("id", .str team.id), ("slug", .str team.slug), ("name", .str team.name),
      ("type", .str team.type), ("status", .str team.status),
      ("owners", .other "[]string" (.list (team.owners.map .str))),
      ("traits", .map team.traits), ("metadata", .map team.metadata)]))

/-- The input with the collaborator and their teams. -/
def workflowAuthorizationContextInput (input : Value.Fields) (collaborator : Collaborator)
    (teams : List Team) : Value.Fields :=
  (input.set "collaborator" (describeCollaborator collaborator)).set "teams" (describeTeams teams)

/-- The error of a refused dispatch. -/
def workflowAuthorizationDenied (format : String) (operands : List Operand) : Fault :=
  .wrap format operands (.errorf "workflow dispatch authorization denied" [])

/-- The subjects of the actor, and the merged inputs with the description of a collaborator. -/
def authorizationContext (identities : Identities) (actor : WorkflowRunActor)
    (merged : Value.Fields) : Except Fault (List RBACSubject × Value.Fields) :=
  if actor.collaboratorId ≠ "" then do
    let (collaborator, teams) ← identities actor.collaboratorId
    .ok (authorizationSubjects collaborator teams,
      workflowAuthorizationContextInput merged collaborator teams)
  else if actor.subject.type ≠ "" ∧ actor.subject.id ≠ "" then .ok ([actor.subject], merged)
  else .error (workflowAuthorizationDenied
    "%w: protected workflow requires an authenticated subject" [])

/-- Evaluates the contract of a workflow for the actor. -/
def evaluateDispatch (cm : CaseMap) (regexp : String → String → Except Fault Bool)
    (identities : Identities) (rbacSpec : RBACManifestSpec)
    (policySpec : Option PolicyManifestSpec) (spec : WorkflowManifestSpec) (resource : String)
    (inputs : Value.Fields) (actor : WorkflowRunActor) : Except Fault Unit := do
  let (subjects, input) ← authorizationContext identities actor (mergeWorkflowInputs spec inputs)
  let response ←
    evaluateAuthorizationSubjects cm regexp rbacSpec policySpec subjects resource "run" input
  require response.allowed (workflowAuthorizationDenied "%w for %s" [.text resource])

/-! ## The identity that a policy sees -/

/-- What conditions on the identity see. -/
structure SeenIdentity where
  subjectType : Option Value
  subjectId : Option Value
  subjects : Option Value
  collaborator : Option Value
  teams : Option Value

/-- The identity that conditions on the input see. -/
def seenIdentity (input : Value.Fields) : SeenIdentity where
  subjectType := lookupPath input "subject.type"
  subjectId := lookupPath input "subject.id"
  subjects := lookupPath input "subjects"
  collaborator := lookupPath input "collaborator"
  teams := lookupPath input "teams"

/-- The identity of an actor: its effective subjects, and its description as a collaborator. -/
def actorIdentity (subjects : List RBACSubject) (described : Option (Collaborator × List Team)) :
    SeenIdentity where
  subjectType := subjects.head?.map fun subject => .str subject.type
  subjectId := subjects.head?.map fun subject => .str subject.id
  subjects := some (authorizationSubjectsToInput subjects)
  collaborator := described.map fun d => describeCollaborator d.1
  teams := described.map fun d => describeTeams d.2

/-- The stored description of the actor, if it is a collaborator. -/
def actorDescription (identities : Identities) (actor : WorkflowRunActor) :
    Option (Collaborator × List Team) :=
  if actor.collaboratorId ≠ "" then (identities actor.collaboratorId).toOption else none

/-- The merged inputs give no other subject, collaborator or teams. -/
structure LeavesIdentity (first : RBACSubject) (subjects : List RBACSubject)
    (described : Option (Collaborator × List Team)) (merged : Value.Fields) : Prop where
  subjects : ∀ v, merged.lookup "subjects" = some v → v = authorizationSubjectsToInput subjects
  subject : ∀ v, merged.lookup "subject" = some v → v = .nil ∨ ∃ fields, v = .map fields ∧
    (∀ t, fields.lookup "type" = some t → t = .str first.type) ∧
    ∀ i, fields.lookup "id" = some i → i = .str first.id
  description : described = none →
    merged.lookup "collaborator" = none ∧ merged.lookup "teams" = none

section

variable {first : RBACSubject} {rest : List RBACSubject} {input : Value.Fields}

theorem lookup_policyInput_subjects :
    (authorizationPolicyInput (first :: rest) input).lookup "subjects" =
      some ((input.lookup "subjects").getD (authorizationSubjectsToInput (first :: rest))) := by
  unfold authorizationPolicyInput
  cases hcaller : input.lookup "subjects" with
  | none =>
    dsimp only
    split <;> simp [apply_ite (List.lookup "subjects"), Value.Fields.lookup_set]
  | some v =>
    dsimp only
    split <;> simp [apply_ite (List.lookup "subjects"), Value.Fields.lookup_set, hcaller]

/-- The subject that a policy is shown, by what the input has there. -/
theorem lookup_policyInput_subject :
    (authorizationPolicyInput (first :: rest) input).lookup "subject" =
      match input.lookup "subject" with
      | none | some .nil =>
        some (.map [("type", .str (trimSpace first.type)), ("id", .str (trimSpace first.id))])
      | some (.map fields) => some (.map (completeSubject first fields))
      | some v => some v := by
  unfold authorizationPolicyInput
  cases hcaller : input.lookup "subject" with
  | none => exact Value.Fields.lookup_set_self ..
  | some v =>
    cases v with
    | nil => exact Value.Fields.lookup_set_self ..
    | map fields => exact Value.Fields.lookup_set_self ..
    | _ => simp [apply_ite (List.lookup "subject"), Value.Fields.lookup_set, hcaller]

theorem lookup_completeSubject (fields : Value.Fields) (htype : trimSpace first.type ≠ "")
    (hid : trimSpace first.id ≠ "") :
    (completeSubject first fields).lookup "type" =
        some ((fields.lookup "type").getD (.str (trimSpace first.type))) ∧
      (completeSubject first fields).lookup "id" =
        some ((fields.lookup "id").getD (.str (trimSpace first.id))) := by
  rw [completeSubject]
  cases ht : fields.lookup "type" <;> cases hi : fields.lookup "id" <;>
    simp [ht, hi, htype, hid, Value.Fields.lookup_set]

/-- A value that is neither missing nor a map has no fields. -/
theorem walkPath_of_not_map {v : Value} {segment : String} (h : ∀ fields, v ≠ .map fields)
    (hsegment : atoi segment = none) : walkPath v [segment] = none := by
  cases v with
  | map fields => exact absurd rfl (h fields)
  | list items => simp [walkPath, hsegment]
  | _ => simp [walkPath]

variable {cm : CaseMap} {identities : Identities} {actor : WorkflowRunActor}
  {subjects : List RBACSubject} {merged : Value.Fields}

/-- The context of an actor: only the description of a collaborator is added to the inputs. -/
theorem authorizationContext_eq_ok
    (h : authorizationContext identities actor merged = .ok (subjects, input)) :
    input.lookup "subject" = merged.lookup "subject" ∧
      input.lookup "subjects" = merged.lookup "subjects" ∧
      input.lookup "collaborator" = ((actorDescription identities actor).map
        (fun d => describeCollaborator d.1)).or (merged.lookup "collaborator") ∧
      input.lookup "teams" = ((actorDescription identities actor).map
        (fun d => describeTeams d.2)).or (merged.lookup "teams") := by
  rw [authorizationContext] at h
  split at h
  next hcollaborator =>
    obtain ⟨⟨collaborator, teams⟩, hstored, h⟩ := bind_eq_ok.1 h
    cases h
    have hdescribed : actorDescription identities actor = some (collaborator, teams) := by
      rw [actorDescription, if_pos hcollaborator, hstored]
      rfl
    simp [hdescribed, workflowAuthorizationContextInput, Value.Fields.lookup_set]
  next hcollaborator =>
    have hdescribed : actorDescription identities actor = none := by
      rw [actorDescription, if_neg hcollaborator]
    split at h
    · cases h
      rw [hdescribed]
      exact ⟨rfl, rfl, rfl, rfl⟩
    · cases h

/-- The subject is the first one exactly when the inputs say nothing else about it. -/
theorem seen_subject_iff (rest : List RBACSubject) (input : Value.Fields)
    (htype : trimSpace first.type = first.type ∧ first.type ≠ "")
    (hid : trimSpace first.id = first.id ∧ first.id ≠ "") :
    (seenIdentity (authorizationPolicyInput (first :: rest) input)).subjectType =
          some (.str first.type) ∧
        (seenIdentity (authorizationPolicyInput (first :: rest) input)).subjectId =
          some (.str first.id) ↔
      ∀ v, input.lookup "subject" = some v → v = .nil ∨ ∃ fields, v = .map fields ∧
        (∀ t, fields.lookup "type" = some t → t = .str first.type) ∧
        ∀ i, fields.lookup "id" = some i → i = .str first.id := by
  have htypePath : split (trimSpace "subject.type") '.' = ["subject", "type"] := by decide +kernel
  have hidPath : split (trimSpace "subject.id") '.' = ["subject", "id"] := by decide +kernel
  have hwalk (fields : Value.Fields) (segment : String) (hne : segment ≠ "") :
      walkPath (.map fields) [segment] = fields.lookup segment := by
    rw [walkPath, if_neg hne]
    cases fields.lookup segment <;> rfl
  have hwalk' (fields : Value.Fields) (segment : String) :
      walkPath (.map fields) ["subject", segment] =
        (fields.lookup "subject").bind (walkPath · [segment]) := by
    rw [walkPath, if_neg (by decide)]
  have hsecond (t i : Value) : List.lookup "id" [("type", t), ("id", i)] = some i := by
    simp [List.lookup_cons]
  simp only [seenIdentity, lookupPath, htypePath, hidPath, hwalk', lookup_policyInput_subject]
  split
  next hcaller => simp [hcaller, hwalk, hsecond, htype.1, hid.1]
  next hcaller => simp [hcaller, hwalk, hsecond, htype.1, hid.1]
  next fields hcaller =>
    obtain ⟨ht, hi⟩ := lookup_completeSubject fields (htype.1.symm ▸ htype.2)
      (hid.1.symm ▸ hid.2)
    simp only [Option.bind_some, hwalk _ "type" (by decide), hwalk _ "id" (by decide), ht, hi,
      htype.1, hid.1, hcaller]
    cases htypeGiven : fields.lookup "type" <;> cases hidGiven : fields.lookup "id" <;>
      simp [htypeGiven, hidGiven]
  next v hnil hmap hcaller =>
    rw [Option.bind_some, walkPath_of_not_map hmap (by decide +kernel)]
    simp only [reduceCtorEq, false_and, false_iff]
    intro h
    rcases h v hcaller with rfl | ⟨fields, rfl, -⟩
    · exact hnil rfl
    · exact hmap fields rfl

theorem lookupPath_root (input : Value.Fields) {root : String}
    (h : split (trimSpace root) '.' = [root]) (hne : root ≠ "") :
    lookupPath input root = input.lookup root := by
  rw [lookupPath, h, walkPath, if_neg hne]
  cases input.lookup root <;> rfl

/-- A policy is shown the identity of the actor exactly when the merged inputs leave it alone. -/
theorem seenIdentity_iff
    (h : authorizationContext identities actor merged = .ok (subjects, input))
    (hfirst : normalizedSubjects cm subjects = first :: rest) :
    seenIdentity (authorizationPolicyInput (normalizedSubjects cm subjects) input) =
        actorIdentity (normalizedSubjects cm subjects) (actorDescription identities actor) ↔
      LeavesIdentity first (first :: rest) (actorDescription identities actor) merged := by
  obtain ⟨hsubject, hsubjects, hcollaborator, hteams⟩ := authorizationContext_eq_ok h
  obtain ⟨htype, hid⟩ := trimmed_of_mem_normalizedSubjects
    (hfirst.symm ▸ List.mem_cons_self : first ∈ normalizedSubjects cm subjects)
  rw [hfirst]
  -- The identity is compared field by field.
  have hfields (a b : SeenIdentity) : a = b ↔ (a.subjectType = b.subjectType ∧
      a.subjectId = b.subjectId) ∧ a.subjects = b.subjects ∧
      (a.collaborator = b.collaborator ∧ a.teams = b.teams) := by
    cases a
    cases b
    simp only [SeenIdentity.mk.injEq]
    tauto
  have hiff := seen_subject_iff rest input htype hid
  rw [hsubject] at hiff
  have hlist : (seenIdentity (authorizationPolicyInput (first :: rest) input)).subjects =
      some (authorizationSubjectsToInput (first :: rest)) ↔
      ∀ v, merged.lookup "subjects" = some v →
        v = authorizationSubjectsToInput (first :: rest) := by
    change lookupPath _ "subjects" = _ ↔ _
    rw [lookupPath_root _ (by decide +kernel) (by decide), lookup_policyInput_subjects, hsubjects]
    cases merged.lookup "subjects" <;> simp
  have hdescribed : ((seenIdentity (authorizationPolicyInput (first :: rest) input)).collaborator =
        (actorDescription identities actor).map (fun d => describeCollaborator d.1) ∧
      (seenIdentity (authorizationPolicyInput (first :: rest) input)).teams =
        (actorDescription identities actor).map (fun d => describeTeams d.2)) ↔
      (actorDescription identities actor = none →
        merged.lookup "collaborator" = none ∧ merged.lookup "teams" = none) := by
    change lookupPath _ "collaborator" = _ ∧ lookupPath _ "teams" = _ ↔ _
    rw [lookupPath_root _ (by decide +kernel) (by decide),
      lookupPath_root _ (by decide +kernel) (by decide),
      lookup_policyInput_of_ne (by decide) (by decide) (by decide),
      lookup_policyInput_of_ne (by decide) (by decide) (by decide), hcollaborator, hteams]
    cases actorDescription identities actor <;> simp
  rw [hfields]
  constructor
  · rintro ⟨hs, hl, hd⟩
    exact ⟨hlist.1 hl, hiff.1 hs, hdescribed.1 hd⟩
  · intro hleaves
    exact ⟨hiff.2 hleaves.subject, hlist.2 hleaves.subjects, hdescribed.2 hleaves.description⟩

/-- The subjects of an actor do not depend on the inputs. -/
theorem subjects_eq_of_authorizationContext {merged' input' : Value.Fields}
    {subjects' : List RBACSubject}
    (h : authorizationContext identities actor merged = .ok (subjects, input))
    (h' : authorizationContext identities actor merged' = .ok (subjects', input')) :
    subjects' = subjects := by
  rw [authorizationContext] at h h'
  split at h
  next hcollaborator =>
    rw [if_pos hcollaborator] at h'
    obtain ⟨stored, hstored, h⟩ := bind_eq_ok.1 h
    obtain ⟨stored', hstored', h'⟩ := bind_eq_ok.1 h'
    cases hstored.symm.trans hstored'
    cases h
    cases h'
    rfl
  next hcollaborator =>
    rw [if_neg hcollaborator] at h'
    split at h
    next hsubject =>
      rw [if_pos hsubject] at h'
      cases h
      cases h'
      rfl
    · cases h

/-- The policy is shown the identity of the actor exactly when the merged inputs leave it alone; two
    such requests of one actor are shown the same. -/
theorem policy_identity {spec : WorkflowManifestSpec} {inputs : Value.Fields}
    (h : authorizationContext identities actor (mergeWorkflowInputs spec inputs) =
      .ok (subjects, input))
    (hfirst : normalizedSubjects cm subjects = first :: rest) :
    (seenIdentity (authorizationPolicyInput (normalizedSubjects cm subjects) input) =
        actorIdentity (normalizedSubjects cm subjects) (actorDescription identities actor) ↔
      LeavesIdentity first (first :: rest) (actorDescription identities actor)
        (mergeWorkflowInputs spec inputs)) ∧
    ∀ inputs' subjects' input',
      authorizationContext identities actor (mergeWorkflowInputs spec inputs') =
        .ok (subjects', input') →
      LeavesIdentity first (first :: rest) (actorDescription identities actor)
        (mergeWorkflowInputs spec inputs) →
      LeavesIdentity first (first :: rest) (actorDescription identities actor)
        (mergeWorkflowInputs spec inputs') →
      seenIdentity (authorizationPolicyInput (normalizedSubjects cm subjects') input') =
        seenIdentity (authorizationPolicyInput (normalizedSubjects cm subjects) input) := by
  refine ⟨seenIdentity_iff h hfirst, ?_⟩
  intro inputs' subjects' input' h' hleaves hleaves'
  obtain rfl := subjects_eq_of_authorizationContext h h'
  rw [(seenIdentity_iff h hfirst).2 hleaves, (seenIdentity_iff h' hfirst).2 hleaves']

end

/-! ## A spoofed subject -/

namespace Sample

/-- A service that deploys. -/
def bot : WorkflowRunActor := { subject := ⟨"service", "cd-bot"⟩ }

/-- No collaborator is found. -/
def noCollaborators : Identities := fun id =>
  .error (.errorf "collaborator %q not found" [.quoted id])

/-- A workflow without defaults. -/
def deploy : WorkflowManifestSpec := { steps := [] }

/-- The inputs of a deployment to production. -/
def production : Value.Fields := [("environment", .str "production")]

/-- The same, by someone else as the inputs have it. -/
def spoofed : Value.Fields :=
  ("subject", .map [("type", .str "service"), ("id", .str "release-manager")]) :: production

/-- A service may dispatch a workflow. -/
def roles : RBACManifestSpec where
  roles := [{ name := "dispatcher",
              rules := [{ resources := ["workflow:dakasa:deploy"], actions := ["run"] }] }]
  bindings := [{ name := "cd", subjects := [⟨"service", "cd-bot"⟩], roles := ["dispatcher"] }]

/-- The service may not deploy outside validation. -/
def validationOnly : PolicyManifestSpec where
  rules := [{ name := "deny-production", effect := "deny",
              resources := ["workflow:dakasa:deploy"], actions := ["run"],
              conditions := [
                { key := "subject.id", operator := "eq", value := .str "cd-bot" },
                { key := "input.environment", operator := "neq", value := .str "validation" }] }]

/-- No regular expression matches. -/
def noRegexp : String → String → Except Fault Bool := fun _ _ => .ok false

/-- The text of a value, if it is one. -/
def text? : Option Value → Option String
  | some (.str s) => some s
  | _ => none

end Sample

theorem sample_policy_identity :
    seenIdentity (authorizationPolicyInput (normalizedSubjects ascii [Sample.bot.subject])
        Sample.production) =
      actorIdentity (normalizedSubjects ascii [Sample.bot.subject]) none := by
  have h : authorizationContext Sample.noCollaborators Sample.bot
      (mergeWorkflowInputs Sample.deploy Sample.production) =
        .ok ([Sample.bot.subject], Sample.production) := rfl
  have hfirst : normalizedSubjects ascii [Sample.bot.subject] = [⟨"service", "cd-bot"⟩] := by
    decide +kernel
  have hmerged : mergeWorkflowInputs Sample.deploy Sample.production =
      [("environment", .str "production")] := rfl
  refine (policy_identity h hfirst).1.2 ?_
  rw [hmerged]
  exact ⟨by simp [List.lookup_cons], by simp [List.lookup_cons], by simp [List.lookup_cons]⟩

/-- Requests of one actor that differ in the inputs only show the same identity. -/
def IdentityFixed : Prop :=
  ∀ cm identities spec actor inputs inputs' subjects subjects' input input',
    authorizationContext identities actor (mergeWorkflowInputs spec inputs) =
      .ok (subjects, input) →
    authorizationContext identities actor (mergeWorkflowInputs spec inputs') =
      .ok (subjects', input') →
    seenIdentity (authorizationPolicyInput (normalizedSubjects cm subjects) input) =
      seenIdentity (authorizationPolicyInput (normalizedSubjects cm subjects') input')

/-- The inputs of the service name another one. -/
theorem not_identityFixed : ¬ IdentityFixed := by
  intro h
  have heq := h ascii Sample.noCollaborators Sample.deploy Sample.bot Sample.production
    Sample.spoofed _ _ _ _ rfl rfl
  have hid := congrArg (fun identity => Sample.text? identity.subjectId) heq
  revert hid
  decide +kernel

/-- With them a deployment passes that the policy denies the service. -/
example : evaluateDispatch ascii Sample.noRegexp Sample.noCollaborators Sample.roles
      (some Sample.validationOnly) Sample.deploy "workflow:dakasa:deploy" Sample.production
      Sample.bot =
        .error (workflowAuthorizationDenied "%w for %s" [.text "workflow:dakasa:deploy"]) ∧
    evaluateDispatch ascii Sample.noRegexp Sample.noCollaborators Sample.roles
      (some Sample.validationOnly) Sample.deploy "workflow:dakasa:deploy" Sample.spoofed
      Sample.bot = .ok () := by
  decide +kernel

/-! ## Addressing the subjects and the teams -/

/-- The path to a field of an item of a list. -/
def itemPath (root : String) (i : ℕ) (field : String) : String :=
  root ++ "." ++ toString i ++ "." ++ field

/-- A list that the program made itself has no items for a path. -/
theorem lookupPath_itemPath_of_other {input : Value.Fields} {root field type : String}
    {content : Value} (hroot : trim root.toList = root.toList) (hne : root ≠ "")
    (hdot : '.' ∉ root.toList) (hfield : trim field.toList ≠ [])
    (h : input.lookup root = some (.other type content)) (i : ℕ) :
    lookupPath input (itemPath root i field) = none := by
  have hpath : (itemPath root i field).toList =
      root.toList ++ (('.' :: (toString i).toList ++ ['.']) ++ field.toList) := by
    simp [itemPath]
  have hblank : ¬ IsBlank root.toList := by
    rw [← trim_eq_nil_iff, hroot]
    simpa using hne
  rw [Ne, trim_eq_nil_iff] at hfield
  rw [lookupPath, trimSpace_eq, hpath, trim_append_append hblank hfield,
    (trim_eq_self_iff.1 hroot).1, split, String.toList_ofList, List.cons_append, List.cons_append,
    List.splitOn, List.splitOnP_append_cons_of_forall_mem (by grind) _ (by simp), List.map_cons,
    String.ofList_toList, walkPath, if_neg hne, h, Option.bind_some]
  -- Whatever the next segment is, the list is not of the type of decoded ones.
  cases hrest : List.map String.ofList (List.splitOnP _ _) with
  | nil => exact absurd (List.map_eq_nil_iff.1 hrest) (List.splitOnP_ne_nil _ _)
  | cons segment rest =>
    simp [walkPath]

/-- No condition sees a field of an effective subject or of a team by its index. -/
theorem items_not_addressable {subjects : List RBACSubject} {input : Value.Fields}
    (hsubjects : subjects ≠ []) (hcaller : input.lookup "subjects" = none)
    (collaborator : Collaborator) (teams : List Team) (i : ℕ) :
    lookupPath (authorizationPolicyInput subjects input) (itemPath "subjects" i "type") = none ∧
      lookupPath (authorizationPolicyInput subjects input) (itemPath "subjects" i "id") = none ∧
      lookupPath (authorizationPolicyInput subjects
        (workflowAuthorizationContextInput input collaborator teams))
        (itemPath "teams" i "slug") = none := by
  obtain ⟨first, rest, rfl⟩ := List.exists_cons_of_ne_nil hsubjects
  have hitems : (authorizationPolicyInput (first :: rest) input).lookup "subjects" =
      some (authorizationSubjectsToInput (first :: rest)) := by
    rw [lookup_policyInput_subjects, hcaller]
    rfl
  have hteams : (authorizationPolicyInput (first :: rest)
      (workflowAuthorizationContextInput input collaborator teams)).lookup "teams" =
        some (describeTeams teams) := by
    rw [lookup_policyInput_of_ne (by decide) (by decide) (by decide)]
    exact Value.Fields.lookup_set_self ..
  refine ⟨?_, ?_, ?_⟩
  · exact lookupPath_itemPath_of_other rfl (by decide) (by decide) (by decide) hitems i
  · exact lookupPath_itemPath_of_other rfl (by decide) (by decide) (by decide) hitems i
  · exact lookupPath_itemPath_of_other rfl (by decide) (by decide) (by decide) hteams i

theorem sample_items_not_addressable :
    lookupPath (authorizationPolicyInput [Sample.bot.subject] Sample.production)
      (itemPath "subjects" 0 "type") = none :=
  (items_not_addressable (by simp) rfl ⟨"", "", "", "", "", [], [], [], [], []⟩ [] 0).1

/-- Conditions see the type of each subject at its index. -/
def SubjectsAddressable : Prop :=
  ∀ (subjects : List RBACSubject) (input : Value.Fields), input.lookup "subjects" = none →
    ∀ (i : ℕ) (h : i < subjects.length),
      lookupPath (authorizationPolicyInput subjects input) (itemPath "subjects" i "type") =
        some (.str subjects[i].type)

theorem not_subjectsAddressable : ¬ SubjectsAddressable := by
  intro h
  have hseen := congrArg Sample.text? (h [Sample.bot.subject] Sample.production rfl 0 (by decide))
  revert hseen
  decide +kernel

end Yggdrasil.Runs
