import Yggdrasil.Manifest.Policy

/-!
# Authorization decisions

Access is decided by the roles of the effective subjects; an optional policy may then turn an
allowed request down. The input's own `subject` is completed in place with the first subject, so
that a policy may depend on their order (`not_decisionUnchanged`).
-/

namespace Yggdrasil.Manifest

open Check Text

/-- The decision of the roles. -/
structure EvaluateRBACResponse where
  allowed : Bool
  decision : Effect
  matchedRoles : List String
  matchedRules : List RBACRuleMatch

/-- The decision of the policy. -/
structure EvaluatePolicyResponse where
  allowed : Bool
  decision : PolicyDecision
  matchedRules : List PolicyRuleMatch

/-- The decision of both. -/
structure EvaluateAuthorizationResponse where
  allowed : Bool
  decision : Effect
  resolvedSubjects : List RBACSubject
  rbac : EvaluateRBACResponse
  policy : Option EvaluatePolicyResponse := none

/-! ## The input of a policy -/

/-- The subjects as a policy sees them. -/
def authorizationSubjectsToInput (subjects : List RBACSubject) : Value :=
  .other "[]map[string]any" (.list (subjects.map fun subject =>
    .map [("type", .str subject.type), ("id", .str subject.id)]))

/-- The fields of a subject with the type and id that it lacks. -/
def completeSubject (subject : RBACSubject) (fields : Value.Fields) : Value.Fields :=
  let fields :=
    if (fields.lookup "type").isNone ∧ trimSpace subject.type ≠ "" then
      fields.set "type" (.str (trimSpace subject.type))
    else fields
  if (fields.lookup "id").isNone ∧ trimSpace subject.id ≠ "" then
    fields.set "id" (.str (trimSpace subject.id))
  else fields

/-- The input with the subjects, and with itself as `input` unless it has such a key. -/
def authorizationPolicyInput (subjects : List RBACSubject) (input : Value.Fields) :
    Value.Fields :=
  let normalized :=
    if (input.lookup "input").isNone then input.set "input" (.map input) else input
  let normalized :=
    if (input.lookup "subjects").isNone then
      normalized.set "subjects" (authorizationSubjectsToInput subjects)
    else normalized
  match subjects with
  | [] => normalized
  | subject :: _ =>
    match input.lookup "subject" with
    | none | some .nil =>
      normalized.set "subject"
        (.map [("type", .str (trimSpace subject.type)), ("id", .str (trimSpace subject.id))])
    | some (.map fields) =>
      -- The map is written in place, and the copy under `input` shares it.
      let completed := .map (completeSubject subject fields)
      let normalized :=
        if (input.lookup "input").isNone then
          normalized.set "input" (.map (input.set "subject" completed))
        else normalized
      normalized.set "subject" completed
    | some _ => normalized

/-! ## The decision -/

variable (cm : CaseMap) (regexp : String → String → Except Fault Bool)

/-- The subjects in their normal form. -/
def normalizeAuthorizationSubjects (subjects : List RBACSubject) : List RBACSubject :=
  normalizedSubjects cm subjects

/-- The decision of the roles. -/
def authorizationRBACDecision (allowed : Bool) : Effect := if allowed then .allow else .deny

/-- The roles decide first; an allowed request is then put to the policy, if there is one. -/
def evaluateAuthorizationSubjects (rbacSpec : RBACManifestSpec)
    (policySpec : Option PolicyManifestSpec) (subjects : List RBACSubject)
    (resource action : String) (input : Value.Fields) :
    Except Fault EvaluateAuthorizationResponse := do
  let (rbacAllowed, roles, rbacMatches) ←
    evaluateRBACSubjects cm rbacSpec subjects resource action
  let response : EvaluateAuthorizationResponse :=
    { allowed := false
      decision := .deny
      resolvedSubjects := normalizeAuthorizationSubjects cm subjects
      rbac := ⟨rbacAllowed, authorizationRBACDecision rbacAllowed, roles, rbacMatches⟩ }
  if !rbacAllowed then .ok response
  else
    let response := { response with allowed := true, decision := .allow }
    match policySpec with
    | none => .ok response
    | some policySpec => do
      let (policyAllowed, policyDecision, policyMatches) ← evaluatePolicy cm regexp policySpec
        resource action (authorizationPolicyInput response.resolvedSubjects input)
      let response :=
        { response with policy := some ⟨policyAllowed, policyDecision, policyMatches⟩ }
      match policyDecision with
      | .allow | .notApplicable => .ok response
      | .deny => .ok { response with allowed := false, decision := .deny }

/-! ## What is decided -/

/-- The rules of an optional policy. -/
def policyRules (policySpec : Option PolicyManifestSpec) : List PolicyRule :=
  policySpec.elim [] (·.rules)

/-- A denying rule of the policy applies. -/
def PolicyDenies (policySpec : Option PolicyManifestSpec) (subjects : List RBACSubject)
    (resource action : String) (input : Value.Fields) : Prop :=
  ∃ rule ∈ policyRules policySpec, rule.Applies cm regexp (trimSpace resource)
    (trimSpace action) (authorizationPolicyInput (normalizedSubjects cm subjects) input) .deny

/-- An allowing rule is reached, no denying one is, and no denying rule of the policy applies. -/
def Allows (rbacSpec : RBACManifestSpec) (policySpec : Option PolicyManifestSpec)
    (subjects : List RBACSubject) (resource action : String) (input : Value.Fields) : Prop :=
  Reaches cm rbacSpec subjects resource action .allow ∧
    ¬ Reaches cm rbacSpec subjects resource action .deny ∧
    ¬ PolicyDenies cm regexp policySpec subjects resource action input

section

variable {cm regexp} {rbacSpec : RBACManifestSpec} {policySpec : Option PolicyManifestSpec}
  {subjects : List RBACSubject} {resource action : String} {input : Value.Fields}

/-- A decision succeeds when the roles can be evaluated, and then the policy, if it is asked. -/
theorem exists_evaluateAuthorizationSubjects :
    (∃ response, evaluateAuthorizationSubjects cm regexp rbacSpec policySpec subjects resource
        action input = .ok response) ↔
      Evaluable cm rbacSpec subjects resource action ∧
      (Reaches cm rbacSpec subjects resource action .allow ∧
          ¬ Reaches cm rbacSpec subjects resource action .deny →
        ∀ policy, policySpec = some policy →
          ∃ result, evaluatePolicy cm regexp policy resource action
            (authorizationPolicyInput (normalizedSubjects cm subjects) input) = .ok result) := by
  constructor
  · rintro ⟨response, h⟩
    rw [evaluateAuthorizationSubjects, bind_eq_ok] at h
    obtain ⟨⟨allowed, roles, found⟩, hrbac, h⟩ := h
    refine ⟨(evaluateRBACSubjects_eq_ok.1 hrbac).1, ?_⟩
    rintro hreach policy rfl
    have hallowed : allowed = true := (allowed_iff_reaches hrbac).2 hreach
    subst hallowed
    obtain ⟨result, hresult, -⟩ := bind_eq_ok.1 h
    exact ⟨result, hresult⟩
  · rintro ⟨hrbac, hpolicy⟩
    obtain ⟨⟨allowed, roles, found⟩, hrbac⟩ := exists_evaluateRBACSubjects.2 hrbac
    have hreach := allowed_iff_reaches hrbac
    simp only [evaluateAuthorizationSubjects, bind_eq_ok]
    cases allowed with
    | false => exact ⟨_, _, hrbac, rfl⟩
    | true =>
      cases policySpec with
      | none => exact ⟨_, _, hrbac, rfl⟩
      | some policy =>
        obtain ⟨⟨allowed, decision, found⟩, hresult⟩ := hpolicy (hreach.1 rfl) policy rfl
        cases decision <;> exact ⟨_, _, hrbac, bind_eq_ok.2 ⟨_, hresult, rfl⟩⟩

/-- A decision allows exactly when the roles and the policy do. -/
theorem allowed_iff_allows {response : EvaluateAuthorizationResponse}
    (h : evaluateAuthorizationSubjects cm regexp rbacSpec policySpec subjects resource action
      input = .ok response) :
    response.allowed = true ↔
      Allows cm regexp rbacSpec policySpec subjects resource action input := by
  rw [evaluateAuthorizationSubjects, bind_eq_ok] at h
  obtain ⟨⟨allowed, roles, found⟩, hrbac, h⟩ := h
  have hreach := allowed_iff_reaches hrbac
  rw [Allows, ← and_assoc, ← hreach]
  cases allowed with
  | false =>
    cases h
    simp
  | true =>
    cases policySpec with
    | none =>
      cases h
      simp [PolicyDenies, policyRules]
    | some policy =>
      obtain ⟨⟨allowed, decision, found⟩, hpolicy, h⟩ := bind_eq_ok.1 h
      have hdeny : decision = .deny ↔ PolicyDenies cm regexp (some policy) subjects resource action
          input := evaluatePolicy_deny_iff hpolicy
      rw [← hdeny]
      cases decision <;> cases h <;> simp

end

/-! ## Rearranged requests -/

/-- The same elements, in another order or with repetitions. -/
def Rearranged {α : Type} (l l' : List α) : Prop := ∀ x, x ∈ l ↔ x ∈ l'

/-- Every element of each list is related to one of the other. -/
def Matched {α : Type} (R : α → α → Prop) (l l' : List α) : Prop :=
  (∀ x ∈ l, ∃ y ∈ l', R x y) ∧ ∀ y ∈ l', ∃ x ∈ l, R x y

/-- The role with its rules in another order. -/
def RBACRole.Rearranged (role role' : RBACRole) : Prop :=
  role.name = role'.name ∧ Manifest.Rearranged role.rules role'.rules

/-- The binding with its lists in another order. -/
def RBACBinding.Rearranged (binding binding' : RBACBinding) : Prop :=
  binding.name = binding'.name ∧ Manifest.Rearranged binding.subjects binding'.subjects ∧
    Manifest.Rearranged binding.roles binding'.roles

/-- The manifest with its lists in another order. -/
def RBACManifestSpec.Rearranged (spec spec' : RBACManifestSpec) : Prop :=
  Matched RBACRole.Rearranged spec.roles spec'.roles ∧
    Matched RBACBinding.Rearranged spec.bindings spec'.bindings

/-- A path goes through the subject or the subjects, or takes the whole input. -/
def readsSubject : List String → Bool
  | [] => false
  | root :: rest =>
    root = "subject" || root = "subjects" || (root = "input" && rest.head?.all (· = "subject"))

/-- The paths that the conditions of a policy look up, as segments. -/
def PolicyManifestSpec.paths (policy : PolicyManifestSpec) : List (List String) :=
  policy.rules.flatMap fun rule => rule.conditions.flatMap fun condition =>
    (condition.key :: (policyReference condition.value).toList).map
      fun path => split (trimSpace path) '.'

/-- The same rules with denying ones added. -/
def RBACRole.Hardened (role role' : RBACRole) : Prop :=
  role.name = role'.name ∧ (∀ rule ∈ role.rules, rule ∈ role'.rules) ∧
    ∀ rule ∈ role'.rules, rule ∈ role.rules ∨ normalizeEffect cm rule.effect = "deny"

/-- The manifest with rules that deny added. -/
def RBACManifestSpec.Hardened (spec spec' : RBACManifestSpec) : Prop :=
  Matched (RBACRole.Hardened cm) spec.roles spec'.roles ∧ spec'.bindings = spec.bindings

/-- The same rules with denying ones added. -/
def PolicyHardened (policy policy' : Option PolicyManifestSpec) : Prop :=
  (∀ rule ∈ policyRules policy, rule ∈ policyRules policy') ∧
    ∀ rule ∈ policyRules policy',
      rule ∈ policyRules policy ∨ normalizeEffect cm rule.effect = "deny"

section

variable {cm regexp} {spec spec' : RBACManifestSpec} {policy policy' : Option PolicyManifestSpec}
  {subjects subjects' : List RBACSubject} {resource action : String} {input : Value.Fields}
  {effect : Effect}

theorem Rearranged.symm {α : Type} {l l' : List α} (h : Rearranged l l') : Rearranged l' l :=
  fun x => (h x).symm

theorem Matched.symm {α : Type} {R : α → α → Prop} (hR : ∀ x y, R x y → R y x) {l l' : List α}
    (h : Matched R l l') : Matched R l' l := by
  refine ⟨fun y hy => ?_, fun x hx => ?_⟩
  · obtain ⟨x, hx, hxy⟩ := h.2 y hy
    exact ⟨x, hx, hR x y hxy⟩
  · obtain ⟨y, hy, hxy⟩ := h.1 x hx
    exact ⟨y, hy, hR x y hxy⟩

theorem RBACManifestSpec.Rearranged.symm (h : spec.Rearranged spec') : spec'.Rearranged spec :=
  ⟨h.1.symm fun _ _ h => ⟨h.1.symm, h.2.symm⟩,
    h.2.symm fun _ _ h => ⟨h.1.symm, h.2.1.symm, h.2.2.symm⟩⟩

theorem normalizedSubjects_rearranged (h : Rearranged subjects subjects') :
    Rearranged (normalizedSubjects cm subjects) (normalizedSubjects cm subjects') := by
  intro subject
  simp only [mem_normalizedSubjects, h _]

theorem Reaches.rearranged (hspec : spec.Rearranged spec')
    (hsubjects : Rearranged subjects subjects')
    (h : Reaches cm spec subjects resource action effect) :
    Reaches cm spec' subjects' resource action effect := by
  obtain ⟨subject, hsubject, binding, hbinding, hmatch, roleName, hname, role, hrole, heq, rule,
    hrule, happlies⟩ := h
  obtain ⟨binding', hbinding', hb⟩ := hspec.2.1 binding hbinding
  obtain ⟨role', hrole', hr⟩ := hspec.1.1 role hrole
  obtain ⟨candidate, hcandidate, hmatch⟩ := List.any_eq_true.1 hmatch
  have hmatch' : bindingMatchesSubject cm binding' subject = true :=
    List.any_eq_true.2 ⟨candidate, (hb.2.1 candidate).1 hcandidate, hmatch⟩
  exact ⟨subject, (normalizedSubjects_rearranged hsubjects subject).1 hsubject, binding',
    hbinding', hmatch', roleName, (hb.2.2 roleName).1 hname, role', hrole', hr.1 ▸ heq, rule,
    (hr.2 rule).1 hrule, happlies⟩

/-! ## Policies that do not read the subjects -/

theorem lookup_policyInput_of_ne {k : String} (hsubject : k ≠ "subject")
    (hsubjects : k ≠ "subjects") (hinput : k ≠ "input") :
    (authorizationPolicyInput subjects input).lookup k = input.lookup k := by
  unfold authorizationPolicyInput
  rcases subjects with _ | ⟨subject, rest⟩
  · simp [apply_ite (List.lookup k), Value.Fields.lookup_set, hsubjects, hinput]
  · dsimp only
    split <;>
      simp [apply_ite (List.lookup k), Value.Fields.lookup_set, hsubject, hsubjects, hinput]

/-- The input under its own key: the caller's, or a copy that differs at the subject only. -/
theorem lookup_policyInput_input (subjects : List RBACSubject) (input : Value.Fields) :
    (∀ v, input.lookup "input" = some v →
      (authorizationPolicyInput subjects input).lookup "input" = some v) ∧
    (input.lookup "input" = none → ∃ copy : Value.Fields,
      (authorizationPolicyInput subjects input).lookup "input" = some (.map copy) ∧
        ∀ k ≠ "subject", copy.lookup k = input.lookup k) := by
  unfold authorizationPolicyInput
  constructor
  · intro v hv
    rcases subjects with _ | ⟨subject, rest⟩
    · simp [apply_ite (List.lookup "input"), Value.Fields.lookup_set, hv]
    · dsimp only
      split <;> simp [apply_ite (List.lookup "input"), Value.Fields.lookup_set, hv]
  · intro hnone
    rcases subjects with _ | ⟨subject, rest⟩
    · simp [apply_ite (List.lookup "input"), Value.Fields.lookup_set, hnone]
    · dsimp only
      split <;> simp +contextual [apply_ite (List.lookup "input"), Value.Fields.lookup_set, hnone]

/-- A path that does not read the subjects leads to the same value for any subjects. -/
theorem walkPath_policyInput {segments : List String} (h : readsSubject segments = false)
    (hne : segments ≠ []) :
    walkPath (.map (authorizationPolicyInput subjects input)) segments =
      walkPath (.map (authorizationPolicyInput subjects' input)) segments := by
  obtain ⟨root, rest, rfl⟩ := List.exists_cons_of_ne_nil hne
  simp only [readsSubject, Bool.or_eq_false_iff, decide_eq_false_iff_not] at h
  obtain ⟨⟨hsubject, hsubjects⟩, hwhole⟩ := h
  simp only [walkPath]
  by_cases hinput : root = "input"
  · subst hinput
    cases hcaller : input.lookup "input" with
    | some v =>
      rw [(lookup_policyInput_input subjects input).1 v hcaller,
        (lookup_policyInput_input subjects' input).1 v hcaller]
    | none =>
      obtain ⟨copy, hcopy, hsame⟩ := (lookup_policyInput_input subjects input).2 hcaller
      obtain ⟨copy', hcopy', hsame'⟩ := (lookup_policyInput_input subjects' input).2 hcaller
      rw [hcopy, hcopy']
      cases rest with
      | nil => simp at hwhole
      | cons next rest =>
        have hnext : next ≠ "subject" := by simpa using hwhole
        simp only [Option.bind_some, walkPath, hsame next hnext, hsame' next hnext]
  · rw [lookup_policyInput_of_ne hsubject hsubjects hinput,
      lookup_policyInput_of_ne hsubject hsubjects hinput]

section

variable {p : PolicyManifestSpec} {rule : PolicyRule}
  (hpaths : ∀ path ∈ p.paths, readsSubject path = false) (hrule : rule ∈ p.rules)

include hpaths hrule

/-- A condition of a policy that does not read the subjects does not depend on them. -/
theorem evaluate_policyInput {condition : PolicyCondition}
    (hcondition : condition ∈ rule.conditions) :
    condition.evaluate cm regexp (authorizationPolicyInput subjects input) =
      condition.evaluate cm regexp (authorizationPolicyInput subjects' input) := by
  have hlookup (path : String)
      (hpath : path ∈ condition.key :: (policyReference condition.value).toList) :
      lookupPath (authorizationPolicyInput subjects input) path =
        lookupPath (authorizationPolicyInput subjects' input) path := by
    refine walkPath_policyInput (hpaths _ ?_) ?_
    · exact List.mem_flatMap.2 ⟨rule, hrule, List.mem_flatMap.2 ⟨condition, hcondition,
        List.mem_map.2 ⟨path, hpath, rfl⟩⟩⟩
    · rw [split, ne_eq, List.map_eq_nil_iff]
      exact List.splitOn_ne_nil _ _
  have hvalue : resolvePolicyValue (authorizationPolicyInput subjects input) condition.value =
      resolvePolicyValue (authorizationPolicyInput subjects' input) condition.value := by
    rw [resolvePolicyValue, resolvePolicyValue]
    cases href : policyReference condition.value with
    | none => rfl
    | some path => simp only [hlookup path (by simp [href])]
  rw [PolicyCondition.evaluate, PolicyCondition.evaluate,
    hlookup condition.key List.mem_cons_self, hvalue]

end

section

variable (hpolicy : Rearranged (policyRules policy) (policyRules policy'))
  (hpaths : ∀ p, policy = some p → ∀ path ∈ p.paths, readsSubject path = false)

include hpolicy hpaths

theorem PolicyDenies.rearranged (h : PolicyDenies cm regexp policy subjects resource action input) :
    PolicyDenies cm regexp policy' subjects' resource action input := by
  obtain ⟨rule, hrule, happlies⟩ := h
  refine ⟨rule, (hpolicy rule).1 hrule, ?_⟩
  cases policy with
  | none => simp [policyRules] at hrule
  | some p =>
    refine ⟨happlies.1, fun condition hcondition => ?_, happlies.2.2⟩
    rw [← happlies.2.1 condition hcondition]
    exact evaluate_policyInput (hpaths p rfl) hrule hcondition

/-- The paths of a policy depend on the set of its rules only. -/
theorem paths_rearranged :
    ∀ p, policy' = some p → ∀ path ∈ p.paths, readsSubject path = false := by
  rintro p rfl path hpath
  obtain ⟨rule, hrule, hpath⟩ := List.mem_flatMap.1 hpath
  have hrule' : rule ∈ policyRules policy := (hpolicy rule).2 hrule
  cases policy with
  | none => simp [policyRules] at hrule'
  | some p => exact hpaths p rfl path (List.mem_flatMap.2 ⟨rule, hrule', hpath⟩)

variable (hspec : spec.Rearranged spec') (hsubjects : Rearranged subjects subjects')

include hspec hsubjects

theorem Allows.rearranged (h : Allows cm regexp spec policy subjects resource action input) :
    Allows cm regexp spec' policy' subjects' resource action input :=
  ⟨h.1.rearranged hspec hsubjects,
    fun hdeny => h.2.1 (hdeny.rearranged hspec.symm hsubjects.symm),
    fun hdeny => h.2.2 (hdeny.rearranged hpolicy.symm (paths_rearranged hpolicy hpaths))⟩

/-- A rearranged request that is valid is decided when the request is. -/
theorem exists_response_rearranged
    (h : ∃ response, evaluateAuthorizationSubjects cm regexp spec policy subjects resource action
      input = .ok response)
    (hvalid : validateRBACSpec cm spec' = .ok ())
    (hvalid' : ∀ p, policy' = some p → validatePolicySpec cm p = .ok ()) :
    ∃ response, evaluateAuthorizationSubjects cm regexp spec' policy' subjects' resource action
      input = .ok response := by
  rw [exists_evaluateAuthorizationSubjects] at h ⊢
  obtain ⟨⟨-, hresource, haction, hne⟩, hasked⟩ := h
  obtain ⟨subject, hsubject⟩ := List.exists_mem_of_ne_nil _ hne
  have hne' := List.ne_nil_of_mem ((normalizedSubjects_rearranged hsubjects subject).1 hsubject)
  refine ⟨⟨hvalid, hresource, haction, hne'⟩, ?_⟩
  rintro ⟨hallow, hdeny⟩ p rfl
  rw [exists_evaluatePolicy]
  refine ⟨hvalid' p rfl, ⟨hresource, haction⟩, fun rule hrule => ?_⟩
  have hrule' : rule ∈ policyRules policy := (hpolicy rule).2 hrule
  cases policy with
  | none => simp [policyRules] at hrule'
  | some q =>
    have hasked := hasked ⟨hallow.rearranged hspec.symm hsubjects.symm,
      fun h => hdeny (h.rearranged hspec hsubjects)⟩ q rfl
    rw [exists_evaluatePolicy] at hasked
    exact fun hconcerns => exists_evaluatePolicyConditions
      (fun condition => evaluate_policyInput (hpaths q rfl) hrule')
      (hasked.2.2 rule hrule' hconcerns)

end

/-! ## Added denying rules -/

/-- An allowing rule that is reached with denying rules added is reached without them. -/
theorem Reaches.allow_of_hardened (h : spec.Hardened cm spec')
    (hreach : Reaches cm spec' subjects resource action .allow) :
    Reaches cm spec subjects resource action .allow := by
  obtain ⟨subject, hsubject, binding, hbinding, hmatch, roleName, hname, role', hrole', heq, rule,
    hrule, happlies⟩ := hreach
  obtain ⟨role, hrole, hname', -, hrules⟩ := h.1.2 role' hrole'
  rw [h.2] at hbinding
  rcases hrules rule hrule with hrule | hdeny
  · exact ⟨subject, hsubject, binding, hbinding, hmatch, roleName, hname, role, hrole,
      hname' ▸ heq, rule, hrule, happlies⟩
  · exact absurd (happlies.2.symm.trans hdeny) (by decide)

/-- A denying rule that is reached stays reached when denying rules are added. -/
theorem Reaches.deny_hardened (h : spec.Hardened cm spec')
    (hreach : Reaches cm spec subjects resource action .deny) :
    Reaches cm spec' subjects resource action .deny := by
  obtain ⟨subject, hsubject, binding, hbinding, hmatch, roleName, hname, role, hrole, heq, rule,
    hrule, happlies⟩ := hreach
  obtain ⟨role', hrole', hname', hrules, -⟩ := h.1.1 role hrole
  rw [← h.2] at hbinding
  exact ⟨subject, hsubject, binding, hbinding, hmatch, roleName, hname, role', hrole',
    hname' ▸ heq, rule, hrules rule hrule, happlies⟩

theorem Allows.of_hardened (hspec : spec.Hardened cm spec')
    (hpolicy : PolicyHardened cm policy policy')
    (h : Allows cm regexp spec' policy' subjects resource action input) :
    Allows cm regexp spec policy subjects resource action input := by
  refine ⟨h.1.allow_of_hardened hspec, fun hdeny => h.2.1 (hdeny.deny_hardened hspec), ?_⟩
  rintro ⟨rule, hrule, happlies⟩
  exact h.2.2 ⟨rule, hpolicy.1 rule hrule, happlies⟩

/-- A decision allows exactly when an allowing rule is reached, no denying one is and no denying
    rule of the policy applies; it is the same with everything rearranged, when the policy does not
    read the subjects; and denying rules never turn it to allow. -/
theorem authorization_decision {response : EvaluateAuthorizationResponse}
    (h : evaluateAuthorizationSubjects cm regexp spec policy subjects resource action input =
      .ok response) :
    (response.allowed = true ↔ Allows cm regexp spec policy subjects resource action input) ∧
    (∀ spec' policy' subjects', validateRBACSpec cm spec' = .ok () →
      (∀ p, policy' = some p → validatePolicySpec cm p = .ok ()) →
      spec.Rearranged spec' → Rearranged (policyRules policy) (policyRules policy') →
      Rearranged subjects subjects' →
      (∀ p, policy = some p → ∀ path ∈ p.paths, readsSubject path = false) →
      ∃ response', evaluateAuthorizationSubjects cm regexp spec' policy' subjects' resource action
        input = .ok response' ∧ response'.allowed = response.allowed) ∧
    (∀ spec' policy' response', spec.Hardened cm spec' → PolicyHardened cm policy policy' →
      evaluateAuthorizationSubjects cm regexp spec' policy' subjects resource action input =
        .ok response' → response.allowed = false → response'.allowed = false) := by
  refine ⟨allowed_iff_allows h, ?_, ?_⟩
  · intro spec' policy' subjects' hvalid hvalid' hspec hpolicy hsubjects hpaths
    obtain ⟨response', h'⟩ := exists_response_rearranged hpolicy hpaths hspec hsubjects
      ⟨response, h⟩ hvalid hvalid'
    refine ⟨response', h', ?_⟩
    rw [Bool.eq_iff_iff, allowed_iff_allows h, allowed_iff_allows h']
    constructor
    · exact Allows.rearranged hpolicy.symm (paths_rearranged hpolicy hpaths) hspec.symm
        hsubjects.symm
    · exact Allows.rearranged hpolicy hpaths hspec hsubjects
  · intro spec' policy' response' hspec hpolicy h' hdenied
    rw [← Bool.not_eq_true, allowed_iff_allows h] at hdenied
    rw [← Bool.not_eq_true, allowed_iff_allows h']
    exact fun hallows => hdenied (hallows.of_hardened hspec hpolicy)

end

/-! ## A request on behalf of a team -/

namespace Sample

/-- No regular expression matches. -/
def noRegexp : String → String → Except Fault Bool := fun _ _ => .ok false

/-- A collaborator. -/
def ana : RBACSubject := ⟨"collaborator", "ana"⟩

/-- A team. -/
def platform : RBACSubject := ⟨"team", "platform"⟩

/-- The team may run workflows. -/
def rbac : RBACManifestSpec where
  roles := [{ name := "runner", rules := [{ resources := ["workflow:*"], actions := ["run"] }] }]
  bindings := [{ name := "platform", subjects := [platform], roles := ["runner"] }]

/-- Denies what the condition holds of. -/
def denying (key : String) (value : String) : PolicyManifestSpec where
  rules := [{ name := "guard", effect := "deny", resources := ["workflow:*"], actions := ["run"],
              conditions := [{ key, operator := "eq", value := .str value }] }]

/-- Asks to run a workflow for the subjects, with a subject of the input that is empty. -/
def request (policy : PolicyManifestSpec) (subjects : List RBACSubject) :
    Except Fault EvaluateAuthorizationResponse :=
  evaluateAuthorizationSubjects ascii noRegexp rbac (some policy) subjects "workflow:deploy"
    "run" [("environment", .str "validation"), ("subject", .map [])]

end Sample

theorem sample_authorization_decision :
    ∃ response, Sample.request (Sample.denying "input.environment" "production")
        [Sample.ana, Sample.platform] = .ok response ∧
      Allows ascii Sample.noRegexp Sample.rbac
        (some (Sample.denying "input.environment" "production")) [Sample.ana, Sample.platform]
        "workflow:deploy" "run" [("environment", .str "validation"), ("subject", .map [])] := by
  have h : (Sample.request (Sample.denying "input.environment" "production")
      [Sample.ana, Sample.platform]).map (·.allowed) = .ok true := by decide +kernel
  obtain ⟨response, hresponse, hallowed⟩ := map_eq_ok.1 h
  exact ⟨response, hresponse, (authorization_decision hresponse).1.1 hallowed⟩

/-- The decision does not depend on the order of subjects that the policy does not look up. -/
def DecisionUnchanged : Prop :=
  ∀ cm regexp spec policy subjects subjects' resource action input response response',
    Rearranged subjects subjects' →
    (∀ p, policy = some p → ∀ path ∈ p.paths,
      path.head? ≠ some "subject" ∧ path.head? ≠ some "subjects") →
    evaluateAuthorizationSubjects cm regexp spec policy subjects resource action input =
      .ok response →
    evaluateAuthorizationSubjects cm regexp spec policy subjects' resource action input =
      .ok response' →
    response.allowed = response'.allowed

/-- Two orders of the same subjects, seen by the policy as the type of `input.subject`. -/
theorem not_decisionUnchanged : ¬ DecisionUnchanged := by
  intro h
  have hallow : (Sample.request (Sample.denying "input.subject.type" "team")
      [Sample.ana, Sample.platform]).map (·.allowed) = .ok true := by decide +kernel
  have hdeny : (Sample.request (Sample.denying "input.subject.type" "team")
      [Sample.platform, Sample.ana]).map (·.allowed) = .ok false := by decide +kernel
  obtain ⟨response, hresponse, hallowed⟩ := map_eq_ok.1 hallow
  obtain ⟨response', hresponse', hdenied⟩ := map_eq_ok.1 hdeny
  have heq := h ascii Sample.noRegexp Sample.rbac _ _ _ _ _ _ response response'
    (fun x => by simp [or_comm]) (by rintro p ⟨⟩; decide +kernel) hresponse hresponse'
  rw [hallowed, hdenied] at heq
  cases heq

end Yggdrasil.Manifest
