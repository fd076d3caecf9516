import Yggdrasil.Manifest.Rbac

/-!
# Policies

A policy refines a decision by rules with conditions on the input of a request. All rules that match
are evaluated, and one that denies outweighs the others. Regular expressions are matched by a
parameter `regexp`, of which nothing is assumed.
-/

namespace Yggdrasil.Manifest

open Check Text

/-- A condition on a value of the input. -/
structure PolicyCondition where
  key : String
  operator : String
  value : Value := .nil

/-- A rule for what it matches, under its conditions. -/
structure PolicyRule where
  name : String
  description : String := ""
  effect : String := ""
  resources : List String
  actions : List String
  conditions : List PolicyCondition := []

/-- The rules of a policy. -/
structure PolicyManifestSpec where
  rules : List PolicyRule

/-- A condition that has held. -/
structure PolicyConditionMatch where
  key : String
  operator : String
  expected : Value
  actual : Value

/-- A rule that has applied. -/
structure PolicyRuleMatch where
  name : String
  effect : String
  description : String
  resources : List String
  actions : List String
  conditions : List PolicyConditionMatch

/-- What a policy decides. -/
inductive PolicyDecision
  | allow
  | deny
  | notApplicable

/-- The operators of conditions. -/
def supportedPolicyOperators : List String :=
  ["eq", "neq", "gt", "gte", "lt", "lte", "in", "not_in", "contains", "exists", "matches"]

/-! ## Values in the input -/

/-- The value at the end of a path, which goes through maps by key and lists by index. -/
def walkPath : Value → List String → Option Value
  | current, [] => some current
  | current, segment :: rest =>
    if segment = "" then none
    else
      match current with
      | .map fields => (fields.lookup segment).bind (walkPath · rest)
      | .list items =>
        match atoi segment with
        | some index =>
          if 0 ≤ index then (items[index.toNat]?).bind (walkPath · rest) else none
        | none => none
      | _ => none

/-- The value at a dotted path. -/
def lookupPath (input : Value.Fields) (dotted : String) : Option Value :=
  walkPath (.map input) (split (trimSpace dotted) '.')

/-- The path that a condition's value refers to, if it does. -/
def policyReference : Value → Option String
  | .map fields =>
    match fields.lookup "$ref" with
    | some (.str path) => some path
    | _ => none
  | _ => none

/-- A reference to the input is replaced by what it refers to. -/
def resolvePolicyValue (input : Value.Fields) (value : Value) : Value :=
  match policyReference value with
  | some path => (lookupPath input path).getD .nil
  | none => value

/-- The double-precision number nearest to an integer, with ties to the even one. -/
def float64 (z : ℤ) : ℚ :=
  let m := z.natAbs
  let e := Nat.log2 m + 1 - 53
  let q := m / 2 ^ e
  let twice := 2 * (m % 2 ^ e)
  let q := if 2 ^ e < twice ∨ (twice = 2 ^ e ∧ q % 2 = 1) then q + 1 else q
  z.sign * (q * 2 ^ e : ℕ)

/-- The number that a value is. -/
def toFloat : Value → Option ℚ
  | .float q => some q
  | .int _ z => some (float64 z)
  | _ => none

/-- Equality of two numbers of any types, or of two values of one type. -/
def compareEqual (left right : Value) : Bool :=
  match toFloat left, toFloat right with
  | some l, some r => l = r
  | _, _ => left.deepEqual right

/-- A text contains another one, or a list an element. -/
def containsValue (actual expected : Value) : Bool :=
  match actual, expected with
  | .str s, .str t => contains s t
  | .list items, _ => items.any (compareEqual · expected)
  | _, _ => false

/-! ## Conditions -/

variable (cm : CaseMap) (regexp : String → String → Except Fault Bool)

/-- Operators are compared in lower case. -/
def normalizeOperator (operator : String) : String := toLower cm (trimSpace operator)

/-- The comparison of two numbers that an operator asks for. -/
def compareNumbers (operator : String) (actual expected : ℚ) : Bool :=
  if operator = "gt" then expected < actual
  else if operator = "gte" then expected ≤ actual
  else if operator = "lt" then actual < expected
  else actual ≤ expected

/-- Whether the operator holds of the values. -/
def policyConditionMatches (operator : String) (actual : Value) (found : Bool)
    (expected : Value) : Except Fault Bool :=
  if operator = "exists" then
    match expected with
    | .nil => .ok (found = true)
    | .bool want => .ok (found = want)
    | _ => .error (.errorf "exists operator expects boolean value" [])
  else if operator = "eq" then .ok (compareEqual actual expected)
  else if operator = "neq" then .ok (!compareEqual actual expected)
  else if operator ∈ ["gt", "gte", "lt", "lte"] then
    match toFloat actual, toFloat expected with
    | none, _ => .ok false
    | some _, none => .error (.errorf "%s operator expects numeric value" [.text operator])
    | some a, some e => .ok (compareNumbers operator a e)
  else if operator ∈ ["in", "not_in"] then
    match expected with
    | .list items =>
      let found := items.any (compareEqual actual ·)
      .ok (if operator = "in" then found else !found)
    | _ => .error (.errorf "%s operator expects array value" [.text operator])
  else if operator = "contains" then .ok (containsValue actual expected)
  else if operator = "matches" then
    match actual, expected with
    | .str a, .str e =>
      match Glob.pathMatch e a with
      | some matched => .ok matched
      | none => regexp e a
    | .str _, _ => .error (.errorf "matches operator expects string value" [])
    | _, _ => .ok false
  else .error (.errorf "unsupported operator %q" [.quoted operator])

/-- Whether the condition holds of the input. -/
def PolicyCondition.evaluate (input : Value.Fields) (condition : PolicyCondition) :
    Except Fault Bool :=
  let actual := lookupPath input condition.key
  policyConditionMatches regexp (normalizeOperator cm condition.operator) (actual.getD .nil)
    actual.isSome (resolvePolicyValue input condition.value)

/-- The conditions with what they compared, when all hold. -/
def evaluatePolicyConditions (input : Value.Fields) :
    List PolicyCondition → Except Fault (Option (List PolicyConditionMatch))
  | [] => .ok (some [])
  | condition :: conditions => do
    let ok ← condition.evaluate cm regexp input
    if ok then
      let rest ← evaluatePolicyConditions input conditions
      .ok (rest.map (⟨trimSpace condition.key, normalizeOperator cm condition.operator,
        resolvePolicyValue input condition.value,
        (lookupPath input condition.key).getD .nil⟩ :: ·))
    else .ok none

/-! ## Rules -/

/-- A condition has a key, an operator and a value that fits it. -/
def validatePolicyCondition (condition : PolicyCondition) : Except Fault Unit := do
  require (trimSpace condition.key ≠ "") (.errorf "condition key is required" [])
  let operator := normalizeOperator cm condition.operator
  require (operator ∈ supportedPolicyOperators)
    (.errorf "unsupported operator %q" [.quoted condition.operator])
  require (operator = "exists" || !condition.value.deepEqual .nil)
    (.errorf "condition %q requires value" [.quoted condition.key])

/-- A rule has a new name, an effect and patterns. -/
def validatePolicyRule (seen : List String) (rule : PolicyRule) : Except Fault Unit := do
  let name := trimSpace rule.name
  require (name ≠ "") (.errorf "policy rule name is required" [])
  require (name ∉ seen) (.errorf "policy rule %q is duplicated" [.quoted name])
  let effect := normalizeEffect cm rule.effect
  require (effect = "allow" || effect = "deny")
    (.errorf "policy rule %q has invalid effect %q" [.quoted name, .quoted rule.effect])
  require (!rule.resources.isEmpty)
    (.errorf "policy rule %q requires at least one resource pattern" [.quoted name])
  require (!rule.actions.isEmpty)
    (.errorf "policy rule %q requires at least one action pattern" [.quoted name])
  require (rule.resources.all (trimSpace · ≠ ""))
    (.errorf "policy rule %q contains an empty resource pattern" [.quoted name])
  require (rule.actions.all (trimSpace · ≠ ""))
    (.errorf "policy rule %q contains an empty action pattern" [.quoted name])
  (validateEach (fun _ => ()) (fun _ => validatePolicyCondition cm) [] rule.conditions).mapError
    (.wrap "policy rule %q: %w" [.quoted name])

/-- A policy has rules, which are valid. -/
def validatePolicySpec (spec : PolicyManifestSpec) : Except Fault Unit := do
  require (!spec.rules.isEmpty) (.errorf "policy spec requires at least one rule" [])
  validateEach (fun rule => trimSpace rule.name) (validatePolicyRule cm) [] spec.rules

/-- What the evaluation has found so far. -/
structure PolicyEvaluation where
  matchedRules : List PolicyRuleMatch := []
  allowMatch : Bool := false
  denyMatch : Bool := false

variable (rule : PolicyRule)

/-- The rule is about the resource and the action. -/
def PolicyRule.concerns (resource action : String) : Bool :=
  anyPatternMatch cm rule.resources resource && anyPatternMatch cm rule.actions action

/-- Takes a rule into account. -/
def PolicyEvaluation.addRule (resource action : String) (input : Value.Fields)
    (e : PolicyEvaluation) (rule : PolicyRule) : Except Fault PolicyEvaluation :=
  if rule.concerns cm resource action then do
    let found ← (evaluatePolicyConditions cm regexp input rule.conditions).mapError
      (.wrap "policy rule %q: %w" [.quoted rule.name])
    match found with
    | none => .ok e
    | some conditions =>
      let effect := normalizeEffect cm rule.effect
      .ok { matchedRules := e.matchedRules ++ [⟨trimSpace rule.name, effect,
              trimSpace rule.description, rule.resources, rule.actions, conditions⟩]
            denyMatch := e.denyMatch || effect = "deny"
            allowMatch := e.allowMatch || effect = "allow" }
  else .ok e

/-- A rule that denies outweighs those that allow. -/
def PolicyEvaluation.verdict (e : PolicyEvaluation) :
    Bool × PolicyDecision × List PolicyRuleMatch :=
  if e.denyMatch then (false, .deny, e.matchedRules)
  else if e.allowMatch then (true, .allow, e.matchedRules)
  else (false, .notApplicable, e.matchedRules)

/-- Whether the policy allows, denies or does not apply, with the rules that were found. -/
def evaluatePolicy (spec : PolicyManifestSpec) (resource action : String)
    (input : Value.Fields) : Except Fault (Bool × PolicyDecision × List PolicyRuleMatch) := do
  validatePolicySpec cm spec
  let resource := trimSpace resource
  let action := trimSpace action
  require (!(resource = "" || action = "")) (.errorf "resource and action are required" [])
  let e ← spec.rules.foldlM (PolicyEvaluation.addRule cm regexp resource action input) {}
  .ok e.verdict

/-! ## What the evaluation decides -/

/-- The conditions all hold of the input. -/
def PolicyRule.Holds (input : Value.Fields) : Prop :=
  ∀ condition ∈ rule.conditions, condition.evaluate cm regexp input = .ok true

/-- The rule matches the resource and the action, its conditions hold, and it has the effect. -/
def PolicyRule.Applies (resource action : String) (input : Value.Fields) (effect : Effect) : Prop :=
  rule.concerns cm resource action = true ∧ rule.Holds cm regexp input ∧
    normalizeEffect cm rule.effect = effect.text

/-- The conditions of a rule that matches the resource and the action can be evaluated. -/
def PolicyRule.Evaluable (resource action : String) (input : Value.Fields) : Prop :=
  rule.concerns cm resource action = true →
    ∃ found, evaluatePolicyConditions cm regexp input rule.conditions = .ok found

/-- Whether a rule of the effect has been found. -/
def PolicyEvaluation.found (effect : Effect) (e : PolicyEvaluation) : Bool :=
  match effect with
  | .allow => e.allowMatch
  | .deny => e.denyMatch

variable {cm regexp} {resource action : String} {input : Value.Fields}
  {conditions : List PolicyCondition} {result : Bool × PolicyDecision × List PolicyRuleMatch}

instance (rule : PolicyRule) : Decidable (rule.Holds cm regexp input) :=
  inferInstanceAs (Decidable (∀ _ ∈ _, _))

instance (rule : PolicyRule) (effect : Effect) :
    Decidable (rule.Applies cm regexp resource action input effect) :=
  inferInstanceAs (Decidable (_ ∧ _ ∧ _))

/-- Conditions that could be evaluated are found to hold exactly when they do. -/
theorem isSome_of_evaluatePolicyConditions {found : Option (List PolicyConditionMatch)}
    (h : evaluatePolicyConditions cm regexp input conditions = .ok found) :
    found.isSome = true ↔
      ∀ condition ∈ conditions, condition.evaluate cm regexp input = .ok true := by
  induction conditions generalizing found with
  | nil =>
    cases h
    simp
  | cons condition conditions ih =>
    rw [evaluatePolicyConditions, bind_eq_ok] at h
    obtain ⟨ok, hok, h⟩ := h
    rw [List.forall_mem_cons, hok]
    cases ok with
    | false =>
      cases h
      simp
    | true =>
      rw [if_pos rfl, bind_eq_ok] at h
      obtain ⟨rest, hrest, h⟩ := h
      cases h
      rw [Option.isSome_map, ih hrest]
      simp

/-- Whether conditions can be evaluated depends on what each of them evaluates to. -/
theorem exists_evaluatePolicyConditions {input' : Value.Fields}
    (h : ∀ condition ∈ conditions,
      condition.evaluate cm regexp input = condition.evaluate cm regexp input')
    (hfound : ∃ found, evaluatePolicyConditions cm regexp input conditions = .ok found) :
    ∃ found, evaluatePolicyConditions cm regexp input' conditions = .ok found := by
  induction conditions with
  | nil => exact ⟨_, rfl⟩
  | cons condition conditions ih =>
    rw [List.forall_mem_cons] at h
    obtain ⟨found, hfound⟩ := hfound
    obtain ⟨ok, hok, hrest⟩ := bind_eq_ok.1 hfound
    rw [h.1] at hok
    cases ok with
    | false => exact ⟨none, bind_eq_ok.2 ⟨false, hok, rfl⟩⟩
    | true =>
      obtain ⟨rest, hrest, -⟩ := bind_eq_ok.1 hrest
      obtain ⟨rest', hrest'⟩ := ih h.2 ⟨rest, hrest⟩
      exact ⟨_, bind_eq_ok.2 ⟨true, hok, bind_eq_ok.2 ⟨rest', hrest', rfl⟩⟩⟩

theorem found_addRule_policy {effect : Effect} (e : PolicyEvaluation) (rule : PolicyRule)
    (e' : PolicyEvaluation) (h : e.addRule cm regexp resource action input rule = .ok e') :
    e'.found effect =
      (e.found effect || decide (rule.Applies cm regexp resource action input effect)) := by
  rw [PolicyEvaluation.addRule] at h
  split at h
  next hconcerns =>
    rw [bind_eq_ok] at h
    obtain ⟨found, hfound, h⟩ := h
    have hholds : found.isSome = true ↔ rule.Holds cm regexp input :=
      isSome_of_evaluatePolicyConditions (mapError_eq_ok.1 hfound)
    cases found with
    | none =>
      cases h
      have : ¬ rule.Holds cm regexp input := fun hall => by simpa using hholds.2 hall
      simp [PolicyRule.Applies, this]
    | some conditions =>
      cases h
      have : rule.Holds cm regexp input := hholds.1 rfl
      cases effect <;>
        simp [PolicyEvaluation.found, PolicyRule.Applies, hconcerns, this, Effect.text]
  next hconcerns =>
    cases h
    simp [PolicyRule.Applies, hconcerns]

theorem exists_addRule (e : PolicyEvaluation) (rule : PolicyRule) :
    (∃ e', e.addRule cm regexp resource action input rule = .ok e') ↔
      rule.Evaluable cm regexp resource action input := by
  rw [PolicyEvaluation.addRule, PolicyRule.Evaluable]
  split
  next hconcerns =>
    simp only [bind_eq_ok, mapError_eq_ok, hconcerns, true_implies]
    constructor
    · rintro ⟨e', found, hfound, -⟩
      exact ⟨found, hfound⟩
    · rintro ⟨found, hfound⟩
      cases found with
      | none => exact ⟨e, none, hfound, rfl⟩
      | some conditions => exact ⟨_, some conditions, hfound, rfl⟩
  next hconcerns => simp [hconcerns]

variable {spec : PolicyManifestSpec}

theorem evaluatePolicy_eq_ok :
    evaluatePolicy cm regexp spec resource action input = .ok result ↔
      validatePolicySpec cm spec = .ok () ∧ (trimSpace resource ≠ "" ∧ trimSpace action ≠ "") ∧
      ∃ e, spec.rules.foldlM (PolicyEvaluation.addRule cm regexp (trimSpace resource)
        (trimSpace action) input) {} = .ok e ∧ e.verdict = result := by
  rw [evaluatePolicy, unit_bind_eq_ok, require_bind, bind_eq_ok, Bool.not_eq_true',
    Bool.or_eq_false_iff, decide_eq_false_iff_not, decide_eq_false_iff_not]
  simp only [Except.ok.injEq, ne_eq]

/-- An evaluation succeeds for a valid policy whose rules can all be evaluated. -/
theorem exists_evaluatePolicy :
    (∃ result, evaluatePolicy cm regexp spec resource action input = .ok result) ↔
      validatePolicySpec cm spec = .ok () ∧ (trimSpace resource ≠ "" ∧ trimSpace action ≠ "") ∧
      ∀ rule ∈ spec.rules,
        rule.Evaluable cm regexp (trimSpace resource) (trimSpace action) input := by
  rw [← exists_foldlM_eq_ok exists_addRule spec.rules {}]
  constructor
  · rintro ⟨result, h⟩
    obtain ⟨hvalid, hgiven, e, he, -⟩ := evaluatePolicy_eq_ok.1 h
    exact ⟨hvalid, hgiven, e, he⟩
  · rintro ⟨hvalid, hgiven, e, he⟩
    exact ⟨e.verdict, evaluatePolicy_eq_ok.2 ⟨hvalid, hgiven, e, he, rfl⟩⟩

/-- An evaluation denies when a denying rule applies. -/
theorem evaluatePolicy_deny_iff
    (h : evaluatePolicy cm regexp spec resource action input = .ok result) :
    result.2.1 = .deny ↔ ∃ rule ∈ spec.rules,
      rule.Applies cm regexp (trimSpace resource) (trimSpace action) input .deny := by
  obtain ⟨-, -, e, he, rfl⟩ := evaluatePolicy_eq_ok.1 h
  have hdeny : e.verdict.2.1 = .deny ↔ e.found .deny = true := by
    rw [PolicyEvaluation.verdict, PolicyEvaluation.found]
    split_ifs <;> simp_all
  rw [hdeny, foldlM_flag found_addRule_policy he]
  simp [PolicyEvaluation.found]

end Yggdrasil.Manifest
