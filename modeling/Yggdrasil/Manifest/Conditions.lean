import Yggdrasil.Manifest.Policy

/-!
# Conditions of policies

A condition compares a value that it looks up with another. A key that is not in the input gives the
null value, and a pattern is tried as a shell pattern before it is tried as a regular expression.
-/

namespace Yggdrasil.Manifest

open Text

/-- The operators that compare the value of a key, rather than ask whether there is one. -/
def comparingOperators : List String :=
  ["eq", "in", "gt", "gte", "lt", "lte", "contains", "matches"]

/-- The value is null. -/
def isNull : Value → Bool
  | .nil => true
  | _ => false

/-- The null value does not compare with the other one, nor is it in the list. -/
def excludesNull (operator : String) (expected : Value) : Bool :=
  if operator = "eq" then !isNull expected
  else if operator = "in" then
    match expected with
    | .list items => !items.any isNull
    | _ => false
  else true

theorem compareEqual_nil (v : Value) : compareEqual .nil v = isNull v := by
  cases v <;> simp [compareEqual, toFloat, Value.deepEqual, isNull]

variable {cm : CaseMap} {regexp : String → String → Except Fault Bool} {input : Value.Fields}
  {condition : PolicyCondition}

/-- An operator is found not to hold of the null value exactly where that is excluded. -/
theorem policyConditionMatches_nil {operator : String} (h : operator ∈ comparingOperators)
    (found : Bool) (expected : Value) :
    policyConditionMatches regexp operator .nil found expected = .ok false ↔
      excludesNull operator expected = true := by
  simp only [comparingOperators, List.mem_cons, List.not_mem_nil, or_false] at h
  unfold policyConditionMatches
  obtain rfl | rfl | rfl | rfl | rfl | rfl | rfl | rfl := h
  case inr.inl => cases expected <;> simp [excludesNull, compareEqual_nil]
  all_goals simp [excludesNull, compareEqual_nil, toFloat, containsValue]

/-- A condition on an absent key does not hold exactly when null is excluded. -/
theorem absent_unmatched (habsent : lookupPath input condition.key = none)
    (hoperator : normalizeOperator cm condition.operator ∈ comparingOperators) :
    (condition.evaluate cm regexp input = .ok false ∧
      ∀ rule : PolicyRule, condition ∈ rule.conditions → ∀ resource action effect,
        ¬ rule.Applies cm regexp resource action input effect) ↔
      excludesNull (normalizeOperator cm condition.operator)
        (resolvePolicyValue input condition.value) = true := by
  have hmatch : condition.evaluate cm regexp input = .ok false ↔
      excludesNull (normalizeOperator cm condition.operator)
        (resolvePolicyValue input condition.value) = true := by
    rw [PolicyCondition.evaluate, habsent]
    exact policyConditionMatches_nil hoperator _ _
  rw [← hmatch]
  refine and_iff_left_of_imp fun hfalse rule hmem resource action effect happlies => ?_
  have htrue := happlies.2.1 condition hmem
  rw [hfalse] at htrue
  cases htrue

/-- The condition that the value of a key compares so with the value at a path. -/
def comparedWith (key operator path : String) : PolicyCondition :=
  ⟨key, operator, .map [("$ref", .str path)]⟩

theorem absent_unmatched_hour :
    (comparedWith "context.hour" "eq" "limits.hour").evaluate ascii (fun _ _ => .ok false)
      [("limits", .map [("hour", .int .int 14)])] = .ok false :=
  ((absent_unmatched (by rfl) (by decide +kernel)).2 (by decide +kernel)).1

/-- The equality of two absent keys holds; a membership of one in an absent list is an error. -/
theorem not_absent_unmatched :
    lookupPath [] "context.owner" = none ∧
      (evaluatePolicy ascii (fun _ _ => .ok false)
        ⟨[⟨"own", "", "allow", ["manifest"], ["delete"],
          [comparedWith "context.owner" "eq" "context.caller"]⟩]⟩
        "manifest" "delete" []).toOption.map Prod.fst = some true ∧
      (comparedWith "context.owner" "in" "context.owners").evaluate ascii
        (fun _ _ => .ok false) [] =
        .error (.errorf "%s operator expects array value" [.text "in"]) :=
  ⟨by rfl, by decide +kernel, by decide +kernel⟩

/-! ## Patterns -/

section Patterns

variable {operator pattern : String}

end Patterns

end Yggdrasil.Manifest
