import Yggdrasil.Templates.Condition

/-!
# Comparisons in conditions

The operator of a clause is looked for anywhere in it, in its templates too, and an equality before
an inequality, wherever the two are.
-/

namespace Yggdrasil.Templates

open Text Check

/-! ## Where a clause is split -/

/-- The text begins with an operator of comparison. -/
def isComparison (rest : List Char) : Bool :=
  eqOperator.isPrefixOf rest || neOperator.isPrefixOf rest

/-- The operator that such a text begins with. -/
def comparisonOf (rest : List Char) : Comparison :=
  if eqOperator.isPrefixOf rest then .eq else .ne

/-- The sides of the first comparison outside of templates. -/
def topLevelComparison (expr : List Char) : Option (Comparison × List Char × List Char) :=
  (breakTop isComparison 0 expr).map fun broken =>
    (comparisonOf broken.2, trim broken.1, trim (broken.2.drop 4))

/-- The first equality is outside of templates and before every inequality outside, or there is none
    and the first inequality is outside. -/
def FirstIsTopLevel (expr : List Char) : Prop :=
  match breakOn (eqOperator.isPrefixOf ·) expr with
  | some (before, _) =>
    depthAfter 0 before = 0 ∧ breakTop (neOperator.isPrefixOf ·) 0 (before ++ [' ']) = none
  | none =>
    match breakOn (neOperator.isPrefixOf ·) expr with
    | some (before, _) => depthAfter 0 before = 0
    | none => True

theorem isDelimiter_eq : IsDelimiter (eqOperator.isPrefixOf ·) :=
  isDelimiter_operator (by decide) (by decide)

theorem isDelimiter_ne : IsDelimiter (neOperator.isPrefixOf ·) :=
  isDelimiter_operator (by decide) (by decide)

theorem isDelimiter_comparison : IsDelimiter isComparison := isDelimiter_eq.or isDelimiter_ne

variable {expr before rest before' rest' : List Char}

theorem isPrefixOf_eq_iff :
    eqOperator.isPrefixOf rest = true ↔ isComparison rest = true ∧ comparisonOf rest = .eq := by
  cases heq : eqOperator.isPrefixOf rest <;> simp [isComparison, comparisonOf, heq]

theorem isPrefixOf_ne_iff :
    neOperator.isPrefixOf rest = true ↔ isComparison rest = true ∧ comparisonOf rest = .ne := by
  cases heq : eqOperator.isPrefixOf rest with
  | false => simp [isComparison, comparisonOf, heq]
  | true =>
    obtain ⟨y, rfl⟩ := List.isPrefixOf_iff_prefix.1 heq
    refine iff_of_false (fun h => absurd h (by simp [neOperator, eqOperator])) ?_
    simp [comparisonOf, heq]

/-- Two operators with the same text before them, as far as it is not white space, are one. -/
theorem eq_of_trim_eq {a b : Char} (ha : isSpace a = false) (hbefore : before <+: before')
    (htrim : trim before = trim before') (hexpr : before ++ rest = before' ++ rest')
    (hrest : [' ', a, b, ' '] <+: rest) (hrest' : rest'.head? = some ' ') : before' = before := by
  obtain ⟨m, rfl⟩ := hbefore
  have hblank : IsBlank m := by
    by_contra hm
    exact trim_append_ne hm before htrim.symm
  rw [List.append_assoc, List.append_cancel_left_eq] at hexpr
  obtain ⟨y, rfl⟩ := hrest
  match m with
  | [] => rw [List.append_nil]
  | [c] =>
    -- The second operator would begin with the second character of the first.
    obtain ⟨z, rfl⟩ := List.head?_eq_some_iff.1 hrest'
    simp only [List.cons_append, List.nil_append, List.cons.injEq] at hexpr
    rw [hexpr.2.1] at ha
    exact absurd ha (by decide)
  | c :: c' :: m =>
    simp only [List.cons_append, List.nil_append, List.cons.injEq] at hexpr
    rw [hexpr.2.1, hblank c' (by simp)] at ha
    cases ha

/-- The first `op` is the first operator outside exactly when it is, with none before it. -/
theorem eq_topLevelComparison_iff {a b : Char} {op : Comparison} (ha : isSpace a = false)
    (hb : b ≠ ' ')
    (hop : ∀ {rest}, [' ', a, b, ' '].isPrefixOf rest = true ↔
      isComparison rest = true ∧ comparisonOf rest = op)
    (h : breakOn ([' ', a, b, ' '].isPrefixOf ·) expr = some (before, rest)) :
    some (op, trim before, trim (rest.drop 4)) = topLevelComparison expr ↔
      depthAfter 0 before = 0 ∧ breakTop isComparison 0 (before ++ [' ']) = none := by
  have hdelimiter : IsDelimiter ([' ', a, b, ' '].isPrefixOf ·) := by
    refine isDelimiter_operator ?_ hb
    rintro rfl
    exact absurd ha (by decide)
  obtain ⟨hexpr, hrest, -⟩ := eq_append_of_breakOn hdelimiter h
  constructor
  · intro heq
    obtain ⟨⟨before', rest'⟩, hbreak, hsides⟩ := Option.map_eq_some_iff.1 heq.symm
    obtain ⟨hexpr', hrest', hdepth, hbefore⟩ := eq_append_of_breakTop isDelimiter_comparison hbreak
    simp only [Prod.mk.injEq] at hsides
    have hfirst : before <+: before' :=
      prefix_of_breakOn hdelimiter h hexpr' (hop.2 ⟨hrest', hsides.1⟩)
    obtain rfl : before' = before := eq_of_trim_eq ha hfirst hsides.2.1.symm
      (hexpr.symm.trans hexpr') (List.isPrefixOf_iff_prefix.1 hrest)
      (isDelimiter_comparison.head hrest')
    exact ⟨hdepth, hbefore⟩
  · rintro ⟨hdepth, hbefore⟩
    have hbreak : breakTop isComparison 0 expr = some (before, rest) :=
      (breakTop_eq_some_iff isDelimiter_comparison).2 ⟨hexpr, (hop.1 hrest).1, hdepth, hbefore⟩
    rw [topLevelComparison, hbreak, Option.map_some, (hop.1 hrest).2]

/-- A clause is split at its first operator outside of templates, if any, exactly when what is taken
    for it is. -/
theorem comparison_split_iff (expr : List Char) :
    splitWorkflowStepConditionBinary expr = topLevelComparison expr ↔ FirstIsTopLevel expr := by
  rw [splitWorkflowStepConditionBinary, FirstIsTopLevel]
  cases heq : breakOn (eqOperator.isPrefixOf ·) expr with
  | some broken =>
    have hnone := (eq_append_of_breakOn isDelimiter_eq heq).2.2
    refine (eq_topLevelComparison_iff (by decide) (by decide) isPrefixOf_eq_iff heq).trans ?_
    refine and_congr_right fun _ => breakTop_or_eq_none_iff.trans ?_
    exact and_iff_right (breakTop_of_breakOn hnone)
  | none =>
    cases hne : breakOn (neOperator.isPrefixOf ·) expr with
    | some broken =>
      obtain ⟨hexpr, hrest, hnone⟩ := eq_append_of_breakOn isDelimiter_ne hne
      obtain ⟨y, hy⟩ := List.head?_eq_some_iff.1 (isDelimiter_ne.head hrest)
      rw [hexpr, hy, List.append_cons] at heq
      have heq := breakOn_of_append isDelimiter_eq heq
      refine (eq_topLevelComparison_iff (by decide) (by decide) isPrefixOf_ne_iff hne).trans ?_
      refine and_iff_left (breakTop_or_eq_none_iff.2 ⟨?_, ?_⟩)
      · exact breakTop_of_breakOn heq
      · exact breakTop_of_breakOn hnone
    | none =>
      have htop : breakTop isComparison 0 expr = none :=
        breakTop_or_eq_none_iff.2 ⟨breakTop_of_breakOn heq, breakTop_of_breakOn hne⟩
      simp [topLevelComparison, htop]

/-- An equality in a template is taken for the operator, and one after an inequality. -/
theorem not_comparison_split :
    splitWorkflowStepConditionBinary "\x7b\x7b index a == b \x7d\x7d != c".toList ≠
        topLevelComparison "\x7b\x7b index a == b \x7d\x7d != c".toList ∧
      splitWorkflowStepConditionBinary "a != b == c".toList ≠
        topLevelComparison "a != b == c".toList := by
  decide

end Yggdrasil.Templates
