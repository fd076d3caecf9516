import Yggdrasil.Lib.Spans
import Yggdrasil.Templates.Render

/-!
# Conditions of steps

A condition is a text of clauses put together with `&&` and, above these, `||`. It is split at the
operators that are outside of its templates, before any of them is rendered.
-/

namespace Yggdrasil.Templates

open Text Check

/-! ## Evaluating a condition -/

/-- The operators between clauses, with the blanks around them. -/
def orOperator : List Char := [' ', '|', '|', ' ']
/-- The conjunction, between blanks. -/
def andOperator : List Char := [' ', '&', '&', ' ']

/-- The operators of comparisons, with the blanks around them. -/
def eqOperator : List Char := [' ', '=', '=', ' ']
/-- The inequality, between blanks. -/
def neOperator : List Char := [' ', '!', '=', ' ']

/-- The comparisons of a clause. -/
inductive Comparison
  | eq
  | ne
  deriving DecidableEq

/-- What is said of the two sides. -/
def Comparison.holds : Comparison → String → String → Bool
  | .eq, left, right => left = right
  | .ne, left, right => left ≠ right

/-- The text before and after the first of the operators outside of templates. -/
def splitOnTopLevelOperator (expr sep : List Char) : Option (List Char × List Char) :=
  (breakTop (sep.isPrefixOf ·) 0 expr).map fun broken =>
    (trim broken.1, trim (broken.2.drop sep.length))

/-- The sides of the first equality, and where there is none of the first inequality. -/
def splitWorkflowStepConditionBinary (expr : List Char) :
    Option (Comparison × List Char × List Char) :=
  match breakOn (eqOperator.isPrefixOf ·) expr with
  | some (before, rest) => some (.eq, trim before, trim (rest.drop eqOperator.length))
  | none =>
    match breakOn (neOperator.isPrefixOf ·) expr with
    | some (before, rest) => some (.ne, trim before, trim (rest.drop neOperator.length))
    | none => none

/-- The quotes that a literal may be written in, double and single. -/
def quotes : List Char := ['\x22', '\x27']

/-- The text without a pair of quotes around it. -/
def stripSurroundingQuotes (value : String) : String :=
  match value.toList with
  | first :: rest =>
    if first ∈ quotes ∧ rest.getLast? = some first then .ofList rest.dropLast
    else value
  | [] => value

/-- Whether a value counts as true. -/
def isConditionTruthy (cm : CaseMap) : Value → Bool
  | .nil => false
  | .bool b => b
  | .str s => toLower cm (trimSpace s) ∉ ["", "false", "0", "null", "nil"]
  | .int _ z => z ≠ 0
  | .float q => q ≠ 0
  | .list items => items ≠ []
  | .map fields => fields ≠ []
  | .other _ _ => true

section Evaluate

variable (cm : CaseMap) (sprint : Value → String) (ctx : ExecutionContext)

/-- The two sides rendered, and compared as texts. -/
def evaluateComparison (op : Comparison) (left right : List Char) : Except Fault Bool := do
  let leftVal ← (ctx.render sprint (.str (.ofList left))).mapError
    (.wrap "condition left side: %w" [])
  let rightVal ← (ctx.render sprint (.str (.ofList right))).mapError
    (.wrap "condition right side: %w" [])
  let leftStr := stripSurroundingQuotes (display sprint leftVal)
  let rightStr := stripSurroundingQuotes (display sprint rightVal)
  .ok (op.holds leftStr rightStr)

/-- The text rendered, and taken as true or not. -/
def evaluateTruth (text : List Char) : Except Fault Bool := do
  let value ← (ctx.render sprint (.str (.ofList text))).mapError (.wrap "condition: %w" [])
  .ok (isConditionTruthy cm value)

/-- A clause is a comparison, or a value that must be true. -/
def evaluateClause (trimmed : List Char) : Except Fault Bool :=
  match splitWorkflowStepConditionBinary trimmed with
  | some (op, left, right) => evaluateComparison sprint ctx op left right
  | none => evaluateTruth cm sprint ctx trimmed

end Evaluate

theorem isDelimiter_or : IsDelimiter (orOperator.isPrefixOf ·) :=
  isDelimiter_operator (by decide) (by decide)

theorem isDelimiter_and : IsDelimiter (andOperator.isPrefixOf ·) :=
  isDelimiter_operator (by decide) (by decide)

variable {sep : List Char}

theorem length_lt_of_split {expr left right : List Char} (hsep : IsDelimiter (sep.isPrefixOf ·))
    (h : splitOnTopLevelOperator expr sep = some (left, right)) :
    left.length < expr.length ∧ right.length < expr.length := by
  obtain ⟨⟨before, rest⟩, hbroken, heq⟩ := Option.map_eq_some_iff.1 h
  cases heq
  obtain ⟨rfl, hrest, -, -⟩ := eq_append_of_breakTop hsep hbroken
  obtain ⟨after, rfl⟩ := List.isPrefixOf_iff_prefix.1 hrest
  have hpos : 0 < sep.length := by
    refine List.length_pos_iff.2 ?_
    rintro rfl
    exact absurd hsep.single (by decide)
  have hleft := length_trim_le before
  have hright := length_trim_le after
  rw [List.drop_left]
  simp only [List.length_append]
  omega

/-- Whether the condition of a step holds; `||` is split before `&&`. -/
def evaluateWorkflowStepCondition (cm : CaseMap) (sprint : Value → String) (ctx : ExecutionContext)
    (condition : List Char) : Except Fault Bool :=
  let trimmed := trim condition
  if trimmed = [] then .ok true
  else
    match _hor : splitOnTopLevelOperator trimmed orOperator with
    | some (left, right) => do
      let leftBool ← evaluateWorkflowStepCondition cm sprint ctx left
      if leftBool then .ok true else evaluateWorkflowStepCondition cm sprint ctx right
    | none =>
      match _hand : splitOnTopLevelOperator trimmed andOperator with
      | some (left, right) => do
        let leftBool ← evaluateWorkflowStepCondition cm sprint ctx left
        if !leftBool then .ok false else evaluateWorkflowStepCondition cm sprint ctx right
      | none => evaluateClause cm sprint ctx trimmed
termination_by condition.length
decreasing_by
  all_goals
    have hlength : trimmed.length ≤ condition.length := length_trim_le condition
    first
    | have hsplit := length_lt_of_split isDelimiter_or _hor
      omega
    | have hsplit := length_lt_of_split isDelimiter_and _hand
      omega

/-- The second value is only asked for when the first is true. -/
def andAlso (left right : Except Fault Bool) : Except Fault Bool := do
  let leftBool ← left
  if !leftBool then .ok false else right

/-- The second value is only asked for when the first is false. -/
def orElse (left right : Except Fault Bool) : Except Fault Bool := do
  let leftBool ← left
  if leftBool then .ok true else right

section Equations

variable {cm : CaseMap} {sprint : Value → String} {ctx : ExecutionContext}
  {x y left right : List Char}

theorem evaluate_or (hx : trim x ≠ [])
    (hor : splitOnTopLevelOperator (trim x) orOperator = some (left, right)) :
    evaluateWorkflowStepCondition cm sprint ctx x =
      orElse (evaluateWorkflowStepCondition cm sprint ctx left)
        (evaluateWorkflowStepCondition cm sprint ctx right) := by
  rw [evaluateWorkflowStepCondition, if_neg hx]
  split
  next _ _ h =>
    rw [hor] at h
    cases h
    rfl
  next h =>
    rw [hor] at h
    cases h

theorem evaluate_and (hx : trim x ≠ [])
    (hor : splitOnTopLevelOperator (trim x) orOperator = none)
    (hand : splitOnTopLevelOperator (trim x) andOperator = some (left, right)) :
    evaluateWorkflowStepCondition cm sprint ctx x =
      andAlso (evaluateWorkflowStepCondition cm sprint ctx left)
        (evaluateWorkflowStepCondition cm sprint ctx right) := by
  rw [evaluateWorkflowStepCondition, if_neg hx]
  split
  next _ _ h =>
    rw [hor] at h
    cases h
  next =>
    split
    next _ _ h =>
      rw [hand] at h
      cases h
      rfl
    next h =>
      rw [hand] at h
      cases h

theorem evaluate_clause (hx : trim x ≠ [])
    (hor : splitOnTopLevelOperator (trim x) orOperator = none)
    (hand : splitOnTopLevelOperator (trim x) andOperator = none) :
    evaluateWorkflowStepCondition cm sprint ctx x = evaluateClause cm sprint ctx (trim x) := by
  rw [evaluateWorkflowStepCondition, if_neg hx]
  split
  next _ _ h =>
    rw [hor] at h
    cases h
  next =>
    split
    next _ _ h =>
      rw [hand] at h
      cases h
    next => rfl

theorem evaluate_trim (x : List Char) : evaluateWorkflowStepCondition cm sprint ctx (trim x) =
    evaluateWorkflowStepCondition cm sprint ctx x := by
  rw [evaluateWorkflowStepCondition.eq_def, evaluateWorkflowStepCondition.eq_def, trim_trim]

end Equations

/-! ## Conditions as trees -/

/-- Clauses put together with `&&`. -/
inductive Conj
  | clause (text : List Char)
  | and (left right : Conj)

/-- Such conditions put together with `||`. -/
inductive Disj
  | conj (c : Conj)
  | or (left right : Disj)

/-- The text of a conjunction. -/
def Conj.print : Conj → List Char
  | .clause text => text
  | .and left right => left.print ++ (andOperator ++ right.print)

/-- The text of a disjunction. -/
def Disj.print : Disj → List Char
  | .conj c => c.print
  | .or left right => left.print ++ (orOperator ++ right.print)

/-- Its clauses, from left to right. -/
def Conj.clauses : Conj → List (List Char)
  | .clause text => [text]
  | .and left right => left.clauses ++ right.clauses

/-- Its clauses, from left to right. -/
def Disj.clauses : Disj → List (List Char)
  | .conj c => c.clauses
  | .or left right => left.clauses ++ right.clauses

section Eval

variable (value : List Char → Except Fault Bool)

/-- Its value, from those of its clauses. -/
def Conj.eval : Conj → Except Fault Bool
  | .clause text => value text
  | .and left right => andAlso left.eval right.eval

/-- Its value, from those of its clauses. -/
def Disj.eval : Disj → Except Fault Bool
  | .conj c => c.eval value
  | .or left right => orElse left.eval right.eval

end Eval

theorem andAlso_assoc (a b c : Except Fault Bool) :
    andAlso (andAlso a b) c = andAlso a (andAlso b c) := by
  rcases a with e | _ | _ <;> rfl

theorem orElse_assoc (a b c : Except Fault Bool) :
    orElse (orElse a b) c = orElse a (orElse b c) := by
  rcases a with e | _ | _ <;> rfl

/-! ## Printed trees -/

/-- A side of `||`: not blank, braces in pairs, and no `||` outside of templates. -/
structure IsOperand (x : List Char) : Prop where
  nonblank : ¬ IsBlank x
  balanced : depthAfter 0 x = 0
  noOr : breakTop (orOperator.isPrefixOf ·) 0 (' ' :: (x ++ [' '])) = none

/-- What can be a clause: there is no `&&` either. -/
structure IsClause (x : List Char) : Prop extends IsOperand x where
  noAnd : breakTop (andOperator.isPrefixOf ·) 0 (' ' :: (x ++ [' '])) = none

section Printed

variable {cm : CaseMap} {sprint : Value → String} {ctx : ExecutionContext}
  {x y : List Char} {value value' : List Char → Except Fault Bool}

theorem split_eq_none (hsep : IsDelimiter (sep.isPrefixOf ·))
    (h : breakTop (sep.isPrefixOf ·) 0 (' ' :: (x ++ [' '])) = none) :
    splitOnTopLevelOperator (trim x) sep = none := by
  have hbefore : breakTop (sep.isPrefixOf ·) 0 (x ++ [' ']) = none :=
    breakTop_of_blank_append isBlank_blank h
  exact Option.map_eq_none_iff.2
    (breakTop_trim hsep (breakTop_of_append_blank hsep isBlank_blank hbefore))

/-- Two texts with an operator between them are split there. -/
theorem split_append {a b : Char} (ha : a ≠ ' ') (hb : b ≠ ' ')
    (hx : ¬ IsBlank x) (hy : ¬ IsBlank y) (hbalanced : depthAfter 0 x = 0)
    (h : breakTop ([' ', a, b, ' '].isPrefixOf ·) 0 (' ' :: (x ++ [' '])) = none) :
    splitOnTopLevelOperator (trim (x ++ ([' ', a, b, ' '] ++ y))) [' ', a, b, ' '] =
      some (trim x, trim y) := by
  have hspace : IsBlank (x.takeWhile isSpace) := fun c hc => List.mem_takeWhile_imp hc
  have hdepth : depthAfter 0 (x.dropWhile isSpace) = 0 := by
    rw [← depthAfter_of_blank_append hspace, List.takeWhile_append_dropWhile, hbalanced]
  have hbefore : breakTop ([' ', a, b, ' '].isPrefixOf ·) 0 (x.dropWhile isSpace ++ [' ']) =
      none := by
    refine breakTop_of_blank_append hspace ?_
    rw [← List.append_assoc, List.takeWhile_append_dropWhile]
    exact breakTop_of_blank_append isBlank_blank h
  have hbreak := breakTop_append (y := a :: b :: ' ' :: y.rdropWhile isSpace)
    (isDelimiter_operator ha hb) hbefore
  have hfound : breakTop ([' ', a, b, ' '].isPrefixOf ·) 0
      (' ' :: a :: b :: ' ' :: y.rdropWhile isSpace) =
        some ([], ' ' :: a :: b :: ' ' :: y.rdropWhile isSpace) := by
    rw [breakTop_char (not_isPair_of_isSpace (by decide)), if_pos]
    exact ⟨rfl, List.isPrefixOf_iff_prefix.2 ⟨_, rfl⟩⟩
  rw [hdepth, hfound] at hbreak
  rw [splitOnTopLevelOperator, trim_append_append hx hy]
  simp only [List.cons_append, List.nil_append] at hbreak ⊢
  rw [hbreak]
  simp [prepend, trim_dropWhile, trim_rdropWhile]

theorem not_isBlank_append (hx : ¬ IsBlank x) : ¬ IsBlank (x ++ y) :=
  fun h => hx fun c hc => h c (List.mem_append_left _ hc)

/-- Both sides of `||` are evaluated as they are alone. -/
theorem evaluate_append_or (hx : IsOperand x) (hy : ¬ IsBlank y) :
    evaluateWorkflowStepCondition cm sprint ctx (x ++ (orOperator ++ y)) =
      orElse (evaluateWorkflowStepCondition cm sprint ctx x)
        (evaluateWorkflowStepCondition cm sprint ctx y) := by
  have hsplit : splitOnTopLevelOperator (trim (x ++ (orOperator ++ y))) orOperator =
      some (trim x, trim y) :=
    split_append (by decide) (by decide) hx.nonblank hy hx.balanced hx.noOr
  rw [evaluate_or (trim_eq_nil_iff.not.2 (not_isBlank_append hx.nonblank)) hsplit, evaluate_trim,
    evaluate_trim]

/-- Two texts without `||` with `&&` between them have none. -/
theorem IsOperand.append_and (hx : IsOperand x) (hy : IsOperand y) :
    IsOperand (x ++ (andOperator ++ y)) where
  nonblank := not_isBlank_append hx.nonblank
  balanced := by
    change depthAfter 0 (x ++ ' ' :: '&' :: '&' :: ' ' :: y) = 0
    rw [depthAfter_append rfl, hx.balanced]
    exact hy.balanced
  noOr := by
    have hbefore := breakTop_append (x := ' ' :: x) (y := '&' :: '&' :: ' ' :: (y ++ [' ']))
      isDelimiter_or hx.noOr
    have hdepth : depthAfter 0 (' ' :: x) = 0 := hx.balanced
    have hafter : breakTop (orOperator.isPrefixOf ·) 0
        (' ' :: '&' :: '&' :: ' ' :: (y ++ [' '])) = none := by
      simpa [breakTop, orOperator] using hy.noOr
    rw [hdepth, hafter] at hbefore
    simpa [andOperator] using hbefore

/-! The trees are gone through with what is printed after them, so that what is on the left of an
operator is always a clause, or a condition without the operator. -/

theorem Conj.isOperand_print (t : Conj) (h : ∀ c ∈ t.clauses, IsClause c) : IsOperand t.print := by
  induction t with
  | clause text => exact (h text (List.mem_singleton_self _)).toIsOperand
  | and left right ihleft ihright =>
    rw [Conj.clauses, List.forall_mem_append] at h
    exact (ihleft h.1).append_and (ihright h.2)

theorem Disj.not_isBlank_print (t : Disj) (h : ∀ c ∈ t.clauses, IsClause c) :
    ¬ IsBlank t.print := by
  induction t with
  | conj c => exact (c.isOperand_print h).nonblank
  | or left right ihleft ihright =>
    rw [Disj.clauses, List.forall_mem_append] at h
    exact not_isBlank_append (ihleft h.1)

theorem Conj.evaluate_print_append (t : Conj) (h : ∀ c ∈ t.clauses, IsClause c)
    (hy : IsOperand y) :
    evaluateWorkflowStepCondition cm sprint ctx (t.print ++ (andOperator ++ y)) =
      andAlso (t.eval (evaluateWorkflowStepCondition cm sprint ctx))
        (evaluateWorkflowStepCondition cm sprint ctx y) := by
  induction t generalizing y with
  | clause text =>
    have htext := h text (List.mem_singleton_self _)
    have hoperand := htext.toIsOperand.append_and hy
    have hsplit : splitOnTopLevelOperator (trim (text ++ (andOperator ++ y))) andOperator =
        some (trim text, trim y) :=
      split_append (by decide) (by decide) htext.nonblank hy.nonblank htext.balanced htext.noAnd
    rw [Conj.print, Conj.eval, evaluate_and (trim_eq_nil_iff.not.2 hoperand.nonblank)
      (split_eq_none isDelimiter_or hoperand.noOr) hsplit, evaluate_trim, evaluate_trim]
  | and left right ihleft ihright =>
    rw [Conj.clauses, List.forall_mem_append] at h
    have hright := (right.isOperand_print h.2).append_and hy
    rw [Conj.print, Conj.eval, andAlso_assoc, ← ihright h.2 hy, ← ihleft h.1 hright]
    simp only [List.append_assoc]

theorem Conj.evaluate_print (t : Conj) (h : ∀ c ∈ t.clauses, IsClause c) :
    evaluateWorkflowStepCondition cm sprint ctx t.print =
      t.eval (evaluateWorkflowStepCondition cm sprint ctx) := by
  induction t with
  | clause text => rfl
  | and left right ihleft ihright =>
    rw [Conj.clauses, List.forall_mem_append] at h
    rw [Conj.print, left.evaluate_print_append h.1 (right.isOperand_print h.2), ihright h.2,
      Conj.eval]

theorem Disj.evaluate_print_append (t : Disj) (h : ∀ c ∈ t.clauses, IsClause c)
    (hy : ¬ IsBlank y) :
    evaluateWorkflowStepCondition cm sprint ctx (t.print ++ (orOperator ++ y)) =
      orElse (t.eval (evaluateWorkflowStepCondition cm sprint ctx))
        (evaluateWorkflowStepCondition cm sprint ctx y) := by
  induction t generalizing y with
  | conj c =>
    rw [Disj.print, evaluate_append_or (c.isOperand_print h) hy, c.evaluate_print h, Disj.eval]
  | or left right ihleft ihright =>
    rw [Disj.clauses, List.forall_mem_append] at h
    have hright : ¬ IsBlank (right.print ++ (orOperator ++ y)) :=
      not_isBlank_append (right.not_isBlank_print h.2)
    rw [Disj.print, Disj.eval, orElse_assoc, ← ihright h.2 hy, ← ihleft h.1 hright]
    simp only [List.append_assoc]

theorem Disj.evaluate_print (t : Disj) (h : ∀ c ∈ t.clauses, IsClause c) :
    evaluateWorkflowStepCondition cm sprint ctx t.print =
      t.eval (evaluateWorkflowStepCondition cm sprint ctx) := by
  induction t with
  | conj c => exact c.evaluate_print h
  | or left right ihleft ihright =>
    rw [Disj.clauses, List.forall_mem_append] at h
    rw [Disj.print, left.evaluate_print_append h.1 (right.not_isBlank_print h.2), ihright h.2,
      Disj.eval]

theorem IsClause.evaluate (hx : IsClause x) :
    evaluateWorkflowStepCondition cm sprint ctx x = evaluateClause cm sprint ctx (trim x) :=
  evaluate_clause (trim_eq_nil_iff.not.2 hx.nonblank) (split_eq_none isDelimiter_or hx.noOr)
    (split_eq_none isDelimiter_and hx.noAnd)

theorem Conj.eval_congr (t : Conj) (h : ∀ c ∈ t.clauses, value c = value' c) :
    t.eval value = t.eval value' := by
  induction t with
  | clause text => exact h text (List.mem_singleton_self _)
  | and left right ihleft ihright =>
    rw [Conj.clauses, List.forall_mem_append] at h
    rw [Conj.eval, Conj.eval, ihleft h.1, ihright h.2]

theorem Disj.eval_congr (t : Disj) (h : ∀ c ∈ t.clauses, value c = value' c) :
    t.eval value = t.eval value' := by
  induction t with
  | conj c => exact c.eval_congr h
  | or left right ihleft ihright =>
    rw [Disj.clauses, List.forall_mem_append] at h
    rw [Disj.eval, Disj.eval, ihleft h.1, ihright h.2]

end Printed

/-! ## The tree of a condition -/

/-- What a condition is split into. -/
inductive Tree
  | always
  | truth (text : List Char)
  | comparison (op : Comparison) (left right : List Char)
  | and (left right : Tree)
  | or (left right : Tree)

/-- The value of a tree, by what the texts at its leaves are rendered to. -/
def Tree.eval (cm : CaseMap) (sprint : Value → String) (ctx : ExecutionContext) :
    Tree → Except Fault Bool
  | .always => .ok true
  | .truth text => evaluateTruth cm sprint ctx text
  | .comparison op left right => evaluateComparison sprint ctx op left right
  | .and left right => andAlso (left.eval cm sprint ctx) (right.eval cm sprint ctx)
  | .or left right => orElse (left.eval cm sprint ctx) (right.eval cm sprint ctx)

/-- The tree of a clause. -/
def clauseTree (trimmed : List Char) : Tree :=
  match splitWorkflowStepConditionBinary trimmed with
  | some (op, left, right) => .comparison op left right
  | none => .truth trimmed

/-- Every condition has a tree, whatever the context is. -/
theorem exists_tree (condition : List Char) : ∃ t : Tree, ∀ cm sprint ctx,
    evaluateWorkflowStepCondition cm sprint ctx condition = t.eval cm sprint ctx := by
  induction hn : condition.length using Nat.strong_induction_on generalizing condition with
  | _ n ih =>
    subst hn
    by_cases hblank : trim condition = []
    · exact ⟨.always, fun cm sprint ctx => by
        rw [evaluateWorkflowStepCondition, if_pos hblank]; rfl⟩
    have hlength := length_trim_le condition
    cases hor : splitOnTopLevelOperator (trim condition) orOperator with
    | some sides =>
      have hsides := length_lt_of_split isDelimiter_or hor
      obtain ⟨left, hleft⟩ := ih _ (hsides.1.trans_le hlength) sides.1 rfl
      obtain ⟨right, hright⟩ := ih _ (hsides.2.trans_le hlength) sides.2 rfl
      refine ⟨.or left right, fun cm sprint ctx => ?_⟩
      rw [evaluate_or hblank hor, hleft, hright, Tree.eval]
    | none =>
      cases hand : splitOnTopLevelOperator (trim condition) andOperator with
      | some sides =>
        have hsides := length_lt_of_split isDelimiter_and hand
        obtain ⟨left, hleft⟩ := ih _ (hsides.1.trans_le hlength) sides.1 rfl
        obtain ⟨right, hright⟩ := ih _ (hsides.2.trans_le hlength) sides.2 rfl
        refine ⟨.and left right, fun cm sprint ctx => ?_⟩
        rw [evaluate_and hblank hor hand, hleft, hright, Tree.eval]
      | none =>
        refine ⟨clauseTree (trim condition), fun cm sprint ctx => ?_⟩
        rw [evaluate_clause hblank hor hand, clauseTree, evaluateClause]
        cases splitWorkflowStepConditionBinary (trim condition) <;> rfl

/-- The value of a printed tree of clauses is that of the tree, and how a condition is split does
    not depend on the context. -/
theorem condition_structure (cm : CaseMap) (sprint : Value → String) :
    (∀ t : Disj, (∀ c ∈ t.clauses, IsClause c) → ∀ ctx : ExecutionContext,
      evaluateWorkflowStepCondition cm sprint ctx t.print =
        t.eval fun c => evaluateClause cm sprint ctx (trim c)) ∧
    ∀ condition : List Char, ∃ t : Tree, ∀ ctx : ExecutionContext,
      evaluateWorkflowStepCondition cm sprint ctx condition = t.eval cm sprint ctx := by
  refine ⟨fun t h ctx => ?_, fun condition => ?_⟩
  · rw [t.evaluate_print h]
    exact t.eval_congr fun c hc => (h c hc).evaluate
  · obtain ⟨t, ht⟩ := exists_tree condition
    exact ⟨t, ht cm sprint⟩

namespace Sample

/-- Two clauses that must both hold, or a comparison. -/
def mixed : Disj :=
  .or (.conj (.and (.clause "false".toList) (.clause " true".toList)))
    (.conj (.clause "a == a".toList))

/-- A clause that ends with an operator, and another one. -/
def trailing : Disj := .conj (.and (.clause "false ||".toList) (.clause "false".toList))

end Sample

/-- The parts of the sample are clauses, and the condition holds by its comparison. -/
theorem condition_structure_mixed :
    (∀ c ∈ Sample.mixed.clauses, IsClause c) ∧
      evaluateWorkflowStepCondition ascii (fun _ => "") (Sample.tempting "") Sample.mixed.print =
        .ok true := by
  have hdec : ∀ c ∈ Sample.mixed.clauses, trim c ≠ [] ∧ depthAfter 0 c = 0 ∧
      breakTop (orOperator.isPrefixOf ·) 0 (' ' :: (c ++ [' '])) = none ∧
      breakTop (andOperator.isPrefixOf ·) 0 (' ' :: (c ++ [' '])) = none := by decide
  have hclauses : ∀ c ∈ Sample.mixed.clauses, IsClause c := fun c hc =>
    have ⟨hblank, hbalanced, hor, hand⟩ := hdec c hc
    ⟨⟨trim_eq_nil_iff.not.1 hblank, hbalanced, hor⟩, hand⟩
  refine ⟨hclauses, ((condition_structure ascii _).1 Sample.mixed hclauses _).trans ?_⟩
  rfl

/-- The operator at the end of a clause is taken for one between clauses. -/
theorem not_condition_structure_trailing :
    ¬ ∀ (t : Disj), (∀ c ∈ t.clauses, depthAfter 0 c = 0 ∧
        breakTop (orOperator.isPrefixOf ·) 0 c = none ∧
        breakTop (andOperator.isPrefixOf ·) 0 c = none) → ∀ ctx : ExecutionContext,
      evaluateWorkflowStepCondition ascii (fun _ => "") ctx t.print =
        t.eval fun c => evaluateClause ascii (fun _ => "") ctx (trim c) := by
  intro h
  have heq := h Sample.trailing (by decide) (Sample.tempting "")
  have hfalse : evaluateWorkflowStepCondition ascii (fun _ => "") (Sample.tempting "")
      "false".toList = .ok false := by
    rw [evaluate_clause (by decide) (by decide) (by decide)]
    rfl
  have htrue : evaluateWorkflowStepCondition ascii (fun _ => "") (Sample.tempting "")
      "&& false".toList = .ok true := by
    rw [evaluate_clause (by decide) (by decide) (by decide)]
    rfl
  have hsplit : splitOnTopLevelOperator (trim Sample.trailing.print) orOperator =
      some ("false".toList, "&& false".toList) := by decide
  rw [evaluate_or (by decide) hsplit, hfalse, htrue] at heq
  have htree : Sample.trailing.eval
      (fun c => evaluateClause ascii (fun _ => "") (Sample.tempting "") (trim c)) = .ok false := by
    rfl
  rw [htree] at heq
  cases heq

end Yggdrasil.Templates
