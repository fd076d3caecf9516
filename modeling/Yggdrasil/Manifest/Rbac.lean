import Yggdrasil.Lib.Go
import Yggdrasil.Lib.Check
import Yggdrasil.Lib.Glob
import Yggdrasil.Lib.Table
import Yggdrasil.Lib.Value

/-!
# Role-based access

`evaluateRBACSubjects` goes through the bindings of every effective subject and collects the rules
that match; a matching rule that denies outweighs those that allow.
-/

namespace Yggdrasil.Manifest

open Check Text

/-- Who asks. -/
structure RBACSubject where
  type : String
  id : String
  deriving DecidableEq

/-- A rule that allows or denies. -/
structure RBACRule where
  description : String := ""
  effect : String := ""
  resources : List String
  actions : List String

/-- A named list of rules. -/
structure RBACRole where
  name : String := ""
  rules : List RBACRule := []

/-- The roles of some subjects. -/
structure RBACBinding where
  name : String
  subjects : List RBACSubject
  roles : List String

/-- The roles and who has them. -/
structure RBACManifestSpec where
  roles : List RBACRole
  bindings : List RBACBinding

/-- A rule that has matched. -/
structure RBACRuleMatch where
  role : String
  effect : String
  description : String
  resources : List String
  actions : List String

variable (cm : CaseMap)

/-! ## Patterns and subjects -/

/-- Whether a pattern matches the value, as a shell pattern or up to case. -/
def patternMatches (value pattern : String) : Bool :=
  let pattern := trimSpace pattern
  pattern ≠ "" && (Glob.pathMatch pattern value = some true || equalFold cm pattern value)

/-- One of the patterns matches. -/
def anyPatternMatch (patterns : List String) (value : String) : Bool :=
  patterns.any (patternMatches cm value)

/-- A star matches every subject. -/
def subjectPatternMatches (pattern value : String) : Bool :=
  pattern = "*" || anyPatternMatch cm [pattern] value

/-- An effect in lower case, which is to allow when none is given. -/
def normalizeEffect (effect : String) : String :=
  let effect := toLower cm (trimSpace effect)
  if effect = "" then "allow" else effect

/-- The type in lower case, without blanks around it and the id. -/
def normalizeSubject (subject : RBACSubject) : RBACSubject :=
  ⟨toLower cm (trimSpace subject.type), trimSpace subject.id⟩

/-- The subject is one of the binding. -/
def bindingMatchesSubject (binding : RBACBinding) (subject : RBACSubject) : Bool :=
  binding.subjects.any fun candidate =>
    let candidate := normalizeSubject cm candidate
    subjectPatternMatches cm candidate.type subject.type &&
      subjectPatternMatches cm candidate.id subject.id

/-- The rule is for the resource and the action. -/
def ruleMatches (rule : RBACRule) (resource action : String) : Bool :=
  anyPatternMatch cm rule.resources resource && anyPatternMatch cm rule.actions action

/-- The effective subjects: those with a type and an id, each once. -/
def normalizedSubjects (subjects : List RBACSubject) : List RBACSubject :=
  subjects.foldl (fun normalized subject =>
    let subject := normalizeSubject cm subject
    if subject.type = "" ∨ subject.id = "" then normalized
    else if subject ∈ normalized then normalized
    else normalized ++ [subject]) []

/-! ## Validation -/

/-- A rule has an effect and patterns. -/
def validateRBACRule (rule : RBACRule) : Except Fault Unit := do
  let effect := normalizeEffect cm rule.effect
  require (effect = "allow" || effect = "deny")
    (.errorf "invalid effect %q" [.quoted rule.effect])
  require (!rule.resources.isEmpty) (.errorf "rule requires at least one resource pattern" [])
  require (!rule.actions.isEmpty) (.errorf "rule requires at least one action pattern" [])
  require (rule.resources.all (trimSpace · ≠ ""))
    (.errorf "rule contains an empty resource pattern" [])
  require (rule.actions.all (trimSpace · ≠ ""))
    (.errorf "rule contains an empty action pattern" [])

/-- A role has a new name, and rules. -/
def validateRBACRole (seen : List String) (role : RBACRole) : Except Fault Unit := do
  let name := trimSpace role.name
  require (name ≠ "") (.errorf "rbac role name is required" [])
  require (name ∉ seen) (.errorf "rbac role %q is duplicated" [.quoted name])
  require (!role.rules.isEmpty)
    (.errorf "rbac role %q requires at least one rule" [.quoted name])
  (validateEach (fun _ => ()) (fun _ => validateRBACRule cm) [] role.rules).mapError
    (.wrap "rbac role %q: %w" [.quoted name])

/-- A binding has subjects, and roles that exist. -/
def validateRBACBinding (roleNames : List String) (binding : RBACBinding) :
    Except Fault Unit := do
  require (trimSpace binding.name ≠ "") (.errorf "rbac binding name is required" [])
  require (!binding.subjects.isEmpty)
    (.errorf "rbac binding %q requires at least one subject" [.quoted binding.name])
  require (!binding.roles.isEmpty)
    (.errorf "rbac binding %q requires at least one role" [.quoted binding.name])
  require (binding.subjects.all fun subject =>
      !(trimSpace subject.type = "" || trimSpace subject.id = ""))
    (.errorf "rbac binding %q contains an invalid subject" [.quoted binding.name])
  validateEach (fun _ => ()) (fun _ roleName =>
    require (trimSpace roleName ∈ roleNames)
      (.errorf "rbac binding %q references unknown role %q"
        [.quoted binding.name, .quoted roleName])) [] binding.roles

variable (spec : RBACManifestSpec)

/-- The roles and bindings are valid. -/
def validateRBACSpec : Except Fault Unit := do
  require (!spec.roles.isEmpty) (.errorf "rbac spec requires at least one role" [])
  validateEach (fun role => trimSpace role.name) (validateRBACRole cm) [] spec.roles
  validateEach (fun _ => ())
    (fun _ => validateRBACBinding (spec.roles.map fun role => trimSpace role.name)) []
    spec.bindings

/-! ## Evaluation -/

/-- What the evaluation has found so far. -/
structure RBACEvaluation where
  matchedRoles : List String := []
  matchedRules : List RBACRuleMatch := []
  ruleMatchSet : List String := []
  allowMatch : Bool := false
  denyMatch : Bool := false

/-- By this key a match is reported once. -/
def rbacRuleMatchKey (m : RBACRuleMatch) : String :=
  "|".intercalate [m.role, m.effect, m.description, ",".intercalate m.resources,
    ",".intercalate m.actions]

/-- The last role of each name. -/
def roleIndex (roles : List RBACRole) : String → RBACRole :=
  index (fun role => trimSpace role.name) id roles fun _ => {}

section

variable (resource action : String)

/-- Takes a rule of the role into account. -/
def RBACEvaluation.addRule (roleName : String) (e : RBACEvaluation) (rule : RBACRule) :
    RBACEvaluation :=
  if ruleMatches cm rule resource action then
    let effect := normalizeEffect cm rule.effect
    let found : RBACRuleMatch :=
      ⟨roleName, effect, trimSpace rule.description, rule.resources, rule.actions⟩
    let key := rbacRuleMatchKey found
    { e with
      matchedRules := if key ∈ e.ruleMatchSet then e.matchedRules else e.matchedRules ++ [found]
      ruleMatchSet := if key ∈ e.ruleMatchSet then e.ruleMatchSet else key :: e.ruleMatchSet
      denyMatch := e.denyMatch || effect = "deny"
      allowMatch := e.allowMatch || effect = "allow" }
  else e

/-- Takes a role of a binding into account. -/
def RBACEvaluation.addRole (roles : List RBACRole) (e : RBACEvaluation) (roleName : String) :
    RBACEvaluation :=
  let roleName := trimSpace roleName
  let matchedRoles :=
    if roleName ∈ e.matchedRoles then e.matchedRoles else e.matchedRoles ++ [roleName]
  (roleIndex roles roleName).rules.foldl (RBACEvaluation.addRule cm resource action roleName)
    { e with matchedRoles }

/-- Takes a binding into account, when it is one of the subject. -/
def RBACEvaluation.addBinding (roles : List RBACRole) (subject : RBACSubject)
    (e : RBACEvaluation) (binding : RBACBinding) : RBACEvaluation :=
  if bindingMatchesSubject cm binding subject then
    binding.roles.foldl (RBACEvaluation.addRole cm resource action roles) e
  else e

/-- Takes the bindings of a subject into account. -/
def RBACEvaluation.addSubject (spec : RBACManifestSpec) (e : RBACEvaluation)
    (subject : RBACSubject) : RBACEvaluation :=
  spec.bindings.foldl (RBACEvaluation.addBinding cm resource action spec.roles subject) e

end

/-- Whether an effective subject may execute the action, with the roles and rules found. -/
def evaluateRBACSubjects (subjects : List RBACSubject) (resource action : String) : Except Fault
    (Bool × List String × List RBACRuleMatch) := do
  validateRBACSpec cm spec
  let resource := trimSpace resource
  let action := trimSpace action
  require (!(resource = "" || action = "")) (.errorf "resource and action are required" [])
  let subjects := normalizedSubjects cm subjects
  require (!subjects.isEmpty) (.errorf "at least one valid subject is required" [])
  let e := subjects.foldl (RBACEvaluation.addSubject cm resource action spec) {}
  .ok (!e.denyMatch && e.allowMatch, e.matchedRoles, e.matchedRules)

/-! ## What the evaluation decides -/

/-- The effects of a valid rule. -/
inductive Effect
  | allow
  | deny

/-- The texts of the effects. -/
def Effect.text : Effect → String
  | .allow => "allow"
  | .deny => "deny"

/-- A rule matches the resource and the action, and has the effect. -/
def RBACRule.Applies (rule : RBACRule) (resource action : String) (effect : Effect) : Prop :=
  ruleMatches cm rule resource action = true ∧ normalizeEffect cm rule.effect = effect.text

/-- Some binding of some effective subject reaches a matching rule of the effect. -/
def Reaches (subjects : List RBACSubject) (resource action : String) (effect : Effect) : Prop :=
  ∃ subject ∈ normalizedSubjects cm subjects, ∃ binding ∈ spec.bindings,
    bindingMatchesSubject cm binding subject = true ∧
    ∃ roleName ∈ binding.roles, ∃ role ∈ spec.roles,
      trimSpace role.name = trimSpace roleName ∧
      ∃ rule ∈ role.rules, rule.Applies cm (trimSpace resource) (trimSpace action) effect

/-- Whether a rule of the effect has been found. -/
def RBACEvaluation.found (effect : Effect) (e : RBACEvaluation) : Bool :=
  match effect with
  | .allow => e.allowMatch
  | .deny => e.denyMatch

variable {cm} {spec : RBACManifestSpec} {subjects : List RBACSubject} {resource action : String}
  {subject : RBACSubject} {roleName : String} {result : Bool × List String × List RBACRuleMatch}

section

variable {effect : Effect}

instance (rule : RBACRule) : Decidable (rule.Applies cm resource action effect) :=
  inferInstanceAs (Decidable (_ ∧ _))

theorem found_addRule (roleName : String) (e : RBACEvaluation) (rule : RBACRule) :
    (e.addRule cm resource action roleName rule).found effect =
      (e.found effect || decide (rule.Applies cm resource action effect)) := by
  rw [RBACEvaluation.addRule]
  split
  next h => cases effect <;> simp [RBACEvaluation.found, RBACRule.Applies, h, Effect.text]
  next h => simp [RBACRule.Applies, h]

theorem found_addRole (roles : List RBACRole) (e : RBACEvaluation) (roleName : String) :
    (e.addRole cm resource action roles roleName).found effect =
      (e.found effect || (roleIndex roles (trimSpace roleName)).rules.any
        fun rule => rule.Applies cm resource action effect) := by
  rw [RBACEvaluation.addRole, foldl_flag (found_addRule _)]
  cases effect <;> rfl

theorem found_addBinding (roles : List RBACRole) (subject : RBACSubject) (e : RBACEvaluation)
    (binding : RBACBinding) :
    (e.addBinding cm resource action roles subject binding).found effect =
      (e.found effect || (bindingMatchesSubject cm binding subject &&
        binding.roles.any fun roleName => (roleIndex roles (trimSpace roleName)).rules.any
          fun rule => rule.Applies cm resource action effect)) := by
  rw [RBACEvaluation.addBinding]
  split
  next h => rw [foldl_flag (found_addRole _), h, Bool.true_and]
  next h => simp [h]

theorem found_addSubject (e : RBACEvaluation) (subject : RBACSubject) :
    (e.addSubject cm resource action spec subject).found effect =
      (e.found effect || spec.bindings.any fun binding =>
        bindingMatchesSubject cm binding subject &&
          binding.roles.any fun roleName => (roleIndex spec.roles (trimSpace roleName)).rules.any
            fun rule => rule.Applies cm resource action effect) := by
  rw [RBACEvaluation.addSubject, foldl_flag (found_addBinding _ _)]

end

/-- The effective subjects are the normalised ones that have a type and an id. -/
theorem mem_normalizedSubjects :
    subject ∈ normalizedSubjects cm subjects ↔
      (subject.type ≠ "" ∧ subject.id ≠ "") ∧ ∃ s ∈ subjects, normalizeSubject cm s = subject := by
  suffices ∀ init, subject ∈ subjects.foldl (fun normalized s =>
      let s := normalizeSubject cm s
      if s.type = "" ∨ s.id = "" then normalized
      else if s ∈ normalized then normalized
      else normalized ++ [s]) init ↔ subject ∈ init ∨ ((subject.type ≠ "" ∧ subject.id ≠ "") ∧
        ∃ s ∈ subjects, normalizeSubject cm s = subject) by
    simpa [normalizedSubjects] using this []
  induction subjects with
  | nil => simp
  | cons s subjects ih =>
    intro init
    rw [List.foldl_cons, ih]
    dsimp only
    split
    · grind
    · split <;> grind

/-- The texts of an effective subject are trimmed and not empty. -/
theorem trimmed_of_mem_normalizedSubjects (h : subject ∈ normalizedSubjects cm subjects) :
    (trimSpace subject.type = subject.type ∧ subject.type ≠ "") ∧
      trimSpace subject.id = subject.id ∧ subject.id ≠ "" := by
  obtain ⟨hne, s, -, rfl⟩ := mem_normalizedSubjects.1 h
  exact ⟨⟨trimSpace_toLower_trimSpace cm _, hne.1⟩, trimSpace_trimSpace _, hne.2⟩

theorem nodup_roleNames (h : validateRBACSpec cm spec = .ok ()) :
    (spec.roles.map fun role => trimSpace role.name).Nodup := by
  rw [validateRBACSpec, require_bind, unit_bind_eq_ok] at h
  refine (nodup_of_validateEach ?_ h.2.1).1
  intro seen role hrole
  simp only [validateRBACRole, require_bind, decide_eq_true_eq] at hrole
  exact hrole.2.1

theorem exists_role (h : validateRBACSpec cm spec = .ok ()) {binding : RBACBinding}
    (hbinding : binding ∈ spec.bindings) (hname : roleName ∈ binding.roles) :
    ∃ role ∈ spec.roles, trimSpace role.name = trimSpace roleName := by
  rw [validateRBACSpec, require_bind, unit_bind_eq_ok] at h
  obtain ⟨-, hcheck⟩ := exists_check_of_validateEach h.2.2 hbinding
  simp only [validateRBACBinding, require_bind] at hcheck
  obtain ⟨-, hrole⟩ := exists_check_of_validateEach hcheck.2.2.2.2 hname
  rw [require_eq_ok, decide_eq_true_eq] at hrole
  exact List.mem_map.1 hrole

theorem roleIndex_eq (h : validateRBACSpec cm spec = .ok ()) {role : RBACRole}
    (hrole : role ∈ spec.roles) (hname : trimSpace role.name = trimSpace roleName) :
    roleIndex spec.roles (trimSpace roleName) = role := by
  rw [← hname]
  exact index_of_mem (nodup_roleNames h) hrole

/-- The loops find a rule of an effect exactly when a binding reaches one. -/
theorem found_iff_reaches (h : validateRBACSpec cm spec = .ok ()) (effect : Effect) :
    ((normalizedSubjects cm subjects).foldl (RBACEvaluation.addSubject cm (trimSpace resource)
      (trimSpace action) spec) {}).found effect = true ↔
      Reaches cm spec subjects resource action effect := by
  have hinit : RBACEvaluation.found effect {} = false := by cases effect <;> rfl
  rw [foldl_flag found_addSubject, hinit, Bool.false_or]
  simp only [List.any_eq_true, Bool.and_eq_true, decide_eq_true_eq, Reaches]
  constructor
  · rintro ⟨subject, hsubject, binding, hbinding, hbound, roleName, hname, rule, hrule, happlies⟩
    obtain ⟨role, hrole, heq⟩ := exists_role h hbinding hname
    rw [roleIndex_eq h hrole heq] at hrule
    exact ⟨subject, hsubject, binding, hbinding, hbound, roleName, hname, role, hrole, heq, rule,
      hrule, happlies⟩
  · rintro ⟨subject, hsubject, binding, hbinding, hbound, roleName, hname, role, hrole, heq, rule,
      hrule, happlies⟩
    rw [← roleIndex_eq h hrole heq] at hrule
    exact ⟨subject, hsubject, binding, hbinding, hbound, roleName, hname, rule, hrule, happlies⟩

/-- What an evaluation needs. -/
structure Evaluable (cm : CaseMap) (spec : RBACManifestSpec) (subjects : List RBACSubject)
    (resource action : String) : Prop where
  valid : validateRBACSpec cm spec = .ok ()
  resource : trimSpace resource ≠ ""
  action : trimSpace action ≠ ""
  subjects : normalizedSubjects cm subjects ≠ []

theorem evaluateRBACSubjects_eq_ok :
    evaluateRBACSubjects cm spec subjects resource action = .ok result ↔
      Evaluable cm spec subjects resource action ∧
      ∃ e, (normalizedSubjects cm subjects).foldl (RBACEvaluation.addSubject cm
          (trimSpace resource) (trimSpace action) spec) {} = e ∧
        result = (!e.denyMatch && e.allowMatch, e.matchedRoles, e.matchedRules) := by
  rw [evaluateRBACSubjects, unit_bind_eq_ok, require_bind, require_bind, Except.ok.injEq,
    Bool.not_eq_true', Bool.or_eq_false_iff, decide_eq_false_iff_not, decide_eq_false_iff_not,
    Bool.not_eq_true', List.isEmpty_eq_false_iff]
  constructor
  · rintro ⟨hvalid, ⟨hresource, haction⟩, hsubjects, rfl⟩
    exact ⟨⟨hvalid, hresource, haction, hsubjects⟩, _, rfl, rfl⟩
  · rintro ⟨⟨hvalid, hresource, haction, hsubjects⟩, _, rfl, rfl⟩
    exact ⟨hvalid, ⟨hresource, haction⟩, hsubjects, rfl⟩

theorem exists_evaluateRBACSubjects :
    (∃ result, evaluateRBACSubjects cm spec subjects resource action = .ok result) ↔
      Evaluable cm spec subjects resource action := by
  constructor
  · rintro ⟨result, h⟩
    exact (evaluateRBACSubjects_eq_ok.1 h).1
  · intro h
    exact ⟨_, evaluateRBACSubjects_eq_ok.2 ⟨h, _, rfl, rfl⟩⟩

/-- An evaluation allows when an allowing rule is reached and no denying one is. -/
theorem allowed_iff_reaches
    (h : evaluateRBACSubjects cm spec subjects resource action = .ok result) :
    result.1 = true ↔ Reaches cm spec subjects resource action .allow ∧
      ¬ Reaches cm spec subjects resource action .deny := by
  obtain ⟨heval, e, rfl, rfl⟩ := evaluateRBACSubjects_eq_ok.1 h
  rw [← found_iff_reaches heval.valid, ← found_iff_reaches heval.valid]
  simp [RBACEvaluation.found, and_comm]

end Yggdrasil.Manifest
