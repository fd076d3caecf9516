import Yggdrasil.Manifest.Rbac

/-!
# Catch-all rules

A rule about everything is written with the pattern `*`, or with `*.*`. As shell patterns neither
takes a slash, and the second takes no text without a dot.
-/

namespace Yggdrasil.Manifest

open Text

/-- The patterns of a rule about everything. -/
def catchAlls : List (List String) := [["*"], ["*.*"]]

variable (cm : CaseMap)

/-- The value has no slash, and a dot where a pattern has one, or is a pattern up to case. -/
def Spans (patterns : List String) (value : String) : Prop :=
  ∃ pattern ∈ patterns,
    ('/' ∉ value.toList ∧ ('.' ∈ pattern.toList → '.' ∈ value.toList)) ∨
      equalFold cm pattern value = true

/-- Some binding of some effective subject gives a role of which the rule is one. -/
def Bound (spec : RBACManifestSpec) (subjects : List RBACSubject) (rule : RBACRule) : Prop :=
  ∃ subject ∈ normalizedSubjects cm subjects, ∃ binding ∈ spec.bindings,
    bindingMatchesSubject cm binding subject = true ∧
    ∃ roleName ∈ binding.roles, ∃ role ∈ spec.roles,
      trimSpace role.name = trimSpace roleName ∧ rule ∈ role.rules

variable {cm} {spec : RBACManifestSpec} {subjects : List RBACSubject} {rule : RBACRule}
  {resource action : String}

theorem Bound.reaches {effect : Effect} (h : Bound cm spec subjects rule)
    (happlies : rule.Applies cm (trimSpace resource) (trimSpace action) effect) :
    Reaches cm spec subjects resource action effect := by
  obtain ⟨subject, hsubject, binding, hbinding, hbound, roleName, hname, role, hrole, heq,
    hrule⟩ := h
  exact ⟨subject, hsubject, binding, hbinding, hbound, roleName, hname, role, hrole, heq, rule,
    hrule, happlies⟩

/-- A catch-all pattern takes the texts without a slash, and with a dot where it has one. -/
theorem patternMatches_catchAll {pattern value : String} (h : [pattern] ∈ catchAlls) :
    patternMatches cm value pattern = true ↔
      ('/' ∉ value.toList ∧ ('.' ∈ pattern.toList → '.' ∈ value.toList)) ∨
        equalFold cm pattern value = true := by
  simp only [catchAlls, List.mem_cons, List.cons.injEq, and_true, List.not_mem_nil,
    or_false] at h
  obtain rfl | rfl := h
  · have htrim : trimSpace "*" = "*" := by decide +kernel
    simp [patternMatches, htrim, Glob.pathMatch_star]
  · have htrim : trimSpace "*.*" = "*.*" := by decide +kernel
    simp [patternMatches, htrim, Glob.pathMatch_star_dot_star]

theorem anyPatternMatch_catchAll {patterns : List String} {value : String}
    (h : patterns ∈ catchAlls) :
    anyPatternMatch cm patterns value = true ↔ Spans cm patterns value := by
  obtain ⟨pattern, rfl⟩ : ∃ pattern, patterns = [pattern] := by
    simp only [catchAlls, List.mem_cons, List.not_mem_nil, or_false] at h
    obtain rfl | rfl := h
    · exact ⟨_, rfl⟩
    · exact ⟨_, rfl⟩
  simp [anyPatternMatch, Spans, patternMatches_catchAll h]

/-- A catch-all rule decides exactly the resources and actions that its patterns take. -/
theorem catchAll_decides (heval : Evaluable cm spec subjects resource action)
    (hbound : Bound cm spec subjects rule) (hresources : rule.resources ∈ catchAlls)
    (hactions : rule.actions ∈ catchAlls) :
    (ruleMatches cm rule (trimSpace resource) (trimSpace action) = true ∧
      ∃ result, evaluateRBACSubjects cm spec subjects resource action = .ok result ∧
        (normalizeEffect cm rule.effect = Effect.allow.text →
          ¬ Reaches cm spec subjects resource action .deny → result.1 = true) ∧
        (normalizeEffect cm rule.effect = Effect.deny.text → result.1 = false)) ↔
      Spans cm rule.resources (trimSpace resource) ∧ Spans cm rule.actions (trimSpace action) := by
  have hmatches : ruleMatches cm rule (trimSpace resource) (trimSpace action) = true ↔
      Spans cm rule.resources (trimSpace resource) ∧ Spans cm rule.actions (trimSpace action) := by
    rw [ruleMatches, Bool.and_eq_true, anyPatternMatch_catchAll hresources,
      anyPatternMatch_catchAll hactions]
  constructor
  · rintro ⟨h, -⟩
    exact hmatches.1 h
  · intro h
    have hrule := hmatches.2 h
    obtain ⟨result, hresult⟩ := exists_evaluateRBACSubjects.2 heval
    refine ⟨hrule, result, hresult, fun heffect hdeny => ?_, fun heffect => ?_⟩
    · exact (allowed_iff_reaches hresult).2 ⟨hbound.reaches ⟨hrule, heffect⟩, hdeny⟩
    · rw [← Bool.not_eq_true, allowed_iff_reaches hresult]
      exact fun h => h.2 (hbound.reaches ⟨hrule, heffect⟩)

/-- A role with the given rule, and another rule that allows what is asked. -/
def engineers (effect pattern asked : String) : RBACManifestSpec where
  roles := [⟨"admin", [⟨"", effect, [pattern], ["*"]⟩, ⟨"", "allow", [asked], ["read"]⟩]⟩]
  bindings := [⟨"engineering", [⟨"team", "engineering"⟩], ["admin"]⟩]

theorem catchAll_decides_create :
    ∃ result, evaluateRBACSubjects ascii (engineers "deny" "*.*" "manifest")
        [⟨"team", "engineering"⟩] "manifest.create" "read" = .ok result ∧ result.1 = false := by
  have heval : Evaluable ascii (engineers "deny" "*.*" "manifest") [⟨"team", "engineering"⟩]
      "manifest.create" "read" :=
    ⟨by decide +kernel, by decide +kernel, by decide +kernel, by decide +kernel⟩
  have hbound : Bound ascii (engineers "deny" "*.*" "manifest") [⟨"team", "engineering"⟩]
      ⟨"", "deny", ["*.*"], ["*"]⟩ := by
    refine ⟨⟨"team", "engineering"⟩, by decide +kernel, _, List.mem_singleton_self _,
      by decide +kernel, "admin", List.mem_singleton_self _, _, List.mem_singleton_self _, rfl,
      List.mem_cons_self⟩
  have hspans : Spans ascii ["*.*"] (trimSpace "manifest.create") ∧
      Spans ascii ["*"] (trimSpace "read") :=
    ⟨⟨_, List.mem_singleton_self _, .inl (by decide +kernel)⟩,
      ⟨_, List.mem_singleton_self _, .inl (by decide +kernel)⟩⟩
  obtain ⟨-, result, hresult, -, hdeny⟩ :=
    (catchAll_decides heval hbound (by decide) (by decide)).2 hspans
  exact ⟨result, hresult, hdeny (by decide +kernel)⟩

/-- A rule for everything does not allow a resource with a slash, or deny one without a dot. -/
theorem not_catchAll_decides :
    (evaluateRBACSubjects ascii (engineers "allow" "*" "manifest") [⟨"team", "engineering"⟩]
        "repository/core" "read").toOption.map Prod.fst = some false ∧
      (evaluateRBACSubjects ascii (engineers "deny" "*.*" "manifest") [⟨"team", "engineering"⟩]
        "manifest" "read").toOption.map Prod.fst = some true := by
  decide +kernel

end Yggdrasil.Manifest
