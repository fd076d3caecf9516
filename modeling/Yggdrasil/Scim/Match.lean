import Yggdrasil.Scim.Filter

/-!
# Selecting users and groups

An attribute that a resource does not have is empty for a user, while no group matches a comparison
with one. Of a conjunction, the selection of groups takes the first comparison only.
-/

namespace Yggdrasil.Scim

open Check Text

/-- What filters see of a user. -/
structure Collaborator where
  slug : String
  primaryEmail : String
  displayName : String
  status : String

/-- What filters see of a group. -/
structure Team where
  slug : String
  name : String
  deriving DecidableEq

variable (cm : CaseMap)

/-- The comparison holds of a text. -/
def matchOne (haystack : String) (f : Filter) : Bool :=
  let value := f.value.text
  match f.operator with
  | .eq => equalFold cm haystack value
  | .ne => !equalFold cm haystack value
  | .co => contains (toLower cm haystack) (toLower cm value)
  | .sw => hasPrefix (toLower cm haystack) (toLower cm value)
  | .ew => (toLower cm value).toList <:+ (toLower cm haystack).toList
  | .pr => trimSpace haystack ≠ ""

/-- The attribute of a user, empty if it is unknown. -/
def getCollaboratorAttr (c : Collaborator) (name : String) : String :=
  if name = "username" then
    if c.primaryEmail ≠ "" then toLower cm c.primaryEmail else c.slug
  else if name = "externalid" then c.slug
  else if name = "emails" then c.primaryEmail
  else if name = "displayname" then c.displayName
  else if name = "active" then
    if equalFold cm c.status "active" || equalFold cm c.status "on_leave" then "true" else "false"
  else ""

/-- The user meets both comparisons. -/
def matchUser (c : Collaborator) : Option Filter → Bool
  | none => true
  | some f =>
    matchOne cm (getCollaboratorAttr cm c f.attr) f &&
      match f.and with
      | none => true
      | some g => matchOne cm (getCollaboratorAttr cm c g.attr) g

/-- The group meets the first comparison. -/
def matchGroup (t : Team) : Option Filter → Bool
  | none => true
  | some f =>
    if f.attr = "displayname" then matchOne cm t.name f
    else if f.attr = "externalid" then matchOne cm ("team:" ++ t.slug) f
    else false

/-- The users that are listed. -/
def filterCollaborators (users : List Collaborator) (f : Option Filter) : List Collaborator :=
  users.filter (matchUser cm · f)

/-- The teams of which the groups are listed. -/
def filterTeams (teams : List Team) (f : Option Filter) : List Team :=
  teams.filter (matchGroup cm · f)

/-! ## Conjunctions -/

/-- Two trimmed texts of one comparison each, whose conjunction is found where it is in the text. -/
structure Conjoined (left right : String) (f g : Filter) : Prop where
  parsed : parseFilter cm left = .ok (some f) ∧ parseFilter cm right = .ok (some g)
  simple : f.and = none ∧ g.and = none
  trimmed : (Runes.ofString left).Trimmed ∧ (Runes.ofString right).Trimmed
  offset : Runes.index (.ofString " and ")
    ((Runes.ofString (left ++ " and " ++ right)).toLower cm) = some (Runes.ofString left).size

/-- The conjunction is in lower case already. -/
def KeepsConjunction : Prop := (Runes.ofString " and ").toLower cm = .ofString " and "

variable {cm} {f g : Filter} {s t : Runes}

theorem refused_conjunction (hkeeps : KeepsConjunction cm) (hs : refused cm s = false)
    (ht : refused cm t = false) : refused cm (s ++ .ofString " and " ++ t) = false := by
  simp only [refused, Bool.or_eq_false_iff, List.any_append, containsLowercaseToken,
    decide_eq_false_iff_not] at hs ht ⊢
  refine ⟨⟨⟨hs.1, by decide +kernel⟩, ht.1⟩, fun h => ?_⟩
  have hlower : Runes.toLower cm (s ++ .ofString " and " ++ t) =
      s.toLower cm ++ .ofString " and " ++ t.toLower cm := by
    have htoLower (s t : Runes) : Runes.toLower cm (s ++ t) = s.toLower cm ++ t.toLower cm :=
      List.map_append
    rw [htoLower, htoLower, hkeeps]
  rw [hlower] at h
  -- The token is before the first blank of the conjunction, or after the second.
  rcases infix_append_mark (l := Runes.ofString " " ++ s.toLower cm)
    (r := Runes.ofString "and " ++ t.toLower cm ++ Runes.ofString " ") (a := .char ' ')
    (m := [.char 'o', .char 'r']) (by decide) (by simpa [Runes.ofString] using h) with h | h
  · exact hs.2 h
  rcases infix_append_mark (l := Runes.ofString " and") (r := t.toLower cm ++ Runes.ofString " ")
    (a := .char ' ') (m := [.char 'o', .char 'r']) (by decide)
    (by simpa [Runes.ofString] using h) with h | h
  · exact absurd h (by decide +kernel)
  · exact ht.2 h

/-- A text that is read as one comparison is not refused, and is the text of the comparison. -/
theorem parseSimple_of_parseFilter {raw : String} (hparse : parseFilter cm raw = .ok (some f))
    (hand : f.and = none) :
    (Runes.ofString raw).trimSpace ≠ [] ∧ refused cm (Runes.ofString raw).trimSpace = false ∧
      parseSimple cm (Runes.ofString raw).trimSpace = .ok f := by
  rw [parseFilter] at hparse
  dsimp only at hparse
  split_ifs at hparse with hempty hrefused
  · cases hparse
  refine ⟨hempty, by simpa using hrefused, ?_⟩
  obtain ⟨⟨left, right⟩, hsplit, hparse⟩ := bind_eq_ok.1 hparse
  obtain ⟨f', hf, hparse⟩ := bind_eq_ok.1 hparse
  cases right with
  | none =>
    cases hparse
    rw [splitOnceCaseInsensitive] at hsplit
    split at hsplit
    · cases hsplit
      exact hf
    · obtain ⟨_, -, hsplit⟩ := bind_eq_ok.1 hsplit
      obtain ⟨_, -, hsplit⟩ := bind_eq_ok.1 hsplit
      cases hsplit
  | some right =>
    obtain ⟨g, -, hparse⟩ := bind_eq_ok.1 hparse
    cases hparse
    cases hand

theorem splitOnceCaseInsensitive_append {sep : Runes}
    (hindex : Runes.index (sep.toLower cm) ((s ++ sep ++ t).toLower cm) = some s.size) :
    splitOnceCaseInsensitive cm (s ++ sep ++ t) sep = .ok (s, some t) := by
  have hleft : slice (s ++ sep ++ t) 0 s.size = .ok s := by
    rw [slice, List.append_assoc, Runes.slice_left]
  have hright : slice (s ++ sep ++ t) (s.size + sep.size) (s ++ sep ++ t).size = .ok t := by
    have h := Runes.slice_right (s ++ sep) t
    rw [Runes.size_append s sep, Nat.cast_add] at h
    rw [slice, h]
  rw [splitOnceCaseInsensitive, hindex]
  dsimp only
  rw [hleft, hright]
  rfl

/-- The texts of two comparisons, conjoined, are read as the conjunction of the two. -/
theorem parseFilter_conjunction (hkeeps : KeepsConjunction cm) {left right : String}
    (h : Conjoined cm left right f g) :
    parseFilter cm (left ++ " and " ++ right) = .ok (some { f with and := some g }) := by
  obtain ⟨hs', hsrefused, hs⟩ := parseSimple_of_parseFilter h.parsed.1 h.simple.1
  obtain ⟨ht', htrefused, ht⟩ := parseSimple_of_parseFilter h.parsed.2 h.simple.2
  rw [h.trimmed.1.trimSpace] at hs' hsrefused hs
  rw [h.trimmed.2.trimSpace] at ht' htrefused ht
  have happend : Runes.ofString (left ++ " and " ++ right) =
      .ofString left ++ .ofString " and " ++ .ofString right := by
    simp [Runes.ofString]
  have hoffset := h.offset
  rw [happend] at hoffset
  rw [parseFilter, happend, (h.trimmed.1.append hs' h.trimmed.2 ht' _).trimSpace]
  dsimp only
  rw [if_neg (by simp [hs']), refused_conjunction hkeeps hsrefused htrefused, if_neg (by simp),
    splitOnceCaseInsensitive_append (by rwa [hkeeps])]
  exact bind_eq_ok.2 ⟨_, rfl, bind_eq_ok.2 ⟨_, hs, bind_eq_ok.2 ⟨_, ht, rfl⟩⟩⟩

/-- A value that is the word of the conjunction is taken for the conjunction. -/
example : parseFilter ascii ("userName eq and" ++ " and " ++ "active pr") =
    .error .unsupportedFilter := by
  rfl

/-- A value that is longer in lower case moves the conjunction. -/
example : parseFilter latin ("displayName eq \"ȺȺ\"" ++ " and " ++ "userName sw \"x\"") =
    .ok (some ⟨"displayname", .eq, .ofString "ȺȺ\" a",
      some ⟨"ername", .sw, .ofString "x", none⟩⟩) := by
  rfl

/-- The conjunction of two comparisons selects what both select, of the users always, and of the
    groups when those of the first are of the second. -/
theorem conjunction_selects (hkeeps : KeepsConjunction cm) {left right : String}
    (h : Conjoined cm left right f g) (users : List Collaborator) (teams : List Team) :
    (∃ conjunction, parseFilter cm (left ++ " and " ++ right) = .ok conjunction ∧
      filterCollaborators cm users conjunction =
        users.filter (fun c => matchUser cm c (some f) && matchUser cm c (some g)) ∧
      filterTeams cm teams conjunction =
        teams.filter (fun t => matchGroup cm t (some f) && matchGroup cm t (some g))) ↔
      ∀ t ∈ teams, matchGroup cm t (some f) = true → matchGroup cm t (some g) = true := by
  have husers : filterCollaborators cm users (some { f with and := some g }) =
      users.filter (fun c => matchUser cm c (some f) && matchUser cm c (some g)) := by
    simp only [filterCollaborators, matchUser, h.simple.1, h.simple.2, Bool.and_true]
    rfl
  -- A group is selected by a conjunction when its first comparison selects it.
  have hteams : teams.filter (fun t => matchGroup cm t (some f) && matchGroup cm t (some g)) =
      (filterTeams cm teams (some { f with and := some g })).filter (matchGroup cm · (some g)) := by
    rw [filterTeams, List.filter_filter]
    exact List.filter_congr fun t _ => Bool.and_comm _ _
  simp only [parseFilter_conjunction hkeeps h, Except.ok.injEq, exists_eq_left', husers, true_and]
  rw [hteams, eq_comm, List.filter_eq_self]
  simp only [filterTeams, List.mem_filter, and_imp]
  rfl

/-- A comparison of the name with a value. -/
def Filter.named (operator : Operator) (value : String) (and : Option Filter) : Filter :=
  ⟨"displayname", operator, .ofString value, and⟩

theorem conjunction_selects_named :
    ∃ conjunction, parseFilter ascii ("displayName sw \"a\"" ++ " and " ++ "displayName ew \"z\"") =
        .ok conjunction ∧
      filterTeams ascii [⟨"atlas", "abcz"⟩, ⟨"boreas", "bz"⟩] conjunction =
        [⟨"atlas", "abcz"⟩] := by
  have hconjoined : Conjoined ascii "displayName sw \"a\"" "displayName ew \"z\""
      (.named .sw "a" none) (.named .ew "z" none) :=
    ⟨⟨by rfl, by rfl⟩, ⟨rfl, rfl⟩, ⟨⟨by decide +kernel, by decide +kernel⟩,
      by decide +kernel, by decide +kernel⟩, by decide +kernel⟩
  obtain ⟨conjunction, hparse, -, hteams⟩ := (conjunction_selects (by rfl) hconjoined []
    [⟨"atlas", "abcz"⟩, ⟨"boreas", "bz"⟩]).2 (by decide +kernel)
  refine ⟨conjunction, hparse, hteams.trans ?_⟩
  decide +kernel

/-- A group that the second comparison does not select is selected by the conjunction. -/
theorem not_conjunction_selects :
    parseFilter ascii ("displayName sw \"a\"" ++ " and " ++ "displayName ew \"z\"") =
        .ok (some (.named .sw "a" (some (.named .ew "z" none)))) ∧
      filterTeams ascii [⟨"atlas", "abc"⟩] (some (.named .sw "a" (some (.named .ew "z" none)))) =
        [⟨"atlas", "abc"⟩] ∧
      matchGroup ascii ⟨"atlas", "abc"⟩ (some (.named .ew "z" none)) = false :=
  ⟨by rfl, by decide +kernel, by decide +kernel⟩

end Yggdrasil.Scim
