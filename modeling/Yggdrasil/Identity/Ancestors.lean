import Mathlib.Data.List.Nodup
import Mathlib.Data.List.Perm.Subperm

/-!
# The ancestors of teams

The teams of a collaborator count with all their ancestors. A parent that is not found ends its
branch, and any other failure of a lookup ends the search.
-/

namespace Yggdrasil.Identity.Ancestors

/-- A team, of which the search reads the ids only. -/
structure Team where
  id : String
  parentTeamID : Option String
  deriving DecidableEq

/-- The UUID of zeros. -/
def uuidNil : String := "00000000-0000-0000-0000-000000000000"

-- A lookup finds a team, does not find one (`none`), or fails otherwise.
variable {ε : Type} (resolve : String → Except ε (Option Team))

/-- The parent of a team, if it has one that is found. -/
def parentTeam (team : Team) : Except ε (Option Team) :=
  match team.parentTeamID with
  | none => .ok none
  | some parentTeamID => if parentTeamID = uuidNil then .ok none else resolve parentTeamID

/-- The loop over the queue: `none` when the fuel is used up before the queue is empty. -/
def expandFrom : ℕ → List Team → List Team → Option (Except ε (List Team))
  | _, expanded, [] => some (.ok expanded)
  | 0, _, _ :: _ => none
  | fuel + 1, expanded, team :: queue =>
    if team.id ∈ expanded.map Team.id then expandFrom fuel expanded queue
    else
      match parentTeam resolve team with
      | .ok parent => expandFrom fuel (expanded ++ [team]) (queue ++ parent.toList)
      | .error err => some (.error err)

/-- The teams with all their ancestors. -/
def expandAncestorTeams (fuel : ℕ) (seed : List Team) : Option (Except ε (List Team)) :=
  if seed = [] then some (.ok []) else expandFrom resolve fuel [] seed

variable (seed : List Team)

/-- The teams of the seed, and the parents that are found of teams that are reached. -/
inductive Reached : Team → Prop
  | seed {t : Team} : t ∈ seed → Reached t
  | parent {t t' : Team} : Reached t → parentTeam resolve t = .ok (some t') → Reached t'

/-- The teams that are reached, each of them once, or the failure of a lookup for one. -/
def Ends : Except ε (List Team) → Prop
  | .ok out => (out.map Team.id).Nodup ∧ (∀ t, t ∈ out ↔ Reached resolve seed t) ∧
      ∀ t ∈ out, ∃ parent, parentTeam resolve t = .ok parent
  | .error err => ∃ t, Reached resolve seed t ∧ parentTeam resolve t = .error err

/-- The search is in the graph of the teams, which have ids of their own. -/
structure Within (teams : List Team) : Prop where
  ids : ∀ t ∈ teams, ∀ t' ∈ teams, t.id = t'.id → t = t'
  seeds : ∀ t ∈ seed, t ∈ teams
  lookups : ∀ id t, resolve id = .ok (some t) → t ∈ teams

/-- What the loop maintains. -/
structure Maintains (expanded queue : List Team) : Prop where
  nodup : (expanded.map Team.id).Nodup
  reached : ∀ t ∈ expanded ++ queue, Reached resolve seed t
  seeds : ∀ t ∈ seed, t.id ∈ (expanded ++ queue).map Team.id
  closed : ∀ t ∈ expanded, ∃ parent, parentTeam resolve t = .ok parent ∧
    ∀ t' ∈ parent, t'.id ∈ (expanded ++ queue).map Team.id

variable {resolve seed} {team : Team} {teams expanded queue : List Team}

theorem Maintains.skip (h : Maintains resolve seed expanded (team :: queue))
    (hold : team.id ∈ expanded.map Team.id) : Maintains resolve seed expanded queue := by
  obtain ⟨hnodup, hreached, hseeds, hclosed⟩ := h
  constructor <;> grind

/-- A new team is expanded, and its parent is queued. -/
theorem Maintains.expand {parent : Option Team}
    (h : Maintains resolve seed expanded (team :: queue))
    (hnew : team.id ∉ expanded.map Team.id) (hparent : parentTeam resolve team = .ok parent) :
    Maintains resolve seed (expanded ++ [team]) (queue ++ parent.toList) := by
  obtain ⟨hnodup, hreached, hseeds, hclosed⟩ := h
  have hfound : ∀ t ∈ parent, Reached resolve seed t := fun t ht =>
    (hreached team (by simp)).parent (hparent.trans (congrArg _ ht))
  refine ⟨by grind, by grind, by grind, fun t ht => ?_⟩
  rcases List.mem_append.1 ht with ht | ht
  · obtain ⟨parent', hok, hin⟩ := hclosed t ht
    exact ⟨parent', hok, by grind⟩
  · cases List.mem_singleton.1 ht
    exact ⟨parent, hparent, fun t' ht' => List.mem_map_of_mem (by simp [Option.mem_def.1 ht'])⟩

section

variable (h : Within resolve seed teams)

include h

theorem Within.mem {t : Team} (ht : Reached resolve seed t) : t ∈ teams := by
  induction ht with
  | seed ht => exact h.seeds _ ht
  | parent _ hparent _ =>
    rw [parentTeam] at hparent
    split at hparent
    · cases hparent
    · split_ifs at hparent
      · cases hparent
      · exact h.lookups _ _ hparent

/-- With an empty queue everything that is reached has been expanded. -/
theorem Within.ends (hloop : Maintains resolve seed expanded []) :
    Ends resolve seed (.ok expanded) := by
  obtain ⟨hnodup, hreached, hseeds, hclosed⟩ := hloop
  simp only [List.append_nil] at hreached hseeds hclosed
  have hown {t : Team} (ht : Reached resolve seed t) (hid : t.id ∈ expanded.map Team.id) :
      t ∈ expanded := by
    obtain ⟨t', ht', heq⟩ := List.mem_map.1 hid
    exact h.ids t' (h.mem (hreached t' ht')) t (h.mem ht) heq ▸ ht'
  refine ⟨hnodup, fun t => ⟨hreached t, fun ht => ?_⟩, fun t ht => ?_⟩
  · induction ht with
    | seed ht => exact hown (.seed ht) (hseeds _ ht)
    | parent ht hparent ih =>
      obtain ⟨parent, hok, hin⟩ := hclosed _ ih
      cases hparent.symm.trans hok
      exact hown (ht.parent hparent) (hin _ rfl)
  · obtain ⟨parent, hok, -⟩ := hclosed t ht
    exact ⟨parent, hok⟩

/-- Each turn of the loop takes a team off the queue or expands one more of the graph. -/
theorem Within.expandFrom_ends (fuel : ℕ) (hloop : Maintains resolve seed expanded queue)
    (hfuel : queue.length + (teams.length - expanded.length) ≤ fuel) :
    ∃ result, expandFrom resolve fuel expanded queue = some result ∧ Ends resolve seed result := by
  fun_induction expandFrom resolve fuel expanded queue with
  | case1 => exact ⟨_, rfl, h.ends hloop⟩
  | case2 => simp at hfuel
  | case3 fuel expanded team queue hold ih =>
    rw [List.length_cons] at hfuel
    exact ih (hloop.skip hold) (by omega)
  | case4 fuel expanded team queue hnew parent hparent ih =>
    have hnext := hloop.expand hnew hparent
    have hsub : expanded ++ [team] ⊆ teams := fun t ht =>
      h.mem (hnext.reached t (List.mem_append_left _ ht))
    have hle := (hnext.nodup.of_map.subperm hsub).length_le
    have hone : parent.toList.length ≤ 1 := by cases parent <;> simp
    simp only [List.length_append, List.length_cons, List.length_nil] at hle hfuel
    refine ih hnext ?_
    simp only [List.length_append, List.length_cons, List.length_nil]
    omega
  | case5 fuel expanded team queue hnew err herr =>
    exact ⟨_, rfl, team, hloop.reached team (by simp), herr⟩

end

/-- In a finite graph the search ends, with the teams reached or with a failure. -/
theorem expandAncestorTeams_ends (h : Within resolve seed teams) (fuel : ℕ)
    (hfuel : seed.length + teams.length ≤ fuel) :
    ∃ result, expandAncestorTeams resolve fuel seed = some result ∧ Ends resolve seed result := by
  have hstart : Maintains resolve seed [] seed :=
    ⟨List.nodup_nil, fun t ht => .seed ht, fun t ht => List.mem_map_of_mem ht, nofun⟩
  rw [expandAncestorTeams]
  split_ifs with hempty
  · subst hempty
    exact ⟨_, rfl, h.ends hstart⟩
  · exact h.expandFrom_ends fuel hstart hfuel

/-- Two teams, each of them the parent of the other. -/
def cycle (id : String) : Except Unit (Option Team) :=
  .ok (if id = "a" then some ⟨"a", "b"⟩ else some ⟨"b", "a"⟩)

theorem expandAncestorTeams_cycle : ∃ result,
    expandAncestorTeams cycle 4 [⟨"a", "b"⟩, ⟨"a", "b"⟩] = some result ∧
      Ends cycle [⟨"a", "b"⟩, ⟨"a", "b"⟩] result := by
  have hwithin : Within cycle [⟨"a", "b"⟩, ⟨"a", "b"⟩] [⟨"a", "b"⟩, ⟨"b", "a"⟩] :=
    ⟨by decide, by decide, by grind [cycle]⟩
  exact expandAncestorTeams_ends hwithin 4 (Nat.le_refl 4)

end Yggdrasil.Identity.Ancestors
