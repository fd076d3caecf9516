import Yggdrasil.Lib.Like
import Yggdrasil.Lib.Locks
import Yggdrasil.Lib.Table
import Yggdrasil.Lib.Value
import Yggdrasil.Lib.Workers

/-!
# The last grant that manages grants

A grant that confers power over the grants themselves is not revoked when it is the last of them:
its revocation counts the others before it deletes it. Revocations interleave statement by
statement.
-/

namespace Yggdrasil.Identity

open Function Text

/-! ## Grants and teams -/

/-- An action on an instance that a team may execute. -/
structure TeamGrant where
  id : String
  teamID : String
  integrationInstanceNamespace : String := ""
  integrationInstanceName : String
  actionName : String
  scope : Value := .nil
  grantedBy : Option String := none

/-- A team. -/
structure Team where
  id : String
  slug : String
  traits : Value.Fields := []

/-- The team has the power anyway. -/
def isTeamRootAdmin (team : Team) : Bool :=
  match team.traits.lookup "is_root_admin" with
  | some (.bool b) => b
  | _ => false

/-- The actions that confer power over grants. -/
def manageActions : List String := ["*", "manage_team_sources", "manage_team_permissions"]

/-- The action confers power over grants. -/
def isYggdrasilSelfManageGrant (integrationInstanceName action : String) : Bool :=
  hasPrefix integrationInstanceName "yggdrasil-self" && manageActions.contains action

/-- The grant confers power over grants. -/
def TeamGrant.manages (g : TeamGrant) : Bool :=
  isYggdrasilSelfManageGrant g.integrationInstanceName g.actionName

/-- How the decoder calls what is not an object. -/
def jsonKind : Value → String
  | .list _ => "array"
  | .str _ => "string"
  | .bool _ => "bool"
  | _ => "number"

/-- The entries of an object of the database. -/
def unmarshalJSONObject : Value → Except Fault Value.Fields
  | .map fields => .ok fields
  | .nil => .ok []
  | v => .error (.errorf
      "json: cannot unmarshal %s into Go value of type map[string]interface \x7b\x7d"
      [.text (jsonKind v)])

/-- How many other rows the database has that confer power over grants. -/
def siblingCount (grants : Table TeamGrant.id) (id : String) : ℕ :=
  grants.count fun g => g.id ≠ id && like g.integrationInstanceName "yggdrasil-self%" &&
    manageActions.contains g.actionName

/-- The pattern of the database and the test of the code agree. -/
theorem like_yggdrasil_self (s : String) :
    like s "yggdrasil-self%" = hasPrefix s "yggdrasil-self" := by
  have hparts : Wild.likeParts "yggdrasil-self%".toList =
      "yggdrasil-self".toList.map .lit ++ [.any] := by decide
  rw [like, hparts, Wild.accepts_lit_append_any, hasPrefix]

theorem siblingCount_ne_zero {grants : Table TeamGrant.id} {id : String} :
    siblingCount grants id ≠ 0 ↔ ∃ g ∈ grants, g.manages = true ∧ g.id ≠ id := by
  rw [siblingCount, Ne, Table.count_eq_zero]
  simp only [like_yggdrasil_self, not_forall, Bool.not_eq_false, Bool.and_eq_true,
    decide_eq_true_eq, TeamGrant.manages, isYggdrasilSelfManageGrant, exists_prop]
  exact exists_congr fun g => and_congr_right fun _ => ⟨fun ⟨⟨hid, hname⟩, haction⟩ =>
    ⟨⟨hname, haction⟩, hid⟩, fun ⟨⟨hname, haction⟩, hid⟩ => ⟨⟨hid, hname⟩, haction⟩⟩

/-! ## Revocations -/

/-- What is committed, and who has locked a row of the grants. -/
structure Db (W : Type) where
  grants : Table TeamGrant.id
  teams : Table Team.id
  locks : Locks W String := fun _ => none

/-- Where a revocation is: read, its team checked, others counted, or deleted. -/
inductive Phase
  | idle
  | begun (id : String)
  | selected (g : TeamGrant)
  | checked (g : TeamGrant)
  | counted (g : TeamGrant)
  | deleted (g : TeamGrant)
  | ended (outcome : Except Fault TeamGrant)

namespace Phase

/-- The grant that was read. -/
def grant? : Phase → Option TeamGrant
  | selected g | checked g | counted g | deleted g => some g
  | _ => none

/-- The grant that is about to be deleted. -/
def revoking? : Phase → Option TeamGrant
  | counted g | deleted g => some g
  | _ => none

/-- The revocation ends with an error. -/
def refused (format : String) : Phase := ended (.error (.errorf format []))

end Phase

/-- A revocation begins, executes its next statement, or fails at it. -/
inductive Call
  | revokeTeamGrant (grantID : String)
  | next
  | fail (e : Fault)

section Statements

variable {W : Type} (db : Db W)

/-- The grant is read. -/
def selectGrant (id : String) : Phase :=
  match db.grants.get? id with
  | none => .refused "grant not found"
  | some g =>
    match unmarshalJSONObject g.scope with
    | .error e => .ended (.error e)
    | .ok scope => .selected { g with scope := .map scope }

/-- The team of the grant is read. -/
def checkTeam (g : TeamGrant) : Phase :=
  match db.teams.get? g.teamID with
  | none => .refused "team not found"
  | some team =>
    if isTeamRootAdmin team then
      .ended (.error (.errorf ("team %q is protected (traits.is_root_admin=true); " ++
        "grants on the root admin team are frozen") [.quoted team.slug]))
    -- Only the grants with power over grants are counted.
    else if isYggdrasilSelfManageGrant g.integrationInstanceName g.actionName then .checked g
    else .counted g

/-- The other grants with this power are counted. -/
def countSiblings (g : TeamGrant) : Phase :=
  if siblingCount db.grants g.id = 0 then
    .refused ("refusing to revoke last grant that controls yggdrasil-self management; " ++
      "cluster would have no admin")
  else .counted g

variable [DecidableEq W] (i : W)

/-- The row is locked, once no other transaction has it, and is gone if that has deleted it. -/
def deleteGrant (g : TeamGrant) : Option (Db W × Phase) :=
  if ¬ db.locks.Free i g.id then none
  else
    match db.grants.get? g.id with
    | none => some (db, .refused "grant not found")
    | some _ => some ({ db with locks := db.locks.take i g.id }, .deleted g)

/-- The next statement of `revokeTeamGrantOn`, and the commit of its caller. -/
def revokeTeamGrantOn : Phase → Option (Db W × Phase)
  | .begun id => some (db, selectGrant db id)
  | .selected g => some (db, checkTeam db g)
  | .checked g => some (db, countSiblings db g)
  | .counted g => deleteGrant db i g
  | .deleted g =>
    some ({ db with grants := db.grants.filter (·.id ≠ g.id), locks := db.locks.release i },
      .ended (.ok g))
  | .idle | .ended _ => none

end Statements

variable {W : Type} [DecidableEq W]

/-- What a revocation does; `parse` reads the id of a grant. -/
def act (parse : String → Option String) (i : W) (call : Call) (db : Db W) (phase : Phase) :
    Option (Db W × Phase) :=
  match call, phase with
  | .revokeTeamGrant grantID, .idle | .revokeTeamGrant grantID, .ended _ =>
    match parse (trimSpace grantID) with
    | none => some (db, .refused "invalid grant_id")
    | some id => some (db, .begun id)
  | .revokeTeamGrant _, _ => none
  | .next, phase => revokeTeamGrantOn db i phase
  | .fail _, .idle | .fail _, .ended _ => none
  | .fail e, _ => some ({ db with locks := db.locks.release i }, .ended (.error e))

/-- What an act does with the committed grants and the phase of its revocation. -/
inductive Acts (grants : Table TeamGrant.id) :
    Call → Phase → Table TeamGrant.id → Phase → Prop
  | turns {call : Call} {phase phase' : Phase} (h : phase'.grant? = none) :
      Acts grants call phase grants phase'
  | selects {phase : Phase} {row g : TeamGrant} (hrow : row ∈ grants) (hid : g.id = row.id)
      (hmanages : g.manages = row.manages) : Acts grants .next phase grants (.selected g)
  | checks (g : TeamGrant) : Acts grants .next (.selected g) grants (.checked g)
  | passes {g : TeamGrant} (h : g.manages = false) :
      Acts grants .next (.selected g) grants (.counted g)
  | counts {g : TeamGrant} (h : siblingCount grants g.id ≠ 0) :
      Acts grants .next (.checked g) grants (.counted g)
  | deletes (g : TeamGrant) : Acts grants .next (.counted g) grants (.deleted g)
  | commits (g : TeamGrant) :
      Acts grants .next (.deleted g) (grants.filter (·.id ≠ g.id)) (.ended (.ok g))

section Acts

variable {parse : String → Option String} {i : W} {call : Call} {db db' : Db W}
  {phase phase' : Phase}

omit [DecidableEq W] in
theorem acts_selectGrant (id : String) :
    Acts db.grants .next phase db.grants (selectGrant db id) := by
  rw [selectGrant]
  cases hget : db.grants.get? id with
  | none => exact .turns rfl
  | some row =>
    dsimp only
    cases unmarshalJSONObject row.scope with
    | error e => exact .turns rfl
    | ok scope => exact .selects (Table.get?_eq_some.1 hget).1 rfl rfl

omit [DecidableEq W] in
theorem acts_checkTeam (g : TeamGrant) :
    Acts db.grants .next (.selected g) db.grants (checkTeam db g) := by
  rw [checkTeam]
  cases db.teams.get? g.teamID with
  | none => exact .turns rfl
  | some team =>
    dsimp only
    split_ifs with hroot hmanages
    · exact .turns rfl
    · exact .checks g
    · exact .passes (Bool.not_eq_true _ ▸ hmanages)

theorem acts_revokeTeamGrantOn (h : revokeTeamGrantOn db i phase = some (db', phase')) :
    Acts db.grants .next phase db'.grants phase' := by
  cases phase with
  | idle => cases h
  | ended outcome => cases h
  | begun id =>
    cases h
    exact acts_selectGrant id
  | selected g =>
    cases h
    exact acts_checkTeam g
  | checked g =>
    cases h
    rw [countSiblings]
    split_ifs with hcount
    · exact .turns rfl
    · exact .counts hcount
  | counted g =>
    rw [revokeTeamGrantOn, deleteGrant] at h
    by_cases hfree : db.locks.Free i g.id
    · rw [if_neg (not_not.2 hfree)] at h
      cases hget : db.grants.get? g.id with
      | none =>
        rw [hget] at h
        cases h
        exact .turns rfl
      | some row =>
        rw [hget] at h
        cases h
        exact .deletes g
    · simp [hfree] at h
  | deleted g =>
    cases h
    exact .commits g

theorem acts (h : act parse i call db phase = some (db', phase')) :
    Acts db.grants call phase db'.grants phase' := by
  cases call with
  | next => exact acts_revokeTeamGrantOn h
  | revokeTeamGrant grantID =>
    have hbegins (h : (match parse (trimSpace grantID) with
        | none => some (db, Phase.refused "invalid grant_id")
        | some id => some (db, .begun id)) = some (db', phase')) :
        Acts db.grants (.revokeTeamGrant grantID) phase db'.grants phase' := by
      cases hparse : parse (trimSpace grantID) with
      | none =>
        rw [hparse] at h
        cases h
        exact .turns rfl
      | some id =>
        rw [hparse] at h
        cases h
        exact .turns rfl
    cases phase with
    | idle => exact hbegins h
    | ended outcome => exact hbegins h
    | _ => cases h
  | fail e =>
    cases phase with
    | idle => cases h
    | ended outcome => cases h
    | _ =>
      cases h
      exact .turns rfl

end Acts

/-! ## Runs -/

/-- The states that revocations lead through, from one in which there are none. -/
def revocations (parse : String → Option String) (grants : Table TeamGrant.id)
    (teams : Table Team.id) (calls : ℕ → W × Call) : ℕ → World W (Db W) Phase :=
  World.after (act parse) calls ⟨{ grants, teams }, fun _ => .idle⟩

/-- No revocation is about to delete the grant. -/
def Spared (w : World W (Db W) Phase) (g : TeamGrant) : Prop :=
  ∀ j g', (w.own j).revoking? = some g' → g'.id ≠ g.id

/-- A revocation that counts other grants with power over grants counts one that is spared. -/
def Uncontended (w : World W (Db W) Phase) (call : W × Call) : Prop :=
  ∀ g, w.own call.1 = .checked g → call.2 = .next → siblingCount w.shared.grants g.id ≠ 0 →
    ∃ other ∈ w.shared.grants, other.manages = true ∧ other.id ≠ g.id ∧ Spared w other

omit [DecidableEq W] in
/-- It does when no other revocation is past its count. -/
theorem uncontended_of_forall {w : World W (Db W) Phase} (h : ∀ j, (w.own j).revoking? = none)
    (call : W × Call) : Uncontended w call := by
  intro g _ _ hcount
  obtain ⟨other, hother, hmanages, hid⟩ := siblingCount_ne_zero.1 hcount
  exact ⟨other, hother, hmanages, hid, fun j g' hj => by simp [h j] at hj⟩

/-- A managing grant is spared, and what revocations have read of a grant is still so. -/
structure Guarded (w : World W (Db W) Phase) : Prop where
  spared : ∃ g ∈ w.shared.grants, g.manages = true ∧ Spared w g
  read : ∀ j g, (w.own j).grant? = some g → ∀ row ∈ w.shared.grants, row.id = g.id →
    row.manages = g.manages

theorem Phase.grant?_of_revoking? {phase : Phase} {g : TeamGrant} (h : phase.revoking? = some g) :
    phase.grant? = some g := by
  cases phase <;> first | exact h | cases h

section Step

variable {parse : String → Option String} {w : World W (Db W) Phase} {call : W × Call} {i : W}
  {db : Db W} {phase : Phase} {g : TeamGrant}

theorem Spared.update (h : Spared w g)
    (hphase : ∀ g', phase.revoking? = some g' → g'.id ≠ g.id) :
    Spared ⟨db, update w.own i phase⟩ g :=
  (forall_update_iff w.own fun _ phase =>
    ∀ g', phase.revoking? = some g' → g'.id ≠ g.id).2 ⟨hphase, fun j _ => h j⟩

/-- What revocations have read stays so when one of them has read a row, and no row is new. -/
theorem Guarded.read_update (h : Guarded w) (hgrants : ∀ row ∈ db.grants, row ∈ w.shared.grants)
    (hphase : ∀ g, phase.grant? = some g → (w.own i).grant? = some g ∨
      ∃ row ∈ w.shared.grants, g.id = row.id ∧ g.manages = row.manages) :
    ∀ j g, (update w.own i phase j).grant? = some g → ∀ row ∈ db.grants, row.id = g.id →
      row.manages = g.manages := by
  rw [forall_update_iff w.own fun _ phase => ∀ g, phase.grant? = some g →
    ∀ row ∈ db.grants, row.id = g.id → row.manages = g.manages]
  refine ⟨fun g hg row hrow hid => ?_,
    fun j _ g hg row hrow hid => h.read j g hg row (hgrants row hrow) hid⟩
  rcases hphase g hg with hold | ⟨row', hrow', hid', hmanages⟩
  · exact h.read i g hold row (hgrants row hrow) hid
  · rw [hmanages, Table.eq_of_key_eq (hgrants row hrow) hrow' (hid.trans hid')]

/-- The grants stay, and no revocation is newly about to delete a managing one. -/
theorem Guarded.update (h : Guarded w) (hgrants : db.grants = w.shared.grants)
    (hphase : ∀ g, phase.grant? = some g → (w.own i).grant? = some g ∨
      ∃ row ∈ w.shared.grants, g.id = row.id ∧ g.manages = row.manages)
    (hrevoking : ∀ g, phase.revoking? = some g → (w.own i).revoking? = some g ∨
      g.manages = false ∧ (w.own i).grant? = some g) :
    Guarded ⟨db, update w.own i phase⟩ := by
  obtain ⟨g, hg, hmanages, hspared⟩ := h.spared
  refine ⟨⟨g, hgrants ▸ hg, hmanages, hspared.update fun g' hg' => ?_⟩,
    h.read_update (fun row hrow => hgrants ▸ hrow) hphase⟩
  rcases hrevoking g' hg' with hold | ⟨hnot, hread⟩
  · exact hspared i g' hold
  · intro hid
    rw [h.read i g' hread g hg hid.symm, hnot] at hmanages
    cases hmanages

theorem Guarded.step (h : Guarded w) (hcall : Uncontended w call) :
    Guarded (World.step (act parse) call w) := by
  obtain heq | ⟨db, phase, hact, heq⟩ := World.step_cases (act parse) w call
  · rwa [heq]
  rw [heq]
  have hacts := acts hact
  generalize hbefore : w.own call.1 = before at hacts
  generalize hgrants : db.grants = grants at hacts
  generalize hlabel : call.2 = label at hacts
  cases hacts with
  | turns hnone =>
    refine h.update hgrants (fun g hg => by simp [hnone] at hg) fun g hg => ?_
    rw [Phase.grant?_of_revoking? hg] at hnone
    cases hnone
  | selects hrow hid hsame =>
    refine h.update hgrants (fun g hg => .inr ?_) fun g hg => by cases hg
    cases hg
    exact ⟨_, hrow, hid, hsame⟩
  | checks g' =>
    refine h.update hgrants (fun g hg => .inl ?_) fun g hg => by cases hg
    rw [hbefore]
    exact hg
  -- A grant without power over grants is not the one that is spared, by what was read of it.
  | passes hnot =>
    refine h.update hgrants (fun g hg => .inl (hbefore ▸ hg)) fun g hg => ?_
    cases hg
    exact .inr ⟨hnot, hbefore ▸ rfl⟩
  | counts hcount =>
    -- This one comes to be about to delete a grant, and another one stays spared.
    obtain ⟨other, hother, hmanages, hid, hspared⟩ := hcall _ hbefore hlabel hcount
    refine ⟨⟨other, hgrants ▸ hother, hmanages, hspared.update fun g hg => ?_⟩,
      h.read_update (fun row hrow => hgrants ▸ hrow) fun g hg => .inl (hbefore ▸ hg)⟩
    cases hg
    exact hid.symm
  | deletes g' =>
    exact h.update hgrants (fun g hg => .inl (hbefore ▸ hg)) fun g hg => .inl (hbefore ▸ hg)
  | commits g' =>
    -- Only what was about to be deleted is, so what is spared is still there.
    obtain ⟨g, hg, hmanages, hspared⟩ := h.spared
    have hne : g'.id ≠ g.id := hspared call.1 g' (by rw [hbefore]; rfl)
    refine ⟨⟨g, ?_, hmanages, hspared.update fun g' hg' => by cases hg'⟩,
      h.read_update (fun row hrow => ?_) fun g hg => by cases hg⟩
    · change g ∈ db.grants
      rw [hgrants, Table.mem_filter]
      exact ⟨hg, decide_eq_true hne.symm⟩
    · rw [hgrants] at hrow
      exact (Table.mem_filter.1 hrow).1

end Step

/-- A managing grant is left, if revocations count one that no other is about to delete. -/
theorem last_grant_survives (parse : String → Option String) {grants : Table TeamGrant.id}
    (teams : Table Team.id) {calls : ℕ → W × Call} (hstart : ∃ g ∈ grants, g.manages = true)
    (hcalls : ∀ n, Uncontended (revocations parse grants teams calls n) (calls n)) (n : ℕ) :
    ∃ g ∈ (revocations parse grants teams calls n).shared.grants, g.manages = true := by
  have hguarded : Guarded (revocations parse grants teams calls n) := by
    induction n with
    | zero =>
      obtain ⟨g, hg, hmanages⟩ := hstart
      exact ⟨⟨g, hg, hmanages, fun j g' hj => by cases hj⟩, fun j g' hj => by cases hj⟩
    | succ n ih => exact ih.step (hcalls n)
  obtain ⟨g, hg, hmanages, -⟩ := hguarded.spared
  exact ⟨g, hg, hmanages⟩

namespace Sample

/-- A grant with power over grants. -/
def admin (id teamID : String) : TeamGrant :=
  { id, teamID, integrationInstanceName := "yggdrasil-self", actionName := "*" }

/-- Two of them. -/
def admins : Table TeamGrant.id := ⟨[admin "g1" "t1", admin "g2" "t2"], by decide⟩

/-- Three of them. -/
def threeAdmins : Table TeamGrant.id :=
  ⟨[admin "g1" "t1", admin "g2" "t2", admin "g3" "t2"], by decide⟩

/-- Their teams. -/
def teams : Table Team.id :=
  ⟨[{ id := "t1", slug := "platform" }, { id := "t2", slug := "security" }], by decide⟩

/-- Two grants are revoked at once. -/
def atOnce (n : ℕ) : Bool × Call :=
  (n % 2 = 1,
    if n = 0 then .revokeTeamGrant "g1" else if n = 1 then .revokeTeamGrant "g2"
    else if n < 12 then .next else .fail (.errorf "" []))

/-- The states in which two of three are revoked. -/
def revoked : ℕ → World Bool (Db Bool) Phase := revocations some threeAdmins teams atOnce

end Sample

/-- Two of three grants are revoked at once, and both revocations count the third one. -/
theorem last_grant_survives_atOnce :
    (Sample.revoked 12).shared.grants.rows.map TeamGrant.id = ["g3"] ∧
      ∀ n, ∃ g ∈ (Sample.revoked n).shared.grants, g.manages = true := by
  refine ⟨by decide +kernel, last_grant_survives some Sample.teams
    ⟨_, List.mem_cons_self, by decide⟩ fun n g hphase hnext _ => ?_⟩
  change (Sample.revoked n).own _ = _ at hphase
  have hn : n < 12 := by
    by_contra hn
    simp [Sample.atOnce, hn, show n ≠ 0 by omega, show n ≠ 1 by omega] at hnext
  -- The third grant is there, and no revocation is of it.
  have hthird : ∀ n < 12, (∃ g ∈ (Sample.revoked n).shared.grants.rows, g.id = "g3" ∧ g.manages) ∧
      ∀ j, ((Sample.revoked n).own j).grant?.all (·.id ≠ "g3") := by decide +kernel
  obtain ⟨⟨other, hother, hid, hmanages⟩, hall⟩ := hthird n hn
  have hne (j : Bool) (g : TeamGrant) (hg : ((Sample.revoked n).own j).grant? = some g) :
      g.id ≠ other.id := by
    simpa [hg, hid] using hall j
  refine ⟨other, hother, hmanages, (hne _ g (by rw [hphase]; rfl)).symm, fun j g' hj => ?_⟩
  exact hne j g' (Phase.grant?_of_revoking? hj)

/-- Two revocations at once each count the grant of the other, and none is left. -/
theorem not_last_grant_survives :
    (∃ g ∈ Sample.admins, g.manages = true) ∧
    (∀ i, ∃ g, (revocations some Sample.admins Sample.teams Sample.atOnce 12).own i =
      .ended (.ok g)) ∧
    (revocations some Sample.admins Sample.teams Sample.atOnce 12).shared.grants.rows = [] := by
  refine ⟨⟨_, List.mem_cons_self, by decide⟩, fun i => ?_, rfl⟩
  cases i <;> exact ⟨_, rfl⟩

end Yggdrasil.Identity
