import Yggdrasil.Lib.Go
import Yggdrasil.Lib.Value
import Yggdrasil.Lib.Workers

/-!
# Calls on a managed secret

A secret is stored by one statement (`upsert`). The other calls read it first and write it in a
second statement, and overwrite what others have written in between.
-/

namespace Yggdrasil.Secrets

open Text

/-- The statuses of a secret. -/
inductive Status
  | active
  | disabled
  | revoked
  deriving DecidableEq

/-- The material of a secret. -/
abbrev Data := List (String × String)

/-- How a secret is rotated. -/
structure RotationPolicy where
  mode : String := ""
  rotateAfterDays : ℤ := 0

/-- A secret as it is stored. -/
structure ManagedSecret where
  status : Status
  version : ℕ
  data : Data
  metadata : Value.Fields := []
  rotation : RotationPolicy := {}
  expiresAt : Option ℤ := none

/-- A secret as it is sent. -/
structure UpsertRequest where
  status : Status := .active
  data : Data
  metadata : Value.Fields := []
  rotation : RotationPolicy := {}
  expiresAt : Option ℤ := none

/-- New material for a secret. -/
structure RotateRequest where
  data : Data
  metadata : Value.Fields := []
  rotation : RotationPolicy := {}
  expiresAt : Option ℤ := none

/-- The entries of both, those of the second first. -/
def mergeJSONObject (base extra : Value.Fields) : Value.Fields :=
  extra ++ base.filter fun field => extra.all (·.1 ≠ field.1)

/-- The mode is supported, with days if it needs them. -/
def validateManagedSecretRotation (cm : CaseMap) (rotation : RotationPolicy) : Except Fault Unit :=
  let mode := toLower cm (trimSpace rotation.mode)
  if mode ≠ "" ∧ mode ≠ "manual" ∧ mode ≠ "scheduled" then
    throw (.errorf "secret rotation mode %q is unsupported" [.quoted rotation.mode])
  else if rotation.rotateAfterDays < 0 then
    throw (.errorf "secret rotation rotate_after_days cannot be negative" [])
  else if mode = "scheduled" ∧ rotation.rotateAfterDays ≤ 0 then
    throw (.errorf "secret rotation mode %q requires rotate_after_days" [.quoted rotation.mode])
  else pure ()

/-- A policy that is left out stays as it was. -/
def normalizeManagedSecretRotation (next current : RotationPolicy) : RotationPolicy :=
  if trimSpace next.mode = "" ∧ next.rotateAfterDays = 0 then current else next

/-- The version after a write: it grows with the material. -/
def nextVersion (row : ManagedSecret) (data : Data) : ℕ :=
  if row.data ≠ data then row.version + 1 else row.version

/-- The statement of `UpsertManagedSecret`. -/
def UpsertRequest.row (req : UpsertRequest) (stored : Option ManagedSecret) : ManagedSecret where
  status := req.status
  version := (stored.map (nextVersion · req.data)).getD 1
  data := req.data
  metadata := req.metadata
  rotation := req.rotation
  expiresAt := req.expiresAt

/-- The upsert of a rotation, from the row that it has read. -/
def RotateRequest.upsert (req : RotateRequest) (current : ManagedSecret) : UpsertRequest where
  data := req.data
  metadata := mergeJSONObject current.metadata req.metadata
  rotation := normalizeManagedSecretRotation req.rotation current.rotation
  expiresAt := req.expiresAt <|> current.expiresAt

/-- The statement of `updateManagedSecretStatus`. -/
def updateStatus (status : Status) (data : Option Data) (metadata : Value.Fields)
    (current row : ManagedSecret) : ManagedSecret :=
  let data := data.getD current.data
  { row with
    status := status
    data := data
    metadata := mergeJSONObject current.metadata metadata
    version := nextVersion row data }

/-! ## Calls -/

/-- Where a call is, and the row that it has read. -/
inductive Phase
  | idle
  | rotating (req : RotateRequest) (current : ManagedSecret)
  | disabling (metadata : Value.Fields) (current : ManagedSecret)
  | revoking (metadata : Value.Fields) (current : ManagedSecret)

/-- The statements of calls. -/
inductive Call
  | upsert (req : UpsertRequest)
  | rotate (req : RotateRequest)
  | disable (metadata : Value.Fields)
  | revoke (metadata : Value.Fields)
  | write
  | fail

/-- What a call does to the secret, if it is possible. -/
def act {W : Type} (cm : CaseMap) (_ : W) (call : Call) (stored : Option ManagedSecret)
    (p : Phase) : Option (Option ManagedSecret × Phase) :=
  match call, p with
  | .upsert req, .idle =>
    match validateManagedSecretRotation cm req.rotation with
    | .error _ => none
    | .ok () => some (some (req.row stored), .idle)
  | .rotate req, .idle => stored.map fun current => (stored, .rotating req current)
  | .disable metadata, .idle => stored.map fun current => (stored, .disabling metadata current)
  | .revoke metadata, .idle => stored.map fun current => (stored, .revoking metadata current)
  | .write, .rotating req current =>
    match validateManagedSecretRotation cm (req.upsert current).rotation with
    | .error _ => some (stored, .idle)
    | .ok () => some (some ((req.upsert current).row stored), .idle)
  | .write, .disabling metadata current =>
    some (stored.map (updateStatus .disabled none metadata current), .idle)
  | .write, .revoking metadata current =>
    some (stored.map (updateStatus .revoked (some []) metadata current), .idle)
  | .fail, _ => some (stored, .idle)
  | _, _ => none

/-! ## What a call makes of the material -/

/-- The material that is stored. -/
def material (stored : Option ManagedSecret) : Option Data := stored.map (·.data)

/-- The material that a call supplies: that of an upsert, or of a rotation. -/
def supplies : Call → Phase → Option Data
  | .upsert req, .idle => some req.data
  | .write, .rotating req _ => some req.data
  | _, _ => none

/-- A call leaves the material as it is, supplies it, clears it, or writes what it has read. -/
inductive Writes (stored stored' : Option ManagedSecret) (call : Call) (p : Phase) : Prop
  | same (h : material stored' = material stored)
  | supplied (d : Data) (hsupplies : supplies call p = some d) (h : material stored' = some d)
  | cleared (metadata : Value.Fields) (current : ManagedSecret) (hcall : call = .write)
      (hp : p = .revoking metadata current) (h : material stored' = some [])
  | restored (metadata : Value.Fields) (current : ManagedSecret) (hcall : call = .write)
      (hp : p = .disabling metadata current) (hstored : stored ≠ none)
      (h : material stored' = some current.data)

variable {W : Type} {cm : CaseMap} {i : W} {call : Call} {stored stored' : Option ManagedSecret}
  {p p' : Phase}

theorem writes (h : act cm i call stored p = some (stored', p')) :
    Writes stored stored' call p := by
  unfold act at h
  split at h
  next req =>
    split at h
    · cases h
    · cases h
      exact .supplied req.data rfl rfl
  next req =>
    obtain ⟨current, -, heq⟩ := Option.map_eq_some_iff.1 h
    cases heq
    exact .same rfl
  next metadata =>
    obtain ⟨current, -, heq⟩ := Option.map_eq_some_iff.1 h
    cases heq
    exact .same rfl
  next metadata =>
    obtain ⟨current, -, heq⟩ := Option.map_eq_some_iff.1 h
    cases heq
    exact .same rfl
  next req current =>
    split at h
    · cases h
      exact .same rfl
    · cases h
      exact .supplied req.data rfl rfl
  next metadata current =>
    cases h
    cases stored with
    | none => exact .same rfl
    | some row => exact .restored metadata current rfl rfl nofun rfl
  next metadata current =>
    cases h
    cases stored with
    | none => exact .same rfl
    | some row => exact .cleared metadata current rfl rfl rfl
  next =>
    cases h
    exact .same rfl
  · cases h

/-! ## Runs -/

variable [DecidableEq W] (cm) (calls : ℕ → W × Call) (stored : Option ManagedSecret)

/-- The secret and the calls on it, before each call of a run. -/
def states (n : ℕ) : World W (Option ManagedSecret) Phase :=
  World.after (act cm) calls ⟨stored, fun _ => .idle⟩ n

/-- The material that is stored after some statements. -/
def dataAt (n : ℕ) : Option Data := material (states cm calls stored n).shared

/-- Where the call that acts next is. -/
def phaseAt (n : ℕ) : Phase := (states cm calls stored n).own (calls n).1

/-- An upsert or a rotation stores material. -/
def Supplied (n : ℕ) (d : Data) : Prop :=
  supplies (calls n).2 (phaseAt cm calls stored n) = some d ∧
    dataAt cm calls stored (n + 1) = some d

/-- A revocation is committed. -/
def Revoked (n : ℕ) : Prop :=
  (calls n).2 = .write ∧ (states cm calls stored n).shared ≠ none ∧
    ∃ metadata current, phaseAt cm calls stored n = .revoking metadata current

/-- A rotation is committed. -/
def Rotated (n : ℕ) (d : Data) : Prop :=
  Supplied cm calls stored n d ∧ ∃ req current, phaseAt cm calls stored n = .rotating req current

/-- A disablement is committed. -/
def Disabled (n : ℕ) (current : ManagedSecret) : Prop :=
  (calls n).2 = .write ∧ ∃ metadata, phaseAt cm calls stored n = .disabling metadata current

/-- Revoked material is stored again only if it has been supplied again. -/
def Gone : Prop :=
  ∀ m, Revoked cm calls stored m → ∀ k ≤ m, ∀ n, m < n → ∀ d ≠ [],
    dataAt cm calls stored k = some d → dataAt cm calls stored n = some d →
      ∃ s, m < s ∧ s < n ∧ Supplied cm calls stored s d

/-- A disablement does not replace material that a rotation has stored. -/
def Kept : Prop :=
  ∀ n current, Disabled cm calls stored n current → ∀ r < n, ∀ d, Rotated cm calls stored r d →
    (∀ q, r < q → q ≤ n → dataAt cm calls stored q = some d) →
      dataAt cm calls stored (n + 1) = some d

/-- A disablement writes the material that is stored. -/
def Undisturbed : Prop :=
  ∀ n current, Disabled cm calls stored n current →
    ∀ row ∈ (states cm calls stored n).shared, row.data = current.data

variable {cm calls stored}

variable (cm calls stored) in
/-- A step leaves the material as it is, or is one of a call that writes it. -/
theorem dataAt_succ (n : ℕ) : dataAt cm calls stored (n + 1) = dataAt cm calls stored n ∨
    Writes (states cm calls stored n).shared (states cm calls stored (n + 1)).shared (calls n).2
      (phaseAt cm calls stored n) := by
  obtain heq | ⟨s, p, hact, heq⟩ :=
    World.step_cases (act cm) (states cm calls stored n) (calls n)
  · left
    rw [dataAt, states, World.after_succ]
    exact congrArg (fun w => material w.shared) heq
  · right
    have hshared : (states cm calls stored (n + 1)).shared = s := congrArg World.shared heq
    rw [hshared]
    exact writes hact

/-- If disablements write what is stored, material changes only when it is supplied or cleared. -/
theorem dataAt_succ_of_undisturbed (h : Undisturbed cm calls stored) (n : ℕ) :
    dataAt cm calls stored (n + 1) = dataAt cm calls stored n ∨
      dataAt cm calls stored (n + 1) = some [] ∨ ∃ d, Supplied cm calls stored n d := by
  rcases dataAt_succ cm calls stored n with hsame | hwrites
  · exact .inl hsame
  · cases hwrites with
    | same hsame => exact .inl hsame
    | supplied d hsupplies hdata => exact .inr (.inr ⟨d, hsupplies, hdata⟩)
    | cleared metadata current hcall hp hdata => exact .inr (.inl hdata)
    | restored metadata current hcall hp hstored hdata =>
      obtain ⟨row, hrow⟩ := Option.ne_none_iff_exists'.1 hstored
      have hseen := h n current ⟨hcall, metadata, hp⟩ row hrow
      refine .inl (hdata.trans ?_)
      rw [dataAt, hrow, material, Option.map_some, hseen]

theorem dataAt_succ_of_revoked {m : ℕ} (h : Revoked cm calls stored m) :
    dataAt cm calls stored (m + 1) = some [] := by
  obtain ⟨hcall, hstored, metadata, current, hp⟩ := h
  obtain ⟨row, hrow⟩ := Option.ne_none_iff_exists'.1 hstored
  have hact : act cm (calls m).1 (calls m).2 (states cm calls stored m).shared
      (phaseAt cm calls stored m) =
        some (some (updateStatus .revoked (some []) metadata current row), .idle) := by
    rw [hcall, hp, hrow]
    rfl
  rw [dataAt, states, World.after_succ, World.step]
  rw [phaseAt] at hact
  rw [states] at hact
  rw [hact]
  rfl

/-- If disablements write what is stored, revoked material and rotations stay. -/
theorem gone_and_kept (cm : CaseMap) (calls : ℕ → W × Call) (stored : Option ManagedSecret)
    (h : Undisturbed cm calls stored) : Gone cm calls stored ∧ Kept cm calls stored := by
  constructor
  · intro m hrevoked k _ n hmn d hd _ hn
    -- the material is not there right after the revocation, so that a step has brought it back
    have hcleared : ¬ dataAt cm calls stored (m + 1 + 0) = some d := by
      rw [Nat.add_zero, dataAt_succ_of_revoked hrevoked]
      exact fun heq => hd (Option.some.inj heq).symm
    obtain ⟨l, rfl⟩ := Nat.exists_eq_add_of_le hmn
    obtain ⟨q, hq, hnot, hsince⟩ := exists_entry (P := fun q => dataAt cm calls stored (m + 1 + q)
      = some d) hcleared hn
    have hentered : dataAt cm calls stored (m + 1 + q + 1) = some d :=
      hsince (q + 1) q.lt_succ_self hq
    refine ⟨m + 1 + q, by omega, by omega, ?_⟩
    rcases dataAt_succ_of_undisturbed h (m + 1 + q) with hsame | hempty | ⟨d', hsupplied⟩
    · exact absurd (hsame.symm.trans hentered) hnot
    · exact absurd (Option.some.inj (hentered.symm.trans hempty)) hd
    · obtain rfl : d' = d := Option.some.inj (hsupplied.2.symm.trans hentered)
      exact hsupplied
  · intro n current hdisabled r hr d _ hsince
    rw [← hsince n hr le_rfl]
    rcases dataAt_succ cm calls stored n with hsame | hwrites
    · exact hsame
    · obtain ⟨hcall, metadata, hp⟩ := hdisabled
      rw [hcall, hp] at hwrites
      cases hwrites with
      | same hsame => exact hsame
      | supplied d' hsupplies => cases hsupplies
      | cleared metadata' current' _ hp' => cases hp'
      | restored metadata' current' _ hp' hstored hdata =>
        cases hp'
        obtain ⟨row, hrow⟩ := Option.ne_none_iff_exists'.1 hstored
        have hseen := h n current ⟨hcall, metadata, hp⟩ row hrow
        rw [dataAt, dataAt, hdata, hrow, material, Option.map_some, hseen]

/-! ## Samples -/

namespace Sample

/-- The material of the sample. -/
def material : Data := [("password", "hunter")]

/-- A secret is disabled while a rotation and then a revocation of it are under way. -/
def overlapping (n : ℕ) : Bool × Call :=
  [(true, .upsert { data := material }), (false, .rotate { data := [("password", "new")] }),
    (true, .disable []), (true, .write), (false, .write), (false, .revoke []), (true, .disable []),
    (true, .write), (false, .write)].getD n (true, .fail)

/-- A disablement reads a secret, which is revoked before the disablement writes. -/
def stale (n : ℕ) : Bool × Call :=
  [(true, .upsert { data := material }), (true, .disable []), (false, .revoke []), (false, .write),
    (true, .write)].getD n (true, .fail)

end Sample

/-- The rotated material is kept by the second disablement, and the revoked one stays gone. -/
theorem gone_and_kept_overlapping :
    dataAt ascii Sample.overlapping none 4 = some Sample.material ∧
      dataAt ascii Sample.overlapping none 8 = some [("password", "new")] ∧
      dataAt ascii Sample.overlapping none 9 = some [] ∧
      Gone ascii Sample.overlapping none ∧ Kept ascii Sample.overlapping none := by
  refine ⟨by decide +kernel, by decide +kernel, by decide +kernel,
    gone_and_kept ascii Sample.overlapping none ?_⟩
  rintro n current ⟨hcall, metadata, hphase⟩ row hrow
  have hn : n < 9 := by
    by_contra hn
    rw [Sample.overlapping, List.getD_eq_default _ _ (not_lt.1 hn)] at hcall
    cases hcall
  -- The material that is stored is what the disablement has read, at each of its writes.
  have hread : ∀ n < 9, (states ascii Sample.overlapping none n).shared.map (·.data) =
      match phaseAt ascii Sample.overlapping none n with
      | .disabling _ current => some current.data
      | _ => (states ascii Sample.overlapping none n).shared.map (·.data) := by decide +kernel
  have hsame := hread n hn
  rw [hphase, Option.mem_def.1 hrow] at hsame
  exact Option.some.inj hsame

theorem not_gone_and_kept :
    ¬ ∀ (cm : CaseMap) (calls : ℕ → Bool × Call) (stored : Option ManagedSecret),
      Gone cm calls stored ∧ Kept cm calls stored := by
  intro h
  have hbefore : dataAt ascii Sample.stale none 1 = some Sample.material := by decide +kernel
  have hafter : dataAt ascii Sample.stale none 5 = some Sample.material := by decide +kernel
  obtain ⟨s, hs, hs', hsupplied, -⟩ := (h ascii Sample.stale none).1 3
    ⟨rfl, nofun, [], _, rfl⟩ 1 (by decide) 5 (by decide) Sample.material nofun hbefore hafter
  obtain rfl : s = 4 := by omega
  cases hsupplied

end Yggdrasil.Secrets
