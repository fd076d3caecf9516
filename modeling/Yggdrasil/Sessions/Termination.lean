import Yggdrasil.Sessions.Requests

/-!
# The termination of a collaborator's sessions

A termination revokes tokens, codes and requests in one read committed transaction. It does not see
what a rotation or an exchange has begun and not committed, which outlives it (`not_complete`).
-/

namespace Yggdrasil.Sessions

variable {W : Type} [DecidableEq W] {calls : ℕ → W × Call} {i j : W} {call : Call} {db db' : Db W}
  {p p' : Phase} {c : String} {number since n m : ℕ}

/-! ## Logins -/

/-- The login that a request acts for, and whose it is. -/
def Phase.login? : Phase → Option (String × ℕ)
  | .found _ ar | .consuming ar _ _ | .consumed ar _ _ | .granted _ ar =>
    ar.collaboratorID.map (·, ar.login)
  | .presented request _ | .rotating request _ _ | .rotated request _ _ =>
    some (request.subject, request.login)
  | .renewed _ new _ => some (new.collaboratorID, new.login)
  | .idle | .condemned _ | .sweeping _ _ _ _ | .saving _ => none

omit [DecidableEq W] in
theorem mem_of_mem_close {t : RefreshToken} {now : ℤ} {keys : List Key}
    (ht : t ∈ (db.close now keys).tokens) (hopen : t.revokedAt = none) :
    t ∈ db.tokens ∧ .token t.token ∉ keys := by
  obtain ⟨s, hs, rfl⟩ := List.mem_map.1 ht
  unfold RefreshToken.close at hopen ⊢
  split at hopen
  · cases hopen
  next hk =>
    rw [if_neg hk]
    exact ⟨hs, hk⟩

/-- A request is as it was, but that it may have been closed. -/
structure AuthRequest.Kept (old ar : AuthRequest) : Prop where
  id : old.id = ar.id
  collaboratorID : old.collaboratorID = ar.collaboratorID
  login : old.login = ar.login
  expiresAt : old.expiresAt = ar.expiresAt
  open_of_open : ar.consumedAt = none → old.consumedAt = none

theorem AuthRequest.Kept.refl (ar : AuthRequest) : ar.Kept ar := ⟨rfl, rfl, rfl, rfl, fun h => h⟩

theorem AuthRequest.kept_close (ar : AuthRequest) (now : ℤ) (keys : List Key) :
    ar.Kept (ar.close now keys) := by
  unfold AuthRequest.close
  split
  · exact ⟨rfl, rfl, rfl, rfl, nofun⟩
  · exact .refl ar

/-- The request that a code is saved for was found before the call, or is open. -/
theorem Acts.saving {ar : AuthRequest} (h : Acts i db call p db' (.saving ar)) :
    p = .saving ar ∨ ar ∈ db.requests ∧ ar.consumedAt = none ∧ db.clock < ar.expiresAt := by
  cases h with
  | tick => exact .inl rfl
  | saveAuthCode id ar c hget hopen hlive =>
    exact .inr ⟨(Table.get?_eq_some.1 hget).1, hopen, hlive⟩

section Step

variable (h : Acts i db call p db' p')

include h

/-- A request acts for a login if it did, has found a row of it that is open, or made it up. -/
theorem Acts.login (hlogin : (c, number) ∈ p'.login?) :
    (c, number) ∈ p.login? ∨
      (∃ code ∈ db.codes, ∃ ar ∈ db.requests, ar.id = code.authRequestID ∧ code.consumedAt = none ∧
        db.clock < code.expiresAt ∧ ar.consumedAt = none ∧ ar.collaboratorID = some c ∧
        ar.login = number) ∨
      (∃ t ∈ db.tokens, t.revokedAt = none ∧ t.collaboratorID = c ∧ t.login = number) ∨
      ∃ request current, call = .present request current := by
  cases h with
  | authRequestByCode code row ar hcode hget hopen hlive har =>
    obtain ⟨hrow, -⟩ := Table.get?_eq_some.1 hcode
    obtain ⟨har', hid⟩ := Table.get?_eq_some.1 hget
    obtain ⟨c', hc', heq⟩ := Option.map_eq_some_iff.1 hlogin
    cases heq
    exact .inr (.inl ⟨row, hrow, ar, har', hid, hopen, hlive, har, hc', rfl⟩)
  | presentOpen token t hget hopen =>
    obtain ⟨ht, -⟩ := Table.get?_eq_some.1 hget
    cases hlogin
    exact .inr (.inr (.inl ⟨t, ht, hopen, rfl, rfl⟩))
  | present request current => exact .inr (.inr (.inr ⟨request, current, rfl⟩))
  | tick | beginConsume | beginRotate | lockCode | lockToken | insert | commitCode =>
    exact .inl hlogin
  | _ => cases hlogin

/-- An open token was there before the call, or it is issued by a request for its login. -/
theorem Acts.token (hp : Holds i db p) {t : RefreshToken} (ht : t ∈ db'.tokens)
    (hopen : t.revokedAt = none) : t ∈ db.tokens ∨ (t.collaboratorID, t.login) ∈ p.login? := by
  cases h with
  | deleteAuthRequest | commitCode | commitSweep => exact .inl (mem_of_mem_close ht hopen).1
  | createTokens code ar token c hc hfree hfresh =>
    rcases (Db.mem_addToken hfresh).1 ht with rfl | ht
    · exact .inr (Option.map_eq_some_iff.2 ⟨c, hc, rfl⟩)
    · exact .inl ht
  | commitRotation current new now =>
    rcases (Db.mem_addToken hp.fresh_close).1 ht with rfl | ht
    · exact .inr rfl
    · exact .inl (mem_of_mem_close ht hopen).1
  | _ => exact .inl ht

/-- An open code was there before the call, or it is saved for the request that was found. -/
theorem Acts.code {code : AuthCode} (hcode : code ∈ db'.codes) (hopen : code.consumedAt = none) :
    code ∈ db.codes ∨ ∃ ar, p = .saving ar ∧ code.authRequestID = ar.id := by
  have hclose : ∀ {now : ℤ} {keys : List Key}, code ∈ (db.close now keys).codes →
      code ∈ db.codes := by
    intro now keys hmem
    obtain ⟨s, hs, rfl⟩ := List.mem_map.1 hmem
    unfold AuthCode.close at hopen ⊢
    split at hopen
    · cases hopen
    next hk => rwa [if_neg hk]
  cases h with
  | deleteAuthRequest | commitCode | commitSweep | commitRotation => exact .inl (hclose hcode)
  | insertCode text ar codes hinsert =>
    rcases (Table.mem_of_insert? hinsert).1 hcode with rfl | hcode
    · exact .inr ⟨ar, rfl, rfl⟩
    · exact .inl hcode
  | _ => exact .inl hcode

/-- A request was there before the call, or its login is new. -/
theorem Acts.request {ar : AuthRequest} (har : ar ∈ db'.requests) :
    (∃ old ∈ db.requests, old.Kept ar) ∨ db.logins < ar.login := by
  have hclose : ∀ {now : ℤ} {keys : List Key}, ar ∈ (db.close now keys).requests →
      ∃ old ∈ db.requests, old.Kept ar := by
    intro now keys hmem
    obtain ⟨s, hs, rfl⟩ := List.mem_map.1 hmem
    exact ⟨s, hs, s.kept_close now keys⟩
  cases h with
  | deleteAuthRequest | commitCode | commitSweep | commitRotation => exact .inl (hclose har)
  | createAuthRequest id clientID userID requests hinsert =>
    rcases (Table.mem_of_insert? hinsert).1 har with rfl | har
    · exact .inr (Nat.lt_succ_self _)
    · exact .inl ⟨ar, har, .refl ar⟩
  | bindCollaborator id c =>
    obtain ⟨s, hs, rfl⟩ := List.mem_map.1 har
    split
    · exact .inr (Nat.lt_succ_self _)
    · exact .inl ⟨s, hs, .refl s⟩
  | _ => exact .inl ⟨ar, har, .refl ar⟩

theorem Acts.clock_le : db.clock ≤ db'.clock := by
  cases h with
  | tick d => exact le_add_of_nonneg_right (Int.natCast_nonneg d)
  | _ => exact le_rfl

theorem Acts.logins_le : db.logins ≤ db'.logins := by
  cases h with
  | createAuthRequest | bindCollaborator => exact Nat.le_succ _
  | _ => exact le_rfl

end Step

/-! ## What a termination closes -/

section Due

/-- A request is bound by an earlier login of a collaborator. -/
def AuthRequest.Old (c : String) (since : ℕ) (ar : AuthRequest) : Prop :=
  ar.collaboratorID = some c ∧ ar.login ≤ since

/-- A token descends from an earlier login of a collaborator. -/
def RefreshToken.Old (c : String) (since : ℕ) (t : RefreshToken) : Prop :=
  t.collaboratorID = c ∧ t.login ≤ since

/-- The rows of earlier logins that a statement of a termination has to close. -/
inductive Due (c : String) (since : ℕ) (now : ℤ) (db : Db W) : Stage → Key → Prop
  | token (t) (ht : t ∈ db.tokens) (hold : t.Old c since) (hopen : t.revokedAt = none) :
      Due c since now db .tokens (.token t.token)
  | code (code ar) (hcode : code ∈ db.codes) (har : ar ∈ db.requests)
      (hid : ar.id = code.authRequestID) (hold : ar.Old c since)
      (hopen : code.consumedAt = none) (hlive : now < code.expiresAt) :
      Due c since now db .codes (.code code.code)
  | request (ar) (har : ar ∈ db.requests) (hold : ar.Old c since)
      (hopen : ar.consumedAt = none) (hlive : now < ar.expiresAt) :
      Due c since now db .requests (.request ar.id)

variable {now : ℤ} {stage : Stage} {k : Key}

omit [DecidableEq W] in
theorem Due.mem_targets (h : Due c since now db stage k) :
    k ∈ db.targets now (.collaborator c stage) := by
  cases h with
  | token t ht hold hopen =>
    exact List.mem_map_of_mem (List.mem_filter.2 ⟨ht, by simp [hold.1, hopen]⟩)
  | code code ar hcode har hid hold hopen hlive =>
    have hget : db.requests.get? code.authRequestID = some ar := Table.get?_eq_some.2 ⟨har, hid⟩
    refine List.mem_map_of_mem (f := fun code : AuthCode => Key.code code.code)
      (List.mem_filter.2 ⟨hcode, ?_⟩)
    simp [hget, hold.1, hopen, hlive]
  | request ar har hold hopen hlive =>
    exact List.mem_map_of_mem (f := fun ar : AuthRequest => Key.request ar.id)
      (List.mem_filter.2 ⟨har, by simp [hold.1, hopen, hlive]⟩)

omit [DecidableEq W] in
theorem Due.stillMatches (h : Due c since now db stage k) (stage' : Stage) :
    db.stillMatches now (.collaborator c stage') k = true := by
  cases h with
  | token t ht hold hopen =>
    rw [Db.stillMatches, Db.stamp_token ht, hopen]
    rfl
  | code code ar hcode har hid hold hopen hlive =>
    have hget : db.codes.get? code.code = some code := Table.get?_eq_some.2 ⟨hcode, rfl⟩
    simp [Db.stillMatches, hget, hopen, hlive]
  | request ar har hold hopen hlive =>
    have hget : db.requests.get? ar.id = some ar := Table.get?_eq_some.2 ⟨har, rfl⟩
    simp [Db.stillMatches, hget, Sweep.selects, hold.1, hopen, hlive]

omit [DecidableEq W] in
theorem Due.stamp (h : Due c since now db stage k) : db.stamp k = some none :=
  Db.stamp_of_stillMatches (h.stillMatches stage)

omit [DecidableEq W] in
theorem Due.mono {now' : ℤ} (h : Due c since now' db stage k) (hle : now ≤ now') :
    Due c since now db stage k := by
  cases h with
  | token t ht hold hopen => exact .token t ht hold hopen
  | code code ar hcode har hid hold hopen hlive =>
    exact .code code ar hcode har hid hold hopen (hle.trans_lt hlive)
  | request ar har hold hopen hlive => exact .request ar har hold hopen (hle.trans_lt hlive)

/-- A request does not act for an earlier login. -/
structure Clear (c : String) (since : ℕ) (db : Db W) (p : Phase) : Prop where
  login : ∀ number, (c, number) ∈ p.login? → since < number
  saving : ∀ ar, p = .saving ar → ∀ row ∈ db.requests, row.id = ar.id → ¬ row.Old c since

/-- A request of an earlier login was one before the call. -/
theorem Acts.old (h : Acts i db call p db' p') (hsince : since ≤ db.logins) {ar : AuthRequest}
    (har : ar ∈ db'.requests) (hold : ar.Old c since) :
    ∃ old ∈ db.requests, old.Kept ar ∧ old.Old c since := by
  rcases h.request har with ⟨old, hmem, hkept⟩ | hnew
  · exact ⟨old, hmem, hkept, hkept.collaboratorID.trans hold.1, hkept.login.trans_le hold.2⟩
  · exact absurd (hold.2.trans hsince) (not_le.2 hnew)

/-- A request that does not act for an earlier login adds nothing that has to be closed. -/
theorem Due.of_acts (hdue : Due c since now db' stage k) (h : Acts i db call p db' p')
    (hp : Holds i db p) (hsince : since ≤ db.logins) (hclear : Clear c since db p) :
    Due c since now db stage k := by
  cases hdue with
  | token t ht hold hopen =>
    rcases h.token hp ht hopen with ht | hlogin
    · exact .token t ht hold hopen
    · rw [hold.1] at hlogin
      exact absurd hold.2 (not_le.2 (hclear.login _ hlogin))
  | code code ar hcode har hid hold hopen hlive =>
    obtain ⟨old, hmem, hkept, hold⟩ := h.old hsince har hold
    have hid := hkept.id.trans hid
    rcases h.code hcode hopen with hcode | ⟨found, hp, hfound⟩
    · exact .code code old hcode hmem hid hold hopen hlive
    · exact absurd hold (hclear.saving found hp old hmem (hid.trans hfound))
  | request ar har hold hopen hlive =>
    obtain ⟨old, hmem, hkept, hold⟩ := h.old hsince har hold
    rw [← hkept.id]
    exact .request old hmem hold (hkept.open_of_open hopen) (hkept.expiresAt ▸ hlive)

theorem Acts.clear_other {q : Phase} (h : Acts i db call p db' p') (hsince : since ≤ db.logins)
    (hclear : Clear c since db q) : Clear c since db' q where
  login := hclear.login
  saving ar hq row hrow hid hold := by
    obtain ⟨old, hmem, hkept, hold⟩ := h.old hsince hrow hold
    exact hclear.saving ar hq old hmem (hkept.id.trans hid) hold

/-- Where nothing of an earlier login is left open, no request comes to act for one. -/
theorem Acts.clear_self (h : Acts i db call p db' p') (hsince : since ≤ db.logins)
    (hpresent : ∀ request current, call ≠ .present request current)
    (hnone : ∀ stage k, ¬ Due c since db.clock db stage k) (hclear : Clear c since db p) :
    Clear c since db' p' where
  login number hlogin := by
    by_contra hle
    rw [not_lt] at hle
    rcases h.login hlogin with hlogin | ⟨code, hcode, ar, har, hid, hopen, hlive, -, hc, hnumber⟩ |
      ⟨t, ht, hopen, hc, hnumber⟩ | ⟨request, current, hcall⟩
    · exact absurd hle (not_le.2 (hclear.login number hlogin))
    · exact hnone _ _ (.code code ar hcode har hid ⟨hc, hnumber.trans_le hle⟩ hopen hlive)
    · exact hnone _ _ (.token t ht ⟨hc, hnumber.trans_le hle⟩ hopen)
    · exact hpresent request current hcall
  saving ar hp' row hrow hid hold := by
    subst hp'
    obtain ⟨old, hmem, hkept, hold⟩ := h.old hsince hrow hold
    have hid := hkept.id.trans hid
    rcases h.saving with hp | ⟨har, hopen, hlive⟩
    · exact hclear.saving ar hp old hmem hid hold
    · obtain rfl := Table.eq_of_key_eq hmem har hid
      exact hnone _ _ (.request old hmem hold hopen hlive)

end Due

/-! ## Terminations -/

/-- The place of a stage in the sweep. -/
def Stage.index : Stage → ℕ
  | .begun => 0
  | .tokens => 1
  | .codes => 2
  | .requests => 3

/-- What a termination has to close is locked by it, or is among what its statement has found. -/
structure Sweeps (c : String) (since : ℕ) (db : Db W) (stage : Stage) (targets writes : List Key)
    (now : ℤ) : Prop where
  logins : since ≤ db.logins
  clock : now ≤ db.clock
  due : ∀ s k, s.index ≤ stage.index → Due c since now db s k →
    k ∈ writes ∨ s = stage ∧ k ∈ targets

section Sweeps

variable {stage stage' : Stage} {targets targets' writes writes' : List Key} {now now' : ℤ}

theorem Sweeps.other (h : Sweeps c since db stage targets writes now)
    (hacts : Acts j db call p db' p') (hp : Holds j db p) (hclear : Clear c since db p) :
    Sweeps c since db' stage targets writes now where
  logins := h.logins.trans hacts.logins_le
  clock := h.clock.trans hacts.clock_le
  due s k hs hdue := h.due s k hs (hdue.of_acts hacts hp h.logins hclear)

theorem Sweeps.self (h : Sweeps c since db stage targets writes now)
    (hacts : Acts i db call (.sweeping (.collaborator c stage) targets writes now) db'
      (.sweeping (.collaborator c stage') targets' writes' now'))
    (hp : Holds i db (.sweeping (.collaborator c stage) targets writes now)) :
    Sweeps c since db' stage' targets' writes' now' := by
  have hbefore : ∀ {s k}, Due c since now db' s k → Due c since now db s k :=
    fun hdue => hdue.of_acts hacts hp h.logins ⟨nofun, nofun⟩
  have hlogins := h.logins.trans hacts.logins_le
  have hclock := h.clock.trans hacts.clock_le
  cases hacts with
  | tick d => exact ⟨hlogins, hclock, fun s k hs hdue => h.due s k hs (hbefore hdue)⟩
  | advance _ _ _ _ _ hnext =>
    refine ⟨hlogins, hclock, fun s k hs hdue => ?_⟩
    by_cases heq : s = stage'
    · subst heq
      exact .inr ⟨rfl, hdue.mem_targets⟩
    · have hle : s.index ≤ stage.index := by
        cases stage <;> cases hnext <;> cases s <;> simp_all [Stage.index]
      exact .inl ((h.due s k hle hdue).resolve_right fun hmem => List.not_mem_nil hmem.2)
  | touch k' _ _ _ _ hk hfree hmatch =>
    refine ⟨hlogins, hclock, fun s k hs hdue => ?_⟩
    rcases h.due s k hs (hbefore hdue) with hmem | ⟨heq, hmem⟩
    · exact .inl (List.mem_cons_of_mem _ hmem)
    · by_cases hk' : k = k'
      · exact .inl (hk' ▸ List.mem_cons_self)
      · exact .inr ⟨heq, List.mem_filter.2 ⟨hmem, by simpa using hk'⟩⟩
  | pass k' _ _ _ _ hk hmatch =>
    refine ⟨hlogins, hclock, fun s k hs hdue => ?_⟩
    refine (h.due s k hs hdue).imp_right fun ⟨heq, hmem⟩ => ⟨heq, List.mem_filter.2 ⟨hmem, ?_⟩⟩
    have hk' : k ≠ k' := by
      rintro rfl
      rw [hdue.stillMatches stage] at hmatch
      cases hmatch
    simpa using hk'

/-- The commit of a termination leaves nothing of an earlier login open. -/
theorem Sweeps.commit (h : Sweeps c since db stage targets writes now)
    (hacts : Acts i db .commit (.sweeping (.collaborator c stage) targets writes now) db' p')
    (hp : Holds i db (.sweeping (.collaborator c stage) targets writes now)) (s : Stage) (k : Key) :
    ¬ Due c since db'.clock db' s k := by
  intro hdue
  have hmono : Due c since now db' s k := hdue.mono (h.clock.trans hacts.clock_le)
  have hclosed : ∀ k ∈ writes, db'.Closed k := fun k hk => hacts.closed_of_commit hp hk
  have hbefore := hmono.of_acts hacts hp h.logins ⟨nofun, nofun⟩
  cases hacts with
  | commitSweep _ _ _ hlast =>
    have hle : s.index ≤ stage.index := by
      rw [show stage = .requests from hlast]
      cases s <;> decide
    have hmem := (h.due s k hle hbefore).resolve_right fun hmem => List.not_mem_nil hmem.2
    exact Db.not_closed_of_open hdue.stamp (hclosed k hmem)

end Sweeps

/-! ## Runs -/

/-- A request acts for a login of the collaborator, or saves a code for a request bound to them. -/
def Serves (c : String) (db : Db W) (p : Phase) : Prop :=
  (∃ number, (c, number) ∈ p.login?) ∨
    ∃ ar, p = .saving ar ∧ ∃ row ∈ db.requests, row.id = ar.id ∧ row.collaboratorID = some c

/-- A request terminates the sessions of a collaborator. -/
def Phase.terminating (c : String) : Phase → Bool
  | .sweeping (.collaborator id _) _ _ _ => id = c
  | _ => false

theorem Phase.terminating_iff : p.terminating c = true ↔
    ∃ stage targets writes now, p = .sweeping (.collaborator c stage) targets writes now := by
  constructor
  · intro h
    unfold terminating at h
    split at h
    next id stage targets writes now =>
      cases of_decide_eq_true h
      exact ⟨stage, targets, writes, now, rfl⟩
    · cases h
  · rintro ⟨stage, targets, writes, now, rfl⟩
    exact decide_eq_true rfl

/-- No request serves a collaborator while their sessions are terminated. -/
def Quiet (w : World W (Db W) Phase) : Prop :=
  ∀ i j c, (w.own i).terminating c → ¬ Serves c w.shared (w.own j)

/-- A request has a transaction that is not finished. -/
def Phase.inTransaction : Phase → Bool
  | .consuming _ _ _ | .consumed _ _ _ | .rotating _ _ _ | .rotated _ _ _ | .renewed _ _ _
  | .sweeping _ _ _ _ => true
  | .idle | .found _ _ | .granted _ _ | .presented _ _ | .condemned _ | .saving _ => false

/-- A request begins to terminate the sessions of a collaborator, goes on, and commits. -/
structure Terminates (calls : ℕ → W × Call) (i : W) (c : String) (n m : ℕ) : Prop where
  lt : n < m
  idle : (World.after act calls start n).own i = .idle
  begins : calls n = (i, .terminate c)
  goesOn : ∀ l, n < l → l ≤ m → ((World.after act calls start l).own i).terminating c
  commits : calls m = (i, .commit)
  ends : (World.after act calls start (m + 1)).own i = .idle

/-- Once a termination and what overlaps it have finished, no token of an earlier login is open. -/
def Complete (calls : ℕ → W × Call) : Prop :=
  ∀ i c n m k, Terminates calls i c n m → m < k →
    (∀ j, ∃ l, m < l ∧ l ≤ k ∧ ((World.after act calls start l).own j).inTransaction = false) →
    ∀ t ∈ (World.after act calls start k).shared.tokens, t.collaboratorID = c →
      t.login ≤ (World.after act calls start n).shared.logins → t.revokedAt ≠ none

omit [DecidableEq W] in
theorem Clear.of_not_serves (h : ¬ Serves c db p) : Clear c since db p where
  login number hlogin := absurd (.inl ⟨number, hlogin⟩) h
  saving ar hp row hrow hid hold := h (.inr ⟨ar, hp, row, hrow, hid, hold.1⟩)

/-- Nothing that descends from an earlier login is open, and no request acts for one. -/
structure Ended (c : String) (since : ℕ) (w : World W (Db W) Phase) : Prop where
  logins : since ≤ w.shared.logins
  none_due : ∀ stage k, ¬ Due c since w.shared.clock w.shared stage k
  clear : ∀ j, Clear c since w.shared (w.own j)

theorem ended_succ (h : Ended c since (World.after act calls start n))
    (hpresent : ∀ request current, (calls n).2 ≠ .present request current) :
    Ended c since (World.after act calls start (n + 1)) := by
  have hp := (holds_after calls n).2 (calls n).1
  rcases after_cases calls n with heq | ⟨hacts, hothers⟩
  · rwa [heq]
  · refine ⟨h.logins.trans hacts.logins_le, fun stage k hdue => ?_, fun j => ?_⟩
    · exact h.none_due stage k
        ((hdue.of_acts hacts hp h.logins (h.clear _)).mono hacts.clock_le)
    · by_cases hj : j = (calls n).1
      · subst hj
        exact hacts.clear_self h.logins hpresent h.none_due (h.clear _)
      · rw [hothers j hj]
        exact hacts.clear_other h.logins (h.clear j)

theorem ended_of_le (hpresent : ∀ n request current, (calls n).2 ≠ .present request current)
    (h : Ended c since (World.after act calls start n)) (hnm : n ≤ m) :
    Ended c since (World.after act calls start m) := by
  induction m, hnm using Nat.le_induction with
  | base => exact h
  | succ m _ ih => exact ended_succ ih (hpresent m)

/-- A termination goes on to find and close what it has to. -/
theorem sweeps_after (hquiet : ∀ n, Quiet (World.after act calls start n))
    (h : Terminates calls i c n m) {l : ℕ} (hnl : n + 1 ≤ l) (hlm : l ≤ m) :
    ∃ stage targets writes now,
      (World.after act calls start l).own i
        = .sweeping (.collaborator c stage) targets writes now ∧
      Sweeps c (World.after act calls start n).shared.logins
        (World.after act calls start l).shared stage targets writes now := by
  induction l, hnl using Nat.le_induction with
  | base =>
    have hstep : World.after act calls start (n + 1) = ⟨(World.after act calls start n).shared,
        Function.update (World.after act calls start n).own i (.sweeping (.collaborator c .begun)
          [] [] (World.after act calls start n).shared.clock)⟩ := by
      rw [World.after_succ, h.begins]
      simp [World.step, act, h.idle]
    rw [hstep]
    refine ⟨_, _, _, _, Function.update_self _ _ _, le_rfl, le_rfl, fun s k hs hdue => ?_⟩
    cases hdue <;> cases hs
  | succ l hnl ih =>
    obtain ⟨stage, targets, writes, now, hown, hsweeps⟩ := ih (Nat.le_of_succ_le hlm)
    obtain ⟨stage', targets', writes', now', hown'⟩ :=
      Phase.terminating_iff.1 (h.goesOn (l + 1) (Nat.lt_succ_of_lt hnl) hlm)
    refine ⟨stage', targets', writes', now', hown', ?_⟩
    rcases after_cases calls l with heq | ⟨hacts, hothers⟩
    · rw [heq] at hown' ⊢
      cases hown.symm.trans hown'
      exact hsweeps
    · have hp := (holds_after calls l).2 (calls l).1
      by_cases hi : i = (calls l).1
      · subst hi
        rw [hown, hown'] at hacts
        exact hsweeps.self hacts (hown ▸ hp)
      · cases (hown.symm.trans ((hothers i hi).symm.trans hown'))
        refine hsweeps.other hacts hp (.of_not_serves ?_)
        exact hquiet l i _ c (h.goesOn l hnl (Nat.le_of_succ_le hlm))

theorem ended_of_terminates (hquiet : ∀ n, Quiet (World.after act calls start n))
    (h : Terminates calls i c n m) :
    Ended c (World.after act calls start n).shared.logins
      (World.after act calls start (m + 1)) := by
  obtain ⟨stage, targets, writes, now, hown, hsweeps⟩ := sweeps_after hquiet h h.lt le_rfl
  have hp := (holds_after calls m).2 i
  have hcall : (calls m).1 = i := congrArg Prod.fst h.commits
  rcases after_cases calls m with heq | ⟨hacts, hothers⟩
  · have hends := h.ends
    rw [heq, hown] at hends
    cases hends
  · rw [hcall] at hacts hothers
    rw [hown] at hp
    rw [h.commits, hown] at hacts
    refine ⟨hsweeps.logins.trans hacts.logins_le, hsweeps.commit hacts hp, fun j => ?_⟩
    by_cases hj : j = i
    · rw [hj, h.ends]
      exact ⟨nofun, nofun⟩
    · rw [hothers j hj]
      refine hacts.clear_other hsweeps.logins (.of_not_serves ?_)
      exact hquiet m i j c (h.goesOn m h.lt le_rfl)

/-- Terminations are complete, when no request serves the collaborator meanwhile. -/
theorem complete (hpresent : ∀ n request current, (calls n).2 ≠ .present request current)
    (hquiet : ∀ n, Quiet (World.after act calls start n)) : Complete calls := by
  intro i c n m k h hmk _ t ht hc hold hopen
  have hended := ended_of_le hpresent (ended_of_terminates hquiet h) hmk
  exact hended.none_due _ _ (.token t ht ⟨hc, hold⟩ hopen)

namespace Sample

/-- A login, and then a termination. -/
def terminated : ℕ → Unit × Call :=
  run () (exchange () ++ [((), .terminate "ada"), ((), .next), ((), .touch (.token "t0")),
    ((), .next), ((), .next), ((), .touch (.request "request")), ((), .commit)])

/-- A termination, while a token is rotated. -/
def outlived : ℕ → Bool × Call :=
  run true (exchange true ++ rotation true "t0" "t1" ++
    [(false, .terminate "ada"), (false, .next), (true, .commit), (false, .touch (.token "t0")),
     (false, .next), (false, .next), (false, .touch (.request "request")), (false, .commit)])

theorem terminated_ne_present (n : ℕ) (request : TokenRequest) (current : String) :
    (terminated n).2 ≠ .present request current := by
  by_cases hn : n < 16
  · interval_cases n <;> nofun
  · rw [terminated, run, List.getD_eq_default _ _ (not_lt.1 hn)]
    nofun

theorem outlived_ne_present (n : ℕ) (request : TokenRequest) (current : String) :
    (outlived n).2 ≠ .present request current := by
  by_cases hn : n < 21
  · interval_cases n <;> nofun
  · rw [outlived, run, List.getD_eq_default _ _ (not_lt.1 hn)]
    nofun

end Sample

/-- One request at a time is quiet. -/
theorem quiet_unit (w : World Unit (Db Unit) Phase) : Quiet w := by
  intro i j c h
  obtain ⟨stage, targets, writes, now, hown⟩ := Phase.terminating_iff.1 h
  rw [show w.own j = .sweeping (.collaborator c stage) targets writes now from hown]
  rintro (⟨number, hlogin⟩ | ⟨ar, heq, -⟩)
  · cases hlogin
  · cases heq

theorem terminated_complete : Complete Sample.terminated :=
  complete Sample.terminated_ne_present fun _ => quiet_unit _

/-- The token of a rotation in progress outlives a termination. -/
theorem not_complete : ¬ ∀ calls : ℕ → Bool × Call,
    (∀ n request current, (calls n).2 ≠ .present request current) → Complete calls := by
  intro h
  have hopen : (World.after act Sample.outlived start 21).shared.stamp (.token "t1")
      = some none := by decide +kernel
  have hrow : ∀ t ∈ (World.after act Sample.outlived start 21).shared.tokens.rows,
      t.collaboratorID = "ada" ∧
        t.login ≤ (World.after act Sample.outlived start 13).shared.logins := by decide +kernel
  obtain ⟨t, ht, -, hrevoked⟩ := Db.exists_token_of_stamp hopen
  have hterminates : Terminates Sample.outlived false "ada" 13 20 := by
    refine ⟨by decide, by decide +kernel, rfl, fun l hnl hlm => ?_, rfl, by decide +kernel⟩
    interval_cases l <;> decide +kernel
  refine h Sample.outlived Sample.outlived_ne_present false "ada" 13 20 21 hterminates (by decide)
    (fun j => ⟨21, by decide, le_rfl, ?_⟩) t ht (hrow t ht).1 (hrow t ht).2 hrevoked
  cases j <;> decide +kernel

end Yggdrasil.Sessions
