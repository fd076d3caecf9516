import Yggdrasil.Lib.Go
import Yggdrasil.Sessions.Store

/-!
# The end of a session, and introspection

A client ends the session of a collaborator. A revocation that names no session counts for all of
theirs, whichever client they belong to.
-/

namespace Yggdrasil.Sessions

open Text

/-! ## What is stored -/

/-- The UUID of zeros. -/
def uuidNil : String := "00000000-0000-0000-0000-000000000000"

/-- The instant of a time that was not set. -/
def zeroTime : ℤ := -62135596800 * 10 ^ 9

/-- What is looked at of a collaborator. -/
structure Collaborator where
  status : String
  phoneProfileRequired : Bool

/-- A session, by the hash of its token. -/
structure AuthSession where
  tokenHash : String
  id : String
  collaboratorID : String
  status : String
  expiresAt : ℤ
  revokedAt : Option ℤ := none
  createdAt : ℤ

/-- Why sessions were revoked. -/
inductive RevocationReason
  | logout
  | adminRevoked
  | passwordRotated
  | offboarded
  | sessionExpired
  | mfaReset

/-- All sessions of a collaborator until an instant are revoked, or one of them. -/
structure SessionRevocation where
  collaboratorID : String
  sessionJTI : Option String
  revokedAt : ℤ
  reason : RevocationReason
  metadata : List (String × String)

/-- A session of a collaborator with a client, and the console session that it goes back to. -/
structure SessionLink where
  id : String
  collaboratorID : String
  clientID : String
  sessionID : Option String
  terminatedAt : Option ℤ := none

/-- The rows that sessions consist of. -/
structure Stored where
  sessions : Table AuthSession.tokenHash
  tokens : Table RefreshToken.token
  revocations : List SessionRevocation
  links : Table SessionLink.id
  collaborators : String → Option Collaborator

variable (hash : String → String) (cm : CaseMap)

/-- Only active collaborators sign in. -/
def canSignIn (status : String) : Bool := toLower cm (trimSpace status) = "active"

namespace Stored

variable (s : Stored)

/-! ## Introspection -/

/-- What is said of a token. -/
structure IntrospectResponse where
  active : Bool
  subject : String := ""
  issuedAt : ℤ := 0
  expiresAt : ℤ := 0
  clientID : String := ""
  tokenType : String := ""

/-- There is a revocation of the session, or one of all sessions that is not older. -/
def isSessionRevoked (c : String) (jti : Option String) (issuedAt : ℤ) : Bool :=
  c ≠ uuidNil && s.revocations.any fun r => r.collaboratorID = c &&
    (r.sessionJTI.isSome && jti.isSome && r.sessionJTI = jti ||
      r.sessionJTI.isNone && issuedAt ≤ r.revokedAt)

/-- Why a subject gets no tokens. -/
inductive Unissuable
  | phoneUnavailable
  | cannotSignIn
  | phoneProfileRequired
  deriving DecidableEq

/-- Why a token is not issued to the collaborator. -/
def requireIssuableSubject (c : String) : Option Unissuable :=
  if c = uuidNil then some .phoneUnavailable
  else
    match s.collaborators c with
    | none => some .phoneUnavailable
    | some collaborator =>
      if !canSignIn cm collaborator.status then some .cannotSignIn
      else if collaborator.phoneProfileRequired then some .phoneProfileRequired
      else none

/-- The session of a token, if its collaborator can sign in. -/
def resolveAuthSession (now : ℤ) (text : String) : Option AuthSession :=
  let token := trimSpace text
  if token = "" then none
  else
    (s.sessions.get? (hash token)).filter fun session =>
      toLower cm (trimSpace session.status) = "active" && !(session.expiresAt < now) &&
        (s.collaborators session.collaboratorID).any fun collaborator =>
          canSignIn cm collaborator.status

/-- Seconds since the epoch. -/
def unix (instant : ℤ) : ℤ := instant / 10 ^ 9

/-- A session token is active if it and its session are. -/
def introspectSessionToken (now : ℤ) (text : String) : Option IntrospectResponse :=
  (s.resolveAuthSession hash cm now text).map fun session =>
    if session.revokedAt ≠ none then { active := false }
    else if session.expiresAt ≠ zeroTime ∧ session.expiresAt < now then { active := false }
    else if s.isSessionRevoked session.collaboratorID session.id session.createdAt then
      { active := false }
    else
      { active := true, subject := session.collaboratorID, issuedAt := unix session.createdAt,
        expiresAt := unix session.expiresAt, tokenType := "session" }

/-- A refresh token is active if it has not been revoked. -/
def introspectRefreshToken (now : ℤ) (text : String) : Option IntrospectResponse :=
  (s.tokens.get? (hash text)).map fun t =>
    if t.revokedAt ≠ none then { active := false }
    else if t.expiresAt ≠ zeroTime ∧ t.expiresAt < now then { active := false }
    else if s.isSessionRevoked t.collaboratorID none t.createdAt then { active := false }
    else if s.requireIssuableSubject cm t.collaboratorID ∈
        [some .cannotSignIn, some .phoneUnavailable] then { active := false }
    else
      { active := true, subject := t.collaboratorID, issuedAt := unix t.createdAt,
        expiresAt := unix t.expiresAt, clientID := t.clientID, tokenType := "refresh" }

/-! ## The end of a session -/

/-- A revocation is recorded, of a collaborator that has an id. -/
def insertSessionRevocation (r : SessionRevocation) : Stored :=
  if r.collaboratorID = uuidNil then s else { s with revocations := r :: s.revocations }

/-- What the end of a session does to a refresh token. -/
def revokeToken (c clientID : String) (now : ℤ) (t : RefreshToken) : RefreshToken :=
  if t.collaboratorID = c ∧ t.clientID = clientID ∧ t.revokedAt = none then
    { t with revokedAt := some now }
  else t

theorem token_revokeToken (c clientID : String) (now : ℤ) (t : RefreshToken) :
    (revokeToken c clientID now t).token = t.token := by
  rw [revokeToken, apply_ite RefreshToken.token, ite_self]

/-- A client ends the session of a collaborator. The failure of its record is passed over. -/
def terminateSession (c clientID : String) (now : ℤ) (recorded : Bool) : Stored :=
  let revoked : Stored :=
    { s with
      tokens := s.tokens.map (revokeToken c clientID now) (token_revokeToken c clientID now)
      links := s.links.map
        (fun l => if l.collaboratorID = c ∧ l.clientID = clientID ∧ l.terminatedAt = none ∧
            c ≠ uuidNil ∧ l.id ≠ uuidNil then { l with terminatedAt := some now } else l)
        fun l => by rw [apply_ite SessionLink.id, ite_self] }
  if recorded then
    revoked.insertSessionRevocation ⟨c, none, now, .logout,
      [("source", "oidc.terminate_session"), ("client_id", clientID)]⟩
  else revoked

variable {hash cm s} {c clientID : String} {now : ℤ} {recorded : Bool} {t : RefreshToken}
  {instant : ℤ} {text : String}

/-- What the end of a session keeps, and what becomes of the tokens. -/
theorem terminateSession_keeps :
    (s.terminateSession c clientID now recorded).sessions = s.sessions ∧
    (s.terminateSession c clientID now recorded).collaborators = s.collaborators ∧
    (s.terminateSession c clientID now recorded).tokens =
      s.tokens.map (revokeToken c clientID now) (token_revokeToken c clientID now) := by
  unfold terminateSession insertSessionRevocation
  split_ifs <;> exact ⟨rfl, rfl, rfl⟩

/-- A recorded revocation counts for whatever the collaborator had by then. -/
theorem isSessionRevoked_terminateSession (c' : String) (jti : Option String) (issuedAt : ℤ) :
    (s.terminateSession c clientID now recorded).isSessionRevoked c' jti issuedAt =
      (s.isSessionRevoked c' jti issuedAt ||
        recorded && (c' ≠ uuidNil && (c = c' && issuedAt ≤ now))) := by
  cases recorded with
  | false => exact (Bool.or_false _).symm
  | true =>
    by_cases hnil : c = uuidNil
    · have hsame : (s.terminateSession c clientID now true).isSessionRevoked c' jti issuedAt =
          s.isSessionRevoked c' jti issuedAt := by
        simp [terminateSession, insertSessionRevocation, isSessionRevoked, hnil]
      rw [hsame]
      by_cases hc : c = c'
      · simp [← hc, hnil]
      · simp [hc]
    · by_cases hc : c' = uuidNil <;>
        simp [terminateSession, insertSessionRevocation, isSessionRevoked, hnil, hc, Bool.or_comm]

/-! ## The scope of the end of a session -/

/-- The credential is known, and active. -/
def answer (response : Option IntrospectResponse) : Bool := response.any (·.active)

variable (s c) in
/-- A console session of the collaborator that a client is linked to. -/
def SessionOf (other : String) (session : AuthSession) : Prop :=
  session.collaboratorID = c ∧ ∃ l ∈ s.links, l.collaboratorID = c ∧ l.clientID = other ∧
    l.sessionID = some session.id

theorem answer_session_terminateSession {session : AuthSession}
    (h : s.sessions.get? (hash (trimSpace text)) = some session) (hc : session.collaboratorID = c) :
    answer ((s.terminateSession c clientID now recorded).introspectSessionToken
        hash cm instant text) =
      (answer (s.introspectSessionToken hash cm instant text) &&
        !(recorded && (c ≠ uuidNil && session.createdAt ≤ now))) := by
  have hresolve :
      (s.terminateSession c clientID now recorded).resolveAuthSession hash cm instant text =
        s.resolveAuthSession hash cm instant text := by
    simp only [resolveAuthSession, terminateSession_keeps]
  unfold introspectSessionToken
  rw [hresolve]
  cases hfound : s.resolveAuthSession hash cm instant text with
  | none => rfl
  | some found =>
    obtain rfl : session = found := by
      simp only [resolveAuthSession, h] at hfound
      split_ifs at hfound
      exact Option.some.inj (Option.filter_eq_some_iff.1 hfound).1
    simp only [answer, Option.map_some, Option.any_some, isSessionRevoked_terminateSession, hc,
      decide_true, Bool.true_and]
    generalize (recorded && (decide (c ≠ uuidNil) && decide (session.createdAt ≤ now))) = late
    split_ifs <;> simp_all

theorem answer_refresh_terminateSession (h : s.tokens.get? (hash text) = some t)
    (hc : t.collaboratorID = c) (hother : t.clientID ≠ clientID) :
    answer ((s.terminateSession c clientID now recorded).introspectRefreshToken
        hash cm instant text) =
      (answer (s.introspectRefreshToken hash cm instant text) &&
        !(recorded && (c ≠ uuidNil && t.createdAt ≤ now))) := by
  have hissuable : (s.terminateSession c clientID now recorded).requireIssuableSubject cm c =
      s.requireIssuableSubject cm c := by
    simp only [requireIssuableSubject, terminateSession_keeps]
  -- The tokens of other clients are not revoked.
  have hkept : (s.terminateSession c clientID now recorded).tokens.get? (hash text) = some t := by
    rw [terminateSession_keeps.2.2, Table.get?_map, h, Option.map_some, revokeToken,
      if_neg fun hrow => hother hrow.2.1]
  simp only [introspectRefreshToken, hkept, h, answer, Option.map_some,
    Option.any_some, isSessionRevoked_terminateSession, hc, hissuable, decide_true, Bool.true_and]
  generalize (recorded && (decide (c ≠ uuidNil) && decide (t.createdAt ≤ now))) = late
  split_ifs <;> simp_all

/-- What introspection is asked about, by the text that the client presents. -/
inductive Credential
  | session (text : String)
  | refresh (text : String)

variable (hash cm s) in
/-- What is said of a credential. -/
def introspect (instant : ℤ) : Credential → Option IntrospectResponse
  | .session text => s.introspectSessionToken hash cm instant text
  | .refresh text => s.introspectRefreshToken hash cm instant text

variable (hash s c) in
/-- The credential is one of the collaborator with the client, created at an instant. -/
def BelongsTo (other : String) (createdAt : ℤ) : Credential → Prop
  | .session text => ∃ session, s.sessions.get? (hash (trimSpace text)) = some session ∧
      s.SessionOf c other session ∧ session.createdAt = createdAt
  | .refresh text => ∃ t, s.tokens.get? (hash text) = some t ∧ t.collaboratorID = c ∧
      t.clientID = other ∧ t.createdAt = createdAt

/-- A credential of another client stays active if nothing is recorded, or if it is newer. -/
theorem answer_terminateSession {other : String} {createdAt : ℤ} {k : Credential}
    (hk : s.BelongsTo hash c other createdAt k) (hother : other ≠ clientID) :
    answer ((s.terminateSession c clientID now recorded).introspect hash cm instant k) =
      (answer (s.introspect hash cm instant k) &&
        !(recorded && (c ≠ uuidNil && createdAt ≤ now))) := by
  cases k with
  | session text =>
    obtain ⟨session, hfound, hsession, rfl⟩ := hk
    exact answer_session_terminateSession hfound hsession.1
  | refresh text =>
    obtain ⟨t, hfound, hc, rfl, rfl⟩ := hk
    exact answer_refresh_terminateSession hfound hc hother

variable (hash cm s c clientID now recorded)

/-- The end of the session with a client changes no answer about the credentials of others. -/
def EndScoped (instant : ℤ) : Prop :=
  ∀ other ≠ clientID, ∀ createdAt k, s.BelongsTo hash c other createdAt k →
    answer ((s.terminateSession c clientID now recorded).introspect hash cm instant k) =
      answer (s.introspect hash cm instant k)

/-- What is active of the collaborator with other clients is newer than the instant. -/
def NewerElsewhere (instant : ℤ) : Prop :=
  ∀ other ≠ clientID, ∀ createdAt k, s.BelongsTo hash c other createdAt k →
    answer (s.introspect hash cm instant k) = true → now < createdAt

/-- The end of a session is scoped exactly when its revocation counts nowhere else. -/
theorem endScoped_iff (instant : ℤ) :
    s.EndScoped hash cm c clientID now recorded instant ↔
      recorded = false ∨ c = uuidNil ∨ s.NewerElsewhere hash cm c clientID now instant := by
  constructor
  · intro h
    by_cases hrecorded : recorded = true
    · by_cases hnil : c = uuidNil
      · exact .inr (.inl hnil)
      · refine .inr (.inr fun other hother createdAt k hk hactive => ?_)
        -- an older credential would be active before, and not after
        have heq := h other hother createdAt k hk
        rw [answer_terminateSession hk hother, hactive] at heq
        simpa [hrecorded, hnil] using heq
    · exact .inl (Bool.eq_false_iff.2 hrecorded)
  · intro h other hother createdAt k hk
    rw [answer_terminateSession hk hother]
    rcases h with rfl | rfl | hnewer
    · simp
    · simp
    · cases hactive : answer (s.introspect hash cm instant k) with
      | false => rfl
      | true => simp [hnewer other hother createdAt k hk hactive]

/-! ## The sample of two clients -/

namespace Sample

/-- A token of the client `b` that the end of the session with the client `a` makes inactive. -/
def twoClients : Stored where
  sessions := .empty
  tokens := ⟨[⟨"r", "u", "b", 100, none, none, 5, 0⟩], List.nodup_singleton _⟩
  revocations := []
  links := .empty
  collaborators _ := some ⟨"active", false⟩

end Sample

theorem not_endScoped :
    ¬ ∀ (hash : String → String) (cm : CaseMap) (s : Stored) (c clientID : String) (now : ℤ)
      (recorded : Bool) (instant : ℤ), s.EndScoped hash cm c clientID now recorded instant := by
  intro h
  have hsame := h id ascii Sample.twoClients "u" "a" 10 true 20 "b" (by decide) 5
    (.refresh "r") ⟨_, rfl, rfl, rfl, rfl⟩
  have hbefore : answer (Sample.twoClients.introspect id ascii 20 (.refresh "r")) = true := by
    decide +kernel
  have hafter : answer ((Sample.twoClients.terminateSession "u" "a" 10 true).introspect id
      ascii 20 (.refresh "r")) = false := by
    decide +kernel
  rw [hbefore, hafter] at hsame
  exact Bool.false_ne_true hsame

end Stored

end Yggdrasil.Sessions
