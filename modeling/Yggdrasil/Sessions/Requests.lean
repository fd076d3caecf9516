import Yggdrasil.Lib.Workers
import Yggdrasil.Sessions.Store

/-!
# Requests to the provider

Requests interleave statement by statement. Codes are consumed and tokens rotated in serializable
transactions, which see the rows of their snapshot, and fail if a row that they lock has been
written since. An update of many rows (`Sweep`) is read committed: it locks the rows that it has
found one by one, and passes over those that do not match any more.
-/

namespace Yggdrasil.Sessions

/-! ## Phases -/

/-- The statements of the termination of a collaborator's sessions. -/
inductive Stage
  | begun
  | tokens
  | codes
  | requests
  deriving DecidableEq

/-- The order in which a collaborator is swept. -/
def Stage.next? : Stage → Option Stage
  | .begun => some .tokens
  | .tokens => some .codes
  | .codes => some .requests
  | .requests => none

/-- An update of many rows: of a chain, of a client, or of all that a collaborator has. -/
inductive Sweep
  | chain (root : String)
  | client (collaboratorID clientID : String)
  | collaborator (id : String) (stage : Stage)
  deriving DecidableEq

/-- It is the last update of its transaction. -/
def Sweep.Last : Sweep → Prop
  | .collaborator _ stage => stage = .requests
  | .chain _ | .client _ _ => True

instance : DecidablePred Sweep.Last
  | .collaborator _ stage => inferInstanceAs (Decidable (stage = .requests))
  | .chain _ | .client _ _ => inferInstanceAs (Decidable True)

/-- A request is one that the update is about. -/
def Sweep.selects : Sweep → AuthRequest → Bool
  | .collaborator c _, ar => ar.collaboratorID = some c
  | .chain _, _ | .client _ _, _ => false

/-- Who asks for tokens. -/
structure TokenRequest where
  subject : String
  clientID : String
  login : ℕ
  deriving DecidableEq

/-- Where a request is, and what its transaction has seen and written. -/
inductive Phase
  | idle
  | found (code : String) (request : AuthRequest)
  | consuming (request : AuthRequest) (seen : AuthCode) (now : ℤ)
  | consumed (request : AuthRequest) (code : String) (now : ℤ)
  | granted (code : String) (request : AuthRequest)
  | presented (request : TokenRequest) (current : String)
  | rotating (request : TokenRequest) (seen : RefreshToken) (now : ℤ)
  | rotated (request : TokenRequest) (current : String) (now : ℤ)
  | renewed (current : String) (new : RefreshToken) (now : ℤ)
  | condemned (root : String)
  | sweeping (sweep : Sweep) (targets writes : List Key) (now : ℤ)
  | saving (request : AuthRequest)
  deriving DecidableEq

/-- The rows that a transaction has closed, for itself. -/
def Phase.writes : Phase → List Key
  | .consumed _ code _ => [.code code]
  | .rotated _ current _ => [.token current]
  | .renewed current _ _ => [.token current]
  | .sweeping _ _ writes _ => writes
  | _ => []

/-! ## Queries -/

variable {W : Type}

namespace Db

variable (db : Db W)

/-- The request of a code that is still open. -/
def getOIDCAuthRequestByCode (code : String) : Option AuthRequest :=
  (db.codes.get? code).bind fun c =>
    (db.requests.get? c.authRequestID).filter fun ar =>
      c.consumedAt = none ∧ db.clock < c.expiresAt ∧ ar.consumedAt = none

/-- The tokens that were rotated from one of a level. -/
def rotatedFrom (level : List String) : List String :=
  (db.tokens.rows.filter fun t => t.rotatedFrom.any (· ∈ level)).map (·.token)

/-- A token and its descendants. -/
def chain (root : String) : List String :=
  levels db.rotatedFrom db.tokens.rows.length
    ((db.tokens.rows.filter (·.token = root)).map (·.token))

/-- The tokens that are open. -/
def openTokens (p : RefreshToken → Bool) : List Key :=
  (db.tokens.rows.filter fun t => p t && t.revokedAt.isNone).map (.token ·.token)

/-- The rows that an update finds. -/
def targets (now : ℤ) : Sweep → List Key
  | .chain root => db.openTokens (·.token ∈ db.chain root)
  | .client c clientID => db.openTokens fun t => t.collaboratorID = c ∧ t.clientID = clientID
  | .collaborator _ .begun => []
  | .collaborator c .tokens => db.openTokens (·.collaboratorID = c)
  | .collaborator c .codes =>
    (db.codes.rows.filter fun code => (db.requests.get? code.authRequestID).any
      (·.collaboratorID = some c) && code.consumedAt.isNone && now < code.expiresAt).map
        (.code ·.code)
  | .collaborator c .requests =>
    (db.requests.rows.filter fun ar => ar.collaboratorID = some c ∧ ar.consumedAt.isNone ∧
      now < ar.expiresAt).map (.request ·.id)

/-- A row still matches the condition of an update once it is locked. -/
def stillMatches (now : ℤ) (sweep : Sweep) : Key → Bool
  | .token token => db.stamp (.token token) = some none
  | .code code => (db.codes.get? code).any fun c => c.consumedAt.isNone && now < c.expiresAt
  | .request id => (db.requests.get? id).any fun ar =>
    sweep.selects ar && ar.consumedAt.isNone && now < ar.expiresAt

/-- A login. -/
def bindCollaborator (id collaboratorID : String) : Db W :=
  { db with
    requests := db.requests.map
      (fun ar => if ar.id = id then
        { ar with collaboratorID := some collaboratorID, login := db.logins + 1 } else ar)
      fun ar => by rw [apply_ite AuthRequest.id, ite_self]
    logins := db.logins + 1 }

end Db

/-- The request is open. -/
def requireOpenAuthRequest (ar : AuthRequest) (now : ℤ) : Bool :=
  ar.consumedAt.isNone && now < ar.expiresAt

/-- The token of a request, rotated from another one or not. -/
def TokenRequest.record (request : TokenRequest) (token : String) (current : Option String)
    (now : ℤ) : RefreshToken where
  token := token
  collaboratorID := request.subject
  clientID := request.clientID
  expiresAt := now + refreshTokenLifetime
  rotatedFrom := current
  createdAt := now
  login := request.login

/-! ## Calls -/

/-- The statements of the server. -/
inductive Call
  | tick (d : ℕ)
  | createAuthRequest (id clientID : String) (userID : Option String)
  | bindCollaborator (id collaboratorID : String)
  | deleteAuthRequest (id : String)
  | saveAuthCode (id : String)
  | insertCode (code : String)
  | authRequestByCode (code : String)
  | createTokens (token : Option String)
  | tokenRequestByRefreshToken (token : String)
  | present (request : TokenRequest) (current : String)
  | revokeToken (token clientID : String)
  | terminateSession (collaboratorID clientID : String)
  | terminate (collaboratorID : String)
  | next
  | lock
  | insert (token : String)
  | touch (k : Key)
  | commit
  | fail
  deriving DecidableEq

/-- A token is presented: it is to be rotated, or its chain to be revoked. -/
def Db.tokenRequestByRefreshToken (db : Db W) (token : String) : Option Phase :=
  (db.tokens.get? token).bind fun t =>
    if t.revokedAt ≠ none then some (.condemned token)
    else if t.expiresAt < db.clock then none
    else some (.presented ⟨t.collaboratorID, t.clientID, t.login⟩ token)

/-- The next statement begins, and finds its rows. -/
def Phase.next (db : Db W) : Phase → Option Phase
  | .found code request =>
    match db.codes.get? code with
    | none => some .idle
    | some seen => some (.consuming request seen db.clock)
  | .presented request current =>
    match db.tokens.get? current with
    | none => some (.condemned current)
    | some seen =>
      if seen.revokedAt = none then some (.rotating request seen db.clock)
      else some (.condemned current)
  | .condemned root =>
    some (.sweeping (.chain root) (db.targets db.clock (.chain root)) [] db.clock)
  | .sweeping (.collaborator c stage) [] writes now =>
    stage.next?.map fun stage =>
      .sweeping (.collaborator c stage) (db.targets now (.collaborator c stage)) writes now
  | _ => none

variable [DecidableEq W]

section Transactions

variable (i : W)

/-- A row is locked. -/
def Db.lock (k : Key) (db : Db W) : Db W := { db with locks := db.locks.take i k }

variable (db : Db W)

/-- The locks of a transaction are released. -/
def Db.release : Db W := { db with locks := db.locks.release i }

/-- The row that the transaction has seen is locked and closed, unless written since. -/
def Phase.lock : Phase → Option (Db W × Phase)
  | .consuming request seen now =>
    if ¬ db.locks.Free i (.code seen.code) then none
    else if db.codes.get? seen.code = some seen ∧ seen.consumedAt = none then
      some (db.lock i (.code seen.code), .consumed request seen.code now)
    else some (db, .idle)
  | .rotating request seen now =>
    if ¬ db.locks.Free i (.token seen.token) then none
    else if db.tokens.get? seen.token = some seen then
      some (db.lock i (.token seen.token), .rotated request seen.token now)
    else some (db, .idle)
  | _ => none

/-- The insertion of the token that replaces another one. -/
def Phase.insert (token : String) : Phase → Option (Db W × Phase)
  | .rotated request current now =>
    if db.locks.Free i (.token token) ∧ db.stamp (.token token) = none then
      some (db.lock i (.token token), .renewed current (request.record token current now) now)
    else none
  | _ => none

/-- An update comes to a row that it has found. -/
def Phase.touch (k : Key) : Phase → Option (Db W × Phase)
  | .sweeping sweep targets writes now =>
    if ¬ (k ∈ targets ∧ db.locks.Free i k) then none
    else if db.stillMatches now sweep k then
      some (db.lock i k, .sweeping sweep (targets.filter (· ≠ k)) (k :: writes) now)
    else some (db, .sweeping sweep (targets.filter (· ≠ k)) writes now)
  | _ => none

/-- What the end of a transaction writes. -/
def Phase.commit : Phase → Option (Db W × Phase)
  | .consumed request code now =>
    some ((db.close now [.code code]).release i, .granted code request)
  | .renewed current new now =>
    some (((db.close now [.token current]).addToken new).release i, .idle)
  | .sweeping sweep [] writes now =>
    if sweep.Last then some ((db.close now writes).release i, .idle) else none
  | _ => none

/-- The tokens of an exchange: an access token, and a refresh token if one is asked for. -/
def Phase.createTokens (token : Option String) : Phase → Option (Db W × Phase)
  | .granted _ request =>
    request.collaboratorID.bind fun subject =>
      match token with
      | none => some (db, .idle)
      | some token =>
        if db.locks.Free i (.token token) ∧ db.stamp (.token token) = none then
          some (db.addToken
            (TokenRequest.record ⟨subject, request.clientID, request.login⟩ token none db.clock),
            .idle)
        else none
  | _ => none

end Transactions

/-- What a call of request `i` does, if it is possible. -/
def act (i : W) (call : Call) (db : Db W) (p : Phase) : Option (Db W × Phase) :=
  match call, p with
  | .tick d, p => some ({ db with clock := db.clock + d }, p)
  | .createAuthRequest id clientID userID, .idle =>
    (db.requests.insert? ⟨id, clientID, userID, db.clock + authorizationCodeLifetime, none,
      db.logins + 1⟩).map fun requests =>
        ({ db with requests := requests, logins := db.logins + 1 }, .idle)
  | .bindCollaborator id collaboratorID, .idle =>
    if db.locks.Free i (.request id) ∧ db.stamp (.request id) = some none then
      some (db.bindCollaborator id collaboratorID, .idle)
    else none
  | .deleteAuthRequest id, .idle =>
    if db.locks.Free i (.request id) ∧ db.stamp (.request id) = some none then
      some (db.close db.clock [.request id], .idle)
    else none
  | .saveAuthCode id, .idle =>
    ((db.requests.get? id).filter fun ar =>
      requireOpenAuthRequest ar db.clock && ar.collaboratorID.isSome).map fun ar =>
        (db, .saving ar)
  | .insertCode code, .saving ar =>
    (db.codes.insert? ⟨code, ar.id, db.clock + authorizationCodeLifetime, none⟩).map fun codes =>
      ({ db with codes := codes }, .idle)
  | .authRequestByCode code, .idle =>
    (db.getOIDCAuthRequestByCode code).map fun ar => (db, .found code ar)
  | .createTokens token, p => p.createTokens i db token
  | .tokenRequestByRefreshToken token, .idle =>
    (db.tokenRequestByRefreshToken token).map fun p => (db, p)
  | .present request current, .idle => some (db, .presented request current)
  | .revokeToken token clientID, .idle =>
    ((db.tokens.get? token).filter (·.clientID = clientID)).map fun _ => (db, .condemned token)
  | .terminateSession c clientID, .idle =>
    some (db, .sweeping (.client c clientID) (db.targets db.clock (.client c clientID)) [] db.clock)
  | .terminate c, .idle => some (db, .sweeping (.collaborator c .begun) [] [] db.clock)
  | .next, p => (p.next db).map fun p => (db, p)
  | .lock, p => p.lock i db
  | .insert token, p => p.insert i db token
  | .touch k, p => p.touch i db k
  | .commit, p => p.commit i db
  | .fail, _ => some (db.release i, .idle)
  | _, _ => none

/-! ## What a call does -/

/-- A call, and what it makes of the rows and of its request. -/
inductive Acts (i : W) (db : Db W) : Call → Phase → Db W → Phase → Prop
  | tick (d p) : Acts i db (.tick d) p { db with clock := db.clock + d } p
  | createAuthRequest (id clientID userID requests)
      (hinsert : db.requests.insert? ⟨id, clientID, userID,
        db.clock + authorizationCodeLifetime, none, db.logins + 1⟩ = some requests) :
      Acts i db (.createAuthRequest id clientID userID) .idle
        { db with requests := requests, logins := db.logins + 1 } .idle
  | bindCollaborator (id c) (hfree : db.locks.Free i (.request id))
      (hopen : db.stamp (.request id) = some none) :
      Acts i db (.bindCollaborator id c) .idle (db.bindCollaborator id c) .idle
  | deleteAuthRequest (id) (hfree : db.locks.Free i (.request id))
      (hopen : db.stamp (.request id) = some none) :
      Acts i db (.deleteAuthRequest id) .idle (db.close db.clock [.request id]) .idle
  | saveAuthCode (id ar c) (hget : db.requests.get? id = some ar) (hopen : ar.consumedAt = none)
      (hlive : db.clock < ar.expiresAt) (hc : ar.collaboratorID = some c) :
      Acts i db (.saveAuthCode id) .idle db (.saving ar)
  | insertCode (code ar codes)
      (hinsert : db.codes.insert? ⟨code, ar.id, db.clock + authorizationCodeLifetime, none⟩
        = some codes) :
      Acts i db (.insertCode code) (.saving ar) { db with codes := codes } .idle
  | authRequestByCode (code c ar) (hcode : db.codes.get? code = some c)
      (hget : db.requests.get? c.authRequestID = some ar) (hopen : c.consumedAt = none)
      (hlive : db.clock < c.expiresAt) (har : ar.consumedAt = none) :
      Acts i db (.authRequestByCode code) .idle db (.found code ar)
  | createAccessToken (code ar) : Acts i db (.createTokens none) (.granted code ar) db .idle
  | createTokens (code ar token c) (hc : ar.collaboratorID = some c)
      (hfree : db.locks.Free i (.token token)) (hfresh : db.stamp (.token token) = none) :
      Acts i db (.createTokens (some token)) (.granted code ar)
        (db.addToken (TokenRequest.record ⟨c, ar.clientID, ar.login⟩ token none db.clock)) .idle
  | presentOpen (token t) (hget : db.tokens.get? token = some t) (hopen : t.revokedAt = none) :
      Acts i db (.tokenRequestByRefreshToken token) .idle db
        (.presented ⟨t.collaboratorID, t.clientID, t.login⟩ token)
  | presentRevoked (token) :
      Acts i db (.tokenRequestByRefreshToken token) .idle db (.condemned token)
  | present (request current) :
      Acts i db (.present request current) .idle db (.presented request current)
  | revokeToken (token clientID) :
      Acts i db (.revokeToken token clientID) .idle db (.condemned token)
  | terminateSession (c clientID) :
      Acts i db (.terminateSession c clientID) .idle db
        (.sweeping (.client c clientID) (db.targets db.clock (.client c clientID)) [] db.clock)
  | terminate (c) :
      Acts i db (.terminate c) .idle db (.sweeping (.collaborator c .begun) [] [] db.clock)
  | codeMissing (code ar) : Acts i db .next (.found code ar) db .idle
  | beginConsume (code ar seen) (hget : db.codes.get? code = some seen) :
      Acts i db .next (.found code ar) db (.consuming ar seen db.clock)
  | beginRotate (request current seen) (hget : db.tokens.get? current = some seen)
      (hopen : seen.revokedAt = none) :
      Acts i db .next (.presented request current) db (.rotating request seen db.clock)
  | replay (request current) (hclosed : db.stamp (.token current) ≠ some none) :
      Acts i db .next (.presented request current) db (.condemned current)
  | beginChain (root) :
      Acts i db .next (.condemned root) db
        (.sweeping (.chain root) (db.targets db.clock (.chain root)) [] db.clock)
  | advance (c stage stage' writes now) (hnext : stage.next? = some stage') :
      Acts i db .next (.sweeping (.collaborator c stage) [] writes now) db
        (.sweeping (.collaborator c stage') (db.targets now (.collaborator c stage')) writes now)
  | lockCode (ar seen now) (hfree : db.locks.Free i (.code seen.code))
      (hget : db.codes.get? seen.code = some seen) (hopen : seen.consumedAt = none) :
      Acts i db .lock (.consuming ar seen now) (db.lock i (.code seen.code))
        (.consumed ar seen.code now)
  | codeWritten (ar seen now) : Acts i db .lock (.consuming ar seen now) db .idle
  | lockToken (request seen now) (hfree : db.locks.Free i (.token seen.token))
      (hget : db.tokens.get? seen.token = some seen) :
      Acts i db .lock (.rotating request seen now) (db.lock i (.token seen.token))
        (.rotated request seen.token now)
  | tokenWritten (request seen now) : Acts i db .lock (.rotating request seen now) db .idle
  | insert (token request current now) (hfree : db.locks.Free i (.token token))
      (hfresh : db.stamp (.token token) = none) :
      Acts i db (.insert token) (.rotated request current now) (db.lock i (.token token))
        (.renewed current (request.record token current now) now)
  | touch (k sweep targets writes now) (hk : k ∈ targets) (hfree : db.locks.Free i k)
      (hmatch : db.stillMatches now sweep k = true) :
      Acts i db (.touch k) (.sweeping sweep targets writes now) (db.lock i k)
        (.sweeping sweep (targets.filter (· ≠ k)) (k :: writes) now)
  | pass (k sweep targets writes now) (hk : k ∈ targets)
      (hmatch : db.stillMatches now sweep k = false) :
      Acts i db (.touch k) (.sweeping sweep targets writes now) db
        (.sweeping sweep (targets.filter (· ≠ k)) writes now)
  | commitCode (ar code now) :
      Acts i db .commit (.consumed ar code now) ((db.close now [.code code]).release i)
        (.granted code ar)
  | commitRotation (current new now) :
      Acts i db .commit (.renewed current new now)
        (((db.close now [.token current]).addToken new).release i) .idle
  | commitSweep (sweep writes now) (hlast : sweep.Last) :
      Acts i db .commit (.sweeping sweep [] writes now) ((db.close now writes).release i) .idle
  | fail (p) : Acts i db .fail p (db.release i) .idle

variable {i j : W} {call : Call} {db db' : Db W} {p p' : Phase} {k : Key} {now : ℤ} {token : String}

theorem Phase.next_acts (h : p.next db = some p') : Acts i db .next p db p' := by
  unfold next at h
  split at h
  next code ar =>
    split at h <;> cases h
    · exact .codeMissing code ar
    next seen hget => exact .beginConsume code ar seen hget
  next request current =>
    split at h
    next hget =>
      cases h
      refine .replay request current ?_
      rw [Db.stamp, hget]
      rintro ⟨⟩
    next seen hget =>
      split at h <;> cases h
      next hopen => exact .beginRotate request current seen hget hopen
      next hclosed =>
        refine .replay request current ?_
        rw [Db.stamp, hget, Option.map_some]
        exact fun heq => hclosed (Option.some.inj heq)
  next root =>
    cases h
    exact .beginChain root
  next c stage writes now =>
    obtain ⟨stage', hnext, rfl⟩ := Option.map_eq_some_iff.1 h
    exact .advance c stage stage' writes now hnext
  · cases h

theorem Phase.lock_acts (h : p.lock i db = some (db', p')) : Acts i db .lock p db' p' := by
  unfold lock at h
  split at h
  next ar seen now =>
    split at h
    · cases h
    next hfree =>
      split at h <;> cases h
      next hseen => exact .lockCode ar seen now (not_not.1 hfree) hseen.1 hseen.2
      · exact .codeWritten ar seen now
  next request seen now =>
    split at h
    · cases h
    next hfree =>
      split at h <;> cases h
      next hseen => exact .lockToken request seen now (not_not.1 hfree) hseen
      · exact .tokenWritten request seen now
  · cases h

theorem Phase.touch_acts (h : p.touch i db k = some (db', p')) : Acts i db (.touch k) p db' p' := by
  unfold touch at h
  split at h
  next sweep targets writes now =>
    split at h
    · cases h
    next hk =>
      obtain ⟨hk, hfree⟩ := not_not.1 hk
      split at h <;> cases h
      next hmatch => exact .touch k sweep targets writes now hk hfree hmatch
      next hmatch => exact .pass k sweep targets writes now hk (Bool.eq_false_iff.2 hmatch)
  · cases h

theorem Phase.insert_acts (h : p.insert i db token = some (db', p')) :
    Acts i db (.insert token) p db' p' := by
  unfold Phase.insert at h
  split at h
  next request current now =>
    split at h <;> cases h
    next hnew => exact .insert token request current now hnew.1 hnew.2
  · cases h

theorem Phase.commit_acts (h : p.commit i db = some (db', p')) : Acts i db .commit p db' p' := by
  unfold commit at h
  split at h
  next ar code now =>
    cases h
    exact .commitCode ar code now
  next current new now =>
    cases h
    exact .commitRotation current new now
  next sweep writes now =>
    split at h <;> cases h
    next hlast => exact .commitSweep sweep writes now hlast
  · cases h

theorem Phase.createTokens_acts {token : Option String}
    (h : p.createTokens i db token = some (db', p')) :
    Acts i db (.createTokens token) p db' p' := by
  unfold createTokens at h
  split at h
  next code ar =>
    obtain ⟨c, hc, h⟩ := Option.bind_eq_some_iff.1 h
    cases token with
    | none =>
      cases h
      exact .createAccessToken code ar
    | some token =>
      dsimp only at h
      split at h <;> cases h
      next hnew => exact .createTokens code ar token c hc hnew.1 hnew.2
  · cases h

theorem tokenRequest_acts (h : db.tokenRequestByRefreshToken token = some p') :
    Acts i db (.tokenRequestByRefreshToken token) .idle db p' := by
  obtain ⟨t, hget, h⟩ := Option.bind_eq_some_iff.1 h
  split at h
  · cases h
    exact .presentRevoked token
  next hopen =>
    split at h <;> cases h
    exact .presentOpen token t hget (not_not.1 hopen)

theorem acts (h : act i call db p = some (db', p')) : Acts i db call p db' p' := by
  unfold act at h
  split at h
  next d =>
    cases h
    exact .tick d p
  next id clientID userID =>
    obtain ⟨requests, hinsert, hout⟩ := Option.map_eq_some_iff.1 h
    cases hout
    exact .createAuthRequest id clientID userID requests hinsert
  next id c =>
    split at h <;> cases h
    next hrow => exact .bindCollaborator id c hrow.1 hrow.2
  next id =>
    split at h <;> cases h
    next hrow => exact .deleteAuthRequest id hrow.1 hrow.2
  next id =>
    obtain ⟨ar, har, hout⟩ := Option.map_eq_some_iff.1 h
    obtain ⟨hget, hopen⟩ := Option.filter_eq_some_iff.1 har
    cases hout
    simp only [requireOpenAuthRequest, Bool.and_eq_true, Option.isNone_iff_eq_none,
      decide_eq_true_eq, Option.isSome_iff_exists] at hopen
    obtain ⟨⟨hopen, hlive⟩, c, hc⟩ := hopen
    exact .saveAuthCode id ar c hget hopen hlive hc
  next code ar =>
    obtain ⟨codes, hinsert, hout⟩ := Option.map_eq_some_iff.1 h
    cases hout
    exact .insertCode code ar codes hinsert
  next code =>
    obtain ⟨ar, har, hout⟩ := Option.map_eq_some_iff.1 h
    cases hout
    obtain ⟨c, hcode, har⟩ := Option.bind_eq_some_iff.1 har
    obtain ⟨hget, hopen⟩ := Option.filter_eq_some_iff.1 har
    obtain ⟨hopen, hlive, hrequest⟩ := of_decide_eq_true hopen
    exact .authRequestByCode code c ar hcode hget hopen hlive hrequest
  next => exact Phase.createTokens_acts h
  next token =>
    obtain ⟨p', hp', hout⟩ := Option.map_eq_some_iff.1 h
    cases hout
    exact tokenRequest_acts hp'
  next request current =>
    cases h
    exact .present request current
  next token clientID =>
    obtain ⟨t, ht, hout⟩ := Option.map_eq_some_iff.1 h
    cases hout
    exact .revokeToken token clientID
  next c clientID =>
    cases h
    exact .terminateSession c clientID
  next c =>
    cases h
    exact .terminate c
  next =>
    obtain ⟨p', hp', hout⟩ := Option.map_eq_some_iff.1 h
    cases hout
    exact Phase.next_acts hp'
  next => exact Phase.lock_acts h
  next => exact Phase.insert_acts h
  next => exact Phase.touch_acts h
  next => exact Phase.commit_acts h
  next =>
    cases h
    exact .fail p
  · cases h

/-! ## What transactions hold -/

/-- What a transaction has closed or inserted is locked by it and not seen by others. A token to be
    rotated was open. -/
structure Holds (i : W) (db : Db W) (p : Phase) : Prop where
  writes : ∀ k ∈ p.writes, db.locks k = some i ∧ db.stamp k = some none
  new : ∀ current new now, p = .renewed current new now →
    db.locks (.token new.token) = some i ∧ db.stamp (.token new.token) = none ∧
      new.revokedAt = none ∧ new.rotatedFrom = some current
  seen : ∀ request seen now, p = .rotating request seen now → seen.revokedAt = none

/-- A call closes a row, inserts it, or does nothing; not where another request has the lock. -/
inductive Stamped (i : W) (db db' : Db W) (k : Key) : Prop
  | same (h : db'.stamp k = db.stamp k)
  | closed (hfree : db.locks.Free i k) (h : ∃ t, db'.stamp k = some (some t))
  | opened (hfree : ∀ t, k = .token t → db.locks.Free i k) (hnone : db.stamp k = none)
      (h : db'.stamp k = some none)

section Stamped

variable {keys : List Key} {sweep : Sweep}

omit [DecidableEq W] in
theorem stamped_close (hkeys : ∀ k ∈ keys, db.locks.Free i k)
    (hopen : ∀ k ∈ keys, db.stamp k = some none) (k : Key) :
    Stamped i db (db.close now keys) k := by
  by_cases hk : k ∈ keys
  · refine .closed (hkeys k hk) ⟨now, ?_⟩
    rw [Db.stamp_close, if_pos hk, hopen k hk, Option.map_some]
  · refine .same ?_
    rw [Db.stamp_close, if_neg hk]

omit [DecidableEq W] in
theorem stamped_addToken {t : RefreshToken} (hfree : db.locks.Free i (.token t.token))
    (hfresh : db.stamp (.token t.token) = none) (hopen : t.revokedAt = none) (k : Key) :
    Stamped i db (db.addToken t) k := by
  by_cases hk : k = .token t.token
  · subst hk
    refine .opened (fun _ _ => hfree) hfresh ?_
    rw [Db.stamp_addToken hfresh, if_pos rfl, hopen]
  · refine .same ?_
    rw [Db.stamp_addToken hfresh, if_neg hk]

omit [DecidableEq W] in
theorem Db.stamp_bindCollaborator (id c : String) :
    (db.bindCollaborator id c).stamp k = db.stamp k := by
  cases k with
  | code | token => rfl
  | request id' =>
    simp only [Db.stamp, Db.bindCollaborator, Table.get?_map, Option.map_map]
    congr 1
    funext ar
    exact (apply_ite AuthRequest.consumedAt _ _ _).trans (ite_self _)

omit [DecidableEq W] in
theorem Stamped.congr {db'' : Db W} (h : Stamped i db db' k) (hstamp : db''.stamp k = db'.stamp k) :
    Stamped i db db'' k := by
  cases h with
  | same h => exact .same (hstamp.trans h)
  | closed hfree h => exact .closed hfree (hstamp ▸ h)
  | opened hfree hnone h => exact .opened hfree hnone (hstamp.trans h)

omit [DecidableEq W] in
theorem Holds.stamped_close (hp : Holds i db p) (now : ℤ) (k : Key) :
    Stamped i db (db.close now p.writes) k :=
  Sessions.stamped_close (fun k hk => Locks.free_of_own (hp.writes k hk).1)
    (fun k hk => (hp.writes k hk).2) k

omit [DecidableEq W] in
/-- The new token of a rotation is still not there when the old one is closed. -/
theorem Holds.fresh_close {current : String} {new : RefreshToken}
    (hp : Holds i db (.renewed current new now)) :
    (db.close now [.token current]).stamp (.token new.token) = none := by
  rw [Db.stamp_close, (hp.new current new now rfl).2.1]
  exact ite_self _

theorem Acts.stamped (h : Acts i db call p db' p') (hp : Holds i db p) (k : Key) :
    Stamped i db db' k := by
  cases h with
  | createAuthRequest id clientID userID requests hinsert =>
    by_cases hk : k = .request id
    · subst hk
      refine .opened nofun ?_ ?_
      · exact Option.map_eq_none_iff.2 (Table.get?_eq_none.2 (Table.insert?_eq_some hinsert).1)
      · rw [Db.stamp_insertRequest hinsert, if_pos rfl]
    · refine .same ?_
      rw [Db.stamp_insertRequest hinsert, if_neg hk]
  | insertCode code ar codes hinsert =>
    by_cases hk : k = .code code
    · subst hk
      refine .opened nofun ?_ ?_
      · exact Option.map_eq_none_iff.2 (Table.get?_eq_none.2 (Table.insert?_eq_some hinsert).1)
      · rw [Db.stamp_insertCode hinsert, if_pos rfl]
    · refine .same ?_
      rw [Db.stamp_insertCode hinsert, if_neg hk]
  | bindCollaborator id c => exact .same (Db.stamp_bindCollaborator id c)
  | deleteAuthRequest id hfree hopen =>
    exact stamped_close (by simpa using hfree) (by simpa using hopen) k
  | createTokens code ar token c hc hfree hfresh => exact stamped_addToken hfree hfresh rfl k
  | commitCode ar code now => exact (hp.stamped_close now k).congr rfl
  | commitSweep sweep writes now => exact (hp.stamped_close now k).congr rfl
  | commitRotation current new now =>
    obtain ⟨hlock, hnone, hopen, -⟩ := hp.new current new now rfl
    by_cases hk : k = .token new.token
    · subst hk
      refine .opened (fun _ _ => Locks.free_of_own hlock) hnone ?_
      exact (Db.stamp_addToken hp.fresh_close _).trans ((if_pos rfl).trans (congrArg some hopen))
    · exact (hp.stamped_close now k).congr ((Db.stamp_addToken hp.fresh_close k).trans (if_neg hk))
  | _ => exact .same rfl

/-- A row is closed. -/
def Db.Closed (db : Db W) (k : Key) : Prop := ∃ t, db.stamp k = some (some t)

omit [DecidableEq W] in
theorem Db.not_closed_of_open (h : db.stamp k = some none) : ¬ db.Closed k := by
  rintro ⟨t, ht⟩
  exact absurd (h.symm.trans ht) nofun

theorem Acts.closed (h : Acts i db call p db' p') (hp : Holds i db p) (hk : db.Closed k) :
    db'.Closed k := by
  obtain ⟨t, ht⟩ := hk
  cases h.stamped hp k with
  | same hsame => exact ⟨t, hsame.trans ht⟩
  | closed _ hclosed => exact hclosed
  | opened _ hnone => exact absurd (ht.symm.trans hnone) nofun

omit [DecidableEq W] in
theorem Db.closed_close (hk : k ∈ keys) (hopen : db.stamp k = some none) :
    (db.close now keys).Closed k := by
  refine ⟨now, ?_⟩
  rw [Db.stamp_close, if_pos hk, hopen, Option.map_some]

theorem Acts.closed_of_commit (h : Acts i db .commit p db' p') (hp : Holds i db p)
    (hk : k ∈ p.writes) : db'.Closed k := by
  obtain ⟨-, hopen⟩ := hp.writes k hk
  cases h with
  | commitCode | commitSweep => exact Db.closed_close hk hopen
  | commitRotation current new now =>
    have hclosed : (db.close now [.token current]).Closed k := Db.closed_close hk hopen
    obtain ⟨t, ht⟩ := hclosed
    refine ⟨t, (Db.stamp_addToken hp.fresh_close k).trans ((if_neg ?_).trans ht)⟩
    rintro rfl
    exact absurd (hopen.symm.trans (hp.new current new now rfl).2.1) nofun

theorem Acts.locks_of_held (h : Acts i db call p db' p') (hk : db.locks k = some j) (hj : j ≠ i) :
    db'.locks k = some j := by
  cases h with
  | lockCode ar seen now hfree => exact Locks.take_of_held hfree hk hj
  | lockToken request seen now hfree => exact Locks.take_of_held hfree hk hj
  | insert token request current now hfree => exact Locks.take_of_held hfree hk hj
  | touch k sweep targets writes now _ hfree => exact Locks.take_of_held hfree hk hj
  | commitCode | commitRotation | commitSweep | fail => exact Locks.release_of_held hk hj
  | _ => exact hk

/-- What a request holds is not changed by the others. -/
theorem Acts.holds_other {q : Phase} (h : Acts i db call p db' p') (hp : Holds i db p)
    (hj : j ≠ i) (hq : Holds j db q) : Holds j db' q where
  writes k hk := by
    obtain ⟨hlock, hopen⟩ := hq.writes k hk
    refine ⟨h.locks_of_held hlock hj, ?_⟩
    cases h.stamped hp k with
    | same hsame => exact hsame.trans hopen
    | closed hfree => exact absurd hfree (Locks.not_free_of_held hlock hj)
    | opened _ hnone => exact absurd (hopen.symm.trans hnone) nofun
  new current new now heq := by
    obtain ⟨hlock, hnone, hnew⟩ := hq.new current new now heq
    refine ⟨h.locks_of_held hlock hj, ?_, hnew⟩
    cases h.stamped hp (.token new.token) with
    | same hsame => exact hsame.trans hnone
    | closed hfree => exact absurd hfree (Locks.not_free_of_held hlock hj)
    | opened hfree => exact absurd (hfree _ rfl) (Locks.not_free_of_held hlock hj)
  seen := hq.seen

omit [DecidableEq W] in
theorem Db.stamp_of_stillMatches (h : db.stillMatches now sweep k = true) :
    db.stamp k = some none := by
  cases k with
  | token token => exact of_decide_eq_true h
  | code code =>
    cases hget : db.codes.get? code with
    | none => simp [Db.stillMatches, hget] at h
    | some c =>
      simp only [Db.stillMatches, hget, Option.any_some, Bool.and_eq_true,
        Option.isNone_iff_eq_none] at h
      rw [Db.stamp, hget, Option.map_some, h.1]
  | request id =>
    cases hget : db.requests.get? id with
    | none => simp [Db.stillMatches, hget] at h
    | some ar =>
      simp only [Db.stillMatches, hget, Option.any_some, Bool.and_eq_true,
        Option.isNone_iff_eq_none] at h
      rw [Db.stamp, hget, Option.map_some, h.1.2]

omit [DecidableEq W] in
theorem Holds.of_writes_eq_nil (hw : p.writes = []) (hseen : ∀ r t now, p ≠ .rotating r t now) :
    Holds i db p where
  writes k hk := by
    rw [hw] at hk
    cases hk
  new current new now heq := by
    rw [heq] at hw
    cases hw
  seen request seen now heq := absurd heq (hseen request seen now)

omit [DecidableEq W] in
theorem Holds.sweeping {targets writes : List Key}
    (hw : ∀ k ∈ writes, db.locks k = some i ∧ db.stamp k = some none) :
    Holds i db (.sweeping sweep targets writes now) where
  writes := hw
  new := nofun
  seen := nofun

theorem Acts.holds_self (h : Acts i db call p db' p') (hp : Holds i db p) : Holds i db' p' := by
  cases h with
  | tick => exact ⟨hp.writes, hp.new, hp.seen⟩
  | beginRotate request current seen hget hopen =>
    refine ⟨nofun, nofun, fun _ _ _ heq => ?_⟩
    cases heq
    exact hopen
  | lockCode ar seen now hfree hget hopen =>
    refine ⟨fun k hk => ?_, nofun, nofun⟩
    cases List.mem_singleton.1 hk
    refine ⟨Locks.take_self, ?_⟩
    change (db.codes.get? seen.code).map (·.consumedAt) = some none
    rw [hget, Option.map_some, hopen]
  | lockToken request seen now hfree hget =>
    refine ⟨fun k hk => ?_, nofun, nofun⟩
    cases List.mem_singleton.1 hk
    refine ⟨Locks.take_self, ?_⟩
    change (db.tokens.get? seen.token).map (·.revokedAt) = some none
    rw [hget, Option.map_some, hp.seen request seen now rfl]
  | insert token request current now hfree hfresh =>
    refine ⟨fun k hk => ?_, fun _ _ _ heq => ?_, nofun⟩
    · obtain ⟨hlock, hopen⟩ := hp.writes k hk
      exact ⟨Locks.take_of_own hlock, hopen⟩
    · cases heq
      exact ⟨Locks.take_self, hfresh, rfl, rfl⟩
  | touch k sweep targets writes now hk hfree hmatch =>
    refine .sweeping fun k' hk' => ?_
    rcases List.mem_cons.1 hk' with rfl | hk'
    · exact ⟨Locks.take_self, Db.stamp_of_stillMatches hmatch⟩
    · obtain ⟨hlock, hopen⟩ := hp.writes k' hk'
      exact ⟨Locks.take_of_own hlock, hopen⟩
  | pass => exact .sweeping hp.writes
  | advance => exact .sweeping hp.writes
  | _ => exact .of_writes_eq_nil rfl nofun

end Stamped

/-! ## Runs -/

section Runs

/-- No rows, and no requests. -/
def start : World W (Db W) Phase := ⟨{}, fun _ => .idle⟩

theorem holds_after (calls : ℕ → W × Call) (n : ℕ) :
    (World.after act calls start n).Sound (fun _ => True) Holds := by
  refine World.sound_after ⟨trivial, fun i => .of_writes_eq_nil rfl nofun⟩ (fun n hn => ?_) n
  refine hn.step fun db' p' hact => ?_
  have h := acts hact
  exact ⟨trivial, h.holds_self (hn.2 _), fun j hj => h.holds_other (hn.2 _) hj (hn.2 j)⟩

/-- A call of a run changes nothing, or it acts, and leaves the other requests as they are. -/
theorem after_cases (calls : ℕ → W × Call) (n : ℕ) :
    World.after act calls start (n + 1) = World.after act calls start n ∨
      Acts (calls n).1 (World.after act calls start n).shared (calls n).2
          ((World.after act calls start n).own (calls n).1)
          (World.after act calls start (n + 1)).shared
          ((World.after act calls start (n + 1)).own (calls n).1) ∧
        ∀ j, j ≠ (calls n).1 → (World.after act calls start (n + 1)).own j
          = (World.after act calls start n).own j := by
  rw [World.after_succ]
  rcases World.step_cases act (World.after act calls start n) (calls n) with
    heq | ⟨db', p', hact, heq⟩
  · exact .inl heq
  · refine .inr ⟨?_, fun j hj => ?_⟩ <;> rw [heq]
    · dsimp only
      rw [Function.update_self]
      exact acts hact
    · exact Function.update_of_ne hj _ _

end Runs

namespace Sample

/-- The run of a list of calls. -/
def run (i : W) (l : List (W × Call)) : ℕ → W × Call := fun n => l.getD n (i, .tick 0)

/-- A login, and the exchange of its code. -/
def exchange (i : W) : List (W × Call) :=
  [(i, .createAuthRequest "request" "console" none), (i, .bindCollaborator "request" "ada"),
   (i, .saveAuthCode "request"), (i, .insertCode "code"),
   (i, .authRequestByCode "code"), (i, .next), (i, .lock), (i, .commit),
   (i, .createTokens (some "t0"))]

/-- The rotation of a token, up to its commit. -/
def rotation (i : W) (current new : String) : List (W × Call) :=
  [(i, .tokenRequestByRefreshToken current), (i, .next), (i, .lock), (i, .insert new)]

end Sample

end Yggdrasil.Sessions
