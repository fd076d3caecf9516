import Mathlib.Algebra.Ring.Int.Defs
import Yggdrasil.Lib.Paths
import Yggdrasil.Lib.Locks
import Yggdrasil.Lib.Table

/-!
# Authorization requests, codes and refresh tokens

A code is saved for an authorization request that is bound to a collaborator, and exchanged for a
refresh token, which is rotated. Codes, requests and tokens are closed and never opened again.
-/

namespace Yggdrasil.Sessions

/-- Ten minutes. -/
def authorizationCodeLifetime : ℤ := 10 * 60 * 10 ^ 9

/-- Thirty days. -/
def refreshTokenLifetime : ℤ := 30 * 24 * 60 * 60 * 10 ^ 9

/-- An authorization request; its `login` is a number that no statement reads. -/
structure AuthRequest where
  id : String
  clientID : String
  collaboratorID : Option String
  expiresAt : ℤ
  consumedAt : Option ℤ := none
  login : ℕ
  deriving DecidableEq

/-- An authorization code of a request. -/
structure AuthCode where
  code : String
  authRequestID : String
  expiresAt : ℤ
  consumedAt : Option ℤ := none
  deriving DecidableEq

/-- A refresh token, by its hash, with the number of the login that it descends from. -/
structure RefreshToken where
  token : String
  collaboratorID : String
  clientID : String
  expiresAt : ℤ
  rotatedFrom : Option String := none
  revokedAt : Option ℤ := none
  createdAt : ℤ
  login : ℕ
  deriving DecidableEq

/-- The rows that statements lock. -/
inductive Key
  | request (id : String)
  | code (code : String)
  | token (token : String)
  deriving DecidableEq

/-- The committed rows, the locks, the clock, and how many logins there have been. -/
structure Db (W : Type) where
  requests : Table AuthRequest.id := .empty
  codes : Table AuthCode.code := .empty
  tokens : Table RefreshToken.token := .empty
  locks : Locks W Key := fun _ => none
  clock : ℤ := 0
  logins : ℕ := 0

namespace Db

variable {W : Type} {db : Db W} {k : Key} {keys : List Key} {now : ℤ}

/-- When a row was closed, if there is one. -/
def stamp (db : Db W) : Key → Option (Option ℤ)
  | .request id => (db.requests.get? id).map (·.consumedAt)
  | .code code => (db.codes.get? code).map (·.consumedAt)
  | .token token => (db.tokens.get? token).map (·.revokedAt)

theorem stamp_token {t : RefreshToken} (ht : t ∈ db.tokens) :
    db.stamp (.token t.token) = some t.revokedAt := by
  rw [stamp, Table.get?_eq_some.2 ⟨ht, rfl⟩, Option.map_some]

theorem exists_token_of_stamp {token : String} {closed : Option ℤ}
    (h : db.stamp (.token token) = some closed) :
    ∃ t ∈ db.tokens, t.token = token ∧ t.revokedAt = closed := by
  obtain ⟨t, ht, rfl⟩ := Option.map_eq_some_iff.1 h
  obtain ⟨hmem, htoken⟩ := Table.get?_eq_some.1 ht
  exact ⟨t, hmem, htoken, rfl⟩

/-! ## Updates -/

end Db

/-- A request among the keys is consumed. -/
def AuthRequest.close (now : ℤ) (keys : List Key) (r : AuthRequest) : AuthRequest :=
  if .request r.id ∈ keys then { r with consumedAt := some now } else r

/-- A code among the keys is consumed. -/
def AuthCode.close (now : ℤ) (keys : List Key) (r : AuthCode) : AuthCode :=
  if .code r.code ∈ keys then { r with consumedAt := some now } else r

/-- A token among the keys is revoked. -/
def RefreshToken.close (now : ℤ) (keys : List Key) (r : RefreshToken) : RefreshToken :=
  if .token r.token ∈ keys then { r with revokedAt := some now } else r

section Close

variable (now : ℤ) (keys : List Key)

@[simp]
theorem AuthRequest.close_id (r : AuthRequest) : (r.close now keys).id = r.id := by
  rw [close, apply_ite AuthRequest.id, ite_self]

@[simp]
theorem AuthCode.close_code (r : AuthCode) : (r.close now keys).code = r.code := by
  rw [close, apply_ite AuthCode.code, ite_self]

@[simp]
theorem RefreshToken.close_token (r : RefreshToken) : (r.close now keys).token = r.token := by
  rw [close, apply_ite RefreshToken.token, ite_self]

end Close

namespace Db

variable {W : Type} {db : Db W} {k : Key} {keys : List Key} {now : ℤ}

/-- An update of rows that closes them. -/
def close (now : ℤ) (keys : List Key) (db : Db W) : Db W :=
  { db with
    requests := db.requests.map (·.close now keys) (AuthRequest.close_id now keys)
    codes := db.codes.map (·.close now keys) (AuthCode.close_code now keys)
    tokens := db.tokens.map (·.close now keys) (RefreshToken.close_token now keys) }

theorem stamp_close (now : ℤ) (keys : List Key) (k : Key) :
    (db.close now keys).stamp k
      = if k ∈ keys then (db.stamp k).map fun _ => some now else db.stamp k := by
  cases k with
  | request id =>
    simp only [stamp, close, Table.get?_map, Option.map_map]
    cases hget : db.requests.get? id with
    | none => simp
    | some r =>
      obtain ⟨-, rfl⟩ := Table.get?_eq_some.1 hget
      by_cases hk : Key.request r.id ∈ keys <;> simp [AuthRequest.close, hk]
  | code code =>
    simp only [stamp, close, Table.get?_map, Option.map_map]
    cases hget : db.codes.get? code with
    | none => simp
    | some r =>
      obtain ⟨-, rfl⟩ := Table.get?_eq_some.1 hget
      by_cases hk : Key.code r.code ∈ keys <;> simp [AuthCode.close, hk]
  | token token =>
    simp only [stamp, close, Table.get?_map, Option.map_map]
    cases hget : db.tokens.get? token with
    | none => simp
    | some r =>
      obtain ⟨-, rfl⟩ := Table.get?_eq_some.1 hget
      by_cases hk : Key.token r.token ∈ keys <;> simp [RefreshToken.close, hk]

/-! ## Insertions -/

/-- The table with a new token. -/
def addToken (t : RefreshToken) (db : Db W) : Db W :=
  { db with tokens := (db.tokens.insert? t).getD db.tokens }

theorem stamp_insertRequest {r : AuthRequest} {requests : Table AuthRequest.id} {logins : ℕ}
    (h : db.requests.insert? r = some requests) (k : Key) :
    ({ db with requests := requests, logins := logins } : Db W).stamp k
      = if k = .request r.id then some r.consumedAt else db.stamp k := by
  cases k with
  | code | token => rfl
  | request id =>
    simp only [stamp, Table.get?_of_insert? h, Key.request.injEq, eq_comm (a := id)]
    split <;> rfl

theorem stamp_insertCode {r : AuthCode} {codes : Table AuthCode.code}
    (h : db.codes.insert? r = some codes) (k : Key) :
    ({ db with codes := codes } : Db W).stamp k
      = if k = .code r.code then some r.consumedAt else db.stamp k := by
  cases k with
  | request | token => rfl
  | code code =>
    simp only [stamp, Table.get?_of_insert? h, Key.code.injEq, eq_comm (a := code)]
    split <;> rfl

section AddToken

variable {t r : RefreshToken} (hfresh : db.stamp (.token t.token) = none)
include hfresh

theorem insert?_of_stamp : ∃ tokens, db.tokens.insert? t = some tokens := by
  cases hinsert : db.tokens.insert? t with
  | some tokens => exact ⟨tokens, rfl⟩
  | none =>
    obtain ⟨old, hold, hkey⟩ := Table.insert?_eq_none.1 hinsert
    rw [← hkey, stamp_token hold] at hfresh
    cases hfresh

theorem mem_addToken : r ∈ (db.addToken t).tokens ↔ r = t ∨ r ∈ db.tokens := by
  obtain ⟨tokens, htokens⟩ := insert?_of_stamp hfresh
  rw [addToken, htokens]
  exact Table.mem_of_insert? htokens

theorem stamp_addToken (k : Key) :
    (db.addToken t).stamp k = if k = .token t.token then some t.revokedAt else db.stamp k := by
  cases k with
  | request | code => rfl
  | token token =>
    obtain ⟨tokens, htokens⟩ := insert?_of_stamp hfresh
    simp only [stamp, addToken, htokens, Option.getD_some, Table.get?_of_insert? htokens,
      Key.token.injEq, eq_comm (a := token)]
    split <;> rfl

end AddToken

end Db

end Yggdrasil.Sessions
