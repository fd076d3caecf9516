import Yggdrasil.Lib.Go

/-!
# The strength of passwords

A password must be long enough, must not be a common one and must not contain what its owner is
known by, of which only the parts that are long enough are looked for.
-/

namespace Yggdrasil.Auth.Password

open Text

variable (cm : CaseMap)

/-- Why a password is refused. -/
inductive Refusal
  | tooShort
  | containsIdentity
  | tooCommon
  deriving DecidableEq

/-- The parts of a token, in lower case. -/
def splitIdentityToken (t : String) : List String :=
  ['@', '.', '-', '_', ' '].foldl (fun parts sep => parts.flatMap (split · sep)) [toLower cm t]

/-- The parts of a token that are looked for. Those of an address may be shorter. -/
def searchedParts (token : String) : List String :=
  let t := toLower cm (trimSpace token)
  if t.utf8ByteSize < 3 then []
  else (splitIdentityToken cm t).filter fun part =>
    (if contains t "@" && !contains part "@" then 3 else 4) ≤ part.utf8ByteSize

/-- The password is long enough, not common and without parts of the identity. -/
def validateStrength (password : String) (minLength : ℤ)
    (commonPasswords userTokens : List String) : Except Refusal Unit :=
  let lowered := toLower cm password
  if password.utf8ByteSize < minLength then .error .tooShort
  else if userTokens.any fun token => (searchedParts cm token).any (contains lowered ·) then
    .error .containsIdentity
  else if commonPasswords.contains lowered then .error .tooCommon
  else .ok ()

/-- The trimmed tokens, and the local parts of addresses that are long enough. -/
inductive Identity (userTokens : List String) : String → Prop
  | token (token : String) (hmem : token ∈ userTokens)
      (hsize : 4 ≤ (trimSpace token).utf8ByteSize) : Identity userTokens (trimSpace token)
  | localPart (token x : String) (hmem : token ∈ userTokens)
      (haddress : contains (trimSpace token) "@" = true)
      (hx : x = .ofList ((trimSpace token).toList.takeWhile (· ≠ '@')))
      (hsize : 3 ≤ x.utf8ByteSize) : Identity userTokens x

variable {cm} {password : String} {userTokens : List String}

/-- An accepted password has none of the parts, -/
theorem validateStrength_eq_ok {minLength : ℤ} {commonPasswords : List String}
    (h : validateStrength cm password minLength commonPasswords userTokens = .ok ())
    {token part : String} (htoken : token ∈ userTokens) (hpart : part ∈ searchedParts cm token) :
    contains (toLower cm password) part = false := by
  simp only [validateStrength] at h
  split_ifs at h with _ hidentity
  rw [List.any_eq_true] at hidentity
  rw [Bool.eq_false_iff]
  exact fun hcontains => hidentity ⟨token, htoken, List.any_eq_true.2 ⟨part, hpart, hcontains⟩⟩

/-- and one with none of the parts is accepted when nothing else is demanded. -/
theorem validateStrength_of_forall
    (h : ∀ token ∈ userTokens, ∀ part ∈ searchedParts cm token,
      contains (toLower cm password) part = false) :
    validateStrength cm password 0 [] userTokens = .ok () := by
  have hidentity : ¬ (userTokens.any fun token =>
      (searchedParts cm token).any (contains (toLower cm password) ·)) = true := by
    simpa using h
  simp only [validateStrength]
  rw [if_neg (by omega), if_neg hidentity, if_neg (by simp)]

/-- Passwords with a token are refused exactly when each token has a part that is looked for. -/
theorem identity_excluded_iff (cm : CaseMap) (userTokens : List String) :
    (∀ password minLength commonPasswords,
      validateStrength cm password minLength commonPasswords userTokens = .ok () →
        ∀ x, Identity userTokens x → contains (toLower cm password) (toLower cm x) = false) ↔
    ∀ x, Identity userTokens x →
      ∃ token ∈ userTokens, ∃ part ∈ searchedParts cm token,
        contains (toLower cm x) part = true := by
  constructor
  · intro h x hx
    by_contra hnone
    -- what must not be contained is then accepted as a password
    have hok : validateStrength cm x 0 [] userTokens = .ok () := by
      refine validateStrength_of_forall fun token htoken part hpart => ?_
      exact Bool.eq_false_iff.2 fun hcontains => hnone ⟨token, htoken, part, hpart, hcontains⟩
    have hself := h x 0 [] hok x hx
    simp [contains] at hself
  · intro h password minLength commonPasswords hok x hx
    obtain ⟨token, htoken, part, hpart, hcontains⟩ := h x hx
    have hnone := validateStrength_eq_ok hok htoken hpart
    simp only [contains, decide_eq_true_eq, decide_eq_false_iff_not] at hnone hcontains ⊢
    exact fun hpassword => hnone (hcontains.trans hpassword)

/-- Whatever the tokens are, no password that contains one of them is accepted. -/
def IdentityExcluded : Prop :=
  ∀ (cm : CaseMap) (password : String) (minLength : ℤ) (commonPasswords userTokens : List String),
    validateStrength cm password minLength commonPasswords userTokens = .ok () →
      ∀ x, Identity userTokens x → contains (toLower cm password) (toLower cm x) = false

/-- The parts of `ann-lee-kay` are too short to be looked for. -/
theorem not_identityExcluded : ¬ IdentityExcluded := by
  intro h
  have htoken : Identity ["ann-lee-kay"] "ann-lee-kay" :=
    .token "ann-lee-kay" (List.mem_singleton_self _) (by decide +kernel)
  have hno := h ascii "my ann-lee-kay key" 12 [] _ (by decide +kernel) _ htoken
  revert hno
  decide +kernel

end Yggdrasil.Auth.Password
