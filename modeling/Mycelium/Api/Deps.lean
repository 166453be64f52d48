import Mycelium.Shared.Store

/-!
# Requests, responses and dependencies (`api/deps.py`, `api/schemas.py`)

What the routers share: the responses, and the dependencies that turn a bearer
token into the current user, his profile, or a backup of his. A dependency
raises before the request's body is validated and before the route runs.

The libraries the API calls (PyJWT, argon2, email-validator) and the text
functions of the standard library are parameters of `Api`; nothing is assumed of
them here.
-/

namespace Mycelium

/-- The `sub` claim of a token: a string, a number as `int` truncates it, or something `int`
refuses. -/
inductive Subject where
  | string (text : String)
  | number (value : Int)
  | other
deriving DecidableEq, Repr

/-- The claims of a token that decodes; `sub` may be missing. -/
structure Claims where
  sub : Option Subject
deriving DecidableEq, Repr

/-- The API process: its settings and the libraries it calls. -/
structure Api (ι β : Type) extends Format ι β where
  nodeEntries : Nat
  memoryStreamMaxlen : Nat
  /-- `decode_access_token`; `none` when the token is malformed, forged or expired -/
  decodeAccessToken : String → Option Claims
  /-- `create_access_token`, at a given time -/
  createAccessToken : Nat → UserRole → Int → String
  /-- `int` of a string; `none` is its ValueError -/
  int : String → Option Int
  /-- `EmailStr`'s normal form; `none` when it is not an address -/
  validateEmail : String → Option String
  /-- `hash_password`, with the salt drawn -/
  hashPassword : String → Nat → String
  verifyPassword : String → String → Bool
  lower : String → String
  strip : String → String
  isoformat : Datetime → String

/-- An HTTPException. -/
structure HttpError where
  status : Nat
  detail : String
deriving DecidableEq, Repr

def unauthorized : HttpError := ⟨401, "Not authenticated"⟩

structure UserResponse where
  id : Nat
  email : String
  role : UserRole
  isActive : Bool
  createdAt : Int
deriving DecidableEq, Repr

def UserResponse.of (user : User) : UserResponse :=
  ⟨user.id, user.email, user.role, user.isActive, user.createdAt⟩

structure BackupResponse where
  id : Nat
  cloneId : Nat
  periodStart : Int
  periodEnd : Int
  entryCount : Nat
  createdAt : Int
  restoredAt : Option Int
deriving DecidableEq, Repr

def BackupResponse.of (backup : MemoryBackup) : BackupResponse :=
  ⟨backup.id, backup.cloneId, backup.periodStart, backup.periodEnd, backup.entryCount,
    backup.createdAt, backup.restoredAt⟩

/-- The dict `force_rollup_clone` returns. -/
structure RollupReport where
  cloneId : Nat
  status : String
  entryCount : Nat
deriving DecidableEq, Repr

/-- The body of a successful response. `ProfileResponse` has all of the profile's fields. -/
inductive Body (ι : Type) where
  | user (user : UserResponse)
  | users (users : List UserResponse)
  | token (accessToken tokenType : String)
  | home (message : String) (role : UserRole) (email : String)
  | profile (profile : CloneProfile)
  | profiles (profiles : List CloneProfile)
  | recorded (status : String)
  | streamStatus (bufferedEntries : Nat)
  | backups (backups : List BackupResponse)
  | backup (backup : BackupResponse) (payload : List ι)
  | rollup (report : RollupReport)
  | stats (users clones backups : Nat)
deriving DecidableEq, Repr

inductive Response (ι : Type) where
  | ok (status : Nat) (body : Body ι)
  | error (e : HttpError)
  /-- 422: path, query or body do not validate -/
  | unprocessable
  /-- 500: an exception nobody caught -/
  | internalServerError
deriving DecidableEq, Repr

variable {ι β : Type} (A : Api ι β) (s : Store β)

/-- `int(subject)`. -/
def Api.subjectId : Subject → Option Int
  | .string text => A.int text
  | .number value => some value
  | .other => none

/-- `get_current_user`, given the bearer token if there is one. -/
def getCurrentUser (credentials : Option String) : Except HttpError User :=
  match credentials with
  | none => .error unauthorized
  | some token =>
    match A.decodeAccessToken token with
    | none => .error unauthorized
    | some claims =>
      match claims.sub with
      | none => .error unauthorized
      | some subject =>
        match A.subjectId subject with
        | none => .error unauthorized
        | some userId =>
          match s.users.lookup userId with
          | none => .error unauthorized
          | some user => if user.isActive then .ok user else .error unauthorized

/-- `require_role`. -/
def requireRole (role : UserRole) (user : User) : Except HttpError User :=
  if user.role = role then .ok user else .error ⟨403, "Insufficient privileges"⟩

/-- `CurrentAdmin`. -/
def currentAdmin (credentials : Option String) : Except HttpError User := do
  requireRole .admin (← getCurrentUser A s credentials)

/-- `CurrentClone`. -/
def currentClone (credentials : Option String) : Except HttpError User := do
  requireRole .clone (← getCurrentUser A s credentials)

/-- `user.profile`. -/
def profileOf (userId : Nat) : Option CloneProfile :=
  s.profiles.rows.find? fun p => p.userId = some userId

/-- `get_own_profile`. -/
def getOwnProfile (credentials : Option String) : Except HttpError CloneProfile := do
  let user ← currentClone A s credentials
  match profileOf s user.id with
  | none => .error ⟨404, "No clone profile linked to this account"⟩
  | some profile => .ok profile

/-- `get_own_backup`. -/
def getOwnBackup (credentials : Option String) (backupId : Int) : Except HttpError MemoryBackup := do
  let profile ← getOwnProfile A s credentials
  match s.backups.lookup backupId with
  | none => .error ⟨404, "Not found"⟩
  | some backup => if backup.cloneId = profile.id then .ok backup else .error ⟨404, "Not found"⟩

variable {A s} {credentials : Option String}

/-- A dependency that depends on another. -/
theorem bind_ok {α γ : Type} {dependency : Except HttpError α} {next : α → Except HttpError γ}
    {c : γ} (h : dependency >>= next = .ok c) : ∃ a, dependency = .ok a ∧ next a = .ok c := by
  cases dependency with
  | error e => cases h
  | ok a => exact ⟨a, rfl, h⟩

/-- A dependency that asks for a role succeeds for the current user only. -/
theorem requireRole_ok {role : UserRole} {user : User}
    (h : (getCurrentUser A s credentials >>= requireRole role) = .ok user) :
    getCurrentUser A s credentials = .ok user ∧ user.role = role := by
  obtain ⟨current, found, h⟩ := bind_ok h
  unfold requireRole at h
  split at h
  · rename_i same
    cases h
    exact ⟨found, same⟩
  · cases h

theorem profileOf_some {userId : Nat} {profile : CloneProfile}
    (h : profileOf s userId = some profile) : profile ∈ s.profiles ∧ profile.userId = some userId :=
  ⟨List.mem_of_find?_eq_some h, by simpa using List.find?_some h⟩

/-- The own profile is one linked to the current user, a clone. -/
theorem getOwnProfile_ok {profile : CloneProfile}
    (h : getOwnProfile A s credentials = .ok profile) :
    ∃ user, getCurrentUser A s credentials = .ok user ∧ user.role = .clone ∧
      profileOf s user.id = some profile := by
  obtain ⟨user, found, h⟩ := bind_ok h
  obtain ⟨current, role⟩ := requireRole_ok found
  refine ⟨user, current, role, ?_⟩
  split at h
  · cases h
  · rename_i own
    cases h
    exact own

/-- The own backup is a row of the own profile. -/
theorem getOwnBackup_ok {backupId : Int} {backup : MemoryBackup}
    (h : getOwnBackup A s credentials backupId = .ok backup) :
    ∃ profile, getOwnProfile A s credentials = .ok profile ∧ backup ∈ s.backups ∧
      (backup.id : Int) = backupId ∧ backup.cloneId = profile.id := by
  obtain ⟨profile, found, h⟩ := bind_ok h
  split at h
  · cases h
  · rename_i listed
    split at h
    · rename_i own
      cases h
      obtain ⟨member, same⟩ := Table.lookup_eq_some listed
      exact ⟨profile, found, member, same, own⟩
    · cases h

end Mycelium
