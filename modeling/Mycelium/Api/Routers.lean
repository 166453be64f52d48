import Mycelium.Api.Deps
import Mycelium.Logic.Ranking

/-!
# The routes (`api/routers`)

Each route is a function from the stores to the stores and the response. What
the servers choose for it (ids, times, a uuid, the order of rows with equal
`period_end`) and the external call of it that raises, if one does, are in
`Choice`; a route returns `none` where the choice is not one the servers can
make. A request takes effect as a whole. What the database driver refuses before
it sends a query is not told apart: an id outside int4 finds no row here, and text
with a NUL in it is text like any other.
-/

namespace Mycelium

/-- The external call of a route that raises without having taken effect: a `commit` whose reply is
lost after the server has committed is not one. `readBack` is the `get_object` of
`_detail_response`. -/
inductive ApiFault where
  | xadd
  | xlen
  | sendTask
  | commit
  | refresh
  | getObject
  | putObject
  | readBack
deriving DecidableEq, Repr

structure Choice where
  now : Int
  id : Nat
  profileId : Nat
  createdAt : Int
  salt : Nat
  uuid : Nat
  entryId : StreamId
  newNode : Bool
  /-- the row of `ORDER BY period_end DESC LIMIT 1` -/
  latest : Option MemoryBackup
  /-- the rows of `ORDER BY period_end DESC` -/
  ranked : List MemoryBackup
  /-- what the forced rollup returned, `none` when it did not in time -/
  report : Option RollupReport
  fault : Option ApiFault
deriving DecidableEq

/-- The stores after a request, and the response. -/
abbrev Outcome (ι β : Type) := Option (Store β × Response ι)

variable {ι β : Type} (A : Api ι β) (F : Format ι β) (s : Store β)

/-- The route after its dependency: an error of the dependency is the response. -/
def depends {α : Type} (dependency : Except HttpError α) (route : α → Outcome ι β) : Outcome ι β :=
  match dependency with
  | .error e => some (s, .error e)
  | .ok a => route a

/-- The request's parameters and body are validated once its dependencies have returned. -/
def validated (valid : Bool) (route : Outcome ι β) : Outcome ι β :=
  if valid then route else some (s, .unprocessable)

def lengthWithin (least most : Nat) (text : String) : Bool :=
  least ≤ text.length ∧ text.length ≤ most

/-! ## `auth.py` -/

def invalidCredentials : HttpError := ⟨401, "Incorrect email or password"⟩

def register (email password designation : String) (c : Choice) : Outcome ι β :=
  match A.validateEmail email with
  | none => some (s, .unprocessable)
  | some email =>
    validated s (lengthWithin 8 128 password && lengthWithin 3 64 designation) <|
      let user : User := ⟨c.id, A.lower email, A.hashPassword password c.salt, .clone, true,
        c.createdAt⟩
      let profile : CloneProfile := ⟨c.profileId, designation, activeStatus, .free, some c.id,
        c.createdAt⟩
      if c.fault = some .commit then some (s, .internalServerError)
      else if (s.users.rows.any fun u => u.email = user.email) ||
          (s.profiles.rows.any fun p => p.designation = designation) then
        some (s, .error ⟨409, "Email or designation already registered"⟩)
      else
        match s.users.insert user, s.profiles.insert profile with
        | some users, some profiles =>
          let s' := { s with users := users, profiles := profiles }
          if c.fault = some .refresh then some (s', .internalServerError)
          else some (s', .ok 201 (.user (.of user)))
        | _, _ => none

def login (email password : String) (c : Choice) : Outcome ι β :=
  match A.validateEmail email with
  | none => some (s, .unprocessable)
  | some email =>
    match s.users.rows.find? fun u => u.email = A.lower email with
    | none => some (s, .error invalidCredentials)
    | some user =>
      if A.verifyPassword password user.passwordHash = false then
        some (s, .error invalidCredentials)
      else if user.isActive = false then some (s, .error ⟨403, "Account is deactivated"⟩)
      else some (s, .ok 200 (.token (A.createAccessToken user.id user.role c.now) "bearer"))

def readCurrentUser (credentials : Option String) : Outcome ι β :=
  depends s (getCurrentUser A s credentials) fun user => some (s, .ok 200 (.user (.of user)))

/-! ## `home.py` -/

def cloneHome (credentials : Option String) : Outcome ι β :=
  depends s (currentClone A s credentials) fun user =>
    some (s, .ok 200 (.home "Clone console. Your memory stream is recording." user.role user.email))

def adminHome (credentials : Option String) : Outcome ι β :=
  depends s (currentAdmin A s credentials) fun user =>
    some (s, .ok 200 (.home "Operator console. Full clone registry access." user.role user.email))

/-! ## `profiles.py` -/

/-- `ProfileUpdateRequest`. -/
structure ProfileUpdate where
  designation : Option String
  status : Option String
deriving DecidableEq, Repr

def ProfileUpdate.valid (payload : ProfileUpdate) : Bool :=
  payload.designation.all (lengthWithin 3 64) && payload.status.all (lengthWithin 1 32)

/-- What `_apply_update` makes of the profile. -/
def ProfileUpdate.apply (payload : ProfileUpdate) (profile : CloneProfile) : CloneProfile :=
  { profile with
    designation := payload.designation.getD profile.designation
    status := payload.status.getD profile.status }

theorem ProfileUpdate.apply_id (payload : ProfileUpdate) (profile : CloneProfile) :
    (payload.apply profile).id = profile.id := rfl

/-- `_assert_can_access`. -/
def assertCanAccess (profile : CloneProfile) (user : User) : Except HttpError CloneProfile :=
  if user.role = .admin then .ok profile
  else if profile.userId = some user.id then .ok profile
  else .error ⟨403, "You do not own this profile"⟩

/-- `_load_accessible`. -/
def loadAccessible (profileId : Int) (user : User) : Except HttpError CloneProfile :=
  match s.profiles.lookup profileId with
  | none => .error ⟨404, "Not found"⟩
  | some profile => assertCanAccess profile user

/-- `_apply_update`; a designation another profile has fails the commit. -/
def applyUpdate (profile : CloneProfile) (payload : ProfileUpdate) (c : Choice) : Outcome ι β :=
  let updated := payload.apply profile
  if c.fault = some .commit then some (s, .internalServerError)
  else if s.profiles.rows.any fun p => p.id ≠ profile.id && p.designation = updated.designation then
    some (s, .error ⟨409, "Designation already taken"⟩)
  else
    let s' := { s with profiles := s.profiles.modify profile.id payload.apply payload.apply_id }
    if c.fault = some .refresh then some (s', .internalServerError)
    else some (s', .ok 200 (.profile updated))

def readOwnProfile (credentials : Option String) : Outcome ι β :=
  depends s (getOwnProfile A s credentials) fun profile => some (s, .ok 200 (.profile profile))

def updateOwnProfile (credentials : Option String) (payload : ProfileUpdate) (c : Choice) :
    Outcome ι β :=
  depends s (getOwnProfile A s credentials) fun profile =>
    validated s payload.valid <| applyUpdate s profile payload c

/-- `ORDER BY id`. -/
def orderById {α : Type} (key : α → Nat) (rows : List α) : List α :=
  rows.mergeSort fun x y => key x ≤ key y

def listProfiles (credentials : Option String) : Outcome ι β :=
  depends s (getCurrentUser A s credentials) fun user =>
    let rows := s.profiles.rows.filter fun p => user.role = .admin || p.userId = some user.id
    some (s, .ok 200 (.profiles (orderById CloneProfile.id rows)))

def readProfile (credentials : Option String) (profileId : Int) : Outcome ι β :=
  depends s (getCurrentUser A s credentials) fun user =>
    depends s (loadAccessible s profileId user) fun profile => some (s, .ok 200 (.profile profile))

def updateProfile (credentials : Option String) (profileId : Int) (payload : ProfileUpdate)
    (c : Choice) : Outcome ι β :=
  depends s (getCurrentUser A s credentials) fun user =>
    validated s payload.valid <|
      depends s (loadAccessible s profileId user) fun profile => applyUpdate s profile payload c

/-! ## `memories.py` -/

/-- `MemoryWriteRequest`. -/
structure MemoryWrite where
  content : String
  capturedAt : Option Datetime
deriving DecidableEq, Repr

def Api.validWrite (payload : MemoryWrite) : Bool :=
  lengthWithin 1 8192 payload.content && A.strip payload.content ≠ "" &&
    payload.capturedAt.all fun d => d.utcoffset.isSome

def writeMemory (credentials : Option String) (payload : MemoryWrite) (c : Choice) :
    Outcome ι β :=
  depends s (getOwnProfile A s credentials) fun profile =>
    validated s (A.validWrite payload) <|
      let capturedAt := payload.capturedAt.getD (.utc c.now)
      let stream := s.streams profile.id
      if c.fault = some .xadd then some (s, .internalServerError)
      else if stream.lastId < c.entryId then
        let entry : StreamEntry := ⟨c.entryId, A.strip payload.content, A.isoformat capturedAt⟩
        let stream := stream.xadd A.nodeEntries c.newNode entry
        let written := { s with streams := Function.update s.streams profile.id stream }
        if c.fault = some .xlen then some (written, .internalServerError)
        else if A.memoryStreamMaxlen ≤ stream.length then
          if c.fault = some .sendTask then some (written, .internalServerError)
          else some ({ written with tasks := s.tasks ++ [.flushCloneStream profile.id] },
            .ok 202 (.recorded "recorded"))
        else some (written, .ok 202 (.recorded "recorded"))
      else none

def streamStatus (credentials : Option String) : Outcome ι β :=
  depends s (getOwnProfile A s credentials) fun profile =>
    some (s, .ok 200 (.streamStatus (s.streams profile.id).length))

/-- `ORDER BY period_end DESC LIMIT limit` over the clone's rows. -/
def latestBackups (cloneId : Nat) (limit : Int) (c : Choice) : Outcome ι β :=
  if Ranking.Ranks MemoryBackup.periodEnd (s.backupsOf cloneId) c.ranked then
    some (s, .ok 200 (.backups ((c.ranked.take limit.toNat).map BackupResponse.of)))
  else none

def limitWithin (most limit : Int) : Bool := 1 ≤ limit ∧ limit ≤ most

def listOwnBackups (credentials : Option String) (limit : Int) (c : Choice) : Outcome ι β :=
  depends s (getOwnProfile A s credentials) fun profile =>
    validated s (limitWithin 200 limit) <| latestBackups s profile.id limit c

/-- `_detail_response`. -/
def detailResponse (status : Nat) (backup : MemoryBackup) (c : Choice) : Response ι :=
  if c.fault = some .readBack then .internalServerError
  else
    match (s.objects backup.storageKey).bind F.decodePayload with
    | none => .internalServerError
    | some payload => .ok status (.backup (.of backup) payload)

def readOwnBackup (credentials : Option String) (backupId : Int) (c : Choice) : Outcome ι β :=
  depends s (getOwnBackup A s credentials backupId) fun backup =>
    some (s, detailResponse A.toFormat s 200 backup c)

def MemoryBackup.restored (backup : MemoryBackup) (now : Int) : MemoryBackup :=
  { backup with restoredAt := some now }

theorem MemoryBackup.restored_id (now : Int) (backup : MemoryBackup) :
    (backup.restored now).id = backup.id := rfl

def restoreOwnBackup (credentials : Option String) (backupId : Int) (c : Choice) : Outcome ι β :=
  depends s (getOwnBackup A s credentials backupId) fun backup =>
    if c.fault = some .commit then some (s, .internalServerError)
    else
      let s' := { s with
        backups := s.backups.modify backup.id (MemoryBackup.restored · c.now)
          (MemoryBackup.restored_id c.now) }
      if c.fault = some .refresh then some (s', .internalServerError)
      else some (s', detailResponse A.toFormat s' 200 (backup.restored c.now) c)

/-- `latest` is a row that `ORDER BY period_end DESC LIMIT 1` may return. -/
def LatestOf (rows : List MemoryBackup) : Option MemoryBackup → Prop
  | none => rows = []
  | some latest => latest ∈ rows ∧ ∀ b ∈ rows, b.periodEnd ≤ latest.periodEnd

instance (rows : List MemoryBackup) : ∀ latest, Decidable (LatestOf rows latest)
  | none => inferInstanceAs (Decidable (rows = []))
  | some latest =>
    inferInstanceAs (Decidable (latest ∈ rows ∧ ∀ b ∈ rows, b.periodEnd ≤ latest.periodEnd))

/-- `resurrect_from`, for the caller's profile. -/
def resurrectFrom (profile : CloneProfile) (sourceProfileId : Int) (c : Choice) : Outcome ι β :=
  if sourceProfileId = profile.id then
    some (s, .error ⟨400, "Cannot resurrect from your own profile"⟩)
  else
    match s.profiles.lookup sourceProfileId with
    | none => some (s, .error ⟨404, "Source clone not found"⟩)
    | some source =>
      if source.status = activeStatus then
        some (s, .error ⟨409, "Cannot resurrect from a clone that is still active"⟩)
      else if LatestOf (s.backupsOf source.id) c.latest then
        match c.latest with
        | none => some (s, .error ⟨404, "Source clone has no backup to resurrect from"⟩)
        | some latest =>
          if c.fault = some .getObject then some (s, .internalServerError)
          else
            match s.objects latest.storageKey with
            | none => some (s, .internalServerError)
            | some raw =>
              let newKey := backupKey profile.id (.utc latest.periodStart) (.utc latest.periodEnd)
                c.uuid
              if c.fault = some .putObject then some (s, .internalServerError)
              else if s.Fresh newKey then
                let copied := s.putObject newKey raw
                if c.fault = some .commit then some (copied, .internalServerError)
                else
                  let resurrected : MemoryBackup := ⟨c.id, profile.id, latest.periodStart,
                    latest.periodEnd, latest.entryCount, newKey, profile.subscriptionTier,
                    c.createdAt, some c.now⟩
                  match s.backups.insert resurrected with
                  | none => none
                  | some backups =>
                    let s' := { copied with backups := backups }
                    if c.fault = some .refresh then some (s', .internalServerError)
                    else some (s', detailResponse F s' 201 resurrected c)
              else none
      else none

/-- The route of `resurrect_from`. -/
def resurrect (credentials : Option String) (sourceProfileId : Int) (c : Choice) : Outcome ι β :=
  depends s (getOwnProfile A s credentials) fun profile =>
    resurrectFrom A.toFormat s profile sourceProfileId c

/-! ## `admin.py` -/

def listUsers (credentials : Option String) (limit : Int) : Outcome ι β :=
  depends s (currentAdmin A s credentials) fun _ =>
    validated s (limitWithin 500 limit) <|
      some (s, .ok 200 (.users (((orderById User.id s.users.rows).take limit.toNat).map .of)))

def listClones (credentials : Option String) (limit : Int) : Outcome ι β :=
  depends s (currentAdmin A s credentials) fun _ =>
    validated s (limitWithin 500 limit) <|
      some (s, .ok 200 (.profiles ((orderById CloneProfile.id s.profiles.rows).take limit.toNat)))

def CloneProfile.subscribed (profile : CloneProfile) (tier : SubscriptionTier) : CloneProfile :=
  { profile with subscriptionTier := tier }

theorem CloneProfile.subscribed_id (tier : SubscriptionTier) (profile : CloneProfile) :
    (profile.subscribed tier).id = profile.id := rfl

def updateSubscription (credentials : Option String) (profileId : Int) (tier : SubscriptionTier)
    (c : Choice) : Outcome ι β :=
  depends s (currentAdmin A s credentials) fun _ =>
    match s.profiles.lookup profileId with
    | none => some (s, .error ⟨404, "Not found"⟩)
    | some profile =>
      if c.fault = some .commit then some (s, .internalServerError)
      else
        let s' := { s with
          profiles := s.profiles.modify profile.id (CloneProfile.subscribed · tier)
            (CloneProfile.subscribed_id tier) }
        if c.fault = some .refresh then some (s', .internalServerError)
        else some (s', .ok 200 (.profile (profile.subscribed tier)))

def listCloneBackups (credentials : Option String) (profileId limit : Int) (c : Choice) :
    Outcome ι β :=
  depends s (currentAdmin A s credentials) fun _ =>
    validated s (limitWithin 200 limit) <|
      if profileId < 0 then some (s, .ok 200 (.backups []))
      else latestBackups s profileId.toNat limit c

def triggerRollup (credentials : Option String) (profileId : Int) (c : Choice) : Outcome ι β :=
  depends s (currentAdmin A s credentials) fun _ =>
    match s.profiles.lookup profileId with
    | none => some (s, .error ⟨404, "Not found"⟩)
    | some profile =>
      if c.fault = some .sendTask then some (s, .internalServerError)
      else
        let s' := { s with tasks := s.tasks ++ [.forceRollupClone profile.id] }
        match c.report with
        | none => some (s', .error ⟨504, "Rollup did not complete in time"⟩)
        | some report => some (s', .ok 200 (.rollup report))

def User.deactivated (user : User) : User := { user with isActive := false }

theorem User.deactivated_id (user : User) : user.deactivated.id = user.id := rfl

def deactivateUser (credentials : Option String) (userId : Int) (c : Choice) : Outcome ι β :=
  depends s (currentAdmin A s credentials) fun admin =>
    if userId = admin.id then some (s, .error ⟨400, "Cannot deactivate your own account"⟩)
    else
      match s.users.lookup userId with
      | none => some (s, .error ⟨404, "Not found"⟩)
      | some user =>
        if c.fault = some .commit then some (s, .internalServerError)
        else
          let s' := { s with users := s.users.modify user.id User.deactivated User.deactivated_id }
          if c.fault = some .refresh then some (s', .internalServerError)
          else some (s', .ok 200 (.user (.of user.deactivated)))

def registryStats (credentials : Option String) : Outcome ι β :=
  depends s (currentAdmin A s credentials) fun _ =>
    some (s, .ok 200 (.stats s.users.rows.length s.profiles.rows.length s.backups.rows.length))

/-! ## The application -/

/-- A route of the application with its path parameters, query and body. -/
inductive Route where
  | register (email password designation : String)
  | login (email password : String)
  | readCurrentUser
  | cloneHome
  | adminHome
  | readOwnProfile
  | updateOwnProfile (payload : ProfileUpdate)
  | listProfiles
  | readProfile (profileId : Int)
  | updateProfile (profileId : Int) (payload : ProfileUpdate)
  | writeMemory (payload : MemoryWrite)
  | streamStatus
  | listOwnBackups (limit : Int)
  | readOwnBackup (backupId : Int)
  | restoreOwnBackup (backupId : Int)
  | resurrect (sourceProfileId : Int)
  | listUsers (limit : Int)
  | listClones (limit : Int)
  | updateSubscription (profileId : Int) (tier : SubscriptionTier)
  | listCloneBackups (profileId limit : Int)
  | triggerRollup (profileId : Int)
  | deactivateUser (userId : Int)
  | registryStats
deriving DecidableEq

/-- A request: its bearer token if it has one, its route, and what the servers choose. -/
structure Request where
  credentials : Option String
  route : Route
  choice : Choice

/-- The application's answer to a request. -/
def handle (r : Request) : Outcome ι β :=
  let token := r.credentials
  let c := r.choice
  match r.route with
  | .register email password designation => register A s email password designation c
  | .login email password => login A s email password c
  | .readCurrentUser => readCurrentUser A s token
  | .cloneHome => cloneHome A s token
  | .adminHome => adminHome A s token
  | .readOwnProfile => readOwnProfile A s token
  | .updateOwnProfile payload => updateOwnProfile A s token payload c
  | .listProfiles => listProfiles A s token
  | .readProfile profileId => readProfile A s token profileId
  | .updateProfile profileId payload => updateProfile A s token profileId payload c
  | .writeMemory payload => writeMemory A s token payload c
  | .streamStatus => streamStatus A s token
  | .listOwnBackups limit => listOwnBackups A s token limit c
  | .readOwnBackup backupId => readOwnBackup A s token backupId c
  | .restoreOwnBackup backupId => restoreOwnBackup A s token backupId c
  | .resurrect sourceProfileId => resurrect A s token sourceProfileId c
  | .listUsers limit => listUsers A s token limit
  | .listClones limit => listClones A s token limit
  | .updateSubscription profileId tier => updateSubscription A s token profileId tier c
  | .listCloneBackups profileId limit => listCloneBackups A s token profileId limit c
  | .triggerRollup profileId => triggerRollup A s token profileId c
  | .deactivateUser userId => deactivateUser A s token userId c
  | .registryStats => registryStats A s token

/-- The stores after a request. -/
def serve (r : Request) : Option (Store β) := (handle A s r).map Prod.fst

/-- An API for examples, with one valid token. -/
def Api.sample : Api MemoryItem (List MemoryItem) where
  toFormat := .items (.plain MemoryItem) Datetime.newYear
  nodeEntries := 100
  memoryStreamMaxlen := 10000
  decodeAccessToken token := if token = "token" then some ⟨some (.string "2")⟩ else none
  createAccessToken _ _ _ := "token"
  int text := if text = "2" then some 2 else none
  validateEmail := some
  hashPassword password _ := password
  verifyPassword password hash := password = hash
  lower := id
  strip := id
  isoformat _ := "2026-01-01T00:00:00+00:00"

/-- Two clones, each with a profile. -/
def twoClones : Store (List MemoryItem) :=
  { Store.empty with
    users := ⟨[⟨1, "a@x.org", "a", .clone, true, 0⟩, ⟨2, "b@x.org", "b", .clone, true, 0⟩],
      by decide⟩
    profiles := ⟨[⟨1, "alpha", activeStatus, .free, some 1, 0⟩,
      ⟨2, "beta", activeStatus, .free, some 2, 0⟩], by decide⟩ }

/-- A request at `now` that a server answers without failing, with `entryId` for an XADD. -/
def choiceAt (now : Int) (entryId : StreamId) : Choice :=
  ⟨now, 0, 0, 0, 0, 0, entryId, false, none, [], none, none⟩

end Mycelium
