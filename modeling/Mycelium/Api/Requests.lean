import Mycelium.Api.Resurrection

/-!
# What a request can do

`RequestStep` says everything the application can do with a request, whatever its
route: what it writes, by whose authority, and with what kind of answer. What the
requests keep is read off it.
-/

namespace Mycelium

variable {ι β : Type} {A : Api ι β} {s s' : Store β} {resp : Response ι} {c : Choice}
  {credentials : Option String}

/-- The answer is not that of a conflict. -/
def Response.Settled (resp : Response ι) : Prop := ∀ detail, resp ≠ .error ⟨409, detail⟩

def Route.registers : Route → Bool
  | .register .. => true
  | _ => false

/-- Everything the application can do with a request. -/
inductive RequestStep (A : Api ι β) (s : Store β) (r : Request) : Store β → Response ι → Prop where
  | unchanged (resp : Response ι) : RequestStep A s r s resp
  | registered (email : String) (user : User) (profile : CloneProfile) (users : Table User User.id)
      (profiles : Table CloneProfile CloneProfile.id) (resp : Response ι)
      (registers : r.route.registers = true) (role : user.role = .clone)
      (linked : profile.userId = some user.id) (lowered : user.email = A.lower email)
      (newEmail : ∀ u ∈ s.users, u.email ≠ user.email)
      (newDesignation : ∀ p ∈ s.profiles, p.designation ≠ profile.designation)
      (newUser : s.users.insert user = some users)
      (newProfile : s.profiles.insert profile = some profiles) (settled : resp.Settled) :
      RequestStep A s r { s with users := users, profiles := profiles } resp
  | updated (user : User) (p : CloneProfile) (payload : ProfileUpdate) (resp : Response ι)
      (current : getCurrentUser A s r.credentials = .ok user) (member : p ∈ s.profiles)
      (allowed : user.role = .admin ∨ p.userId = some user.id)
      (free : ∀ q ∈ s.profiles, q.id ≠ p.id → q.designation ≠ (payload.apply p).designation)
      (settled : resp.Settled) :
      RequestStep A s r
        { s with profiles := s.profiles.modify p.id payload.apply payload.apply_id } resp
  | wrote (p : CloneProfile) (stream : Stream) (tasks : List Task) (resp : Response ι)
      (own : getOwnProfile A s r.credentials = .ok p) (settled : resp.Settled) :
      RequestStep A s r
        { s with streams := Function.update s.streams p.id stream, tasks := tasks } resp
  | restore (backupId : Int) (backup : MemoryBackup) (s' : Store β) (resp : Response ι)
      (route : r.route = .restoreOwnBackup backupId)
      (own : getOwnBackup A s r.credentials backupId = .ok backup)
      (step : RestoreStep A.toFormat s backup r.choice s' resp) : RequestStep A s r s' resp
  | resurrect (sourceProfileId : Int) (p : CloneProfile) (s' : Store β) (resp : Response ι)
      (route : r.route = .resurrect sourceProfileId)
      (own : getOwnProfile A s r.credentials = .ok p)
      (step : ResurrectStep A.toFormat s p sourceProfileId r.choice s' resp) :
      RequestStep A s r s' resp
  | subscribed (admin : User) (p : CloneProfile) (tier : SubscriptionTier) (resp : Response ι)
      (current : getCurrentUser A s r.credentials = .ok admin) (role : admin.role = .admin)
      (settled : resp.Settled) :
      RequestStep A s r
        { s with
          profiles := s.profiles.modify p.id (CloneProfile.subscribed · tier)
            (CloneProfile.subscribed_id tier) } resp
  | queued (admin : User) (tasks : List Task) (resp : Response ι)
      (current : getCurrentUser A s r.credentials = .ok admin) (role : admin.role = .admin)
      (settled : resp.Settled) : RequestStep A s r { s with tasks := tasks } resp
  | deactivated (admin user : User) (resp : Response ι)
      (current : getCurrentUser A s r.credentials = .ok admin) (role : admin.role = .admin)
      (settled : resp.Settled) :
      RequestStep A s r
        { s with users := s.users.modify user.id User.deactivated User.deactivated_id } resp

theorem RequestStep.of_same {r : Request} (same : s' = s) : RequestStep A s r s' resp := by
  subst same
  exact .unchanged resp

@[simp] theorem settled_ok (status : Nat) (body : Body ι) :
    (Response.ok status body).Settled := by
  rintro detail ⟨⟩

@[simp] theorem settled_internalServerError :
    (Response.internalServerError : Response ι).Settled := by
  rintro detail ⟨⟩

/-! ## Dependencies and validation -/

/-- A route runs only when its dependency returns. -/
theorem depends_some {α : Type} {dependency : Except HttpError α} {route : α → Outcome ι β}
    (h : depends s dependency route = some (s', resp)) :
    s' = s ∨ ∃ a, dependency = .ok a ∧ route a = some (s', resp) := by
  unfold depends at h
  split at h
  · cases h
    exact .inl rfl
  · rename_i a
    exact .inr ⟨a, rfl, h⟩

theorem validated_some {valid : Bool} {route : Outcome ι β}
    (h : validated s valid route = some (s', resp)) : s' = s ∨ route = some (s', resp) := by
  unfold validated at h
  split at h
  · exact .inr h
  · cases h
    exact .inl rfl

/-- The caller's own profile, and who the caller is. -/
theorem own_profile {p : CloneProfile} (h : getOwnProfile A s credentials = .ok p) :
    ∃ user, getCurrentUser A s credentials = .ok user ∧ p ∈ s.profiles ∧
      p.userId = some user.id := by
  obtain ⟨user, current, _, found⟩ := getOwnProfile_ok h
  exact ⟨user, current, profileOf_some found⟩

/-- The profile loaded is an admin's to change, or the user's own. -/
theorem loadAccessible_ok {profileId : Int} {user : User} {p : CloneProfile}
    (h : loadAccessible s profileId user = .ok p) :
    p ∈ s.profiles ∧ (p.id : Int) = profileId ∧
      (user.role = .admin ∨ p.userId = some user.id) := by
  unfold loadAccessible at h
  split at h
  · cases h
  · rename_i found
    obtain ⟨member, same⟩ := Table.lookup_eq_some found
    unfold assertCanAccess at h
    split at h
    · rename_i admin
      cases h
      exact ⟨member, same, .inl admin⟩
    · split at h
      · rename_i own
        cases h
        exact ⟨member, same, .inr own⟩
      · cases h

/-- An admin's route runs for an admin. -/
theorem admin_route {route : User → Outcome ι β}
    (h : depends s (currentAdmin A s credentials) route = some (s', resp)) :
    s' = s ∨ ∃ user, getCurrentUser A s credentials = .ok user ∧ user.role = .admin ∧
      route user = some (s', resp) := by
  rcases depends_some h with same | ⟨user, dependency, h⟩
  · exact .inl same
  · obtain ⟨current, admin⟩ := requireRole_ok dependency
    exact .inr ⟨user, current, admin, h⟩

/-! ## The routes that change nothing -/

theorem login_reads {email password : String} (h : login A s email password c = some (s', resp)) :
    s' = s := by
  unfold login at h
  split at h
  · cases h; rfl
  · split at h
    · cases h; rfl
    · split at h
      · cases h; rfl
      · split at h
        · cases h; rfl
        · cases h; rfl

theorem answer_same {answer : Response ι} (h : some (s, answer) = some (s', resp)) : s' = s := by
  cases h
  rfl

theorem latestBackups_reads {cloneId : Nat} {limit : Int}
    (h : latestBackups s cloneId limit c = some (s', resp)) : s' = s := by
  unfold latestBackups at h
  split at h
  · cases h; rfl
  · cases h

theorem validated_reading {valid : Bool} {route : Outcome ι β}
    (reads : route = some (s', resp) → s' = s) (h : validated s valid route = some (s', resp)) :
    s' = s :=
  (validated_some h).elim id reads

/-- A route that answers from the stores as they are. -/
theorem reading_route {α : Type} {dependency : Except HttpError α} {answer : α → Response ι}
    (h : depends s dependency (fun a => some (s, answer a)) = some (s', resp)) : s' = s := by
  rcases depends_some h with same | ⟨a, _, h⟩
  · exact same
  · cases h; rfl

def Route.reads : Route → Bool
  | .login .. | .readCurrentUser | .cloneHome | .adminHome | .readOwnProfile | .listProfiles
  | .readProfile .. | .streamStatus | .listOwnBackups .. | .readOwnBackup .. | .listUsers ..
  | .listClones .. | .listCloneBackups .. | .registryStats => true
  | _ => false

theorem handle_reads {r : Request} (reads : r.route.reads = true)
    (h : handle A s r = some (s', resp)) : s' = s := by
  obtain ⟨token, route, c⟩ := r
  cases route with
  | login => exact login_reads h
  | readProfile profileId =>
    rcases depends_some h with same | ⟨user, _, h⟩
    · exact same
    · exact reading_route h
  | listOwnBackups limit =>
    rcases depends_some h with same | ⟨p, _, h⟩
    · exact same
    · exact validated_reading latestBackups_reads h
  | listUsers limit | listClones limit =>
    rcases depends_some h with same | ⟨_, _, h⟩
    · exact same
    · exact validated_reading answer_same h
  | listCloneBackups profileId limit =>
    rcases depends_some h with same | ⟨_, _, h⟩
    · exact same
    · refine validated_reading (fun h => ?_) h
      split at h
      · exact answer_same h
      · exact latestBackups_reads h
  | readCurrentUser | cloneHome | adminHome | readOwnProfile | listProfiles | streamStatus
  | readOwnBackup | registryStats => exact reading_route h
  | _ => cases reads

/-! ## The routes that write -/

section Routes

variable {r : Request}

theorem register_step {email password designation : String}
    (registers : r.route.registers = true)
    (h : register A s email password designation c = some (s', resp)) :
    RequestStep A s r s' resp := by
  unfold register at h
  split at h
  · cases h
    exact .unchanged _
  · rcases validated_some h with same | h
    · exact .of_same same
    · simp only at h
      split at h
      · cases h
        exact .unchanged _
      · split at h
        · cases h
          exact .unchanged _
        · rename_i free
          simp only [Bool.or_eq_true, List.any_eq_true, decide_eq_true_eq, not_or, not_exists,
            not_and] at free
          split at h
          · rename_i users profiles newUser newProfile
            split at h
            · cases h
              exact .registered _ _ _ _ _ _ registers rfl rfl rfl free.1 free.2 newUser newProfile
                settled_internalServerError
            · cases h
              exact .registered _ _ _ _ _ _ registers rfl rfl rfl free.1 free.2 newUser newProfile
                (settled_ok _ _)
          · cases h

theorem applyUpdate_step {user : User} {p : CloneProfile} {payload : ProfileUpdate}
    (current : getCurrentUser A s r.credentials = .ok user) (member : p ∈ s.profiles)
    (allowed : user.role = .admin ∨ p.userId = some user.id)
    (h : applyUpdate s p payload c = some (s', resp)) : RequestStep A s r s' resp := by
  unfold applyUpdate at h
  simp only at h
  split at h
  · cases h
    exact .unchanged _
  · split at h
    · cases h
      exact .unchanged _
    · rename_i free
      have other : ∀ q ∈ s.profiles, q.id ≠ p.id →
          q.designation ≠ (payload.apply p).designation := by
        intro q listed apart same
        refine free (List.any_eq_true.2 ⟨q, listed, ?_⟩)
        simp [apart, same]
      split at h
      · cases h
        exact .updated user p payload _ current member allowed other settled_internalServerError
      · cases h
        exact .updated user p payload _ current member allowed other (settled_ok _ _)

theorem writeMemory_step {payload : MemoryWrite}
    (h : writeMemory A s r.credentials payload c = some (s', resp)) : RequestStep A s r s' resp := by
  rcases depends_some h with same | ⟨p, own, h⟩
  · exact .of_same same
  · rcases validated_some h with same | h
    · exact .of_same same
    · simp only at h
      split at h
      · cases h
        exact .unchanged _
      · split at h
        · split at h
          · cases h
            exact .wrote p _ s.tasks _ own settled_internalServerError
          · split at h
            · split at h
              · cases h
                exact .wrote p _ s.tasks _ own settled_internalServerError
              · cases h
                exact .wrote p _ _ _ own (settled_ok _ _)
            · cases h
              exact .wrote p _ s.tasks _ own (settled_ok _ _)
        · cases h

theorem updateSubscription_step {profileId : Int} {tier : SubscriptionTier}
    (h : updateSubscription A s r.credentials profileId tier c = some (s', resp)) :
    RequestStep A s r s' resp := by
  rcases admin_route h with same | ⟨admin, current, role, h⟩
  · exact .of_same same
  · split at h
    · cases h
      exact .unchanged _
    · split at h
      · cases h
        exact .unchanged _
      · simp only at h
        split at h
        · cases h
          exact .subscribed admin _ tier _ current role settled_internalServerError
        · cases h
          exact .subscribed admin _ tier _ current role (settled_ok _ _)

theorem triggerRollup_step {profileId : Int}
    (h : triggerRollup A s r.credentials profileId c = some (s', resp)) :
    RequestStep A s r s' resp := by
  rcases admin_route h with same | ⟨admin, current, role, h⟩
  · exact .of_same same
  · split at h
    · cases h
      exact .unchanged _
    · split at h
      · cases h
        exact .unchanged _
      · simp only at h
        split at h
        · cases h
          exact .queued admin _ _ current role fun detail same => by cases same
        · cases h
          exact .queued admin _ _ current role (settled_ok _ _)

theorem deactivateUser_step {userId : Int}
    (h : deactivateUser A s r.credentials userId c = some (s', resp)) :
    RequestStep A s r s' resp := by
  rcases admin_route h with same | ⟨admin, current, role, h⟩
  · exact .of_same same
  · split at h
    · cases h
      exact .unchanged _
    · split at h
      · cases h
        exact .unchanged _
      · split at h
        · cases h
          exact .unchanged _
        · simp only at h
          split at h
          · cases h
            exact .deactivated admin _ _ current role settled_internalServerError
          · cases h
            exact .deactivated admin _ _ current role (settled_ok _ _)

end Routes

/-- **What the application does with a request.** -/
theorem handle_step {r : Request} (h : handle A s r = some (s', resp)) :
    RequestStep A s r s' resp := by
  obtain ⟨token, route, c⟩ := r
  cases route with
  | register => exact register_step rfl h
  | updateOwnProfile =>
    rcases depends_some h with same | ⟨p, dependency, h⟩
    · exact .of_same same
    · obtain ⟨user, current, member, own⟩ := own_profile dependency
      rcases validated_some h with same | h
      · exact .of_same same
      · exact applyUpdate_step current member (.inr own) h
  | updateProfile =>
    rcases depends_some h with same | ⟨user, current, h⟩
    · exact .of_same same
    · rcases validated_some h with same | h
      · exact .of_same same
      · rcases depends_some h with same | ⟨p, accessible, h⟩
        · exact .of_same same
        · obtain ⟨member, _, allowed⟩ := loadAccessible_ok accessible
          exact applyUpdate_step current member allowed h
  | writeMemory => exact writeMemory_step h
  | restoreOwnBackup backupId =>
    rcases depends_some h with same | ⟨backup, own, _⟩
    · exact .of_same same
    · exact .restore backupId backup s' resp rfl own (restoreOwnBackup_step own h)
  | resurrect sourceProfileId =>
    rcases depends_some h with same | ⟨p, own, h⟩
    · exact .of_same same
    · exact .resurrect sourceProfileId p s' resp rfl own (resurrectFrom_step h)
  | updateSubscription => exact updateSubscription_step h
  | triggerRollup => exact triggerRollup_step h
  | deactivateUser => exact deactivateUser_step h
  | _ => exact .of_same (handle_reads rfl h)

/-! ## Conflicts and the backup table -/

theorem settled_afterCommit {F : Format ι β} {status : Nat} {backup : MemoryBackup} :
    (afterCommit F s status backup c).Settled := by
  unfold afterCommit detailResponse
  split
  · exact settled_internalServerError
  · split
    · exact settled_internalServerError
    · split
      · exact settled_internalServerError
      · exact settled_ok _ _

/-- A request answered with a conflict has changed nothing. -/
theorem unchanged_of_conflict {r : Request} {detail : String}
    (h : handle A s r = some (s', .error ⟨409, detail⟩)) : s' = s := by
  generalize conflict : Response.error ⟨409, detail⟩ = resp at h
  have unsettled : ¬ resp.Settled := fun settled => settled detail conflict.symm
  cases handle_step h with
  | unchanged => rfl
  | restore backupId backup s' resp route own step =>
    cases step with
    | uncommitted => rfl
    | committed => exact absurd settled_afterCommit unsettled
  | resurrect sourceProfileId p s' resp route own step =>
    cases step with
    | refused => rfl
    | raised => rfl
    | uncommitted => exact absurd settled_internalServerError unsettled
    | committed => exact absurd settled_afterCommit unsettled
  | _ => contradiction

def Route.writesBackups : Route → Bool
  | .restoreOwnBackup .. | .resurrect .. => true
  | _ => false

/-- The other routes leave the backup table. -/
theorem handle_backups {r : Request} (other : r.route.writesBackups = false)
    (h : handle A s r = some (s', resp)) : s'.backups = s.backups := by
  cases handle_step h with
  | restore backupId backup s' resp route own step =>
    rw [route] at other
    cases other
  | resurrect sourceProfileId p s' resp route own step =>
    rw [route] at other
    cases other
  | _ => rfl

end Mycelium
