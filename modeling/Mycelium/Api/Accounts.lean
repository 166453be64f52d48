import Mycelium.Api.Requests
import Mycelium.Logic.Run

/-!
# Accounts and their profiles (`api/seed_admin.py`, `auth.py`, `profiles.py`)

A run of requests and of the `seed_admin` script from the empty database. What a
request can do to the accounts is an `AccountStep`; every one of them keeps
accounts and profiles in step, and so does a `seed_admin` that makes a new account
or finds an admin's. Promoting a clone leaves an admin with a profile.
-/

namespace Mycelium

variable {ι β : Type}

/-! ## `seed_admin.py` -/

/-- What is chosen for a call of `seed_admin`, and whether its commit raises. -/
structure SeedChoice where
  id : Nat
  createdAt : Int
  salt : Nat
  commitFails : Bool
deriving DecidableEq, Repr

/-- What a call of `seed_admin` returns. -/
inductive SeedResult where
  | returned (outcome : String)
  | raised
deriving DecidableEq, Repr

def User.promoted (user : User) (passwordHash : String) : User :=
  { user with role := .admin, passwordHash := passwordHash, isActive := true }

theorem User.promoted_id (passwordHash : String) (user : User) :
    (user.promoted passwordHash).id = user.id := rfl

/-- `seed_admin`; two rows with one email raise MultipleResultsFound. -/
def seedAdmin (A : Api ι β) (s : Store β) (email password : String) (c : SeedChoice) :
    Option (Store β × SeedResult) :=
  match s.users.rows.filter fun u => u.email = A.lower email with
  | [] =>
    let user : User := ⟨c.id, A.lower email, A.hashPassword password c.salt, .admin, true,
      c.createdAt⟩
    if c.commitFails then some (s, .raised)
    else
      match s.users.insert user with
      | none => none
      | some users => some ({ s with users := users }, .returned ("created admin " ++ email))
  | [user] =>
    if c.commitFails then some (s, .raised)
    else
      let hash := A.hashPassword password c.salt
      some ({ s with
          users := s.users.modify user.id (User.promoted · hash) (User.promoted_id hash) },
        .returned ("promoted " ++ email ++ " to admin"))
  | _ => some (s, .raised)

inductive AccountEvent where
  | request (r : Request)
  | seedAdmin (email password : String) (c : SeedChoice)

namespace AccountEvent

/-- The stores after a request or a call of the script. -/
def step (A : Api ι β) (s : Store β) : AccountEvent → Option (Store β)
  | request r => serve A s r
  | seedAdmin email password c => (Mycelium.seedAdmin A s email password c).map Prod.fst

/-- A `seed_admin` that commits does not find a clone's account. -/
def PromotesNoClone (A : Api ι β) (s : Store β) : AccountEvent → Prop
  | request _ => True
  | seedAdmin email _ c =>
    c.commitFails = true ∨ ∀ u ∈ s.users, u.email = A.lower email → u.role = .admin

end AccountEvent

/-- Accounts and profiles are in step. -/
structure InStep (A : Api ι β) (s : Store β) : Prop where
  clones : ∀ u ∈ s.users, u.role = .clone → ∃! p, p ∈ s.profiles ∧ p.userId = some u.id
  admins : ∀ u ∈ s.users, u.role = .admin → ∀ p ∈ s.profiles, p.userId ≠ some u.id
  linked : ∀ p ∈ s.profiles, ∃ u ∈ s.users, p.userId = some u.id
  lowered : ∀ u ∈ s.users, ∃ text, u.email = A.lower text
  emails : (s.users.rows.map User.email).Nodup
  designations : (s.profiles.rows.map CloneProfile.designation).Nodup

/-! ## What a request does to the accounts -/

/-- Everything a request can do to the accounts and their profiles. -/
inductive AccountStep (A : Api ι β) (s s' : Store β) : Prop where
  | same (users : s'.users = s.users) (profiles : s'.profiles = s.profiles)
  | registered (email : String) (user : User) (profile : CloneProfile) (role : user.role = .clone)
      (linked : profile.userId = some user.id) (lowered : user.email = A.lower email)
      (newEmail : ∀ u ∈ s.users, u.email ≠ user.email)
      (newDesignation : ∀ p ∈ s.profiles, p.designation ≠ profile.designation)
      (users : s.users.insert user = some s'.users)
      (profiles : s.profiles.insert profile = some s'.profiles)
  | updated (p : CloneProfile) (member : p ∈ s.profiles) (payload : ProfileUpdate)
      (free : ∀ q ∈ s.profiles, q.id ≠ p.id → q.designation ≠ (payload.apply p).designation)
      (users : s'.users = s.users)
      (profiles : s'.profiles = s.profiles.modify p.id payload.apply payload.apply_id)
  | subscribed (p : CloneProfile) (tier : SubscriptionTier) (users : s'.users = s.users)
      (profiles : s'.profiles = s.profiles.modify p.id (CloneProfile.subscribed · tier)
        (CloneProfile.subscribed_id tier))
  | deactivated (user : User) (profiles : s'.profiles = s.profiles)
      (users : s'.users = s.users.modify user.id User.deactivated User.deactivated_id)

variable {A : Api ι β} {F : Format ι β} {s s' : Store β} {resp : Response ι} {c : Choice}

theorem AccountStep.unchanged (same : s' = s) : AccountStep A s s' := by
  subst same
  exact .same rfl rfl

/-- **What a request can do to the accounts.** -/
theorem handle_account {r : Request} (h : handle A s r = some (s', resp)) : AccountStep A s s' := by
  cases handle_step h with
  | unchanged => exact .unchanged rfl
  | registered email user profile users profiles resp registers role linked lowered newEmail
      newDesignation newUser newProfile =>
    exact .registered email user profile role linked lowered newEmail newDesignation newUser
      newProfile
  | updated user p payload resp current member allowed free =>
    exact .updated p member payload free rfl rfl
  | wrote => exact .same rfl rfl
  | restore backupId backup s' resp route own step => cases step <;> exact .same rfl rfl
  | resurrect sourceProfileId p s' resp route own step => cases step <;> exact .same rfl rfl
  | subscribed admin p tier => exact .subscribed p tier rfl rfl
  | queued => exact .same rfl rfl
  | deactivated admin user => exact .deactivated user rfl rfl

/-! ## In step -/

namespace InStep

theorem congr (inv : InStep A s) (users : s'.users = s.users) (profiles : s'.profiles = s.profiles) :
    InStep A s' := by
  obtain ⟨clones, admins, linked, lowered, emails, designations⟩ := inv
  constructor <;> simpa only [users, profiles]

/-- A profile is changed, but not whose it is, and its designation is free. -/
theorem modifyProfile (inv : InStep A s) {k : Nat} {f : CloneProfile → CloneProfile}
    {keeps : ∀ p, (f p).id = p.id} (owner : ∀ p, (f p).userId = p.userId)
    (free : ∀ p ∈ s.profiles, p.id = k → ∀ q ∈ s.profiles, q.id ≠ k →
      q.designation ≠ (f p).designation)
    (users : s'.users = s.users) (profiles : s'.profiles = s.profiles.modify k f keeps) :
    InStep A s' := by
  have owners : ∀ {p' u}, p' ∈ s'.profiles → p'.userId = some u →
      ∃ p ∈ s.profiles, p.userId = some u ∧ p' = if p.id = k then f p else p := by
    intro p' u member own
    rw [profiles, Table.mem_modify] at member
    obtain ⟨p, old, rfl⟩ := member
    refine ⟨p, old, ?_, rfl⟩
    split at own
    · rwa [owner] at own
    · exact own
  constructor
  · intro u member role
    rw [users] at member
    obtain ⟨p, ⟨old, own⟩, only⟩ := inv.clones u member role
    refine ⟨if p.id = k then f p else p, ⟨?_, ?_⟩, ?_⟩
    · rw [profiles, Table.mem_modify]
      exact ⟨p, old, rfl⟩
    · split
      · rwa [owner]
      · exact own
    · rintro p' ⟨listed, mine⟩
      obtain ⟨q, old', own', rfl⟩ := owners listed mine
      rw [only q ⟨old', own'⟩]
  · intro u member role p' listed mine
    rw [users] at member
    obtain ⟨q, old, own, _⟩ := owners listed mine
    exact inv.admins u member role q old own
  · intro p' listed
    rw [profiles, Table.mem_modify] at listed
    obtain ⟨p, old, rfl⟩ := listed
    obtain ⟨u, member, own⟩ := inv.linked p old
    rw [users]
    refine ⟨u, member, ?_⟩
    split
    · rwa [owner]
    · exact own
  · rw [users]
    exact inv.lowered
  · rw [users]
    exact inv.emails
  · rw [profiles]
    exact Table.nodup_map_modify inv.designations free

/-- An account is changed, but not its email or role. -/
theorem modifyUser (inv : InStep A s) {k : Nat} {f : User → User} (keeps : ∀ u, (f u).id = u.id)
    (email : ∀ u, (f u).email = u.email) (role : ∀ u ∈ s.users, u.id = k → (f u).role = u.role)
    (profiles : s'.profiles = s.profiles) (users : s'.users = s.users.modify k f keeps) :
    InStep A s' := by
  have old : ∀ u' ∈ s'.users, ∃ u ∈ s.users, u.id = u'.id ∧ u.role = u'.role ∧ u.email = u'.email := by
    intro u' member
    rw [users, Table.mem_modify] at member
    obtain ⟨u, listed, rfl⟩ := member
    refine ⟨u, listed, ?_⟩
    split
    · rename_i same
      exact ⟨(keeps u).symm, (role u listed same).symm, (email u).symm⟩
    · exact ⟨rfl, rfl, rfl⟩
  constructor
  · intro u' member isClone
    obtain ⟨u, listed, id, sameRole, _⟩ := old u' member
    rw [profiles, ← id]
    exact inv.clones u listed (sameRole.trans isClone)
  · intro u' member isAdmin
    obtain ⟨u, listed, id, sameRole, _⟩ := old u' member
    rw [profiles, ← id]
    exact inv.admins u listed (sameRole.trans isAdmin)
  · intro p listed
    rw [profiles] at listed
    obtain ⟨u, member, own⟩ := inv.linked p listed
    rw [users]
    refine ⟨if u.id = k then f u else u, ?_, ?_⟩
    · rw [Table.mem_modify]
      exact ⟨u, member, rfl⟩
    · split
      · rwa [keeps]
      · exact own
  · intro u' member
    obtain ⟨u, listed, _, _, sameEmail⟩ := old u' member
    rw [← sameEmail]
    exact inv.lowered u listed
  · rw [users, Table.map_modify User.email email]
    exact inv.emails
  · rw [profiles]
    exact inv.designations

/-- The id of a new account is no profile's `user_id`. -/
theorem unlinked (inv : InStep A s) {user : User} {users : Table User User.id}
    (inserted : s.users.insert user = some users) : ∀ p ∈ s.profiles, p.userId ≠ some user.id := by
  intro p listed own
  obtain ⟨u, member, mine⟩ := inv.linked p listed
  rw [own, Option.some.injEq] at mine
  exact Table.key_ne_of_insert inserted member mine.symm

/-- A new clone with its profile. -/
theorem registered (inv : InStep A s) {email : String} {user : User} {profile : CloneProfile}
    (role : user.role = .clone) (own : profile.userId = some user.id)
    (lowered : user.email = A.lower email) (newEmail : ∀ u ∈ s.users, u.email ≠ user.email)
    (newDesignation : ∀ p ∈ s.profiles, p.designation ≠ profile.designation)
    (users : s.users.insert user = some s'.users)
    (profiles : s.profiles.insert profile = some s'.profiles) : InStep A s' := by
  have unlinked := inv.unlinked users
  have fresh : ∀ u ∈ s.users, u.id ≠ user.id := fun u => Table.key_ne_of_insert users
  constructor
  · intro u member isClone
    rcases (Table.mem_of_insert users).1 member with old | rfl
    · obtain ⟨p, ⟨listed, mine⟩, only⟩ := inv.clones u old isClone
      refine ⟨p, ⟨(Table.mem_of_insert profiles).2 (.inl listed), mine⟩, ?_⟩
      rintro q ⟨later, mine'⟩
      rcases (Table.mem_of_insert profiles).1 later with before | rfl
      · exact only q ⟨before, mine'⟩
      · rw [own, Option.some.injEq] at mine'
        exact absurd mine'.symm (fresh u old)
    · refine ⟨profile, ⟨(Table.mem_of_insert profiles).2 (.inr rfl), own⟩, ?_⟩
      rintro q ⟨later, mine⟩
      rcases (Table.mem_of_insert profiles).1 later with before | same
      · exact absurd mine (unlinked q before)
      · exact same
  · intro u member isAdmin p listed mine
    rcases (Table.mem_of_insert users).1 member with old | rfl
    · rcases (Table.mem_of_insert profiles).1 listed with before | rfl
      · exact inv.admins u old isAdmin p before mine
      · rw [own, Option.some.injEq] at mine
        exact fresh u old mine.symm
    · cases role.symm.trans isAdmin
  · intro p listed
    rcases (Table.mem_of_insert profiles).1 listed with before | rfl
    · obtain ⟨u, member, mine⟩ := inv.linked p before
      exact ⟨u, (Table.mem_of_insert users).2 (.inl member), mine⟩
    · exact ⟨user, (Table.mem_of_insert users).2 (.inr rfl), own⟩
  · intro u member
    rcases (Table.mem_of_insert users).1 member with old | rfl
    · exact inv.lowered u old
    · exact ⟨email, lowered⟩
  · exact Table.nodup_map_insert users inv.emails newEmail
  · exact Table.nodup_map_insert profiles inv.designations newDesignation

/-- A new admin. -/
theorem createdAdmin (inv : InStep A s) {email : String} {user : User} (role : user.role = .admin)
    (lowered : user.email = A.lower email) (newEmail : ∀ u ∈ s.users, u.email ≠ user.email)
    (users : s.users.insert user = some s'.users) (profiles : s'.profiles = s.profiles) :
    InStep A s' := by
  constructor
  · intro u member isClone
    rw [profiles]
    rcases (Table.mem_of_insert users).1 member with old | rfl
    · exact inv.clones u old isClone
    · cases role.symm.trans isClone
  · intro u member isAdmin
    rw [profiles]
    rcases (Table.mem_of_insert users).1 member with old | rfl
    · exact inv.admins u old isAdmin
    · exact inv.unlinked users
  · intro p listed
    rw [profiles] at listed
    obtain ⟨u, member, mine⟩ := inv.linked p listed
    exact ⟨u, (Table.mem_of_insert users).2 (.inl member), mine⟩
  · intro u member
    rcases (Table.mem_of_insert users).1 member with old | rfl
    · exact inv.lowered u old
    · exact ⟨email, lowered⟩
  · exact Table.nodup_map_insert users inv.emails newEmail
  · rw [profiles]
    exact inv.designations

/-- Every request keeps accounts and profiles in step. -/
theorem accountStep (inv : InStep A s) (step : AccountStep A s s') : InStep A s' := by
  cases step with
  | same users profiles => exact inv.congr users profiles
  | registered email user profile role linked lowered newEmail newDesignation users profiles =>
    exact inv.registered role linked lowered newEmail newDesignation users profiles
  | updated p member payload free users profiles =>
    have owner : ∀ q, (payload.apply q).userId = q.userId := fun _ => rfl
    refine inv.modifyProfile owner (fun q listed same => ?_) users profiles
    rw [Table.eq_of_key listed member same]
    exact free
  | subscribed p tier users profiles =>
    have owner : ∀ q : CloneProfile, (q.subscribed tier).userId = q.userId := fun _ => rfl
    refine inv.modifyProfile owner (fun q listed same y other apart designation => ?_) users profiles
    have eq := List.inj_on_of_nodup_map inv.designations other listed designation
    exact apart (eq ▸ same)
  | deactivated user profiles users =>
    have email : ∀ u : User, u.deactivated.email = u.email := fun _ => rfl
    exact inv.modifyUser User.deactivated_id email (fun _ _ _ => rfl) profiles users

/-- A call of the script that promotes no clone keeps them in step. -/
theorem seeded (inv : InStep A s) {email password : String} {c : SeedChoice} {result : SeedResult}
    (h : seedAdmin A s email password c = some (s', result))
    (none : c.commitFails = true ∨ ∀ u ∈ s.users, u.email = A.lower email → u.role = .admin) :
    InStep A s' := by
  unfold seedAdmin at h
  split at h
  · rename_i missing
    simp only at h
    split at h
    · cases h
      exact inv
    · split at h
      · cases h
      · rename_i users inserted
        cases h
        rw [List.filter_eq_nil_iff] at missing
        refine inv.createdAdmin rfl rfl (fun u listed same => ?_) inserted rfl
        exact missing u listed (decide_eq_true same)
  · rename_i user found
    split at h
    · cases h
      exact inv
    · rename_i commits
      cases h
      have member : user ∈ s.users.rows.filter fun u => u.email = A.lower email := by
        rw [found]
        exact List.mem_singleton_self user
      obtain ⟨listed, same⟩ := List.mem_filter.1 member
      have isAdmin : user.role = .admin :=
        none.resolve_left commits user listed (of_decide_eq_true same)
      have email : ∀ u : User, (u.promoted (A.hashPassword password c.salt)).email = u.email :=
        fun _ => rfl
      refine inv.modifyUser (User.promoted_id _) email (fun u old key => ?_) rfl rfl
      rw [Table.eq_of_key old listed key]
      exact isAdmin.symm
  · cases h
    exact inv

/-- A call that promotes a clone does not. -/
theorem not_promoted (inv : InStep A s) {email password : String} {c : SeedChoice}
    {result : SeedResult} (h : seedAdmin A s email password c = some (s', result))
    (inv' : InStep A s') :
    c.commitFails = true ∨ ∀ u ∈ s.users, u.email = A.lower email → u.role = .admin := by
  by_contra promotes
  simp only [not_or, not_forall] at promotes
  obtain ⟨commits, user, listed, same, notAdmin⟩ := promotes
  have isClone : user.role = .clone := by
    cases role : user.role with
    | admin => exact absurd role notAdmin
    | clone => rfl
  obtain ⟨p, ⟨linked, own⟩, _⟩ := inv.clones user listed isClone
  have found : s.users.rows.filter (fun u => u.email = A.lower email) = [user] := by
    rw [← same]
    exact Table.filter_column inv.emails listed
  unfold seedAdmin at h
  rw [found] at h
  simp only [if_neg commits] at h
  cases h
  have promoted : user.promoted (A.hashPassword password c.salt) ∈ s.users.modify user.id
      (User.promoted · (A.hashPassword password c.salt)) (User.promoted_id _) := by
    rw [Table.mem_modify]
    exact ⟨user, listed, by rw [if_pos rfl]⟩
  exact inv'.admins _ promoted rfl p linked own

end InStep

/-- **Accounts and profiles are in step** in every state of a run from the empty database exactly
when no `seed_admin` of the run promotes a clone; and a request answered with 409 has changed
nothing. -/
theorem inStep_iff_promotes_no_clone (A : Api ι β) (es : List AccountEvent) :
    (Run.Throughout (AccountEvent.step A) (InStep A) (.empty : Store β) es ↔
      Run.Guarded (AccountEvent.step A) (AccountEvent.PromotesNoClone A) .empty es) ∧
    ∀ (s s' : Store β) r detail, handle A s r = some (s', .error ⟨409, detail⟩) → s' = s := by
  have start : InStep A (.empty : Store β) := by
    constructor
    · exact fun u member => absurd member (Table.not_mem_empty u)
    · exact fun u member => absurd member (Table.not_mem_empty u)
    · exact fun p member => absurd member (Table.not_mem_empty p)
    · exact fun u member => absurd member (Table.not_mem_empty u)
    · exact List.nodup_nil
    · exact List.nodup_nil
  refine ⟨?_, fun _ _ _ _ => unchanged_of_conflict⟩
  refine Run.throughout_iff_guarded (A := fun _ _ => True) (fun _ inv => inv) ?_ ?_ start
    (Run.Guarded.of_forall (fun _ _ => trivial) es _)
  · intro s e s' inv _ taken cond
    cases e with
    | request r =>
      obtain ⟨⟨_, resp⟩, answered, rfl⟩ := Option.map_eq_some_iff.1 taken
      exact inv.accountStep (handle_account answered)
    | seedAdmin email password c =>
      obtain ⟨⟨_, result⟩, seeded, rfl⟩ := Option.map_eq_some_iff.1 taken
      exact inv.seeded seeded cond
  · intro s e s' inv _ taken inv'
    cases e with
    | request r => exact trivial
    | seedAdmin email password c =>
      obtain ⟨⟨_, result⟩, seeded, rfl⟩ := Option.map_eq_some_iff.1 taken
      exact inv.not_promoted seeded inv'

/-- A clone registers, and `seed_admin` is called with its address. -/
def registeredThenSeeded : List AccountEvent :=
  [.request ⟨none, .register "a@x.org" "password" "alpha",
      { choiceAt 0 ⟨1, 0⟩ with id := 1, profileId := 1 }⟩,
    .seedAdmin "a@x.org" "password" ⟨2, 1, 0, false⟩]

theorem admin_with_profile_of_seeded :
    ∃ s', Run.exec (AccountEvent.step Api.sample) .empty registeredThenSeeded = some s' ∧
      s'.users.rows.map (fun u => (u.id, u.role)) = [(1, .admin)] ∧
      s'.profiles.rows.map (fun p => (p.id, p.userId)) = [(1, some 1)] ∧
      ¬ InStep Api.sample s' := by
  refine ⟨_, rfl, rfl, rfl, fun inv => ?_⟩
  exact inv.admins _ (List.mem_singleton_self _) rfl _ (List.mem_singleton_self _) rfl

end Mycelium
