import Mycelium.Api.Accounts
import Mycelium.Api.Tokens

/-!
# The last administrator (`admin.py`)

`deactivate_user` keeps its caller from deactivating his own account, and
`seed_admin` is the one way to become an administrator: so the last active one
cannot be deactivated, by whoever calls first. But the caller is looked up before
the commit. Two administrators who deactivate each other at the same time are both
looked up while they are active, and then nobody is left. Here the lookups and the
commit are steps of their own; every other request is one step.
-/

namespace Mycelium

variable {ι β : Type}

/-- A call of `deactivate_user` up to its commit: the caller's row as `CurrentAdmin` has read it,
and the user's as `db.get` has. -/
inductive Deactivation where
  | admitted (admin : User) (userId : Int)
  | loaded (admin user : User)
deriving DecidableEq, Repr

def Deactivation.admin : Deactivation → User
  | admitted admin _ => admin
  | loaded admin _ => admin

def Deactivation.userId : Deactivation → Int
  | admitted _ userId => userId
  | loaded _ user => user.id

structure AdminState (β : Type) where
  store : Store β
  pending : Nat → Option Deactivation

inductive AdminEvent where
  /-- the dependencies of `deactivate_user`, and its first check -/
  | check (t : Nat) (credentials : Option String) (userId : Int)
  | load (t : Nat)
  | commit (t : Nat)
  /-- the next call of the request raises -/
  | fail (t : Nat)
  /-- any other request -/
  | request (r : Request)
  | seedAdmin (email password : String) (c : SeedChoice)

def Route.deactivates : Route → Bool
  | .deactivateUser _ => true
  | _ => false

variable (A : Api ι β)

namespace AdminState

def set (s : AdminState β) (t : Nat) (d : Option Deactivation) : AdminState β :=
  { s with pending := Function.update s.pending t d }

/-- One event; `none` when it is not enabled. -/
def step (s : AdminState β) : AdminEvent → Option (AdminState β)
  | .check t credentials userId =>
    match s.pending t with
    | some _ => none
    | none =>
      match currentAdmin A s.store credentials with
      | .error _ => some s
      | .ok admin =>
        if userId = admin.id then some s else some (s.set t (some (.admitted admin userId)))
  | .load t =>
    match s.pending t with
    | some (.admitted admin userId) =>
      some (s.set t ((s.store.users.lookup userId).map (.loaded admin)))
    | _ => none
  | .commit t =>
    match s.pending t with
    | some (.loaded _ user) =>
      -- no UPDATE of a row that was loaded inactive
      if user.isActive then
        some ({ s with
          store := { s.store with
            users := s.store.users.modify user.id User.deactivated User.deactivated_id } }.set t
              none)
      else some (s.set t none)
    | _ => none
  | .fail t =>
    match s.pending t with
    | some _ => some (s.set t none)
    | none => none
  | .request r =>
    if r.route.deactivates then none
    else (serve A s.store r).map fun store => { s with store := store }
  | .seedAdmin email password c =>
    (Mycelium.seedAdmin A s.store email password c).map fun (store, _) => { s with store := store }

/-- Nobody's account is deactivated while a deactivation of his own is under way. -/
def Undisputed (s : AdminState β) : AdminEvent → Prop
  | .commit t =>
    ∀ mine ∈ s.pending t, ∀ t', ∀ other ∈ s.pending t', (other.admin.id : Int) ≠ mine.userId
  | _ => True

end AdminState

/-- The user's row is there, an active administrator's. -/
def ActiveAdmin (s : Store β) (id : Nat) : Prop :=
  ∃ u ∈ s.users, u.id = id ∧ u.role = .admin ∧ u.isActive = true

/-! ## What keeps an administrator active -/

variable {A} {s s' : Store β} {resp : Response ι} {id : Nat}

theorem ActiveAdmin.of_same (active : ActiveAdmin s id) (users : s'.users = s.users) :
    ActiveAdmin s' id := by
  unfold ActiveAdmin
  rw [users]
  exact active

theorem ActiveAdmin.of_insert {user : User} (active : ActiveAdmin s id)
    (inserted : s.users.insert user = some s'.users) : ActiveAdmin s' id := by
  obtain ⟨u, member, rest⟩ := active
  exact ⟨u, (Table.mem_of_insert inserted).2 (.inl member), rest⟩

theorem ActiveAdmin.of_modify {k : Nat} {f : User → User} (keeps : ∀ u, (f u).id = u.id)
    (active : ActiveAdmin s id) (users : s'.users = s.users.modify k f keeps)
    (kept : k ≠ id ∨ ∀ u, (f u).role = .admin ∧ (f u).isActive = true) : ActiveAdmin s' id := by
  obtain ⟨u, member, rfl, role, on⟩ := active
  refine ⟨if u.id = k then f u else u, ?_, ?_⟩
  · rw [users, Table.mem_modify]
    exact ⟨u, member, rfl⟩
  · split
    · rename_i same
      exact ⟨keeps u, kept.resolve_left (fun other => other same.symm) u⟩
    · exact ⟨rfl, role, on⟩

theorem applyUpdate_users {p : CloneProfile} {payload : ProfileUpdate} {c : Choice}
    (h : applyUpdate s p payload c = some (s', resp)) : s'.users = s.users := by
  unfold applyUpdate at h
  simp only at h
  split at h
  · cases h; rfl
  · split at h
    · cases h; rfl
    · split at h <;> cases h <;> rfl

theorem writeMemory_users {credentials : Option String} {payload : MemoryWrite} {c : Choice}
    (h : writeMemory A s credentials payload c = some (s', resp)) : s'.users = s.users := by
  rcases depends_some h with rfl | ⟨p, _, h⟩
  · rfl
  · rcases validated_some h with rfl | h
    · rfl
    · simp only at h
      split at h
      · cases h; rfl
      · split at h
        · split at h
          · cases h; rfl
          · split at h
            · split at h <;> cases h <;> rfl
            · cases h; rfl
        · cases h

theorem ActiveAdmin.registers {email password designation : String} {c : Choice}
    (active : ActiveAdmin s id) (h : register A s email password designation c = some (s', resp)) :
    ActiveAdmin s' id := by
  unfold register at h
  split at h
  · cases h; exact active
  · rcases validated_some h with same | h
    · exact same ▸ active
    · simp only at h
      split at h
      · cases h; exact active
      · split at h
        · cases h; exact active
        · split at h
          · rename_i users profiles newUser newProfile
            split at h <;> cases h <;> exact active.of_insert newUser
          · cases h

/-- **Only `deactivate_user` can end an administrator's activity.** -/
theorem ActiveAdmin.served {r : Request} (active : ActiveAdmin s id)
    (other : r.route.deactivates = false) (h : handle A s r = some (s', resp)) :
    ActiveAdmin s' id := by
  obtain ⟨token, route, c⟩ := r
  cases route with
  | register => exact active.registers h
  | updateOwnProfile =>
    rcases depends_some h with same | ⟨p, _, h⟩
    · exact same ▸ active
    · rcases validated_some h with same | h
      · exact same ▸ active
      · exact active.of_same (applyUpdate_users h)
  | updateProfile =>
    rcases depends_some h with same | ⟨user, _, h⟩
    · exact same ▸ active
    · rcases validated_some h with same | h
      · exact same ▸ active
      · rcases depends_some h with same | ⟨p, _, h⟩
        · exact same ▸ active
        · exact active.of_same (applyUpdate_users h)
  | writeMemory => exact active.of_same (writeMemory_users h)
  | restoreOwnBackup backupId =>
    rcases depends_some h with same | ⟨backup, own, _⟩
    · exact same ▸ active
    · cases restoreOwnBackup_step own h <;> exact active
  | resurrect sourceProfileId =>
    rcases depends_some h with same | ⟨p, _, h⟩
    · exact same ▸ active
    · cases resurrectFrom_step h <;> exact active
  | updateSubscription =>
    rcases admin_route h with same | ⟨_, _, _, h⟩
    · exact same ▸ active
    · split at h
      · cases h; exact active
      · split at h
        · cases h; exact active
        · simp only at h
          split at h <;> cases h <;> exact active
  | triggerRollup =>
    rcases admin_route h with same | ⟨_, _, _, h⟩
    · exact same ▸ active
    · split at h
      · cases h; exact active
      · split at h
        · cases h; exact active
        · simp only at h
          split at h <;> cases h <;> exact active
  | deactivateUser => cases other
  | _ => exact (handle_reads rfl h) ▸ active

/-- A call of the script makes administrators and deactivates none. -/
theorem ActiveAdmin.seeded {email password : String} {c : SeedChoice} {result : SeedResult}
    (active : ActiveAdmin s id) (h : seedAdmin A s email password c = some (s', result)) :
    ActiveAdmin s' id := by
  unfold seedAdmin at h
  split at h
  · simp only at h
    split at h
    · cases h; exact active
    · split at h
      · cases h
      · rename_i users inserted
        cases h
        exact active.of_insert inserted
  · split at h
    · cases h; exact active
    · cases h
      exact active.of_modify (User.promoted_id _) rfl (.inr fun _ => ⟨rfl, rfl⟩)
  · cases h; exact active

/-! ## Runs -/

/-- Whoever deactivates is an active administrator, and not the one deactivated. -/
structure Deactivation.Valid (d : Deactivation) (s : Store β) : Prop where
  active : ActiveAdmin s d.admin.id
  other : (d.admin.id : Int) ≠ d.userId

/-- An administrator is active, and so is everyone who is deactivating somebody. -/
structure Governed (s : AdminState β) : Prop where
  someone : ∃ id, ActiveAdmin s.store id
  pending : ∀ t, ∀ d ∈ s.pending t, d.Valid s.store

theorem Governed.set {s : AdminState β} (inv : Governed s) (t : Nat) {d : Option Deactivation}
    (valid : ∀ x ∈ d, x.Valid s.store) : Governed (s.set t d) where
  someone := inv.someone
  pending := (Function.forall_update_iff s.pending fun _ d => ∀ x ∈ d, x.Valid s.store).2
    ⟨valid, fun t' _ => inv.pending t'⟩

/-- The stores have changed, and no administrator has become inactive. -/
theorem Governed.of_kept {s : AdminState β} {store : Store β} (inv : Governed s)
    (kept : ∀ id, ActiveAdmin s.store id → ActiveAdmin store id) :
    Governed { s with store := store } where
  someone := inv.someone.imp kept
  pending t d member := ⟨kept _ (inv.pending t d member).active, (inv.pending t d member).other⟩

theorem currentAdmin_active {credentials : Option String} {admin : User}
    (h : currentAdmin A s credentials = .ok admin) : ActiveAdmin s admin.id := by
  obtain ⟨current, role⟩ := requireRole_ok h
  obtain ⟨member, active⟩ := getCurrentUser_active current
  exact ⟨admin, member, rfl, role, active⟩

theorem Governed.step {s s' : AdminState β} {e : AdminEvent} (inv : Governed s)
    (undisputed : s.Undisputed e) (h : s.step A e = some s') : Governed s' := by
  cases e with
  | check t credentials userId =>
    simp only [AdminState.step] at h
    split at h
    · cases h
    · split at h
      · cases h; exact inv
      · rename_i admin current
        split at h
        · cases h; exact inv
        · rename_i other
          cases h
          refine inv.set t ?_
          rintro _ ⟨⟩
          exact ⟨currentAdmin_active current, fun same => other same.symm⟩
  | load t =>
    simp only [AdminState.step] at h
    split at h
    · rename_i admin userId admitted
      cases h
      refine inv.set t fun d loaded => ?_
      obtain ⟨user, found, rfl⟩ := Option.map_eq_some_iff.1 loaded
      obtain ⟨active, other⟩ := inv.pending t _ admitted
      refine ⟨active, fun same => other (same.trans ?_)⟩
      exact (Table.lookup_eq_some found).2
    · cases h
  | commit t =>
    simp only [AdminState.step] at h
    split at h
    · rename_i admin user loaded
      split at h
      · cases h
        have kept : ∀ id, ActiveAdmin s.store id → id ≠ user.id → ActiveAdmin { s.store with
            users := s.store.users.modify user.id User.deactivated User.deactivated_id } id :=
          fun id active other => active.of_modify User.deactivated_id rfl (.inl other.symm)
        have apart : ∀ t', ∀ d ∈ s.pending t', d.admin.id ≠ user.id := fun t' d member same =>
          undisputed _ loaded t' d member (congrArg Int.ofNat same)
        have rest : Governed { s with store := { s.store with
            users := s.store.users.modify user.id User.deactivated User.deactivated_id } } := by
          refine ⟨⟨admin.id, kept _ (inv.pending t _ loaded).active (apart t _ loaded)⟩, ?_⟩
          intro t' d member
          obtain ⟨active, other⟩ := inv.pending t' d member
          exact ⟨kept _ active (apart t' d member), other⟩
        exact rest.set t fun _ member => by cases member
      · cases h
        exact inv.set t fun _ member => by cases member
    · cases h
  | fail t =>
    simp only [AdminState.step] at h
    split at h
    · cases h
      exact inv.set t fun _ member => by cases member
    · cases h
  | request r =>
    simp only [AdminState.step] at h
    split at h
    · cases h
    · rename_i other
      obtain ⟨store, served, rfl⟩ := Option.map_eq_some_iff.1 h
      obtain ⟨⟨_, resp⟩, answered, rfl⟩ := Option.map_eq_some_iff.1 served
      exact inv.of_kept fun id active => active.served (by simpa using other) answered
  | seedAdmin email password c =>
    obtain ⟨⟨store, result⟩, seeded, rfl⟩ := Option.map_eq_some_iff.1 h
    exact inv.of_kept fun id active => active.seeded seeded

/-- **An administrator remains.** From any stores with an active administrator, through every run of
requests, calls of `seed_admin` and deactivations that overlap in any way, an administrator is
active at every moment, as long as nobody's account is deactivated while he is deactivating
somebody himself. -/
theorem active_admin_remains {store : Store β} {es : List AdminEvent}
    (someone : ∃ id, ActiveAdmin store id)
    (undisputed : Run.Guarded (AdminState.step A) AdminState.Undisputed ⟨store, fun _ => none⟩ es) :
    Run.Throughout (AdminState.step A) (fun s => ∃ id, ActiveAdmin s.store id)
      ⟨store, fun _ => none⟩ es :=
  have start : Governed (⟨store, fun _ => none⟩ : AdminState β) :=
    ⟨someone, fun _ _ member => by cases member⟩
  (undisputed.throughout (fun _ _ _ inv cond h => Governed.step inv cond h) start).mono
    fun _ inv => inv.someone

/-- An API for examples, whose tokens are the users' ids. -/
def Api.byId : Api MemoryItem (List MemoryItem) :=
  { Api.sample with
    decodeAccessToken := fun token => some ⟨some (.string token)⟩
    int := fun text => if text = "1" then some 1 else if text = "2" then some 2 else none }

/-- Two administrators and a clone. -/
def twoAdmins : Store (List MemoryItem) :=
  { Store.empty with
    users := ⟨[⟨1, "root@x.org", "r", .admin, true, 0⟩, ⟨2, "ops@x.org", "o", .admin, true, 0⟩,
      ⟨3, "a@x.org", "a", .clone, true, 0⟩], by decide⟩ }

/-- Both deactivate the clone, and then one the other. -/
def overlappingDeactivations : List AdminEvent :=
  [.check 0 (some "1") 3, .check 1 (some "2") 3, .load 0, .load 1, .commit 0, .commit 1,
    .check 0 (some "1") 2, .load 0, .commit 0]

theorem admin_remains_of_overlapping_deactivations :
    (Run.exec (AdminState.step Api.byId) ⟨twoAdmins, fun _ => none⟩
        overlappingDeactivations).isSome = true ∧
      Run.Throughout (AdminState.step Api.byId) (fun s => ∃ id, ActiveAdmin s.store id)
        ⟨twoAdmins, fun _ => none⟩ overlappingDeactivations := by
  refine ⟨rfl, active_admin_remains ⟨1, _, List.mem_cons_self, rfl, rfl, rfl⟩ ?_⟩
  refine .cons rfl trivial <| .cons rfl trivial <| .cons rfl trivial <| .cons rfl trivial <|
    .cons rfl ?_ <| .cons rfl ?_ <| .cons rfl trivial <| .cons rfl trivial <| .cons rfl ?_ trivial
  · rintro _ ⟨⟩ (_ | _ | t) _ ⟨⟩ <;> decide
  · rintro _ ⟨⟩ (_ | _ | t) _ ⟨⟩
    decide
  · rintro _ ⟨⟩ (_ | _ | t) _ ⟨⟩
    decide

/-- Each deactivates the other. -/
def mutualDeactivation : List AdminEvent :=
  [.check 0 (some "1") 2, .check 1 (some "2") 1, .load 0, .load 1, .commit 0, .commit 1]

/-- Then nobody is left, and nobody can undo it but the script. -/
theorem nobody_left_of_mutual_deactivation :
    ∃ s, Run.exec (AdminState.step Api.byId) ⟨twoAdmins, fun _ => none⟩ mutualDeactivation =
      some s ∧ ¬ ∃ id, ActiveAdmin s.store id := by
  refine ⟨_, rfl, ?_⟩
  rintro ⟨id, u, member, -, role, active⟩
  have none : ∀ u ∈ (Run.exec (AdminState.step Api.byId) ⟨twoAdmins, fun _ => Option.none⟩
      mutualDeactivation).elim [] fun s => s.store.users.rows,
      ¬ (u.role = .admin ∧ u.isActive = true) := by decide
  exact none u member ⟨role, active⟩

/-! ## The call as a whole -/

/-- What `deactivate_user` has found when it answers with the user. -/
theorem deactivateUser_ok {credentials : Option String} {userId : Int} {c : Choice} {status : Nat}
    {body : Body ι} (h : deactivateUser A s credentials userId c = some (s', .ok status body)) :
    ∃ admin user, currentAdmin A s credentials = .ok admin ∧ userId ≠ admin.id ∧
      s.users.lookup userId = some user ∧
      s' = { s with users := s.users.modify user.id User.deactivated User.deactivated_id } := by
  unfold deactivateUser depends at h
  split at h
  · cases h
  · rename_i admin current
    simp only at h
    split at h
    · cases h
    · rename_i other
      split at h
      · cases h
      · rename_i user found
        split at h
        · cases h
        · split at h
          · cases h
          · cases h
            exact ⟨admin, user, current, other, found, rfl⟩

/-- The steps of a deactivation with nothing in between do what the request does. -/
theorem deactivateUser_steps {s : AdminState β} {t : Nat} {credentials : Option String}
    {userId : Int} {c : Choice} {store : Store β} {status : Nat} {body : Body ι}
    (free : s.pending t = none)
    (h : deactivateUser A s.store credentials userId c = some (store, .ok status body)) :
    Run.exec (AdminState.step A) s [.check t credentials userId, .load t, .commit t] =
      some { s with store := store } := by
  obtain ⟨admin, user, current, other, found, rfl⟩ := deactivateUser_ok h
  have slot : ∀ d d',
      Function.update (Function.update (Function.update s.pending t d) t d') t none =
        s.pending := by
    intro d d'
    rw [Function.update_idem, Function.update_idem, ← free, Function.update_eq_self]
  have admitted : s.step A (.check t credentials userId) =
      some (s.set t (some (.admitted admin userId))) := by
    simp only [AdminState.step, free, current, if_neg other]
  have loaded : (s.set t (some (.admitted admin userId))).step A (.load t) =
      some ((s.set t (some (.admitted admin userId))).set t (some (.loaded admin user))) := by
    simp only [AdminState.step, AdminState.set, Function.update_self, found, Option.map_some]
  rw [Run.exec_of_step admitted, Run.exec_of_step loaded]
  simp only [Run.exec, AdminState.step, AdminState.set, Function.update_self, slot]
  split
  · rfl
  · rename_i inactive
    have same : s.store.users.modify user.id User.deactivated User.deactivated_id =
        s.store.users := by
      refine Table.modify_eq_self _ fun x member key => ?_
      rw [Table.eq_of_key member (Table.lookup_eq_some found).1 key, User.deactivated,
        ← Bool.eq_false_of_not_eq_true inactive]
    rw [same]
    rfl

end Mycelium
