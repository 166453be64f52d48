import Mycelium.Api.Requests

/-!
# What a request can do to the stores

`Change` lists what a request of a clone can make of the stores: nothing, or a
write to the caller's own profile, stream or backups, with an object under a
fresh key at most; `AdminChange` is the list for an admin, and `Registered` what a
registration makes of them. `serve_change` reads it off `RequestStep`.
-/

namespace Mycelium

variable {ι β : Type}

/-- What a request of the clone user `u` can make of the stores. -/
inductive Change (s : Store β) (u : Nat) : Store β → Prop where
  | nothing : Change s u s
  | profile (p : CloneProfile) (member : p ∈ s.profiles) (own : p.userId = some u)
      (payload : ProfileUpdate) :
      Change s u { s with profiles := s.profiles.modify p.id payload.apply payload.apply_id }
  | stream (p : CloneProfile) (member : p ∈ s.profiles) (own : p.userId = some u)
      (stream : Stream) (tasks : List Task) :
      Change s u { s with streams := Function.update s.streams p.id stream, tasks := tasks }
  | restored (p : CloneProfile) (member : p ∈ s.profiles) (own : p.userId = some u)
      (b : MemoryBackup) (listed : b ∈ s.backups) (ofClone : b.cloneId = p.id) (now : Int) :
      Change s u { s with
        backups := s.backups.modify b.id (MemoryBackup.restored · now)
          (MemoryBackup.restored_id now) }
  | uploaded (key : ObjectKey) (fresh : s.Fresh key) (raw : β) : Change s u (s.putObject key raw)
  | resurrected (p : CloneProfile) (member : p ∈ s.profiles) (own : p.userId = some u)
      (key : ObjectKey) (fresh : s.Fresh key) (raw : β) (b : MemoryBackup) (ofClone : b.cloneId = p.id)
      (stored : b.storageKey = key) (backups : Table MemoryBackup MemoryBackup.id)
      (inserted : s.backups.insert b = some backups) :
      Change s u { s.putObject key raw with backups := backups }

/-- What an admin's request can do. -/
inductive AdminChange (s : Store β) : Store β → Prop where
  | nothing : AdminChange s s
  | profile (p : CloneProfile) (payload : ProfileUpdate) :
      AdminChange s { s with
        profiles := s.profiles.modify p.id payload.apply payload.apply_id }
  | subscribed (p : CloneProfile) (tier : SubscriptionTier) :
      AdminChange s { s with
        profiles := s.profiles.modify p.id (CloneProfile.subscribed · tier)
          (CloneProfile.subscribed_id tier) }
  | queued (tasks : List Task) : AdminChange s { s with tasks := tasks }
  | deactivated (user : User) :
      AdminChange s { s with
        users := s.users.modify user.id User.deactivated User.deactivated_id }

/-- A new clone account. -/
inductive Registered (s : Store β) : Store β → Prop where
  | mk (user : User) (profile : CloneProfile) (role : user.role = .clone)
      (linked : profile.userId = some user.id) (users : Table User User.id)
      (profiles : Table CloneProfile CloneProfile.id) (newUser : s.users.insert user = some users)
      (newProfile : s.profiles.insert profile = some profiles) :
      Registered s { s with users := users, profiles := profiles }

variable {A : Api ι β} {F : Format ι β} {s s' : Store β} {resp : Response ι} {c : Choice}

theorem RestoreStep.change {u : Nat} {p : CloneProfile} {backup : MemoryBackup}
    (step : RestoreStep F s backup c s' resp) (member : p ∈ s.profiles) (own : p.userId = some u)
    (listed : backup ∈ s.backups) (ofClone : backup.cloneId = p.id) : Change s u s' := by
  cases step with
  | uncommitted => exact .nothing
  | committed => exact .restored p member own backup listed ofClone c.now

theorem ResurrectStep.change {u : Nat} {p : CloneProfile} {sourceProfileId : Int}
    (step : ResurrectStep F s p sourceProfileId c s' resp) (member : p ∈ s.profiles)
    (own : p.userId = some u) : Change s u s' := by
  cases step with
  | refused => exact .nothing
  | raised => exact .nothing
  | uncommitted key raw fresh => exact .uploaded key fresh raw
  | committed latest raw backups resurrects read fresh inserted =>
    exact .resurrected p member own _ fresh raw _ rfl rfl backups inserted

/-- **What a request can do to the stores**, by who sends it. -/
theorem handle_change {r : Request} (h : handle A s r = some (s', resp)) :
    s' = s ∨ r.route.registers = true ∧ Registered s s' ∨
      ∃ user, getCurrentUser A s r.credentials = .ok user ∧
        (user.role = .admin ∧ AdminChange s s' ∨ Change s user.id s') := by
  cases handle_step h with
  | unchanged => exact .inl rfl
  | registered email user profile users profiles resp registers role linked lowered newEmail
      newDesignation newUser newProfile =>
    exact .inr (.inl ⟨registers, .mk user profile role linked users profiles newUser newProfile⟩)
  | updated user p payload resp current member allowed =>
    refine .inr (.inr ⟨user, current, ?_⟩)
    rcases allowed with admin | own
    · exact .inl ⟨admin, .profile p payload⟩
    · exact .inr (.profile p member own payload)
  | wrote p stream tasks resp dependency =>
    obtain ⟨user, current, member, own⟩ := own_profile dependency
    exact .inr (.inr ⟨user, current, .inr (.stream p member own stream tasks)⟩)
  | restore backupId backup s' resp route dependency step =>
    obtain ⟨p, ownProfile, listed, _, ofClone⟩ := getOwnBackup_ok dependency
    obtain ⟨user, current, member, own⟩ := own_profile ownProfile
    exact .inr (.inr ⟨user, current, .inr (step.change member own listed ofClone)⟩)
  | resurrect sourceProfileId p s' resp route dependency step =>
    obtain ⟨user, current, member, own⟩ := own_profile dependency
    exact .inr (.inr ⟨user, current, .inr (step.change member own)⟩)
  | subscribed admin p tier resp current role =>
    exact .inr (.inr ⟨admin, current, .inl ⟨role, .subscribed p tier⟩⟩)
  | queued admin tasks resp current role =>
    exact .inr (.inr ⟨admin, current, .inl ⟨role, .queued tasks⟩⟩)
  | deactivated admin user resp current role =>
    exact .inr (.inr ⟨admin, current, .inl ⟨role, .deactivated user⟩⟩)

theorem serve_change {r : Request} (h : serve A s r = some s') :
    s' = s ∨ r.route.registers = true ∧ Registered s s' ∨
      ∃ user, getCurrentUser A s r.credentials = .ok user ∧
        (user.role = .admin ∧ AdminChange s s' ∨ Change s user.id s') := by
  obtain ⟨⟨stores, resp⟩, answered, same⟩ := Option.map_eq_some_iff.1 h
  change stores = s' at same
  subst same
  exact handle_change answered

end Mycelium
