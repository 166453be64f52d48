import Mycelium.Api.Changes
import Mycelium.Logic.Run

/-!
# A clone changes only what it owns

What a clone's requests leave as it is: everything of another user, and everybody's
role, activity and tier. Each part is kept by every `Change`, and so along any
sequence of requests.
-/

namespace Mycelium

variable {ι β : Type} {A : Api ι β} {s s' : Store β}

/-- `v`'s rows, stream, buffer, backups and their objects are as before. -/
structure Untouched (v : Nat) (s s' : Store β) : Prop where
  user : s'.users.get? v = s.users.get? v
  profiles : ∀ q, q.userId = some v → (q ∈ s'.profiles ↔ q ∈ s.profiles)
  streams : ∀ q ∈ s.profiles, q.userId = some v → s'.streams q.id = s.streams q.id
  buffers : ∀ q ∈ s.profiles, q.userId = some v → s'.buffers q.id = s.buffers q.id
  backups : ∀ q ∈ s.profiles, q.userId = some v → ∀ b, b.cloneId = q.id →
    (b ∈ s'.backups ↔ b ∈ s.backups)
  objects : ∀ q ∈ s.profiles, q.userId = some v → ∀ b ∈ s.backups, b.cloneId = q.id →
    s'.objects b.storageKey = s.objects b.storageKey

/-- Nobody's role, activity or tier has changed, and there is no new admin. -/
structure Privileges (s s' : Store β) : Prop where
  users : ∀ u ∈ s.users, ∃ u' ∈ s'.users,
    u'.id = u.id ∧ u'.role = u.role ∧ u'.isActive = u.isActive
  tiers : ∀ p ∈ s.profiles, ∃ p' ∈ s'.profiles,
    p'.id = p.id ∧ p'.subscriptionTier = p.subscriptionTier
  admins : ∀ u' ∈ s'.users, u'.role = .admin → ∃ u ∈ s.users, u.id = u'.id ∧ u.role = .admin

theorem Untouched.refl (v : Nat) (s : Store β) : Untouched v s s where
  user := rfl
  profiles _ _ := Iff.rfl
  streams _ _ _ := rfl
  buffers _ _ _ := rfl
  backups _ _ _ _ _ := Iff.rfl
  objects _ _ _ _ _ _ := rfl

theorem Untouched.trans {v : Nat} {s₁ s₂ s₃ : Store β} (first : Untouched v s₁ s₂)
    (second : Untouched v s₂ s₃) : Untouched v s₁ s₃ := by
  have still : ∀ q ∈ s₁.profiles, q.userId = some v → q ∈ s₂.profiles :=
    fun q member own => (first.profiles q own).2 member
  constructor
  · exact second.user.trans first.user
  · exact fun q own => (second.profiles q own).trans (first.profiles q own)
  · exact fun q member own =>
      (second.streams q (still q member own) own).trans (first.streams q member own)
  · exact fun q member own =>
      (second.buffers q (still q member own) own).trans (first.buffers q member own)
  · exact fun q member own b ofClone =>
      (second.backups q (still q member own) own b ofClone).trans
        (first.backups q member own b ofClone)
  · intro q member own b listed ofClone
    have later := (first.backups q member own b ofClone).2 listed
    exact (second.objects q (still q member own) own b later ofClone).trans
      (first.objects q member own b listed ofClone)

theorem Privileges.refl (s : Store β) : Privileges s s where
  users u member := ⟨u, member, rfl, rfl, rfl⟩
  tiers p member := ⟨p, member, rfl, rfl⟩
  admins u member role := ⟨u, member, rfl, role⟩

theorem Privileges.trans {s₁ s₂ s₃ : Store β} (first : Privileges s₁ s₂)
    (second : Privileges s₂ s₃) : Privileges s₁ s₃ := by
  constructor
  · intro u member
    obtain ⟨u₂, member₂, id₂, role₂, active₂⟩ := first.users u member
    obtain ⟨u₃, member₃, id₃, role₃, active₃⟩ := second.users u₂ member₂
    exact ⟨u₃, member₃, id₃.trans id₂, role₃.trans role₂, active₃.trans active₂⟩
  · intro p member
    obtain ⟨p₂, member₂, id₂, tier₂⟩ := first.tiers p member
    obtain ⟨p₃, member₃, id₃, tier₃⟩ := second.tiers p₂ member₂
    exact ⟨p₃, member₃, id₃.trans id₂, tier₃.trans tier₂⟩
  · intro u₃ member₃ role₃
    obtain ⟨u₂, member₂, id₂, role₂⟩ := second.admins u₃ member₃ role₃
    obtain ⟨u₁, member₁, id₁, role₁⟩ := first.admins u₂ member₂ role₂
    exact ⟨u₁, member₁, id₁.trans id₂, role₁⟩

/-- Profiles of different users have different ids. -/
theorem profile_id_ne {p q : CloneProfile} {u v : Nat} (other : u ≠ v) (hp : p ∈ s.profiles)
    (hq : q ∈ s.profiles) (ofU : p.userId = some u) (ofV : q.userId = some v) : q.id ≠ p.id := by
  intro same
  have eq := Table.eq_of_key hq hp same
  rw [eq, ofU] at ofV
  exact other (Option.some.inj ofV)

theorem Change.untouched {u v : Nat} (other : u ≠ v) (change : Change s u s') :
    Untouched v s s' := by
  cases change with
  | nothing => exact .refl v s
  | profile p member own payload =>
    refine { Untouched.refl v s with profiles := fun q ofV => ?_ }
    constructor
    · intro after
      rw [Table.mem_modify] at after
      obtain ⟨x, before, rfl⟩ := after
      split at ofV
      · rename_i same
        have eq : x = p := Table.eq_of_key before member same
        rw [eq] at ofV
        exact absurd (Option.some.inj (own.symm.trans ofV)) other
      · rename_i apart
        rwa [if_neg apart]
    · intro before
      have apart := profile_id_ne other member before own ofV
      rwa [Table.mem_modify_of_ne apart]
  | stream p member own stream tasks =>
    refine { Untouched.refl v s with streams := fun q before ofV => ?_ }
    exact Function.update_of_ne (profile_id_ne other member before own ofV) _ _
  | restored p member own b listed ofClone now =>
    refine { Untouched.refl v s with backups := fun q before ofV b' ofV' => ?_ }
    have apart := profile_id_ne other member before own ofV
    constructor
    · intro after
      rw [Table.mem_modify] at after
      obtain ⟨x, old, rfl⟩ := after
      split at ofV'
      · rename_i same
        have eq : x = b := Table.eq_of_key old listed same
        rw [eq] at ofV'
        exact absurd (ofV'.symm.trans ofClone) apart
      · rename_i different
        rwa [if_neg different]
    · intro old
      have different : b'.id ≠ b.id := by
        intro same
        rw [← ofV', Table.eq_of_key old listed same, ofClone] at apart
        exact apart rfl
      rwa [Table.mem_modify_of_ne different]
  | uploaded key fresh raw =>
    refine { Untouched.refl v s with objects := fun q before ofV b listed ofClone => ?_ }
    exact Store.objects_putObject_of_ne (fresh.key_ne listed) raw
  | resurrected p member own key fresh raw b ofClone stored backups inserted =>
    refine { Untouched.refl v s with
      backups := fun q before ofV b' ofV' => ?_
      objects := fun q before ofV b listed ofClone => ?_ }
    · rw [Table.mem_of_insert inserted]
      refine or_iff_left fun same => ?_
      rw [same, ofClone] at ofV'
      exact profile_id_ne other member before own ofV ofV'.symm
    · exact Store.objects_putObject_of_ne (fresh.key_ne listed) raw

theorem Change.privileges {u : Nat} (change : Change s u s') : Privileges s s' := by
  cases change with
  | profile p member own payload =>
    refine { Privileges.refl s with tiers := fun q before => ?_ }
    by_cases same : q.id = p.id
    · refine ⟨payload.apply q, ?_, rfl, rfl⟩
      rw [Table.mem_modify]
      exact ⟨q, before, by rw [if_pos same]⟩
    · refine ⟨q, ?_, rfl, rfl⟩
      rwa [Table.mem_modify_of_ne same]
  | _ => exact { Privileges.refl s with }

theorem Registered.untouched {v : Nat} (known : (s.users.get? v).isSome = true)
    (registered : Registered s s') : Untouched v s s' := by
  obtain ⟨user, profile, role, linked, users, profiles, newUser, newProfile⟩ := registered
  obtain ⟨old, found⟩ := Option.isSome_iff_exists.1 known
  obtain ⟨member, key⟩ := Table.get?_eq_some.1 found
  have other : v ≠ user.id := key ▸ Table.key_ne_of_insert newUser member
  refine { Untouched.refl v s with
    user := Table.get?_of_insert newUser other
    profiles := fun q ofV => ?_ }
  rw [Table.mem_of_insert newProfile]
  refine or_iff_left fun same => ?_
  rw [same, linked] at ofV
  exact other (Option.some.inj ofV).symm

theorem Registered.privileges (registered : Registered s s') : Privileges s s' := by
  obtain ⟨user, profile, role, linked, users, profiles, newUser, newProfile⟩ := registered
  constructor
  · exact fun u member => ⟨u, (Table.mem_of_insert newUser).2 (.inl member), rfl, rfl, rfl⟩
  · exact fun p member => ⟨p, (Table.mem_of_insert newProfile).2 (.inl member), rfl, rfl⟩
  · intro u member admin
    rcases (Table.mem_of_insert newUser).1 member with old | rfl
    · exact ⟨u, old, rfl, admin⟩
    · cases role.symm.trans admin

/-- The request is unauthenticated, or its token is that of a clone other than `v`. -/
def Request.Powerless (A : Api ι β) (v : Nat) (s : Store β) (r : Request) : Prop :=
  ∀ user, getCurrentUser A s r.credentials = .ok user → user.id ≠ v ∧ user.role = .clone

theorem Request.Powerless.kept {v : Nat} {r : Request} (powerless : r.Powerless A v s)
    (known : (s.users.get? v).isSome = true) (h : serve A s r = some s') :
    Untouched v s s' ∧ Privileges s s' := by
  rcases serve_change h with rfl | ⟨_, registered⟩ | ⟨user, current, change⟩
  · exact ⟨.refl v s', .refl s'⟩
  · exact ⟨registered.untouched known, registered.privileges⟩
  · obtain ⟨other, clone⟩ := powerless user current
    rcases change with ⟨admin, _⟩ | change
    · cases clone.symm.trans admin
    · exact ⟨change.untouched other, change.privileges⟩

/-- **A clone changes only what it owns**, over any sequence of requests; and a request that fails
authentication changes nothing unless it registers an account. -/
theorem clone_changes_only_its_own (A : Api ι β) (v : Nat) (s s' : Store β) (rs : List Request)
    (known : (s.users.get? v).isSome = true) (run : Run.exec (serve A) s rs = some s')
    (powerless : Run.Guarded (serve A) (fun s r => r.Powerless A v s) s rs) :
    Untouched v s s' ∧ Privileges s s' ∧
      ∀ r s'', serve A s' r = some s'' → (∀ user, getCurrentUser A s' r.credentials ≠ .ok user) →
        r.route.registers = false → s'' = s' := by
  have kept : Untouched v s s' ∧ Privileges s s' := by
    refine Run.Guarded.invariant (I := fun x => Untouched v s x ∧ Privileges s x) ?_
      ⟨.refl v s, .refl s⟩ powerless run
    intro x r x' inv powerless h
    have still : (x.users.get? v).isSome = true := by rw [inv.1.user]; exact known
    obtain ⟨untouched, privileges⟩ := powerless.kept still h
    exact ⟨inv.1.trans untouched, inv.2.trans privileges⟩
  refine ⟨kept.1, kept.2, fun r s'' h refused other => ?_⟩
  rcases serve_change h with same | ⟨registers, _⟩ | ⟨user, current, _⟩
  · exact same
  · cases other.symm.trans registers
  · exact absurd current (refused user)

/-- The second clone writes a memory, renames itself, and tries to rename the first. -/
def renames : List Request :=
  [⟨some "token", .writeMemory ⟨"m", none⟩, choiceAt 0 ⟨1, 0⟩⟩,
    ⟨some "token", .updateProfile 2 ⟨some "gamma", none⟩, choiceAt 0 ⟨1, 0⟩⟩,
    ⟨some "token", .updateProfile 1 ⟨some "delta", none⟩, choiceAt 0 ⟨1, 0⟩⟩]

theorem renames_change_only_own_profile :
    ∃ s', Run.exec (serve Api.sample) twoClones renames = some s' ∧
      s'.profiles.rows ≠ twoClones.profiles.rows ∧ (s'.streams 2).length = 1 ∧
      Untouched 1 twoClones s' ∧ Privileges twoClones s' := by
  refine ⟨_, rfl, by decide, by decide, ?_⟩
  have both := clone_changes_only_its_own Api.sample 1 twoClones _ renames rfl rfl <|
    .cons rfl (fun user current => by cases current; decide) <|
    .cons rfl (fun user current => by cases current; decide) <|
    .cons rfl (fun user current => by cases current; decide) trivial
  exact ⟨both.1, both.2.1⟩

end Mycelium
