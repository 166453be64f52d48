import Mycelium.Api.Requests
import Mycelium.Logic.Run

/-!
# Is a live clone ever forked?

`resurrect_from` checks the source's status once, then selects its latest backup,
reads the object, writes the copy and commits. Here each of these is a step of its
own, and profile updates come between them. The status is its owner's to change
at any time: at the commit it is the last one written since the check, and what the
check has found only where none was. The state keeps a history of the statuses
written, to say so.
-/

namespace Mycelium

variable {ι β : Type}

/-- What an update writes: the profile and the payload, if it gets to a commit that succeeds. -/
def profileWrite (s : Store β) (profile : CloneProfile) (payload : ProfileUpdate) (c : Choice) :
    Option (CloneProfile × ProfileUpdate) :=
  if payload.valid = false then none
  else if c.fault = some .commit then none
  else if s.profiles.rows.any fun p =>
      p.id ≠ profile.id && p.designation = (payload.apply profile).designation then none
  else some (profile, payload)

/-- The profile a request updates, and with what. -/
def Request.updates (A : Api ι β) (s : Store β) (r : Request) :
    Option (CloneProfile × ProfileUpdate) :=
  match r.route with
  | .updateOwnProfile payload =>
    match getOwnProfile A s r.credentials with
    | .error _ => none
    | .ok profile => profileWrite s profile payload r.choice
  | .updateProfile profileId payload =>
    match getCurrentUser A s r.credentials with
    | .error _ => none
    | .ok user =>
      match loadAccessible s profileId user with
      | .error _ => none
      | .ok profile => profileWrite s profile payload r.choice
  | _ => none

/-- The status the request writes, and the clone whose it is. -/
def Request.writesStatus (A : Api ι β) (s : Store β) (r : Request) : Option (Nat × String) :=
  (r.updates A s).bind fun (p, payload) => payload.status.map fun status => (p.id, status)

/-- How far a `resurrect_from` request has got. -/
inductive ResurrectionPoint (β : Type) where
  /-- the source was found, and not active -/
  | checked
  | selected (latest : MemoryBackup)
  | loaded (latest : MemoryBackup) (raw : β)
  | copied (latest : MemoryBackup) (key : ObjectKey)

/-- A request under way: the caller's profile as loaded, and the source. -/
structure Resurrection (β : Type) where
  profile : CloneProfile
  sourceId : Nat
  point : ResurrectionPoint β
  /-- history: how many statuses had been written at the check -/
  checkedAt : Nat

/-- A committed resurrected backup and the clone it was copied from. -/
structure Fork where
  sourceId : Nat
  backup : MemoryBackup
deriving DecidableEq, Repr

structure ForkState (β : Type) where
  store : Store β
  pending : Nat → Option (Resurrection β)
  /-- history -/
  forks : List Fork
  /-- history: the statuses the updates have written, each with its clone -/
  statuses : List (Nat × String)

inductive ForkEvent where
  /-- PATCH /profiles/me or /profiles/{id} -/
  | update (r : Request)
  | check (i : Nat) (credentials : Option String) (sourceProfileId : Int)
  | select (i : Nat) (latest : Option MemoryBackup)
  | getObject (i : Nat)
  | putObject (i : Nat) (uuid : Nat)
  | commit (i : Nat) (id : Nat) (createdAt now : Int)
  /-- a call of the request raises, or its process dies -/
  | stop (i : Nat)

def Route.updatesProfile : Route → Bool
  | .updateOwnProfile .. | .updateProfile .. => true
  | _ => false

/-- `resurrect_from` up to and including its status check. -/
def checkSource (s : Store β) (profile : CloneProfile) (sourceProfileId : Int) :
    Except HttpError CloneProfile :=
  if sourceProfileId = profile.id then .error ⟨400, "Cannot resurrect from your own profile"⟩
  else
    match s.profiles.lookup sourceProfileId with
    | none => .error ⟨404, "Source clone not found"⟩
    | some source =>
      if source.status = activeStatus then
        .error ⟨409, "Cannot resurrect from a clone that is still active"⟩
      else .ok source

namespace ForkState

def start (store : Store β) : ForkState β := ⟨store, fun _ => none, [], []⟩

/-- The request `i` is now at `point`. -/
def goto (s : ForkState β) (i : Nat) (r : Resurrection β) (point : ResurrectionPoint β) :
    ForkState β :=
  { s with pending := Function.update s.pending i (some { r with point := point }) }

/-- The request `i` has ended. -/
def finish (s : ForkState β) (i : Nat) : ForkState β :=
  { s with pending := Function.update s.pending i none }

/-- One event; `none` when it is not enabled. -/
def step (A : Api ι β) (s : ForkState β) : ForkEvent → Option (ForkState β)
  | .update r =>
    if r.route.updatesProfile then
      (serve A s.store r).map fun store =>
        { s with store := store, statuses := s.statuses ++ (r.writesStatus A s.store).toList }
    else none
  | .check i credentials sourceProfileId =>
    if (s.pending i).isNone then
      match getOwnProfile A s.store credentials with
      | .error _ => some s
      | .ok profile =>
        match checkSource s.store profile sourceProfileId with
        | .error _ => some s
        | .ok source => some (s.goto i ⟨profile, source.id, .checked, s.statuses.length⟩ .checked)
    else none
  | .select i latest =>
    match s.pending i with
    | some r =>
      match r.point with
      | .checked =>
        if LatestOf (s.store.backupsOf r.sourceId) latest then
          match latest with
          | none => some (s.finish i)
          | some latest => some (s.goto i r (.selected latest))
        else none
      | _ => none
    | none => none
  | .getObject i =>
    match s.pending i with
    | some r =>
      match r.point with
      | .selected latest =>
        match s.store.objects latest.storageKey with
        | none => some (s.finish i)
        | some raw => some (s.goto i r (.loaded latest raw))
      | _ => none
    | none => none
  | .putObject i uuid =>
    match s.pending i with
    | some r =>
      match r.point with
      | .loaded latest raw =>
        let key := backupKey r.profile.id (.utc latest.periodStart) (.utc latest.periodEnd) uuid
        if s.store.Fresh key then
          some { s.goto i r (.copied latest key) with store := s.store.putObject key raw }
        else none
      | _ => none
    | none => none
  | .commit i id createdAt now =>
    match s.pending i with
    | some r =>
      match r.point with
      | .copied latest key =>
        let resurrected : MemoryBackup := ⟨id, r.profile.id, latest.periodStart, latest.periodEnd,
          latest.entryCount, key, r.profile.subscriptionTier, createdAt, some now⟩
        match s.store.backups.insert resurrected with
        | none => none
        | some backups =>
          some { s.finish i with
            store := { s.store with backups := backups }
            forks := s.forks ++ [⟨r.sourceId, resurrected⟩] }
      | _ => none
    | none => none
  | .stop i => if (s.pending i).isSome then some (s.finish i) else none

/-- The statuses written to the source since the request's check, the last one last. -/
def statusesSince (s : ForkState β) (r : Resurrection β) : List String :=
  ((s.statuses.drop r.checkedAt).filter fun write => write.1 = r.sourceId).map Prod.snd

/-- No clone from which a backup was resurrected is active. -/
def NoLiveFork (s : ForkState β) : Prop :=
  ∀ f ∈ s.forks, ∀ p ∈ s.store.profiles, p.id = f.sourceId → p.status ≠ activeStatus

end ForkState

/-- The write of a profile update, if there is one. -/
def Store.write (s : Store β) : Option (CloneProfile × ProfileUpdate) → Store β
  | none => s
  | some (p, payload) =>
    { s with profiles := s.profiles.modify p.id payload.apply payload.apply_id }

namespace ForkState

/-- The last status written to a source between a request's check and its commit is not "active", and
none is once a backup of the clone has been resurrected. -/
def Unrevived (A : Api ι β) (s : ForkState β) : ForkEvent → Prop
  | .commit i .. => ∀ r, s.pending i = some r →
      (s.statusesSince r).getLast? ≠ some activeStatus
  | .update r => ∀ cloneId, r.writesStatus A s.store = some (cloneId, activeStatus) →
      ∀ f ∈ s.forks, f.sourceId ≠ cloneId
  | _ => True

end ForkState

variable {A : Api ι β} {s s' : Store β} {resp : Response ι} {c : Choice}

theorem applyUpdate_writes {profile : CloneProfile} {payload : ProfileUpdate}
    (h : validated s payload.valid (applyUpdate s profile payload c) = some (s', resp)) :
    s' = s.write (profileWrite s profile payload c) := by
  unfold validated at h
  unfold profileWrite
  split at h
  · rename_i valid
    rw [if_neg (Bool.not_eq_false _ ▸ valid)]
    unfold applyUpdate at h
    simp only at h
    split at h
    · rename_i fails
      rw [if_pos fails]
      cases h
      rfl
    · rename_i commits
      rw [if_neg commits]
      split at h
      · rename_i taken
        rw [if_pos taken]
        cases h
        rfl
      · rename_i free
        rw [if_neg free]
        split at h
        · cases h
          rfl
        · cases h
          rfl
  · rename_i invalid
    rw [if_pos (Bool.not_eq_true _ ▸ invalid)]
    cases h
    rfl

/-- **What a profile update writes.** -/
theorem serve_updates {r : Request} (updates : r.route.updatesProfile = true)
    (h : serve A s r = some s') :
    s' = s.write (r.updates A s) ∧ ∀ p payload, r.updates A s = some (p, payload) →
      p ∈ s.profiles := by
  obtain ⟨⟨_, resp⟩, answered, rfl⟩ := Option.map_eq_some_iff.1 h
  obtain ⟨token, route, c⟩ := r
  have target : ∀ {profile payload p payload'},
      profileWrite s profile payload c = some (p, payload') → p = profile := by
    intro profile payload p payload' found
    unfold profileWrite at found
    split at found
    · cases found
    · split at found
      · cases found
      · split at found
        · cases found
        · cases found
          rfl
  cases route with
  | updateOwnProfile payload =>
    change updateOwnProfile A s token payload c = some (_, resp) at answered
    simp only [Request.updates]
    unfold updateOwnProfile depends at answered
    cases own : getOwnProfile A s token with
    | error e =>
      rw [own] at answered
      cases answered
      exact ⟨rfl, fun _ _ found => by cases found⟩
    | ok profile =>
      rw [own] at answered
      obtain ⟨_, _, member, _⟩ := own_profile own
      exact ⟨applyUpdate_writes answered, fun p payload found => target found ▸ member⟩
  | updateProfile profileId payload =>
    change updateProfile A s token profileId payload c = some (_, resp) at answered
    simp only [Request.updates]
    unfold updateProfile depends at answered
    cases current : getCurrentUser A s token with
    | error e =>
      rw [current] at answered
      cases answered
      exact ⟨rfl, fun _ _ found => by cases found⟩
    | ok user =>
      rw [current] at answered
      simp only at answered ⊢
      cases accessible : loadAccessible s profileId user with
      | error e =>
        rw [accessible] at answered
        refine ⟨?_, fun _ _ found => by cases found⟩
        rcases validated_some answered with same | answered
        · exact same
        · cases answered
          rfl
      | ok profile =>
        rw [accessible] at answered
        have member := (loadAccessible_ok accessible).1
        exact ⟨applyUpdate_writes answered, fun p payload found => target found ▸ member⟩
  | _ => cases updates

namespace ForkState

variable {s s' : ForkState β}

/-- A step that changes neither the profiles nor the history. -/
theorem NoLiveFork.congr (inv : s.NoLiveFork) (profiles : s'.store.profiles = s.store.profiles)
    (forks : s'.forks = s.forks) : s'.NoLiveFork := by
  unfold NoLiveFork
  rw [profiles, forks]
  exact inv

/-- **A request that nothing interrupts is the route**: run step by step it leaves the same stores,
and one fork in the history. -/
theorem uninterrupted {store store' : Store β} {credentials : Option String}
    {profile : CloneProfile} {sourceProfileId : Int} {latest : MemoryBackup} {c : Choice}
    (own : getOwnProfile A store credentials = .ok profile)
    (resurrects : Resurrects store profile sourceProfileId c latest)
    (h : resurrect A store credentials sourceProfileId c = some (store', resp)) :
    ∃ source, store.profiles.lookup sourceProfileId = some source ∧
      ∃ s', Run.exec (step A) (.start store) [.check 0 credentials sourceProfileId,
          .select 0 (some latest), .getObject 0, .putObject 0 c.uuid,
          .commit 0 c.id c.createdAt c.now] = some s' ∧
        s'.store = store' ∧ s'.forks = [⟨source.id, resurrectedRow profile latest c⟩] := by
  obtain ⟨source, found, inactive, isLatest⟩ := resurrects.source
  refine ⟨source, found, ?_⟩
  unfold resurrect depends at h
  rw [own] at h
  have ended := resurrectFrom_step h
  cases ended with
  | refused e stops => exact absurd resurrects (stops latest)
  | raised stops => exact absurd resurrects (stops latest)
  | uncommitted key raw fresh stops => exact absurd resurrects (stops latest)
  | committed latest' raw backups resurrects' read fresh inserted =>
    cases resurrects.newest.symm.trans resurrects'.newest
    have checked : checkSource store profile sourceProfileId = .ok source := by
      unfold checkSource
      rw [if_neg resurrects.other, found]
      simp only [if_neg inactive]
    have free : store.Fresh (backupKey profile.id (.utc latest.periodStart)
        (.utc latest.periodEnd) c.uuid) := fresh
    have inserted' : (store.putObject (backupKey profile.id (.utc latest.periodStart)
        (.utc latest.periodEnd) c.uuid) raw).backups.insert (resurrectedRow profile latest c) =
        some backups := inserted
    unfold resurrectedRow at inserted'
    simp only [Run.exec, step, start, goto, finish, own, checked, Option.isNone_none, ↓reduceIte,
      Option.bind_some, Function.update_self, if_pos isLatest, read, if_pos free, inserted']
    exact ⟨_, rfl, rfl, rfl⟩

/-- The request `i` makes a backup of a clone. -/
theorem commit_step {i id : Nat} {createdAt now : Int}
    (h : s.step A (.commit i id createdAt now) = some s') :
    ∃ r backup, s.pending i = some r ∧ s'.store.profiles = s.store.profiles ∧
      s'.forks = s.forks ++ [⟨r.sourceId, backup⟩] ∧ s'.statuses = s.statuses ∧
      s'.pending = Function.update s.pending i none := by
  simp only [step] at h
  split at h
  · rename_i r found
    split at h
    · split at h
      · cases h
      · cases h
        exact ⟨r, _, found, rfl, rfl, rfl, rfl⟩
    · cases h
  · cases h

/-- A profile update. -/
theorem update_step {r : Request} (h : s.step A (.update r) = some s') :
    s' = { s with
        store := s.store.write (r.updates A s.store)
        statuses := s.statuses ++ (r.writesStatus A s.store).toList } ∧
      ∀ p payload, r.updates A s.store = some (p, payload) → p ∈ s.store.profiles := by
  simp only [step] at h
  split at h
  · rename_i updates
    obtain ⟨store, served, rfl⟩ := Option.map_eq_some_iff.1 h
    obtain ⟨rfl, member⟩ := serve_updates updates served
    exact ⟨rfl, member⟩
  · cases h

/-- A request that goes on with the check it has passed, or has passed it just now. -/
def Continues (s : ForkState β) (i : Nat) (r : Resurrection β) : Prop :=
  (∃ r₀, s.pending i = some r₀ ∧ r.sourceId = r₀.sourceId ∧ r.checkedAt = r₀.checkedAt) ∨
    r.checkedAt = s.statuses.length ∧
      ∃ p ∈ s.store.profiles, p.id = r.sourceId ∧ p.status ≠ activeStatus

theorem continues_goto {i : Nat} {r : Resurrection β} {point : ResurrectionPoint β}
    (on : s.Continues i { r with point := point }) :
    ∀ i' r', (s.goto i r point).pending i' = some r' → s.Continues i' r' := by
  intro i' r' found
  change Function.update s.pending i _ i' = some r' at found
  by_cases here : i' = i
  · subst here
    rw [Function.update_self] at found
    cases found
    exact on
  · rw [Function.update_of_ne here] at found
    exact .inl ⟨r', found, rfl, rfl⟩

theorem continues_finish (i : Nat) :
    ∀ i' r', (s.finish i).pending i' = some r' → s.Continues i' r' := by
  intro i' r' found
  change Function.update s.pending i _ i' = some r' at found
  by_cases here : i' = i
  · rw [here, Function.update_self] at found
    cases found
  · rw [Function.update_of_ne here] at found
    exact .inl ⟨r', found, rfl, rfl⟩

/-- The status check lets a request pass only when its source is not active. -/
theorem checkSource_ok {store : Store β} {profile source : CloneProfile} {sourceProfileId : Int}
    (h : checkSource store profile sourceProfileId = .ok source) :
    source ∈ store.profiles ∧ source.status ≠ activeStatus := by
  unfold checkSource at h
  split at h
  · cases h
  · split at h
    · cases h
    · rename_i found
      split at h
      · cases h
      · rename_i inactive
        cases h
        exact ⟨(Table.lookup_eq_some found).1, inactive⟩

/-- The other steps of a request. -/
structure Proceeds (s s' : ForkState β) : Prop where
  profiles : s'.store.profiles = s.store.profiles
  forks : s'.forks = s.forks
  statuses : s'.statuses = s.statuses
  pending : ∀ i r, s'.pending i = some r → s.Continues i r

theorem proceeds_step {e : ForkEvent} (update : ∀ r, e ≠ .update r)
    (commit : ∀ i id createdAt now, e ≠ .commit i id createdAt now) (h : s.step A e = some s') :
    s.Proceeds s' := by
  have same : s.Proceeds s := ⟨rfl, rfl, rfl, fun i r found => .inl ⟨r, found, rfl, rfl⟩⟩
  have goto : ∀ {i : Nat} {r : Resurrection β} {point : ResurrectionPoint β},
      s.pending i = some r → s.Proceeds (s.goto i r point) := fun found =>
    ⟨rfl, rfl, rfl, continues_goto (.inl ⟨_, found, rfl, rfl⟩)⟩
  have finish : ∀ i, s.Proceeds (s.finish i) := fun i => ⟨rfl, rfl, rfl, continues_finish i⟩
  cases e with
  | update r => exact absurd rfl (update r)
  | commit i id createdAt now => exact absurd rfl (commit i id createdAt now)
  | check i credentials sourceProfileId =>
    simp only [step] at h
    split at h
    · split at h
      · cases h
        exact same
      · split at h
        · cases h
          exact same
        · rename_i source passed
          cases h
          obtain ⟨member, inactive⟩ := checkSource_ok passed
          exact ⟨rfl, rfl, rfl, continues_goto (.inr ⟨rfl, source, member, rfl, inactive⟩)⟩
    · cases h
  | select i latest =>
    simp only [step] at h
    split at h
    · rename_i r found
      split at h
      · split at h
        · split at h
          · cases h
            exact finish i
          · cases h
            exact goto found
        · cases h
      · cases h
    · cases h
  | getObject i =>
    simp only [step] at h
    split at h
    · rename_i r found
      split at h
      · split at h
        · cases h
          exact finish i
        · cases h
          exact goto found
      · cases h
    · cases h
  | putObject i uuid =>
    simp only [step] at h
    split at h
    · rename_i r found
      split at h
      · split at h
        · cases h
          obtain ⟨_, forks, statuses, pending⟩ := goto found
          exact ⟨rfl, forks, statuses, pending⟩
        · cases h
      · cases h
    · cases h
  | stop i =>
    simp only [step] at h
    split at h
    · cases h
      exact finish i
    · cases h

/-! ## What a request knows of its source -/

/-- The source's status is the last one written to it since the check, or else as the check has
found it. -/
structure Watched (s : ForkState β) (r : Resurrection β) : Prop where
  recorded : r.checkedAt ≤ s.statuses.length
  source : ∃ p ∈ s.store.profiles, p.id = r.sourceId ∧ ∃ checked, checked ≠ activeStatus ∧
    p.status = (s.statusesSince r).getLast?.getD checked

theorem Watched.congr {r r' : Resurrection β} (watched : s.Watched r)
    (profiles : s'.store.profiles = s.store.profiles) (statuses : s'.statuses = s.statuses)
    (source : r'.sourceId = r.sourceId) (checkedAt : r'.checkedAt = r.checkedAt) :
    s'.Watched r' := by
  have since : s'.statusesSince r' = s.statusesSince r := by
    rw [statusesSince, statusesSince, statuses, source, checkedAt]
  constructor
  · rw [checkedAt, statuses]
    exact watched.recorded
  · rw [profiles, source, since]
    exact watched.source

/-- The check itself. -/
theorem Watched.checked {r : Resurrection β} {p : CloneProfile} (now : r.checkedAt = s.statuses.length)
    (member : p ∈ s.store.profiles) (source : p.id = r.sourceId)
    (inactive : p.status ≠ activeStatus) : s.Watched r where
  recorded := Nat.le_of_eq now
  source := by
    refine ⟨p, member, source, p.status, inactive, ?_⟩
    rw [statusesSince, now, List.drop_length]
    rfl

theorem statusesSince_append {r : Resurrection β} (recorded : r.checkedAt ≤ s.statuses.length)
    (store : Store β) (writes : List (Nat × String)) :
    statusesSince { s with store := store, statuses := s.statuses ++ writes } r =
      s.statusesSince r ++ (writes.filter fun write => write.1 = r.sourceId).map Prod.snd := by
  rw [statusesSince, List.drop_append_of_le_length recorded, List.filter_append, List.map_append]
  rfl

/-- A profile update that reaches its commit writes the status it is recorded with. -/
theorem Watched.write {r : Resurrection β} (watched : s.Watched r) (target : CloneProfile)
    (payload : ProfileUpdate) :
    Watched { s with
      store := s.store.write (some (target, payload))
      statuses := s.statuses ++ (payload.status.map fun status => (target.id, status)).toList } r := by
  obtain ⟨recorded, p, member, source, checked, inactive, status⟩ := watched
  constructor
  · rw [List.length_append]
    exact Nat.le_add_right_of_le recorded
  · rw [statusesSince_append recorded]
    have listed : (if p.id = target.id then payload.apply p else p) ∈
        s.store.profiles.modify target.id payload.apply payload.apply_id :=
      Table.mem_modify.2 ⟨p, member, rfl⟩
    refine ⟨_, listed, ?_, checked, inactive, ?_⟩
    · rw [← source]
      split <;> rfl
    · cases written : payload.status with
      | none =>
        have kept : (if p.id = target.id then payload.apply p else p).status = p.status := by
          split
          · change payload.status.getD p.status = p.status
            rw [written]
            rfl
          · rfl
        rw [kept, status]
        simp
      | some new =>
        by_cases here : p.id = target.id
        · have own : target.id = r.sourceId := here.symm.trans source
          rw [if_pos here]
          change payload.status.getD p.status = _
          rw [written]
          simp [own]
        · have other : target.id ≠ r.sourceId := fun same => here (source.trans same.symm)
          rw [if_neg here, status]
          simp [other]

/-- Every request under way knows its source so. -/
def AllWatched (s : ForkState β) : Prop := ∀ i r, s.pending i = some r → s.Watched r

theorem AllWatched.step {e : ForkEvent} (inv : s.AllWatched) (h : s.step A e = some s') :
    s'.AllWatched := by
  cases e with
  | commit i id createdAt now =>
    obtain ⟨_, _, _, profiles, _, statuses, pending⟩ := commit_step h
    intro i' r found
    rw [pending] at found
    by_cases here : i' = i
    · rw [here, Function.update_self] at found
      cases found
    · rw [Function.update_of_ne here] at found
      exact (inv i' r found).congr profiles statuses rfl rfl
  | update r =>
    obtain ⟨rfl, _⟩ := update_step h
    intro i r' found
    have watched := inv i r' found
    unfold Request.writesStatus
    cases r.updates A s.store with
    | none => exact watched.congr rfl (List.append_nil _) rfl rfl
    | some write => exact watched.write write.1 write.2
  | _ =>
    have on := proceeds_step (fun _ => by simp) (fun _ _ _ _ => by simp) h
    intro i r found
    rcases on.pending i r found with ⟨r₀, before, source, checkedAt⟩ |
      ⟨now, p, member, source, inactive⟩
    · exact (inv i r₀ before).congr on.profiles on.statuses source checkedAt
    · refine .checked ?_ (on.profiles ▸ member) source inactive
      rw [now, on.statuses]

/-- The source is active when the last status written to it since the check is "active", and then
only. -/
theorem Watched.active_iff {r : Resurrection β} (watched : s.Watched r) :
    (∃ p ∈ s.store.profiles, p.id = r.sourceId ∧ p.status = activeStatus) ↔
      (s.statusesSince r).getLast? = some activeStatus := by
  obtain ⟨_, p, member, source, checked, inactive, status⟩ := watched
  constructor
  · rintro ⟨q, listed, same, active⟩
    rw [Table.eq_of_key listed member (same.trans source.symm), status] at active
    cases last : (s.statusesSince r).getLast? with
    | none =>
      rw [last] at active
      exact absurd active inactive
    | some written =>
      rw [last] at active
      exact congrArg some active
  · intro last
    rw [last] at status
    exact ⟨p, member, source, status⟩

/-! ## Runs -/

theorem NoLiveFork.step {e : ForkEvent} (inv : s.NoLiveFork) (watched : s.AllWatched)
    (h : s.step A e = some s') (cond : s.Unrevived A e) : s'.NoLiveFork := by
  cases e with
  | commit i id createdAt now =>
    obtain ⟨r, backup, found, profiles, forks, _⟩ := commit_step h
    intro f member p listed same active
    rw [forks] at member
    rw [profiles] at listed
    rcases List.mem_append.1 member with old | new
    · exact inv f old p listed same active
    · rw [List.mem_singleton.1 new] at same
      exact cond r found ((watched i r found).active_iff.1 ⟨p, listed, same, active⟩)
  | update r =>
    obtain ⟨rfl, _⟩ := update_step h
    cases found : r.updates A s.store with
    | none => exact inv.congr rfl rfl
    | some write =>
      obtain ⟨target, payload⟩ := write
      intro f member p listed same
      change p ∈ s.store.profiles.modify target.id payload.apply payload.apply_id at listed
      rw [Table.mem_modify] at listed
      obtain ⟨q, old, rfl⟩ := listed
      split at same
      · rename_i here
        rw [if_pos here]
        change payload.status.getD q.status ≠ activeStatus
        cases written : payload.status with
        | none => exact inv f member q old same
        | some status =>
          rintro rfl
          refine cond target.id ?_ f member (same.symm.trans here)
          simp only [Request.writesStatus, found, Option.bind_some, written, Option.map_some]
      · rename_i other
        rw [if_neg other]
        exact inv f member q old same
  | _ =>
    have on := proceeds_step (fun _ => by simp) (fun _ _ _ _ => by simp) h
    exact inv.congr on.profiles on.forks

theorem Unrevived.of_step {e : ForkEvent} (watched : s.AllWatched) (h : s.step A e = some s')
    (good : s'.NoLiveFork) : s.Unrevived A e := by
  cases e with
  | commit i id createdAt now =>
    obtain ⟨r, backup, found, profiles, forks, _⟩ := commit_step h
    intro r' again last
    cases found.symm.trans again
    obtain ⟨p, listed, same, active⟩ := (watched i r found).active_iff.2 last
    have member : ⟨r.sourceId, backup⟩ ∈ s'.forks := by
      rw [forks]
      exact List.mem_append_right _ List.mem_cons_self
    exact good _ member p (profiles ▸ listed) same active
  | update r =>
    obtain ⟨rfl, member⟩ := update_step h
    intro cloneId writes f forked same
    obtain ⟨⟨p, payload⟩, found, status⟩ := Option.bind_eq_some_iff.1 writes
    obtain ⟨_, active, same'⟩ := Option.map_eq_some_iff.1 status
    cases same'
    rw [found] at good
    have listed : payload.apply p ∈
        s.store.profiles.modify p.id payload.apply payload.apply_id :=
      Table.mem_modify.2 ⟨p, member p payload found, (if_pos rfl).symm⟩
    refine good f forked (payload.apply p) listed same.symm ?_
    change payload.status.getD p.status = activeStatus
    rw [active]
    rfl
  | _ => exact trivial

/-- **No live clone is ever forked** exactly when, of the updates between a request's check and its
commit, the last to write the source's status does not write "active", and no update writes
"active" to a clone once a backup of it has been resurrected. -/
theorem no_live_fork_iff (A : Api ι β) (store : Store β) (es : List ForkEvent) :
    Run.Throughout (step A) NoLiveFork (.start store) es ↔
      Run.Guarded (step A) (Unrevived A) (.start store) es := by
  have keeps : ∀ (s : ForkState β) e s', s.NoLiveFork ∧ s.AllWatched → True →
      step A s e = some s' → s.Unrevived A e → s'.NoLiveFork ∧ s'.AllWatched :=
    fun _ _ _ inv _ taken cond => ⟨inv.1.step inv.2 taken cond, inv.2.step taken⟩
  have breaks : ∀ (s : ForkState β) e s', s.NoLiveFork ∧ s.AllWatched → True →
      step A s e = some s' → s'.NoLiveFork → s.Unrevived A e :=
    fun _ _ _ inv _ taken good => .of_step inv.2 taken good
  refine Run.throughout_iff_guarded (A := fun _ _ => True) (fun _ inv => inv.1) keeps breaks ?_
    (Run.Guarded.of_forall (fun _ _ => trivial) es _)
  exact ⟨fun f member => absurd member List.not_mem_nil, fun i r found => by cases found⟩

end ForkState

/-- The sample API with a token for each of the two clones. -/
def Api.tokens : Api MemoryItem (List MemoryItem) :=
  { Api.sample with
    decodeAccessToken := fun token => some ⟨some (.string token)⟩
    int := fun text => if text = "1" then some 1 else if text = "2" then some 2 else none }

/-- The first clone is marked deceased, and has a backup. -/
def deceased : Store (List MemoryItem) :=
  { twoClones with
    profiles := ⟨[⟨1, "alpha", "deceased", .free, some 1, 0⟩,
      ⟨2, "beta", activeStatus, .free, some 2, 0⟩], by decide⟩
    backups := ⟨[⟨1, 1, 0, 0, 0, ⟨1, 0, 0, 1⟩, .free, 0, none⟩], by decide⟩
    objects := fun key => if key = ⟨1, 0, 0, 1⟩ then some [] else none }

/-- The second clone's request has checked the first when that one sets itself active again. -/
def reactivatedAfterCheck : List ForkEvent :=
  [.check 0 (some "2") 1,
    .update ⟨some "1", .updateOwnProfile ⟨none, some activeStatus⟩, choiceAt 0 ⟨1, 0⟩⟩,
    .select 0 (some ⟨1, 1, 0, 0, 0, ⟨1, 0, 0, 1⟩, .free, 0, none⟩), .getObject 0, .putObject 0 2,
    .commit 0 2 0 0]

theorem live_fork_of_reactivated :
    ∃ s, Run.exec (ForkState.step Api.tokens) (.start deceased) reactivatedAfterCheck = some s ∧
      s.forks.map Fork.sourceId = [1] ∧
      s.store.profiles.rows.map (fun p => (p.id, p.status)) = [(1, "active"), (2, "active")] ∧
      ¬ s.NoLiveFork := by
  refine ⟨_, rfl, rfl, rfl, fun safe => ?_⟩
  exact safe _ (.head _) _ (.head _) rfl rfl

end Mycelium
