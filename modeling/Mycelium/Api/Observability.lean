import Mycelium.Api.Resurrection
import Mycelium.Logic.Unwinding
import Mathlib.Data.List.Sort

/-!
# What a clone can observe

Two stores that agree on a clone's account, profile, stream, backups and their
objects, and on nothing else, answer the clone's requests for its own memory alike
and agree again afterwards. A lookup by a global id may find another clone's row in
one store and nothing in the other: the answer is the same error.
-/

namespace Mycelium

open Unwinding

variable {ι β : Type} {A : Api ι β} {s s₁ s₂ : Store β} {user : User} {p : CloneProfile}
  {credentials : Option String}

/-- The stores have the user's part in common. -/
structure Agree (user : User) (s₁ s₂ : Store β) : Prop where
  account : s₁.users.get? user.id = some user ∧ s₂.users.get? user.id = some user
  own : profileOf s₂ user.id = profileOf s₁ user.id
  profiles : ∀ p, p.userId = some user.id → (p ∈ s₂.profiles ↔ p ∈ s₁.profiles)
  stream : ∀ p, profileOf s₁ user.id = some p → s₂.streams p.id = s₁.streams p.id
  backups : ∀ p, profileOf s₁ user.id = some p → ∀ b, b.cloneId = p.id →
    (b ∈ s₂.backups ↔ b ∈ s₁.backups)
  objects : ∀ p, profileOf s₁ user.id = some p → ∀ b ∈ s₁.backups, b.cloneId = p.id →
    s₂.objects b.storageKey = s₁.objects b.storageKey

/-- The token is one of the user with this id. -/
def Api.Names (A : Api ι β) (userId : Nat) (credentials : Option String) : Prop :=
  ∃ token claims subject, credentials = some token ∧ A.decodeAccessToken token = some claims ∧
    claims.sub = some subject ∧ A.subjectId subject = some (userId : Int)

/-- The routes on which a clone reads and writes its own memory and profile. -/
def Route.ofOwnMemory : Route → Bool
  | .writeMemory .. | .streamStatus | .listOwnBackups .. | .readOwnBackup .. | .restoreOwnBackup ..
  | .listProfiles | .readOwnProfile => true
  | _ => false

namespace Agree

theorem symm (agree : Agree user s₁ s₂) : Agree user s₂ s₁ where
  account := agree.account.symm
  own := agree.own.symm
  profiles p linked := (agree.profiles p linked).symm
  stream p own := (agree.stream p (agree.own.symm.trans own)).symm
  backups p own b ofClone := (agree.backups p (agree.own.symm.trans own) b ofClone).symm
  objects p own b listed ofClone := by
    have own' := agree.own.symm.trans own
    exact (agree.objects p own' b ((agree.backups p own' b ofClone).1 listed) ofClone).symm

/-! ## The dependencies -/

theorem getCurrentUser_of_names (names : A.Names user.id credentials)
    (known : s.users.get? user.id = some user) :
    getCurrentUser A s credentials = if user.isActive then .ok user else .error unauthorized := by
  obtain ⟨token, claims, subject, rfl, decoded, sub, id⟩ := names
  have found : s.users.lookup (user.id : Int) = some user := by
    unfold Table.lookup
    rw [if_pos (Int.natCast_nonneg _), Int.toNat_natCast, known]
  simp only [getCurrentUser, decoded, sub, id, found]

theorem getCurrentUser_eq (agree : Agree user s₁ s₂) (names : A.Names user.id credentials) :
    getCurrentUser A s₂ credentials = getCurrentUser A s₁ credentials := by
  rw [getCurrentUser_of_names names agree.account.1, getCurrentUser_of_names names agree.account.2]

/-- The token's user is the one the stores agree on. -/
theorem current_eq (agree : Agree user s₁ s₂) (names : A.Names user.id credentials) {current : User}
    (h : getCurrentUser A s₁ credentials = .ok current) : current = user := by
  rw [getCurrentUser_of_names names agree.account.1] at h
  split at h
  · cases h
    rfl
  · cases h

theorem getOwnProfile_of_current (current : getCurrentUser A s credentials = .ok user) :
    getOwnProfile A s credentials =
      (requireRole .clone user).bind fun _ =>
        match profileOf s user.id with
        | none => .error ⟨404, "No clone profile linked to this account"⟩
        | some profile => .ok profile := by
  unfold getOwnProfile currentClone
  rw [current]
  change (requireRole .clone user).bind _ = _
  unfold requireRole
  split <;> rfl

theorem getOwnProfile_eq (agree : Agree user s₁ s₂) (names : A.Names user.id credentials) :
    getOwnProfile A s₂ credentials = getOwnProfile A s₁ credentials := by
  cases current : getCurrentUser A s₁ credentials with
  | error e =>
    have current' := (agree.getCurrentUser_eq names).trans current
    unfold getOwnProfile currentClone
    rw [current, current']
    rfl
  | ok found =>
    have current' := (agree.getCurrentUser_eq names).trans current
    cases agree.current_eq names current
    rw [getOwnProfile_of_current current, getOwnProfile_of_current current', agree.own]

theorem own_of_getOwnProfile (agree : Agree user s₁ s₂) (names : A.Names user.id credentials)
    (own : getOwnProfile A s₁ credentials = .ok p) : profileOf s₁ user.id = some p := by
  obtain ⟨current, found, _, own⟩ := getOwnProfile_ok own
  rwa [agree.current_eq names found] at own

theorem getOwnBackup_of_lookup {backupId : Int} {backup : MemoryBackup}
    (own : getOwnProfile A s credentials = .ok p)
    (found : s.backups.lookup backupId = some backup) :
    getOwnBackup A s credentials backupId =
      if backup.cloneId = p.id then .ok backup else .error ⟨404, "Not found"⟩ := by
  unfold getOwnBackup
  rw [own, found]
  rfl

/-- A backup of the own profile is found in both stores. -/
theorem getOwnBackup_ok (agree : Agree user s₁ s₂) (names : A.Names user.id credentials)
    {backupId : Int} {backup : MemoryBackup}
    (own : getOwnBackup A s₁ credentials backupId = .ok backup) :
    getOwnBackup A s₂ credentials backupId = .ok backup := by
  obtain ⟨p, ownProfile, listed, named, ofClone⟩ := Mycelium.getOwnBackup_ok own
  have known := agree.own_of_getOwnProfile names ownProfile
  have listed' := (agree.backups p known backup ofClone).2 listed
  have found : s₂.backups.lookup backupId = some backup := by
    unfold Table.lookup
    rw [if_pos (named ▸ Int.natCast_nonneg _)]
    exact Table.get?_eq_some.2 ⟨listed', by omega⟩
  rw [getOwnBackup_of_lookup ((agree.getOwnProfile_eq names).trans ownProfile) found]
  exact if_pos ofClone

/-- With a profile of his own the user is refused a backup in one way only. -/
theorem getOwnBackup_error {backupId : Int} {e : HttpError}
    (own : getOwnProfile A s credentials = .ok p)
    (h : getOwnBackup A s credentials backupId = .error e) : e = ⟨404, "Not found"⟩ := by
  cases found : s.backups.lookup backupId with
  | none =>
    unfold getOwnBackup at h
    rw [own, found] at h
    cases h
    rfl
  | some backup =>
    rw [getOwnBackup_of_lookup own found] at h
    split at h
    · cases h
    · cases h
      rfl

/-- Otherwise it is "Not found" in both, whether it is another clone's or nobody's. -/
theorem getOwnBackup_eq (agree : Agree user s₁ s₂) (names : A.Names user.id credentials)
    (backupId : Int) :
    getOwnBackup A s₂ credentials backupId = getOwnBackup A s₁ credentials backupId := by
  cases here : getOwnBackup A s₁ credentials backupId with
  | ok backup => exact agree.getOwnBackup_ok names here
  | error e =>
    cases there : getOwnBackup A s₂ credentials backupId with
    | ok backup => cases here.symm.trans (agree.symm.getOwnBackup_ok names there)
    | error e' =>
      have same := agree.getOwnProfile_eq names
      cases own : getOwnProfile A s₁ credentials with
      | error e₀ =>
        unfold getOwnBackup at here there
        rw [own] at here
        rw [same, own] at there
        cases here
        cases there
        rfl
      | ok p => rw [getOwnBackup_error own here, getOwnBackup_error (same.trans own) there]

/-! ## What the routes write -/

/-- A stream entry of his own, and whatever tasks. -/
theorem wrote (agree : Agree user s₁ s₂) (own : profileOf s₁ user.id = some p) (stream : Stream)
    (tasks₁ tasks₂ : List Task) :
    Agree user
      { s₁ with streams := Function.update s₁.streams p.id stream, tasks := tasks₁ }
      { s₂ with streams := Function.update s₂.streams p.id stream, tasks := tasks₂ } := by
  refine { agree with stream := fun q own' => ?_ }
  cases own.symm.trans own'
  simp only [Function.update_self]

/-- A backup of his own. -/
theorem restored (agree : Agree user s₁ s₂) (backup : MemoryBackup) (now : Int) :
    Agree user (s₁.setRestored backup now) (s₂.setRestored backup now) := by
  have clones : ∀ x : MemoryBackup,
      (if x.id = backup.id then x.restored now else x).cloneId = x.cloneId := by
    intro x
    split <;> rfl
  refine { agree with
    backups := fun p own b ofClone => ?_
    objects := fun p own b listed ofClone => ?_ }
  · rw [Store.mem_setRestored, Store.mem_setRestored]
    refine exists_congr fun x => and_congr_left ?_
    rintro rfl
    exact agree.backups p own x ((clones x).symm.trans ofClone)
  · obtain ⟨x, old, rfl⟩ := Store.mem_setRestored.1 listed
    have same := agree.objects p own x old ((clones x).symm.trans ofClone)
    split
    · exact same
    · exact same

/-! ## The routes -/

theorem depends {α : Type} {dependency dependency' : Except HttpError α}
    {route₁ route₂ : α → Outcome ι β} (agree : Agree user s₁ s₂) (same : dependency' = dependency)
    (each : ∀ a, dependency = .ok a → Indistinct (Agree user) (route₁ a) (route₂ a)) :
    Indistinct (Agree user) (depends s₁ dependency route₁) (depends s₂ dependency' route₂) := by
  rw [same]
  cases dependency with
  | error e => exact .enabled _ _ _ agree
  | ok a => exact each a rfl

theorem validated {valid : Bool} {route₁ route₂ : Outcome ι β} (agree : Agree user s₁ s₂)
    (each : Indistinct (Agree user) route₁ route₂) :
    Indistinct (Agree user) (validated s₁ valid route₁) (validated s₂ valid route₂) := by
  cases valid with
  | true => exact each
  | false => exact .enabled _ _ _ agree

theorem writeMemory (agree : Agree user s₁ s₂) (names : A.Names user.id credentials)
    (payload : MemoryWrite) (c : Choice) :
    Indistinct (Agree user) (writeMemory A s₁ credentials payload c)
      (writeMemory A s₂ credentials payload c) := by
  refine agree.depends (agree.getOwnProfile_eq names) fun p ownProfile => agree.validated ?_
  have own := agree.own_of_getOwnProfile names ownProfile
  simp only [agree.stream p own]
  split
  · exact .enabled _ _ _ agree
  · split
    · split
      · exact .enabled _ _ _ (agree.wrote own _ s₁.tasks s₂.tasks)
      · split
        · split
          · exact .enabled _ _ _ (agree.wrote own _ s₁.tasks s₂.tasks)
          · exact .enabled _ _ _ (agree.wrote own _ _ _)
        · exact .enabled _ _ _ (agree.wrote own _ s₁.tasks s₂.tasks)
    · exact .disabled

theorem streamStatus (agree : Agree user s₁ s₂) (names : A.Names user.id credentials) :
    Indistinct (Agree user) (streamStatus A s₁ credentials) (streamStatus A s₂ credentials) := by
  refine agree.depends (agree.getOwnProfile_eq names) fun p ownProfile => ?_
  simp only [agree.stream p (agree.own_of_getOwnProfile names ownProfile)]
  exact .enabled _ _ _ agree

/-- The clone's rows, in whatever order the tables list them. -/
theorem backupsOf_perm (agree : Agree user s₁ s₂) (own : profileOf s₁ user.id = some p) :
    (s₂.backupsOf p.id).Perm (s₁.backupsOf p.id) := by
  rw [List.perm_ext_iff_of_nodup (s₂.backupsOf_nodup p.id) (s₁.backupsOf_nodup p.id)]
  intro b
  rw [Store.mem_backupsOf, Store.mem_backupsOf]
  exact and_congr_left fun ofClone => agree.backups p own b ofClone

theorem listOwnBackups (agree : Agree user s₁ s₂) (names : A.Names user.id credentials)
    (limit : Int) (c : Choice) :
    Indistinct (Agree user) (listOwnBackups A s₁ credentials limit c)
      (listOwnBackups A s₂ credentials limit c) := by
  refine agree.depends (agree.getOwnProfile_eq names) fun p ownProfile => agree.validated ?_
  have rows := agree.backupsOf_perm (agree.own_of_getOwnProfile names ownProfile)
  have ranks : Ranking.Ranks MemoryBackup.periodEnd (s₂.backupsOf p.id) c.ranked ↔
      Ranking.Ranks MemoryBackup.periodEnd (s₁.backupsOf p.id) c.ranked :=
    and_congr_left fun _ => ⟨fun perm => perm.trans rows, fun perm => perm.trans rows.symm⟩
  unfold latestBackups
  by_cases ranked : Ranking.Ranks MemoryBackup.periodEnd (s₁.backupsOf p.id) c.ranked
  · rw [if_pos ranked, if_pos (ranks.2 ranked)]
    exact .enabled _ _ _ agree
  · rw [if_neg ranked, if_neg fun ranked' => ranked (ranks.1 ranked')]
    exact .disabled

/-- The object behind a backup of his own is read alike. -/
theorem detailResponse_eq {F : Format ι β} (agree : Agree user s₁ s₂)
    (own : profileOf s₁ user.id = some p) {backup : MemoryBackup} (listed : backup ∈ s₁.backups)
    (ofClone : backup.cloneId = p.id) (status : Nat) (c : Choice) :
    detailResponse F s₂ status backup c = detailResponse F s₁ status backup c := by
  unfold detailResponse
  rw [agree.objects p own backup listed ofClone]

theorem readOwnBackup (agree : Agree user s₁ s₂) (names : A.Names user.id credentials)
    (backupId : Int) (c : Choice) :
    Indistinct (Agree user) (readOwnBackup A s₁ credentials backupId c)
      (readOwnBackup A s₂ credentials backupId c) := by
  refine agree.depends (agree.getOwnBackup_eq names backupId) fun backup ownBackup => ?_
  obtain ⟨p, ownProfile, listed, _, ofClone⟩ := Mycelium.getOwnBackup_ok ownBackup
  have own := agree.own_of_getOwnProfile names ownProfile
  rw [agree.detailResponse_eq own listed ofClone]
  exact .enabled _ _ _ agree

theorem restoreOwnBackup (agree : Agree user s₁ s₂) (names : A.Names user.id credentials)
    (backupId : Int) (c : Choice) :
    Indistinct (Agree user) (restoreOwnBackup A s₁ credentials backupId c)
      (restoreOwnBackup A s₂ credentials backupId c) := by
  refine agree.depends (agree.getOwnBackup_eq names backupId) fun backup ownBackup => ?_
  obtain ⟨p, ownProfile, listed, _, ofClone⟩ := Mycelium.getOwnBackup_ok ownBackup
  have own := agree.own_of_getOwnProfile names ownProfile
  have after := agree.restored backup c.now
  split
  · exact .enabled _ _ _ agree
  · split
    · exact .enabled _ _ _ after
    · have listed' : backup.restored c.now ∈ (s₁.setRestored backup c.now).backups :=
        Store.mem_setRestored.2 ⟨backup, listed, (if_pos rfl).symm⟩
      have same := after.detailResponse_eq (F := A.toFormat) own listed' ofClone 200 c
      change Indistinct (Agree user)
        (some (s₁.setRestored backup c.now,
          detailResponse A.toFormat (s₁.setRestored backup c.now) 200 (backup.restored c.now) c))
        (some (s₂.setRestored backup c.now,
          detailResponse A.toFormat (s₂.setRestored backup c.now) 200 (backup.restored c.now) c))
      rw [same]
      exact .enabled _ _ _ after

/-- Rows with different ids come in one order. -/
theorem orderById_congr {α : Type} {key : α → Nat} {rows rows' : List α} (perm : rows.Perm rows')
    (distinct : (rows.map key).Nodup) : orderById key rows = orderById key rows' := by
  have sorted : ∀ rows : List α, (orderById key rows).Pairwise fun x y => key x ≤ key y := by
    intro rows
    refine (List.pairwise_mergeSort ?_ ?_ rows).imp of_decide_eq_true
    · intro x y z
      simp only [decide_eq_true_eq]
      exact Nat.le_trans
    · intro x y
      simpa using Nat.le_total (key x) (key y)
  have ordered : (orderById key rows).Perm rows := List.mergeSort_perm rows _
  have ordered' : (orderById key rows').Perm rows' := List.mergeSort_perm rows' _
  refine List.Perm.eq_of_pairwise ?_ (sorted rows) (sorted rows')
    (ordered.trans (perm.trans ordered'.symm))
  intro x y hx hy le ge
  have member := ordered.mem_iff.1 hx
  have member' := perm.mem_iff.2 (ordered'.mem_iff.1 hy)
  exact List.inj_on_of_nodup_map distinct member member' (Nat.le_antisymm le ge)

theorem listProfiles (agree : Agree user s₁ s₂) (clone : user.role = .clone)
    (names : A.Names user.id credentials) :
    Indistinct (Agree user) (listProfiles A s₁ credentials) (listProfiles A s₂ credentials) := by
  refine agree.depends (agree.getCurrentUser_eq names) fun current found => ?_
  cases agree.current_eq names found
  have own : ∀ p : CloneProfile,
      (user.role = .admin || p.userId = some user.id : Bool) = true ↔ p.userId = some user.id := by
    intro p
    simp [clone]
  have unique : ∀ s : Store β, (s.profiles.rows.filter fun p =>
      user.role = .admin || p.userId = some user.id).Nodup :=
    fun s => (List.Nodup.of_map _ s.profiles.nodup).filter _
  have perm : (s₁.profiles.rows.filter fun p =>
      user.role = .admin || p.userId = some user.id).Perm
        (s₂.profiles.rows.filter fun p => user.role = .admin || p.userId = some user.id) := by
    rw [List.perm_ext_iff_of_nodup (unique s₁) (unique s₂)]
    intro p
    rw [List.mem_filter, List.mem_filter, own]
    exact and_congr_left fun linked => (agree.profiles p linked).symm
  simp only
  rw [orderById_congr perm (s₁.profiles.nodup.sublist (List.filter_sublist.map _))]
  exact .enabled _ _ _ agree

theorem readOwnProfile (agree : Agree user s₁ s₂) (names : A.Names user.id credentials) :
    Indistinct (Agree user) (readOwnProfile A s₁ credentials) (readOwnProfile A s₂ credentials) :=
  agree.depends (agree.getOwnProfile_eq names) fun _ _ => .enabled _ _ _ agree

/-- One request. -/
theorem handle (agree : Agree user s₁ s₂) (clone : user.role = .clone) (r : Request)
    (names : A.Names user.id r.credentials) (ofOwn : r.route.ofOwnMemory = true) :
    Indistinct (Agree user) (handle A s₁ r) (handle A s₂ r) := by
  obtain ⟨token, route, c⟩ := r
  cases route with
  | writeMemory payload => exact agree.writeMemory names payload c
  | streamStatus => exact agree.streamStatus names
  | listOwnBackups limit => exact agree.listOwnBackups names limit c
  | readOwnBackup backupId => exact agree.readOwnBackup names backupId c
  | restoreOwnBackup backupId => exact agree.restoreOwnBackup names backupId c
  | listProfiles => exact agree.listProfiles clone names
  | readOwnProfile => exact agree.readOwnProfile names
  | _ => cases ofOwn

end Agree

/-- **Other clones' memories are unobservable**, over any sequence of a clone's requests for its own
memory. -/
theorem other_memories_unobservable (A : Api ι β) (user : User) (s₁ s₂ : Store β)
    (rs : List Request) (clone : user.role = .clone) (agree : Agree user s₁ s₂)
    (own : ∀ r ∈ rs, A.Names user.id r.credentials ∧ r.route.ofOwnMemory = true) :
    Indistinct (Agree user) (outputs (handle A) s₁ rs) (outputs (handle A) s₂ rs) :=
  Indistinct.outputs (fun _ _ r agree ⟨names, ofOwn⟩ => agree.handle clone r names ofOwn) agree own

/-- The user of the second clone. -/
def betaUser : User := ⟨2, "b@x.org", "b", .clone, true, 0⟩

/-- The first of `twoClones` has memories and a backup. -/
def othersRemember : Store (List MemoryItem) :=
  { twoClones with
    streams := fun id => if id = 1 then Stream.empty.xadd 100 true ⟨⟨1, 0⟩, "m", ""⟩ else .empty
    backups := ⟨[⟨1, 1, 0, 0, 1, ⟨1, 0, 0, 0⟩, .free, 0, none⟩], by decide⟩
    objects := fun _ => some [⟨"m", ""⟩] }

/-- The second clone asks for backups it does not have, and for what it has. -/
def probedRoutes : List Route :=
  [.readOwnBackup 1, .restoreOwnBackup 1, .readOwnBackup 7, .listOwnBackups 50, .streamStatus,
    .writeMemory ⟨"m", none⟩, .listProfiles, .readOwnProfile]

def probes : List Request :=
  probedRoutes.map fun route => ⟨some "token", route, choiceAt 0 ⟨1, 0⟩⟩

theorem unobservable_of_probes :
    (outputs (handle Api.sample) twoClones probes).isSome = true ∧
      Indistinct (Agree betaUser) (outputs (handle Api.sample) twoClones probes)
        (outputs (handle Api.sample) othersRemember probes) := by
  have agree : Agree betaUser twoClones othersRemember := by
    refine ⟨⟨rfl, rfl⟩, rfl, fun _ _ => Iff.rfl, ?_, ?_, ?_⟩
    · rintro p ⟨⟩
      rfl
    · rintro p ⟨⟩ b ofClone
      refine ⟨fun other => ?_, fun none => absurd none List.not_mem_nil⟩
      rw [List.mem_singleton.1 other] at ofClone
      cases ofClone
    · intro p _ b none
      exact absurd none List.not_mem_nil
  refine ⟨by decide, other_memories_unobservable Api.sample betaUser twoClones othersRemember probes
    rfl agree fun r member => ?_⟩
  obtain ⟨route, probed, rfl⟩ := List.mem_map.1 member
  have ofOwn : ∀ route ∈ probedRoutes, route.ofOwnMemory = true := by decide
  exact ⟨⟨"token", ⟨some (.string "2")⟩, .string "2", rfl, rfl, rfl, rfl⟩, ofOwn route probed⟩

end Mycelium
