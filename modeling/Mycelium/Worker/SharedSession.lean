import Mycelium.Api.Routers
import Mycelium.Worker.Locality

/-!
# One session for a whole pass (`run_rollup`)

`run_rollup` loads the due profiles once and rolls them up one after another in the
same session. Its handler reads `clone.id`, logs, and rolls the session back. A
rollback expires every loaded instance, and reading an expired one outside an
awaited call raises: so the clone after a failed one raises at its first line, and
again in the handler. A failed commit has rolled back by itself, so there the
handler raises for the failed clone already.

What a rollup reads and writes is its own clone's part of the stores, so whatever
has come before it in the pass it does what it does alone.
-/

namespace Mycelium

variable {ι β : Type}

/-! ## A call in the session -/

/-- The call that raises inside `rollup_clone`: one with an effect outside the session, or a query
of the session. -/
inductive CallFault where
  | effect (fault : RollupFault)
  /-- `session.get(MemoryBuffer, clone.id)` -/
  | getBuffer
  /-- the prune's SELECT -/
  | selectStale
  /-- the prune's DELETE -/
  | deleteStale
deriving DecidableEq, Repr

/-- What raises, as `rollupClone` knows it. -/
def effectOf : Option CallFault → Option RollupFault
  | some (.effect fault) => some fault
  | _ => none

/-- How a call of `rollup_clone` ends: with the row it made, if any, or by raising, in a commit or
elsewhere. That a commit which raises has rolled the session back, and has expired what it had
loaded, is assumed, whether its flush raised or the COMMIT itself. -/
inductive CallEnd where
  | returned (made : Option MemoryBackup)
  | raised (inCommit : Bool)
deriving DecidableEq, Repr

def CallEnd.result : CallEnd → RollupResult
  | .returned none => .empty
  | .returned (some backup) => .backedUp backup
  | .raised _ => .raised

/-- The dict `rollup_clone` returns. -/
def RollupReport.of (clone : CloneProfile) : Option MemoryBackup → RollupReport
  | none => ⟨clone.id, "empty", 0⟩
  | some backup => ⟨clone.id, "backed_up", backup.entryCount⟩

/-- `_prune_stale_backups` and the commit after it, once `backup` is committed. -/
def pruneCall (s : Store β) (cloneId : Nat) (ranked : List MemoryBackup) (backup : MemoryBackup) :
    Option CallFault → Option (Store β × CallEnd)
  | some .selectStale => some (s, .raised false)
  | some .deleteStale =>
    if RanksByPeriodEnd (s.backupsOf cloneId) ranked then
      -- the objects go first, and without stale rows there is no DELETE
      let keys := (staleBackups ranked).map MemoryBackup.storageKey
      some (s.deleteObjects keys, if keys = [] then .returned (some backup) else .raised false)
    else none
  | fault =>
    (pruneStaleBackups s cloneId ranked (effectOf fault)).map fun (s', ok) =>
      (s', if ok then .returned (some backup) else .raised (fault = some (.effect .pruneCommit)))

/-- `rollup_clone` from its first commit on, or from what it did instead. -/
def afterArchive (clone : CloneProfile) (choice : RollupChoice) (fault : Option CallFault)
    (inCommit : Bool) : Store β × RollupResult → Option (Store β × CallEnd)
  | (s, .empty) => some (s, .returned none)
  | (s, .raised) => some (s, .raised inCommit)
  | (committed, .backedUp backup) => pruneCall committed clone.id choice.ranked backup fault

variable (F : Format ι β)

/-- A call that raised before its first commit returned had got to that commit. -/
def raisedInCommit (s : Store β) (clone : CloneProfile) (fault : Option CallFault) : Bool :=
  (F.readBuffer (s.buffers clone.id)).isSome && effectOf fault ≠ some .putObject

/-- `rollup_clone`, on a profile that is not expired. -/
def rollupCall (s : Store β) (clone : CloneProfile) (now : Int) (choice : RollupChoice)
    (fault : Option CallFault) : Option (Store β × CallEnd) :=
  if fault = some .getBuffer then some (s, .raised false)
  else
    (archiveBuffer F s clone now choice (effectOf fault)).bind
      (afterArchive clone choice fault (raisedInCommit F s clone fault))

/-- A prune both of whose queries succeed. -/
theorem pruneCall_eq {s : Store β} {cloneId : Nat} {ranked : List MemoryBackup}
    {backup : MemoryBackup} {fault : Option CallFault} (selected : fault ≠ some .selectStale)
    (deleted : fault ≠ some .deleteStale) :
    pruneCall s cloneId ranked backup fault =
      (pruneStaleBackups s cloneId ranked (effectOf fault)).map fun (s', ok) =>
        (s', if ok then .returned (some backup)
          else .raised (fault = some (.effect .pruneCommit))) := by
  unfold pruneCall
  split
  · exact absurd rfl selected
  · exact absurd rfl deleted
  · rfl

/-- It is `rollupClone`, which does not tell where a call raised. -/
theorem rollupCall_result (s : Store β) (clone : CloneProfile) (now : Int) (choice : RollupChoice)
    (fault : Option RollupFault) :
    (rollupCall F s clone now choice (fault.map .effect)).map (fun (s', ended) => (s', ended.result)) =
      rollupClone F s clone now choice fault := by
  have known : effectOf (fault.map .effect) = fault := by cases fault <;> rfl
  have queried : fault.map .effect ≠ some CallFault.getBuffer := by cases fault <;> simp
  have selected : fault.map .effect ≠ some CallFault.selectStale := by cases fault <;> simp
  have deleted : fault.map .effect ≠ some CallFault.deleteStale := by cases fault <;> simp
  unfold rollupCall rollupClone
  rw [if_neg queried, known]
  cases archiveBuffer F s clone now choice fault with
  | none => rfl
  | some ended =>
    obtain ⟨committed, result⟩ := ended
    cases result with
    | empty => rfl
    | raised => rfl
    | backedUp backup =>
      simp only [Option.bind_some, afterArchive, pruneCall_eq selected deleted, known]
      cases pruneStaleBackups committed clone.id choice.ranked fault with
      | none => rfl
      | some ended =>
        obtain ⟨s', ok⟩ := ended
        cases ok <;> rfl

/-! ## The pass -/

/-- A due clone, and what happens in its call. -/
structure Attempt where
  clone : CloneProfile
  choice : RollupChoice
  fault : Option CallFault

/-- The clone rolled up from `s`. -/
def Attempt.call (now : Int) (s : Store β) (a : Attempt) : Option (Store β × CallEnd) :=
  rollupCall F s a.clone now a.choice a.fault

/-- How `run_rollup` ends. -/
inductive PassEnd where
  | returned (results : List RollupReport)
  | raised
deriving DecidableEq, Repr

def PassEnd.after (report : RollupReport) : PassEnd → PassEnd
  | .returned results => .returned (report :: results)
  | .raised => .raised

/-- The loop of `run_rollup`; the flag tells whether the loaded profiles have expired. The branch of a
failed commit rests on the assumption in `CallEnd`. -/
def rollUpEach (now : Int) : Store β → Bool → List Attempt → Option (Store β × PassEnd)
  | s, _, [] => some (s, .returned [])
  -- `clone.id` raises in `rollup_clone`, and again in the handler
  | s, true, _ :: _ => some (s, .raised)
  | s, false, a :: rest =>
    match a.call F now s with
    | none => none
    | some (s', .returned made) =>
      (rollUpEach now s' false rest).map fun (s'', ended) => (s'', ended.after (.of a.clone made))
    -- the commit's rollback has expired `clone`: the handler raises
    | some (s', .raised true) => some (s', .raised)
    -- the handler logs and rolls back
    | some (s', .raised false) => rollUpEach now s' true rest

/-- `run_rollup`; `none` when the query cannot have returned these clones or the server cannot have
made these choices. -/
def runRollup (override : Option Int) (now : Int) (s : Store β) (attempts : List Attempt) :
    Option (Store β × PassEnd) :=
  if (attempts.map Attempt.clone).Perm (findDueClones override now s) then
    rollUpEach F now s false attempts
  else none

/-! ## A call in the session is local -/

section Local

variable {F : Format ι β} {s s' s₁ s₂ t₁ t₂ : Store β} {clone : CloneProfile} {now : Int}
  {choice : RollupChoice} {cloneId : Nat} {ranked : List MemoryBackup}

theorem pruneCall_frame {fault : Option CallFault} {backup : MemoryBackup} {ended : CallEnd}
    (keyed : s.Keyed) (h : pruneCall s cloneId ranked backup fault = some (s', ended)) :
    s'.Keyed ∧ ∀ other ≠ cloneId, SamePart other s s' := by
  unfold pruneCall at h
  split at h
  · cases h
    exact ⟨keyed, fun _ _ => .refl _ _⟩
  · split at h
    · rename_i ranks
      cases h
      refine ⟨keyed, fun other apart => .deleteObjects fun key listed same => ?_⟩
      exact apart (same.symm.trans (keyed.stale ranks key listed))
    · cases h
  · obtain ⟨⟨_, ok⟩, pruned, same⟩ := Option.map_eq_some_iff.1 h
    cases same
    exact pruneStaleBackups_frame keyed pruned

/-- **A call leaves every other clone's part as it is.** -/
theorem rollupCall_frame {fault : Option CallFault} {ended : CallEnd} (keyed : s.Keyed)
    (h : rollupCall F s clone now choice fault = some (s', ended)) :
    s'.Keyed ∧ ∀ other ≠ clone.id, SamePart other s s' := by
  unfold rollupCall at h
  split at h
  · cases h
    exact ⟨keyed, fun _ _ => .refl _ _⟩
  · obtain ⟨⟨committed, result⟩, archived, rest⟩ := Option.bind_eq_some_iff.1 h
    obtain ⟨keyed, first⟩ := archiveBuffer_frame keyed archived
    cases result with
    | empty =>
      cases rest
      exact ⟨keyed, first⟩
    | raised =>
      cases rest
      exact ⟨keyed, first⟩
    | backedUp backup =>
      obtain ⟨keyed, second⟩ := pruneCall_frame keyed rest
      exact ⟨keyed, fun other apart => (first other apart).trans (second other apart)⟩

theorem pruneCall_local {fault : Option CallFault} {backup : MemoryBackup} {ended₁ ended₂ : CallEnd}
    (same : SamePart cloneId s₁ s₂)
    (first : pruneCall s₁ cloneId ranked backup fault = some (t₁, ended₁))
    (second : pruneCall s₂ cloneId ranked backup fault = some (t₂, ended₂)) :
    ended₁ = ended₂ ∧ SamePart cloneId t₁ t₂ := by
  by_cases select : fault = some .selectStale
  · subst select
    cases first
    cases second
    exact ⟨rfl, same⟩
  by_cases delete : fault = some .deleteStale
  · subst delete
    simp only [pruneCall, same.backups] at first second
    by_cases ranks : RanksByPeriodEnd (s₁.backupsOf cloneId) ranked
    · rw [if_pos ranks] at first second
      cases first
      cases second
      exact ⟨rfl, same.delete _⟩
    · rw [if_neg ranks] at first
      cases first
  rw [pruneCall_eq select delete] at first second
  obtain ⟨⟨_, ok₁⟩, pruned₁, same₁⟩ := Option.map_eq_some_iff.1 first
  obtain ⟨⟨_, ok₂⟩, pruned₂, same₂⟩ := Option.map_eq_some_iff.1 second
  cases same₁
  cases same₂
  obtain ⟨rfl, after⟩ := pruneStaleBackups_local same pruned₁ pruned₂
  exact ⟨rfl, after⟩

/-- **A call does to its clone's part what it does alone.** -/
theorem rollupCall_local {fault : Option CallFault} {ended₁ ended₂ : CallEnd}
    (same : SamePart clone.id s₁ s₂)
    (first : rollupCall F s₁ clone now choice fault = some (t₁, ended₁))
    (second : rollupCall F s₂ clone now choice fault = some (t₂, ended₂)) :
    ended₁ = ended₂ ∧ SamePart clone.id t₁ t₂ := by
  unfold rollupCall raisedInCommit at first second
  rw [same.buffer] at second
  by_cases queried : fault = some .getBuffer
  · rw [if_pos queried] at first second
    cases first
    cases second
    exact ⟨rfl, same⟩
  rw [if_neg queried] at first second
  obtain ⟨⟨u₁, r₁⟩, archived₁, rest₁⟩ := Option.bind_eq_some_iff.1 first
  obtain ⟨⟨u₂, r₂⟩, archived₂, rest₂⟩ := Option.bind_eq_some_iff.1 second
  obtain ⟨rfl, middle⟩ := archiveBuffer_local same archived₁ archived₂
  cases r₁ with
  | empty =>
    cases rest₁
    cases rest₂
    exact ⟨rfl, middle⟩
  | raised =>
    cases rest₁
    cases rest₂
    exact ⟨rfl, middle⟩
  | backedUp backup => exact pruneCall_local middle rest₁ rest₂

end Local

/-! ## When a failure stays with its clone -/

section Pass

variable {F : Format ι β} {s s' s₀ : Store β} {now : Int}

variable (F now) in
/-- The call for the clone, alone, raises. -/
def Attempt.Raises (s : Store β) (a : Attempt) : Prop :=
  ∃ s' inCommit, a.call F now s = some (s', .raised inCommit)

variable (F now) in
/-- The call for the clone, alone, raises in a commit. -/
def Attempt.RaisesInCommit (s : Store β) (a : Attempt) : Prop :=
  ∃ s', a.call F now s = some (s', .raised true)

variable (F now) in
/-- What the call for the clone, alone, returns. -/
def Attempt.report (s : Store β) (a : Attempt) : Option RollupReport :=
  match a.call F now s with
  | some (_, .returned made) => some (.of a.clone made)
  | _ => none

variable (F now) in
/-- The pass that took `s` to `s'` has returned, and for every clone whose call alone returns it has
done what that call does and returned what it returns. -/
structure Contained (s : Store β) (attempts : List Attempt) (s' : Store β) (ended : PassEnd) :
    Prop where
  returned : ended = .returned (attempts.filterMap (Attempt.report F now s))
  alone : ∀ a ∈ attempts, ∀ s₁ made, a.call F now s = some (s₁, .returned made) →
    SamePart a.clone.id s₁ s'

variable (F now) in
/-- No clone but the last raises, and the last not in a commit. -/
structure OnlyLastRaises (s : Store β) (attempts : List Attempt) : Prop where
  before : ∀ a ∈ attempts.dropLast, ¬ a.Raises F now s
  last : ∀ a ∈ attempts.getLast?, ¬ a.RaisesInCommit F now s

variable {a : Attempt} {attempts : List Attempt} {ended : PassEnd}

theorem OnlyLastRaises.cons_iff (returns : ¬ a.Raises F now s) :
    OnlyLastRaises F now s (a :: attempts) ↔ OnlyLastRaises F now s attempts := by
  have notAtCommit : ¬ a.RaisesInCommit F now s := fun ⟨s', raised⟩ => returns ⟨s', true, raised⟩
  cases attempts with
  | nil =>
    refine ⟨fun _ => ⟨nofun, nofun⟩, fun _ => ⟨nofun, ?_⟩⟩
    rintro _ ⟨⟩
    exact notAtCommit
  | cons b rest =>
    refine ⟨fun ⟨before, last⟩ => ⟨?_, last⟩, fun ⟨before, last⟩ => ⟨?_, last⟩⟩
    · exact fun c member => before c (List.mem_cons_of_mem a member)
    · intro c member
      rcases List.mem_cons.1 member with rfl | member
      · exact returns
      · exact before c member

/-- A clone that raises before the last. -/
theorem OnlyLastRaises.not_of_raises (raises : a.Raises F now s) (more : attempts ≠ []) :
    ¬ OnlyLastRaises F now s (a :: attempts) := by
  intro ⟨before, _⟩
  obtain ⟨b, rest, rfl⟩ := List.exists_cons_of_ne_nil more
  exact before a List.mem_cons_self raises

/-- A clone that raises in a commit. -/
theorem OnlyLastRaises.not_of_commit (raises : a.RaisesInCommit F now s) :
    ¬ OnlyLastRaises F now s (a :: attempts) := by
  cases attempts with
  | nil => exact fun ⟨_, last⟩ => last a rfl raises
  | cons b rest =>
    obtain ⟨s', raised⟩ := raises
    exact OnlyLastRaises.not_of_raises ⟨s', true, raised⟩ (List.cons_ne_nil b rest)

/-- A clone that returns, and the rest of the pass. -/
theorem Contained.cons {made : Option MemoryBackup} {s₁ : Store β}
    (called : a.call F now s = some (s₁, .returned made)) (part : SamePart a.clone.id s₁ s')
    (rest : Contained F now s attempts s' ended) :
    Contained F now s (a :: attempts) s' (ended.after (.of a.clone made)) := by
  have here : a.report F now s = some (.of a.clone made) := by
    unfold Attempt.report
    rw [called]
  refine ⟨?_, fun b member s₂ made₂ called₂ => ?_⟩
  · rw [rest.returned, List.filterMap_cons_some here]
    rfl
  · rcases List.mem_cons.1 member with rfl | member
    · cases called.symm.trans called₂
      exact part
    · exact rest.alone b member s₂ made₂ called₂

/-- A last clone that raises outside a commit. -/
theorem Contained.last {s₁ : Store β} (called : a.call F now s = some (s₁, .raised false)) :
    Contained F now s [a] s' (.returned []) ∧ OnlyLastRaises F now s [a] := by
  have none : a.report F now s = none := by
    unfold Attempt.report
    rw [called]
  refine ⟨⟨?_, ?_⟩, nofun, ?_⟩
  · rw [List.filterMap_cons_none none]
    rfl
  · intro b member s₂ made₂ called₂
    rw [List.mem_singleton.1 member] at called₂
    cases called.symm.trans called₂
  · rintro _ ⟨⟩ ⟨s₂, raised⟩
    cases called.symm.trans raised

/-- A pass over expired profiles gets no further than its next clone. -/
theorem rollUpEach_expired (h : rollUpEach F now s true attempts = some (s', ended)) :
    s' = s ∧ (attempts = [] ∧ ended = .returned [] ∨ attempts ≠ [] ∧ ended = .raised) := by
  cases attempts with
  | nil =>
    cases h
    exact ⟨rfl, .inl ⟨rfl, rfl⟩⟩
  | cons a rest =>
    cases h
    exact ⟨rfl, .inr ⟨nofun, rfl⟩⟩

/-- A pass leaves the parts of the clones it does not go over. -/
theorem rollUpEach_frame {other : Nat} (keyed : s.Keyed)
    (apart : ∀ a ∈ attempts, other ≠ a.clone.id)
    (h : rollUpEach F now s false attempts = some (s', ended)) : SamePart other s s' := by
  induction attempts generalizing s ended with
  | nil =>
    cases h
    exact .refl _ _
  | cons a rest ih =>
    have apart' := fun b member => apart b (List.mem_cons_of_mem a member)
    unfold rollUpEach at h
    split at h
    · cases h
    · rename_i called
      obtain ⟨keyed, frame⟩ := rollupCall_frame keyed called
      obtain ⟨⟨_, _⟩, run, same⟩ := Option.map_eq_some_iff.1 h
      cases same
      exact (frame other (apart a List.mem_cons_self)).trans (ih keyed apart' run)
    · rename_i called
      cases h
      exact (rollupCall_frame keyed called).2 other (apart a List.mem_cons_self)
    · rename_i called
      obtain ⟨rfl, _⟩ := rollUpEach_expired h
      exact (rollupCall_frame keyed called).2 other (apart a List.mem_cons_self)

/-- The pass from a store whose parts for the clones still to come are those of `s₀`. -/
theorem rollUpEach_contained (keyed : s.Keyed)
    (distinct : (attempts.map fun a => a.clone.id).Nodup)
    (same : ∀ a ∈ attempts, SamePart a.clone.id s₀ s)
    (alone : ∀ a ∈ attempts, (a.call F now s₀).isSome = true)
    (h : rollUpEach F now s false attempts = some (s', ended)) :
    (OnlyLastRaises F now s₀ attempts → Contained F now s₀ attempts s' ended) ∧
      ∀ results, ended = .returned results → OnlyLastRaises F now s₀ attempts := by
  induction attempts generalizing s ended with
  | nil =>
    cases h
    exact ⟨fun _ => ⟨rfl, nofun⟩, fun _ _ => ⟨nofun, nofun⟩⟩
  | cons a rest ih =>
    obtain ⟨fresh, distinct⟩ := List.nodup_cons.1 distinct
    have apart : ∀ b ∈ rest, b.clone.id ≠ a.clone.id :=
      fun b member eq => fresh (List.mem_map.2 ⟨b, member, eq⟩)
    obtain ⟨⟨s₁, e⟩, called₀⟩ := Option.isSome_iff_exists.1 (alone a List.mem_cons_self)
    unfold rollUpEach at h
    split at h
    · cases h
    · rename_i t made called
      obtain ⟨rfl, after⟩ := rollupCall_local (same a List.mem_cons_self) called₀ called
      obtain ⟨keyed, frame⟩ := rollupCall_frame keyed called
      obtain ⟨⟨_, ended'⟩, run, eq⟩ := Option.map_eq_some_iff.1 h
      cases eq
      have returns : ¬ a.Raises F now s₀ := by
        rintro ⟨_, _, raised⟩
        cases called₀.symm.trans raised
      rw [OnlyLastRaises.cons_iff returns]
      obtain ⟨contained, onlyLast⟩ := ih keyed distinct
        (fun b member => (same b (List.mem_cons_of_mem a member)).trans
          (frame b.clone.id (apart b member)))
        (fun b member => alone b (List.mem_cons_of_mem a member)) run
      have later := rollUpEach_frame keyed (fun b member => (apart b member).symm) run
      refine ⟨fun harmless => (contained harmless).cons called₀ (after.trans later),
        fun results returned => ?_⟩
      cases ended' with
      | returned results' => exact onlyLast results' rfl
      | raised => cases returned
    · rename_i t called
      obtain ⟨rfl, _⟩ := rollupCall_local (same a List.mem_cons_self) called₀ called
      cases h
      refine ⟨fun harmless => ?_, nofun⟩
      exact absurd harmless (OnlyLastRaises.not_of_commit ⟨s₁, called₀⟩)
    · rename_i t called
      obtain ⟨rfl, _⟩ := rollupCall_local (same a List.mem_cons_self) called₀ called
      obtain ⟨rfl, ⟨rfl, rfl⟩ | ⟨more, rfl⟩⟩ := rollUpEach_expired h
      · obtain ⟨contained, onlyLast⟩ := Contained.last called₀
        exact ⟨fun _ => contained, fun _ _ => onlyLast⟩
      · refine ⟨fun harmless => ?_, nofun⟩
        exact absurd harmless (OnlyLastRaises.not_of_raises ⟨s₁, false, called₀⟩ more)

/-- **A pass returns and does for every other clone what its rollup does alone, exactly when no
clone but the last raises, and the last not in a commit.** -/
theorem failures_contained_iff (F : Format ι β) (override : Option Int) (now : Int)
    (s s' : Store β) (attempts : List Attempt) (ended : PassEnd) (keyed : s.Keyed)
    (alone : ∀ a ∈ attempts, (a.call F now s).isSome = true)
    (pass : runRollup F override now s attempts = some (s', ended)) :
    Contained F now s attempts s' ended ↔ OnlyLastRaises F now s attempts := by
  unfold runRollup at pass
  split at pass
  · rename_i due
    have distinct : (attempts.map fun a => a.clone.id).Nodup := by
      have ids : ((findDueClones override now s).map CloneProfile.id).Nodup :=
        s.profiles.nodup.sublist (List.filter_sublist.map _)
      have listed := ((due.map CloneProfile.id).nodup_iff).2 ids
      rwa [List.map_map] at listed
    obtain ⟨contained, onlyLast⟩ :=
      rollUpEach_contained keyed distinct (fun a _ => .refl _ s) alone pass
    exact ⟨fun ⟨returned, _⟩ => onlyLast _ returned, contained⟩
  · cases pass

end Pass

/-- Both of `twoClones` with a row. -/
def bothBuffered : Store (List MemoryItem) :=
  { twoClones with
    buffers := fun _ => some (Api.sample.row [⟨"m", "2026-01-01T00:00:00+00:00"⟩]) }

/-- The call for one of them, at the new year. -/
def newYearAttempt (id : Nat) (designation : String) (fault : Option CallFault) : Attempt :=
  ⟨⟨id, designation, activeStatus, .free, some id, 0⟩, ⟨0, id, 0,
    [⟨id, id, 63902822400000000, 63902822400000000, 1, ⟨id, 63902822400, 63902822400, 0⟩, .free, 0,
      none⟩]⟩, fault⟩

/-- The upload of the last clone of the pass fails. -/
def lastUploadFails : List Attempt :=
  [newYearAttempt 2 "beta" none, newYearAttempt 1 "alpha" (some (.effect .putObject))]

theorem contained_of_last_upload_failing :
    ∃ s' ended, runRollup Api.sample.toFormat none 63902822400000000 bothBuffered lastUploadFails =
        some (s', ended) ∧
      (s'.buffers 2).isNone = true ∧
      Contained Api.sample.toFormat 63902822400000000 bothBuffered lastUploadFails s' ended := by
  refine ⟨_, _, rfl, by decide, ?_⟩
  refine (failures_contained_iff Api.sample.toFormat none 63902822400000000 bothBuffered _
    lastUploadFails _ (by decide) ?_ rfl).2 ⟨?_, ?_⟩
  · intro a member
    rcases List.mem_cons.1 member with rfl | member
    · rfl
    · rw [List.mem_singleton.1 member]
      rfl
  · intro a member
    rw [List.mem_singleton.1 member]
    rintro ⟨_, _, raised⟩
    cases raised
  · rintro a ⟨⟩ ⟨_, raised⟩
    cases raised

/-- The same pass in the other order. -/
def firstUploadFails : List Attempt := lastUploadFails.reverse

/-- It raises, and the second clone, whose call alone returns, is not rolled up. -/
theorem stopped_of_first_upload_failing :
    ∃ s', runRollup Api.sample.toFormat none 63902822400000000 bothBuffered firstUploadFails =
        some (s', .raised) ∧
      (s'.buffers 2).isSome = true ∧
      ∃ s₁ backup, (newYearAttempt 2 "beta" none).call Api.sample.toFormat 63902822400000000
          bothBuffered = some (s₁, .returned (some backup)) ∧ (s₁.buffers 2).isNone = true :=
  ⟨_, rfl, rfl, _, _, rfl, rfl⟩

end Mycelium
