import Mycelium.Worker.Alone
import Mycelium.Worker.FlushAll
import Mycelium.Worker.World
import Mycelium.Worker.Prunes

/-!
# A clone's stores beside whole calls

`Service.Lane` holds the machine of one clone against stores on which the clone's
tasks have run as whole calls. A worker's step keeps it, and the call runs where the
task ends or is cut off; a call of another clone keeps it too, since what it writes is
not this clone's part.
-/

namespace Mycelium

variable {ι β : Type} {S : Service ι β} {s s' : Store β}
  {m m' : MemoryState ι β} {t : Nat}

/-! ## Step by step -/

/-- The clone's stores `m` beside the stores `s` that calls as a whole have made: with no call under
way they are the same, and during a call they hold what it has made of `s`. The dead are not at
work. -/
inductive Service.Lane (S : Service ι β) (s : Store β) (m : MemoryState ι β) : Option Call → Prop where
  | idle (nobody : ∀ t, m.running t = none) (shows : S.Shows s m) : Lane S s m none
  | busy {call t job n} (here : m.workers t = some ⟨job, true, n⟩)
      (alone : ∀ t', t' ≠ t → m.running t' = none) (reached : S.Reached s m call job) :
      Lane S s m (some call)

section Lane

variable {call : Call} {job : Job ι β} {n : Nat}

theorem MemoryState.eq_of_alone (here : m.workers t = some ⟨job, true, n⟩)
    (alone : ∀ t', t' ≠ t → m.running t' = none) {t' n' : Nat} {job' : Job ι β}
    (here' : m.workers t' = some ⟨job', true, n'⟩) : t' = t ∧ job' = job ∧ n' = n := by
  have same : t' = t := by
    by_contra other
    have running := MemoryState.running_iff.2 ⟨here', rfl⟩
    rw [alone t' other] at running
    cases running
  subst same
  cases here.symm.trans here'
  exact ⟨rfl, rfl, rfl⟩

theorem MemoryState.running_moved {x : Option (Worker ι β)}
    (workers : m'.workers = Function.update m.workers t x) {t' : Nat} (other : t' ≠ t) :
    m'.running t' = m.running t' := by
  rw [MemoryState.running, MemoryState.running, workers, Function.update_of_ne other]

/-- The worker goes on to the next access. -/
theorem Service.Lane.moved (alone : ∀ t', t' ≠ t → m.running t' = none)
    (workers : m'.workers = Function.update m.workers t (some ⟨job, true, n⟩))
    (reached : S.Reached s m' call job) : S.Lane s m' (some call) := by
  refine .busy (t := t) (n := n) ?_ (fun t' other => ?_) reached
  · rw [workers, Function.update_self]
  · rw [MemoryState.running_moved workers other]
    exact alone t' other

/-- Nobody is at work in the slot of `t` any more. -/
theorem Service.Lane.left {x : Option (Worker ι β)} (alone : ∀ t', t' ≠ t → m.running t' = none)
    (workers : m'.workers = Function.update m.workers t x) (gone : x.filter Worker.alive = none)
    (shows : S.Shows s m') : S.Lane s m' none := by
  refine .idle (fun t' => ?_) shows
  by_cases same : t' = t
  · subst same
    rw [MemoryState.running, workers, Function.update_self, gone]
  · rw [MemoryState.running_moved workers same]
    exact alone t' same

/-- The call has ended. -/
theorem Service.Lane.ended {s' : Store β} (alone : ∀ t', t' ≠ t → m.running t' = none)
    (reached : S.Reached s m call job)
    (workers : m'.workers = Function.update m.workers t (Worker.next ⟨job, true, n⟩))
    (shows : S.Shows s' m') : S.Lane s' m' call.next := by
  cases reached with
  | @flush again point done =>
    cases again with
    | zero => exact .left alone workers rfl shows
    | succ again => exact .moved alone workers (.flush shows)
  | rollup => exact .left alone workers rfl shows
  | resurrect => exact .left alone workers rfl shows

/-- A start is no step of a worker. -/
theorem Action.worker_of_spawns {a : Action β} {x : Nat × Job ι β} (starts : a.spawns = some x) :
    a.worker = none := by
  cases a <;> first | rfl | cases starts

variable [DecidableEq β] {a : Action β}

/-- **A step of the worker.** Its call is still under way, or has now done all that it does. -/
theorem Service.Lane.step (lane : S.Lane s m (some call)) (h : Mycelium.step S m a = some m')
    (mine : a.worker ≠ none) (new : ∀ id ∈ a.inserts, id ∉ s.backups.rows.map MemoryBackup.id)
    (reads : ∀ x ∈ a.fetches, ∀ tier latest n,
      m.workers x.1 = some ⟨.resurrect tier latest .selected, true, n⟩ →
        s.objects latest.storageKey = some x.2) :
    S.Lane s m' (some call) ∨
      ∃ s' after, (after = call.next ∨ after = none) ∧ call.Runs S s s' ∧ S.Lane s' m' after := by
  cases lane with
  | @busy _ t job n here alone reached =>
  have cutOff := reached.interrupted
  cases step_sound h with
  | append => exact absurd rfl mine
  | spawn free starts => exact absurd (Action.worker_of_spawns starts) mine
  | ends here' quit | fail here' other =>
    obtain ⟨rfl, rfl, rfl⟩ := MemoryState.eq_of_alone here alone here'
    obtain ⟨s', runs, shows⟩ := cutOff
    exact .inr ⟨s', _, .inl rfl, runs, .ended alone reached rfl (shows.ended _ _)⟩
  | die here' =>
    obtain ⟨rfl, rfl, rfl⟩ := MemoryState.eq_of_alone here alone here'
    obtain ⟨s', runs, shows⟩ := cutOff
    exact .inr ⟨s', _, .inr rfl, runs, .left alone rfl rfl (shows.ended _ _)⟩
  | readAll here' nonempty =>
    obtain ⟨rfl, rfl, rfl⟩ := MemoryState.eq_of_alone here alone here'
    cases reached with
    | flush shows =>
    exact .inl (.moved alone rfl (.flush ⟨congrArg Stream.entries shows.stream, nonempty,
      shows.set _ _⟩))
  | lockRow here' present free decoded =>
    obtain ⟨rfl, rfl, rfl⟩ := MemoryState.eq_of_alone here alone here'
    cases reached with
    | flush done =>
    obtain ⟨all, ne, shows⟩ := done
    have loaded := present.symm.trans shows.buffer
    exact .inl (.moved alone rfl (.flush ⟨all, ne, loaded, decoded, (shows.setLock _).set _ _⟩))
  | lockMissing here' missing =>
    obtain ⟨rfl, rfl, rfl⟩ := MemoryState.eq_of_alone here alone here'
    cases reached with
    | flush done =>
    obtain ⟨all, ne, shows⟩ := done
    have loaded := missing.symm.trans shows.buffer
    exact .inl (.moved alone rfl (.flush ⟨all, ne, loaded, rfl, shows.set _ _⟩))
  | commitUpdate here' present =>
    obtain ⟨rfl, rfl, rfl⟩ := MemoryState.eq_of_alone here alone here'
    cases reached with
    | flush done =>
    obtain ⟨all, ne, loaded, decoded, shows⟩ := done
    cases present.symm.trans (shows.buffer.trans loaded.symm)
    exact .inl (.moved alone rfl (.flush ⟨all, ne, loaded ▸ decoded,
      (shows.setBuffer (writeChanged_self _ _)).ended _ _⟩))
  | commitInsert here' missing =>
    obtain ⟨rfl, rfl, rfl⟩ := MemoryState.eq_of_alone here alone here'
    cases reached with
    | flush done =>
    obtain ⟨all, ne, loaded, decoded, shows⟩ := done
    exact .inl (.moved alone rfl (.flush ⟨all, ne, loaded ▸ decoded,
      (shows.setBuffer rfl).set _ _⟩))
  | trim here' =>
    obtain ⟨rfl, rfl, rfl⟩ := MemoryState.eq_of_alone here alone here'
    have stands := reached
    cases stands with
    | flush done =>
    obtain ⟨all, ne, decoded, shows⟩ := done
    refine .inr ⟨_, _, .inl rfl, .flush _ none, .ended alone reached rfl ?_⟩
    rw [flushOneStream_done all ne decoded]
    exact (shows.setStream (congrArg (S.trim _) shows.stream)).ended _ _
  | trimUnanswered here' =>
    obtain ⟨rfl, rfl, rfl⟩ := MemoryState.eq_of_alone here alone here'
    cases reached with
    | flush done =>
    obtain ⟨all, ne, decoded, shows⟩ := done
    refine .inl (.moved alone rfl (.flush ⟨all, ne, decoded, true, ?_⟩))
    rw [flushOneStream_trim all ne decoded]
    exact (shows.setStream (congrArg (S.trim _) shows.stream)).set _ _
  | failTrim here' =>
    obtain ⟨rfl, rfl, rfl⟩ := MemoryState.eq_of_alone here alone here'
    cases reached with
    | flush done =>
    obtain ⟨all, ne, decoded, shows⟩ := done
    refine .inl (.moved alone rfl (.flush ⟨all, ne, decoded, false, ?_⟩))
    rw [flushOneStream_trim all ne decoded]
    exact shows.set _ _
  | revert here' free present =>
    obtain ⟨rfl, rfl, rfl⟩ := MemoryState.eq_of_alone here alone here'
    have stands := reached
    cases stands with
    | flush done =>
    obtain ⟨all, ne, decoded, applied, shows⟩ := done
    refine .inr ⟨_, _, .inl rfl, .flush _ (some (.trim applied true)),
      .ended alone reached rfl ?_⟩
    rw [flushOneStream_trim all ne decoded] at shows ⊢
    have held := Option.some.inj (present.symm.trans (shows.buffer.trans (flushed_buffer ..)))
    rw [held]
    exact (shows.setBuffer (writeChanged_self _ _)).ended _ _
  | revertGone here' missing =>
    obtain ⟨rfl, rfl, rfl⟩ := MemoryState.eq_of_alone here alone here'
    cases reached with
    | flush done =>
    obtain ⟨all, ne, decoded, applied, shows⟩ := done
    rw [flushOneStream_trim all ne decoded] at shows
    cases missing.symm.trans (shows.buffer.trans (flushed_buffer ..))
  | readBuffer here' present counted decoded start =>
    obtain ⟨rfl, rfl, rfl⟩ := MemoryState.eq_of_alone here alone here'
    cases reached with
    | rollup ofClone shows =>
    refine .inl (.moved alone rfl (.rollup ofClone ⟨?_, shows.set _ _⟩))
    rw [ofClone, ← shows.buffer, present]
    simp [Format.readBuffer, counted, decoded, start]
  | @putObject t uuid tier now' n buffer payload periodStart key here' named unused =>
    obtain ⟨rfl, rfl, rfl⟩ := MemoryState.eq_of_alone here alone here'
    cases reached with
    | rollup ofClone done =>
    obtain ⟨read, shows⟩ := done
    have own : key.cloneId = S.cloneId := by rw [named]; rfl
    refine .inl (.moved alone rfl (.rollup ofClone ⟨read, shows.fresh key own unused, ⟨uuid, ?_⟩,
      (shows.putObject key _).set _ _⟩))
    rw [named, ofClone]
  | @commitBackup t id createdAt tier now' n buffer payload periodStart key start backup here' utc
      unused free row =>
    obtain ⟨rfl, rfl, rfl⟩ := MemoryState.eq_of_alone here alone here'
    cases reached with
    | rollup ofClone done =>
    obtain ⟨read, fresh, ⟨uuid, rfl⟩, shows⟩ := done
    obtain ⟨committed, archived⟩ := archiveBuffer_committed ⟨uuid, id, createdAt, []⟩ read fresh utc
      (new id rfl)
    rw [← ofClone] at row
    subst row
    exact .inl (.moved alone rfl (.rollup ofClone ⟨_, committed, archived,
      (shows.committed ofClone read archived).set _ _⟩))
  | @selectStale t ranked tier now' n backup here' ranks =>
    obtain ⟨rfl, rfl, rfl⟩ := MemoryState.eq_of_alone here alone here'
    cases reached with
    | rollup ofClone done =>
    obtain ⟨choice, committed, archived, shows⟩ := done
    rw [shows.backups, ← ofClone] at ranks
    exact .inl (.moved alone rfl (.rollup ofClone ⟨{ choice with ranked := ranked }, committed, [],
      archived, ranks, rfl, rfl, shows.deleteNone.set _ _⟩))
  | @deleteObject t tier now' n backup stale key todo here' =>
    obtain ⟨rfl, rfl, rfl⟩ := MemoryState.eq_of_alone here alone here'
    cases reached with
    | rollup ofClone done =>
    obtain ⟨choice, committed, gone, archived, ranks, stale, split, shows⟩ := done
    refine .inl (.moved alone rfl (.rollup ofClone ⟨choice, committed, gone ++ [key], archived,
      ranks, stale, ?_, (shows.deleteObject key).set _ _⟩))
    rw [split, List.append_assoc]
    rfl
  | commitPrune here' =>
    obtain ⟨rfl, rfl, rfl⟩ := MemoryState.eq_of_alone here alone here'
    have stands := reached
    cases stands with
    | rollup ofClone done =>
    obtain ⟨choice, committed, gone, archived, ranks, rfl, split, shows⟩ := done
    rw [List.append_nil] at split
    subst split
    have pruned : pruneStaleBackups committed _ choice.ranked none =
        some (committed.prune (staleBackups choice.ranked), true) := if_pos ranks
    exact .inr ⟨_, _, .inl rfl, .rollup ofClone (rollupClone_of_prune archived pruned),
      .ended alone reached rfl (shows.prune.ended _ _)⟩
  | getObject here' =>
    obtain ⟨rfl, rfl, rfl⟩ := MemoryState.eq_of_alone here alone here'
    cases reached with
    | resurrect ofClone selects shows =>
    exact .inl (.moved alone rfl (.resurrect ofClone selects ⟨reads _ rfl _ _ _ here', shows.set _ _⟩))
  | @putCopy t uuid tier latest raw n key here' named unused =>
    obtain ⟨rfl, rfl, rfl⟩ := MemoryState.eq_of_alone here alone here'
    cases reached with
    | resurrect ofClone selects done =>
    obtain ⟨read, shows⟩ := done
    have own : key.cloneId = S.cloneId := by rw [named]; rfl
    refine .inl (.moved alone rfl (.resurrect ofClone selects ⟨read, shows.fresh key own unused,
      ⟨uuid, ?_⟩, (shows.putObject key _).set _ _⟩))
    rw [named, ofClone]
  | @commitCopy t newId createdAt restoredAt tier latest raw key n resurrected here' unused row =>
    obtain ⟨rfl, rfl, rfl⟩ := MemoryState.eq_of_alone here alone here'
    have stands := reached
    cases stands with
    | @resurrect profile _ _ ofClone selects done =>
    obtain ⟨read, fresh, ⟨uuid, rfl⟩, shows⟩ := done
    let choice := { Choice.selecting latest none with
      now := restoredAt, id := newId, createdAt := createdAt, uuid := uuid }
    obtain ⟨backups, inserted, ended⟩ :=
      resurrectFrom_committed S.toFormat choice selects rfl read fresh (new newId rfl) rfl
    have same : resurrected = resurrectedRow profile latest choice := by
      rw [row, ← ofClone]
      rfl
    have stored : ((s.putObject resurrected.storageKey raw).objects
        resurrected.storageKey).isSome = true := by
      rw [Store.objects_putObject]
      rfl
    subst same
    exact .inr ⟨_, _, .inl rfl, .resurrect ofClone rfl ended, .ended alone reached rfl
      ((shows.insert inserted ofClone stored _ _).ended _ _)⟩

end Lane

/-! ## Other clones' calls -/

section Elsewhere

variable {F : Format ι β} {clone : CloneProfile} {now : Int} {choice : RollupChoice}

theorem Store.Fresh.elsewhere {key : ObjectKey} (same : SamePart key.cloneId s s')
    (keyed : s'.Keyed) (fresh : s.Fresh key) : s'.Fresh key := by
  obtain ⟨empty, unnamed⟩ := fresh
  refine ⟨by rwa [same.objects key rfl], fun named => unnamed ?_⟩
  obtain ⟨b, listed, rfl⟩ := List.mem_map.1 named
  have own : b ∈ s'.backupsOf b.storageKey.cloneId :=
    Store.mem_backupsOf.2 ⟨listed, (keyed b listed).symm⟩
  rw [same.backups] at own
  exact List.mem_map_of_mem (Store.mem_backupsOf.1 own).1

theorem Service.Shows.elsewhere (shows : S.Shows s m) (same : SamePart S.cloneId s s')
    (keyed : s'.Keyed) : S.Shows s' m where
  stream := shows.stream.trans same.stream.symm
  buffer := shows.buffer.trans same.buffer.symm
  backups := shows.backups.trans same.backups.symm
  objects key own := (shows.objects key own).trans (same.objects key own).symm
  fresh key own unused := (shows.fresh key own unused).elsewhere (own ▸ same) keyed

theorem Service.FlushedTo.elsewhere {point : FlushPoint ι β} (done : S.FlushedTo s m point)
    (same : SamePart S.cloneId s s') (keyed : s'.Keyed) : S.FlushedTo s' m point := by
  cases point with
  | start => exact Service.Shows.elsewhere done same keyed
  | read entries =>
    obtain ⟨all, ne, shows⟩ := done
    exact ⟨by rw [all, same.stream], ne, shows.elsewhere same keyed⟩
  | locked entries loaded existing =>
    obtain ⟨all, ne, read, decoded, shows⟩ := done
    exact ⟨by rw [all, same.stream], ne, by rw [read, same.buffer], decoded,
      shows.elsewhere same keyed⟩
  | committed entries existing =>
    obtain ⟨all, ne, decoded, shows⟩ := done
    exact ⟨by rw [all, same.stream], ne, by rw [same.buffer, decoded],
      shows.elsewhere (same.setBuffer _) keyed⟩
  | reverting entries existing =>
    obtain ⟨all, ne, decoded, applied, shows⟩ := done
    have kept : (flushOneStream S s' (some (.trim applied false))).1.Keyed := by
      unfold Store.Keyed
      rw [(flushOneStream_archive _).1]
      exact keyed
    exact ⟨by rw [all, same.stream], ne, by rw [same.buffer, decoded], applied,
      shows.elsewhere (flushOneStream_local same).2 kept⟩

/-- What a rollup that has committed has read, and its row. -/
theorem archiveBuffer_backedUp {committed : Store β} {b : MemoryBackup}
    (h : archiveBuffer F s clone now choice none = some (committed, .backedUp b)) :
    ∃ buffer periodStart start,
      F.readBuffer (s.buffers clone.id) = some (buffer, periodStart) ∧
      s.Fresh (backupKey clone.id periodStart (.utc now) choice.uuid) ∧
      periodStart.astimezoneUtc = some start ∧
      choice.id ∉ s.backups.rows.map MemoryBackup.id ∧
      b = ⟨choice.id, clone.id, start, now, buffer.entryCount,
        backupKey clone.id periodStart (.utc now) choice.uuid, clone.subscriptionTier,
        choice.createdAt, none⟩ := by
  unfold archiveBuffer at h
  split at h
  · cases h
  · split at h
    · cases h
    · rename_i buffer periodStart read
      simp only [reduceCtorEq, ↓reduceIte] at h
      split at h
      · rename_i fresh
        split at h
        · cases h
        · rename_i start utc
          split at h
          · cases h
          · rename_i backups inserted
            cases h
            exact ⟨buffer, periodStart, start, read, fresh, utc, (Table.insert_eq_some inserted).1,
              rfl⟩
      · cases h

/-- A rollup commits the same row to any stores with the clone's part in common that do not have the
row's id. -/
theorem archiveBuffer_elsewhere {committed : Store β} {b : MemoryBackup}
    (same : SamePart clone.id s s') (keyed : s'.Keyed)
    (new : b.id ∉ s.backups.rows.map MemoryBackup.id → b.id ∉ s'.backups.rows.map MemoryBackup.id)
    (h : archiveBuffer F s clone now choice none = some (committed, .backedUp b)) :
    ∃ committed', archiveBuffer F s' clone now choice none = some (committed', .backedUp b) ∧
      SamePart clone.id committed committed' ∧ committed'.Keyed := by
  obtain ⟨buffer, periodStart, start, read, fresh, utc, unused, rfl⟩ := archiveBuffer_backedUp h
  rw [← same.buffer] at read
  obtain ⟨committed', archived⟩ := archiveBuffer_committed choice read
    (Store.Fresh.elsewhere same keyed fresh) utc (new unused)
  exact ⟨committed', archived, (archiveBuffer_local same h archived).2,
    (archiveBuffer_frame keyed archived).1⟩

theorem Service.RolledUpTo.elsewhere {point : RollupPoint ι β}
    (done : S.RolledUpTo s clone now m point) (ofClone : clone.id = S.cloneId)
    (same : SamePart S.cloneId s s') (keyed : s'.Keyed)
    (apart : ∀ b ∈ m.backups, b.id ∉ s.backups.rows.map MemoryBackup.id →
      b.id ∉ s'.backups.rows.map MemoryBackup.id) : S.RolledUpTo s' clone now m point := by
  have own : SamePart clone.id s s' := ofClone ▸ same
  cases point with
  | start => exact Service.Shows.elsewhere done same keyed
  | read buffer payload periodStart =>
    obtain ⟨read, shows⟩ := done
    exact ⟨by rw [own.buffer, read], shows.elsewhere same keyed⟩
  | uploaded buffer payload periodStart key =>
    obtain ⟨read, fresh, named, shows⟩ := done
    obtain ⟨uuid, rfl⟩ := id named
    exact ⟨by rw [own.buffer, read], fresh.elsewhere own keyed, named,
      shows.elsewhere (same.upload _ _) keyed⟩
  | committed backup =>
    obtain ⟨choice, committed, archived, shows⟩ := done
    have listed : backup ∈ m.backups := by
      rw [shows.backups, ← ofClone, (archiveBuffer_step archived).backupsOf]
      exact List.mem_append_right _ (List.mem_singleton_self _)
    obtain ⟨committed', archived', part, kept⟩ :=
      archiveBuffer_elsewhere own keyed (apart backup listed) archived
    exact ⟨choice, committed', archived', shows.elsewhere (ofClone ▸ part) kept⟩
  | pruning backup stale todo =>
    obtain ⟨choice, committed, gone, archived, ranks, selected, split, shows⟩ := done
    have listed : backup ∈ m.backups := by
      rw [shows.backups]
      show backup ∈ committed.backupsOf _
      rw [← ofClone, (archiveBuffer_step archived).backupsOf]
      exact List.mem_append_right _ (List.mem_singleton_self _)
    obtain ⟨committed', archived', part, kept⟩ :=
      archiveBuffer_elsewhere own keyed (apart backup listed) archived
    refine ⟨choice, committed', gone, archived', ?_, selected, split, ?_⟩
    · rwa [part.backups]
    · exact shows.elsewhere (ofClone ▸ part.delete gone) kept

variable {profile : CloneProfile} {latest : MemoryBackup}

theorem Store.Selects.elsewhere (selects : s.Selects profile latest)
    (profiles : s'.profiles = s.profiles)
    (rows : s'.backupsOf latest.cloneId = s.backupsOf latest.cloneId) :
    s'.Selects profile latest := by
  obtain ⟨other, source, found, inactive, isLatest⟩ := selects
  exact ⟨other, source, by rw [profiles, found], inactive, by rwa [rows]⟩

theorem Service.ResurrectedTo.elsewhere {point : ResurrectPoint β}
    (done : S.ResurrectedTo s profile latest m point) (ofClone : profile.id = S.cloneId)
    (same : SamePart S.cloneId s s') (keyed : s'.Keyed)
    (object : s'.objects latest.storageKey = s.objects latest.storageKey) :
    S.ResurrectedTo s' profile latest m point := by
  cases point with
  | selected => exact Service.Shows.elsewhere done same keyed
  | fetched raw => exact ⟨object.trans done.1, done.2.elsewhere same keyed⟩
  | copied raw key =>
    obtain ⟨read, fresh, named, shows⟩ := done
    obtain ⟨uuid, rfl⟩ := id named
    have own : SamePart profile.id s s' := ofClone ▸ same
    exact ⟨object.trans read, fresh.elsewhere own keyed, named,
      shows.elsewhere (same.upload _ _) keyed⟩

theorem archiveBuffer_profiles {result : RollupResult} {fault : Option RollupFault}
    (h : archiveBuffer F s clone now choice fault = some (s', result)) :
    s'.profiles = s.profiles := by
  cases archiveBuffer_step h <;> rfl

theorem pruneStaleBackups_profiles {cloneId : Nat} {ranked : List MemoryBackup} {ok : Bool}
    {fault : Option RollupFault} (h : pruneStaleBackups s cloneId ranked fault = some (s', ok)) :
    s'.profiles = s.profiles := by
  cases (pruneStaleBackups_step h).2 <;> rfl

/-- A resurrection stores nothing but a copy under the caller's own key. -/
theorem resurrectFrom_objects {profile : CloneProfile} {sourceProfileId : Int} {c : Choice}
    {resp : Response ι} (h : resurrectFrom F s profile sourceProfileId c = some (s', resp))
    {key : ObjectKey} (apart : key.cloneId ≠ profile.id) : s'.objects key = s.objects key := by
  have other : ∀ start ends : Datetime, ∀ uuid, key ≠ backupKey profile.id start ends uuid := by
    rintro start ends uuid rfl
    exact apart rfl
  unfold resurrectFrom at h
  split at h
  · cases h
    rfl
  · split at h
    · cases h
      rfl
    · split at h
      · cases h
        rfl
      · split at h
        · split at h
          · cases h
            rfl
          · split at h
            · cases h
              rfl
            · split at h
              · cases h
                rfl
              · simp only at h
                split at h
                · cases h
                  rfl
                · split at h
                  · split at h
                    · cases h
                      exact Store.objects_putObject_of_ne (other _ _ _) _
                    · split at h
                      · cases h
                      · split at h
                        · cases h
                          exact Store.objects_putObject_of_ne (other _ _ _) _
                        · cases h
                          exact Store.objects_putObject_of_ne (other _ _ _) _
                  · cases h
        · cases h

/-- What a call leaves: the other clones' parts, and the profiles. -/
theorem Call.Runs.frame {call : Call} (runs : call.Runs S s s') (keyed : s.Keyed) :
    s'.Keyed ∧ (∀ other, other ≠ S.cloneId → SamePart other s s') ∧ s'.profiles = s.profiles := by
  cases runs with
  | flush again fault =>
    have frame := flushOneStream_frame S s fault
    refine ⟨?_, fun other apart => frame.samePart apart, ?_⟩
    · unfold Store.Keyed
      rw [(flushOneStream_archive _).1]
      exact keyed
    · rw [frame.rest]
  | rollup ofClone ended =>
    rw [← ofClone]
    rcases rollupClone_step ended with ⟨archived, _⟩ | ⟨committed, b, ok, archived, pruned, _⟩
    · have frame := archiveBuffer_frame keyed archived
      exact ⟨frame.1, frame.2, archiveBuffer_profiles archived⟩
    · obtain ⟨kept, archive⟩ := archiveBuffer_frame keyed archived
      obtain ⟨kept, prune⟩ := pruneStaleBackups_frame kept pruned
      refine ⟨kept, fun other apart => (archive other apart).trans (prune other apart), ?_⟩
      exact (pruneStaleBackups_profiles pruned).trans (archiveBuffer_profiles archived)
  | resurrect ofClone newest ended =>
    rw [← ofClone]
    have objects : ∀ other, other ≠ _ → ∀ key : ObjectKey, key.cloneId = other →
        s'.objects key = s.objects key :=
      fun other apart key own => resurrectFrom_objects ended (own ▸ apart)
    cases resurrectFrom_step ended with
    | refused | raised => exact ⟨keyed, fun _ _ => .refl _ _, rfl⟩
    | uncommitted key raw fresh =>
      exact ⟨keyed, fun other apart => ⟨rfl, rfl, rfl, objects other apart⟩, rfl⟩
    | committed latest' raw backups resurrects read fresh inserted =>
      refine ⟨fun b listed => ?_, fun other apart => ⟨rfl, rfl, ?_, objects other apart⟩, rfl⟩
      · rcases (Table.mem_of_insert inserted).1 listed with old | rfl
        · exact keyed b old
        · rfl
      · show backups.rows.filter _ = s.backups.rows.filter _
        rw [(Table.insert_eq_some inserted).2, List.filter_append, List.filter_singleton]
        simp [resurrectedRow, apart.symm]

/-- **A call of another clone.** A resurrection's source is to be left as it is, too. -/
theorem Service.Lane.elsewhere {called : Option Call} (lane : S.Lane s m called)
    (same : SamePart S.cloneId s s') (keyed : s'.Keyed) (profiles : s'.profiles = s.profiles)
    (apart : ∀ b ∈ m.backups, b.id ∉ s.backups.rows.map MemoryBackup.id →
      b.id ∉ s'.backups.rows.map MemoryBackup.id)
    (source : ∀ profile latest, called = some (.resurrect profile latest) →
      s'.backupsOf latest.cloneId = s.backupsOf latest.cloneId ∧
        s'.objects latest.storageKey = s.objects latest.storageKey) : S.Lane s' m called := by
  cases lane with
  | idle nobody shows => exact .idle nobody (shows.elsewhere same keyed)
  | busy here alone reached =>
    refine .busy here alone ?_
    cases reached with
    | flush done => exact .flush (done.elsewhere same keyed)
    | rollup ofClone done => exact .rollup ofClone (done.elsewhere ofClone same keyed apart)
    | resurrect ofClone selects done =>
      obtain ⟨rows, object⟩ := source _ _ rfl
      exact .resurrect ofClone (selects.elsewhere profiles rows)
        (done.elsewhere ofClone same keyed object)

/-- A call in progress has deleted no row. -/
theorem Service.Lane.rows {called : Option Call} (lane : S.Lane s m called) :
    ∀ b ∈ s.backupsOf S.cloneId, b ∈ m.backups := by
  intro b listed
  cases lane with
  | idle nobody shows => exact shows.backups ▸ listed
  | busy here alone reached =>
    cases reached with
    | @flush again point done =>
      cases point with
      | start => exact done.backups ▸ listed
      | read entries => exact done.2.2.backups ▸ listed
      | locked entries loaded existing => exact done.2.2.2.2.backups ▸ listed
      | committed entries existing =>
        rw [done.2.2.2.backups]
        exact listed
      | reverting entries existing =>
        obtain ⟨_, _, _, applied, shows⟩ := done
        rw [shows.backups, Store.backupsOf, (flushOneStream_archive _).1]
        exact listed
    | @rollup clone now point ofClone done =>
      cases point with
      | start => exact done.backups ▸ listed
      | read buffer payload periodStart => exact done.2.backups ▸ listed
      | uploaded buffer payload periodStart key =>
        rw [done.2.2.2.backups]
        exact listed
      | committed backup =>
        obtain ⟨choice, committed, archived, shows⟩ := done
        rw [shows.backups, ← ofClone, (archiveBuffer_step archived).backupsOf]
        exact List.mem_append_left _ (ofClone ▸ listed)
      | pruning backup stale todo =>
        obtain ⟨choice, committed, gone, archived, _, _, _, shows⟩ := done
        rw [shows.backups]
        show b ∈ committed.backupsOf _
        rw [← ofClone, (archiveBuffer_step archived).backupsOf]
        exact List.mem_append_left _ (ofClone ▸ listed)
    | @resurrect profile latest point ofClone selects done =>
      cases point with
      | selected => exact done.backups ▸ listed
      | fetched raw => exact done.2.backups ▸ listed
      | copied raw key =>
        rw [done.2.2.2.backups]
        exact listed

end Elsewhere

end Mycelium
