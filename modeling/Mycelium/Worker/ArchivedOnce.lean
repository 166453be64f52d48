import Mycelium.Worker.Effects
import Mathlib.Data.List.Nodup

/-!
# When a rollup archives an entry twice

Any number of rollups over one clone, beside writers and flushes of which one
runs at a time. `holdings` follows what a worker carries from an earlier call: a
flush the batch it read, a rollup the payload it read. A payload stays a prefix
of the row until a rollup deletes the row, and then an entry of it has been
archived. So a rollup's commit repeats an entry exactly when the payload it read
is no longer a prefix of the row.
-/

namespace Mycelium

variable {ι β : Type}

/-- The batch a flush has read and not yet committed. -/
def Worker.pending (w : Worker ι β) : Option (List StreamEntry) :=
  match w.job with
  | .flush _ (.read entries) => some entries
  | .flush _ (.locked entries _ _) => some entries
  | _ => none

/-- The payload a rollup has read and not yet committed. -/
def Worker.snapshot (w : Worker ι β) : Option (List ι) :=
  match w.job with
  | .rollup _ _ (.read _ payload _) => some payload
  | .rollup _ _ (.uploaded _ payload _ _) => some payload
  | _ => none

def Worker.flushes (w : Worker ι β) : Bool :=
  match w.job with
  | .flush .. => true
  | _ => false

namespace MemoryState

def pending (s : MemoryState ι β) (t : Nat) : Option (List StreamEntry) :=
  (s.workers t).bind Worker.pending

def snapshot (s : MemoryState ι β) (t : Nat) : Option (List ι) :=
  (s.workers t).bind Worker.snapshot

def flushing (s : MemoryState ι β) (t : Nat) : Prop := ∃ w ∈ s.workers t, w.flushes = true

end MemoryState

variable (S : Service ι β)

/-- What workers hold after a step: what they held before it, or what they have just read. -/
structure Holdings (s : MemoryState ι β) (a : Action β) (s' : MemoryState ι β) : Prop where
  pending : ∀ t entries, s'.pending t = some entries →
    s.pending t = some entries ∨ entries = s'.stream.entries
  snapshot : ∀ t p, s'.snapshot t = some p →
    s.snapshot t = some p ∨ p = S.rowPayload s' ∧ p ≠ []
  flushing : ∀ t, s'.flushing t → s.flushing t ∨ ∃ again, a = .startFlush t again

variable {S} {s s' : MemoryState ι β} {a : Action β}

/-- The holdings after the slot of `t` became `x`. -/
theorem Holdings.of_slot {t : Nat} {x : Option (Worker ι β)}
    (workers : s'.workers = Function.update s.workers t x)
    (pending : ∀ w ∈ x, ∀ entries, w.pending = some entries →
      s.pending t = some entries ∨ entries = s'.stream.entries)
    (snapshot : ∀ w ∈ x, ∀ p, w.snapshot = some p →
      s.snapshot t = some p ∨ p = S.rowPayload s' ∧ p ≠ [])
    (flushes : ∀ w ∈ x, w.flushes = true → s.flushing t ∨ ∃ again, a = .startFlush t again) :
    Holdings S s a s' := by
  have elsewhere : ∀ t', t' ≠ t → s'.workers t' = s.workers t' := fun t' other => by
    rw [workers, Function.update_of_ne other]
  have there : s'.workers t = x := by rw [workers, Function.update_self]
  constructor
  · intro t' entries now
    by_cases same : t' = t
    · subst same
      obtain ⟨w, found, now⟩ := Option.bind_eq_some_iff.1 now
      rw [there] at found
      exact pending w found entries now
    · rw [MemoryState.pending, elsewhere t' same] at now
      exact .inl now
  · intro t' p now
    by_cases same : t' = t
    · subst same
      obtain ⟨w, found, now⟩ := Option.bind_eq_some_iff.1 now
      rw [there] at found
      exact snapshot w found p now
    · rw [MemoryState.snapshot, elsewhere t' same] at now
      exact .inl now
  · rintro t' ⟨w, found, now⟩
    by_cases same : t' = t
    · subst same
      rw [there] at found
      exact flushes w found now
    · rw [elsewhere t' same] at found
      exact .inl ⟨w, found, now⟩

/-- The holdings after `t` moved from `w` to `x`. -/
theorem Holdings.of_moved {t : Nat} {w : Worker ι β} {x : Option (Worker ι β)}
    (here : s.workers t = some w) (workers : s'.workers = Function.update s.workers t x)
    (pending : ∀ w' ∈ x, ∀ entries, w'.pending = some entries →
      w.pending = some entries ∨ entries = s'.stream.entries)
    (snapshot : ∀ w' ∈ x, ∀ p, w'.snapshot = some p →
      w.snapshot = some p ∨ p = S.rowPayload s' ∧ p ≠ [])
    (flushes : ∀ w' ∈ x, w'.flushes = true → w.flushes = true) : Holdings S s a s' := by
  have heldBatch : s.pending t = w.pending := by rw [MemoryState.pending, here, Option.bind_some]
  have heldPayload : s.snapshot t = w.snapshot := by
    rw [MemoryState.snapshot, here, Option.bind_some]
  refine .of_slot workers ?_ ?_ ?_
  · rw [heldBatch]
    exact pending
  · rw [heldPayload]
    exact snapshot
  · exact fun w' found now => .inl ⟨w, here, flushes w' found now⟩

/-- A worker that goes on to its next call holds nothing. -/
theorem Holdings.of_next {t n m : Nat} {job : Job ι β} {alive : Bool}
    (here : s.workers t = some ⟨job, alive, n⟩)
    (workers : s'.workers = Function.update s.workers t (Worker.next ⟨job, alive, m⟩)) :
    Holdings S s a s' := by
  refine .of_moved here workers ?_ ?_ ?_
  · intro w' found entries now
    obtain ⟨again, rfl⟩ := Worker.next_eq found
    cases now
  · intro w' found p now
    obtain ⟨again, rfl⟩ := Worker.next_eq found
    cases now
  · intro w' found now
    cases job with
    | flush => rfl
    | rollup => cases found
    | resurrect => cases found

/-- A step of `t` at which it keeps what it holds, or drops it. -/
theorem Holdings.of_same {t n m : Nat} {job job' : Job ι β} {alive alive' : Bool}
    (here : s.workers t = some ⟨job, alive, n⟩)
    (workers : s'.workers = Function.update s.workers t (some ⟨job', alive', m⟩))
    (pending : (⟨job', alive', m⟩ : Worker ι β).pending = none ∨
      (⟨job', alive', m⟩ : Worker ι β).pending = (⟨job, alive, n⟩ : Worker ι β).pending)
    (snapshot : (⟨job', alive', m⟩ : Worker ι β).snapshot = none ∨
      (⟨job', alive', m⟩ : Worker ι β).snapshot = (⟨job, alive, n⟩ : Worker ι β).snapshot)
    (flushes : (⟨job', alive', m⟩ : Worker ι β).flushes = (⟨job, alive, n⟩ : Worker ι β).flushes) :
    Holdings S s a s' := by
  refine .of_moved here workers ?_ ?_ ?_
  · rintro w' ⟨⟩ entries now
    rcases pending with dropped | kept
    · rw [dropped] at now
      cases now
    · exact .inl (kept ▸ now)
  · rintro w' ⟨⟩ p now
    rcases snapshot with dropped | kept
    · rw [dropped] at now
      cases now
    · exact .inl (kept ▸ now)
  · rintro w' ⟨⟩ now
    exact flushes ▸ now

variable [DecidableEq β]

theorem Base.holdings (base : Base S s) (h : step S s a = some s') : Holdings S s a s' := by
  have step := step_sound h
  cases step with
  | append =>
    exact ⟨fun _ _ => .inl, fun _ _ => .inl, fun _ => .inl⟩
  | @spawn _ t job free starts =>
    have fresh : (⟨job, true, 0⟩ : Worker ι β).pending = none ∧
        (⟨job, true, 0⟩ : Worker ι β).snapshot = none ∧
        ((⟨job, true, 0⟩ : Worker ι β).flushes = true → ∃ again, a = .startFlush t again) := by
      cases a <;> simp only [Action.spawns, reduceCtorEq, Option.some.injEq, Prod.mk.injEq] at starts
        <;> obtain ⟨rfl, rfl⟩ := starts
      · exact ⟨rfl, rfl, fun _ => ⟨_, rfl⟩⟩
      · exact ⟨rfl, rfl, fun flushing => by cases flushing⟩
      · exact ⟨rfl, rfl, fun flushing => by cases flushing⟩
    obtain ⟨noBatch, noPayload, starts⟩ := fresh
    refine .of_slot rfl ?_ ?_ ?_
    · rintro w ⟨⟩ entries now
      rw [noBatch] at now
      cases now
    · rintro w ⟨⟩ p now
      rw [noPayload] at now
      cases now
    · rintro w ⟨⟩ now
      exact .inr (starts now)
  | ends here quit => exact .of_next here rfl
  | readAll here nonempty =>
    refine .of_moved here rfl ?_ ?_ ?_
    · rintro w' ⟨⟩ entries now
      cases now
      exact .inr rfl
    · rintro w' ⟨⟩ p now
      cases now
    · rintro w' ⟨⟩ now
      rfl
  | lockRow here => exact .of_same here rfl (.inr rfl) (.inl rfl) rfl
  | lockMissing here => exact .of_same here rfl (.inr rfl) (.inl rfl) rfl
  | commitUpdate here => exact .of_same here rfl (.inl rfl) (.inl rfl) rfl
  | commitInsert here => exact .of_same here rfl (.inl rfl) (.inl rfl) rfl
  | trim here => exact .of_next here rfl
  | trimUnanswered here => exact .of_same here rfl (.inl rfl) (.inl rfl) rfl
  | failTrim here => exact .of_same here rfl (.inl rfl) (.inl rfl) rfl
  | fail here other => exact .of_next here rfl
  | revert here => exact .of_next here rfl
  | revertGone here => exact .of_next here rfl
  | @readBuffer t tier now n buffer payload periodStart here present counted decoded start =>
    have row := base.decoded present decoded
    refine .of_moved here rfl ?_ ?_ ?_
    · rintro w' ⟨⟩ entries now
      cases now
    · rintro w' ⟨⟩ p now
      cases now
      refine .inr ⟨(rowPayload_some present row).symm, ?_⟩
      rintro rfl
      exact counted (by rw [row]; rfl)
    · rintro w' ⟨⟩ now
      cases now
  | putObject here => exact .of_same here rfl (.inl rfl) (.inr rfl) rfl
  | commitBackup here => exact .of_same here rfl (.inl rfl) (.inl rfl) rfl
  | selectStale here => exact .of_same here rfl (.inl rfl) (.inl rfl) rfl
  | deleteObject here => exact .of_same here rfl (.inl rfl) (.inl rfl) rfl
  | commitPrune here => exact .of_next here rfl
  | getObject here => exact .of_same here rfl (.inl rfl) (.inl rfl) rfl
  | putCopy here => exact .of_same here rfl (.inl rfl) (.inl rfl) rfl
  | commitCopy here => exact .of_next here rfl
  | @die t job n here =>
    exact .of_same here rfl (.inr rfl) (.inr rfl) rfl

/-! ## The invariant -/

section Once

variable {S : Service StreamEntry β} {s s' : MemoryState StreamEntry β} {a : Action β}

omit [DecidableEq β] in
theorem MemoryState.flushing_of_pending {t : Nat} {entries : List StreamEntry}
    (h : s.pending t = some entries) : s.flushing t ∧ s.committed t = none := by
  obtain ⟨⟨job, alive, n⟩, here, held⟩ := Option.bind_eq_some_iff.1 h
  unfold Worker.pending at held
  split at held
  · rename_i same
    change job = _ at same
    subst same
    exact ⟨⟨_, here, rfl⟩, by rw [committed_here here]; rfl⟩
  · rename_i same
    change job = _ at same
    subst same
    exact ⟨⟨_, here, rfl⟩, by rw [committed_here here]; rfl⟩
  · cases held

omit [DecidableEq β] in
theorem MemoryState.flushing_of_committed {t : Nat} {entries : List StreamEntry}
    (h : s.committed t = some entries) : s.flushing t := by
  obtain ⟨⟨job, alive, n⟩, here, held⟩ := Option.bind_eq_some_iff.1 h
  unfold Worker.committed at held
  split at held
  · rename_i same
    change job = _ at same
    subst same
    exact ⟨_, here, rfl⟩
  · cases held

omit [DecidableEq β] in
theorem MemoryState.pending_of_committing {t : Nat} {entries : List StreamEntry}
    (h : s.committing t = some entries) : s.pending t = some entries := by
  unfold MemoryState.committing at h
  split at h
  · rename_i here present
    cases h
    rw [pending, here]; rfl
  · rename_i here missing
    cases h
    rw [pending, here]; rfl
  · cases h

omit [DecidableEq β] in
theorem MemoryState.snapshot_of_archiving {t : Nat} {payload : List StreamEntry}
    (h : s.archiving t = some payload) : s.snapshot t = some payload := by
  unfold MemoryState.archiving at h
  split at h
  · rename_i here
    obtain ⟨start, utc, same⟩ := Option.map_eq_some_iff.1 h
    cases same
    rw [snapshot, here]; rfl
  · cases h

/-- A flush starts when no other is at work. -/
def MemoryState.FlushesAlone (s : MemoryState StreamEntry β) (a : Action β) : Prop :=
  ∀ t again, a = .startFlush t again → ∀ t', ¬ s.flushing t'

/-- Where a rollup commits, the payload it read is a prefix of the row. -/
def Service.ArchivesCurrent (S : Service StreamEntry β) (s : MemoryState StreamEntry β)
    (a : Action β) : Prop :=
  ∀ t ∈ a.commitsBackup, ∀ payload ∈ s.archiving t, payload <+: S.rowPayload s

instance (S : Service StreamEntry β) (s : MemoryState StreamEntry β) (a : Action β) :
    Decidable (S.ArchivesCurrent s a) :=
  inferInstanceAs (Decidable (∀ t ∈ a.commitsBackup, ∀ payload ∈ s.archiving t,
    payload <+: S.rowPayload s))

structure ArchivedOnce (S : Service StreamEntry β) (s : MemoryState StreamEntry β) : Prop where
  base : Base S s
  single : ∀ t t', s.flushing t → s.flushing t' → t = t'
  live : ∀ t entries, s.pending t = some entries → entries ⊆ s.stream.entries
  flushed : ∀ e ∈ S.stored s, s.Flushed e
  nodup : (S.stored s).Nodup
  snapshots : ∀ t p, s.snapshot t = some p →
    p ≠ [] ∧ (p <+: S.rowPayload s ∨ ∃ x ∈ p, x ∈ s.archived.flatten)

omit [DecidableEq β] in
theorem ArchivedOnce.initial : ArchivedOnce S .initial where
  base := Base.initial
  single := by rintro t t' ⟨w, ⟨⟩, _⟩
  live := by rintro t entries ⟨⟩
  flushed := by simp [Service.stored, rowPayload_none, MemoryState.initial]
  nodup := by simp [Service.stored, rowPayload_none, MemoryState.initial]
  snapshots := by rintro t p ⟨⟩

omit [DecidableEq β] in
/-- One flush at a time. -/
theorem Holdings.single (holds : Holdings S s a s') (alone : s.FlushesAlone a)
    (single : ∀ t t', s.flushing t → s.flushing t' → t = t') (t t' : Nat)
    (here : s'.flushing t) (there : s'.flushing t') : t = t' := by
  rcases holds.flushing t here with old | ⟨again, starts⟩
  · rcases holds.flushing t' there with old' | ⟨again', starts'⟩
    · exact single t t' old old'
    · exact absurd old (alone t' again' starts' t)
  · rcases holds.flushing t' there with old' | ⟨again', starts'⟩
    · exact absurd old' (alone t again starts t')
    · rw [starts] at starts'
      cases starts'
      rfl

omit [DecidableEq β] in
/-- A payload read earlier stays a prefix of the row, or an entry of it is archived. -/
theorem Holdings.snapshots (holds : Holdings S s a s')
    (kept : ∀ t p, s.snapshot t = some p →
      p ≠ [] ∧ (p <+: S.rowPayload s' ∨ ∃ x ∈ p, x ∈ s'.archived.flatten)) (t : Nat)
    (p : List StreamEntry) (now : s'.snapshot t = some p) :
    p ≠ [] ∧ (p <+: S.rowPayload s' ∨ ∃ x ∈ p, x ∈ s'.archived.flatten) := by
  rcases holds.snapshot t p now with old | ⟨rfl, nonempty⟩
  · exact kept t p old
  · exact ⟨nonempty, .inl (List.prefix_refl _)⟩

/-- **A commit of a current payload keeps every entry archived at most once.** -/
theorem ArchivedOnce.preserved (exact : S.trimMode = .exact) (traced : S.newItem = id)
    (inv : ArchivedOnce S s) (calm : a.inFailure = false) (alone : s.FlushesAlone a)
    (h : step S s a = some s') (current : S.ArchivesCurrent s a) : ArchivedOnce S s' := by
  have base := inv.base
  have base' := base.preserved h
  have holds := base.holdings h
  have single := holds.single alone inv.single
  have live : (∀ t entries, s.pending t = some entries → entries ⊆ s'.stream.entries) →
      ∀ t entries, s'.pending t = some entries → entries ⊆ s'.stream.entries := by
    intro kept t entries now
    rcases holds.pending t entries now with old | rfl
    · exact kept t entries old
    · exact List.Subset.refl _
  cases base.effect h with
  | quiet same committed =>
    refine ⟨base', single, live ?_, ?_, ?_, holds.snapshots ?_⟩
    · rw [same.live]; exact inv.live
    · rw [stored_of_eq same.archived same.row]
      exact fun e he => (same.flushed_iff committed e).2 (inv.flushed e he)
    · rw [stored_of_eq same.archived same.row]; exact inv.nodup
    · rw [same.row, same.archived]; exact inv.snapshots
  | append e past accepted stream row archived committed =>
    refine ⟨base', single, live ?_, ?_, ?_, holds.snapshots ?_⟩
    · rw [stream]
      exact fun t entries old e he => List.mem_append_left _ (inv.live t entries old he)
    · rw [stored_of_eq archived row]
      exact fun x hx => (base.flushed_of_append past accepted stream committed x).2
        (inv.flushed x hx)
    · rw [stored_of_eq archived row]; exact inv.nodup
    · rw [row, archived]; exact inv.snapshots
  | flush t entries seen batch before accepted stream row archived committed =>
    have items : S.newItems entries = entries := by simp [Service.newItems, traced]
    rw [items] at row
    have pending := MemoryState.pending_of_committing batch
    have flushing := (MemoryState.flushing_of_pending pending).1
    -- the batch is in the stream and no other flush is at work, so nothing of it is stored
    have fresh : ∀ e ∈ entries, e ∉ S.stored s := by
      intro e he inStore
      obtain ⟨t', batch', there, _⟩ := (inv.flushed e inStore).2 (inv.live t entries pending he)
      have same := inv.single t' t (MemoryState.flushing_of_committed there) flushing
      rw [same, before] at there
      cases there
    refine ⟨base', single, live ?_, ?_, ?_, holds.snapshots ?_⟩
    · rw [stream]; exact inv.live
    · rw [stored_of_flush archived row]
      intro e he
      rw [MemoryState.flushed_of_flush seen before accepted stream committed]
      exact (List.mem_append.1 he).imp (inv.flushed e) id
    · rw [stored_of_flush archived row]
      exact inv.nodup.append (seen.ordered base.ordered).nodup
        fun e inStore inBatch => fresh e inBatch inStore
    · rw [row, archived]
      intro t' p held
      obtain ⟨nonempty, kept⟩ := inv.snapshots t' p held
      exact ⟨nonempty, kept.imp (fun within => within.trans (List.prefix_append _ _)) id⟩
  | trim t entries seen label batch accepted stream row archived committed =>
    refine ⟨base', single, live ?_, ?_, ?_, holds.snapshots ?_⟩
    · intro t' entries' pending
      obtain ⟨flushing, idle⟩ := MemoryState.flushing_of_pending pending
      rw [inv.single t' t flushing (MemoryState.flushing_of_committed batch), batch] at idle
      cases idle
    · rw [stored_of_eq archived row]
      exact fun e he => (base.flushed_of_trim exact seen batch accepted stream committed e).2
        (inv.flushed e he)
    · rw [stored_of_eq archived row]; exact inv.nodup
    · rw [row, archived]; exact inv.snapshots
  | giveUp => cases calm
  | revert => cases calm
  | archive t id createdAt payload snapshot nonempty accepted stream row archived committed =>
    have within : payload <+: S.rowPayload s := current t rfl payload snapshot
    have stored : S.stored s' = s.archived.flatten ++ payload := by
      rw [Service.stored, row, archived, List.flatten_append, List.append_nil]
      simp
    have sublist : (S.stored s').Sublist (S.stored s) := by
      rw [stored]
      exact within.sublist.append_left _
    have flushed : ∀ e, s'.Flushed e ↔ s.Flushed e := by
      simp only [MemoryState.Flushed, accepted, stream, committed, implies_true]
    refine ⟨base', single, live ?_, ?_, inv.nodup.sublist sublist, holds.snapshots ?_⟩
    · rw [stream]; exact inv.live
    · exact fun e he => (flushed e).2 (inv.flushed e (sublist.subset he))
    · intro t' p held
      obtain ⟨nonempty', kept⟩ := inv.snapshots t' p held
      refine ⟨nonempty', .inr ?_⟩
      rcases kept with within' | ⟨x, inside, old⟩
      · -- two nonempty prefixes of the row begin with the same entry
        obtain ⟨x, rest, rfl⟩ := List.exists_cons_of_ne_nil nonempty'
        obtain ⟨y, rest', rfl⟩ := List.exists_cons_of_ne_nil nonempty
        obtain ⟨post, eq⟩ := within
        obtain ⟨post', eq'⟩ := within'
        have same : x = y := (List.cons.inj (eq'.trans eq.symm)).1
        refine ⟨x, List.mem_cons_self, ?_⟩
        rw [archived, List.flatten_append, same]
        simp
      · refine ⟨x, inside, ?_⟩
        rw [archived, List.flatten_append]
        exact List.mem_append_left _ old

/-- A commit that repeats no archived entry archives a current payload. -/
theorem ArchivedOnce.current_of_disjoint (inv : ArchivedOnce S s) (h : step S s a = some s')
    (disjoint : s'.archived.Pairwise List.Disjoint) : S.ArchivesCurrent s a := by
  intro t label payload snapshot
  obtain ⟨id, createdAt, commits⟩ : ∃ id createdAt, a = .commitBackup t id createdAt := by
    cases a <;> cases label
    exact ⟨_, _, rfl⟩
  subst commits
  rw [commit_archives h snapshot, List.pairwise_append] at disjoint
  obtain ⟨-, kept⟩ := inv.snapshots t payload (MemoryState.snapshot_of_archiving snapshot)
  rcases kept with within | ⟨x, inside, old⟩
  · exact within
  · obtain ⟨q, member, inOther⟩ := List.mem_flatten.1 old
    exact absurd inside (disjoint.2.2 q member payload (List.mem_singleton.2 rfl) inOther)

end Once

/-- **Overlapping rollups repeat no entry exactly when each commits a prefix of the row.** -/
theorem archived_disjoint_iff_rollups_archive_current (codec : Codec StreamEntry β)
    (fromisoformat : String → Option Datetime) (cloneId nodeEntries : Nat) (as : List (Action β))
    (calm : ∀ a ∈ as, a.inFailure = false)
    (alone : Run.Guarded (step (.traced codec fromisoformat cloneId nodeEntries .exact))
      MemoryState.FlushesAlone .initial as) :
    Run.Throughout (step (.traced codec fromisoformat cloneId nodeEntries .exact))
        (fun s => s.archived.Pairwise List.Disjoint) .initial as ↔
      Run.Guarded (step (.traced codec fromisoformat cloneId nodeEntries .exact))
        (Service.traced codec fromisoformat cloneId nodeEntries .exact).ArchivesCurrent
        .initial as := by
  refine Run.throughout_iff_guarded
    (I := ArchivedOnce (.traced codec fromisoformat cloneId nodeEntries .exact))
    (A := fun s a => a.inFailure = false ∧ s.FlushesAlone a) ?_ ?_ ?_ ArchivedOnce.initial
    ((Run.Guarded.of_mem _ calm).and alone)
  · intro s inv
    exact (List.nodup_flatten.1 (List.nodup_append'.1 inv.nodup).1).2
  · exact fun s a s' inv allowed h current =>
      inv.preserved rfl rfl allowed.1 allowed.2 h current
  · exact fun s a s' inv _ h disjoint => inv.current_of_disjoint h disjoint

/-- A flush of one entry, then a rollup of it that another rollup overlaps but does not commit. -/
def rollupTogether (β : Type) : List (Action β) :=
  [.append "a" "2026-01-01T00:00:00+00:00" ⟨1, 0⟩ false, .startFlush 0 0, .readAll 0, .lockRow 0,
    .commitBuffer 0, .trim 0, .startRollup 1 .free 63902822400000001, .readBuffer 1,
    .startRollup 2 .free 63902822400000002, .readBuffer 2, .putObject 1 0, .putObject 2 1,
    .commitBackup 1 1 0]

theorem flushes_alone_of_rollup_together :
    Run.Guarded (step (.tracedSample .exact)) MemoryState.FlushesAlone .initial
      (rollupTogether (List StreamEntry)) := by
  refine .cons rfl nofun <| .cons rfl ?_ <| .cons rfl nofun <| .cons rfl nofun <|
    .cons rfl nofun <| .cons rfl nofun <| .cons rfl nofun <| .cons rfl nofun <|
    .cons rfl nofun <| .cons rfl nofun <| .cons rfl nofun <| .cons rfl nofun <|
    .cons rfl nofun trivial
  rintro t again - t' ⟨w, ⟨⟩, _⟩

theorem archived_disjoint_of_rollup_together :
    Run.Throughout (step (.tracedSample .exact)) (fun s => s.archived.Pairwise List.Disjoint)
        .initial (rollupTogether _) :=
  (archived_disjoint_iff_rollups_archive_current _ _ _ _ _ (by decide)
    flushes_alone_of_rollup_together).2 (by decide)

/-- The other rollup commits too. -/
def rollupTwice (β : Type) : List (Action β) := rollupTogether β ++ [.commitBackup 2 2 0]

/-- Both backups hold the entry. -/
theorem entry_archived_twice :
    ∃ s, Run.exec (step (.tracedSample .exact)) .initial (rollupTwice _) = some s ∧
      (∀ a ∈ rollupTwice (List StreamEntry), a.inFailure = false) ∧
      Run.Guarded (step (.tracedSample .exact)) MemoryState.FlushesAlone .initial
        (rollupTwice (List StreamEntry)) ∧
      ∃ e ∈ s.accepted, 1 < (s.archived.filter fun payload => e ∈ payload).length := by
  refine ⟨_, rfl, by decide, ?_, by decide⟩
  refine .cons rfl nofun <| .cons rfl ?_ <| .cons rfl nofun <| .cons rfl nofun <|
    .cons rfl nofun <| .cons rfl nofun <| .cons rfl nofun <| .cons rfl nofun <|
    .cons rfl nofun <| .cons rfl nofun <| .cons rfl nofun <| .cons rfl nofun <|
    .cons rfl nofun <| .cons rfl nofun trivial
  rintro t again - t' ⟨w, ⟨⟩, _⟩

end Mycelium
