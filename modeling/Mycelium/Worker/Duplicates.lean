import Mycelium.Worker.Effects
import Mathlib.Data.List.Nodup

/-!
# When a flush appends an entry twice

Writers and flushes alone, on a server that trims exactly, with payload items
that are whole stream entries. `RowFollows` says which entries are in the row:
those that are no longer in the stream, and those of a batch that was committed
and not trimmed, be its worker alive or dead. So a commit repeats an entry
exactly when its batch, read before the row was locked, holds an entry of either
kind by now.
-/

namespace Mycelium

variable {β : Type} {S : Service StreamEntry β} {s s' : MemoryState StreamEntry β} {a : Action β}

/-- Where a flush commits, its batch is still in the stream, and no other flush has committed any
of it without having trimmed the stream. -/
def MemoryState.AppendsLive (s : MemoryState StreamEntry β) (a : Action β) : Prop :=
  ∀ t ∈ a.commitsBuffer, ∀ entries ∈ s.committing t, ∀ e ∈ entries,
    e ∈ s.stream.entries ∧ ∀ t' batch, s.committed t' = some batch → e ∉ batch

structure RowFollows (S : Service StreamEntry β) (s : MemoryState StreamEntry β) : Prop where
  base : Base S s
  nodup : (S.rowPayload s).Nodup
  mem : ∀ e, e ∈ S.rowPayload s ↔ s.Flushed e

theorem RowFollows.initial : RowFollows S .initial where
  base := Base.initial
  nodup := by rw [rowPayload_none rfl]; exact List.nodup_nil
  mem e := by
    rw [rowPayload_none rfl]
    simp [MemoryState.Flushed, MemoryState.initial]

/-- A flush's condition says that nothing of its batch is in the row. -/
theorem RowFollows.live_iff (inv : RowFollows S s) {e : StreamEntry} (accepted : e ∈ s.accepted) :
    (e ∈ s.stream.entries ∧ ∀ t batch, s.committed t = some batch → e ∉ batch) ↔
      e ∉ S.rowPayload s := by
  rw [inv.mem, MemoryState.Flushed]
  constructor
  · rintro ⟨inStream, apart⟩ ⟨_, flushed⟩
    obtain ⟨t, batch, committed, inside⟩ := flushed inStream
    exact apart t batch committed inside
  · intro not
    have inStream : e ∈ s.stream.entries := by
      by_contra gone
      exact not ⟨accepted, fun here => absurd here gone⟩
    exact ⟨inStream, fun t batch committed inside =>
      not ⟨accepted, fun _ => ⟨t, batch, committed, inside⟩⟩⟩

variable [DecidableEq β]

/-- **A commit of live entries keeps the row in step with the stream.** -/
theorem RowFollows.preserved (exact : S.trimMode = .exact) (traced : S.newItem = id)
    (inv : RowFollows S s) (allowed : a.ofFlushes = true) (h : step S s a = some s')
    (live : s.AppendsLive a) : RowFollows S s' := by
  have base := inv.base
  have base' := base.preserved h
  have items : ∀ entries, S.newItems entries = entries := by simp [Service.newItems, traced]
  cases base.effect h with
  | quiet same committed =>
    refine ⟨base', by rw [same.row]; exact inv.nodup, fun e => ?_⟩
    rw [same.row, inv.mem, same.flushed_iff committed]
  | append e past accepted stream row archived committed =>
    refine ⟨base', by rw [row]; exact inv.nodup, fun x => ?_⟩
    rw [row, inv.mem, base.flushed_of_append past accepted stream committed]
  | flush t entries seen batch before accepted stream row archived committed =>
    rw [items] at row
    have fresh : ∀ e ∈ entries, e ∉ S.rowPayload s := fun e he =>
      (inv.live_iff (seen.subset he)).1 (live t rfl entries batch e he)
    refine ⟨base', ?_, fun e => ?_⟩
    · rw [row]
      exact inv.nodup.append (seen.ordered base.ordered).nodup
        fun e inRow inBatch => fresh e inBatch inRow
    · rw [row, List.mem_append, inv.mem,
        MemoryState.flushed_of_flush seen before accepted stream committed]
  | trim t entries seen label batch accepted stream row archived committed =>
    refine ⟨base', by rw [row]; exact inv.nodup, fun e => ?_⟩
    rw [row, inv.mem, base.flushed_of_trim exact seen batch accepted stream committed]
  | giveUp => cases allowed
  | revert => cases allowed
  | archive => cases allowed

/-- A commit that repeats nothing appends live entries. -/
theorem RowFollows.live_of_nodup (traced : S.newItem = id) (inv : RowFollows S s)
    (h : step S s a = some s') (nodup : (S.rowPayload s').Nodup) : s.AppendsLive a := by
  intro t label entries batch
  have commits : a = .commitBuffer t := by
    cases a <;> cases label
    rfl
  subst commits
  have row := inv.base.commit_appends h batch
  simp only [Service.newItems, traced, List.map_id] at row
  rw [row] at nodup
  intro e he
  have seen : s.Seen entries := inv.base.seen_committing batch
  exact (inv.live_iff (seen.subset he)).2 fun inRow => (List.nodup_append'.1 nodup).2.2 inRow he

/-- **Overlapping flushes repeat no entry exactly when each commits live entries only.** -/
theorem row_nodup_iff_flushes_append_live (codec : Codec StreamEntry β)
    (fromisoformat : String → Option Datetime) (cloneId nodeEntries : Nat) (as : List (Action β))
    (flushes : ∀ a ∈ as, a.ofFlushes = true) :
    Run.Throughout (step (.traced codec fromisoformat cloneId nodeEntries .exact))
        (fun s => ((Service.traced codec fromisoformat cloneId nodeEntries .exact).rowPayload
          s).Nodup) .initial as ↔
      Run.Guarded (step (.traced codec fromisoformat cloneId nodeEntries .exact))
        MemoryState.AppendsLive .initial as :=
  Run.throughout_iff_guarded (I := RowFollows _) (fun _ inv => inv.nodup)
    (fun _ _ _ inv allowed h live => inv.preserved rfl rfl allowed h live)
    (fun _ _ _ inv _ h nodup => inv.live_of_nodup rfl h nodup)
    RowFollows.initial (Run.Guarded.of_mem _ flushes)

/-- The second flush starts before the first has read, and a third reads what the second is about to
commit and dies before it commits it again. -/
def overlappingFlushes (β : Type) : List (Action β) :=
  [.append "a" "2026-01-01T00:00:00+00:00" ⟨1, 0⟩ false, .startFlush 0 0, .startFlush 1 0,
    .append "b" "2026-01-01T00:00:00+00:00" ⟨2, 0⟩ false, .readAll 0, .lockRow 0, .commitBuffer 0,
    .append "c" "2026-01-01T00:00:00+00:00" ⟨3, 0⟩ true, .trim 0, .readAll 1, .startFlush 2 0,
    .append "d" "2026-01-01T00:00:00+00:00" ⟨4, 0⟩ true, .readAll 2, .lockRow 1, .die 2,
    .commitBuffer 1, .startFlush 3 0, .trim 1, .readAll 3, .lockRow 3, .commitBuffer 3]

theorem row_nodup_of_overlapping_flushes :
    (Run.exec (step (.tracedSample .exact)) .initial (overlappingFlushes _)).isSome = true ∧
      Run.Throughout (step (.tracedSample .exact))
        (fun s => ((Service.tracedSample .exact).rowPayload s).Nodup) .initial
        (overlappingFlushes _) ∧
      Run.Guarded (step (.tracedSample .exact)) MemoryState.AppendsLive .initial
        (overlappingFlushes _) :=
  have nodup : Run.Throughout (step (.tracedSample .exact))
      (fun s => ((Service.tracedSample .exact).rowPayload s).Nodup) .initial
      (overlappingFlushes _) := by
    decide
  ⟨rfl, nodup, (row_nodup_iff_flushes_append_live _ _ _ _ _ (by decide)).1 nodup⟩

/-- Two flushes that read the same entry before either has locked the row. -/
def flushTogether (β : Type) : List (Action β) :=
  [.append "a" "2026-01-01T00:00:00+00:00" ⟨1, 0⟩ false, .startFlush 0 0, .readAll 0,
    .startFlush 1 0, .readAll 1, .lockRow 0, .commitBuffer 0, .trim 0, .lockRow 1, .commitBuffer 1]

/-- The entry is in the row twice. -/
theorem entry_repeated_by_flush_together :
    ∃ s, Run.exec (step (.tracedSample .exact)) .initial (flushTogether _) = some s ∧
      (∀ a ∈ flushTogether (List StreamEntry), a.ofFlushes = true) ∧
      ¬ ((Service.tracedSample .exact).rowPayload s).Nodup :=
  ⟨_, rfl, by decide, by decide⟩

end Mycelium
