import Mycelium.Worker.Effects

/-!
# When an entry can be lost

An entry is accounted for when it is in the stream or its item is stored, in the
buffer row or in an archived payload. A flush stores its batch before it trims
the stream, so its own steps keep every entry accounted for, whatever other
workers do meanwhile and whether or not a trim took effect. Two steps can break
it: a rollup's transaction, which deletes the row as it is and archives the
payload read earlier, and a revert, which writes back the payload read earlier.
`Accounted` holds as long as those two discard nothing that is stored nowhere
else; the conditions are on the state before the step.
-/

namespace Mycelium

variable {ι β : Type} (S : Service ι β)

structure Accounted (s : MemoryState ι β) : Prop where
  entries : ∀ e ∈ s.accepted, e ∈ s.stream.entries ∨ S.newItem e ∈ S.stored s
  /-- a committed batch may be trimmed at any time -/
  batches : ∀ t batch, s.committed t = some batch → ∀ e ∈ batch, S.newItem e ∈ S.stored s

/-- Where a rollup deletes the row, each item of the row is in the payload it read or in an
archived one. -/
def Service.ArchivesRow (s : MemoryState ι β) (a : Action β) : Prop :=
  ∀ t ∈ a.commitsBackup, ∀ payload ∈ s.archiving t, ∀ x ∈ S.rowPayload s,
    x ∈ payload ∨ x ∈ s.archived.flatten

instance [DecidableEq ι] (s : MemoryState ι β) (a : Action β) : Decidable (S.ArchivesRow s a) :=
  inferInstanceAs (Decidable (∀ t ∈ a.commitsBackup, ∀ payload ∈ s.archiving t,
    ∀ x ∈ S.rowPayload s, x ∈ payload ∨ x ∈ s.archived.flatten))

/-- Where a revert writes back the contents it remembers, each entry whose item is in the row has
its item in those contents, or is in the stream and no flush is about to trim it. -/
def Service.RevertsOwn (s : MemoryState ι β) (a : Action β) : Prop :=
  ∀ t ∈ a.reverts, ∀ existing ∈ s.reverting t, ∀ e ∈ s.accepted, S.newItem e ∈ S.rowPayload s →
    S.newItem e ∈ existing ∨
      e ∈ s.stream.entries ∧ ∀ t' batch, s.committed t' = some batch → e ∉ batch

variable {S} {s s' : MemoryState ι β} {a : Action β}

theorem Accounted.initial : Accounted S (MemoryState.initial (ι := ι) (β := β)) where
  entries := by simp [MemoryState.initial]
  batches := by simp [MemoryState.initial, MemoryState.committed]

/-- A step after which everything stored is still stored and the stream has lost only what is. -/
theorem Accounted.kept (acc : Accounted S s) (accepted : s'.accepted = s.accepted)
    (live : ∀ e ∈ s.stream.entries, e ∈ s'.stream.entries ∨ S.newItem e ∈ S.stored s)
    (stored : ∀ x ∈ S.stored s, x ∈ S.stored s')
    (batches : ∀ t batch, s'.committed t = some batch →
      s.committed t = some batch ∨ ∀ e ∈ batch, S.newItem e ∈ S.stored s') : Accounted S s' := by
  constructor
  · intro e he
    rw [accepted] at he
    rcases acc.entries e he with inStream | inStore
    · exact (live e inStream).imp id (stored _)
    · exact .inr (stored _ inStore)
  · intro t batch now e he
    rcases batches t batch now with before | new
    · exact stored _ (acc.batches t batch before e he)
    · exact new e he

variable [DecidableEq β]

/-- **A step that meets both conditions keeps every entry accounted for.** -/
theorem Accounted.preserved (base : Base S s) (acc : Accounted S s) (h : step S s a = some s')
    (archives : S.ArchivesRow s a) (reverts : S.RevertsOwn s a) : Accounted S s' := by
  cases base.effect h with
  | quiet same committed =>
    have stored := stored_of_eq same.archived same.row
    refine acc.kept same.accepted ?_ ?_ ?_
    · rw [same.live]; exact fun e he => .inl he
    · rw [stored]; exact fun x hx => hx
    · rw [committed]; exact fun t batch h => .inl h
  | append e past accepted live row archived committed =>
    have stored := stored_of_eq archived row
    constructor
    · intro x hx
      rw [accepted, List.mem_append, List.mem_singleton] at hx
      rw [live, stored, List.mem_append, List.mem_singleton]
      rcases hx with old | rfl
      · exact (acc.entries x old).imp .inl id
      · exact .inl (.inr rfl)
    · rw [committed, stored]
      exact acc.batches
  | flush t entries seen batch before accepted live row archived committed =>
    have stored := stored_of_flush archived row
    refine acc.kept accepted ?_ ?_ ?_
    · rw [live]; exact fun e he => .inl he
    · rw [stored]; exact fun x hx => List.mem_append_left _ hx
    · intro t' batch' now
      rw [committed] at now
      by_cases same : t' = t
      · subst same
        rw [Function.update_self] at now
        cases now
        refine .inr fun e he => ?_
        rw [stored]
        exact List.mem_append_right _ (List.mem_map_of_mem he)
      · rw [Function.update_of_ne same] at now
        exact .inl now
  | trim t entries seen label batch accepted stream row archived committed =>
    have stored := stored_of_eq archived row
    refine acc.kept accepted ?_ ?_ ?_
    · intro e he
      rw [stream]
      by_cases still : e ∈ (S.trim entries s.stream).entries
      · exact .inl still
      · -- what a trim drops was in the batch, and the batch is stored
        exact .inr (acc.batches t entries batch e (base.mem_of_trimmed seen he still))
    · rw [stored]; exact fun x hx => hx
    · exact fun t' batch' now => .inl (MemoryState.committed_of_update committed now)
  | giveUp t entries batch same committed =>
    have stored := stored_of_eq same.archived same.row
    refine acc.kept same.accepted ?_ ?_ ?_
    · rw [same.live]; exact fun e he => .inl he
    · rw [stored]; exact fun x hx => hx
    · exact fun t' batch' now => .inl (MemoryState.committed_of_update committed now)
  | revert t existing kept accepted live row archived committed =>
    have still : ∀ e ∈ s.accepted, S.newItem e ∈ S.stored s → S.newItem e ∈ S.stored s' ∨
        e ∈ s.stream.entries ∧ ∀ t' batch, s.committed t' = some batch → e ∉ batch := by
      intro e he inStore
      rw [mem_stored, archived, row]
      rcases mem_stored.1 inStore with old | inRow
      · exact .inl (.inl old)
      · exact (reverts t rfl existing kept e he inRow).imp .inr id
    constructor
    · intro e he
      rw [accepted] at he
      rw [live]
      rcases acc.entries e he with inStream | inStore
      · exact .inl inStream
      · rcases still e he inStore with stored | inStream
        · exact .inr stored
        · exact .inl inStream.1
    · intro t' batch now e he
      rw [committed] at now
      have inStore := acc.batches t' batch now e he
      rcases still e ((base.seen_committed now).subset he) inStore with stored | apart
      · exact stored
      · exact absurd he (apart.2 t' batch now)
  | archive t id createdAt payload snapshot nonempty accepted live row archived committed =>
    refine acc.kept accepted ?_ ?_ ?_
    · rw [live]; exact fun e he => .inl he
    · intro x hx
      rw [mem_stored, archived, List.flatten_append, List.mem_append]
      rcases mem_stored.1 hx with old | inRow
      · exact .inl (.inl old)
      · rcases archives t rfl payload snapshot x inRow with inPayload | old
        · exact .inl (.inr (by simpa using inPayload))
        · exact .inl (.inl old)
    · rw [committed]; exact fun t' batch h => .inl h

/-- **What a run discards is stored elsewhere, so no entry is lost.** -/
theorem Accounted.reachable {as : List (Action β)}
    (run : Run.exec (step S) .initial as = some s)
    (archives : Run.Guarded (step S) S.ArchivesRow .initial as)
    (reverts : Run.Guarded (step S) S.RevertsOwn .initial as) : Accounted S s :=
  (Run.Guarded.invariant (I := fun s => Base S s ∧ Accounted S s)
    (fun _ _ _ inv cond h => ⟨inv.1.preserved h, inv.2.preserved inv.1 h cond.1 cond.2⟩)
    ⟨Base.initial, Accounted.initial⟩ (archives.and reverts) run).2

/-! ## Rollups -/

omit [DecidableEq β] in
theorem RevertsOwn.of_calm (calm : a.inFailure = false) : S.RevertsOwn s a := by
  intro t label
  cases a with
  | revert t => cases calm
  | _ => cases label

/-- **Flushes and rollups lose no entry while each rollup archives the row it deletes.** -/
theorem entry_kept_of_rollups_archive_the_row (as : List (Action β))
    (run : Run.exec (step S) .initial as = some s) (calm : ∀ a ∈ as, a.inFailure = false)
    (archives : Run.Guarded (step S) S.ArchivesRow .initial as) :
    ∀ e ∈ s.accepted, e ∈ s.stream.entries ∨ S.newItem e ∈ S.rowPayload s ∨
      ∃ payload ∈ s.archived, S.newItem e ∈ payload := by
  have reverts : Run.Guarded (step S) S.RevertsOwn .initial as :=
    (Run.Guarded.of_mem _ calm).mono fun _ _ => RevertsOwn.of_calm
  intro e he
  rcases (Accounted.reachable run archives reverts).entries e he with inStream | inStore
  · exact .inl inStream
  · rw [mem_stored, List.mem_flatten] at inStore
    exact .inr inStore.symm

/-- A rollup starts before the flush before it has trimmed, and another flush reads while the rollup
uploads and commits after it. -/
def overlappingTasks (β : Type) : List (Action β) :=
  [.append "a" "2026-01-01T00:00:00+00:00" ⟨1, 0⟩ false,
    .append "b" "2026-01-01T00:00:00+00:00" ⟨2, 0⟩ false, .startFlush 0 0, .readAll 0, .lockRow 0,
    .commitBuffer 0, .startRollup 1 .free 63902822400000001, .readBuffer 1,
    .append "c" "2026-01-01T00:00:00+00:00" ⟨3, 0⟩ true, .trim 0, .startFlush 2 0, .readAll 2,
    .putObject 1 0, .commitBackup 1 1 0, .lockRow 2,
    .append "d" "2026-01-01T00:00:00+00:00" ⟨4, 0⟩ true, .commitBuffer 2, .trim 2]

theorem entry_kept_of_overlapping_tasks :
    ∃ s, Run.exec (step (.sample .exact)) .initial (overlappingTasks _) = some s ∧
      s.accepted.map StreamEntry.content = ["a", "b", "c", "d"] ∧
      ∀ e ∈ s.accepted, e ∈ s.stream.entries ∨
        (Service.sample .exact).newItem e ∈ (Service.sample .exact).rowPayload s ∨
        ∃ payload ∈ s.archived, (Service.sample .exact).newItem e ∈ payload :=
  ⟨_, rfl, by decide, entry_kept_of_rollups_archive_the_row (overlappingTasks _) rfl
    (by decide) (by decide)⟩

/-- A rollup of an entry during which a flush appends another one to the row. -/
def flushInsideRollup (β : Type) : List (Action β) :=
  [.append "a" "2026-01-01T00:00:00+00:00" ⟨1, 0⟩ false, .startFlush 0 0, .readAll 0, .lockRow 0,
    .commitBuffer 0, .trim 0, .startRollup 1 .free 63902822400000001, .readBuffer 1,
    .append "b" "2026-01-01T00:00:00+00:00" ⟨2, 0⟩ false, .startFlush 2 0, .readAll 2, .lockRow 2,
    .commitBuffer 2, .trim 2, .putObject 1 0, .commitBackup 1 1 0]

/-- The entry flushed between a rollup's read and its commit is nowhere. -/
theorem entry_lost_inside_rollup :
    ∃ s, Run.exec (step (.sample .exact)) .initial (flushInsideRollup _) = some s ∧
      (∀ a ∈ flushInsideRollup (List MemoryItem), a.inFailure = false) ∧
      ¬ ∀ e ∈ s.accepted, e ∈ s.stream.entries ∨
        (Service.sample .exact).newItem e ∈ (Service.sample .exact).rowPayload s ∨
        ∃ payload ∈ s.archived, (Service.sample .exact).newItem e ∈ payload :=
  ⟨_, rfl, by decide, by decide⟩

/-! ## Reverts -/

/-- Without a rollup's commit nothing is archived. -/
theorem archived_of_no_rollup {as : List (Action β)} (run : Run.exec (step S) .initial as = some s)
    (noRollup : ∀ a ∈ as, a.commitsBackup = none) : s.archived = [] :=
  (Run.Guarded.invariant (P := fun _ a => a.commitsBackup = none)
    (I := fun s => Base S s ∧ s.archived = [])
    (fun _ _ _ inv other h => ⟨inv.1.preserved h, (inv.1.archived_kept h other).trans inv.2⟩)
    ⟨Base.initial, rfl⟩ (Run.Guarded.of_mem _ noRollup) run).2

/-- **Failing trims lose no entry while each revert discards only what the stream still has.** -/
theorem entry_kept_of_reverts_remove_own (as : List (Action β))
    (run : Run.exec (step S) .initial as = some s) (noRollup : ∀ a ∈ as, a.commitsBackup = none)
    (reverts : Run.Guarded (step S) S.RevertsOwn .initial as) :
    ∀ e ∈ s.accepted, e ∈ s.stream.entries ∨ S.newItem e ∈ S.rowPayload s := by
  have archives : Run.Guarded (step S) S.ArchivesRow .initial as := by
    refine (Run.Guarded.of_mem _ noRollup).mono fun s a other t label => ?_
    rw [other] at label
    cases label
  intro e he
  rcases (Accounted.reachable run archives reverts).entries e he with inStream | inStore
  · exact .inl inStream
  · rw [Service.stored, archived_of_no_rollup run noRollup] at inStore
    exact .inr inStore

/-- A flush whose trim raises before the server has trimmed. -/
def flushTrimRefused (β : Type) : List (Action β) :=
  [.append "a" "2026-01-01T00:00:00+00:00" ⟨1, 0⟩ false, .startFlush 0 0, .readAll 0, .lockRow 0,
    .commitBuffer 0, .fail 0, .revert 0]

theorem entry_kept_of_trim_refused :
    ∃ s, Run.exec (step (.sample .exact)) .initial (flushTrimRefused _) = some s ∧
      s.accepted ≠ [] ∧
      ∀ e ∈ s.accepted, e ∈ s.stream.entries ∨
        (Service.sample .exact).newItem e ∈ (Service.sample .exact).rowPayload s := by
  refine ⟨_, rfl, by decide,
    entry_kept_of_reverts_remove_own (flushTrimRefused _) rfl (by decide) ?_⟩
  refine .cons rfl nofun <| .cons rfl nofun <| .cons rfl nofun <| .cons rfl nofun <|
    .cons rfl nofun <| .cons rfl nofun <| .cons rfl ?_ trivial
  rintro t ⟨⟩ existing ⟨⟩ e he -
  refine .inr ⟨he, fun t' batch now => ?_⟩
  -- the only worker is past its trim
  by_cases same : t' = 0
  · subst same; cases now
  · simp [MemoryState.committed, MemoryState.initial, same] at now

/-- A flush whose trim raises after the server has trimmed. -/
def flushTrimUnanswered (β : Type) : List (Action β) :=
  [.append "a" "2026-01-01T00:00:00+00:00" ⟨1, 0⟩ false, .startFlush 0 0, .readAll 0, .lockRow 0,
    .commitBuffer 0, .trimUnanswered 0, .revert 0]

/-- The entry flushed is nowhere once the flush has ended. -/
theorem entry_lost_of_trim_unanswered :
    ∃ s, Run.exec (step (.sample .exact)) .initial (flushTrimUnanswered _) = some s ∧
      (∀ t, s.workers t = none) ∧
      (∀ a ∈ flushTrimUnanswered (List MemoryItem), a.commitsBackup = none) ∧
      ¬ ∀ e ∈ s.accepted, e ∈ s.stream.entries ∨
        (Service.sample .exact).newItem e ∈ (Service.sample .exact).rowPayload s := by
  refine ⟨_, rfl, fun t => ?_, by decide, by decide⟩
  simp [MemoryState.initial, Worker.next]

end Mycelium
