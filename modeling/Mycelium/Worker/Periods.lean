import Mycelium.Worker.ArchivedOnce
import Mycelium.Worker.Metadata
import Mycelium.Worker.Uploads

/-!
# When a backup ends

`rollup_clone` stores the `now` it is given as `period_end` and computes
`period_start` from the payload. So a row starts no later than its entries
(`Describes`) whatever happens, and ends no earlier than they do as long as the
payload a rollup commits was captured by its `now`. A copy takes both stamps and
the bytes over.
-/

namespace Mycelium

variable {ι β : Type}

/-- The item's `captured_at`, if it parses, is not past `t`. -/
def Format.CapturedBy (F : Format ι β) (t : Int) (x : ι) : Prop :=
  ∀ d ∈ F.capturedTime x, d.instant ≤ t

instance (F : Format ι β) (t : Int) (x : ι) : Decidable (F.CapturedBy t x) :=
  inferInstanceAs (Decidable (∀ d ∈ _, _))

theorem Format.CapturedBy.mono {F : Format ι β} {t t' : Int} {x : ι} (by_ : F.CapturedBy t x)
    (le : t ≤ t') : F.CapturedBy t' x :=
  fun d parsed => (by_ d parsed).trans le

/-- The `now` and the payload of the rollup that `commitBackup t` would commit now. -/
def MemoryState.archivingAt (s : MemoryState ι β) (t : Nat) : Option (Int × List ι) :=
  match s.workers t with
  | some ⟨.rollup _ now (.uploaded _ payload periodStart _), true, _⟩ =>
    periodStart.astimezoneUtc.map fun _ => (now, payload)
  | _ => none

variable (S : Service ι β)

/-- `raw` encodes items none of which was captured after the row's period. -/
def Service.Ends (b : MemoryBackup) (raw : β) : Prop :=
  ∃ items, raw = S.encodePayload items ∧ ∀ x ∈ items, S.CapturedBy b.periodEnd x

/-- So does the row's object, for as long as it exists. -/
def Service.EndsAt (s : MemoryState ι β) (b : MemoryBackup) : Prop :=
  b.storageKey ∈ s.keys ∧ ∀ raw, s.objects b.storageKey = some raw → S.Ends b raw

/-- What a resurrection knows of the bytes it copies. -/
def Service.KnowsEnd (w : World ι β) (x : Worker ι β) : Prop :=
  match x.job with
  | .resurrect _ latest .selected => S.EndsAt (w latest.cloneId) latest
  | .resurrect _ latest (.fetched raw) => S.Ends latest raw
  | .resurrect _ latest (.copied raw _) => S.Ends latest raw
  | _ => True

structure EndsOk (w : World ι β) : Prop where
  rows : ∀ c, ∀ b ∈ (w c).backups, S.EndsAt (w c) b
  workers : ∀ c t x, (w c).workers t = some x → S.KnowsEnd w x

variable {S} {s s' : MemoryState ι β} {w w' : World ι β} {c t : Nat}

theorem Service.EndsAt.later {b : MemoryBackup} (ends : S.EndsAt s b) (grows : Grows s s') :
    S.EndsAt s' b :=
  ⟨grows.keys _ ends.1, fun raw held => ends.2 raw (grows.objects _ ends.1 raw held)⟩

theorem Service.KnowsEnd.later {x : Worker ι β} (knows : S.KnowsEnd w x)
    (grows : ∀ c', Grows (w c') (w' c')) : S.KnowsEnd w' x := by
  obtain ⟨job, alive, n⟩ := x
  cases job with
  | resurrect tier latest point =>
    cases point with
    | selected => exact Service.EndsAt.later knows (grows _)
    | fetched raw => exact knows
    | copied raw key => exact knows
  | _ => trivial

theorem Service.KnowsEnd.next {x y : Worker ι β} (h : x.next = some y) : S.KnowsEnd w y := by
  obtain ⟨again, rfl⟩ := Worker.next_eq h
  trivial

theorem EndsOk.initial : EndsOk S World.initial where
  rows _ := by simp [World.initial, MemoryState.initial]
  workers _ := by simp [World.initial, MemoryState.initial]

/-- A step in the lane of `c`, from the rows and the workers it adds there. -/
theorem EndsOk.moved (ok : EndsOk S w) (grows : Grows (w c) s)
    (rows : ∀ b ∈ s.backups, b ∈ (w c).backups ∨ S.EndsAt s b)
    (workers : ∀ t x, s.workers t = some x →
      (w c).workers t = some x ∨ S.KnowsEnd (Function.update w c s) x) :
    EndsOk S (Function.update w c s) := by
  have everywhere := grows_update grows
  constructor
  · refine (Function.forall_update_iff w fun c' lane => ∀ b ∈ lane.backups, S.EndsAt lane b).2
      ⟨fun b listed => ?_, fun c' _ => ok.rows c'⟩
    rcases rows b listed with old | new
    · exact (ok.rows c b old).later grows
    · exact new
  · refine (Function.forall_update_iff w fun _ lane => ∀ t x, lane.workers t = some x →
      S.KnowsEnd (Function.update w c s) x).2
      ⟨fun t x found => ?_, fun c' _ t x found => (ok.workers c' t x found).later everywhere⟩
    rcases workers t x found with old | new
    · exact (ok.workers c t x old).later everywhere
    · exact new

/-- A step of `t`. -/
theorem EndsOk.slot (ok : EndsOk S w) (grows : Grows (w c) s) {x : Option (Worker ι β)}
    (rows : ∀ b ∈ s.backups, b ∈ (w c).backups ∨ S.EndsAt s b)
    (workers : s.workers = Function.update (w c).workers t x)
    (moved : ∀ y, x = some y → S.KnowsEnd (Function.update w c s) y) :
    EndsOk S (Function.update w c s) :=
  ok.moved grows rows (slot_moved workers moved)

/-- The row of an upload that holds `raw`. -/
theorem MemoryState.Holds.endsAt {b : MemoryBackup} {raw : β} (holds : s.Holds b.storageKey raw)
    (ends : S.Ends b raw) : S.EndsAt s b :=
  ⟨holds.1, fun raw' held => by rw [holds.2 raw' held]; exact ends⟩

variable [DecidableEq β] {a : Action β}

/-- **Rows keep their ends** through a step that commits no payload captured past its `now`. -/
theorem EndsOk.preserved (known : WorldOk S w) (ok : EndsOk S w)
    (h : w.step S (c, a) = some w')
    (fits : ∀ t, a.commitsBackup = some t → ∀ y ∈ (w c).archivingAt t, ∀ x ∈ y.2,
      S.CapturedBy y.1 x) : EndsOk S w' := by
  obtain ⟨reads, s, taken, rfl⟩ := World.step_eq h
  have step := step_sound taken
  have grows := step.grows
  cases step with
  | append fresh => exact ok.moved grows (fun _ => .inl) fun _ _ => .inl
  | @spawn _ t job free starts =>
    refine ok.slot grows (fun _ => .inl) rfl ?_
    rintro y ⟨⟩
    cases a <;> simp only [Action.spawns, reduceCtorEq, Option.some.injEq, Prod.mk.injEq] at starts
      <;> obtain ⟨rfl, rfl⟩ := starts
    · trivial
    · trivial
    · obtain ⟨apart, listed, _⟩ := reads.1 _ rfl
      change S.EndsAt (Function.update w c _ _) _
      rw [Function.update_of_ne apart]
      exact ok.rows _ _ listed
  | ends here quit | fail here other =>
    exact ok.slot grows (fun _ => .inl) rfl fun y next => .next next
  | trim here | revert here free present | revertGone here missing =>
    exact ok.slot grows (fun _ => .inl) rfl fun y next => .next next
  | commitPrune here =>
    exact ok.slot grows (fun _ listed => .inl (List.mem_of_mem_filter listed)) rfl
      fun y next => .next next
  | @getObject t raw tier latest n here =>
    have ends : S.EndsAt (w latest.cloneId) latest := ok.workers c _ _ here
    have fetched : w.object latest.storageKey = some raw :=
      reads.2 _ rfl latest (by simp [World.fetching, here])
    rw [World.object, known.named _ _ ends.1] at fetched
    refine ok.slot grows (fun _ => .inl) rfl ?_
    rintro y ⟨⟩
    exact ends.2 raw fetched
  | @putCopy t uuid tier latest raw n key here named fresh =>
    have ends : S.Ends latest raw := ok.workers c _ _ here
    refine ok.slot grows (fun _ => .inl) rfl ?_
    rintro y ⟨⟩
    exact ends
  | @commitBackup t id createdAt tier now n buffer payload periodStart key start backup here utc
      fresh free row =>
    have holds : (w c).Holds key buffer.payloadBlob := known.workers c _ _ here
    have snapshot : (S.at c).Snapshot buffer payload periodStart := (known.base c).workers _ _ here
    have captured : ∀ x ∈ payload, S.CapturedBy now x :=
      fits t rfl (now, payload) (by simp [MemoryState.archivingAt, here, utc])
    refine ok.slot grows (fun b listed => ?_) rfl ?_
    · rcases List.mem_append.1 listed with old | new
      · exact .inl old
      · rw [List.mem_singleton] at new
        subst new
        subst row
        exact .inr (MemoryState.Holds.endsAt holds ⟨payload, by rw [snapshot.row]; rfl, captured⟩)
    · rintro y ⟨⟩
      trivial
  | @commitCopy t id createdAt restoredAt tier latest raw key n resurrected here fresh row =>
    obtain ⟨_, _, _, copy⟩ := known.workers c _ _ here
    have ends : S.Ends latest raw := ok.workers c _ _ here
    subst row
    refine ok.slot grows (fun b listed => ?_) rfl fun y next => .next next
    rcases List.mem_append.1 listed with old | new
    · exact .inl old
    · rw [List.mem_singleton] at new
      subst new
      exact .inr (MemoryState.Holds.endsAt copy ends)
  | @die t job n here =>
    have knows : S.KnowsEnd w ⟨job, true, n⟩ := ok.workers c _ _ here
    refine ok.slot grows (fun _ => .inl) rfl ?_
    rintro y ⟨⟩
    exact knows.later (grows_update grows)
  | readAll here nonempty | lockRow here present free decoded | lockMissing here missing =>
    refine ok.slot grows (fun _ => .inl) rfl ?_
    rintro y ⟨⟩
    trivial
  | commitUpdate here present | commitInsert here missing | trimUnanswered here | failTrim here =>
    refine ok.slot grows (fun _ => .inl) rfl ?_
    rintro y ⟨⟩
    trivial
  | readBuffer here present counted decoded start | putObject here named fresh =>
    refine ok.slot grows (fun _ => .inl) rfl ?_
    rintro y ⟨⟩
    trivial
  | selectStale here ranks | deleteObject here =>
    refine ok.slot grows (fun _ => .inl) rfl ?_
    rintro y ⟨⟩
    trivial

end Mycelium
