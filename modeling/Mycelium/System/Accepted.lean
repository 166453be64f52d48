import Mycelium.System.Events

/-!
# Can every accepted write be backed up?

A write's `captured_at` may carry any offset, and travels as text through the
stream and the buffer. The rollup parses it, takes the earliest, and stores it as
an instant in UTC: near either end of the calendar that instant may have no
representation, and then no rollup of the buffer ends.
-/

namespace Mycelium

variable {ι β : Type} {A : Api ι β} {F : Format ι β} {s s' : Store β} {clone : CloneProfile}
  {now : Int} {choice : RollupChoice}

/-- `captured_at`, or the time of the request. -/
def MemoryWrite.captured (payload : MemoryWrite) (now : Int) : Datetime :=
  payload.capturedAt.getD (.utc now)

/-- The stream entry of a write. -/
def Api.entryOf (A : Api ι β) (payload : MemoryWrite) (now : Int) (id : StreamId) : StreamEntry :=
  ⟨id, A.strip payload.content, A.isoformat (payload.captured now)⟩

/-- A write that has been accepted: its body, the time of the request, and the id of its entry. -/
structure AcceptedWrite where
  payload : MemoryWrite
  now : Int
  id : StreamId
deriving DecidableEq, Repr

def AcceptedWrite.captured (w : AcceptedWrite) : Datetime := w.payload.captured w.now

/-- What a flush puts into the buffer for the write. -/
def AcceptedWrite.item (A : Api ι β) (w : AcceptedWrite) : ι :=
  A.newItem (A.entryOf w.payload w.now w.id)

/-! ## From the request to the buffer -/

/-- A write that is answered with a success has passed the validators and is in the stream. -/
theorem writeMemory_recorded {credentials : Option String} {payload : MemoryWrite} {c : Choice}
    {profile : CloneProfile} {status : Nat} {body : Body ι}
    (own : getOwnProfile A s credentials = .ok profile)
    (h : writeMemory A s credentials payload c = some (s', .ok status body)) :
    A.validWrite payload = true ∧
      (s'.streams profile.id).entries =
        (s.streams profile.id).entries ++ [A.entryOf payload c.now c.entryId] ∧
      s'.buffers = s.buffers ∧ s'.users = s.users ∧ s'.profiles = s.profiles := by
  unfold writeMemory depends at h
  rw [own] at h
  simp only [validated] at h
  split at h
  · rename_i valid
    refine ⟨valid, ?_⟩
    have appended : ∀ tasks, let written := { s with
          streams := Function.update s.streams profile.id ((s.streams profile.id).xadd A.nodeEntries
            c.newNode (A.entryOf payload c.now c.entryId))
          tasks := tasks }
        (written.streams profile.id).entries =
          (s.streams profile.id).entries ++ [A.entryOf payload c.now c.entryId] := by
      intro tasks
      simp
    split at h
    · cases h
    · split at h
      · split at h
        · cases h
        · split at h
          · split at h
            · cases h
            · cases h
              exact ⟨appended _, rfl, rfl, rfl⟩
          · cases h
            exact ⟨appended s.tasks, rfl, rfl, rfl⟩
      · cases h
  · cases h

/-- A write by the clone with this token that is answered with a success. -/
def recordWrite (A : Api ι β) (credentials : Option String) (s : Store β)
    (w : MemoryWrite × Choice) : Option (Store β) :=
  match writeMemory A s credentials w.1 w.2 with
  | some (s', .ok _ _) => some s'
  | _ => none

def acceptedOf (w : MemoryWrite × Choice) : AcceptedWrite := ⟨w.1, w.2.now, w.2.entryId⟩

/-- The dependencies see users and profiles only. -/
theorem getOwnProfile_congr {credentials : Option String} (users : s'.users = s.users)
    (profiles : s'.profiles = s.profiles) :
    getOwnProfile A s' credentials = getOwnProfile A s credentials := by
  unfold getOwnProfile currentClone getCurrentUser profileOf
  rw [users, profiles]

/-- Writes answered with a success are in the stream, in their order. -/
theorem recorded_of_writes {credentials : Option String} {profile : CloneProfile} :
    ∀ {ws : List (MemoryWrite × Choice)} {s : Store β},
      getOwnProfile A s credentials = .ok profile →
      Run.exec (recordWrite A credentials) s ws = some s' →
      (∀ w ∈ ws, A.validWrite w.1 = true) ∧
        (s'.streams profile.id).entries = (s.streams profile.id).entries ++
          ws.map (fun w => A.entryOf w.1 w.2.now w.2.entryId) ∧
        s'.buffers = s.buffers := by
  intro ws
  induction ws with
  | nil =>
    intro s _ run
    cases run
    exact ⟨fun w member => absurd member List.not_mem_nil, (List.append_nil _).symm, rfl⟩
  | cons w ws ih =>
    intro s own run
    obtain ⟨mid, taken, run⟩ := Run.exec_cons run
    unfold recordWrite at taken
    split at taken
    · rename_i answered
      cases taken
      obtain ⟨valid, appended, buffers, users, profiles⟩ := writeMemory_recorded own answered
      obtain ⟨others, entries, buffers'⟩ := ih ((getOwnProfile_congr users profiles).trans own) run
      refine ⟨?_, ?_, buffers'.trans buffers⟩
      · intro w' member
        rcases List.mem_cons.1 member with rfl | member
        · exact valid
        · exact others w' member
      · rw [entries, appended, List.append_assoc]
        rfl
    · cases taken

/-- **From the requests to the buffer**: accepted writes, flushed, are the clone's row. -/
theorem buffered_of_writes {credentials : Option String} {profile : CloneProfile} {S : Service ι β}
    {ws : List (MemoryWrite × Choice)} (own : getOwnProfile A s credentials = .ok profile)
    (service : S.toFormat = A.toFormat) (ofClone : S.cloneId = profile.id) (nonempty : ws ≠ [])
    (stream : (s.streams profile.id).entries = []) (buffer : s.buffers profile.id = none)
    (run : Run.exec (recordWrite A credentials) s ws = some s') :
    (∀ w ∈ ws, A.validWrite w.1 = true) ∧
      (flushOneStream S s' none).1.buffers profile.id =
        some (A.row ((ws.map acceptedOf).map (AcceptedWrite.item A))) := by
  obtain ⟨valid, entries, buffers⟩ := recorded_of_writes own run
  refine ⟨valid, ?_⟩
  rw [stream, List.nil_append] at entries
  have read : (s'.streams S.cloneId).entries ≠ [] := by
    rw [ofClone, entries]
    simpa using nonempty
  have nothing : S.payloadOf (s'.buffers S.cloneId) = some [] := by
    rw [ofClone, buffers, buffer]
    rfl
  have row : S.row (S.newItems (s'.streams S.cloneId).entries) =
      A.row ((ws.map acceptedOf).map (AcceptedWrite.item A)) := by
    rw [Service.newItems, service, ofClone, entries, List.map_map, List.map_map]
    rfl
  unfold flushOneStream
  simp only [reduceCtorEq, ↓reduceIte, if_neg read, nothing, List.nil_append, row]
  rw [ofClone]
  exact Function.update_self ..

/-! ## From the buffer to the archive -/

theorem Datetime.instant_aware (d : Datetime) : d.aware.instant = d.instant := by
  unfold Datetime.aware
  split
  · rfl
  · rename_i naive
    simp [Datetime.instant, naive]

theorem astimezoneUtc_isSome {d : Datetime} :
    d.astimezoneUtc.isSome = true ↔ 0 ≤ d.instant ∧ d.instant ≤ Datetime.maxWall := by
  unfold Datetime.astimezoneUtc
  split
  · rename_i within
    simp [within]
  · rename_i outside
    simp only [Option.isSome_none, Bool.false_eq_true, false_iff]
    exact outside

/-- The earliest of some datetimes has a UTC instant when none is before year 1 and not all are
after year 9999. -/
theorem earliest_representable {ds : List Datetime} {d : Datetime}
    (min : Datetime.earliest ds = some d) :
    d.astimezoneUtc.isSome = true ↔
      (∀ x ∈ ds, 0 ≤ x.instant) ∧ ∃ x ∈ ds, x.instant ≤ Datetime.maxWall := by
  obtain ⟨member, least⟩ := Datetime.earliest_spec min
  rw [astimezoneUtc_isSome]
  constructor
  · rintro ⟨low, high⟩
    refine ⟨fun x listed => ?_, d, member, high⟩
    have after := least x listed
    omega
  · rintro ⟨low, x, listed, high⟩
    have after := least x listed
    exact ⟨low d member, by omega⟩

/-- Without a failure a rollup that has read its buffer is refused only by the conversion. -/
theorem rollupClone_backedUp_iff {buffer : MemoryBuffer β} {periodStart : Datetime}
    {result : RollupResult} (read : F.readBuffer (s.buffers clone.id) = some (buffer, periodStart))
    (h : rollupClone F s clone now choice none = some (s', result)) :
    (∃ b, result = .backedUp b) ↔ periodStart.astimezoneUtc.isSome = true := by
  rcases rollupClone_step h with ⟨archived, other⟩ | ⟨committed, b, ok, archived, pruned, rfl⟩
  · have none : periodStart.astimezoneUtc = none := by
      cases utc : periodStart.astimezoneUtc with
      | none => rfl
      | some start =>
        unfold archiveBuffer at archived
        rw [nothingBuffered_of_read read, read] at archived
        simp only [Bool.false_eq_true, ↓reduceIte, reduceCtorEq, utc] at archived
        split at archived
        · split at archived
          · cases archived
          · cases archived
            exact absurd rfl (other _)
        · cases archived
    rw [none]
    exact iff_of_false (fun ⟨b, same⟩ => other b same) Bool.false_ne_true
  · have step := (pruneStaleBackups_step pruned).2
    cases step with
    | pruned =>
      have start := archiveBuffer_step archived
      cases start with
      | committed _ periodStart' _ backups read' fresh start ofClone ends count tier inserted =>
        cases read.symm.trans read'
        exact iff_of_true ⟨b, rfl⟩ (by rw [start]; rfl)

/-- **When accepted writes can be backed up**: exactly when the earliest of them is within years 1
to 9999 of UTC. -/
theorem backed_up_iff_representable (A : Api ι β) (s s' : Store β) (clone : CloneProfile) (now : Int)
    (choice : RollupChoice) (result : RollupResult) (ws : List AcceptedWrite) (nonempty : ws ≠ [])
    (keeps : ∀ e, A.capturedAt (A.newItem e) = e.capturedAt)
    (inverts : ∀ w ∈ ws, A.fromisoformat (A.isoformat w.captured) = some w.captured)
    (buffered : s.buffers clone.id = some (A.row (ws.map (AcceptedWrite.item A))))
    (ended : rollupClone A.toFormat s clone now choice none = some (s', result)) :
    (∃ b, result = .backedUp b) ↔
      (∀ w ∈ ws, 0 ≤ w.captured.instant) ∧ ∃ w ∈ ws, w.captured.instant ≤ Datetime.maxWall := by
  have parsed : (ws.map (AcceptedWrite.item A)).mapM A.capturedTime =
      some (ws.map fun w => w.captured.aware) := by
    rw [List.mapM_map]
    refine mapM_eq_some fun w listed => ?_
    change (A.fromisoformat (A.capturedAt (A.newItem _))).map Datetime.aware = _
    rw [keeps]
    change (A.fromisoformat (A.isoformat w.captured)).map Datetime.aware = _
    rw [inverts w listed]
    rfl
  obtain ⟨d, min⟩ : ∃ d, Datetime.earliest (ws.map fun w => w.captured.aware) = some d := by
    cases ws with
    | nil => exact absurd rfl nonempty
    | cons w ws => exact ⟨_, rfl⟩
  have start : A.periodStart (ws.map (AcceptedWrite.item A)) = some d := by
    rw [Format.periodStart, parsed]
    exact min
  have read : A.readBuffer (s.buffers clone.id) =
      some (A.row (ws.map (AcceptedWrite.item A)), d) := by
    rw [buffered]
    simp [Format.readBuffer, start, nonempty]
  rw [rollupClone_backedUp_iff read ended, earliest_representable min]
  simp [Datetime.instant_aware]

/-- 0001-01-01T00:00:00+14:00. -/
def firstMorning : Datetime := ⟨0, some (14 * 3600 * 1000000)⟩

/-- 9999-12-31T23:00:00-14:00, past year 9999 in UTC. -/
def lastEvening : Datetime := ⟨Datetime.maxWall + 1 - 3600 * 1000000, some (-(14 * 3600 * 1000000))⟩

/-- `isoformat` and `fromisoformat` on three values, for examples. -/
def Api.iso : Api MemoryItem (List MemoryItem) :=
  { Api.sample with
    toFormat := .items (.plain MemoryItem) fun text =>
      if text = "0001-01-01T00:00:00+14:00" then some firstMorning
      else if text = "9999-12-31T23:00:00-14:00" then some lastEvening
      else Datetime.newYear text
    isoformat := fun d =>
      if d = firstMorning then "0001-01-01T00:00:00+14:00"
      else if d = lastEvening then "9999-12-31T23:00:00-14:00"
      else "2026-01-01T00:00:00+00:00" }

/-- The profile of the second clone. -/
def beta : CloneProfile := ⟨2, "beta", activeStatus, .free, some 2, 0⟩

def betaService : Service MemoryItem (List MemoryItem) := ⟨Api.iso.toFormat, 2, 100, .approximate⟩

theorem raised_of_first_morning :
    ∃ written, writeMemory Api.iso twoClones (some "token") ⟨"m", some firstMorning⟩
          (choiceAt 63902822400000000 ⟨1, 0⟩) = some (written, .ok 202 (.recorded "recorded")) ∧
      ∃ s', rollupClone Api.iso.toFormat (flushOneStream betaService written none).1 beta
        63902822400000000 ⟨1, 1, 63902822400000000, []⟩ none = some (s', .raised) :=
  ⟨_, rfl, _, rfl⟩

/-- Two writes, the first of an instant that has no representation. -/
def lateAndNewYear : List AcceptedWrite :=
  [⟨⟨"late", some lastEvening⟩, 63902822400000000, ⟨1, 0⟩⟩,
    ⟨⟨"m", some (.utc 63902822400000000)⟩, 63902822400000000, ⟨2, 0⟩⟩]

def lateBuffered : Store (List MemoryItem) :=
  twoClones.setBuffer 2 (Api.iso.row (lateAndNewYear.map (AcceptedWrite.item Api.iso)))

def lateChoice : RollupChoice :=
  ⟨1, 1, 63902822400000000, [⟨1, 2, 63902822400000000, 63902822400000000, 2,
    ⟨2, 63902822400, 63902822400, 1⟩, .free, 63902822400000000, none⟩]⟩

theorem backed_up_of_late_and_new_year :
    (∀ w ∈ lateAndNewYear, Api.iso.validWrite w.payload = true) ∧
      Datetime.maxWall < lastEvening.instant ∧
      ∃ s' result, rollupClone Api.iso.toFormat lateBuffered beta 63902822400000000 lateChoice
          none = some (s', result) ∧ ∃ b, result = .backedUp b := by
  refine ⟨by decide, by decide, _, _, rfl, ?_⟩
  exact (backed_up_iff_representable Api.iso lateBuffered _ beta 63902822400000000 lateChoice _
    lateAndNewYear (List.cons_ne_nil _ _) (fun _ => rfl) (by decide) rfl rfl).2 (by decide)

end Mycelium
