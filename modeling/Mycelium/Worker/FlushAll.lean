import Mycelium.Worker.Flush
import Mycelium.Worker.Locality

/-!
# One session for a whole pass of flushes (`flush_all_streams`)

`flush_all_streams` goes over the ids that `active_clone_ids` has listed, in the
order and as often as they are listed, with one session for all of them, and
catches what a flush raises. As SQLAlchemy documents it, a query or a commit that
raised leaves the session in a transaction in which whatever is asked of it next
raises too, until `rollback()`; a row read with FOR UPDATE stays locked until the
transaction ends. The handler's `session.rollback()` is what the rest of the pass
rests on: with it, the pass does to each clone what its flushes do in sessions of
their own.
-/

namespace Mycelium

variable {ι β : Type} (S : Service ι β)

/-! ## A flush in a session -/

/-- The `AsyncSession` of a pass. -/
structure PassSession where
  /-- a query or a commit has raised since the last rollback -/
  failed : Bool
  /-- the rows that the open transaction has locked -/
  locked : List Nat
deriving DecidableEq, Repr

namespace PassSession

/-- No transaction is open. -/
def fresh : PassSession := ⟨false, []⟩

/-- `session.rollback()`. -/
def rollback (_ : PassSession) : PassSession := fresh

/-- A query or a commit has raised. -/
def fails (session : PassSession) : PassSession := { session with failed := true }

/-- SELECT ... FOR UPDATE; there is nothing to lock when there is no row. -/
def getForUpdate (session : PassSession) (cloneId : Nat) : Option (MemoryBuffer β) → PassSession
  | some _ => { session with locked := cloneId :: session.locked }
  | none => session

end PassSession

/-- The commit's INSERT needs the clone's profile; its UPDATE finds the row it has locked. -/
def Store.rejectsBuffer (s : Store β) (cloneId : Nat) : Bool :=
  (s.buffers cloneId).isNone && (s.profiles.get? cloneId).isNone

/-- `flush_one_stream` in the session of a pass. -/
def flushCall (s : Store β) (session : PassSession) (fault : Option FlushFault) :
    Store β × PassSession × FlushResult :=
  let entries := (s.streams S.cloneId).entries
  if fault = some .readAll then (s, session, .raised)
  else if entries = [] then (s, session, .flushed 0)
  else if session.failed ∨ fault = some .getBuffer then (s, session.fails, .raised)
  else
    let opened := session.getForUpdate S.cloneId (s.buffers S.cloneId)
    match S.payloadOf (s.buffers S.cloneId) with
    | none => (s, opened, .raised)
    | some existing =>
      if fault = some .commit ∨ s.rejectsBuffer S.cloneId then (s, opened.fails, .raised)
      else
        let committed := s.setBuffer S.cloneId (S.row (existing ++ S.newItems entries))
        let trimmed := committed.setStream S.cloneId (S.trim entries (s.streams S.cloneId))
        match fault with
        | some (.trim applied reverted) =>
          let after := if applied then trimmed else committed
          if reverted then (after.setBuffer S.cloneId (S.row existing), .fresh, .raised)
          else (after, PassSession.fresh.fails, .raised)
        | _ => (trimmed, .fresh, .flushed entries.length)

/-! ## The pass, as it is and as it should be -/

/-- An occurrence of a clone in the listing, the call of its flush that raises, and whether the
handler's `rollback()` would raise as well. -/
structure FlushAttempt where
  cloneId : Nat
  fault : Option FlushFault
  rollbackRaises : Bool
deriving DecidableEq, Repr

/-- The dict `flush_one_stream` returns. -/
structure FlushReport where
  cloneId : Nat
  flushed : Nat
deriving DecidableEq, Repr

def FlushAttempt.call (a : FlushAttempt) (s : Store β) (session : PassSession) :
    Store β × PassSession × FlushResult :=
  flushCall { S with cloneId := a.cloneId } s session a.fault

/-- What the loop appends to `results`. -/
def FlushAttempt.report (a : FlushAttempt) : FlushResult → List FlushReport
  | .flushed entries => [⟨a.cloneId, entries⟩]
  | .raised => []

/-- The loop over the listed clones; `none` is an exception that leaves it. -/
def flushEach (s : Store β) (session : PassSession) :
    List FlushAttempt → Store β × PassSession × Option (List FlushReport)
  | [] => (s, session, some [])
  | a :: rest =>
    match a.call S s session with
    | (s', session', .flushed entries) =>
      let (s'', session'', results) := flushEach s' session' rest
      (s'', session'', results.map (a.report (.flushed entries) ++ ·))
    -- the handler logs and rolls back
    | (s', session', .raised) =>
      if a.rollbackRaises then (s', session', none) else flushEach s' session'.rollback rest

/-- `flush_all_streams`. `listing` is none where `active_clone_ids` raises. -/
def flushAllStreams (s : Store β) : Option (List FlushAttempt) →
    Store β × PassSession × Option (List FlushReport)
  | none => (s, .fresh, none)
  | some attempts => flushEach S s .fresh attempts

/-- The specification: the flushes one after another, each in a session of its own. -/
def separately (s : Store β) : List FlushAttempt → Store β × List FlushReport
  | [] => (s, [])
  | a :: rest =>
    let (s', _, result) := a.call S s .fresh
    ((separately s' rest).1, a.report result ++ (separately s' rest).2)

/-- The occurrences of one clone. -/
def ofClone (cloneId : Nat) (attempts : List FlushAttempt) : List FlushAttempt :=
  attempts.filter fun a => a.cloneId = cloneId

/-! ## What one flush writes -/

section Flush

variable {S} {s s₁ s₂ : Store β} {fault : Option FlushFault} {cloneId : Nat}

/-- Only the clone's stream and row may differ. -/
structure FlushFrame (cloneId : Nat) (s s' : Store β) : Prop where
  streams : ∀ other, other ≠ cloneId → s'.streams other = s.streams other
  buffers : ∀ other, other ≠ cloneId → s'.buffers other = s.buffers other
  rest : s' = { s with streams := s'.streams, buffers := s'.buffers }

theorem FlushFrame.refl (cloneId : Nat) (s : Store β) : FlushFrame cloneId s s :=
  ⟨fun _ _ => rfl, fun _ _ => rfl, rfl⟩

theorem FlushFrame.setBuffer (frame : FlushFrame cloneId s₁ s₂) (row : MemoryBuffer β) :
    FlushFrame cloneId s₁ (s₂.setBuffer cloneId row) where
  streams := frame.streams
  buffers other apart := by
    rw [← frame.buffers other apart]
    exact Function.update_of_ne apart ..
  rest := by
    rw [frame.rest]
    rfl

theorem FlushFrame.setStream (frame : FlushFrame cloneId s₁ s₂) (stream : Stream) :
    FlushFrame cloneId s₁ (s₂.setStream cloneId stream) where
  streams other apart := by
    rw [← frame.streams other apart]
    exact Function.update_of_ne apart ..
  buffers := frame.buffers
  rest := by
    rw [frame.rest]
    rfl

theorem flushOneStream_frame (S : Service ι β) (s : Store β) (fault : Option FlushFault) :
    FlushFrame S.cloneId s (flushOneStream S s fault).1 := by
  have start := FlushFrame.refl S.cloneId s
  unfold flushOneStream
  simp only
  split
  · exact start
  · split
    · exact start
    · split
      · exact start
      · split
        · exact start
        · split
          · exact start
          · split
            · rename_i applied reverted _ _ _
              cases applied <;> cases reverted
              · exact start.setBuffer _
              · exact (start.setBuffer _).setBuffer _
              · exact (start.setBuffer _).setStream _
              · exact ((start.setBuffer _).setStream _).setBuffer _
            · exact (start.setBuffer _).setStream _

theorem FlushFrame.samePart {other : Nat} (frame : FlushFrame cloneId s₁ s₂)
    (apart : other ≠ cloneId) : SamePart other s₁ s₂ where
  stream := frame.streams other apart
  buffer := frame.buffers other apart
  backups := by rw [frame.rest]; rfl
  objects _ _ := by rw [frame.rest]

theorem SamePart.setBuffer (same : SamePart cloneId s₁ s₂) (row : MemoryBuffer β) :
    SamePart cloneId (s₁.setBuffer cloneId row) (s₂.setBuffer cloneId row) :=
  { same with buffer := by simp only [Store.setBuffer, Function.update_self] }

theorem SamePart.setStream (same : SamePart cloneId s₁ s₂) (stream : Stream) :
    SamePart cloneId (s₁.setStream cloneId stream) (s₂.setStream cloneId stream) :=
  { same with stream := by simp only [Store.setStream, Function.update_self] }

/-- A flush reads its clone's part only. -/
theorem flushOneStream_local (same : SamePart S.cloneId s₁ s₂) :
    (flushOneStream S s₂ fault).2 = (flushOneStream S s₁ fault).2 ∧
      SamePart S.cloneId (flushOneStream S s₁ fault).1 (flushOneStream S s₂ fault).1 := by
  unfold flushOneStream
  simp only [same.stream, same.buffer]
  split
  · exact ⟨rfl, same⟩
  · split
    · exact ⟨rfl, same⟩
    · split
      · exact ⟨rfl, same⟩
      · split
        · exact ⟨rfl, same⟩
        · split
          · exact ⟨rfl, same⟩
          · split
            · rename_i applied reverted _ _ _
              cases applied <;> cases reverted
              · exact ⟨rfl, same.setBuffer _⟩
              · exact ⟨rfl, (same.setBuffer _).setBuffer _⟩
              · exact ⟨rfl, (same.setBuffer _).setStream _⟩
              · exact ⟨rfl, ((same.setBuffer _).setStream _).setBuffer _⟩
            · exact ⟨rfl, (same.setBuffer _).setStream _⟩

/-- The call that raises in the session, if one does: in a failed one the query, whatever else might,
and without a profile the commit. -/
def raisedIn (cloneId : Nat) (s : Store β) (session : PassSession) (fault : Option FlushFault) :
    Option FlushFault :=
  if fault = some .readAll then some .readAll
  else if session.failed ∨ fault = some .getBuffer then some .getBuffer
  else if s.rejectsBuffer cloneId then some .commit
  else fault

/-- On the stores a flush in a session is `flushOneStream`. -/
theorem flushCall_effect (S : Service ι β) (s : Store β) (session : PassSession)
    (fault : Option FlushFault) :
    ((flushCall S s session fault).1, (flushCall S s session fault).2.2) =
      flushOneStream S s (raisedIn S.cloneId s session fault) := by
  unfold flushCall flushOneStream raisedIn
  by_cases read : fault = some .readAll
  · simp only [if_pos read, if_true]
  simp only [if_neg read]
  by_cases get : session.failed = true ∨ fault = some .getBuffer
  · simp only [if_pos get, Option.some.injEq, reduceCtorEq, if_false, if_true]
    split <;> rfl
  simp only [if_neg get]
  have queried : fault ≠ some .getBuffer := fun same => get (.inr same)
  by_cases empty : (s.streams S.cloneId).entries = []
  · by_cases rejected : s.rejectsBuffer S.cloneId = true
    · simp only [if_pos empty, if_pos rejected, Option.some.injEq, reduceCtorEq, if_false]
    · simp only [if_pos empty, if_neg rejected, if_neg read]
  simp only [if_neg empty]
  cases S.payloadOf (s.buffers S.cloneId) with
  | none => simp only [ite_self]
  | some existing =>
    by_cases rejected : s.rejectsBuffer S.cloneId = true
    · simp only [rejected, or_true, if_true, Option.some.injEq, reduceCtorEq, if_false]
    simp only [rejected, Bool.false_eq_true, or_false, if_false, if_neg read, if_neg queried]
    by_cases commit : fault = some .commit
    · simp only [if_pos commit]
    simp only [if_neg commit]
    cases fault with
    | none => rfl
    | some fault =>
      cases fault with
      | trim applied reverted => cases reverted <;> rfl
      | _ => rfl

theorem flushCall_frame (S : Service ι β) (s : Store β) (session : PassSession)
    (fault : Option FlushFault) : FlushFrame S.cloneId s (flushCall S s session fault).1 := by
  have effect := congrArg Prod.fst (flushCall_effect S s session fault)
  simp only at effect
  rw [effect]
  exact flushOneStream_frame S s _

/-- A flush in a session reads its clone's part and the profiles only. -/
theorem flushCall_local (same : SamePart S.cloneId s₁ s₂) (profiles : s₂.profiles = s₁.profiles)
    (session : PassSession) :
    (flushCall S s₂ session fault).2 = (flushCall S s₁ session fault).2 ∧
      SamePart S.cloneId (flushCall S s₁ session fault).1 (flushCall S s₂ session fault).1 := by
  have rejects : s₂.rejectsBuffer S.cloneId = s₁.rejectsBuffer S.cloneId := by
    rw [Store.rejectsBuffer, Store.rejectsBuffer, same.buffer, profiles]
  have raised : raisedIn S.cloneId s₂ session fault = raisedIn S.cloneId s₁ session fault := by
    rw [raisedIn, raisedIn, rejects]
  have effects : (flushOneStream S s₂ (raisedIn S.cloneId s₂ session fault)).2 =
        (flushOneStream S s₁ (raisedIn S.cloneId s₁ session fault)).2 ∧
      SamePart S.cloneId (flushOneStream S s₁ (raisedIn S.cloneId s₁ session fault)).1
        (flushOneStream S s₂ (raisedIn S.cloneId s₂ session fault)).1 :=
    raised ▸ flushOneStream_local same
  rw [← flushCall_effect, ← flushCall_effect] at effects
  refine ⟨Prod.ext ?_ effects.1, effects.2⟩
  unfold flushCall
  simp only [same.stream, same.buffer, rejects]
  split
  · rfl
  · split
    · rfl
    · split
      · rfl
      · split
        · rfl
        · split
          · rfl
          · split
            · rename_i applied reverted _ _ _
              cases reverted <;> rfl
            · rfl

/-- A flush that returns leaves no transaction open, if none was. -/
theorem flushCall_returned {session : PassSession} {entries : Nat}
    (h : flushCall S s .fresh fault = (s₁, session, .flushed entries)) : session = .fresh := by
  unfold flushCall at h
  simp only at h
  split at h
  · cases h
  · split at h
    · cases h
      rfl
    · split at h
      · cases h
      · split at h
        · cases h
        · split at h
          · cases h
          · split at h
            · split at h <;> cases h
            · cases h
              rfl

/-- In a session of its own a flush of a clone that has a profile, or a row already, is
`flushOneStream`. -/
theorem flushCall_fresh (known : s.rejectsBuffer S.cloneId = false) :
    ((flushCall S s .fresh fault).1, (flushCall S s .fresh fault).2.2) =
      flushOneStream S s fault := by
  have same : raisedIn S.cloneId s .fresh fault = fault := by
    unfold raisedIn
    rw [known]
    split
    · rename_i read
      exact read.symm
    · split
      · rename_i get
        exact (get.resolve_left Bool.false_ne_true).symm
      · rfl
  rw [flushCall_effect, same]

end Flush

/-! ## The pass -/

section Pass

variable {S} {s s₁ s₂ : Store β} {a : FlushAttempt} {attempts : List FlushAttempt} {cloneId : Nat}

theorem FlushAttempt.call_frame (S : Service ι β) (s : Store β) (a : FlushAttempt) :
    FlushFrame a.cloneId s (a.call S s .fresh).1 :=
  flushCall_frame { S with cloneId := a.cloneId } s .fresh a.fault

theorem FlushAttempt.call_local (same : SamePart a.cloneId s₁ s₂)
    (profiles : s₂.profiles = s₁.profiles) :
    (a.call S s₂ .fresh).2 = (a.call S s₁ .fresh).2 ∧
      SamePart a.cloneId (a.call S s₁ .fresh).1 (a.call S s₂ .fresh).1 :=
  flushCall_local same profiles .fresh

theorem separately_cons (S : Service ι β) (s : Store β) (a : FlushAttempt)
    (rest : List FlushAttempt) :
    separately S s (a :: rest) = ((separately S (a.call S s .fresh).1 rest).1,
      a.report (a.call S s .fresh).2.2 ++ (separately S (a.call S s .fresh).1 rest).2) := rfl

/-- **One session is as good as many**: every turn of the loop finds the session usable and with no
lock, whatever has failed before it. -/
theorem flushEach_eq (S : Service ι β) (s : Store β)
    (rollbacks : ∀ a ∈ attempts, a.rollbackRaises = false) :
    flushEach S s .fresh attempts =
      ((separately S s attempts).1, .fresh, some (separately S s attempts).2) := by
  induction attempts generalizing s with
  | nil => rfl
  | cons a rest ih =>
    have later := fun s' => ih s' fun b listed => rollbacks b (List.mem_cons_of_mem a listed)
    rw [separately_cons, flushEach]
    cases called : a.call S s .fresh with
    | mk s' ended =>
      obtain ⟨session', result⟩ := ended
      cases result with
      | flushed entries =>
        obtain rfl := flushCall_returned called
        simp only [later s', Option.map_some]
      | raised =>
        simp only [rollbacks a List.mem_cons_self, Bool.false_eq_true, if_false]
        exact later s'

theorem reports_ofClone (a : FlushAttempt) (result : FlushResult) (cloneId : Nat) :
    (a.report result).filter (fun report => report.cloneId = cloneId) =
      if a.cloneId = cloneId then a.report result else [] := by
  cases result with
  | flushed entries =>
    by_cases own : a.cloneId = cloneId <;> simp [FlushAttempt.report, own]
  | raised => simp [FlushAttempt.report]

/-- The flushes from a store with the clone's part in common with another, on which only the clone's
own run. -/
theorem separately_own (S : Service ι β) (attempts : List FlushAttempt)
    (same : SamePart cloneId s₁ s₂) (profiles : s₂.profiles = s₁.profiles) :
    SamePart cloneId (separately S s₁ (ofClone cloneId attempts)).1 (separately S s₂ attempts).1 ∧
      (separately S s₂ attempts).2.filter (fun report => report.cloneId = cloneId) =
        (separately S s₁ (ofClone cloneId attempts)).2 := by
  induction attempts generalizing s₁ s₂ with
  | nil => exact ⟨same, rfl⟩
  | cons a rest ih =>
    have kept : ∀ s : Store β, (a.call S s .fresh).1.profiles = s.profiles := by
      intro s
      rw [(a.call_frame S s).rest]
    rw [separately_cons S s₂]
    by_cases own : a.cloneId = cloneId
    · subst own
      obtain ⟨ended, after⟩ := FlushAttempt.call_local (S := S) same profiles
      have here : ofClone a.cloneId (a :: rest) = a :: ofClone a.cloneId rest :=
        List.filter_cons_of_pos (decide_eq_true rfl)
      rw [here, separately_cons S s₁]
      obtain ⟨part, reports⟩ := ih after (by rw [kept, kept, profiles])
      refine ⟨part, ?_⟩
      rw [List.filter_append, reports, reports_ofClone, if_pos rfl, ended]
    · have skipped : ofClone cloneId (a :: rest) = ofClone cloneId rest :=
        List.filter_cons_of_neg (by simpa using own)
      rw [skipped]
      have apart : cloneId ≠ a.cloneId := fun eq => own eq.symm
      obtain ⟨part, reports⟩ := ih (same.trans ((a.call_frame S s₂).samePart apart))
        ((kept s₂).trans profiles)
      refine ⟨part, ?_⟩
      rw [List.filter_append, reports, reports_ofClone, if_neg own, List.nil_append]

/-- Flushes leave the database's other tables, the archive and the broker alone. -/
theorem separately_rest : (separately S s attempts).1 =
    { s with
      streams := (separately S s attempts).1.streams
      buffers := (separately S s attempts).1.buffers } := by
  induction attempts generalizing s with
  | nil => rfl
  | cons a rest ih =>
    rw [separately_cons, ih, (a.call_frame S s).rest]

/-- The reports come in the order of the listing. -/
theorem separately_order :
    ((separately S s attempts).2.map FlushReport.cloneId).Sublist
      (attempts.map FlushAttempt.cloneId) := by
  induction attempts generalizing s with
  | nil => exact List.Sublist.slnil
  | cons a rest ih =>
    rw [separately_cons, List.map_append, List.map_cons]
    cases (a.call S s .fresh).2.2 with
    | flushed entries => exact ih.cons_cons a.cloneId
    | raised => exact ih.cons a.cloneId

/-- **A failed flush stays with its clone.** Whichever flushes of a pass fail, and wherever, as long as
the handler can roll the session back, the pass goes over all the listed clones and returns, with no
transaction open. It leaves each clone's part, and reports for it, what the clone's own flushes do in
sessions of their own, in the order of the listing, and touches nothing else. -/
theorem flush_failures_contained (S : Service ι β) (s : Store β) {attempts : List FlushAttempt}
    (rollbacks : ∀ a ∈ attempts, a.rollbackRaises = false) :
    ∃ s' reports, flushAllStreams S s (some attempts) = (s', .fresh, some reports) ∧
      (∀ cloneId, SamePart cloneId (separately S s (ofClone cloneId attempts)).1 s' ∧
        reports.filter (fun report => report.cloneId = cloneId) =
          (separately S s (ofClone cloneId attempts)).2) ∧
      (reports.map FlushReport.cloneId).Sublist (attempts.map FlushAttempt.cloneId) ∧
      s' = { s with streams := s'.streams, buffers := s'.buffers } :=
  ⟨_, _, flushEach_eq S s rollbacks, fun _ => separately_own S attempts (.refl _ s) rfl,
    separately_order, separately_rest⟩

end Pass

/-- Clones 1 and 2 have an entry each, and so has every id without a profile. -/
def strayStreams : Store (List MemoryItem) :=
  { Store.empty with
    profiles := ⟨[⟨1, "one", activeStatus, .free, some 1, 0⟩,
      ⟨2, "two", activeStatus, .standard, some 2, 0⟩], by decide⟩
    streams := fun cloneId =>
      Stream.empty.xadd 100 true ⟨⟨7, cloneId⟩, "m", "2026-01-01T00:00:00+00:00"⟩ }

/-- The first clone's commit fails, the INSERT for a stray id is refused, and the first clone, listed
again, fails at its trim before it succeeds. -/
def failingFlushes : List FlushAttempt :=
  [⟨1, some .commit, false⟩, ⟨3, none, false⟩, ⟨2, none, false⟩, ⟨1, some (.trim false true), false⟩,
    ⟨1, none, false⟩]

theorem contained_of_failing_flushes :
    ∃ s' reports, flushAllStreams (.sample .exact) strayStreams (some failingFlushes) =
        (s', .fresh, some reports) ∧
      reports = [⟨2, 1⟩, ⟨1, 1⟩] ∧
      ∀ cloneId, SamePart cloneId
        (separately (.sample .exact) strayStreams (ofClone cloneId failingFlushes)).1 s' := by
  have rollbacks : ∀ a ∈ failingFlushes, a.rollbackRaises = false := by decide
  obtain ⟨s', reports, ran, parts, _⟩ :=
    flush_failures_contained (.sample .exact) strayStreams rollbacks
  refine ⟨s', reports, ran, ?_, fun cloneId => (parts cloneId).1⟩
  have reported : (flushAllStreams (.sample .exact) strayStreams (some failingFlushes)).2.2 =
      some [⟨2, 1⟩, ⟨1, 1⟩] := by decide
  rw [ran] at reported
  exact Option.some.inj reported

end Mycelium
