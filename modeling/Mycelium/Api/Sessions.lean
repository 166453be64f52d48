import Mycelium.Api.Accounts
import Mycelium.Api.Tokens

/-!
# Who a token lets in, and for how long (`auth.py`, `deps.py`)

Requests and calls of `seed_admin` over time. The API keeps no sessions: what
makes a token good is its signature, its times and the row it names as the row is
when the token is presented. `issued` is history that no code reads, the tokens
`login` has returned.
-/

namespace Mycelium

variable {ι β : Type} (A : Api ι β) (J : Jwt) (ttlMinutes : Int)

/-- A token `login` has returned: the row it was issued to as it was then, and the time. -/
structure Issue where
  token : String
  user : User
  time : Int
deriving DecidableEq, Repr

structure SessionState (β : Type) where
  store : Store β
  clock : Int
  /-- history -/
  issued : List Issue

inductive SessionEvent where
  /-- time passes -/
  | tick (now : Int)
  | request (r : Request)
  | seedAdmin (email password : String) (c : SeedChoice)

/-- The row `login` reads. -/
def loginUser (s : Store β) (email : String) : Option User :=
  (A.validateEmail email).bind fun email => s.users.rows.find? fun u => u.email = A.lower email

/-- The token a response hands out. -/
def issueOf (s : Store β) (r : Request) : Response ι → Option Issue
  | .ok _ (.token token _) =>
    match r.route with
    | .login email _ => (loginUser A s email).map fun user => ⟨token, user, r.choice.now⟩
    | _ => none
  | _ => none

namespace SessionState

def start (store : Store β) (clock : Int) : SessionState β := ⟨store, clock, []⟩

/-- One event; `none` when it is not enabled. -/
def step (s : SessionState β) : SessionEvent → Option (SessionState β)
  | .tick now => if s.clock ≤ now then some { s with clock := now } else none
  | .request r =>
    if r.choice.now = s.clock then
      (handle (A.withTokens J ttlMinutes s.clock) s.store r).map fun (store, resp) =>
        { s with store := store, issued := s.issued ++ (issueOf A s.store r resp).toList }
    else none
  | .seedAdmin email password c =>
    (Mycelium.seedAdmin A s.store email password c).map fun (store, _) => { s with store := store }

end SessionState

/-- The request logs the user in who is issued the token: his password verifies, and he is active. -/
structure Issue.LoggedIn (i : Issue) (s : SessionState β) (r : Request) : Prop where
  time : s.clock = i.time
  member : i.user ∈ s.store.users
  active : i.user.isActive = true
  login : ∃ email password, r.route = .login email password ∧ loginUser A s.store email = some i.user ∧
    A.verifyPassword password i.user.passwordHash = true
  token : i.token = J.createAccessToken ttlMinutes i.user.id i.user.role i.time

variable {A J ttlMinutes} {s s' : SessionState β} {e : SessionEvent} {r : Request}

/-- What `login` answers with a token. -/
theorem login_token {store store' : Store β} {email password token kind : String} {status : Nat}
    {c : Choice}
    (h : login A store email password c = some (store', .ok status (.token token kind))) :
    ∃ user ∈ store.users, loginUser A store email = some user ∧
      A.verifyPassword password user.passwordHash = true ∧ user.isActive = true ∧
      token = A.createAccessToken user.id user.role c.now := by
  unfold login at h
  split at h
  · cases h
  · rename_i address valid
    split at h
    · cases h
    · rename_i user row
      have found : loginUser A store email = some user := by
        rw [loginUser, valid, Option.bind_some, row]
      split at h
      · cases h
      · rename_i verified
        split at h
        · cases h
        · rename_i active
          cases h
          exact ⟨user, List.mem_of_find?_eq_some row, found, by simpa using verified,
            by simpa using active, rfl⟩

/-- **What a request hands out, it hands out to a user who logs in.** -/
theorem loggedIn_of_issueOf {store : Store β} {resp : Response ι} {i : Issue}
    (now : r.choice.now = s.clock)
    (h : handle (A.withTokens J ttlMinutes s.clock) s.store r = some (store, resp))
    (issue : issueOf A s.store r resp = some i) : i.LoggedIn A J ttlMinutes s r := by
  obtain ⟨credentials, route, c⟩ := r
  unfold issueOf at issue
  split at issue
  · rename_i status token kind
    split at issue
    · rename_i email password isLogin
      change route = _ at isLogin
      subst isLogin
      obtain ⟨user, member, found, verified, active, made⟩ := login_token h
      change loginUser A s.store email = some user at found
      rw [found] at issue
      cases issue
      exact ⟨now.symm, member, active, ⟨email, password, rfl, found, verified⟩, made⟩
    · cases issue
  · cases issue

/-! ## Over time -/

/-- A step does not turn the clock back. -/
theorem clock_mono (h : s.step A J ttlMinutes e = some s') : s.clock ≤ s'.clock := by
  cases e with
  | tick now =>
    simp only [SessionState.step] at h
    split at h
    · cases h
      assumption
    · cases h
  | request r =>
    simp only [SessionState.step] at h
    split at h
    · obtain ⟨_, _, rfl⟩ := Option.map_eq_some_iff.1 h
      exact le_refl _
    · cases h
  | seedAdmin email password c =>
    obtain ⟨_, _, rfl⟩ := Option.map_eq_some_iff.1 h
    exact le_refl _

theorem clock_mono_run {es : List SessionEvent}
    (run : Run.exec (SessionState.step A J ttlMinutes) s es = some s') : s.clock ≤ s'.clock :=
  Run.invariant (I := fun x => s.clock ≤ x.clock) (fun _ _ _ le h => le_trans le (clock_mono h))
    (le_refl _) run

/-- A token is issued where a user logs in. -/
theorem issued_step (h : s.step A J ttlMinutes e = some s') {i : Issue} (issued : i ∈ s'.issued) :
    i ∈ s.issued ∨ ∃ r, e = .request r ∧ i.LoggedIn A J ttlMinutes s r := by
  cases e with
  | tick now =>
    simp only [SessionState.step] at h
    split at h
    · cases h
      exact .inl issued
    · cases h
  | request r =>
    simp only [SessionState.step] at h
    split at h
    · rename_i now
      obtain ⟨⟨store, resp⟩, answered, rfl⟩ := Option.map_eq_some_iff.1 h
      rcases List.mem_append.1 issued with before | new
      · exact .inl before
      · refine .inr ⟨r, rfl, ?_⟩
        exact loggedIn_of_issueOf now answered (Option.mem_toList.1 new)
    · cases h
  | seedAdmin email password c =>
    obtain ⟨_, _, rfl⟩ := Option.map_eq_some_iff.1 h
    exact .inl issued

/-- A request of the run `es` has logged `i`'s user in. -/
def LoggedInDuring (A : Api ι β) (J : Jwt) (ttlMinutes : Int) (s₀ : SessionState β)
    (es : List SessionEvent) (i : Issue) : Prop :=
  ∃ before r after s, es = before ++ .request r :: after ∧
    Run.exec (SessionState.step A J ttlMinutes) s₀ before = some s ∧ i.LoggedIn A J ttlMinutes s r

theorem loggedIn_of_issued {store : Store β} {clock : Int} {es : List SessionEvent}
    (run : Run.exec (SessionState.step A J ttlMinutes) (.start store clock) es = some s) :
    ∀ i ∈ s.issued, LoggedInDuring A J ttlMinutes (.start store clock) es i := by
  refine Run.history (P := fun es s => ∀ i ∈ s.issued,
    LoggedInDuring A J ttlMinutes (.start store clock) es i) (by simp [SessionState.start]) ?_ run
  intro es s e s' run before taken i issued
  rcases issued_step taken issued with old | ⟨r, rfl, loggedIn⟩
  · obtain ⟨first, r, rest, s₁, rfl, reached, loggedIn⟩ := before i old
    exact ⟨first, r, rest ++ [e], s₁, by simp, reached, loggedIn⟩
  · exact ⟨es, r, [], s, rfl, run, loggedIn⟩

/-- A login of a run is no earlier than its start and no later than its end. -/
theorem LoggedInDuring.time {s₀ : SessionState β} {es : List SessionEvent} {i : Issue}
    (loggedIn : LoggedInDuring A J ttlMinutes s₀ es i)
    (run : Run.exec (SessionState.step A J ttlMinutes) s₀ es = some s) :
    s₀.clock ≤ i.time ∧ i.time ≤ s.clock := by
  obtain ⟨before, r, after, s₁, rfl, reached, loggedIn⟩ := loggedIn
  rw [Run.exec_append, reached, Option.bind_some] at run
  rw [← loggedIn.time]
  exact ⟨clock_mono_run reached, clock_mono_run run⟩

/-- **A token lets in whoever logged in for it, until it expires or he is deactivated, and nobody
else.** At the end of any run from a time after 1970, where a token whose signature is good is one
`login` has returned, a request with the token is the user's exactly when he is active now and
one of the tokens handed out to him by a successful login of the run is this one and has not
expired. -/
theorem authenticated_iff_logged_in {store : Store β} {clock : Int} {es : List SessionEvent}
    {token : String} (user : User) (since : epoch ≤ clock)
    (run : Run.exec (SessionState.step A J ttlMinutes) (.start store clock) es = some s)
    (genuine : (J.verify token).isSome = true → ∃ i ∈ s.issued, i.token = token) :
    getCurrentUser (A.withTokens J ttlMinutes s.clock) s.store (some token) = .ok user ↔
      user ∈ s.store.users ∧ user.isActive = true ∧
        ∃ i, LoggedInDuring A J ttlMinutes (.start store clock) es i ∧ i.token = token ∧
          i.user.id = user.id ∧ s.clock < expiry ttlMinutes i.time := by
  have created : ∀ {i}, LoggedInDuring A J ttlMinutes (.start store clock) es i → i.token = token →
      (getCurrentUser (A.withTokens J ttlMinutes s.clock) s.store (some token) = .ok user ↔
        s.clock < expiry ttlMinutes i.time ∧ user ∈ s.store.users ∧ user.id = i.user.id ∧
          user.isActive = true) := by
    intro i during same
    obtain ⟨started, ended⟩ := during.time run
    obtain ⟨_, _, _, _, _, _, loggedIn⟩ := during
    rw [← same, loggedIn.token]
    exact getCurrentUser_created (le_trans since started) ended
  constructor
  · intro current
    have good : (J.verify token).isSome = true := by
      cases signed : J.verify token with
      | some payload => rfl
      | none =>
        simp [getCurrentUser, Api.withTokens, Jwt.decodeAccessToken, signed] at current
    obtain ⟨i, issued, same⟩ := genuine good
    have during := loggedIn_of_issued run i issued
    obtain ⟨fresh, member, id, active⟩ := (created during same).1 current
    exact ⟨member, active, i, during, same, id.symm, fresh⟩
  · rintro ⟨member, active, i, during, same, id, fresh⟩
    exact (created during same).2 ⟨fresh, member, id.symm, active⟩

/-- An admin and a clone. -/
def adminAndClone : Store (List MemoryItem) :=
  { Store.empty with
    users := ⟨[⟨1, "root@x.org", "r", .admin, true, 0⟩, ⟨2, "a@x.org", "a", .clone, true, 0⟩],
      by decide⟩
    profiles := ⟨[⟨1, "alpha", activeStatus, .free, some 2, 0⟩], by decide⟩ }

/-- The clone logs in at the new year, and half an hour passes. -/
def loginThenWait : List SessionEvent :=
  [.request ⟨none, .login "a@x.org" "a", choiceAt 63902822400000000 ⟨0, 0⟩⟩,
    .tick 63902824200000000]

/-- The clone's token. -/
def loginIssue : Issue :=
  ⟨Jwt.sample.createAccessToken 60 2 .clone 63902822400000000,
    ⟨2, "a@x.org", "a", .clone, true, 0⟩, 63902822400000000⟩

def afterLogin : SessionState (List MemoryItem) :=
  ⟨adminAndClone, 63902824200000000, [loginIssue]⟩

theorem authenticated_of_login :
    Run.exec (SessionState.step Api.sample Jwt.sample 60) (.start adminAndClone 63902822400000000)
        loginThenWait = some afterLogin ∧
      getCurrentUser (Api.sample.withTokens Jwt.sample 60 63902824200000000) adminAndClone
        (some loginIssue.token) = .ok loginIssue.user := by
  have run : Run.exec (SessionState.step Api.sample Jwt.sample 60)
      (.start adminAndClone 63902822400000000) loginThenWait = some afterLogin := rfl
  have issued : loginIssue ∈ afterLogin.issued := List.mem_singleton_self _
  refine ⟨run, (authenticated_iff_logged_in _ (by decide) run fun _ => ⟨_, issued, rfl⟩).2 ?_⟩
  exact ⟨List.mem_cons_of_mem _ (List.mem_singleton_self _), rfl, loginIssue,
    loggedIn_of_issued run _ issued, rfl, rfl, by decide⟩

/-! ## Deactivation -/

/-- The user's row is there, and inactive. -/
def Inactive (user : User) (s : Store β) : Prop :=
  ∃ u ∈ s.users, u.id = user.id ∧ u.email = user.email ∧ u.isActive = false

/-- The event is no `seed_admin` with the user's address. -/
def SessionEvent.Spares (A : Api ι β) (user : User) : SessionEvent → Prop
  | .seedAdmin email _ c => c.commitFails = true ∨ A.lower email ≠ user.email
  | _ => True

variable {user : User}

theorem Inactive.account {A : Api ι β} {store store' : Store β} (inactive : Inactive user store)
    (step : AccountStep A store store') : Inactive user store' := by
  obtain ⟨u, member, id, email, active⟩ := inactive
  cases step with
  | same users | updated _ _ _ _ users | subscribed _ _ users =>
    exact ⟨u, users ▸ member, id, email, active⟩
  | registered _ _ _ _ _ _ _ _ users =>
    exact ⟨u, (Table.mem_of_insert users).2 (.inl member), id, email, active⟩
  | deactivated other _ users =>
    refine ⟨if u.id = other.id then u.deactivated else u, ?_, ?_⟩
    · rw [users, Table.mem_modify]
      exact ⟨u, member, rfl⟩
    · split
      · exact ⟨id, email, rfl⟩
      · exact ⟨id, email, active⟩

theorem Inactive.seeded {store store' : Store β} (inactive : Inactive user store)
    {email password : String} {c : SeedChoice} {result : SeedResult}
    (h : seedAdmin A store email password c = some (store', result))
    (spares : c.commitFails = true ∨ A.lower email ≠ user.email) : Inactive user store' := by
  unfold seedAdmin at h
  split at h
  · simp only at h
    split at h
    · cases h
      exact inactive
    · split at h
      · cases h
      · rename_i users inserted
        cases h
        obtain ⟨u, member, rest⟩ := inactive
        exact ⟨u, (Table.mem_of_insert inserted).2 (.inl member), rest⟩
  · rename_i seeded only
    split at h
    · cases h
      exact inactive
    · rename_i commits
      cases h
      obtain ⟨u, member, id, same, active⟩ := inactive
      have apart := spares.resolve_left commits
      have listed : seeded ∈ store.users.rows.filter fun u => u.email = A.lower email := by
        rw [only]
        exact List.mem_singleton_self _
      obtain ⟨there, its⟩ := List.mem_filter.1 listed
      have other : u.id ≠ seeded.id := by
        intro eq
        rw [Table.eq_of_key member there eq] at same
        exact apart ((of_decide_eq_true its).symm.trans same)
      refine ⟨u, ?_, id, same, active⟩
      rw [Table.mem_modify]
      exact ⟨u, member, by rw [if_neg other]⟩
  · cases h
    exact inactive

theorem Inactive.step (inactive : Inactive user s.store) (spares : e.Spares A user)
    (h : s.step A J ttlMinutes e = some s') : Inactive user s'.store := by
  cases e with
  | tick now =>
    simp only [SessionState.step] at h
    split at h
    · cases h
      exact inactive
    · cases h
  | request r =>
    simp only [SessionState.step] at h
    split at h
    · obtain ⟨⟨store, resp⟩, answered, rfl⟩ := Option.map_eq_some_iff.1 h
      exact inactive.account (handle_account answered)
    · cases h
  | seedAdmin email password c =>
    obtain ⟨⟨store, result⟩, seeded, rfl⟩ := Option.map_eq_some_iff.1 h
    exact inactive.seeded seeded spares

/-- An inactive user is not authenticated. -/
theorem Inactive.not_current {A : Api ι β} {store : Store β} (inactive : Inactive user store)
    {credentials : Option String} {current : User}
    (h : getCurrentUser A store credentials = .ok current) : current.id ≠ user.id := by
  obtain ⟨member, active⟩ := getCurrentUser_active h
  obtain ⟨u, there, id, _, inactive⟩ := inactive
  intro same
  rw [Table.eq_of_key member there (same.trans id.symm), inactive] at active
  cases active

/-- A deactivation that succeeds. -/
theorem inactive_of_deactivated {A : Api ι β} {store store' : Store β} {r : Request} {userId : Int}
    {status : Nat} {body : Body ι} (route : r.route = .deactivateUser userId)
    (h : handle A store r = some (store', .ok status body)) :
    ∃ user ∈ store.users, (user.id : Int) = userId ∧ Inactive user store' := by
  obtain ⟨credentials, _, c⟩ := r
  cases route
  change deactivateUser A store credentials userId c = _ at h
  unfold deactivateUser depends at h
  split at h
  · cases h
  · rename_i admin _
    simp only at h
    by_cases own : userId = admin.id
    · rw [if_pos own] at h
      cases h
    · rw [if_neg own] at h
      cases found : store.users.lookup userId with
      | none =>
        rw [found] at h
        cases h
      | some user =>
        obtain ⟨member, id⟩ := Table.lookup_eq_some found
        rw [found] at h
        simp only at h
        split at h
        · cases h
        · split at h
          · cases h
          · cases h
            refine ⟨user, member, id, user.deactivated, ?_, rfl, rfl, rfl⟩
            rw [Table.mem_modify]
            exact ⟨user, member, by rw [if_pos rfl]⟩

/-- **A deactivation takes effect at once and for good.** From a successful `deactivate_user` on,
through any run without a `seed_admin` for the user's address, no request is authenticated as the
user, whichever token it carries, and no login hands out another token to him. -/
theorem deactivated_locked_out {r : Request} {userId : Int} {store : Store β} {status : Nat}
    {body : Body ι} {es : List SessionEvent} (route : r.route = .deactivateUser userId)
    (answered : handle (A.withTokens J ttlMinutes s.clock) s.store r =
      some (store, .ok status body))
    (spares : ∀ user ∈ s.store.users, (user.id : Int) = userId → ∀ e ∈ es, e.Spares A user)
    (run : Run.exec (SessionState.step A J ttlMinutes) { s with store := store } es = some s') :
    (∀ credentials current, getCurrentUser (A.withTokens J ttlMinutes s'.clock) s'.store credentials =
      .ok current → (current.id : Int) ≠ userId) ∧
    ∀ i ∈ s'.issued, (i.user.id : Int) = userId → i ∈ s.issued := by
  obtain ⟨user, member, rfl, inactive⟩ := inactive_of_deactivated route answered
  have guarded : Run.Guarded (SessionState.step A J ttlMinutes) (fun _ e => e.Spares A user)
      { s with store := store } es := Run.Guarded.of_mem _ (spares user member rfl)
  have ended := guarded.invariant
    (I := fun x => Inactive user x.store ∧ ∀ i ∈ x.issued, i.user.id = user.id → i ∈ s.issued)
    (fun x e x' inv spares taken => ?_) ⟨inactive, fun i issued _ => issued⟩ run
  · refine ⟨fun credentials current h => ?_, fun i issued same => ?_⟩
    · exact fun same => ended.1.not_current h (Int.ofNat.inj same)
    · exact ended.2 i issued (Int.ofNat.inj same)
  · obtain ⟨inactive, issued⟩ := inv
    refine ⟨inactive.step spares taken, fun i now same => ?_⟩
    rcases issued_step taken now with before | ⟨r, rfl, loggedIn⟩
    · exact issued i before same
    · obtain ⟨u, there, id, _, off⟩ := inactive
      have eq := Table.eq_of_key loggedIn.member there (same.trans id.symm)
      have active := loggedIn.active
      rw [eq, off] at active
      cases active

/-- The admin deactivates the clone, whose token is good for another half an hour. -/
def deactivation : Request :=
  ⟨some (Jwt.sample.createAccessToken 60 1 .admin 63902822400000000), .deactivateUser 2,
    choiceAt 63902824200000000 ⟨0, 0⟩⟩

/-- The clone presents it, and logs in again. -/
def triesAgain : List SessionEvent :=
  [.request ⟨some loginIssue.token, .readCurrentUser, choiceAt 63902824200000000 ⟨0, 0⟩⟩,
    .request ⟨none, .login "a@x.org" "a", choiceAt 63902824200000000 ⟨0, 0⟩⟩]

/-- The stores after the deactivation. -/
def cloneDeactivated : Store (List MemoryItem) :=
  { adminAndClone with
    users := adminAndClone.users.modify 2 User.deactivated User.deactivated_id }

theorem locked_out_of_deactivation :
    Run.exec (SessionState.step Api.sample Jwt.sample 60) afterLogin (.request deactivation ::
        triesAgain) = some { afterLogin with store := cloneDeactivated } ∧
      ∀ credentials current, getCurrentUser (Api.sample.withTokens Jwt.sample 60 63902824200000000)
        cloneDeactivated credentials = .ok current → (current.id : Int) ≠ 2 := by
  have answered : handle (Api.sample.withTokens Jwt.sample 60 afterLogin.clock) afterLogin.store
      deactivation = some (cloneDeactivated, .ok 200 _) := rfl
  have run : Run.exec (SessionState.step Api.sample Jwt.sample 60)
      { afterLogin with store := cloneDeactivated } triesAgain =
        some { afterLogin with store := cloneDeactivated } := rfl
  refine ⟨rfl, (deactivated_locked_out rfl answered ?_ run).1⟩
  intro user _ _ e member
  rcases List.mem_pair.1 member with rfl | rfl
  · exact trivial
  · exact trivial

end Mycelium
