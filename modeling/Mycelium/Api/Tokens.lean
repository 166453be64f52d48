import Mycelium.Api.Requests
import Mycelium.Logic.Text

/-!
# Access tokens (`shared/auth.py`)

A token is signed text with the user's id, his role, and two times in whole
seconds. PyJWT signs and reads it, and checks the times against the clock; nothing
is assumed of it but that it reads what it has signed. The role in the token is
for clients: no dependency looks at it.
-/

namespace Mycelium

/-- The value of a role. -/
def UserRole.value : UserRole → String
  | .admin => "admin"
  | .clone => "clone"

/-- The claims of a token; PyJWT refuses a `sub` that is no string. -/
structure TokenPayload where
  sub : Option String
  role : Option String
  iat : Option Int
  exp : Option Int
deriving DecidableEq, Repr

/-- The payload of a user's token. -/
def TokenPayload.of (userId : Nat) (role : UserRole) (iat exp : Int) : TokenPayload :=
  ⟨some (toString userId), some role.value, some iat, some exp⟩

/-- PyJWT with the key and the algorithm of the settings. `verify` is what a token says when its
signature is one of the key, `none` when it is malformed or not. -/
structure Jwt where
  encode : TokenPayload → String
  verify : String → Option TokenPayload
  verify_encode : ∀ userId role iat exp,
    verify (encode (.of userId role iat exp)) = some (.of userId role iat exp)

/-- 1970-01-01T00:00:00 UTC. -/
def epoch : Int := 719162 * 86400 * 1000000

/-- `int(now.timestamp())`. -/
def timestamp (now : Int) : Int := (now - epoch).tdiv 1000000

/-- The instant of a time in whole seconds. -/
def ofTimestamp (seconds : Int) : Int := epoch + seconds * 1000000

/-- The instant from which a token made at `now` is refused. -/
def expiry (ttlMinutes now : Int) : Int := ofTimestamp (timestamp (now + ttlMinutes * 60000000))

/-- `create_access_token`, at `now`. -/
def Jwt.createAccessToken (J : Jwt) (ttlMinutes : Int) (userId : Nat) (role : UserRole) (now : Int) :
    String :=
  J.encode (.of userId role (timestamp now) (timestamp (now + ttlMinutes * 60000000)))

/-- PyJWT's checks of the times a token has: it was not issued later than now, and it has not
expired. -/
def TokenPayload.valid (payload : TokenPayload) (now : Int) : Bool :=
  payload.iat.all (fun iat => ofTimestamp iat ≤ now) &&
    payload.exp.all fun exp => now < ofTimestamp exp

/-- `decode_access_token`, at `now`. -/
def Jwt.decodeAccessToken (J : Jwt) (now : Int) (token : String) : Option Claims :=
  (J.verify token).bind fun payload =>
    if payload.valid now then some ⟨payload.sub.map .string⟩ else none

/-- The API as it answers a request at `now`: with PyJWT for the tokens, and Python's `int`. -/
def Api.withTokens {ι β : Type} (A : Api ι β) (J : Jwt) (ttlMinutes now : Int) : Api ι β :=
  { A with
    decodeAccessToken := J.decodeAccessToken now
    createAccessToken := J.createAccessToken ttlMinutes
    int := Text.int? }

variable {ι β : Type} {A : Api ι β} {J : Jwt} {ttlMinutes : Int} {s : Store β}

/-- After 1970 a time in whole seconds is not later than the instant, and less than a second
earlier. -/
theorem ofTimestamp_timestamp {now : Int} (since : epoch ≤ now) :
    ofTimestamp (timestamp now) ≤ now ∧ now < ofTimestamp (timestamp now) + 1000000 := by
  have floor : timestamp now = (now - epoch) / 1000000 :=
    Int.tdiv_eq_ediv_of_nonneg (Int.sub_nonneg_of_le since)
  simp only [ofTimestamp, floor]
  omega

/-- A token is accepted until it expires, whatever its role. -/
theorem decode_created {userId : Nat} {role : UserRole} {issued now : Int} (since : epoch ≤ issued)
    (later : issued ≤ now) :
    J.decodeAccessToken now (J.createAccessToken ttlMinutes userId role issued) =
      if now < expiry ttlMinutes issued then some ⟨some (.string (toString userId))⟩ else none := by
  have iat := le_trans (ofTimestamp_timestamp since).1 later
  rw [Jwt.decodeAccessToken, Jwt.createAccessToken, J.verify_encode, Option.bind_some]
  have valid : (TokenPayload.of userId role (timestamp issued)
      (timestamp (issued + ttlMinutes * 60000000))).valid now = true ↔
      now < expiry ttlMinutes issued := by
    show _ ↔ now < ofTimestamp (timestamp (issued + ttlMinutes * 60000000))
    simp [TokenPayload.valid, TokenPayload.of, iat]
  by_cases fresh : now < expiry ttlMinutes issued
  · rw [if_pos (valid.2 fresh), if_pos fresh]
    rfl
  · rw [if_neg fun ok => fresh (valid.1 ok), if_neg fresh]

/-- The current user is an active row. -/
theorem getCurrentUser_active {credentials : Option String} {user : User}
    (h : getCurrentUser A s credentials = .ok user) : user ∈ s.users ∧ user.isActive = true := by
  unfold getCurrentUser at h
  split at h
  · cases h
  · split at h
    · cases h
    · split at h
      · cases h
      · split at h
        · cases h
        · split at h
          · cases h
          · rename_i row
            split at h
            · rename_i active
              cases h
              exact ⟨(Table.lookup_eq_some row).1, active⟩
            · cases h

/-- The token of a user authenticates as the active row with his id, until it expires. -/
theorem getCurrentUser_created {userId : Nat} {role : UserRole} {issued now : Int} {user : User}
    (since : epoch ≤ issued) (later : issued ≤ now) :
    getCurrentUser (A.withTokens J ttlMinutes now) s
        (some (J.createAccessToken ttlMinutes userId role issued)) = .ok user ↔
      now < expiry ttlMinutes issued ∧ user ∈ s.users ∧ user.id = userId ∧ user.isActive = true := by
  have decoded : (A.withTokens J ttlMinutes now).decodeAccessToken
      (J.createAccessToken ttlMinutes userId role issued) = _ := decode_created since later
  have subject : (A.withTokens J ttlMinutes now).subjectId (.string (toString userId)) =
      some (userId : Int) := by
    show Text.int? (toString userId) = _
    rw [Nat.toString_eq_repr, Text.int?_repr]
  have found : s.users.lookup (userId : Int) = s.users.get? userId := by
    unfold Table.lookup
    rw [if_pos (Int.natCast_nonneg _), Int.toNat_natCast]
  simp only [getCurrentUser, decoded]
  by_cases fresh : now < expiry ttlMinutes issued
  · simp only [if_pos fresh, subject, found]
    constructor
    · intro h
      split at h
      · cases h
      · rename_i row
        split at h
        · rename_i active
          cases h
          obtain ⟨member, same⟩ := Table.get?_eq_some.1 row
          exact ⟨fresh, member, same, active⟩
        · cases h
    · rintro ⟨_, member, same, active⟩
      rw [Table.get?_eq_some.2 ⟨member, same⟩]
      simp [active]
  · simp [fresh]

/-- The claims written one after another. -/
def TokenPayload.text (payload : TokenPayload) : String :=
  ".".intercalate [payload.sub.getD "", payload.role.getD "", toString (payload.iat.getD 0),
    toString (payload.exp.getD 0)]

def TokenPayload.read (token : String) : Option TokenPayload :=
  match Text.split '.' token with
  | [sub, role, iat, exp] => (Text.int? iat).bind fun iat => (Text.int? exp).map fun exp =>
    ⟨some sub, some role, some iat, some exp⟩
  | _ => none

theorem TokenPayload.read_text (userId : Nat) (role : UserRole) (iat exp : Int) :
    read (text (.of userId role iat exp)) = some (.of userId role iat exp) := by
  have number : ∀ i : Int, '.' ∉ (toString i).toList := by
    intro i h
    rcases Text.mem_toString_int h with eq | digit
    · cases eq
    · cases digit
  have apart : ∀ part ∈ [toString userId, role.value, toString iat, toString exp],
      '.' ∉ part.toList := by
    intro part h
    simp only [List.mem_cons, List.not_mem_nil, or_false] at h
    rcases h with rfl | rfl | rfl | rfl
    · exact Text.not_mem_repr rfl userId
    · cases role <;> decide
    · exact number iat
    · exact number exp
  have parts : Text.split '.' (text (.of userId role iat exp)) = _ :=
    Text.split_intercalate apart (List.cons_ne_nil _ _)
  rw [read, parts]
  simp only [Text.int?_toString]
  rfl

/-- A PyJWT for examples, which accepts any token it can read. -/
def Jwt.sample : Jwt := ⟨TokenPayload.text, TokenPayload.read, TokenPayload.read_text⟩

end Mycelium
