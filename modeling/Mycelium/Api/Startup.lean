import Mycelium.Shared.Settings

/-!
# The signing key at startup (`shared/auth.py`, `api/main.py`)

Two guards stand between a guessable signing key and a serving API. The settings
refuse to load in production with the override set or a placeholder left in a
secret; `validate_jwt_secret`, the first thing `lifespan` does, refuses a known or
a short key unless it sees the override. It looks for the override itself, in the
raw environment and under one spelling, and so misses some that the settings see.
-/

namespace Mycelium

open Configuration

/-! ## `validate_jwt_secret` -/

/-- `DEV_SECRET`. -/
def devSecret : String := "dev-only-insecure-secret-change-me"

/-- `MIN_SECRET_LENGTH`. -/
def minSecretLength : Nat := 32

/-- `KNOWN_INSECURE_SECRETS`. -/
def knownInsecureSecrets : List String :=
  [devSecret, "replace-me-with-at-least-32-random-bytes", "change-me", "changeme", "secret",
   "password", "test"]

/-- How `validate_jwt_secret` returns: after its warning, or with the checks passed. -/
inductive Verdict where
  | waived
  | checked
deriving DecidableEq, Repr

/-- `validate_jwt_secret`; the error is an InsecureSecretError. -/
def validateJwtSecret (environ : Environ) (jwtSecretKey : String) (secret : Option String) :
    Except String Verdict :=
  let secret := secret.getD jwtSecretKey
  if environ.getenv "ALLOW_INSECURE_JWT_SECRET" = some "1" then .ok .waived
  else if secret ∈ knownInsecureSecrets then
    .error ("JWT_SECRET_KEY is unset or set to a publicly known placeholder. " ++
      "Generate one with: python -c \"import secrets; print(secrets.token_urlsafe(48))\"")
  else if secret.length < minSecretLength then
    .error ("JWT_SECRET_KEY must be at least " ++ toString minSecretLength ++
      " characters; got " ++ toString secret.length ++ ".")
  else .ok .checked

/-- The environment waives the checks of every secret, or of none. -/
theorem validateJwtSecret_waived {environ : Environ} {jwtSecretKey : String}
    {secret : Option String} :
    validateJwtSecret environ jwtSecretKey secret = .ok .waived ↔
      environ.getenv "ALLOW_INSECURE_JWT_SECRET" = some "1" := by
  unfold validateJwtSecret
  by_cases set : environ.getenv "ALLOW_INSECURE_JWT_SECRET" = some "1"
  · simp [set]
  · simp only [set, if_false, iff_false]
    intro waived
    split at waived
    · cases waived
    · split at waived <;> cases waived

/-- What the checks let pass. -/
theorem validateJwtSecret_checked {environ : Environ} {jwtSecretKey : String}
    {secret : Option String} (h : validateJwtSecret environ jwtSecretKey secret = .ok .checked) :
    secret.getD jwtSecretKey ∉ knownInsecureSecrets ∧
      minSecretLength ≤ (secret.getD jwtSecretKey).length := by
  unfold validateJwtSecret at h
  simp only at h
  split at h
  · cases h
  · split at h
    · cases h
    · rename_i unknown
      split at h
      · cases h
      · rename_i long
        exact ⟨unknown, Nat.le_of_not_lt long⟩

/-! ## `lifespan` -/

/-- What stops the API before it serves. -/
inductive StartupError where
  | settings (error : SettingsError)
  | insecureSecret (message : String)
  | ensureBucket (message : String)
deriving DecidableEq, Repr

/-- The import of the settings, then `lifespan` up to its `yield`. -/
def startup (py : Python) (host : Host) (ensureBucket : Settings → Except String Unit) :
    Except StartupError Settings := do
  let s ← (getSettings py host).mapError .settings
  let _ ← (validateJwtSecret host.environ s.jwtSecretKey none).mapError .insecureSecret
  (ensureBucket s).mapError .ensureBucket
  return s

variable {py : Python} {host : Host} {s : Settings}

theorem startup_eq_ok {ensureBucket : Settings → Except String Unit}
    (h : startup py host ensureBucket = .ok s) :
    getSettings py host = .ok s ∧
      ∃ verdict, validateJwtSecret host.environ s.jwtSecretKey none = .ok verdict := by
  obtain ⟨t, read, rest⟩ := bind_eq_ok.1 h
  obtain ⟨verdict, validated, rest⟩ := bind_eq_ok.1 rest
  obtain ⟨_, -, same⟩ := bind_eq_ok.1 rest
  rw [mapError_eq_ok] at read validated
  cases same
  exact ⟨read, verdict, validated⟩

/-! ## The two readers of the override -/

/-- A key no one can guess from the repository. -/
structure StrongKey (py : Python) (key : String) : Prop where
  long : minSecretLength ≤ key.length
  unknown : key ∉ knownInsecureSecrets
  generated : ¬Settings.Placeholder py key

/-- The override is the same for `validate_jwt_secret` and for the settings `s`, with what follows
from that in production and outside. -/
structure ReadersAgree (py : Python) (host : Host) (s : Settings) : Prop where
  waives : ∀ secret, validateJwtSecret host.environ s.jwtSecretKey secret = .ok .waived ↔
    s.allowInsecureJwtSecret = true
  production : ∀ ensureBucket t, startup py host ensureBucket = .ok t → t.appEnv = .production →
    StrongKey py t.jwtSecretKey
  takesEffect : ∀ v, host.override py = some v → SpelledTrue v → s.appEnv ≠ .production →
    ∀ secret, validateJwtSecret host.environ s.jwtSecretKey secret = .ok .waived

def overrideVariable : String := "ALLOW_INSECURE_JWT_SECRET"

theorem lower_overrideVariable (py : Python) :
    py.lower overrideVariable = "allow_insecure_jwt_secret" := by
  rw [py.lower_ascii _ (by decide)]
  decide

/-- What `validate_jwt_secret` sees, the settings see. -/
theorem override_of_getenv (distinct : host.CaseDistinct py)
    (set : host.environ.getenv overrideVariable = some "1") : host.override py = some "1" := by
  have read := rawValue_of_getenv distinct set (envFiles host (selectedEnv py host))
  rwa [lower_overrideVariable] at read

/-- In production the API serves with a strong key only. -/
theorem startup_production (distinct : host.CaseDistinct py)
    {ensureBucket : Settings → Except String Unit} (h : startup py host ensureBucket = .ok s)
    (production : s.appEnv = .production) : StrongKey py s.jwtSecretKey := by
  obtain ⟨read, verdict, validated⟩ := startup_eq_ok h
  obtain ⟨off, generated⟩ := getSettings_production read production
  cases verdict with
  | waived =>
    have seen := override_of_getenv distinct (validateJwtSecret_waived.1 validated)
    have on := (getSettings_override read).2 ⟨"1", seen, by decide⟩
    rw [off] at on
    cases on
  | checked =>
    obtain ⟨unknown, long⟩ := validateJwtSecret_checked validated
    exact ⟨long, unknown, generated ("JWT_SECRET_KEY", s.jwtSecretKey) (by simp [Settings.secrets])⟩

/-- The readers agree unless the override that is in effect is spelled true in another way, or
stands in another place, than the one `validate_jwt_secret` looks for. -/
theorem readers_agree_iff (distinct : host.CaseDistinct py) (read : getSettings py host = .ok s) :
    ReadersAgree py host s ↔
      (host.environ.getenv overrideVariable = some "1" ∨
        ∀ v, host.override py = some v → ¬SpelledTrue v) := by
  have settings := getSettings_override read
  constructor
  · intro agree
    by_cases on : s.allowInsecureJwtSecret = true
    · exact .inl (validateJwtSecret_waived.1 ((agree.waives none).2 on))
    · right
      intro v found spelled
      exact on (settings.2 ⟨v, found, spelled⟩)
  · intro condition
    have same : host.environ.getenv overrideVariable = some "1" ↔
        s.allowInsecureJwtSecret = true := by
      constructor
      · intro set
        exact settings.2 ⟨"1", override_of_getenv distinct set, by decide⟩
      · intro on
        obtain ⟨v, found, spelled⟩ := settings.1 on
        exact condition.resolve_right fun off => off v found spelled
    constructor
    · intro secret
      exact validateJwtSecret_waived.trans same
    · intro ensureBucket t started production
      exact startup_production distinct started production
    · intro v found spelled _ secret
      exact validateJwtSecret_waived.2 (same.2 (settings.2 ⟨v, found, spelled⟩))

/-- The functions on strings without letters beyond ASCII; examples use it. -/
def Python.ascii : Python where
  lower := asciiLower
  strip s :=
    let trimmed := s.toList.dropWhile Char.isWhitespace
    String.ofList (trimmed.reverse.dropWhile Char.isWhitespace).reverse
  repr s := "'" ++ s ++ "'"
  int := String.toInt?
  lower_ascii _ _ := rfl

/-- A checkout with an env file for the sandbox, a guessable key in it, and the override in the
environment. -/
def sandboxHost (override : String) : Host where
  environ := ⟨[("APP_ENV", "sandbox"), (overrideVariable, override)], by
    show ["APP_ENV", overrideVariable].Nodup
    decide⟩
  cwd := "/srv"
  isFile path := path = "/srv/infra/.env.sandbox"
  dotenv _ :=
    [("POSTGRES_USER", some "admin"), ("POSTGRES_PASSWORD", some "sandbox-db-password"),
     ("POSTGRES_HOST", some "db"), ("POSTGRES_DB", some "clone_memory_sandbox"),
     ("CELERY_BROKER_URL", some "redis://redis:6379/0"),
     ("CELERY_RESULT_BACKEND", some "redis://redis:6379/0"),
     ("MINIO_ENDPOINT", some "http://minio:9000"), ("MINIO_ACCESS_KEY", some "sandbox-minio-user"),
     ("MINIO_SECRET_KEY", some "sandbox-minio-secret"),
     ("MINIO_BUCKET", some "memory-backups-sandbox"), ("JWT_SECRET_KEY", some "secret")]

/-- What the settings are there when the override is on. -/
def sandboxSettings : Settings where
  appEnv := .sandbox
  debug := false
  postgresUser := "admin"
  postgresPassword := "sandbox-db-password"
  postgresHost := "db"
  postgresPort := 5432
  postgresDb := "clone_memory_sandbox"
  dbPoolSize := 10
  dbMaxOverflow := 5
  dbPoolRecycle := 1800
  celeryBrokerUrl := "redis://redis:6379/0"
  celeryResultBackend := "redis://redis:6379/0"
  celeryTaskQueue := "memory_batches"
  rollupCheckIntervalSeconds := 3600
  streamFlushIntervalSeconds := 60
  memoryStreamMaxlen := 10000
  rollupIntervalOverrideSeconds := none
  minioEndpoint := "http://minio:9000"
  minioAccessKey := "sandbox-minio-user"
  minioSecretKey := "sandbox-minio-secret"
  minioBucket := "memory-backups-sandbox"
  jwtSecretKey := "secret"
  jwtAlgorithm := "HS256"
  accessTokenTtlMinutes := 60
  allowInsecureJwtSecret := true
  apiHost := "0.0.0.0"
  apiPort := 8000
  apiWorkers := 2
  apiReload := false
  logLevel := "INFO"

/-- Spelled `true` the override is on in the settings, and `validate_jwt_secret` refuses the key. -/
theorem readers_disagree_on_true :
    (sandboxHost "true").CaseDistinct .ascii ∧
      getSettings .ascii (sandboxHost "true") = .ok sandboxSettings ∧
      ¬ReadersAgree .ascii (sandboxHost "true") sandboxSettings := by
  refine ⟨by unfold Host.CaseDistinct; decide, by decide +kernel, ?_⟩
  intro agree
  have waived := validateJwtSecret_waived.1 ((agree.waives none).2 rfl)
  exact absurd waived (by decide)

theorem readers_agree_on_one : ReadersAgree .ascii (sandboxHost "1") sandboxSettings :=
  (readers_agree_iff (by unfold Host.CaseDistinct; decide) (by decide +kernel)).2 (.inl (by decide))

end Mycelium
