import Mycelium.Logic.Configuration
import Mycelium.Logic.Table
import Mathlib.Data.List.Infix

/-!
# The typed settings (`shared/settings.py`)

`get_settings` reads `APP_ENV` and `ENV_FILE` from the process environment by
their exact names, and leaves the rest to the model: every field has its value
from the environment or else from the env files, under its name in any letter
case, and is parsed to its type.

`Python` is what the code uses of the language on strings. `Host` is the machine
the process starts on: its environment, and what python-dotenv makes of each file.
-/

namespace Mycelium

open Configuration

/-! ## Strings -/

/-- The string with the letters A to Z made small. -/
def asciiLower (s : String) : String := String.ofList (s.toList.map Char.toLower)

/-- `part in s`. -/
def Occurs (part s : String) : Prop := part.toList <:+: s.toList

instance (part s : String) : Decidable (Occurs part s) :=
  inferInstanceAs (Decidable (_ <:+: _))

/-- `str.lower`, `str.strip` and `repr`, and how pydantic reads an int from a str. -/
structure Python where
  lower : String → String
  strip : String → String
  repr : String → String
  int : String → Option Int
  lower_ascii : ∀ s, s.toList.all (fun c => c.toNat < 128) → lower s = asciiLower s

def trueSpellings : List String := ["1", "on", "t", "true", "y", "yes"]

def falseSpellings : List String := ["0", "off", "f", "false", "n", "no"]

/-- How pydantic reads a bool from a str. -/
def parseBool (s : String) : Option Bool :=
  if asciiLower s ∈ trueSpellings then some true
  else if asciiLower s ∈ falseSpellings then some false
  else none

/-! ## The machine -/

/-- `os.environ`. -/
abbrev Environ := Table (String × String) Prod.fst

/-- `os.environ.get` and `os.getenv`. -/
def Environ.getenv (environ : Environ) (name : String) : Option String :=
  (environ.get? name).map Prod.snd

/-- `isFile` is `Path.is_file`; the bindings of an env file are in the file's order, and a name
without `=` has `none`. -/
structure Host where
  environ : Environ
  cwd : String
  isFile : String → Bool
  dotenv : String → List (String × Option String)

/-! ## The model -/

inductive AppEnv where
  | sandbox
  | production
  | test
deriving DecidableEq, Repr

/-- `ENVIRONMENTS`. -/
def environments : List String := ["sandbox", "production", "test"]

/-- The `Environment` literal. -/
def AppEnv.ofLiteral : String → Option AppEnv
  | "sandbox" => some .sandbox
  | "production" => some .production
  | "test" => some .test
  | _ => none

structure Settings where
  appEnv : AppEnv
  debug : Bool
  postgresUser : String
  postgresPassword : String
  postgresHost : String
  postgresPort : Int
  postgresDb : String
  dbPoolSize : Int
  dbMaxOverflow : Int
  dbPoolRecycle : Int
  celeryBrokerUrl : String
  celeryResultBackend : String
  celeryTaskQueue : String
  rollupCheckIntervalSeconds : Int
  streamFlushIntervalSeconds : Int
  memoryStreamMaxlen : Int
  rollupIntervalOverrideSeconds : Option Int
  minioEndpoint : String
  minioAccessKey : String
  minioSecretKey : String
  minioBucket : String
  jwtSecretKey : String
  jwtAlgorithm : String
  accessTokenTtlMinutes : Int
  allowInsecureJwtSecret : Bool
  apiHost : String
  apiPort : Int
  apiWorkers : Int
  apiReload : Bool
  logLevel : String
deriving DecidableEq, Repr

def Settings.isProduction (s : Settings) : Bool := s.appEnv = .production

/-- The kinds of a pydantic error. -/
inductive ErrorKind where
  | missing
  | literalError
  | boolParsing
  | intParsing
  | greaterThanEqual
deriving DecidableEq, Repr

/-- One error of a ValidationError, with the field it is about. -/
structure FieldError where
  loc : String
  kind : ErrorKind
deriving DecidableEq, Repr

/-- The value of each field before it is parsed; `none` when no source has one. -/
abbrev Raw := String → Option String

namespace Settings

variable (py : Python) (raw : Raw)

/-- A field without a default. -/
def required {α : Type} (parse : String → Except ErrorKind α) (loc : String) :
    Checked FieldError α :=
  match raw loc with
  | none => .errors [⟨loc, .missing⟩]
  | some v =>
    match parse v with
    | .ok a => .ok a
    | .error kind => .errors [⟨loc, kind⟩]

/-- A field with a default, which is not checked. -/
def defaulted {α : Type} (parse : String → Except ErrorKind α) (loc : String) (default : α) :
    Checked FieldError α :=
  match raw loc with
  | none => .ok default
  | some _ => required raw parse loc

def literal (v : String) : Except ErrorKind AppEnv :=
  (AppEnv.ofLiteral v).elim (.error .literalError) .ok

def bool (v : String) : Except ErrorKind Bool := (parseBool v).elim (.error .boolParsing) .ok

def int (v : String) : Except ErrorKind Int := (py.int v).elim (.error .intParsing) .ok

/-- `Field(ge=1)`. -/
def positive (v : String) : Except ErrorKind Int := do
  let n ← int py v
  if 1 ≤ n then .ok n else .error .greaterThanEqual

/-- The fields of `Settings`, each from its raw value. -/
def parse : Checked FieldError Settings :=
  (required raw literal "app_env").map Settings.mk
    |>.and (defaulted raw bool "debug" false)
    |>.and (required raw .ok "postgres_user")
    |>.and (required raw .ok "postgres_password")
    |>.and (required raw .ok "postgres_host")
    |>.and (defaulted raw (int py) "postgres_port" 5432)
    |>.and (required raw .ok "postgres_db")
    |>.and (defaulted raw (int py) "db_pool_size" 10)
    |>.and (defaulted raw (int py) "db_max_overflow" 5)
    |>.and (defaulted raw (int py) "db_pool_recycle" 1800)
    |>.and (required raw .ok "celery_broker_url")
    |>.and (required raw .ok "celery_result_backend")
    |>.and (defaulted raw .ok "celery_task_queue" "memory_batches")
    |>.and (defaulted raw (int py) "rollup_check_interval_seconds" 3600)
    |>.and (defaulted raw (int py) "stream_flush_interval_seconds" 60)
    |>.and (defaulted raw (int py) "memory_stream_maxlen" 10000)
    |>.and (defaulted raw (fun v => (int py v).map some) "rollup_interval_override_seconds" none)
    |>.and (required raw .ok "minio_endpoint")
    |>.and (required raw .ok "minio_access_key")
    |>.and (required raw .ok "minio_secret_key")
    |>.and (required raw .ok "minio_bucket")
    |>.and (required raw .ok "jwt_secret_key")
    |>.and (defaulted raw .ok "jwt_algorithm" "HS256")
    |>.and (defaulted raw (int py) "access_token_ttl_minutes" 60)
    |>.and (defaulted raw bool "allow_insecure_jwt_secret" false)
    |>.and (defaulted raw .ok "api_host" "0.0.0.0")
    |>.and (defaulted raw (int py) "api_port" 8000)
    |>.and (defaulted raw (positive py) "api_workers" 2)
    |>.and (defaulted raw bool "api_reload" false)
    |>.and (defaulted raw .ok "log_level" "INFO")

end Settings

/-! ## `_enforce_environment_isolation` -/

namespace Settings

variable (py : Python) (s : Settings)

/-- The `secrets` of the validator. -/
def secrets : List (String × String) :=
  [("POSTGRES_PASSWORD", s.postgresPassword), ("MINIO_ACCESS_KEY", s.minioAccessKey),
   ("MINIO_SECRET_KEY", s.minioSecretKey), ("JWT_SECRET_KEY", s.jwtSecretKey)]

/-- The database and the bucket, by their names in small letters. -/
def resources : List (String × String) :=
  [("POSTGRES_DB", py.lower s.postgresDb), ("MINIO_BUCKET", py.lower s.minioBucket)]

/-- The secret is still the one of the example file. -/
def Placeholder (secret : String) : Prop := Occurs "change_me" (py.lower secret)

instance (secret : String) : Decidable (Placeholder py secret) := by
  unfold Placeholder; infer_instance

/-- The ValueError of a production configuration. -/
def productionError : Option String :=
  if s.debug then some "DEBUG must be false when APP_ENV=production"
  else if s.apiReload then some "API_RELOAD must be false when APP_ENV=production"
  else if s.allowInsecureJwtSecret then
    some "ALLOW_INSECURE_JWT_SECRET is not permitted in production"
  else
    match s.secrets.find? fun secret => Placeholder py secret.2 with
    | some (label, _) =>
      some (label ++ " still holds the CHANGE_ME placeholder from the example file")
    | none =>
      (s.resources py).find? (fun r => Occurs "sandbox" r.2 ∨ Occurs "test" r.2) |>.map fun r =>
        r.1 ++ "=" ++ py.repr r.2 ++ " looks like a non-production resource; " ++
          "production must use its own database and bucket"

/-- The ValueError of a sandbox configuration. -/
def sandboxError : Option String :=
  (s.resources py).find? (fun r => Occurs "prod" r.2) |>.map fun r =>
    r.1 ++ "=" ++ py.repr r.2 ++ " looks like a production resource; " ++
      "sandbox must never point at production data"

/-- `_enforce_environment_isolation`; the ValueError it raises, if it does. -/
def isolationError : Option String :=
  if s.isProduction then s.productionError py
  else if s.appEnv = .sandbox then s.sandboxError py
  else none

end Settings

/-! ## `get_settings` -/

/-- A ConfigurationError, or a ValidationError with the errors of the fields or with the one of the
model validator, which runs when the fields have none. -/
inductive SettingsError where
  | configuration (message : String)
  | validation (errors : List FieldError)
  | isolation (message : String)
deriving DecidableEq, Repr

section GetSettings

variable (py : Python) (host : Host)

/-- `_env_file_candidates`. -/
def envFileCandidates (appEnv : String) : List String :=
  let name := ".env." ++ appEnv
  [host.cwd ++ "/" ++ name, host.cwd ++ "/infra/" ++ name]

/-- The files `get_settings` passes on: those of `ENV_FILE` or of the candidates that exist. -/
def envFiles (appEnv : String) : List String :=
  let files :=
    match host.environ.getenv "ENV_FILE" with
    | some explicit => if explicit ≠ "" then [explicit] else envFileCandidates host appEnv
    | none => envFileCandidates host appEnv
  files.filter host.isFile

/-- What pydantic-settings finds under a field's name: the environment's value, else that of the
files, a later one over an earlier one. -/
def rawValue (files : List String) : Raw := fun loc =>
  (last loc (folded py.lower host.environ.rows)).or
    (last loc (folded py.lower (files.flatMap host.dotenv))).join

/-- `Settings(_env_file=...)`. -/
def buildSettings (files : List String) : Except SettingsError Settings := do
  let s ← (Settings.parse py (rawValue py host files)).toExcept.mapError .validation
  match s.isolationError py with
  | some message => .error (.isolation message)
  | none => return s

/-- `app_env` in `get_settings`. -/
def selectedEnv : String := py.lower (py.strip ((host.environ.getenv "APP_ENV").getD ""))

/-- `get_settings`. -/
def getSettings : Except SettingsError Settings :=
  let appEnv := selectedEnv py host
  if appEnv ∉ environments then
    .error (.configuration ("APP_ENV must be one of sandbox, production, test; got " ++
      py.repr appEnv ++ ". Copy infra/.env.sandbox.example or infra/.env.production.example " ++
      "and select it with APP_ENV."))
  else buildSettings py host (envFiles host appEnv)

end GetSettings

/-! ## What is read -/

variable {py : Python} {host : Host} {raw : Raw} {s : Settings}

/-- A field without a default that no source has is reported. -/
theorem Settings.required_missing {α : Type} {parse : String → Except ErrorKind α} {loc : String}
    (missing : raw loc = none) :
    (Settings.required raw parse loc).errorsOf = [⟨loc, .missing⟩] := by
  rw [Settings.required, missing]
  rfl

/-- Nothing that identifies the deployment has a default, and no secret. -/
theorem Settings.parse_missing {loc : String}
    (member : loc ∈ ["app_env", "postgres_user", "postgres_password", "postgres_host",
      "postgres_db", "celery_broker_url", "celery_result_backend", "minio_endpoint",
      "minio_access_key", "minio_secret_key", "minio_bucket", "jwt_secret_key"])
    (missing : raw loc = none) : ⟨loc, .missing⟩ ∈ (Settings.parse py raw).errorsOf := by
  simp only [Settings.parse, Checked.errorsOf_and, Checked.errorsOf_map, List.mem_append]
  simp only [List.mem_cons, List.not_mem_nil, or_false] at member
  rcases member with rfl | rfl | rfl | rfl | rfl | rfl | rfl | rfl | rfl | rfl | rfl | rfl <;>
    simp only [Settings.required_missing missing, List.mem_singleton, true_or, or_true]

/-- The value of the override is the one the field was given. -/
theorem Settings.parse_override (h : Settings.parse py raw = .ok s) :
    Settings.defaulted raw Settings.bool "allow_insecure_jwt_secret" false =
      .ok s.allowInsecureJwtSecret := by
  unfold Settings.parse at h
  iterate 5
    rw [Checked.and_eq_ok] at h
    obtain ⟨_, _, h, -, rfl⟩ := h
  rw [Checked.and_eq_ok] at h
  obtain ⟨_, _, h, read, rfl⟩ := h
  iterate 23
    rw [Checked.and_eq_ok] at h
    obtain ⟨_, _, h, -, rfl⟩ := h
  obtain ⟨_, -, rfl⟩ := Checked.map_eq_ok.1 h
  exact read

/-- pydantic reads the str as true. -/
def SpelledTrue (v : String) : Prop := asciiLower v ∈ trueSpellings

instance (v : String) : Decidable (SpelledTrue v) := by unfold SpelledTrue; infer_instance

theorem Settings.defaulted_bool {loc : String} {b : Bool}
    (h : Settings.defaulted raw Settings.bool loc false = .ok b) :
    b = true ↔ ∃ v, raw loc = some v ∧ SpelledTrue v := by
  rw [Settings.defaulted, Settings.required] at h
  cases found : raw loc with
  | none =>
    rw [found] at h
    cases h
    simp
  | some v =>
    simp only [found, Settings.bool, parseBool] at h
    have value : b = decide (SpelledTrue v) := by
      by_cases yes : asciiLower v ∈ trueSpellings
      · simp only [yes, if_true, Option.elim_some] at h
        cases h
        simp [SpelledTrue, yes]
      · by_cases no : asciiLower v ∈ falseSpellings
        · simp only [yes, no, if_true, if_false, Option.elim_some] at h
          cases h
          simp [SpelledTrue, yes]
        · simp only [yes, no, if_false, Option.elim_none] at h
          cases h
    simp [value]

/-- The override as it stands in the sources, the environment before the files. -/
def Host.override (py : Python) (host : Host) : Option String :=
  rawValue py host (envFiles host (selectedEnv py host)) "allow_insecure_jwt_secret"

theorem getSettings_eq_ok (h : getSettings py host = .ok s) :
    Settings.parse py (rawValue py host (envFiles host (selectedEnv py host))) = .ok s ∧
      s.isolationError py = none := by
  simp only [getSettings, buildSettings] at h
  split at h
  · cases h
  · obtain ⟨t, parsed, checked⟩ := bind_eq_ok.1 h
    rw [mapError_eq_ok, Checked.toExcept_eq_ok] at parsed
    split at checked
    · cases checked
    · rename_i silent
      cases checked
      exact ⟨parsed, silent⟩

theorem getSettings_override (h : getSettings py host = .ok s) :
    s.allowInsecureJwtSecret = true ↔ ∃ v, host.override py = some v ∧ SpelledTrue v :=
  Settings.defaulted_bool (Settings.parse_override (getSettings_eq_ok h).1)

/-- Production has no override and none of its secrets is a placeholder. -/
theorem getSettings_production (h : getSettings py host = .ok s)
    (production : s.appEnv = .production) :
    s.allowInsecureJwtSecret = false ∧
      ∀ secret ∈ s.secrets, ¬Settings.Placeholder py secret.2 := by
  have none_raised := (getSettings_eq_ok h).2
  rw [Settings.isolationError, if_pos (by simp [Settings.isProduction, production]),
    Settings.productionError] at none_raised
  split at none_raised
  · cases none_raised
  · split at none_raised
    · cases none_raised
    · split at none_raised
      · cases none_raised
      · rename_i off
        cases found : s.secrets.find? fun secret => Settings.Placeholder py secret.2 with
        | some secret =>
          rw [found] at none_raised
          cases none_raised
        | none =>
          refine ⟨by simpa using off, fun secret member => ?_⟩
          simpa using List.find?_eq_none.1 found secret member

/-- No two names of the environment differ only in letter case. -/
def Host.CaseDistinct (py : Python) (host : Host) : Prop :=
  ∀ a ∈ host.environ.rows, ∀ b ∈ host.environ.rows, py.lower a.1 = py.lower b.1 → a.1 = b.1

/-- A variable of the environment is its field's raw value, whatever the files say. -/
theorem rawValue_of_getenv (distinct : host.CaseDistinct py) {name v : String}
    (set : host.environ.getenv name = some v) (files : List String) :
    rawValue py host files (py.lower name) = some v := by
  obtain ⟨⟨key, value⟩, found, rfl⟩ := Option.map_eq_some_iff.1 set
  obtain ⟨member, rfl⟩ := Table.get?_eq_some.1 found
  have read : last (py.lower key) (folded py.lower host.environ.rows) = some value := by
    apply last_folded _ member
    intro b here c there same
    exact Table.eq_of_key here there (distinct b here c there same)
  rw [rawValue, read, Option.some_or]

end Mycelium
