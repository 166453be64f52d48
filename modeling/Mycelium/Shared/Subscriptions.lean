import Mycelium.Shared.Datetime

/-!
# Subscription tiers (`shared/subscriptions.py`)
-/

namespace Mycelium

inductive SubscriptionTier where
  | free
  | standard
  | premium
deriving DecidableEq, Repr

structure BackupPolicy where
  intervalDays : Nat
  retainCount : Nat
deriving DecidableEq, Repr

/-- `BACKUP_POLICIES`. -/
def policyFor : SubscriptionTier → BackupPolicy
  | .free => ⟨30, 1⟩
  | .standard => ⟨7, 4⟩
  | .premium => ⟨1, 30⟩

/-- `BackupPolicy.interval`, in microseconds. `override` is
`settings.rollup_interval_override_seconds`. -/
def BackupPolicy.interval (override : Option Int) (policy : BackupPolicy) : Int :=
  match override with
  | some seconds => seconds * 1000000
  | none => policy.intervalDays * 86400 * 1000000

theorem retainCount_pos (tier : SubscriptionTier) : 0 < (policyFor tier).retainCount := by
  cases tier <;> decide

end Mycelium
