import Mathlib.Data.Option.Basic
import Mathlib.Data.List.Basic

/-!
# Datetimes

A `datetime` is its wall clock reading and its UTC offset, both in microseconds,
the reading counted from 0001-01-01T00:00:00. Aware values compare by the
instant they name. An instant (`datetime.now(UTC)`, or a stored
`DateTime(timezone=True)`) is an `Int`, the microseconds since 0001-01-01T00:00:00
UTC.
-/

namespace Mycelium

structure Datetime where
  wall : Int
  utcoffset : Option Int
deriving DecidableEq, Repr

namespace Datetime

/-- `_aware`: a naive value is read as UTC. -/
def aware (value : Datetime) : Datetime :=
  match value.utcoffset with
  | some _ => value
  | none => { value with utcoffset := some 0 }

/-- The instant an aware value names. -/
def instant (d : Datetime) : Int := d.wall - d.utcoffset.getD 0

/-- A stored instant, read back in UTC. -/
def utc (i : Int) : Datetime := ⟨i, some 0⟩

/-- The last microsecond of year 9999. -/
def maxWall : Int := 3652059 * 86400 * 1000000 - 1

/-- The driver's `astimezone(UTC)` of a bound value; `none` is its OverflowError. The driver codes the
first and the last instant of its range as infinities; here they are instants like the others. -/
def astimezoneUtc (d : Datetime) : Option Int :=
  if 0 ≤ d.instant ∧ d.instant ≤ maxWall then some d.instant else none

/-- `min` over aware values, the first of the smallest; `none` is its ValueError. -/
def earliest : List Datetime → Option Datetime
  | [] => none
  | d :: ds => some (ds.foldl (fun m x => if x.instant < m.instant then x else m) d)

/-- `fromisoformat` on one text, for examples; it refuses the others. -/
def newYear (text : String) : Option Datetime :=
  if text = "2026-01-01T00:00:00+00:00" then some ⟨63902822400000000, some 0⟩ else none

theorem eq_of_astimezoneUtc {d : Datetime} {i : Int} (h : d.astimezoneUtc = some i) :
    d.instant = i := by
  simp only [astimezoneUtc] at h
  split at h
  · exact Option.some.inj h
  · cases h

/-- The fold of `min`: one of the values seen, and none of them is earlier. -/
theorem foldl_earliest (ds : List Datetime) (d : Datetime) :
    let m := ds.foldl (fun m x => if x.instant < m.instant then x else m) d
    m ∈ d :: ds ∧ ∀ x ∈ d :: ds, m.instant ≤ x.instant := by
  induction ds generalizing d with
  | nil => simp
  | cons x ds ih =>
    obtain ⟨mem, least⟩ := ih (if x.instant < d.instant then x else d)
    rw [List.foldl_cons]
    constructor
    · rcases List.mem_cons.1 mem with here | there
      · rw [here]
        split <;> simp
      · exact List.mem_cons_of_mem _ (List.mem_cons_of_mem _ there)
    · have kept : (if x.instant < d.instant then x else d).instant ≤ d.instant ∧
          (if x.instant < d.instant then x else d).instant ≤ x.instant := by
        split <;> omega
      have first := least _ List.mem_cons_self
      intro y hy
      rcases List.mem_cons.1 hy with rfl | hy
      · exact Int.le_trans first kept.1
      · rcases List.mem_cons.1 hy with rfl | hy
        · exact Int.le_trans first kept.2
        · exact least y (List.mem_cons_of_mem _ hy)

theorem earliest_spec {ds : List Datetime} {m : Datetime} (h : earliest ds = some m) :
    m ∈ ds ∧ ∀ x ∈ ds, m.instant ≤ x.instant := by
  cases ds with
  | nil => cases h
  | cons d ds =>
    cases h
    exact foldl_earliest ds d

end Datetime

end Mycelium
