import Mathlib.Data.Int.Init
import Mathlib.Algebra.Order.Group.Int

/-!
# Clock times and quota weeks

`OffsetDateTime` is an instant of the `time` crate: nanoseconds since the epoch, within the
years `-9999` to `9999` that the crate represents. The offset a clock value carries plays no
part, since every function of the store reads it through `to_offset(UtcOffset::UTC)`.

`mondayStart` is the calendar computation of the source (date, days since Monday, midnight);
`weekOf` is its specification, the class of `⌊(ms + 259200000) / 604800000⌋`. The week window of a
clock time is exactly its class (`mem_window_iff`), also before 1970.
-/

namespace CodexApi

/-- Whether a number is an `i64`. -/
def inI64 (n : Int) : Bool := decide (-9223372036854775808 ≤ n ∧ n ≤ 9223372036854775807)

theorem inI64_iff {n : Int} :
    inI64 n = true ↔ -9223372036854775808 ≤ n ∧ n ≤ 9223372036854775807 := by
  simp [inI64]

/-- Nanoseconds of `-9999-01-01T00:00:00Z`. -/
def minUnixNanos : Int := -377705116800 * 1000000000

/-- Nanoseconds of `9999-12-31T23:59:59.999999999Z`. -/
def maxUnixNanos : Int := 253402300799 * 1000000000 + 999999999

/-- An instant the `time` crate represents. -/
structure OffsetDateTime where
  unixTimestampNanos : Int
  min_le : minUnixNanos ≤ unixTimestampNanos
  le_max : unixTimestampNanos ≤ maxUnixNanos

namespace OffsetDateTime

instance : DecidableEq OffsetDateTime := fun a b =>
  decidable_of_iff (a.unixTimestampNanos = b.unixTimestampNanos)
    ⟨fun h => by cases a; cases b; simpa using h, fun h => h ▸ rfl⟩

/-- `UNIX_EPOCH`. -/
def unixEpoch : OffsetDateTime := ⟨0, by decide, by decide⟩

instance : LT OffsetDateTime := ⟨fun a b => a.unixTimestampNanos < b.unixTimestampNanos⟩

instance : LE OffsetDateTime := ⟨fun a b => a.unixTimestampNanos ≤ b.unixTimestampNanos⟩

instance : DecidableLT OffsetDateTime := fun a b =>
  inferInstanceAs (Decidable (a.unixTimestampNanos < b.unixTimestampNanos))

instance : DecidableLE OffsetDateTime := fun a b =>
  inferInstanceAs (Decidable (a.unixTimestampNanos ≤ b.unixTimestampNanos))

theorem lt_iff {a b : OffsetDateTime} :
    a < b ↔ a.unixTimestampNanos < b.unixTimestampNanos := Iff.rfl

theorem ext_nanos {a b : OffsetDateTime} (h : a.unixTimestampNanos = b.unixTimestampNanos) :
    a = b := by
  cases a
  cases b
  simpa using h

/-- Whole milliseconds since the epoch, rounded down. -/
def unixMillis (t : OffsetDateTime) : Int := t.unixTimestampNanos / 1000000

/-- The calendar date, as days since the epoch. -/
def date (t : OffsetDateTime) : Int := t.unixTimestampNanos / 86400000000000

/-- `weekday().number_days_from_monday()` of a date; the epoch is a Thursday. -/
def daysFromMonday (date : Int) : Int := (date + 3) % 7

end OffsetDateTime

/-- `from_unix_timestamp_nanos`, failing outside the representable years. -/
def fromUnixTimestampNanos (nanos : Int) : Option OffsetDateTime :=
  if h : minUnixNanos ≤ nanos ∧ nanos ≤ maxUnixNanos then some ⟨nanos, h.1, h.2⟩ else none

/-- `monday_start`: midnight UTC of the Monday on or before `now`. The first representable
date is a Monday, so the subtraction stays in range. -/
def mondayStart (now : OffsetDateTime) : OffsetDateTime where
  unixTimestampNanos := (now.date - OffsetDateTime.daysFromMonday now.date) * 86400000000000
  min_le := by
    have := now.min_le
    simp only [minUnixNanos, OffsetDateTime.date, OffsetDateTime.daysFromMonday] at *
    omega
  le_max := by
    have := now.le_max
    simp only [maxUnixNanos, OffsetDateTime.date, OffsetDateTime.daysFromMonday] at *
    omega

/-! ### Weeks -/

/-- The week of a millisecond time stamp, Monday 00:00 UTC being the first instant of one. -/
def weekOf (ms : Int) : Int := (ms + 259200000) / 604800000

/-- The week window of `now` starts where its week does. -/
theorem mondayStart_unixMillis (now : OffsetDateTime) :
    (mondayStart now).unixMillis = weekOf now.unixMillis * 604800000 - 259200000 := by
  simp only [mondayStart, OffsetDateTime.unixMillis, OffsetDateTime.date,
    OffsetDateTime.daysFromMonday, weekOf]
  omega

/-- **The window is the week.** A time stamp lies in the half-open week window of `now` exactly
when it is of the same week. -/
theorem mem_window_iff (now : OffsetDateTime) (ms : Int) :
    (mondayStart now).unixMillis ≤ ms ∧ ms < (mondayStart now).unixMillis + 604800000 ↔
      weekOf ms = weekOf now.unixMillis := by
  rw [mondayStart_unixMillis]
  simp only [weekOf]
  omega

/-- Representable instants are far inside `i64` milliseconds. -/
theorem inI64_unixMillis (t : OffsetDateTime) : inI64 t.unixMillis = true := by
  have hmin := t.min_le
  have hmax := t.le_max
  rw [inI64_iff, OffsetDateTime.unixMillis]
  simp only [minUnixNanos, maxUnixNanos] at hmin hmax
  omega

theorem inI64_nextWeek (now : OffsetDateTime) :
    inI64 ((mondayStart now).unixMillis + 604800000) = true := by
  have hmin := (mondayStart now).min_le
  have hmax := (mondayStart now).le_max
  rw [inI64_iff, OffsetDateTime.unixMillis]
  simp only [minUnixNanos, maxUnixNanos] at hmin hmax
  omega

end CodexApi
