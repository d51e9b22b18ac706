import Hepha.Js.Unicode
import Mathlib.Data.Int.Notation
import Mathlib.Data.Nat.Notation

/-!
# Dates

A date is its time value, the milliseconds since the epoch.  `toISOString`
writes it in the proleptic Gregorian calendar, with a signed six digit year
outside the years 0 to 9999.  The guards of the source accept a timestamp only
when it is canonical, that is when writing the date it denotes gives the
timestamp back; a canonical timestamp and its time value determine each other.
-/

namespace Hepha

/-- The largest time value of a date, in either direction. -/
def maxTime : ℤ := 8640000000000000

namespace Date

/-- The days from the epoch to a civil date; years run from March. -/
def daysFromCivil (year : ℤ) (month day : ℕ) : ℤ :=
  let y := if month ≤ 2 then year - 1 else year
  let era := y.fdiv 400
  let yearOfEra := y - era * 400
  let shifted : ℤ := if month > 2 then month - 3 else month + 9
  let dayOfYear := (153 * shifted + 2) / 5 + day - 1
  let dayOfEra := yearOfEra * 365 + yearOfEra / 4 - yearOfEra / 100 + dayOfYear
  era * 146097 + dayOfEra - 719468

/-- The civil date a number of days after the epoch. -/
def civilFromDays (days : ℤ) : ℤ × ℤ × ℤ :=
  let z := days + 719468
  let era := z.fdiv 146097
  let dayOfEra := z - era * 146097
  let yearOfEra := (dayOfEra - dayOfEra / 1460 + dayOfEra / 36524 - dayOfEra / 146096) / 365
  let dayOfYear := dayOfEra - (365 * yearOfEra + yearOfEra / 4 - yearOfEra / 100)
  let shifted := (5 * dayOfYear + 2) / 153
  let day := dayOfYear - (153 * shifted + 2) / 5 + 1
  let month := if shifted < 10 then shifted + 3 else shifted - 9
  (yearOfEra + era * 400 + (if month ≤ 2 then 1 else 0), month, day)

/-- The last `width` decimal digits of a number. -/
def digits : ℕ → ℕ → JsString
  | 0, _ => []
  | width + 1, n => digits width (n / 10) ++ [(0x30 + n % 10).toUInt16]

def yearDigits (year : ℤ) : JsString :=
  if 0 ≤ year ∧ year ≤ 9999 then digits 4 year.toNat
  else (if 0 ≤ year then 0x2B else 0x2D) :: digits 6 year.natAbs

/-- `new Date(time).toISOString()`. -/
def toISOString (time : ℤ) : JsString :=
  let days := time.fdiv 86400000
  let ms := (time - days * 86400000).toNat
  let (year, month, day) := civilFromDays days
  yearDigits year ++ 0x2D :: digits 2 month.toNat ++ 0x2D :: digits 2 day.toNat ++
    0x54 :: digits 2 (ms / 3600000) ++ 0x3A :: digits 2 (ms / 60000 % 60) ++
    0x3A :: digits 2 (ms / 1000 % 60) ++ 0x2E :: digits 3 (ms % 1000) ++ [0x5A]

/-- Reads `width` decimal digits. -/
def readDigits : ℕ → ℕ → JsString → Option (ℕ × JsString)
  | 0, n, s => some (n, s)
  | _ + 1, _, [] => none
  | width + 1, n, u :: s =>
      if 0x30 ≤ u ∧ u ≤ 0x39 then readDigits width (10 * n + (u.toNat - 0x30)) s else none

/-- Reads one given unit. -/
def readUnit (u : CodeUnit) : JsString → Option JsString
  | [] => none
  | v :: s => if v = u then some s else none

def readYear : JsString → Option (ℤ × JsString)
  | [] => none
  | u :: s =>
      if u = 0x2B then (readDigits 6 0 s).map fun (n, rest) => ((n : ℤ), rest)
      else if u = 0x2D then (readDigits 6 0 s).map fun (n, rest) => (-(n : ℤ), rest)
      else (readDigits 4 0 (u :: s)).map fun (n, rest) => ((n : ℤ), rest)

/-- The time value of a string in the format of `toISOString`. -/
def readISOString (text : JsString) : Option ℤ := do
  let (year, s) ← readYear text
  let (month, s) ← readDigits 2 0 (← readUnit 0x2D s)
  let (day, s) ← readDigits 2 0 (← readUnit 0x2D s)
  let (hour, s) ← readDigits 2 0 (← readUnit 0x54 s)
  let (minute, s) ← readDigits 2 0 (← readUnit 0x3A s)
  let (second, s) ← readDigits 2 0 (← readUnit 0x3A s)
  let (ms, s) ← readDigits 3 0 (← readUnit 0x2E s)
  guard (s = [0x5A])
  return daysFromCivil year month day * 86400000 +
    (hour * 3600000 + minute * 60000 + second * 1000 + ms : ℕ)

/-- The time value of a canonical timestamp: `new Date(text)` is a date, and
its `toISOString()` is `text`. -/
def canonicalTime (text : JsString) : Option ℤ :=
  (readISOString text).filter fun time =>
    -maxTime ≤ time ∧ time ≤ maxTime ∧ toISOString time = text

/-- A date and a time of day, as numbers that need not exist in the calendar. -/
structure DateTime where
  year : ℕ
  month : ℕ
  day : ℕ
  hour : ℕ
  minute : ℕ
  second : ℕ

/-- Reads `/^\d{4}-\d{2}-\d{2}T\d{2}:\d{2}:\d{2}/`, and what follows it. -/
def readDateTime (text : JsString) : Option (DateTime × JsString) := do
  let (year, s) ← readDigits 4 0 text
  let (month, s) ← readDigits 2 0 (← readUnit 0x2D s)
  let (day, s) ← readDigits 2 0 (← readUnit 0x2D s)
  let (hour, s) ← readDigits 2 0 (← readUnit 0x54 s)
  let (minute, s) ← readDigits 2 0 (← readUnit 0x3A s)
  let (second, s) ← readDigits 2 0 (← readUnit 0x3A s)
  return ({ year, month, day, hour, minute, second }, s)

def isLeapYear (year : ℕ) : Bool :=
  (year % 4 == 0 && year % 100 != 0) || year % 400 == 0

def daysInMonth (year month : ℕ) : ℕ :=
  if month = 2 ∧ isLeapYear year then 29
  else [31, 28, 31, 30, 31, 30, 31, 31, 30, 31, 30, 31].getD (month - 1) 0

/-- The date is in the calendar and the time on the clock. -/
def DateTime.exists (t : DateTime) : Bool :=
  1 ≤ t.month && t.month ≤ 12 && 1 ≤ t.day && t.day ≤ daysInMonth t.year t.month &&
    t.hour ≤ 23 && t.minute ≤ 59 && t.second ≤ 59

/-- The fraction of a second, in milliseconds, and the `Z` that end a
timestamp of `/^\d{4}-\d\d-\d\dT\d\d:\d\d:\d\d(?:\.\d{3})?Z$/`. -/
def readFractionZ (s : JsString) : Option ℕ :=
  if s = [0x5A] then some 0
  else do
    let (ms, rest) ← readDigits 3 0 (← readUnit 0x2E s)
    guard (rest = [0x5A])
    return ms

/-- `Date.parse` of such a timestamp, `none` where it is not a number.  A day
up to the 31st is read in every month, and runs over into the next one; the
24th hour is the end of the day. -/
def parseUtc (text : JsString) : Option ℤ := do
  let (t, rest) ← readDateTime text
  let ms ← readFractionZ rest
  guard (1 ≤ t.month ∧ t.month ≤ 12 ∧ 1 ≤ t.day ∧ t.day ≤ 31 ∧ t.minute ≤ 59 ∧ t.second ≤ 59 ∧
    (t.hour ≤ 23 ∨ t.hour = 24 ∧ t.minute = 0 ∧ t.second = 0 ∧ ms = 0))
  return daysFromCivil t.year t.month t.day * 86400000 +
    (t.hour * 3600000 + t.minute * 60000 + t.second * 1000 + ms : ℕ)

theorem toISOString_of_canonicalTime {text : JsString} {time : ℤ}
    (h : canonicalTime text = some time) : toISOString time = text := by
  simp only [canonicalTime, Option.filter_eq_some_iff, decide_eq_true_eq] at h
  exact h.2.2.2

/-- The units of a timestamp: digits, letters, and `+`, `-`, `.` and `:`. -/
def IsTimeUnit (u : CodeUnit) : Prop :=
  0x2B ≤ u.toNat ∧ u.toNat < 0x80

theorem isTimeUnit_digits (width n : ℕ) : ∀ u ∈ digits width n, IsTimeUnit u := by
  induction width generalizing n with
  | zero => simp [digits]
  | succ width ih =>
      intro u hu
      rcases List.mem_append.mp hu with hu | hu
      · exact ih _ u hu
      · obtain rfl := List.mem_singleton.mp hu
        have : (0x30 + n % 10).toUInt16.toNat = (0x30 + n % 10) % 65536 := rfl
        unfold IsTimeUnit
        omega

theorem isTimeUnit_toISOString (time : ℤ) : ∀ u ∈ toISOString time, IsTimeUnit u := by
  have hyear : ∀ year, ∀ u ∈ yearDigits year, IsTimeUnit u := by
    intro year u hu
    unfold yearDigits at hu
    split at hu
    · exact isTimeUnit_digits _ _ u hu
    · rcases List.mem_cons.mp hu with rfl | hu
      · split <;> exact ⟨by decide, by decide⟩
      · exact isTimeUnit_digits _ _ u hu
  have happend : ∀ {a b : JsString}, (∀ u ∈ a, IsTimeUnit u) → (∀ u ∈ b, IsTimeUnit u) →
      ∀ u ∈ a ++ b, IsTimeUnit u :=
    fun ha hb => List.forall_mem_append.mpr ⟨ha, hb⟩
  have hpart : ∀ separator : CodeUnit, IsTimeUnit separator → ∀ width n,
      ∀ u ∈ separator :: digits width n, IsTimeUnit u :=
    fun _ hseparator width n => List.forall_mem_cons.mpr ⟨hseparator, isTimeUnit_digits width n⟩
  have hdate := fun year month day => happend (happend (hyear year)
    (hpart 0x2D ⟨by decide, by decide⟩ 2 month)) (hpart 0x2D ⟨by decide, by decide⟩ 2 day)
  exact happend (happend (happend (happend (happend (hdate _ _ _)
    (hpart _ ⟨by decide, by decide⟩ _ _)) (hpart _ ⟨by decide, by decide⟩ _ _))
    (hpart _ ⟨by decide, by decide⟩ _ _)) (hpart _ ⟨by decide, by decide⟩ _ _))
    (List.forall_mem_singleton.mpr ⟨by decide, by decide⟩)

/-- A timestamp is ASCII. -/
theorem toISOString_lt (time : ℤ) : ∀ u ∈ toISOString time, u.toNat < 0x80 :=
  fun u hu => (isTimeUnit_toISOString time u hu).2

theorem lineFeed_not_mem_toISOString (time : ℤ) : 0x0A ∉ toISOString time := fun hmem =>
  absurd (isTimeUnit_toISOString time _ hmem).1 (by decide)

/-- A text column keeps a canonical timestamp as it is. -/
theorem toWellFormed_of_canonicalTime {text : JsString} (h : (canonicalTime text).isSome) :
    text.toWellFormed = text := by
  obtain ⟨time, htime⟩ := Option.isSome_iff_exists.mp h
  rw [← toISOString_of_canonicalTime htime]
  refine JsString.toWellFormed_eq_self fun u hu => isSurrogate_of_lt ?_
  exact Nat.lt_trans (toISOString_lt _ u hu) (by decide)

example : toISOString 951868799999 = js "2000-02-29T23:59:59.999Z" := by decide +kernel

example : canonicalTime (js "-000001-12-31T00:00:00.000Z") = some (-62167305600000) := by
  decide +kernel

example : canonicalTime (js "2001-02-29T00:00:00.000Z") = none := by decide +kernel

example : parseUtc (js "2001-02-29T24:00:00Z") = parseUtc (js "2001-03-02T00:00:00.000Z") := by
  decide +kernel

end Date

end Hepha
