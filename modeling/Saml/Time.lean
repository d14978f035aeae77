import Saml.Number
import Mathlib.Order.Lattice
import Mathlib.Data.Int.Order.Basic

/-!
# Time

Instants and durations with the ranges of `std::time`, and the
`xs:dateTime` lexical form they are read from and written in.
-/

namespace Saml

/-- Nanoseconds in a second. -/
def NANOS : Nat := 1000000000

/-- `std::time::Duration`: 64-bit seconds and the nanoseconds below them. -/
structure Duration where
  nanos : Nat
  inRange : nanos < 2 ^ 64 * NANOS
deriving DecidableEq

/-- `std::time::SystemTime`: signed 64-bit seconds around the epoch. -/
structure SystemTime where
  nanos : Int
  inRange : -(2 ^ 63 * (NANOS : Int)) ≤ nanos ∧ nanos < 2 ^ 63 * (NANOS : Int)
deriving DecidableEq

namespace Duration

/-- `Duration::new` with the carry of the nanoseconds inside the range. -/
def ofSecs (secs : Nat) (h : secs < 2 ^ 64) : Duration :=
  ⟨secs * NANOS, Nat.mul_lt_mul_of_pos_right h (by decide)⟩

theorem minute_lt : 60 < 2 ^ 64 := by decide
theorem fiveMinutes_lt : 300 < 2 ^ 64 := by decide
theorem tenMinutes_lt : 600 < 2 ^ 64 := by decide
theorem hour_lt : 3600 < 2 ^ 64 := by decide

/-- `Duration::as_secs`. -/
def asSecs (d : Duration) : Nat := d.nanos / NANOS

theorem asSecs_lt (d : Duration) : d.asSecs < 2 ^ 64 :=
  Nat.div_lt_of_lt_mul (by rw [Nat.mul_comm]; exact d.inRange)

theorem nanos_injective : Function.Injective Duration.nanos := by
  intro a b h
  cases a
  cases b
  simpa using h

instance : LinearOrder Duration := LinearOrder.lift' Duration.nanos nanos_injective

theorem le_iff {a b : Duration} : a ≤ b ↔ a.nanos ≤ b.nanos := Iff.rfl

end Duration

namespace SystemTime

theorem nanos_injective : Function.Injective SystemTime.nanos := by
  intro a b h
  cases a
  cases b
  simpa using h

instance : LinearOrder SystemTime := LinearOrder.lift' SystemTime.nanos nanos_injective

theorem le_iff {a b : SystemTime} : a ≤ b ↔ a.nanos ≤ b.nanos := Iff.rfl

theorem lt_iff {a b : SystemTime} : a < b ↔ a.nanos < b.nanos := Iff.rfl

/-- An instant, when it is in the range of the type. -/
def ofNanos (n : Int) : Option SystemTime :=
  if h : -(2 ^ 63 * (NANOS : Int)) ≤ n ∧ n < 2 ^ 63 * (NANOS : Int) then some ⟨n, h⟩ else none

theorem ofNanos_eq_some_iff {n : Int} {t : SystemTime} :
    ofNanos n = some t ↔ n = t.nanos := by
  unfold ofNanos
  split
  · rename_i h
    constructor
    · rintro ⟨rfl⟩
      rfl
    · rintro rfl
      rfl
  · rename_i h
    simp only [reduceCtorEq, false_iff]
    rintro rfl
    exact h t.inRange

/-- `SystemTime::checked_add`. -/
def checkedAdd (t : SystemTime) (d : Duration) : Option SystemTime :=
  ofNanos (t.nanos + d.nanos)

/-- `SystemTime::checked_sub`. -/
def checkedSub (t : SystemTime) (d : Duration) : Option SystemTime :=
  ofNanos (t.nanos - d.nanos)

theorem checkedAdd_eq_some_iff {t u : SystemTime} {d : Duration} :
    t.checkedAdd d = some u ↔ u.nanos = t.nanos + d.nanos := by
  rw [checkedAdd, ofNanos_eq_some_iff, eq_comm]

theorem checkedSub_eq_some_iff {t u : SystemTime} {d : Duration} :
    t.checkedSub d = some u ↔ u.nanos = t.nanos - d.nanos := by
  rw [checkedSub, ofNanos_eq_some_iff, eq_comm]

/-- `SystemTime::duration_since`, zero for an instant that lies ahead. -/
def since (t earlier : SystemTime) : Duration :=
  ⟨(t.nanos - earlier.nanos).toNat, by
    have ht := t.inRange
    have he := earlier.inRange
    simp only [NANOS] at *
    omega⟩

/-- `UNIX_EPOCH`. -/
def UNIX_EPOCH : SystemTime := ⟨0, by decide⟩

end SystemTime

namespace Time

open Number

/-- An error of the reader. -/
def invalid {α : Type} (message : Str) : Result α :=
  .error (.xmlParse ("invalid xs:dateTime: " ++ message))

/-- `parse_int`. -/
def parseInt (parse : Str → Except Str Int) (s field : Str) : Result Int :=
  match parse s with
  | .ok n => .ok n
  | .error err => invalid ("bad " ++ field ++ ": '" ++ s ++ "' (" ++ err ++ ")")

/-- `parse_fraction_to_nanos`: truncate or right-pad to nine digits. -/
def parseFractionToNanos (frac : Str) : Result Int :=
  if frac = [] ∨ ¬ frac.all (digit · |>.isSome) then
    invalid ("bad fractional seconds '" ++ frac ++ "'")
  else
    let buf := frac.take 9 ++ List.replicate (9 - frac.length) '0'
    match parseU32 buf with
    | .ok n => .ok n
    | .error err => invalid ("fractional seconds overflow (" ++ err ++ ")")

/-- The two parts of a text around a byte position, when it falls on a
character boundary. -/
def splitAtByte : Nat → Str → Option (Str × Str)
  | 0, s => some ([], s)
  | _ + 1, [] => none
  | n + 1, c :: rest =>
      if c.utf8Size ≤ n + 1 then
        (splitAtByte (n + 1 - c.utf8Size) rest).map fun (before, after) => (c :: before, after)
      else none
termination_by _ s => s.length

/-- The offset designator of the last six bytes: sign, hours and minutes. -/
def offsetDesignator (candidate : Str) : Option (Char × Str × Str) :=
  match candidate with
  | [] => none
  | sign :: rest =>
      if sign = '+' ∨ sign = '-' then
        match splitAtByte 2 rest with
        | some (hh, ':' :: mm) => some (sign, hh, mm)
        | _ => none
      else none

/-- `split_offset`: the time portion and the offset in seconds east of UTC. -/
def splitOffset (s : Str) : Result (Str × Int) :=
  if s.getLast? = some 'Z' then .ok (s.dropLast, 0)
  else if Text.byteLen s < 6 then .ok (s, 0)
  else
    match splitAtByte (Text.byteLen s - 6) s with
    | none => .ok (s, 0)
    | some (timeOnly, candidate) =>
        match offsetDesignator candidate with
        | none => .ok (s, 0)
        | some (sign, hhStr, mmStr) => do
            let hh ← parseInt parseI64 hhStr "tz-hour"
            let mm ← parseInt parseI64 mmStr "tz-minute"
            if hh > 14 ∨ mm > 59 then
              invalid ("bad timezone offset '" ++ candidate ++ "'")
            else
              let overflow : Error :=
                .xmlParse "invalid xs:dateTime: timezone offset out of range"
              let hhSecs ← okOr (i64 (hh * 3600)) overflow
              let mmSecs ← okOr (i64 (mm * 60)) overflow
              let offset ← okOr (i64 (hhSecs + mmSecs)) overflow
              let signed ← if sign = '-' then okOr (i64 (-offset)) overflow else .ok offset
              .ok (timeOnly, signed)

/-- `is_leap_year`. -/
def isLeapYear (y : Int) : Bool :=
  (y.tmod 4 == 0 && y.tmod 100 != 0) || y.tmod 400 == 0

/-- `days_in_month`. -/
def daysInMonth (year month : Int) : Int :=
  if month = 1 ∨ month = 3 ∨ month = 5 ∨ month = 7 ∨ month = 8 ∨ month = 10 ∨ month = 12 then 31
  else if month = 4 ∨ month = 6 ∨ month = 9 ∨ month = 11 then 30
  else if month = 2 then if isLeapYear year then 29 else 28
  else 0

/-- `days_from_civil`: days since 1970-01-01 in the proleptic Gregorian
calendar, for a date that exists. -/
def daysFromCivil (y m d : Int) : Option Int :=
  if ¬ (1 ≤ m ∧ m ≤ 12) then none
  else if d < 1 ∨ d > daysInMonth y m then none
  else do
    let y ← if m ≤ 2 then i64 (y - 1) else some y
    let eraBase ← if y ≥ 0 then some y else i64 (y - 399)
    let era ← i64 (eraBase.tdiv 400)
    let yoe ← i64 (y - (← i64 (era * 400)))
    let mShifted ← if m > 2 then i64 (m - 3) else i64 (m + 9)
    let scaled ← i64 ((← i64 (153 * mShifted)) + 2)
    let doy ← i64 ((← i64 ((← i64 (scaled.tdiv 5)) + d)) - 1)
    let years ← i64 ((← i64 (yoe * 365)) + (← i64 (yoe.tdiv 4)))
    let doe ← i64 ((← i64 (years - (← i64 (yoe.tdiv 100)))) + doy)
    i64 ((← i64 ((← i64 (era * 146097)) + doe)) - 719468)

/-- `civil_from_days`, the inverse. -/
def civilFromDays (z : Int) : Option (Int × Int × Int) := do
  let z ← i64 (z + 719468)
  let eraBase ← if z ≥ 0 then some z else i64 (z - 146096)
  let era ← i64 (eraBase.tdiv 146097)
  let doe ← i64 (z - (← i64 (era * 146097)))
  let withoutLeap ← i64 (doe - (← i64 (doe.tdiv 1460)))
  let withCentury ← i64 (withoutLeap + (← i64 (doe.tdiv 36524)))
  let yearDays ← i64 (withCentury - (← i64 (doe.tdiv 146096)))
  let yoe ← i64 (yearDays.tdiv 365)
  let yBase ← i64 (yoe + (← i64 (era * 400)))
  let leap ← i64 ((← i64 (365 * yoe)) + (← i64 (yoe.tdiv 4)))
  let leapCorrection ← i64 (leap - (← i64 (yoe.tdiv 100)))
  let doy ← i64 (doe - leapCorrection)
  let mp ← i64 ((← i64 ((← i64 (5 * doy)) + 2)).tdiv 153)
  let mpTerm ← i64 ((← i64 ((← i64 (153 * mp)) + 2)).tdiv 5)
  let d ← i64 ((← i64 (doy - mpTerm)) + 1)
  let m ← if mp < 10 then i64 (mp + 3) else i64 (mp - 9)
  if d < 0 ∨ 2 ^ 32 ≤ d ∨ m < 0 ∨ 2 ^ 32 ≤ m then none
  else
    let y ← if m ≤ 2 then i64 (yBase + 1) else some yBase
    if y < -(2 ^ 31) ∨ 2 ^ 31 ≤ y then none else some (y, m, d)

/-- The seconds of the day and the calendar day, from their parts. -/
def utcSeconds (days hour minute second offset : Int) : Option Int := do
  let hourSecs ← i64 (hour * 3600)
  let minuteSecs ← i64 (minute * 60)
  let secondsInDay ← i64 ((← i64 (hourSecs + minuteSecs)) + second)
  i64 ((← i64 ((← i64 (days * 86400)) + secondsInDay)) - offset)

/-- The whole seconds and the nanoseconds of a seconds field. -/
def parseSecond (secondS : Str) : Result (Int × Int) :=
  match secondS.dropWhile (· ≠ '.') with
  | [] => do
      let second ← parseInt parseU32 secondS "second"
      .ok (second, 0)
  | _ :: frac => do
      let nanos ← parseFractionToNanos frac
      let second ← parseInt parseU32 (secondS.takeWhile (· ≠ '.')) "second"
      .ok (second, nanos)

/-- The date part: year, month and day in their ranges. -/
def parseDate (datePart : Str) : Result (Int × Int × Int) :=
  match datePart.splitOn '-' with
  | [yearS, monthS, dayS] => do
      let year ← parseInt parseI32 yearS "year"
      let month ← parseInt parseU32 monthS "month"
      let day ← parseInt parseU32 dayS "day"
      if ¬ (1 ≤ year ∧ year ≤ 9999) then invalid ("year out of range: " ++ showInt year)
      else if ¬ (1 ≤ month ∧ month ≤ 12) then invalid ("month out of range: " ++ showInt month)
      else if ¬ (1 ≤ day ∧ day ≤ 31) then invalid ("day out of range: " ++ showInt day)
      else .ok (year, month, day)
  | _ => invalid ("bad date '" ++ datePart ++ "'")

/-- The time part: hour, minute, second (a leap second counts as 59) and
nanoseconds. -/
def parseTime (timeSegment : Str) : Result (Int × Int × Int × Int) :=
  match timeSegment.splitOn ':' with
  | [hourS, minuteS, secondS] => do
      let hour ← parseInt parseU32 hourS "hour"
      let minute ← parseInt parseU32 minuteS "minute"
      let (second, nanos) ← parseSecond secondS
      if hour > 23 then invalid ("hour out of range: " ++ showInt hour)
      else if minute > 59 then invalid ("minute out of range: " ++ showInt minute)
      else if second > 60 then invalid ("second out of range: " ++ showInt second)
      else .ok (hour, minute, min second 59, nanos)
  | _ => invalid ("bad time '" ++ timeSegment ++ "'")

/-- `parse_xs_datetime`. -/
def parseXsDatetime (s : Str) : Result SystemTime :=
  let trimmed := Text.trim s
  if trimmed = [] then invalid "empty string"
  else if trimmed.head? = some '-' then invalid "negative years not supported"
  else
    match trimmed.dropWhile (· ≠ 'T') with
    | [] => invalid "missing 'T' separator"
    | _ :: timePartWithTz => do
        let (year, month, day) ← parseDate (trimmed.takeWhile (· ≠ 'T'))
        let (timeSegment, offsetSecs) ← splitOffset timePartWithTz
        let (hour, minute, second, nanos) ← parseTime timeSegment
        let days ← okOr (daysFromCivil year month day)
          (.xmlParse ("invalid xs:dateTime: date does not exist: " ++
            padInt 4 year ++ "-" ++ padInt 2 month ++ "-" ++ padInt 2 day))
        let overflow : Error := .xmlParse "invalid xs:dateTime: time value out of range"
        let utc ← okOr (utcSeconds days hour minute second offsetSecs) overflow
        if utc < 0 then invalid "pre-1970 timestamps not representable"
        else okOr (SystemTime.ofNanos (utc * NANOS + nanos)) overflow

/-- `format_xs_datetime`: three fractional digits when the instant has a
sub-second part, none otherwise. -/
def formatXsDatetime (t : SystemTime) : Result Str :=
  if t.nanos < 0 then .error (.xmlEmit "xs:dateTime emit: pre-epoch time")
  else
    let totalSecs := t.nanos / NANOS
    let nanos := t.nanos % NANOS
    let sod := totalSecs % 86400
    match civilFromDays (totalSecs / 86400) with
    | none => .error (.xmlEmit "xs:dateTime emit: civil date out of representable range")
    | some (year, month, day) =>
        let date := padInt 4 year ++ "-" ++ padInt 2 month ++ "-" ++ padInt 2 day
        let time := padInt 2 (sod / 3600) ++ ":" ++ padInt 2 (sod % 3600 / 60) ++ ":" ++
          padInt 2 (sod % 60)
        if nanos = 0 then .ok (date ++ "T" ++ time ++ "Z")
        else .ok (date ++ "T" ++ time ++ "." ++ padInt 3 (nanos / 1000000) ++ "Z")

end Time

end Saml
