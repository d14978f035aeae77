import Saml.Time.Accepted

/-!
# Reading a written instant

What `parse_xs_datetime` reads from a text that `format_xs_datetime` wrote: the
instant without the part below a millisecond.
-/

namespace Saml.Time

open Number Library.Gregorian

/-! ## The days of four-digit years -/

/-- The last day of the year 9999. -/
def LAST_DAY : Int := 2932896

/-- Every day up to the last one is the day of a date. -/
theorem exists_civilFromDays {z : Int} (hz : 0 ≤ z) (hlast : z ≤ LAST_DAY) :
    ∃ date : Date,
      civilFromDays z = some ((date.year : Int), (date.month : Int), (date.day : Int)) ∧
      (date.number : Int) = z + EPOCH ∧ 1970 ≤ date.year ∧ date.year ≤ 9999 := by
  rw [LAST_DAY] at hlast
  obtain ⟨⟨y, m, d⟩, hcivil⟩ := Option.isSome_iff_exists.mp (civilFromDays_isSome hz hlast)
  obtain ⟨date, rfl, rfl, rfl, hnumber⟩ := civilFromDays_date hz hcivil
  refine ⟨date, hcivil, hnumber, ?_, ?_⟩
  · by_contra hlt
    have hyear := date.number_le_year
    have hyears := daysBeforeYear_mono (by omega : date.year + 1 ≤ 1970)
    have hepoch := daysBeforeYear_eq (by decide : 1 ≤ 1970)
    simp only [EPOCH] at hnumber
    omega
  · by_contra hlt
    have hyear := date.lt_number
    have hyears := daysBeforeYear_mono (by omega : 10000 ≤ date.year)
    have hend := daysBeforeYear_eq (by decide : 1 ≤ 10000)
    simp only [EPOCH] at hnumber
    omega

/-- The day of a date from the epoch on. -/
theorem day_bounds (date : Date) (hlow : 1970 ≤ date.year) (hhigh : date.year ≤ 9999) :
    0 ≤ (date.number : Int) - EPOCH ∧ (date.number : Int) - EPOCH ≤ LAST_DAY := by
  have hyear := date.lt_number
  have hyearLast := date.number_le_year
  have hyears := daysBeforeYear_mono hlow
  have hyearsLast := daysBeforeYear_mono (by omega : date.year + 1 ≤ 10000)
  have hepoch := daysBeforeYear_eq (by decide : 1 ≤ 1970)
  have hend := daysBeforeYear_eq (by decide : 1 ≤ 10000)
  simp only [EPOCH, LAST_DAY]
  omega

/-- `civil_from_days` takes the day of a date back to the date. -/
theorem civilFromDays_number (date : Date) (hlow : 1970 ≤ date.year) (hhigh : date.year ≤ 9999) :
    civilFromDays ((date.number : Int) - EPOCH) =
      some ((date.year : Int), (date.month : Int), (date.day : Int)) := by
  obtain ⟨hz, hlast⟩ := day_bounds date hlow hhigh
  obtain ⟨date', hcivil, hnumber, -⟩ := exists_civilFromDays hz hlast
  have heq : date' = date := Date.number_injective (by omega)
  rw [hcivil, heq]

/-- The next day is the next date. -/
theorem civilFromDays_succ {z : Int} {date : Date} (hz : 0 ≤ z) (hlast : z < LAST_DAY)
    (h : civilFromDays z = some ((date.year : Int), (date.month : Int), (date.day : Int))) :
    civilFromDays (z + 1) = some ((date.tomorrow.year : Int), (date.tomorrow.month : Int),
      (date.tomorrow.day : Int)) := by
  obtain ⟨date', hy, hm, hd, hnumber⟩ := civilFromDays_date hz h
  have heq : date = date' := by
    ext
    · omega
    · omega
    · omega
  subst heq
  obtain ⟨next, hcivil, hnext, -⟩ := exists_civilFromDays (by omega : 0 ≤ z + 1) (by omega)
  have htomorrow : next = date.tomorrow := by
    apply Date.number_injective
    rw [date.number_tomorrow]
    omega
  rw [hcivil, htomorrow]

/-! ## The written form -/

/-- The milliseconds of a text, when the instant is not a whole second. -/
inductive Millis : Option Str → Nat → Prop
  | whole : Millis none 0
  | millis {ms : Nat} : ms < 1000 → Millis (some (padInt 3 ms)) ms

/-- The fields that the writer fills in. -/
def writtenFields (date : Date) (hour minute second : Nat) (fraction : Option Str) : Fields :=
  ⟨padInt 4 date.year, padInt 2 date.month, padInt 2 date.day, padInt 2 hour, padInt 2 minute,
    padInt 2 second, fraction, .utc⟩

theorem fixed_padInt {width n : Nat} (h : n < 10 ^ width) (hwidth : 0 < width) :
    Fixed width (padInt width n) n :=
  ⟨length_padInt h hwidth, padInt_digits width n, by rw [ofDigitChars_padInt]⟩

/-- Written fields stand for the moment that was written. -/
theorem writtenFields_denotes {date : Date} {hour minute second ms : Nat} {fraction : Option Str}
    (hyear : date.year ≤ 9999) (hhour : hour ≤ 23) (hminute : minute ≤ 59) (hsecond : second ≤ 59)
    (hms : Millis fraction ms) :
    ∃ m : Moment, (writtenFields date hour minute second fraction).Denotes Fixed m ∧
      m.read.seconds =
        ((date.number : Int) - EPOCH) * 86400 + (hour * 3600 + minute * 60 + second) ∧
      m.fraction = (ms : ℚ) / 1000 := by
  have hmonth := date.month_mem
  have hday := date.day_mem.2.trans (monthLength_le date.year date.month)
  obtain ⟨q, hq, hvalue⟩ : ∃ q, FractionForm fraction q ∧ q = (ms : ℚ) / 1000 := by
    cases hms with
    | whole => exact ⟨0, .absent, by norm_num⟩
    | millis hlt =>
      refine ⟨_, .digits (padInt_ne_nil 3 ms) (padInt_digits 3 ms), ?_⟩
      rw [ofDigitChars_padInt, length_padInt (by omega) (by decide)]
      norm_num
  refine ⟨⟨date, hour, minute, second, q, 0, hyear, hhour, hminute, by omega, hq.mem, by decide⟩,
    ⟨fixed_padInt (by omega) (by decide), fixed_padInt (by omega) (by decide),
      fixed_padInt (by omega) (by decide), fixed_padInt (by omega) (by decide),
      fixed_padInt (by omega) (by decide), fixed_padInt (by omega) (by decide), hq, .utc⟩,
    ?_, hvalue⟩
  simp only [Moment.seconds, Moment.read]
  omega

/-- A text with a visible character at both ends is not trimmed. -/
theorem trim_eq_self {s : Str} {c e : Char} (hc : Text.isWhitespace c = false)
    (he : Text.isWhitespace e = false) : Text.trim (c :: (s ++ [e])) = c :: (s ++ [e]) := by
  have hreverse : (c :: (s ++ [e])).reverse = e :: (s.reverse ++ [c]) := by simp
  rw [Text.trim, List.dropWhile_cons_of_neg (by simp [hc]), hreverse,
    List.dropWhile_cons_of_neg (by simp [he]), ← hreverse, List.reverse_reverse]

theorem isWhitespace_of_isDigit {c : Char} (h : c.isDigit = true) :
    Text.isWhitespace c = false := by
  have hrange : 48 ≤ c.toNat ∧ c.toNat ≤ 57 := by
    simpa [Char.isDigit, UInt32.le_iff_toNat_le] using h
  simp only [Text.isWhitespace, Bool.or_eq_false_iff, Bool.and_eq_false_iff,
    decide_eq_false_iff_not, beq_eq_false_iff_ne]
  omega

/-- A written text begins with a digit and ends with its zone. -/
theorem trim_writtenFields (date : Date) (hour minute second : Nat) (fraction : Option Str) :
    Text.trim (writtenFields date hour minute second fraction).text =
      (writtenFields date hour minute second fraction).text := by
  obtain ⟨c, year, hyear⟩ := List.exists_cons_of_ne_nil (padInt_ne_nil 4 date.year)
  have hc : c.isDigit = true := padInt_digits 4 date.year c (hyear ▸ List.mem_cons_self ..)
  have hends : ∃ s, (writtenFields date hour minute second fraction).text = c :: (s ++ ['Z']) := by
    refine ⟨year ++ '-' :: (padInt 2 date.month ++ '-' :: padInt 2 date.day) ++
      'T' :: (writtenFields date hour minute second fraction).time, ?_⟩
    simp [Fields.text, Fields.date, writtenFields, hyear, Zone.text]
  obtain ⟨s, hs⟩ := hends
  rw [hs]
  exact trim_eq_self (isWhitespace_of_isDigit hc) (by decide)

/-- What the writer gives for a day that has a date. -/
theorem formatXsDatetime_eq {t : SystemTime} {date : Date} (hepoch : 0 ≤ t.nanos)
    (hcivil : civilFromDays (t.nanos / NANOS / 86400) =
      some ((date.year : Int), (date.month : Int), (date.day : Int))) :
    ∃ (hour minute second ms : Nat) (fraction : Option Str), hour ≤ 23 ∧ minute ≤ 59 ∧
      second ≤ 59 ∧ Millis fraction ms ∧
      (hour * 3600 + minute * 60 + second : Int) = t.nanos / NANOS % 86400 ∧
      (ms : Int) = t.nanos % NANOS / 1000000 ∧
      formatXsDatetime t = .ok (writtenFields date hour minute second fraction).text := by
  have hnanos : (NANOS : Int) = 1000000000 := rfl
  obtain ⟨hour, hhour⟩ : ∃ hour : Nat, t.nanos / NANOS % 86400 / 3600 = hour :=
    Int.eq_ofNat_of_zero_le (by omega)
  obtain ⟨minute, hminute⟩ : ∃ minute : Nat, t.nanos / NANOS % 86400 % 3600 / 60 = minute :=
    Int.eq_ofNat_of_zero_le (by omega)
  obtain ⟨second, hsecond⟩ : ∃ second : Nat, t.nanos / NANOS % 86400 % 60 = second :=
    Int.eq_ofNat_of_zero_le (by omega)
  obtain ⟨ms, hms⟩ : ∃ ms : Nat, t.nanos % NANOS / 1000000 = ms :=
    Int.eq_ofNat_of_zero_le (by rw [hnanos]; omega)
  have hformat : formatXsDatetime t = .ok (writtenFields date hour minute second
      (if t.nanos % NANOS = 0 then none else some (padInt 3 ms))).text := by
    unfold formatXsDatetime
    rw [if_neg (by omega)]
    dsimp only
    rw [hcivil]
    dsimp only
    rw [hhour, hminute, hsecond, hms]
    split <;> simp [writtenFields, Fields.text, Fields.date, Fields.time, fractionText, Zone.text]
  refine ⟨hour, minute, second, ms, _, by omega, by omega, by omega,
    ?_, by omega, hms.symm, hformat⟩
  split
  next hwhole =>
    have hzero : ms = 0 := by
      rw [hwhole] at hms
      simpa using hms.symm
    rw [hzero]
    exact .whole
  next => exact .millis (by rw [hnanos] at hms; omega)

/-- The year of a written text that is accepted has four digits. -/
theorem year_le_of_parseXsDatetime {date : Date} {hour minute second : Nat}
    {fraction : Option Str} {u : SystemTime}
    (h : parseXsDatetime (writtenFields date hour minute second fraction).text = .ok u) :
    date.year ≤ 9999 := by
  have hdash : ∀ width n : Nat, '-' ∉ padInt width n ∧ 'T' ∉ padInt width n := by
    intro width n
    exact ⟨notMem_of_digits (padInt_digits width n) rfl,
      notMem_of_digits (padInt_digits width n) rfl⟩
  have hT : 'T' ∉ (writtenFields date hour minute second fraction).date := by
    simp [Fields.date, writtenFields, (hdash _ _).2]
  have hhead : ¬ (writtenFields date hour minute second fraction).text.head? = some '-' := by
    obtain ⟨c, year, hyear⟩ := List.exists_cons_of_ne_nil (padInt_ne_nil 4 date.year)
    intro hhead
    simp only [Fields.text, Fields.date, writtenFields, hyear, List.cons_append, List.head?_cons,
      Option.some.injEq] at hhead
    have hc := padInt_digits 4 date.year c (hyear ▸ List.mem_cons_self ..)
    rw [hhead] at hc
    cases hc
  obtain ⟨y, mo, d, -, -, -, -, -, -, -, -, hdate, -⟩ :=
    (parseXsDatetime_cut (trim_writtenFields date hour minute second fraction) hT hhead).mp h
  obtain ⟨⟨hy, -, -⟩, ⟨-, hle⟩, -⟩ :=
    (parseDate_eq_ok_iff (hdash _ _).1 (hdash _ _).1 (hdash _ _).1).mp hdate
  obtain ⟨hnumeral, -, -⟩ := (parsePrimitive_eq_ok_iff (by decide) (by decide)).mp hy
  have hwidth : 0 < (padInt 4 (date.year : Int)).length :=
    List.length_pos_iff.mpr (padInt_ne_nil 4 date.year)
  obtain ⟨-, -, hvalue⟩ :=
    (numeral_iff_fixed hwidth ⟨rfl, padInt_digits 4 date.year⟩).mp hnumeral.signed
  rw [ofDigitChars_padInt] at hvalue
  omega

/-- The instant of a written text. -/
theorem nanos_writtenFields {date : Date} {hour minute second ms : Nat} {m : Moment}
    (hsecond : m.read.seconds =
      ((date.number : Int) - EPOCH) * 86400 + (hour * 3600 + minute * 60 + second))
    (hfraction : m.fraction = (ms : ℚ) / 1000) :
    ⌊m.read.instant * NANOS⌋ = (((date.number : Int) - EPOCH) * 86400 +
      (hour * 3600 + minute * 60 + second)) * NANOS + ms * 1000000 := by
  have hms : m.read.fraction * NANOS = ((ms * 1000000 : Int) : ℚ) := by
    change m.fraction * _ = _
    rw [hfraction, NANOS]
    push_cast
    ring
  rw [Moment.floor_instant, hsecond, hms, Int.floor_intCast]

/-- What is read from a formatted instant is that instant, without the part
below a millisecond. -/
theorem parseXsDatetime_formatXsDatetime {t u : SystemTime} {v : Str}
    (hformat : formatXsDatetime t = .ok v) (hparse : parseXsDatetime v = .ok u) :
    u.nanos = t.nanos - t.nanos % 1000000 := by
  have hnanos : (NANOS : Int) = 1000000000 := rfl
  obtain ⟨hepoch, h⟩ := ite_error_eq_ok_iff.mp hformat
  have hz : 0 ≤ t.nanos / NANOS / 86400 :=
    Int.ediv_nonneg (Int.ediv_nonneg (by omega) (by decide)) (by decide)
  dsimp only at h
  split at h
  · cases h
  next year month day hcivil =>
    obtain ⟨date, rfl, rfl, rfl, hnumber⟩ := civilFromDays_date hz hcivil
    obtain ⟨hour, minute, second, ms, fraction, hhour, hminute, hsecond, hmillis, hsod, hms,
      heq⟩ := formatXsDatetime_eq (by omega) hcivil
    obtain rfl := Except.ok.inj (hformat.symm.trans heq)
    obtain ⟨m, hm, hseconds, hfraction⟩ := writtenFields_denotes (year_le_of_parseXsDatetime hparse)
      hhour hminute hsecond hmillis
    rw [nanos_of_parseXsDatetime ⟨_, trim_writtenFields .., hm⟩ hparse,
      nanos_writtenFields hseconds hfraction]
    rw [hnanos] at *
    omega

/-- An instant of a four-digit year is written, and the text is read. -/
theorem exists_formatXsDatetime {t : SystemTime} (hepoch : 0 ≤ t.nanos)
    (hlast : t.nanos < (LAST_DAY + 1) * 86400 * NANOS) :
    ∃ v u, formatXsDatetime t = .ok v ∧ parseXsDatetime v = .ok u := by
  have hnanos : (NANOS : Int) = 1000000000 := rfl
  rw [hnanos, LAST_DAY] at hlast
  have hz : 0 ≤ t.nanos / NANOS / 86400 := by
    rw [hnanos]
    omega
  obtain ⟨date, hcivil, hnumber, -, hyear⟩ := exists_civilFromDays hz
    (by rw [hnanos, LAST_DAY]; omega)
  obtain ⟨hour, minute, second, ms, fraction, hhour, hminute, hsecond, hmillis, -, -, heq⟩ :=
    formatXsDatetime_eq hepoch hcivil
  obtain ⟨m, hm, hseconds, -⟩ := writtenFields_denotes hyear hhour hminute hsecond hmillis
  have hread : 0 ≤ m.read.instant := by
    rw [Moment.instant_nonneg_iff, hseconds]
    omega
  obtain ⟨u, hu⟩ := (parseXsDatetime_isOk_iff (trim_writtenFields date hour minute second fraction)
    (.of_denotes hm)).mpr ⟨m, hm, hread⟩
  exact ⟨_, u, heq, hu⟩

/-- The calendar and the written form of the years from 1970 to 9999: the day
count and the civil date are inverse to each other and no step of them
overflows, day zero is the first day of 1970 and the next day is the next date,
and a written instant is read as itself without the part below a millisecond. -/
theorem formatXsDatetime_round_trip :
    (∀ z, 0 ≤ z → z ≤ LAST_DAY → ∃ date : Date, 1970 ≤ date.year ∧ date.year ≤ 9999 ∧
      civilFromDays z = some ((date.year : Int), (date.month : Int), (date.day : Int)) ∧
      daysFromCivil date.year date.month date.day = some z) ∧
    (∀ date : Date, 1970 ≤ date.year → date.year ≤ 9999 → ∃ z, 0 ≤ z ∧ z ≤ LAST_DAY ∧
      daysFromCivil date.year date.month date.day = some z ∧
      civilFromDays z = some ((date.year : Int), (date.month : Int), (date.day : Int))) ∧
    civilFromDays 0 = some (1970, 1, 1) ∧
    (∀ (z : Int) (date : Date), 0 ≤ z → z < LAST_DAY →
      civilFromDays z = some ((date.year : Int), (date.month : Int), (date.day : Int)) →
      civilFromDays (z + 1) = some ((date.tomorrow.year : Int), (date.tomorrow.month : Int),
        (date.tomorrow.day : Int))) ∧
    (∀ t : SystemTime, 0 ≤ t.nanos → t.nanos < (LAST_DAY + 1) * 86400 * NANOS →
      ∃ v u, formatXsDatetime t = .ok v ∧ parseXsDatetime v = .ok u ∧
        u.nanos = t.nanos - t.nanos % 1000000) := by
  refine ⟨?_, ?_, by decide, ?_, ?_⟩
  · intro z hz hlast
    obtain ⟨date, hcivil, hnumber, hlow, hhigh⟩ := exists_civilFromDays hz hlast
    refine ⟨date, hlow, hhigh, hcivil, ?_⟩
    rw [daysFromCivil_date date hhigh, hnumber, Int.add_sub_cancel]
  · intro date hlow hhigh
    obtain ⟨hz, hlast⟩ := day_bounds date hlow hhigh
    exact ⟨_, hz, hlast, daysFromCivil_date date hhigh, civilFromDays_number date hlow hhigh⟩
  · intro z date hz hlast h
    exact civilFromDays_succ hz hlast h
  · intro t hepoch hlast
    obtain ⟨v, u, hformat, hparse⟩ := exists_formatXsDatetime hepoch hlast
    exact ⟨v, u, hformat, hparse, parseXsDatetime_formatXsDatetime hformat hparse⟩

end Saml.Time
