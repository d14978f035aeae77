import Saml.Time.Lexical
import Mathlib.Tactic.Ring

/-!
# The texts that are accepted

`parse_xs_datetime` against the lexical form: which texts it takes, the instant
that it reads from each, and how far later texts give later instants.
-/

namespace Saml.Time

open Number Library.Gregorian

/-! ## The instant -/

theorem utcSeconds_eq_some_iff {days hour minute second offset utc : Int}
    (hdays : -1000000 ≤ days ∧ days ≤ 10000000) (hhour : 0 ≤ hour ∧ hour ≤ 23)
    (hminute : 0 ≤ minute ∧ minute ≤ 59) (hsecond : 0 ≤ second ∧ second ≤ 59)
    (hoffset : -53940 ≤ offset ∧ offset ≤ 53940) :
    utcSeconds days hour minute second offset = some utc ↔
      utc = days * 86400 + (hour * 3600 + minute * 60 + second) - offset := by
  have hvalue : utcSeconds days hour minute second offset =
      some (days * 86400 + (hour * 3600 + minute * 60 + second) - offset) := by
    refine (bind_i64_of_mem (by omega)).trans ?_
    refine (bind_i64_of_mem (by omega)).trans ?_
    refine (bind_i64_of_mem (by omega)).trans ?_
    refine (bind_i64_of_mem (by omega)).trans ?_
    refine (bind_i64_of_mem (by omega)).trans ?_
    refine (bind_i64_of_mem (by omega)).trans ?_
    exact i64_eq_some (by omega)
  rw [hvalue, Option.some.injEq, eq_comm]

theorem FractionForm.mem {fraction : Option Str} {q : ℚ} (h : FractionForm fraction q) :
    0 ≤ q ∧ q < 1 := by
  cases h with
  | absent => exact ⟨le_rfl, by norm_num⟩
  | @digits s hne hs =>
    have hpos : (0 : ℚ) < 10 ^ s.length := by positivity
    constructor
    · positivity
    · rw [div_lt_one hpos]
      exact_mod_cast ofDigitChars_lt hs

/-- The fractions that are read are those of the form, in whole nanoseconds. -/
theorem fraction_eq_ok_iff {fraction : Option Str} {n : Int} :
    (fraction.elim (.ok 0) parseFractionToNanos : Result Int) = .ok n ↔
      ∃ q, FractionForm fraction q ∧ n = ⌊q * NANOS⌋ := by
  cases fraction with
  | none =>
    rw [Option.elim_none, Except.ok.injEq]
    constructor
    · rintro rfl
      exact ⟨0, .absent, by simp⟩
    · rintro ⟨q, ⟨⟩, rfl⟩
      simp
  | some digits =>
    have hfloor : ⌊(Nat.ofDigitChars 10 digits 0 : ℚ) / 10 ^ digits.length * NANOS⌋ =
        ((Nat.ofDigitChars 10 digits 0 * NANOS / 10 ^ digits.length : Nat) : Int) := by
      rw [div_mul_eq_mul_div]
      exact_mod_cast Rat.floor_natCast_div_natCast
        (Nat.ofDigitChars 10 digits 0 * NANOS) (10 ^ digits.length)
    rw [Option.elim_some, parseFractionToNanos_eq_ok_iff]
    constructor
    · rintro ⟨hne, hs, rfl⟩
      exact ⟨_, .digits hne hs, hfloor.symm⟩
    · rintro ⟨q, hq, rfl⟩
      cases hq with
      | digits hne hs => exact ⟨hne, hs, hfloor⟩

namespace Moment

theorem instant_nonneg_iff (m : Moment) : 0 ≤ m.instant ↔ 0 ≤ m.seconds := by
  have hfraction := m.fraction_mem
  unfold instant
  constructor
  · intro h
    by_contra hneg
    have hle : (m.seconds : ℚ) ≤ -1 := by exact_mod_cast (by omega : m.seconds ≤ -1)
    linarith
  · intro h
    have hle : (0 : ℚ) ≤ m.seconds := by exact_mod_cast h
    linarith

/-- Nanoseconds are counted from the whole second. -/
theorem floor_instant (m : Moment) :
    ⌊m.instant * NANOS⌋ = m.seconds * NANOS + ⌊m.fraction * NANOS⌋ := by
  have hsplit : m.instant * NANOS = ((m.seconds * NANOS : Int) : ℚ) + m.fraction * NANOS := by
    rw [instant, add_mul]
    push_cast
    rfl
  rw [hsplit, Int.floor_intCast_add]

end Moment

theorem number_bounds (date : Date) (h : date.year ≤ 9999) :
    1 ≤ date.number ∧ date.number ≤ 4000000 := by
  have hyear := date.number_le_year
  have hlow := date.lt_number
  have hlast := daysBeforeYear_mono (by omega : date.year + 1 ≤ 10000)
  have hcount := daysBeforeYear_eq (by decide : 1 ≤ 10000)
  omega

/-- The reader on a text that is cut at its first `T`. -/
theorem parseXsDatetime_cut {s date rest : Str} {t : SystemTime}
    (htrim : Text.trim s = date ++ 'T' :: rest) (hT : 'T' ∉ date)
    (hhead : ¬ (date ++ 'T' :: rest).head? = some '-') :
    parseXsDatetime s = .ok t ↔ ∃ y mo d seg offset h mi sec n days utc,
      parseDate date = .ok (y, mo, d) ∧ splitOffset rest = .ok (seg, offset) ∧
        parseTime seg = .ok (h, mi, sec, n) ∧ daysFromCivil y mo d = some days ∧
        utcSeconds days h mi sec offset = some utc ∧ 0 ≤ utc ∧ t.nanos = utc * NANOS + n := by
  have hne : date ++ 'T' :: rest ≠ [] := by simp
  unfold parseXsDatetime
  dsimp only
  rw [htrim, if_neg hne, if_neg hhead, dropWhile_ne_append hT, takeWhile_ne_append hT]
  dsimp only
  constructor
  · intro hok
    obtain ⟨⟨y, mo, d⟩, hdate, hok⟩ := bind_eq_ok_iff.mp hok
    obtain ⟨⟨seg, offset⟩, hzone, hok⟩ := bind_eq_ok_iff.mp hok
    obtain ⟨⟨h, mi, sec, n⟩, htime, hok⟩ := bind_eq_ok_iff.mp hok
    obtain ⟨days, hdays, hok⟩ := bind_eq_ok_iff.mp hok
    obtain ⟨utc, hutc, hok⟩ := bind_eq_ok_iff.mp hok
    obtain ⟨hepoch, hok⟩ := ite_error_eq_ok_iff.mp hok
    exact ⟨y, mo, d, seg, offset, h, mi, sec, n, days, utc, hdate, hzone, htime,
      okOr_eq_ok_iff.mp hdays, okOr_eq_ok_iff.mp hutc, by omega,
      (SystemTime.ofNanos_eq_some_iff.mp (okOr_eq_ok_iff.mp hok)).symm⟩
  · rintro ⟨y, mo, d, seg, offset, h, mi, sec, n, days, utc, hdate, hzone, htime, hdays, hutc,
      hepoch, hnanos⟩
    refine bind_eq_ok_iff.mpr ⟨_, hdate, bind_eq_ok_iff.mpr ⟨_, hzone, ?_⟩⟩
    refine bind_eq_ok_iff.mpr ⟨_, htime, bind_eq_ok_iff.mpr ⟨_, okOr_eq_ok_iff.mpr hdays, ?_⟩⟩
    refine bind_eq_ok_iff.mpr ⟨_, okOr_eq_ok_iff.mpr hutc, ?_⟩
    rw [if_neg (by omega)]
    exact okOr_eq_ok_iff.mpr (SystemTime.ofNanos_eq_some_iff.mpr hnanos.symm)

/-- The moment of fields whose numbers are in range. -/
theorem exists_denoted {form : Nat → Str → Int → Prop} {f : Fields}
    {y mo d h mi written offset days utc : Int} {q : ℚ} (hyear : form 4 f.year y)
    (hmonth : form 2 f.month mo) (hday : form 2 f.day d) (hhour : form 2 f.hour h)
    (hminute : form 2 f.minute mi) (hsecond : form 2 f.second written)
    (hfraction : FractionForm f.fraction q) (hzone : f.zone.Denotes form offset)
    (hyearMem : 1 ≤ y ∧ y ≤ 9999) (hmonthMem : 1 ≤ mo) (hdayMem : 1 ≤ d) (hhourMem : 0 ≤ h ∧ h ≤ 23)
    (hminuteMem : 0 ≤ mi ∧ mi ≤ 59) (hsecondMem : 0 ≤ written ∧ written ≤ 60)
    (hoffset : -53940 ≤ offset ∧ offset ≤ 53940) (hdays : daysFromCivil y mo d = some days)
    (hutc : utcSeconds days h mi (min written 59) offset = some utc) :
    ∃ m : Moment, f.Denotes form m ∧ utc = m.read.seconds ∧ m.fraction = q := by
  obtain ⟨year, rfl⟩ := Int.eq_ofNat_of_zero_le (by omega : 0 ≤ y)
  obtain ⟨month, rfl⟩ := Int.eq_ofNat_of_zero_le (by omega : 0 ≤ mo)
  obtain ⟨day, rfl⟩ := Int.eq_ofNat_of_zero_le (by omega : 0 ≤ d)
  obtain ⟨hour, rfl⟩ := Int.eq_ofNat_of_zero_le hhourMem.1
  obtain ⟨minute, rfl⟩ := Int.eq_ofNat_of_zero_le hminuteMem.1
  obtain ⟨second, rfl⟩ := Int.eq_ofNat_of_zero_le hsecondMem.1
  obtain ⟨date, rfl, rfl, rfl, rfl⟩ := (daysFromCivil_eq_some_iff (by omega)).mp hdays
  have hbounds := number_bounds date (by omega)
  have hutc' := (utcSeconds_eq_some_iff (by simp only [EPOCH]; omega) hhourMem hminuteMem
    (by omega) hoffset).mp hutc
  refine ⟨⟨date, hour, minute, second, q, offset, by omega, by omega, by omega, by omega,
    hfraction.mem, hoffset⟩, ?_, ?_, rfl⟩
  · exact ⟨hyear, hmonth, hday, hhour, hminute, hsecond, hfraction, hzone⟩
  · rw [hutc']
    simp only [Moment.seconds, Moment.read]
    omega

/-- Whatever is accepted has the fields of the form: numerals in range, written
with any number of digits and behind a sign or not. -/
theorem loose_of_parseXsDatetime {s : Str} {t : SystemTime} (h : parseXsDatetime s = .ok t) :
    ∃ (f : Fields) (m : Moment), Text.trim s = f.text ∧ f.Denotes Loose m := by
  have hcopy := h
  unfold parseXsDatetime at h
  dsimp only at h
  obtain ⟨-, h⟩ := ite_error_eq_ok_iff.mp h
  obtain ⟨hhead, h⟩ := ite_error_eq_ok_iff.mp h
  split at h
  · cases h
  next c rest hdrop =>
    obtain ⟨rfl, htrim⟩ := eq_append_of_dropWhile hdrop
    rw [htrim] at hhead
    obtain ⟨y, mo, d, seg, offset, hour, minute, sec, n, days, utc, hdate, hzone, htime, hdays,
      hutc, -, -⟩ := (parseXsDatetime_cut htrim (notMem_takeWhile_ne _ _) hhead).mp hcopy
    obtain ⟨yearS, monthS, dayS, hdateS, hnyear, hnmonth, hnday⟩ := exists_dateText hdate
    rw [hdateS] at hdate htrim
    obtain ⟨⟨hy, hmo, hd⟩, hyMem, hmoMem, hdMem⟩ :=
      (parseDate_eq_ok_iff hnyear hnmonth hnday).mp hdate
    obtain ⟨zone, rfl, hdenotes, hoffset⟩ := zone_of_splitOffset hzone
    obtain ⟨hourS, minuteS, secondS, fraction, rfl, hnhour, hnminute, hnsecond, hnpoint⟩ :=
      exists_timeText htime
    obtain ⟨written, hh, hm, hw, hfraction, h23, h59, h60, rfl⟩ :=
      (parseTime_eq_ok_iff hnhour hnminute hnsecond hnpoint).mp htime
    obtain ⟨q, hq, rfl⟩ := fraction_eq_ok_iff.mp hfraction
    have hu32 : ∀ {s : Str} {n : Int}, parseU32 s = .ok n → 0 ≤ n ∧ Numeral true s n := by
      intro s n hread
      obtain ⟨hnumeral, hge, -⟩ := (parsePrimitive_eq_ok_iff (by decide) (by decide)).mp hread
      exact ⟨hge, hnumeral.signed⟩
    obtain ⟨m, hdenotes, -, -⟩ := @exists_denoted Loose
      ⟨yearS, monthS, dayS, hourS, minuteS, secondS, fraction, zone⟩ y mo d hour minute written
      offset days utc q (loose_of_parsePrimitive (by decide) (by decide) 4 hy) (hu32 hmo).2
      (hu32 hd).2 (hu32 hh).2 (hu32 hm).2 (hu32 hw).2 hq hdenotes hyMem hmoMem.1 hdMem.1
      ⟨(hu32 hh).1, h23⟩ ⟨(hu32 hm).1, h59⟩ ⟨(hu32 hw).1, h60⟩ hoffset hdays hutc
    exact ⟨⟨yearS, monthS, dayS, hourS, minuteS, secondS, fraction, zone⟩, m, htrim, hdenotes⟩

theorem notMem_of_digits {s : Str} {c : Char} (hs : Digits s) (hc : c.isDigit = false) : c ∉ s := by
  intro hmem
  rw [hs c hmem] at hc
  cases hc

namespace Fields

variable {f : Fields}

/-- A time of fixed width has digits, colons and a point. -/
theorem FixedWidth.mem_time (h : f.FixedWidth) {c : Char} (hc : c ∈ f.time) :
    c.isDigit = true ∨ c = ':' ∨ c = '.' := by
  have hfraction : ∀ c ∈ fractionText f.fraction, c.isDigit = true ∨ c = ':' ∨ c = '.' := by
    intro c hc
    have hdigits := h.fraction
    cases hform : f.fraction with
    | none =>
      rw [hform] at hc
      cases hc
    | some digits =>
      rw [hform] at hc
      rcases List.mem_cons.mp hc with rfl | hc
      · exact .inr (.inr rfl)
      · exact .inl (hdigits digits hform c hc)
  simp only [time, List.mem_append, List.mem_cons] at hc
  rcases hc with hc | rfl | hc | rfl | hc | hc
  · exact .inl (h.hour.2 c hc)
  · exact .inr (.inl rfl)
  · exact .inl (h.minute.2 c hc)
  · exact .inr (.inl rfl)
  · exact .inl (h.second.2 c hc)
  · exact hfraction c hc

theorem FixedWidth.time_clean (h : f.FixedWidth) :
    f.time.getLast? ≠ some 'Z' ∧ '+' ∉ f.time ∧ '-' ∉ f.time := by
  have hbad : ∀ {c : Char}, c ∈ f.time → c ≠ 'Z' ∧ c ≠ '+' ∧ c ≠ '-' := by
    intro c hc
    rcases h.mem_time hc with hdigit | rfl | rfl
    · refine ⟨?_, ?_, ?_⟩ <;>
      · rintro rfl
        cases hdigit
    · decide
    · decide
  exact ⟨fun hlast => (hbad (List.mem_of_getLast? hlast)).1 rfl,
    fun hmem => (hbad hmem).2.1 rfl, fun hmem => (hbad hmem).2.2 rfl⟩

theorem FixedWidth.seconds_clean (h : f.FixedWidth) :
    ':' ∉ f.second ++ fractionText f.fraction ∧ '.' ∉ f.second := by
  refine ⟨?_, notMem_of_digits h.second.2 rfl⟩
  intro hmem
  rcases List.mem_append.mp hmem with hmem | hmem
  · exact notMem_of_digits h.second.2 rfl hmem
  · have hdigits := h.fraction
    cases hform : f.fraction with
    | none =>
      rw [hform] at hmem
      cases hmem
    | some digits =>
      rw [hform] at hmem
      rcases List.mem_cons.mp hmem with heq | hmem
      · cases heq
      · exact notMem_of_digits (hdigits digits hform) rfl hmem

theorem FixedWidth.date_clean (h : f.FixedWidth) :
    'T' ∉ f.date ∧ ¬ f.text.head? = some '-' := by
  constructor
  · simp only [date, List.mem_append, List.mem_cons, not_or]
    exact ⟨notMem_of_digits h.year.2 rfl, by decide, notMem_of_digits h.month.2 rfl, by decide,
      notMem_of_digits h.day.2 rfl⟩
  · obtain ⟨hlength, hdigits⟩ := h.year
    rcases hyear : f.year with _ | ⟨c, rest⟩
    · rw [hyear] at hlength
      cases hlength
    · intro hhead
      simp only [text, date, hyear, List.cons_append, List.head?_cons, Option.some.injEq] at hhead
      have hdigit := hdigits c (hyear ▸ List.mem_cons_self ..)
      rw [hhead] at hdigit
      cases hdigit

end Fields

theorem ofWidth_of_fixed {width : Nat} {s : Str} {n : Int} (h : Fixed width s n) :
    OfWidth width s :=
  ⟨h.1, h.2.1⟩

theorem FractionForm.digits_of_some {s : Str} {q : ℚ} (h : FractionForm (some s) q) : Digits s := by
  cases h with
  | digits _ hs => exact hs

theorem Zone.FixedWidth.of_denotes {zone : Zone} {offset : Int} (h : zone.Denotes Fixed offset) :
    zone.FixedWidth := by
  cases h with
  | unspecified | utc => trivial
  | east hh hm | west hh hm => exact ⟨ofWidth_of_fixed hh, ofWidth_of_fixed hm⟩

/-- The fields of the form have its widths. -/
theorem Fields.FixedWidth.of_denotes {f : Fields} {m : Moment} (h : f.Denotes Fixed m) :
    f.FixedWidth where
  year := ofWidth_of_fixed h.year
  month := ofWidth_of_fixed h.month
  day := ofWidth_of_fixed h.day
  hour := ofWidth_of_fixed h.hour
  minute := ofWidth_of_fixed h.minute
  second := ofWidth_of_fixed h.second
  fraction := fun _ hdigits => (hdigits ▸ h.fraction).digits_of_some
  zone := .of_denotes h.zone

theorem fixed_functional {width : Nat} {s : Str} {a b : Int} (ha : Fixed width s a)
    (hb : Fixed width s b) : a = b :=
  ha.2.2.trans hb.2.2.symm

theorem fixed_nonneg {width : Nat} {s : Str} {n : Int} (h : Fixed width s n) : 0 ≤ n := by
  obtain ⟨-, -, rfl⟩ := h
  omega

theorem FractionForm.functional {fraction : Option Str} {q r : ℚ} (hq : FractionForm fraction q)
    (hr : FractionForm fraction r) : q = r := by
  cases hq <;> cases hr <;> rfl

theorem Zone.Denotes.functional {zone : Zone} {a b : Int} (ha : zone.Denotes Fixed a)
    (hb : zone.Denotes Fixed b) : a = b := by
  cases ha with
  | unspecified | utc =>
    cases hb
    rfl
  | east hh hm =>
    cases hb with
    | east hh' hm' => rw [fixed_functional hh hh', fixed_functional hm hm']
  | west hh hm =>
    cases hb with
    | west hh' hm' => rw [fixed_functional hh hh', fixed_functional hm hm']

theorem Zone.Denotes.bounds {zone : Zone} {offset : Int} (h : zone.Denotes Fixed offset) :
    -53940 ≤ offset ∧ offset ≤ 53940 := by
  cases h with
  | unspecified | utc => decide
  | east hh hm h14 h59 | west hh hm h14 h59 =>
    obtain ⟨-, -, rfl⟩ := hh
    obtain ⟨-, -, rfl⟩ := hm
    omega

/-- The fields determine the moment. -/
theorem Fields.Denotes.unique {f : Fields} {m m' : Moment} (h : f.Denotes Fixed m)
    (h' : f.Denotes Fixed m') : m = m' := by
  have hyear := fixed_functional h.year h'.year
  have hmonth := fixed_functional h.month h'.month
  have hday := fixed_functional h.day h'.day
  have hhour := fixed_functional h.hour h'.hour
  have hminute := fixed_functional h.minute h'.minute
  have hsecond := fixed_functional h.second h'.second
  ext
  · omega
  · omega
  · omega
  · omega
  · omega
  · omega
  · exact h.fraction.functional h'.fraction
  · exact h.zone.functional h'.zone

/-- The reader on a text whose fields have the widths of the form. -/
theorem parseXsDatetime_fixed_iff {s : Str} {f : Fields} {t : SystemTime}
    (htrim : Text.trim s = f.text) (hf : f.FixedWidth) :
    parseXsDatetime s = .ok t ↔
      ∃ m, f.Denotes Fixed m ∧ 0 ≤ m.read.instant ∧ t.nanos = ⌊m.read.instant * NANOS⌋ := by
  obtain ⟨hT, hhead⟩ := hf.date_clean
  obtain ⟨hlast, hplus, hminus⟩ := hf.time_clean
  obtain ⟨hcolon, hpoint⟩ := hf.seconds_clean
  have hdash : ∀ {width : Nat} {s : Str}, OfWidth width s → '-' ∉ s ∧ ':' ∉ s := by
    rintro width s ⟨-, hs⟩
    exact ⟨notMem_of_digits hs rfl, notMem_of_digits hs rfl⟩
  have hu32 : ∀ {s : Str} {n : Int}, OfWidth 2 s → (parseU32 s = .ok n ↔ Fixed 2 s n) := by
    intro s n hs
    rw [parseU32, parsePrimitive_fixed_iff (Int.le_refl 0) (by decide) (by decide) hs]
  have hi32 : ∀ {n : Int}, parseI32 f.year = .ok n ↔ Fixed 4 f.year n := by
    intro n
    rw [parseI32, parsePrimitive_fixed_iff (by decide) (by decide) (by decide) hf.year]
  rw [parseXsDatetime_cut htrim hT hhead]
  constructor
  · rintro ⟨y, mo, d, seg, offset, h, mi, sec, n, days, utc, hdate, hzone, htime, hdays, hutc,
      hepoch, hnanos⟩
    obtain ⟨⟨hy, hmo, hd⟩, hyMem, hmoMem, hdMem⟩ := (parseDate_eq_ok_iff (hdash hf.year).1
      (hdash hf.month).1 (hdash hf.day).1).mp hdate
    obtain ⟨rfl, hdenotes⟩ := (splitOffset_fixed_eq_ok_iff hf.zone hlast hplus hminus).mp hzone
    obtain ⟨written, hh, hmi, hw, hfraction, h23, h59, h60, rfl⟩ := (parseTime_eq_ok_iff
      (hdash hf.hour).2 (hdash hf.minute).2 hcolon hpoint).mp htime
    obtain ⟨q, hq, rfl⟩ := fraction_eq_ok_iff.mp hfraction
    rw [hi32] at hy
    rw [hu32 hf.month] at hmo
    rw [hu32 hf.day] at hd
    rw [hu32 hf.hour] at hh
    rw [hu32 hf.minute] at hmi
    rw [hu32 hf.second] at hw
    obtain ⟨m, hm, rfl, rfl⟩ := exists_denoted hy hmo hd hh hmi hw hq hdenotes hyMem hmoMem.1
      hdMem.1 ⟨fixed_nonneg hh, h23⟩ ⟨fixed_nonneg hmi, h59⟩ ⟨fixed_nonneg hw, h60⟩
      hdenotes.bounds hdays hutc
    exact ⟨m, hm, (Moment.instant_nonneg_iff _).mpr hepoch,
      hnanos.trans (Moment.floor_instant m.read).symm⟩
  · rintro ⟨m, hm, hepoch, hnanos⟩
    have hbounds := number_bounds m.date m.year_le
    have hyear := m.date.year_pos
    have hmonth := m.date.month_mem
    obtain ⟨hday, hdayLast⟩ := m.date.day_mem
    have hday31 := hdayLast.trans (monthLength_le m.date.year m.date.month)
    have hyearLast := m.year_le
    have hhour := m.hour_le
    have hminute := m.minute_le
    have hsecond := m.second_le
    refine ⟨m.date.year, m.date.month, m.date.day, f.time, m.offset, m.hour, m.minute,
      min (m.second : Int) 59, ⌊m.fraction * NANOS⌋, (m.date.number : Int) - EPOCH, m.read.seconds,
      ?_, ?_, ?_, daysFromCivil_date m.date m.year_le, ?_, (Moment.instant_nonneg_iff _).mp hepoch,
      hnanos.trans (Moment.floor_instant m.read)⟩
    · refine (parseDate_eq_ok_iff (hdash hf.year).1 (hdash hf.month).1 (hdash hf.day).1).mpr
        ⟨⟨hi32.mpr hm.year, (hu32 hf.month).mpr hm.month, (hu32 hf.day).mpr hm.day⟩, ?_⟩
      omega
    · exact (splitOffset_fixed_eq_ok_iff hf.zone hlast hplus hminus).mpr ⟨rfl, hm.zone⟩
    · refine (parseTime_eq_ok_iff (hdash hf.hour).2 (hdash hf.minute).2 hcolon hpoint).mpr
        ⟨m.second, (hu32 hf.hour).mpr hm.hour, (hu32 hf.minute).mpr hm.minute,
          (hu32 hf.second).mpr hm.second, fraction_eq_ok_iff.mpr ⟨_, hm.fraction, rfl⟩, ?_⟩
      omega
    · refine (utcSeconds_eq_some_iff (by simp only [EPOCH]; omega) (by omega) (by omega) (by omega)
        hm.zone.bounds).mpr ?_
      simp only [Moment.seconds, Moment.read]
      omega

/-- An instant that a text of the form gives is in the range of the type. -/
theorem Moment.exists_systemTime (m : Moment) (h : 0 ≤ m.instant) :
    ∃ t : SystemTime, t.nanos = ⌊m.instant * NANOS⌋ := by
  have hseconds := m.instant_nonneg_iff.mp h
  have hbounds := number_bounds m.date m.year_le
  have hhour := m.hour_le
  have hminute := m.minute_le
  have hsecond := m.second_le
  have hoffset := m.offset_mem
  have hlast : m.seconds ≤ 1000000000000 := by
    simp only [seconds, EPOCH]
    omega
  have hfraction : 0 ≤ ⌊m.fraction * NANOS⌋ ∧ ⌊m.fraction * NANOS⌋ ≤ NANOS := by
    obtain ⟨hlow, hhigh⟩ := m.fraction_mem
    have hnanos : (0 : ℚ) < (NANOS : Nat) := by exact_mod_cast (by decide : 0 < NANOS)
    constructor
    · exact Int.floor_nonneg.mpr (by positivity)
    · have hle := Int.floor_le (m.fraction * (NANOS : Nat))
      have hlt : m.fraction * (NANOS : Nat) < (NANOS : Nat) := by nlinarith only [hnanos, hhigh]
      exact_mod_cast (hle.trans_lt hlt).le
  rw [floor_instant]
  refine ⟨⟨m.seconds * NANOS + ⌊m.fraction * NANOS⌋, ?_⟩, rfl⟩
  have hnanos : (NANOS : Int) = 1000000000 := rfl
  rw [hnanos] at hfraction ⊢
  omega

theorem Moment.instant_read (m : Moment) :
    m.read.instant = if m.second = 60 then m.instant - 1 else m.instant := by
  have hsecond := m.second_le
  simp only [instant, read, seconds]
  split
  next h =>
    rw [h, show min 60 59 = 59 from rfl]
    push_cast
    ring
  next h => rw [min_eq_left (by omega)]

/-- The fields of fixed width that are accepted are those of the form that
stand for an instant from the epoch on. -/
theorem parseXsDatetime_isOk_iff {s : Str} {f : Fields} (htrim : Text.trim s = f.text)
    (hf : f.FixedWidth) :
    (∃ t, parseXsDatetime s = .ok t) ↔ ∃ m, f.Denotes Fixed m ∧ 0 ≤ m.read.instant := by
  constructor
  · rintro ⟨t, h⟩
    obtain ⟨m, hm, hepoch, -⟩ := (parseXsDatetime_fixed_iff htrim hf).mp h
    exact ⟨m, hm, hepoch⟩
  · rintro ⟨m, hm, hepoch⟩
    obtain ⟨t, ht⟩ := m.read.exists_systemTime hepoch
    exact ⟨t, (parseXsDatetime_fixed_iff htrim hf).mpr ⟨m, hm, hepoch, ht⟩⟩

/-- The instant of an accepted text, truncated to nanoseconds. -/
theorem nanos_of_parseXsDatetime {s : Str} {m : Moment} {t : SystemTime}
    (hform : IsDateTime (Text.trim s) m) (h : parseXsDatetime s = .ok t) :
    t.nanos = ⌊m.read.instant * NANOS⌋ := by
  obtain ⟨f, htrim, hm⟩ := hform
  obtain ⟨m', hm', -, hnanos⟩ := (parseXsDatetime_fixed_iff htrim (.of_denotes hm)).mp h
  rw [hm.unique hm']
  exact hnanos

/-- A later instant is read as an earlier one by a leap second only. -/
theorem parseXsDatetime_mono {s s' : Str} {m m' : Moment} {t t' : SystemTime}
    (hform : IsDateTime (Text.trim s) m) (hform' : IsDateTime (Text.trim s') m')
    (h : parseXsDatetime s = .ok t) (h' : parseXsDatetime s' = .ok t')
    (hlt : m.instant < m'.instant) :
    t.nanos ≤ t'.nanos + if m'.second = 60 then (NANOS : Int) else 0 := by
  have hnanos : (0 : ℚ) < (NANOS : Nat) := by exact_mod_cast (by decide : 0 < NANOS)
  have hread : m.read.instant ≤ m.instant := by
    rw [m.instant_read]
    split <;> linarith
  have hfloor : t.nanos ≤ ⌊m'.instant * NANOS⌋ := by
    rw [nanos_of_parseXsDatetime hform h]
    exact Int.floor_mono (by nlinarith only [hnanos, hread, hlt])
  rw [nanos_of_parseXsDatetime hform' h', m'.instant_read]
  split
  · have hsecond : (m'.instant - 1) * (NANOS : Nat) = m'.instant * (NANOS : Nat) - (NANOS : Nat) :=
      by
      ring
    rw [hsecond, Int.floor_sub_natCast]
    omega
  · omega

/-- The form that is accepted. A text whose fields have the widths of the form
is accepted exactly when it is of the form and stands for an instant from the
epoch on, with a leap second read as the second before it; the instant that is
read is the one it stands for, truncated to nanoseconds; whatever else is
accepted has the same separators and its numbers in the same ranges; and a
later instant is read as an earlier one by a leap second only. -/
theorem parseXsDatetime_form :
    (∀ (s : Str) (f : Fields), Text.trim s = f.text → f.FixedWidth →
      ((∃ t, parseXsDatetime s = .ok t) ↔ ∃ m, f.Denotes Fixed m ∧ 0 ≤ m.read.instant)) ∧
    (∀ s m t, IsDateTime (Text.trim s) m → parseXsDatetime s = .ok t →
      t.nanos = ⌊m.read.instant * NANOS⌋) ∧
    (∀ s t, parseXsDatetime s = .ok t →
      ∃ (f : Fields) (m : Moment), Text.trim s = f.text ∧ f.Denotes Loose m) ∧
    (∀ s s' m m' t t', IsDateTime (Text.trim s) m → IsDateTime (Text.trim s') m' →
      parseXsDatetime s = .ok t → parseXsDatetime s' = .ok t' → m.instant < m'.instant →
        t.nanos ≤ t'.nanos + if m'.second = 60 then (NANOS : Int) else 0) := by
  refine ⟨?_, ?_, ?_, ?_⟩
  · intro s f htrim hf
    exact parseXsDatetime_isOk_iff htrim hf
  · intro s m t hform h
    exact nanos_of_parseXsDatetime hform h
  · intro s t h
    exact loose_of_parseXsDatetime h
  · intro s s' m m' t t' hform hform' h h' hlt
    exact parseXsDatetime_mono hform hform' h h' hlt

theorem length_text_of_fixedWidth {f : Fields} (h : f.FixedWidth) : 19 ≤ f.text.length := by
  have hyear := h.year.1
  have hmonth := h.month.1
  have hday := h.day.1
  have hhour := h.hour.1
  have hminute := h.minute.1
  have hsecond := h.second.1
  simp only [Fields.text, Fields.date, Fields.time, List.length_append, List.length_cons]
  omega

/-- The fields of a time on the first day of 2024, in universal time. -/
def newYearFields (second : Str) (fraction : Option Str) : Fields :=
  ⟨"2024", "01", "01", "00", "00", second, fraction, .utc⟩

/-- The moment of those fields. -/
def newYear (second : Nat) (fraction : ℚ) (hsecond : second ≤ 60)
    (hfraction : 0 ≤ fraction ∧ fraction < 1) : Moment :=
  ⟨⟨2024, 1, 1, by decide, by decide, by decide⟩, 0, 0, second, fraction, 0, by decide, by decide,
    by decide, hsecond, hfraction, by decide⟩

theorem newYear_denotes {secondS : Str} {fractionS : Option Str} {second : Nat} {fraction : ℚ}
    (hsecond : second ≤ 60) (hfraction : 0 ≤ fraction ∧ fraction < 1)
    (hs : Fixed 2 secondS second) (hf : FractionForm fractionS fraction) :
    (newYearFields secondS fractionS).Denotes Fixed (newYear second fraction hsecond hfraction) :=
  ⟨(by decide : Fixed 4 "2024" 2024), (by decide : Fixed 2 "01" 1), (by decide : Fixed 2 "01" 1),
    (by decide : Fixed 2 "00" 0), (by decide : Fixed 2 "00" 0), hs, hf, .utc⟩

theorem exists_ok_of_nanos {r : Result SystemTime} {n : Int}
    (h : r.toOption.map SystemTime.nanos = some n) : ∃ t, r = .ok t ∧ t.nanos = n := by
  obtain ⟨t, ht, hn⟩ := Option.map_eq_some_iff.mp h
  cases r with
  | error => cases ht
  | ok => exact ⟨t, congrArg _ (Option.some.inj ht), hn⟩

/-- A text with short fields is accepted, and a leap second that comes after a
fraction of the second before it is read as the earlier instant. -/
theorem parseXsDatetime_short_leap :
    ((∃ t, parseXsDatetime "2024-1-1T0:0:0Z" = .ok t) ∧
      ¬ ∃ m, IsDateTime (Text.trim "2024-1-1T0:0:0Z") m) ∧
    ∃ m m' t t', IsDateTime (Text.trim "2024-01-01T00:00:59.5Z") m ∧
      IsDateTime (Text.trim "2024-01-01T00:00:60Z") m' ∧
      parseXsDatetime "2024-01-01T00:00:59.5Z" = .ok t ∧
      parseXsDatetime "2024-01-01T00:00:60Z" = .ok t' ∧ m.instant < m'.instant ∧ t' < t := by
  refine ⟨⟨?_, ?_⟩, ?_⟩
  · obtain ⟨t, ht, -⟩ := @exists_ok_of_nanos (parseXsDatetime "2024-1-1T0:0:0Z")
      1704067200000000000 (by decide +kernel)
    exact ⟨t, ht⟩
  · rintro ⟨m, f, htrim, hm⟩
    have hlong := length_text_of_fixedWidth (.of_denotes hm)
    rw [← htrim] at hlong
    exact absurd hlong (by decide +kernel)
  · obtain ⟨t, ht, hnanos⟩ := @exists_ok_of_nanos (parseXsDatetime "2024-01-01T00:00:59.5Z")
      1704067259500000000 (by decide +kernel)
    obtain ⟨t', ht', hnanos'⟩ := @exists_ok_of_nanos (parseXsDatetime "2024-01-01T00:00:60Z")
      1704067259000000000 (by decide +kernel)
    have hlast : Fixed 2 "59" 59 := by decide
    have hleap : Fixed 2 "60" 60 := by decide
    have hhalf : FractionForm (some ("5" : Str)) (1 / 2) := by
      have hvalue : (1 / 2 : ℚ) =
          (Nat.ofDigitChars 10 "5".toList 0 : ℚ) / 10 ^ "5".toList.length := by
        rw [show Nat.ofDigitChars 10 "5".toList 0 = 5 by decide,
          show "5".toList.length = 1 by decide]
        norm_num
      rw [hvalue]
      exact .digits (by decide) (by unfold Digits; decide)
    refine ⟨newYear 59 (1 / 2) (by decide) (by norm_num), newYear 60 0 (by decide) (by norm_num), t,
      t', ⟨newYearFields "59" (some "5"), by decide +kernel, newYear_denotes _ _ hlast hhalf⟩,
      ⟨newYearFields "60" none, by decide +kernel, newYear_denotes _ _ hleap .absent⟩,
      ht, ht', ?_, ?_⟩
    · simp only [newYear, Moment.instant, Moment.seconds]
      push_cast
      linarith
    · rw [SystemTime.lt_iff, hnanos, hnanos']
      decide

end Saml.Time
