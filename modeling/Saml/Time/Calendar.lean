import Saml.Library.Gregorian
import Saml.Time
import Mathlib.Tactic.Linarith

/-!
# The civil calendar

The day count and the civil date are inverse to each other from the epoch on.
-/

namespace Saml.Time

open Number

theorem bind_i64 {β : Type} {n : Int} {f : Int → Option β} {b : β}
    (h : (i64 n).bind f = some b) : ∃ m, m = n ∧ f m = some b := by
  unfold i64 at h
  split at h
  · exact ⟨n, rfl, h⟩
  · cases h

theorem i64_eq {n m : Int} (h : i64 n = some m) : m = n := by
  unfold i64 at h
  split at h
  · exact (Option.some.inj h).symm
  · cases h

theorem ite_none_left_eq_some_iff {α : Type} {p : Prop} [Decidable p] {o : Option α} {a : α} :
    (if p then none else o) = some a ↔ ¬ p ∧ o = some a := by
  split <;> simp_all

/-- The year of an era and the day of that year. -/
theorem yearOfEra_spec {doe yoe doy : Int} (h0 : 0 ≤ doe) (h1 : doe < 146097)
    (hyoe : yoe = (doe - doe / 1460 + doe / 36524 - doe / 146096) / 365)
    (hdoy : doy = doe - (365 * yoe + yoe / 4 - yoe / 100)) :
    (0 ≤ yoe ∧ yoe < 400) ∧ (0 ≤ doy ∧ doy < 366) ∧
      (doy = 365 → yoe % 4 = 3 ∧ (yoe % 100 ≠ 99 ∨ yoe = 399)) := by
  by_cases hlast : doe = 146096
  · subst hlast
    have hyoe' : yoe = 399 := hyoe
    subst hyoe'
    omega
  · obtain ⟨c, r, hc, hr0, hr1⟩ : ∃ c r, doe = 36524 * c + r ∧ 0 ≤ r ∧ r < 36524 :=
      ⟨doe / 36524, doe % 36524, by omega, by omega, by omega⟩
    obtain ⟨f, s, hf, hs0, hs1⟩ : ∃ f s, r = 1461 * f + s ∧ 0 ≤ s ∧ s < 1461 :=
      ⟨r / 1461, r % 1461, by omega, by omega, by omega⟩
    have hc0 : 0 ≤ c := by omega
    have hc3 : c ≤ 3 := by omega
    have hf0 : 0 ≤ f := by omega
    have hf24 : f ≤ 24 := by omega
    have hcentury : doe / 36524 = c := by omega
    have hera : doe / 146096 = 0 := by omega
    have hfour : doe / 1460 = 25 * c + f + (24 * c + f + s) / 1460 := by omega
    obtain ⟨e, he⟩ : ∃ e, e = (24 * c + f + s) / 1460 := ⟨_, rfl⟩
    have hyear : yoe = 100 * c + 4 * f + (s - e) / 365 := by
      rw [hcentury, hera, hfour, ← he] at hyoe
      omega
    obtain ⟨j, hj⟩ : ∃ j, j = (s - e) / 365 := ⟨_, rfl⟩
    rw [← hj] at hyear
    have hcase : (e = 0 ∧ 24 * c + f + s < 1460) ∨ (e = 1 ∧ 1460 ≤ 24 * c + f + s) := by omega
    have hj0 : 0 ≤ j ∧ j ≤ 3 := by omega
    have hdays : 0 ≤ s - 365 * j ∧ s - 365 * j < 366 := by omega
    have hq : yoe / 4 = 25 * c + f := by omega
    have hh : yoe / 100 = c := by omega
    have hdoy' : doy = s - 365 * j := by
      rw [hq, hh] at hdoy
      omega
    refine ⟨by omega, by omega, fun hleap => ⟨by omega, .inl (by omega)⟩⟩

/-- A civil date by its era, its year of the era, the day of that year counted
from March, and the month counted from March. -/
structure CivilParts (z y m d era yoe doy mp : Int) : Prop where
  sum : z + 719468 = era * 146097 + (yoe * 365 + yoe / 4 - yoe / 100 + doy)
  era_nonneg : 0 ≤ era
  yoe_mem : 0 ≤ yoe ∧ yoe < 400
  doy_mem : 0 ≤ doy ∧ doy < 366
  leap : doy = 365 → yoe % 4 = 3 ∧ (yoe % 100 ≠ 99 ∨ yoe = 399)
  mp_eq : mp = (5 * doy + 2) / 153
  d_eq : d = doy - (153 * mp + 2) / 5 + 1
  m_eq : m = if mp < 10 then mp + 3 else mp - 9
  y_eq : y = if m ≤ 2 then yoe + era * 400 + 1 else yoe + era * 400

theorem era_spec {z era doe : Int} (hz : 0 ≤ z) (hera : era = z / 146097)
    (hdoe : doe = z - era * 146097) : 0 ≤ era ∧ 0 ≤ doe ∧ doe < 146097 := by
  omega

theorem yearDays_nonneg {doe : Int} (h : 0 ≤ doe) :
    0 ≤ doe - doe / 1460 + doe / 36524 - doe / 146096 := by
  have hfour : doe / 1460 ≤ doe := Int.ediv_le_self 1460 h
  have hcentury : 0 ≤ doe / 36524 := Int.ediv_nonneg h (by decide)
  have hera : doe / 146096 = doe / 36524 / 4 := by
    rw [Int.ediv_ediv_of_nonneg (by decide)]
    rfl
  have hle : doe / 36524 / 4 ≤ doe / 36524 := Int.ediv_le_self 4 hcentury
  rw [hera]
  linarith only [hfour, hle]

/-- The date of a month and a day, when every part is in the range of its type. -/
def checkedDate (m d yBase : Int) : Option (Int × Int × Int) :=
  if d < 0 ∨ 2 ^ 32 ≤ d ∨ m < 0 ∨ 2 ^ 32 ≤ m then none
  else do
    let y ← if m ≤ 2 then i64 (yBase + 1) else some yBase
    if y < -(2 ^ 31) ∨ 2 ^ 31 ≤ y then none else some (y, m, d)

theorem checkedDate_eq {m d yBase y' m' d' : Int} (h : checkedDate m d yBase = some (y', m', d')) :
    y' = (if m ≤ 2 then yBase + 1 else yBase) ∧ m' = m ∧ d' = d := by
  unfold checkedDate at h
  obtain ⟨_, h⟩ := ite_none_left_eq_some_iff.mp h
  split at h
  next hle =>
    obtain ⟨y, hy, h⟩ := bind_i64 h
    obtain ⟨_, h⟩ := ite_none_left_eq_some_iff.mp h
    cases h
    exact ⟨by rw [if_pos hle, hy], rfl, rfl⟩
  next hle =>
    obtain ⟨_, h⟩ := ite_none_left_eq_some_iff.mp h
    cases h
    exact ⟨by rw [if_neg hle], rfl, rfl⟩

/-- The parts behind a date that `civil_from_days` computes. -/
theorem civilFromDays_parts {z y m d : Int} (hz : 0 ≤ z) (h : civilFromDays z = some (y, m, d)) :
    ∃ era yoe doy mp, CivilParts z y m d era yoe doy mp := by
  obtain ⟨z', hz'', h⟩ := bind_i64 h
  have hpos : z' ≥ 0 := by omega
  rw [if_pos hpos] at h
  change (some z').bind _ = _ at h
  rw [Option.bind_some] at h
  obtain ⟨era, hera, h⟩ := bind_i64 h
  obtain ⟨t, ht, h⟩ := bind_i64 h
  obtain ⟨doe, hdoe, h⟩ := bind_i64 h
  obtain ⟨t1, ht1, h⟩ := bind_i64 h
  obtain ⟨withoutLeap, hwl, h⟩ := bind_i64 h
  obtain ⟨t2, ht2, h⟩ := bind_i64 h
  obtain ⟨withCentury, hwc, h⟩ := bind_i64 h
  obtain ⟨t3, ht3, h⟩ := bind_i64 h
  obtain ⟨yearDays, hyd, h⟩ := bind_i64 h
  obtain ⟨yoe, hyoe, h⟩ := bind_i64 h
  obtain ⟨t4, ht4, h⟩ := bind_i64 h
  obtain ⟨yBase, hyb, h⟩ := bind_i64 h
  obtain ⟨t5, ht5, h⟩ := bind_i64 h
  obtain ⟨t6, ht6, h⟩ := bind_i64 h
  obtain ⟨leap, hleap, h⟩ := bind_i64 h
  obtain ⟨t7, ht7, h⟩ := bind_i64 h
  obtain ⟨leapCorrection, hlc, h⟩ := bind_i64 h
  obtain ⟨doy, hdoy, h⟩ := bind_i64 h
  obtain ⟨t8, ht8, h⟩ := bind_i64 h
  obtain ⟨t9, ht9, h⟩ := bind_i64 h
  obtain ⟨mp, hmp, h⟩ := bind_i64 h
  obtain ⟨t10, ht10, h⟩ := bind_i64 h
  obtain ⟨t11, ht11, h⟩ := bind_i64 h
  obtain ⟨mpTerm, hmt, h⟩ := bind_i64 h
  obtain ⟨t12, ht12, h⟩ := bind_i64 h
  obtain ⟨d', hd, h⟩ := bind_i64 h
  obtain ⟨m', hm, h⟩ : ∃ m', m' = (if mp < 10 then mp + 3 else mp - 9) ∧
      checkedDate m' d' yBase = some (y, m, d) := by
    split at h
    next hlt =>
      obtain ⟨m', hm', h⟩ := bind_i64 h
      exact ⟨m', by rw [if_pos hlt]; exact hm', h⟩
    next hlt =>
      obtain ⟨m', hm', h⟩ := bind_i64 h
      exact ⟨m', by rw [if_neg hlt]; exact hm', h⟩
  obtain ⟨hy, rfl, rfl⟩ := checkedDate_eq h
  rw [Int.tdiv_eq_ediv_of_nonneg hpos] at hera
  obtain ⟨hera0, hdoe0, hdoe1⟩ := era_spec hpos hera (hdoe.trans (by rw [ht]))
  rw [Int.tdiv_eq_ediv_of_nonneg hdoe0] at ht1 ht2 ht3
  have hyearDays : yearDays = doe - doe / 1460 + doe / 36524 - doe / 146096 := by
    rw [hyd, hwc, hwl, ht1, ht2, ht3]
  rw [Int.tdiv_eq_ediv_of_nonneg (hyearDays ▸ yearDays_nonneg hdoe0), hyearDays] at hyoe
  have hyoe0 : 0 ≤ yoe := hyoe ▸ Int.ediv_nonneg (yearDays_nonneg hdoe0) (by decide)
  rw [Int.tdiv_eq_ediv_of_nonneg hyoe0] at ht6 ht7
  have hdoy' : doy = doe - (365 * yoe + yoe / 4 - yoe / 100) := by
    rw [hdoy, hlc, hleap, ht5, ht6, ht7]
  obtain ⟨hyearMem, hdayMem, hleapDay⟩ := yearOfEra_spec hdoe0 hdoe1 hyoe hdoy'
  have hpos9 : 0 ≤ 5 * doy + 2 := by linarith only [hdayMem.1]
  rw [ht9, ht8, Int.tdiv_eq_ediv_of_nonneg hpos9] at hmp
  have hmp0 : 0 ≤ mp := hmp ▸ Int.ediv_nonneg hpos9 (by decide)
  have hpos11 : 0 ≤ 153 * mp + 2 := by linarith only [hmp0]
  rw [ht11, ht10, Int.tdiv_eq_ediv_of_nonneg hpos11] at hmt
  refine ⟨era, yoe, doy, mp, ?_, hera0, hyearMem, hdayMem, hleapDay, hmp, ?_, hm, ?_⟩
  · linarith only [hz'', hdoe, ht, hdoy']
  · rw [hd, ht12, hmt]
  · rw [hy, hyb, ht4]

/-- A checked operation inside the range goes on with its result. -/
theorem isSome_bind_i64 {β : Type} {n m : Int} {f : Int → Option β} (hm : m = n)
    (hrange : -(2 ^ 63) ≤ m ∧ m < 2 ^ 63) (h : (f m).isSome = true) :
    ((i64 n).bind f).isSome = true := by
  subst hm
  rwa [i64_eq_some hrange]

theorem checkedDate_isSome {m d yBase : Int} (hm : 0 ≤ m ∧ m < 2 ^ 32) (hd : 0 ≤ d ∧ d < 2 ^ 32)
    (hy : 0 ≤ yBase ∧ yBase < 2 ^ 31 - 1) : (checkedDate m d yBase).isSome = true := by
  unfold checkedDate
  rw [if_neg (by omega)]
  split
  · refine isSome_bind_i64 rfl (by omega) ?_
    dsimp only
    rw [if_neg (by omega)]
    rfl
  · change (if _ then _ else _ : Option _).isSome = true
    rw [if_neg (by omega)]
    rfl

/-- No operation of `civil_from_days` overflows as far as the years have four digits. -/
theorem civilFromDays_isSome {z : Int} (hz : 0 ≤ z) (hlast : z ≤ 2932896) :
    (civilFromDays z).isSome = true := by
  obtain ⟨z', hz'⟩ : ∃ z', z' = z + 719468 := ⟨_, rfl⟩
  refine isSome_bind_i64 hz' (by omega) ?_
  have hpos : z' ≥ 0 := by omega
  rw [if_pos hpos]
  change ((some z').bind _).isSome = true
  rw [Option.bind_some]
  obtain ⟨era, hera⟩ : ∃ era, era = z' / 146097 := ⟨_, rfl⟩
  obtain ⟨doe, hdoe⟩ : ∃ doe, doe = z' - era * 146097 := ⟨_, rfl⟩
  obtain ⟨hera0, hdoe0, hdoe1⟩ := era_spec hpos hera hdoe
  have hera1 : era ≤ 24 := by omega
  refine isSome_bind_i64 (hera.trans (Int.tdiv_eq_ediv_of_nonneg hpos).symm) (by omega) ?_
  refine isSome_bind_i64 rfl (by omega) ?_
  refine isSome_bind_i64 hdoe (by omega) ?_
  obtain ⟨days, hdays⟩ : ∃ days, days = doe - doe / 1460 + doe / 36524 - doe / 146096 := ⟨_, rfl⟩
  have hdays0 : 0 ≤ days := hdays ▸ yearDays_nonneg hdoe0
  obtain ⟨yoe, hyoe⟩ : ∃ yoe, yoe = days / 365 := ⟨_, rfl⟩
  obtain ⟨doy, hdoy⟩ : ∃ doy, doy = doe - (365 * yoe + yoe / 4 - yoe / 100) := ⟨_, rfl⟩
  obtain ⟨hyoeMem, hdoyMem, -⟩ := yearOfEra_spec hdoe0 hdoe1 (hdays ▸ hyoe) hdoy
  have hfour := Int.tdiv_eq_ediv_of_nonneg (b := 1460) hdoe0
  have hcentury := Int.tdiv_eq_ediv_of_nonneg (b := 36524) hdoe0
  have hlastDay := Int.tdiv_eq_ediv_of_nonneg (b := 146096) hdoe0
  refine isSome_bind_i64 hfour.symm (by omega) ?_
  refine isSome_bind_i64 rfl (by omega) ?_
  refine isSome_bind_i64 hcentury.symm (by omega) ?_
  refine isSome_bind_i64 rfl (by omega) ?_
  refine isSome_bind_i64 hlastDay.symm (by omega) ?_
  refine isSome_bind_i64 hdays (by omega) ?_
  refine isSome_bind_i64 (hyoe.trans (Int.tdiv_eq_ediv_of_nonneg hdays0).symm) (by omega) ?_
  refine isSome_bind_i64 rfl (by omega) ?_
  refine isSome_bind_i64 rfl (by omega) ?_
  refine isSome_bind_i64 rfl (by omega) ?_
  refine isSome_bind_i64 (Int.tdiv_eq_ediv_of_nonneg hyoeMem.1).symm (by omega) ?_
  refine isSome_bind_i64 rfl (by omega) ?_
  refine isSome_bind_i64 (Int.tdiv_eq_ediv_of_nonneg hyoeMem.1).symm (by omega) ?_
  refine isSome_bind_i64 rfl (by omega) ?_
  refine isSome_bind_i64 hdoy (by omega) ?_
  obtain ⟨mp, hmp⟩ : ∃ mp, mp = (5 * doy + 2) / 153 := ⟨_, rfl⟩
  have hmpMem : 0 ≤ mp ∧ mp ≤ 11 := by omega
  refine isSome_bind_i64 rfl (by omega) ?_
  refine isSome_bind_i64 rfl (by omega) ?_
  refine isSome_bind_i64 (hmp.trans (Int.tdiv_eq_ediv_of_nonneg (by omega)).symm) (by omega) ?_
  refine isSome_bind_i64 rfl (by omega) ?_
  refine isSome_bind_i64 rfl (by omega) ?_
  refine isSome_bind_i64 (Int.tdiv_eq_ediv_of_nonneg (by omega)).symm (by omega) ?_
  refine isSome_bind_i64 rfl (by omega) ?_
  obtain ⟨d, hd⟩ : ∃ d, d = doy - (153 * mp + 2) / 5 + 1 := ⟨_, rfl⟩
  have hdMem : 0 ≤ d ∧ d < 2 ^ 32 := by omega
  refine isSome_bind_i64 hd (by omega) ?_
  have hyear : 0 ≤ yoe + era * 400 ∧ yoe + era * 400 < 2 ^ 31 - 1 := by omega
  split
  · refine isSome_bind_i64 rfl (by omega) ?_
    exact checkedDate_isSome (by omega) hdMem hyear
  · refine isSome_bind_i64 rfl (by omega) ?_
    exact checkedDate_isSome (by omega) hdMem hyear
/-! ## The days of the calendar -/

open Library.Gregorian

/-- The number of 1970-01-01. -/
def EPOCH : Nat := 719163

theorem isLeapYear_iff (y : Nat) : isLeapYear y = true ↔ IsLeap y := by
  have hcast : ∀ n : Nat, ((y : Int).tmod n == 0) = decide (y % n = 0) := by
    intro n
    rw [Int.tmod_eq_emod_of_nonneg (by omega), Bool.eq_iff_iff]
    simp only [beq_iff_eq, decide_eq_true_eq]
    omega
  have h4 := hcast 4
  have h100 := hcast 100
  have h400 := hcast 400
  simp only [Nat.cast_ofNat] at h4 h100 h400
  simp only [isLeapYear, IsLeap, bne, h4, h100, h400, Bool.or_eq_true, Bool.and_eq_true,
    Bool.not_eq_true', decide_eq_true_eq, decide_eq_false_iff_not]
  omega

theorem daysInMonth_eq (y : Nat) {m : Nat} (h : 1 ≤ m ∧ m ≤ 12) :
    daysInMonth y m = monthLength y m := by
  obtain ⟨h1, h12⟩ := h
  interval_cases m <;> simp only [daysInMonth, monthLength] <;> try rfl
  by_cases hleap : IsLeap y
  · simp [hleap, (isLeapYear_iff y).mpr hleap]
  · simp [hleap, mt (isLeapYear_iff y).mp hleap]

/-- The days of a month that is counted from March, with the last one short. -/
theorem monthLength_of_mp {mp doy : Int} (hmp : mp = (5 * doy + 2) / 153)
    (hdoy : 0 ≤ doy ∧ doy < 366) {year month : Nat}
    (hmonth : (month : Int) = if mp < 10 then mp + 3 else mp - 9)
    (hleap : doy = 365 → IsLeap year) :
    (1 ≤ month ∧ month ≤ 12) ∧ 1 ≤ doy - (153 * mp + 2) / 5 + 1 ∧
      doy - (153 * mp + 2) / 5 + 1 ≤ monthLength year month := by
  have hmp0 : 0 ≤ mp ∧ mp ≤ 11 := by omega
  obtain ⟨hlow, hhigh⟩ := hmp0
  refine ⟨by split at hmonth <;> omega, by omega, ?_⟩
  by_cases hmarch : mp = 11
  · subst hmarch
    have hfebruary : month = 2 := by omega
    subst hfebruary
    rw [monthLength]
    split
    · omega
    next hcommon =>
      have hshort : doy ≠ 365 := fun h => hcommon (hleap h)
      omega
  · have hm : month = (if mp < 10 then mp + 3 else mp - 9).toNat := by omega
    subst hm
    interval_cases mp <;> simp [monthLength] <;> omega

/-- The day of a year and a month that are counted from March. -/
def marchDays (y mp d : Int) : Int :=
  365 * y + y / 4 - y / 100 + y / 400 + (153 * mp + 2) / 5 + d - 1 - 719468

/-- The same by the era and the year of the era. -/
theorem marchDays_era {era yoe : Int} (hyoe : 0 ≤ yoe ∧ yoe < 400) (mp d : Int) :
    marchDays (yoe + era * 400) mp d =
      era * 146097 + (yoe * 365 + yoe / 4 - yoe / 100 + ((153 * mp + 2) / 5 + d - 1)) - 719468 := by
  have h4 : (yoe + era * 400) / 4 = yoe / 4 + era * 100 := by omega
  have h100 : (yoe + era * 400) / 100 = yoe / 100 + era * 4 := by omega
  have h400 : (yoe + era * 400) / 400 = era := by omega
  rw [marchDays, h4, h100, h400]
  omega

/-- The number of a date, counted from the epoch. -/
theorem number_eq_marchDays (date : Date) :
    (date.number : Int) = marchDays date.marchYear date.marchMonth date.day + EPOCH := by
  have hnumber := date.number_march
  rw [marchDays, EPOCH]
  omega

/-- The date that `civil_from_days` computes exists, and it is the date of that day. -/
theorem civilFromDays_date {z y m d : Int} (hz : 0 ≤ z) (h : civilFromDays z = some (y, m, d)) :
    ∃ date : Date, y = date.year ∧ m = date.month ∧ d = date.day ∧
      (date.number : Int) = z + EPOCH := by
  obtain ⟨era, yoe, doy, mp, hparts⟩ := civilFromDays_parts hz h
  obtain ⟨hsum, hera, hyoe, hdoy, hleapDay, hmp, hd, hm, hy⟩ := hparts
  have hmp0 : 0 ≤ mp ∧ mp ≤ 11 := by omega
  have hm0 : 1 ≤ m ∧ m ≤ 12 := by split at hm <;> omega
  have hy0 : 1 ≤ y := by split at hy <;> omega
  obtain ⟨month, rfl⟩ := Int.eq_ofNat_of_zero_le (by omega : 0 ≤ m)
  obtain ⟨year, rfl⟩ := Int.eq_ofNat_of_zero_le (by omega : 0 ≤ y)
  have hleap : doy = 365 → IsLeap year := by
    intro hlast
    obtain ⟨h4, h100⟩ := hleapDay hlast
    have hmarch : mp = 11 := by omega
    subst hmarch
    rw [if_pos (by omega)] at hy
    unfold IsLeap
    omega
  obtain ⟨hmonth, hday1, hday⟩ := monthLength_of_mp hmp hdoy hm hleap
  rw [← hd] at hday1 hday
  obtain ⟨day, rfl⟩ := Int.eq_ofNat_of_zero_le (by omega : 0 ≤ d)
  obtain ⟨date, hdate⟩ : ∃ date : Date, date.year = year ∧ date.month = month ∧ date.day = day :=
    ⟨⟨year, month, day, by omega, hmonth, by omega, by omega⟩, rfl, rfl, rfl⟩
  obtain ⟨rfl, rfl, rfl⟩ := hdate
  refine ⟨date, rfl, rfl, rfl, ?_⟩
  have hmarchYear : (date.marchYear : Int) = yoe + era * 400 := by
    unfold Date.marchYear
    split <;> split at hy <;> omega
  have hmarchMonth : (date.marchMonth : Int) = mp := by
    unfold Date.marchMonth
    split <;> split at hm <;> omega
  rw [number_eq_marchDays, hmarchYear, hmarchMonth, marchDays_era hyoe]
  omega

/-- A checked operation inside the range. -/
theorem bind_i64_of_mem {β : Type} {n : Int} {f : Int → Option β}
    (hrange : -(2 ^ 63) ≤ n ∧ n < 2 ^ 63) : (i64 n).bind f = f n := by
  rw [i64_eq_some hrange, Option.bind_some]

/-- The last steps of `days_from_civil`: the day of a year of an era and a month
that are counted from March. -/
def checkedMarchDay (era yoe mShifted d : Int) : Option Int := do
  let scaled ← i64 ((← i64 (153 * mShifted)) + 2)
  let doy ← i64 ((← i64 ((← i64 (scaled.tdiv 5)) + d)) - 1)
  let years ← i64 ((← i64 (yoe * 365)) + (← i64 (yoe.tdiv 4)))
  let doe ← i64 ((← i64 (years - (← i64 (yoe.tdiv 100)))) + doy)
  i64 ((← i64 ((← i64 (era * 146097)) + doe)) - 719468)

/-- `days_from_civil` once the year is counted from March. -/
def checkedMarchDays (y m d : Int) : Option Int := do
  let eraBase ← if y ≥ 0 then some y else i64 (y - 399)
  let era ← i64 (eraBase.tdiv 400)
  let yoe ← i64 (y - (← i64 (era * 400)))
  let mShifted ← if m > 2 then i64 (m - 3) else i64 (m + 9)
  checkedMarchDay era yoe mShifted d

theorem daysFromCivil_eq_checked {y m d : Int} (hyear : 1 ≤ y ∧ y ≤ 9999)
    (hmonth : 1 ≤ m ∧ m ≤ 12) (hday : 1 ≤ d ∧ d ≤ daysInMonth y m) :
    daysFromCivil y m d = checkedMarchDays (if m ≤ 2 then y - 1 else y) m d := by
  unfold daysFromCivil
  rw [if_neg (by omega), if_neg (by omega)]
  by_cases hle : m ≤ 2
  · rw [if_pos hle]
    dsimp only
    rw [if_pos hle]
    exact bind_i64_of_mem (by omega)
  · rw [if_neg hle]
    dsimp only
    rw [if_neg hle]
    rfl

theorem checkedMarchDay_eq {era yoe mp d : Int} (hera : 0 ≤ era ∧ era ≤ 24)
    (hyoe : 0 ≤ yoe ∧ yoe < 400) (hmp : 0 ≤ mp ∧ mp ≤ 11) (hd : 1 ≤ d ∧ d ≤ 31) :
    checkedMarchDay era yoe mp d = some (marchDays (yoe + era * 400) mp d) := by
  rw [marchDays_era hyoe]
  refine (bind_i64_of_mem (by omega)).trans ?_
  refine (bind_i64_of_mem (by omega)).trans ?_
  rw [Int.tdiv_eq_ediv_of_nonneg (by omega)]
  refine (bind_i64_of_mem (by omega)).trans ?_
  refine (bind_i64_of_mem (by omega)).trans ?_
  refine (bind_i64_of_mem (by omega)).trans ?_
  refine (bind_i64_of_mem (by omega)).trans ?_
  rw [Int.tdiv_eq_ediv_of_nonneg hyoe.1]
  refine (bind_i64_of_mem (by omega)).trans ?_
  refine (bind_i64_of_mem (by omega)).trans ?_
  rw [Int.tdiv_eq_ediv_of_nonneg hyoe.1]
  refine (bind_i64_of_mem (by omega)).trans ?_
  refine (bind_i64_of_mem (by omega)).trans ?_
  refine (bind_i64_of_mem (by omega)).trans ?_
  refine (bind_i64_of_mem (by omega)).trans ?_
  refine (bind_i64_of_mem (by omega)).trans ?_
  rw [i64_eq_some (by omega)]

/-- No check fails on a year of four digits. -/
theorem checkedMarchDays_eq {y m d mp : Int} (hy : 0 ≤ y ∧ y ≤ 9999)
    (hmp : mp = if m ≤ 2 then m + 9 else m - 3) (hmonth : 1 ≤ m ∧ m ≤ 12) (hd : 1 ≤ d ∧ d ≤ 31) :
    checkedMarchDays y m d = some (marchDays y mp d) := by
  obtain ⟨hy0, hy1⟩ := hy
  obtain ⟨era, hera⟩ : ∃ era, era = y / 400 := ⟨_, rfl⟩
  obtain ⟨yoe, hyoe⟩ : ∃ yoe, yoe = y - era * 400 := ⟨_, rfl⟩
  have hyear : y = yoe + era * 400 := by omega
  have hmpMem : 0 ≤ mp ∧ mp ≤ 11 := by split at hmp <;> omega
  have htail : checkedMarchDays y m d = checkedMarchDay era yoe mp d := by
    unfold checkedMarchDays
    rw [if_pos (by omega)]
    change (i64 (y.tdiv 400)).bind _ = _
    rw [Int.tdiv_eq_ediv_of_nonneg hy0, ← hera]
    refine (bind_i64_of_mem (by omega)).trans ?_
    refine (bind_i64_of_mem (by omega)).trans ?_
    rw [← hyoe]
    refine (bind_i64_of_mem (by omega)).trans ?_
    split at hmp
    next hle =>
      rw [if_neg (by omega), ← hmp]
      exact bind_i64_of_mem (by omega)
    next hle =>
      rw [if_pos (by omega), ← hmp]
      exact bind_i64_of_mem (by omega)
  rw [htail, checkedMarchDay_eq (by omega) (by omega) hmpMem hd, ← hyear]

/-- `days_from_civil` gives a date its number, counted from the epoch. -/
theorem daysFromCivil_date (date : Date) (h : date.year ≤ 9999) :
    daysFromCivil date.year date.month date.day = some ((date.number : Int) - EPOCH) := by
  have hyear := date.year_pos
  have hmonth := date.month_mem
  obtain ⟨hday, hlast⟩ := date.day_mem
  have hday31 : date.day ≤ 31 := hlast.trans (monthLength_le _ _)
  have hmarchYear : (date.marchYear : Int) =
      if (date.month : Int) ≤ 2 then (date.year : Int) - 1 else date.year := by
    unfold Date.marchYear
    split <;> split <;> omega
  have hmarchMonth : (date.marchMonth : Int) =
      if (date.month : Int) ≤ 2 then (date.month : Int) + 9 else date.month - 3 := by
    unfold Date.marchMonth
    split <;> split <;> omega
  rw [daysFromCivil_eq_checked (by omega) (by omega) (by rw [daysInMonth_eq _ hmonth]; omega),
    ← hmarchYear, checkedMarchDays_eq (by split at hmarchYear <;> omega) hmarchMonth (by omega)
      (by omega), number_eq_marchDays]
  congr 1
  omega

/-- `days_from_civil` takes exactly the dates that exist. -/
theorem daysFromCivil_eq_some_iff {y m d : Nat} {z : Int} (hy : 1 ≤ y ∧ y ≤ 9999) :
    daysFromCivil y m d = some z ↔ ∃ date : Date, date.year = y ∧ date.month = m ∧
      date.day = d ∧ z = (date.number : Int) - EPOCH := by
  constructor
  · intro h
    have hchecks := h
    obtain ⟨hmonth, hchecks⟩ := ite_none_left_eq_some_iff.mp hchecks
    obtain ⟨hday, -⟩ := ite_none_left_eq_some_iff.mp hchecks
    have hmonth' : 1 ≤ m ∧ m ≤ 12 := by omega
    rw [daysInMonth_eq y hmonth'] at hday
    refine ⟨⟨y, m, d, hy.1, hmonth', by omega⟩, rfl, rfl, rfl, ?_⟩
    rw [daysFromCivil_date ⟨y, m, d, hy.1, hmonth', by omega⟩ hy.2] at h
    exact (Option.some.inj h).symm
  · rintro ⟨date, rfl, rfl, rfl, rfl⟩
    exact daysFromCivil_date date hy.2

end Saml.Time
