import Saml.Numeral
import Saml.Time.Calendar
import Mathlib.Data.List.TakeWhile
import Mathlib.Data.Rat.Floor
import Mathlib.Tactic.FieldSimp

/-!
# The lexical form of an instant

`YYYY-MM-DDTHH:MM:SS[.fff…][Z|±HH:MM]`: the texts of the form, the moments
they stand for, and what `parse_xs_datetime` makes of them.
-/

namespace Saml.Time

open Number Library.Gregorian

/-! ## The form -/

/-- The zone designator of a text. -/
inductive Zone
  | unspecified
  | utc
  | east (hours minutes : Str)
  | west (hours minutes : Str)

/-- A designator as it is written. -/
def Zone.text : Zone → Str
  | .unspecified => []
  | .utc => ['Z']
  | .east hours minutes => '+' :: (hours ++ ':' :: minutes)
  | .west hours minutes => '-' :: (hours ++ ':' :: minutes)

/-- The fields of a text, each as it is written. -/
structure Fields where
  year : Str
  month : Str
  day : Str
  hour : Str
  minute : Str
  second : Str
  fraction : Option Str
  zone : Zone

/-- The part of a second behind a point, when there is one. -/
def fractionText : Option Str → Str
  | none => []
  | some digits => '.' :: digits

namespace Fields

def date (f : Fields) : Str := f.year ++ '-' :: (f.month ++ '-' :: f.day)

def time (f : Fields) : Str :=
  f.hour ++ ':' :: (f.minute ++ ':' :: (f.second ++ fractionText f.fraction))

def text (f : Fields) : Str := f.date ++ 'T' :: (f.time ++ f.zone.text)

end Fields

/-- A date and a time of day, as far as a text of the form can give them: the
part below a second, and the seconds that the zone is ahead. -/
@[ext]
structure Moment where
  date : Date
  hour : Nat
  minute : Nat
  second : Nat
  fraction : ℚ
  offset : Int
  year_le : date.year ≤ 9999
  hour_le : hour ≤ 23
  minute_le : minute ≤ 59
  second_le : second ≤ 60
  fraction_mem : 0 ≤ fraction ∧ fraction < 1
  offset_mem : -53940 ≤ offset ∧ offset ≤ 53940

namespace Moment

/-- The whole seconds from the epoch. -/
def seconds (m : Moment) : Int :=
  ((m.date.number : Int) - EPOCH) * 86400 + (m.hour * 3600 + m.minute * 60 + m.second) - m.offset

/-- The instant, in seconds from the epoch. -/
def instant (m : Moment) : ℚ := m.seconds + m.fraction

/-- A leap second is read as the second before it. -/
def read (m : Moment) : Moment :=
  { m with second := min m.second 59, second_le := by omega }

end Moment

/-- A field of exactly so many digits. -/
def Fixed (width : Nat) (s : Str) (n : Int) : Prop :=
  s.length = width ∧ Digits s ∧ n = Nat.ofDigitChars 10 s 0

instance (width : Nat) (s : Str) (n : Int) : Decidable (Fixed width s n) :=
  inferInstanceAs (Decidable (_ ∧ (∀ c ∈ s, _) ∧ _))

/-- A field of any number of digits, behind a sign or not. -/
def Loose (_ : Nat) (s : Str) (n : Int) : Prop := Numeral true s n

/-- The digits behind the point, one or more, and their value. -/
inductive FractionForm : Option Str → ℚ → Prop
  | absent : FractionForm none 0
  | digits {s : Str} : s ≠ [] → Digits s →
      FractionForm (some s) ((Nat.ofDigitChars 10 s 0 : ℚ) / 10 ^ s.length)

/-- The offset of a designator, 14:59 at most. -/
inductive Zone.Denotes (form : Nat → Str → Int → Prop) : Zone → Int → Prop
  | unspecified : Zone.Denotes form .unspecified 0
  | utc : Zone.Denotes form .utc 0
  | east {hours minutes : Str} {h m : Int} : form 2 hours h → form 2 minutes m →
      h ≤ 14 → m ≤ 59 → Zone.Denotes form (.east hours minutes) (h * 3600 + m * 60)
  | west {hours minutes : Str} {h m : Int} : form 2 hours h → form 2 minutes m →
      h ≤ 14 → m ≤ 59 → Zone.Denotes form (.west hours minutes) (-(h * 3600 + m * 60))

/-- The fields of a moment, each number written in its form. -/
structure Fields.Denotes (form : Nat → Str → Int → Prop) (f : Fields) (m : Moment) : Prop where
  year : form 4 f.year m.date.year
  month : form 2 f.month m.date.month
  day : form 2 f.day m.date.day
  hour : form 2 f.hour m.hour
  minute : form 2 f.minute m.minute
  second : form 2 f.second m.second
  fraction : FractionForm f.fraction m.fraction
  zone : f.zone.Denotes form m.offset

/-- A field of exactly so many digits, whatever their value. -/
def OfWidth (width : Nat) (s : Str) : Prop := s.length = width ∧ Digits s

/-- A designator whose fields have two digits each. -/
def Zone.FixedWidth : Zone → Prop
  | .unspecified | .utc => True
  | .east hours minutes | .west hours minutes => OfWidth 2 hours ∧ OfWidth 2 minutes

/-- Fields of digits of the widths of the form, whatever their values. -/
structure Fields.FixedWidth (f : Fields) : Prop where
  year : OfWidth 4 f.year
  month : OfWidth 2 f.month
  day : OfWidth 2 f.day
  hour : OfWidth 2 f.hour
  minute : OfWidth 2 f.minute
  second : OfWidth 2 f.second
  fraction : ∀ digits, f.fraction = some digits → Digits digits
  zone : f.zone.FixedWidth

/-- The texts of the form, with what each stands for. -/
def IsDateTime (s : Str) (m : Moment) : Prop := ∃ f : Fields, s = f.text ∧ f.Denotes Fixed m

/-! ## The fields -/

theorem parseInt_eq_ok_iff {parse : Str → Except Str Int} {s field : Str} {n : Int} :
    parseInt parse s field = .ok n ↔ parse s = .ok n := by
  unfold parseInt
  split
  next h => rw [h]; simp only [Except.ok.injEq]
  next h => simp [h, invalid]

/-- A field of digits is its value, where the type holds it. -/
theorem parsePrimitive_fixed_iff {low high n : Int} {width : Nat} {s : Str} (hlow : low ≤ 0)
    (hwidth : 0 < width) (hhigh : 10 ^ width ≤ high) (h : OfWidth width s) :
    parsePrimitive low high s = .ok n ↔ Fixed width s n := by
  obtain ⟨hlength, hdigits⟩ := h
  have hne : s ≠ [] := by
    rintro rfl
    rw [← hlength] at hwidth
    exact absurd hwidth (by decide)
  have hlt : ((Nat.ofDigitChars 10 s 0 : Nat) : Int) < 10 ^ width := by
    have hlt := ofDigitChars_lt hdigits
    rw [hlength] at hlt
    exact_mod_cast hlt
  have hpos : (0 : Int) < 10 ^ width := by positivity
  rw [parsePrimitive_eq_ok_iff hlow (by omega)]
  constructor
  · rintro ⟨hnumeral, -⟩
    cases hnumeral with
    | plain => exact ⟨hlength, hdigits, rfl⟩
    | plus => exact absurd rfl (ne_sign_of_digits hdigits _).1
    | minus => exact absurd rfl (ne_sign_of_digits hdigits _).2
  · rintro ⟨-, -, rfl⟩
    exact ⟨.plain hne hdigits, by omega, by omega⟩

theorem numeral_iff_fixed {width : Nat} {s : Str} {n : Int} (hwidth : 0 < width)
    (h : OfWidth width s) : Numeral true s n ↔ Fixed width s n := by
  obtain ⟨hlength, hdigits⟩ := h
  constructor
  · intro hnumeral
    cases hnumeral with
    | plain => exact ⟨hlength, hdigits, rfl⟩
    | plus => exact absurd rfl (ne_sign_of_digits hdigits _).1
    | minus => exact absurd rfl (ne_sign_of_digits hdigits _).2
  · rintro ⟨-, -, rfl⟩
    refine .plain ?_ hdigits
    rintro rfl
    rw [← hlength] at hwidth
    exact absurd hwidth (by decide)

/-- What any of the integer types reads is a numeral. -/
theorem loose_of_parsePrimitive {low high n : Int} {s : Str} (hlow : low ≤ 0) (hhigh : 0 ≤ high)
    (width : Nat) (h : parsePrimitive low high s = .ok n) : Loose width s n :=
  ((parsePrimitive_eq_ok_iff hlow hhigh).mp h).1.signed

theorem takeWhile_ne_append {s rest : Str} {c : Char} (h : c ∉ s) :
    (s ++ c :: rest).takeWhile (· ≠ c) = s := by
  have hs : ∀ a ∈ s, decide (a ≠ c) = true := by
    intro a ha
    exact decide_eq_true (by rintro rfl; exact h ha)
  rw [List.takeWhile_append_of_pos hs, List.takeWhile_cons_of_neg (by simp), List.append_nil]

theorem dropWhile_ne_append {s rest : Str} {c : Char} (h : c ∉ s) :
    (s ++ c :: rest).dropWhile (· ≠ c) = c :: rest := by
  have hs : ∀ a ∈ s, decide (a ≠ c) = true := by
    intro a ha
    exact decide_eq_true (by rintro rfl; exact h ha)
  rw [List.dropWhile_append_of_pos hs, List.dropWhile_cons_of_neg (by simp)]

theorem dropWhile_ne_eq_nil {s : Str} {c : Char} (h : c ∉ s) : s.dropWhile (· ≠ c) = [] := by
  apply List.dropWhile_eq_nil_iff.mpr
  intro a ha
  exact decide_eq_true (by rintro rfl; exact h ha)

/-- A text is cut at the first place of a character. -/
theorem eq_append_of_dropWhile {s rest : Str} {c d : Char} (h : s.dropWhile (· ≠ c) = d :: rest) :
    d = c ∧ s = s.takeWhile (· ≠ c) ++ c :: rest := by
  have hd : d = c := by
    have hhead := List.head?_dropWhile_not (fun a => decide (a ≠ c)) s
    rw [h] at hhead
    simpa using hhead
  subst hd
  exact ⟨rfl, by rw [← h, List.takeWhile_append_dropWhile]⟩

theorem notMem_takeWhile_ne (s : Str) (c : Char) : c ∉ s.takeWhile (· ≠ c) := by
  intro h
  have hne := List.mem_takeWhile_imp h
  simp at hne

theorem ofDigitChars_append_eq (s t : Str) :
    Nat.ofDigitChars 10 (s ++ t) 0 =
      Nat.ofDigitChars 10 s 0 * 10 ^ t.length + Nat.ofDigitChars 10 t 0 := by
  rw [Nat.ofDigitChars_append, Nat.ofDigitChars_eq_ofDigitChars_zero, Nat.mul_comm]

/-- The nine digits that are kept give the fraction in whole nanoseconds. -/
theorem ofDigitChars_nine {s : Str} (hs : Digits s) :
    Nat.ofDigitChars 10 (s.take 9 ++ List.replicate (9 - s.length) '0') 0 =
      Nat.ofDigitChars 10 s 0 * NANOS / 10 ^ s.length := by
  have hpos : 0 < 10 ^ s.length := Nat.pow_pos (by decide)
  by_cases hle : s.length ≤ 9
  · have hsplit : NANOS = 10 ^ (9 - s.length) * 10 ^ s.length := by
      rw [← Nat.pow_add, Nat.sub_add_cancel hle]
      rfl
    rw [List.take_of_length_le hle, Nat.ofDigitChars_append, Nat.ofDigitChars_replicate_zero,
      hsplit, ← Nat.mul_assoc, Nat.mul_div_cancel _ hpos, Nat.mul_comm]
  · have hdrop : Nat.ofDigitChars 10 (s.drop 9) 0 < 10 ^ (s.length - 9) := by
      rw [← List.length_drop]
      exact ofDigitChars_lt fun c hc => hs c (List.mem_of_mem_drop hc)
    have hlength : 10 ^ s.length = 10 ^ (s.length - 9) * NANOS := by
      change _ = _ * 10 ^ 9
      rw [← Nat.pow_add, Nat.sub_add_cancel (by omega)]
    have hvalue : Nat.ofDigitChars 10 s 0 = Nat.ofDigitChars 10 (s.take 9) 0 *
        10 ^ (s.length - 9) + Nat.ofDigitChars 10 (s.drop 9) 0 := by
      rw [← List.length_drop, ← ofDigitChars_append_eq, List.take_append_drop]
    rw [show 9 - s.length = 0 by omega, List.replicate_zero, List.append_nil, hlength,
      Nat.mul_div_mul_right _ _ (by decide), hvalue, Nat.mul_comm, Nat.mul_add_div (by positivity),
      Nat.div_eq_of_lt hdrop, Nat.add_zero]

/-- The fractions that are read, truncated to nanoseconds. -/
theorem parseFractionToNanos_eq_ok_iff {s : Str} {n : Int} :
    parseFractionToNanos s = .ok n ↔
      s ≠ [] ∧ Digits s ∧ n = ((Nat.ofDigitChars 10 s 0 * NANOS / 10 ^ s.length : Nat) : Int) := by
  have hall : s.all (digit · |>.isSome) = true ↔ Digits s := by
    simp only [List.all_eq_true, digit_isSome_iff, Digits]
  unfold parseFractionToNanos
  by_cases hbad : s = [] ∨ ¬ s.all (digit · |>.isSome) = true
  · rw [if_pos hbad]
    simp only [invalid, reduceCtorEq, false_iff, not_and]
    intro hne hdigits
    rcases hbad with rfl | hbad
    · exact absurd rfl hne
    · exact absurd (hall.mpr hdigits) hbad
  · rw [if_neg hbad]
    obtain ⟨hne, hdigits⟩ := not_or.mp hbad
    rw [not_not, hall] at hdigits
    rw [and_iff_right hne, and_iff_right hdigits, ← ofDigitChars_nine hdigits]
    have hwidth : OfWidth 9 (s.take 9 ++ List.replicate (9 - s.length) '0') := by
      refine ⟨by simp; omega, digits_append.mpr ⟨?_, ?_⟩⟩
      · exact fun c hc => hdigits c (List.mem_of_mem_take hc)
      · intro c hc
        rw [List.eq_of_mem_replicate hc]
        rfl
    have hread := (@parsePrimitive_fixed_iff 0 (2 ^ 32 - 1) _ 9 _ (Int.le_refl 0) (by decide)
      (by decide) hwidth).mpr ⟨hwidth.1, hwidth.2, rfl⟩
    dsimp only
    rw [parseU32, hread]
    dsimp only
    rw [Except.ok.injEq, eq_comm]

/-- The second and its fraction, which is cut off at the point. -/
theorem parseSecond_eq_ok_iff {second : Str} {fraction : Option Str} {n nanos : Int}
    (hpoint : '.' ∉ second) :
    parseSecond (second ++ fractionText fraction) = .ok (n, nanos) ↔ parseU32 second = .ok n ∧
      (fraction.elim (.ok 0) parseFractionToNanos : Result Int) = .ok nanos := by
  unfold parseSecond
  cases fraction with
  | none =>
    rw [fractionText, List.append_nil, dropWhile_ne_eq_nil hpoint]
    simp only [bind_eq_ok_iff, parseInt_eq_ok_iff, Option.elim_none, Except.ok.injEq,
      Prod.mk.injEq]
    constructor
    · rintro ⟨n', hn, rfl, rfl⟩
      exact ⟨hn, rfl⟩
    · rintro ⟨hn, rfl⟩
      exact ⟨n, hn, rfl, rfl⟩
  | some digits =>
    rw [fractionText, dropWhile_ne_append hpoint, takeWhile_ne_append hpoint]
    simp only [bind_eq_ok_iff, parseInt_eq_ok_iff, Option.elim_some, Except.ok.injEq,
      Prod.mk.injEq]
    constructor
    · rintro ⟨nanos', hnanos, n', hn, rfl, rfl⟩
      exact ⟨hn, hnanos⟩
    · rintro ⟨hn, hnanos⟩
      exact ⟨nanos, hnanos, n, hn, rfl, rfl⟩

theorem exists_fractionText (s : Str) :
    ∃ second fraction, '.' ∉ second ∧ s = second ++ fractionText fraction := by
  rcases hdrop : s.dropWhile (· ≠ '.') with _ | ⟨d, digits⟩
  · refine ⟨s, none, ?_, by rw [fractionText, List.append_nil]⟩
    intro hmem
    have hne := List.dropWhile_eq_nil_iff.mp hdrop '.' hmem
    simp at hne
  · obtain ⟨rfl, hs⟩ := eq_append_of_dropWhile hdrop
    exact ⟨s.takeWhile (· ≠ '.'), some digits, notMem_takeWhile_ne _ _, hs⟩

/-- The date of a text of three fields. -/
theorem parseDate_eq_ok_iff {year month day : Str} {y m d : Int} (hyear : '-' ∉ year)
    (hmonth : '-' ∉ month) (hday : '-' ∉ day) :
    parseDate (year ++ '-' :: (month ++ '-' :: day)) = .ok (y, m, d) ↔
      (parseI32 year = .ok y ∧ parseU32 month = .ok m ∧ parseU32 day = .ok d) ∧
        (1 ≤ y ∧ y ≤ 9999) ∧ (1 ≤ m ∧ m ≤ 12) ∧ 1 ≤ d ∧ d ≤ 31 := by
  unfold parseDate
  rw [Text.splitOn_three hyear hmonth hday]
  simp only [bind_eq_ok_iff, parseInt_eq_ok_iff]
  constructor
  · rintro ⟨y', hy, m', hm, d', hd, h⟩
    obtain ⟨hyear, h⟩ := ite_error_eq_ok_iff.mp h
    obtain ⟨hmonth, h⟩ := ite_error_eq_ok_iff.mp h
    obtain ⟨hday, h⟩ := ite_error_eq_ok_iff.mp h
    cases h
    exact ⟨⟨hy, hm, hd⟩, not_not.mp hyear, not_not.mp hmonth, not_not.mp hday⟩
  · rintro ⟨⟨hy, hm, hd⟩, hyear, hmonth, hday⟩
    refine ⟨y, hy, m, hm, d, hd, ?_⟩
    rw [if_neg (not_not.mpr hyear), if_neg (not_not.mpr hmonth), if_neg (not_not.mpr hday)]

theorem exists_dateText {s : Str} {date : Int × Int × Int} (h : parseDate s = .ok date) :
    ∃ year month day, s = year ++ '-' :: (month ++ '-' :: day) ∧
      '-' ∉ year ∧ '-' ∉ month ∧ '-' ∉ day := by
  unfold parseDate at h
  split at h
  next year month day hsplit => exact ⟨year, month, day, Text.splitOn_eq_three hsplit⟩
  next => cases h

/-- The time of a text of three fields, the second read as the 59th at most. -/
theorem parseTime_eq_ok_iff {hour minute second : Str} {fraction : Option Str}
    {h m s n : Int} (hhour : ':' ∉ hour) (hminute : ':' ∉ minute)
    (hsecond : ':' ∉ second ++ fractionText fraction) (hpoint : '.' ∉ second) :
    parseTime (hour ++ ':' :: (minute ++ ':' :: (second ++ fractionText fraction))) =
        .ok (h, m, s, n) ↔
      ∃ written, parseU32 hour = .ok h ∧ parseU32 minute = .ok m ∧
        parseU32 second = .ok written ∧
        (fraction.elim (.ok 0) parseFractionToNanos : Result Int) = .ok n ∧
        h ≤ 23 ∧ m ≤ 59 ∧ written ≤ 60 ∧ s = min written 59 := by
  unfold parseTime
  rw [Text.splitOn_three hhour hminute hsecond]
  simp only [bind_eq_ok_iff, parseInt_eq_ok_iff]
  constructor
  · rintro ⟨h', hh, m', hm, ⟨written, n'⟩, hs, hok⟩
    obtain ⟨hhour, hok⟩ := ite_error_eq_ok_iff.mp hok
    obtain ⟨hminute, hok⟩ := ite_error_eq_ok_iff.mp hok
    obtain ⟨hsecond, hok⟩ := ite_error_eq_ok_iff.mp hok
    cases hok
    obtain ⟨hs, hn⟩ := (parseSecond_eq_ok_iff hpoint).mp hs
    exact ⟨written, hh, hm, hs, hn, by omega, by omega, by omega, rfl⟩
  · rintro ⟨written, hh, hm, hs, hn, hhour, hminute, hsecond, rfl⟩
    refine ⟨h, hh, m, hm, ⟨written, n⟩, (parseSecond_eq_ok_iff hpoint).mpr ⟨hs, hn⟩, ?_⟩
    dsimp only
    rw [if_neg (by omega), if_neg (by omega), if_neg (by omega)]

theorem exists_timeText {s : Str} {time : Int × Int × Int × Int} (h : parseTime s = .ok time) :
    ∃ hour minute second fraction,
      s = hour ++ ':' :: (minute ++ ':' :: (second ++ fractionText fraction)) ∧
        ':' ∉ hour ∧ ':' ∉ minute ∧ ':' ∉ second ++ fractionText fraction ∧ '.' ∉ second := by
  unfold parseTime at h
  split at h
  next hour minute secondS hsplit =>
    obtain ⟨rfl, hhour, hminute, hsecond⟩ := Text.splitOn_eq_three hsplit
    obtain ⟨second, fraction, hpoint, rfl⟩ := exists_fractionText secondS
    exact ⟨hour, minute, second, fraction, rfl, hhour, hminute, hsecond, hpoint⟩
  next => cases h

/-! ## The zone -/

theorem splitAtByte_append (a b : Str) : splitAtByte (Text.byteLen a) (a ++ b) = some (a, b) := by
  induction a with
  | nil => rw [Text.byteLen_nil, List.nil_append, splitAtByte]
  | cons c a ih =>
    have hpos := Char.utf8Size_pos c
    obtain ⟨n, hn⟩ := Nat.exists_eq_add_of_le' (hpos.trans_le (Nat.le_add_right _ (Text.byteLen a)))
    rw [Text.byteLen_cons, hn, List.cons_append, splitAtByte, if_pos (by omega), ← hn,
      Nat.add_sub_cancel_left, ih]
    rfl

theorem eq_append_of_splitAtByte {n : Nat} {s a b : Str} (h : splitAtByte n s = some (a, b)) :
    s = a ++ b ∧ Text.byteLen a = n := by
  induction s generalizing n a with
  | nil =>
    cases n with
    | zero =>
      rw [splitAtByte] at h
      cases h
      exact ⟨rfl, rfl⟩
    | succ n =>
      rw [splitAtByte] at h
      cases h
  | cons c s ih =>
    cases n with
    | zero =>
      rw [splitAtByte] at h
      cases h
      exact ⟨rfl, rfl⟩
    | succ n =>
      rw [splitAtByte] at h
      split at h
      next hle =>
        obtain ⟨⟨a', b'⟩, hrest, heq⟩ := Option.map_eq_some_iff.mp h
        cases heq
        obtain ⟨rfl, hlen⟩ := ih hrest
        refine ⟨rfl, ?_⟩
        rw [Text.byteLen_cons, hlen]
        omega
      next => cases h

theorem byteLen_digits {s : Str} (h : Digits s) : Text.byteLen s = s.length := by
  induction s with
  | nil => rfl
  | cons c s ih =>
    obtain ⟨hc, hs⟩ := digits_cons.mp h
    have hrange : 48 ≤ c.toNat ∧ c.toNat ≤ 57 := by
      simpa [Char.isDigit, UInt32.le_iff_toNat_le] using hc
    have hsize : c.utf8Size = 1 := by
      rw [Char.utf8Size_eq_one_iff]
      have hval : c.toNat = c.val.toNat := rfl
      rw [UInt32.le_iff_toNat_le]
      change c.val.toNat ≤ 127
      omega
    rw [Text.byteLen_cons, ih hs, hsize, List.length_cons, Nat.add_comm]

/-- The designator that the last six bytes are, cut into its fields. -/
theorem offsetDesignator_eq_some_iff {candidate hours minutes : Str} {sign : Char} :
    offsetDesignator candidate = some (sign, hours, minutes) ↔
      (sign = '+' ∨ sign = '-') ∧ candidate = sign :: (hours ++ ':' :: minutes) ∧
        Text.byteLen hours = 2 := by
  constructor
  · intro h
    unfold offsetDesignator at h
    split at h
    · cases h
    next sign' rest =>
      split at h
      next hsign =>
        split at h
        next hh mm hsplit =>
          cases h
          obtain ⟨rfl, hlen⟩ := eq_append_of_splitAtByte hsplit
          exact ⟨hsign, rfl, hlen⟩
        next => cases h
      next => cases h
  · rintro ⟨hsign, rfl, hlen⟩
    rw [offsetDesignator, if_pos hsign, ← hlen, splitAtByte_append]
    rfl

/-- A text of no sign has no offset. -/
theorem splitOffset_unspecified {s : Str} (hlast : s.getLast? ≠ some 'Z') (hplus : '+' ∉ s)
    (hminus : '-' ∉ s) : splitOffset s = .ok (s, 0) := by
  unfold splitOffset
  rw [if_neg hlast]
  split
  · rfl
  · split
    · rfl
    next timeOnly candidate hsplit =>
      obtain ⟨rfl, -⟩ := eq_append_of_splitAtByte hsplit
      split
      · rfl
      next sign hours minutes hdesignator =>
        obtain ⟨hsign, rfl, -⟩ := offsetDesignator_eq_some_iff.mp hdesignator
        rcases hsign with rfl | rfl
        · exact absurd (List.mem_append_right _ (List.mem_cons_self ..)) hplus
        · exact absurd (List.mem_append_right _ (List.mem_cons_self ..)) hminus

/-- The offset of a written instant is zero. -/
theorem splitOffset_zulu (s : Str) : splitOffset (s ++ ['Z']) = .ok (s, 0) := by
  rw [splitOffset, if_pos List.getLast?_concat, List.dropLast_concat]

/-- A numeral of two bytes has one digit behind a sign. -/
theorem numeral_bounds {signed : Bool} {s : Str} {n : Int} (h : Numeral signed s n)
    (hlen : Text.byteLen s = 2) : -9 ≤ n ∧ n ≤ 99 := by
  cases h with
  | plain hne hs =>
    have hlt := ofDigitChars_lt hs
    rw [byteLen_digits hs] at hlen
    rw [hlen] at hlt
    omega
  | @plus rest hne hs =>
    have hlt := ofDigitChars_lt hs
    rw [Text.byteLen_cons, byteLen_digits hs, show '+'.utf8Size = 1 from rfl] at hlen
    rw [show rest.length = 1 by omega] at hlt
    omega
  | @minus rest _ hne hs =>
    have hlt := ofDigitChars_lt hs
    rw [Text.byteLen_cons, byteLen_digits hs, show '-'.utf8Size = 1 from rfl] at hlen
    rw [show rest.length = 1 by omega] at hlt
    omega

/-- An explicit offset: its hours and minutes in range, then its sign. -/
theorem splitOffset_sign_eq_ok_iff {time seg hours minutes : Str} {sign : Char} {offset : Int}
    (hsign : sign = '+' ∨ sign = '-') (hhours : Text.byteLen hours = 2)
    (hminutes : Text.byteLen minutes = 2) (hlast : minutes.getLast? ≠ some 'Z') :
    splitOffset (time ++ sign :: (hours ++ ':' :: minutes)) = .ok (seg, offset) ↔
      seg = time ∧ ∃ h m, Numeral true hours h ∧ Numeral true minutes m ∧ h ≤ 14 ∧ m ≤ 59 ∧
        offset = if sign = '-' then -(h * 3600 + m * 60) else h * 3600 + m * 60 := by
  have hsize : Text.byteLen (sign :: (hours ++ ':' :: minutes)) = 6 := by
    have hone : sign.utf8Size = 1 := by rcases hsign with rfl | rfl <;> rfl
    simp only [Text.byteLen_cons, Text.byteLen_append, hone, hhours, hminutes]
    rfl
  have hne : minutes ≠ [] := by
    rintro rfl
    cases hminutes
  have hlast' : (time ++ sign :: (hours ++ ':' :: minutes)).getLast? ≠ some 'Z' := by
    rw [show time ++ sign :: (hours ++ ':' :: minutes) =
      (time ++ sign :: (hours ++ [':'])) ++ minutes by simp, List.getLast?_append_of_ne_nil _ hne]
    exact hlast
  have hnumeral : ∀ {s : Str} {n : Int}, Text.byteLen s = 2 →
      (parseI64 s = .ok n ↔ Numeral true s n) := by
    intro s n hlen
    rw [parseI64, parsePrimitive_eq_ok_iff (by decide) (by decide)]
    constructor
    · rintro ⟨h, -⟩
      exact h
    · intro h
      have hbounds := numeral_bounds h hlen
      exact ⟨h, by omega, by omega⟩
  unfold splitOffset
  rw [if_neg hlast', Text.byteLen_append, hsize, if_neg (by omega), Nat.add_sub_cancel,
    splitAtByte_append]
  dsimp only
  rw [offsetDesignator_eq_some_iff.mpr ⟨hsign, rfl, hhours⟩]
  simp only [bind_eq_ok_iff, parseInt_eq_ok_iff, hnumeral hhours, hnumeral hminutes]
  constructor
  · rintro ⟨h, hh, m, hm, hok⟩
    obtain ⟨hrange, hok⟩ := ite_error_eq_ok_iff.mp hok
    obtain ⟨hhSecs, h1, hok⟩ := bind_eq_ok_iff.mp hok
    obtain ⟨mmSecs, h2, hok⟩ := bind_eq_ok_iff.mp hok
    obtain ⟨total, h3, hok⟩ := bind_eq_ok_iff.mp hok
    have e1 := i64_eq (okOr_eq_ok_iff.mp h1)
    have e2 := i64_eq (okOr_eq_ok_iff.mp h2)
    have e3 := i64_eq (okOr_eq_ok_iff.mp h3)
    split at hok
    next hwest =>
      obtain ⟨signed, h4, hok⟩ := bind_eq_ok_iff.mp hok
      cases hok
      refine ⟨rfl, h, m, hh, hm, by omega, by omega, ?_⟩
      rw [if_pos hwest, i64_eq (okOr_eq_ok_iff.mp h4), e3, e1, e2]
    next hwest =>
      cases hok
      refine ⟨rfl, h, m, hh, hm, by omega, by omega, ?_⟩
      rw [if_neg hwest, e3, e1, e2]
  · rintro ⟨rfl, h, m, hh, hm, hh14, hm59, rfl⟩
    have hbh := numeral_bounds hh hhours
    have hbm := numeral_bounds hm hminutes
    refine ⟨h, hh, m, hm, ?_⟩
    rw [if_neg (by omega)]
    refine bind_eq_ok_iff.mpr ⟨_, okOr_eq_ok_iff.mpr (i64_eq_some (by omega)), ?_⟩
    refine bind_eq_ok_iff.mpr ⟨_, okOr_eq_ok_iff.mpr (i64_eq_some (by omega)), ?_⟩
    refine bind_eq_ok_iff.mpr ⟨_, okOr_eq_ok_iff.mpr (i64_eq_some (by omega)), ?_⟩
    split
    · exact bind_eq_ok_iff.mpr ⟨_, okOr_eq_ok_iff.mpr (i64_eq_some (by omega)), rfl⟩
    · rfl

theorem zone_offset_bounds {hours minutes : Str} {h m : Int} (hh : Numeral true hours h)
    (hm : Numeral true minutes m) (hhours : Text.byteLen hours = 2)
    (hminutes : Text.byteLen minutes = 2) (h14 : h ≤ 14) (h59 : m ≤ 59) :
    -53940 ≤ h * 3600 + m * 60 ∧ h * 3600 + m * 60 ≤ 53940 := by
  have hbh := numeral_bounds hh hhours
  have hbm := numeral_bounds hm hminutes
  omega

/-- Whatever is split off is a designator, loosely written. -/
theorem zone_of_splitOffset {s seg : Str} {offset : Int} (h : splitOffset s = .ok (seg, offset)) :
    ∃ zone : Zone, s = seg ++ zone.text ∧ zone.Denotes Loose offset ∧
      -53940 ≤ offset ∧ offset ≤ 53940 := by
  have hcopy := h
  unfold splitOffset at h
  split at h
  next hlast =>
    cases h
    refine ⟨.utc, ?_, .utc, by decide, by decide⟩
    obtain ⟨init, rfl⟩ := List.getLast?_eq_some_iff.mp hlast
    rw [List.dropLast_concat]
    rfl
  next hlast =>
    have hnone : ∀ {s' : Str}, (.ok (s', 0) : Result (Str × Int)) = .ok (seg, offset) →
        ∃ zone : Zone, s' = seg ++ zone.text ∧ zone.Denotes Loose offset ∧
          -53940 ≤ offset ∧ offset ≤ 53940 := by
      rintro s' heq
      cases heq
      exact ⟨.unspecified, (List.append_nil _).symm, .unspecified, by decide, by decide⟩
    split at h
    · exact hnone h
    next hlen =>
      split at h
      · exact hnone h
      next timeOnly candidate hsplit =>
        split at h
        · exact hnone h
        next sign hours minutes hdesignator =>
          obtain ⟨rfl, hbefore⟩ := eq_append_of_splitAtByte hsplit
          obtain ⟨hsign, rfl, hhours⟩ := offsetDesignator_eq_some_iff.mp hdesignator
          have hone : sign.utf8Size = 1 := by rcases hsign with rfl | rfl <;> rfl
          have hminutes : Text.byteLen minutes = 2 := by
            simp only [Text.byteLen_append, Text.byteLen_cons, hone, hhours,
              show ':'.utf8Size = 1 from rfl] at hbefore hlen
            omega
          have hne : minutes ≠ [] := by
            rintro rfl
            cases hminutes
          have hlast' : minutes.getLast? ≠ some 'Z' := by
            rw [show timeOnly ++ sign :: (hours ++ ':' :: minutes) =
              (timeOnly ++ sign :: (hours ++ [':'])) ++ minutes by simp,
              List.getLast?_append_of_ne_nil _ hne] at hlast
            exact hlast
          obtain ⟨rfl, hh, mm, hhh, hmm, h14, h59, rfl⟩ :=
            (splitOffset_sign_eq_ok_iff hsign hhours hminutes hlast').mp hcopy
          have hbounds := zone_offset_bounds hhh hmm hhours hminutes h14 h59
          rcases hsign with rfl | rfl
          · refine ⟨.east hours minutes, rfl, ?_, ?_⟩
            · rw [if_neg (by decide)]
              exact .east hhh hmm h14 h59
            · rw [if_neg (by decide)]
              exact hbounds
          · refine ⟨.west hours minutes, rfl, ?_, ?_⟩
            · rw [if_pos rfl]
              exact .west hhh hmm h14 h59
            · rw [if_pos rfl]
              omega

theorem getLast?_ne_of_digits {s : Str} (hs : Digits s) : s.getLast? ≠ some 'Z' := by
  intro h
  have hdigit := hs 'Z' (List.mem_of_getLast? h)
  cases hdigit

/-- A designator of fixed width is split off, when its offset is in range. -/
theorem splitOffset_fixed_eq_ok_iff {time seg : Str} {zone : Zone} {offset : Int}
    (hzone : zone.FixedWidth) (hlast : time.getLast? ≠ some 'Z') (hplus : '+' ∉ time)
    (hminus : '-' ∉ time) :
    splitOffset (time ++ zone.text) = .ok (seg, offset) ↔
      seg = time ∧ zone.Denotes Fixed offset := by
  have hlen : ∀ {s : Str}, OfWidth 2 s → Text.byteLen s = 2 := by
    rintro s ⟨hlength, hs⟩
    rw [byteLen_digits hs, hlength]
  cases zone with
  | unspecified =>
    rw [Zone.text, List.append_nil, splitOffset_unspecified hlast hplus hminus, Except.ok.injEq,
      Prod.mk.injEq, eq_comm]
    constructor
    · rintro ⟨rfl, rfl⟩
      exact ⟨rfl, .unspecified⟩
    · rintro ⟨rfl, ⟨⟩⟩
      exact ⟨rfl, rfl⟩
  | utc =>
    rw [Zone.text, splitOffset_zulu, Except.ok.injEq, Prod.mk.injEq, eq_comm]
    constructor
    · rintro ⟨rfl, rfl⟩
      exact ⟨rfl, .utc⟩
    · rintro ⟨rfl, ⟨⟩⟩
      exact ⟨rfl, rfl⟩
  | east hours minutes =>
    obtain ⟨hhours, hminutes⟩ := hzone
    rw [Zone.text, splitOffset_sign_eq_ok_iff (.inl rfl) (hlen hhours) (hlen hminutes)
      (getLast?_ne_of_digits hminutes.2)]
    simp only [numeral_iff_fixed (by decide) hhours, numeral_iff_fixed (by decide) hminutes]
    constructor
    · rintro ⟨rfl, h, m, hh, hm, h14, h59, rfl⟩
      exact ⟨rfl, .east hh hm h14 h59⟩
    · rintro ⟨rfl, hdenotes⟩
      cases hdenotes with
      | east hh hm h14 h59 => exact ⟨rfl, _, _, hh, hm, h14, h59, rfl⟩
  | west hours minutes =>
    obtain ⟨hhours, hminutes⟩ := hzone
    rw [Zone.text, splitOffset_sign_eq_ok_iff (.inr rfl) (hlen hhours) (hlen hminutes)
      (getLast?_ne_of_digits hminutes.2)]
    simp only [numeral_iff_fixed (by decide) hhours, numeral_iff_fixed (by decide) hminutes]
    constructor
    · rintro ⟨rfl, h, m, hh, hm, h14, h59, rfl⟩
      exact ⟨rfl, .west hh hm h14 h59⟩
    · rintro ⟨rfl, hdenotes⟩
      cases hdenotes with
      | west hh hm h14 h59 => exact ⟨rfl, _, _, hh, hm, h14, h59, rfl⟩

end Saml.Time
