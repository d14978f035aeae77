import Saml.Number
import Mathlib.Data.List.Induction

/-!
# Numerals

The texts that the integer parser accepts: a run of digits, after a sign or
not, whose value the type holds.
-/

namespace Saml.Number

theorem digit_of_isDigit {c : Char} (h : c.isDigit = true) :
    digit c = some (c.toNat - '0'.toNat) := by
  unfold digit
  rw [if_pos]
  simpa [Char.isDigit, Char.le_def] using h

theorem digit_isSome_iff {c : Char} : (digit c).isSome = true ↔ c.isDigit = true := by
  unfold digit
  simp only [Char.isDigit, Char.le_def]
  split
  next h => simpa using h
  next h => simpa using h

theorem isDigit_of_not_isNone {c : Char} (h : ¬ (digit c).isNone = true) : c.isDigit = true := by
  rwa [Bool.not_eq_true, Option.isNone_eq_false_iff, digit_isSome_iff] at h

theorem isDigit_of_digit {c : Char} {d : Nat} (h : digit c = some d) :
    c.isDigit = true ∧ d = c.toNat - '0'.toNat := by
  have hc : c.isDigit = true := digit_isSome_iff.mp (by rw [h]; rfl)
  rw [digit_of_isDigit hc] at h
  exact ⟨hc, (Option.some.inj h).symm⟩

theorem le_ofDigitChars (s : Str) : ∀ acc : Nat, acc ≤ Nat.ofDigitChars 10 s acc := by
  induction s with
  | nil =>
    intro acc
    rw [Nat.ofDigitChars_nil]
  | cons c s ih =>
    intro acc
    rw [Nat.ofDigitChars_cons]
    calc
      acc ≤ 10 * acc + (c.toNat - '0'.toNat) := by omega
      _ ≤ _ := ih _

/-- A run of digits. -/
def Digits (s : Str) : Prop := ∀ c ∈ s, c.isDigit = true

theorem digits_cons {c : Char} {s : Str} : Digits (c :: s) ↔ c.isDigit = true ∧ Digits s :=
  List.forall_mem_cons

theorem digits_append {s t : Str} : Digits (s ++ t) ↔ Digits s ∧ Digits t :=
  List.forall_mem_append

/-- The digit loop without a sign: digits whose value stays under the bound. -/
theorem parseDigits_eq_ok_iff {low high n : Int} {s : Str} (hlow : low ≤ 0) :
    ∀ {acc : Nat}, (acc : Int) ≤ high → (parseDigits false low high acc s = .ok n ↔
      Digits s ∧ n = Nat.ofDigitChars 10 s acc ∧ n ≤ high) := by
  induction s with
  | nil =>
    intro acc hacc
    rw [parseDigits, Nat.ofDigitChars_nil]
    constructor
    · intro h
      cases h
      exact ⟨by simp [Digits], rfl, hacc⟩
    · rintro ⟨-, rfl, -⟩
      rfl
  | cons c s ih =>
    intro acc hacc
    rw [parseDigits, digits_cons, Nat.ofDigitChars_cons]
    rcases hd : digit c with _ | d
    · have hc : ¬ c.isDigit = true := by
        rw [← digit_isSome_iff, hd]
        exact Bool.false_ne_true
      simp [hc]
    · obtain ⟨hc, rfl⟩ := isDigit_of_digit hd
      have hnext : ((acc : Int) * 10 + ((c.toNat - '0'.toNat : Nat) : Int)) =
          ((10 * acc + (c.toNat - '0'.toNat) : Nat) : Int) := by
        omega
      have hle := le_ofDigitChars s (10 * acc + (c.toNat - '0'.toNat))
      simp only [Bool.false_eq_true, if_false, hnext]
      by_cases hbound : high < ((10 * acc + (c.toNat - '0'.toNat) : Nat) : Int)
      · rw [if_pos hbound]
        simp only [reduceCtorEq, false_iff, not_and]
        intro _ hn
        omega
      · rw [if_neg hbound, if_neg (by omega), ih (by omega), and_iff_right hc]

/-- The digit loop behind a minus sign. -/
theorem parseDigits_negative_eq_ok_iff {low high n : Int} {s : Str} (hhigh : 0 ≤ high) :
    ∀ {acc : Nat}, low ≤ -(acc : Int) → (parseDigits true low high (-(acc : Int)) s = .ok n ↔
      Digits s ∧ n = -(Nat.ofDigitChars 10 s acc : Int) ∧ low ≤ n) := by
  induction s with
  | nil =>
    intro acc hacc
    rw [parseDigits, Nat.ofDigitChars_nil]
    constructor
    · intro h
      cases h
      exact ⟨by simp [Digits], rfl, hacc⟩
    · rintro ⟨-, rfl, -⟩
      rfl
  | cons c s ih =>
    intro acc hacc
    rw [parseDigits, digits_cons, Nat.ofDigitChars_cons]
    rcases hd : digit c with _ | d
    · have hc : ¬ c.isDigit = true := by
        rw [← digit_isSome_iff, hd]
        exact Bool.false_ne_true
      simp [hc]
    · obtain ⟨hc, rfl⟩ := isDigit_of_digit hd
      have hnext : (-(acc : Int) * 10 - ((c.toNat - '0'.toNat : Nat) : Int)) =
          -((10 * acc + (c.toNat - '0'.toNat) : Nat) : Int) := by
        omega
      have hle := le_ofDigitChars s (10 * acc + (c.toNat - '0'.toNat))
      simp only [if_true, hnext]
      rw [if_neg (by omega)]
      by_cases hbound : -((10 * acc + (c.toNat - '0'.toNat) : Nat) : Int) < low
      · rw [if_pos hbound]
        simp only [reduceCtorEq, false_iff, not_and]
        intro _ hn
        omega
      · rw [if_neg hbound, ih (by omega), and_iff_right hc]

/-- The texts of an integer: digits, behind a plus sign or, for a type with
negative values, a minus sign. -/
inductive Numeral (signed : Bool) : Str → Int → Prop
  | plain {s : Str} : s ≠ [] → Digits s → Numeral signed s (Nat.ofDigitChars 10 s 0)
  | plus {s : Str} : s ≠ [] → Digits s → Numeral signed ('+' :: s) (Nat.ofDigitChars 10 s 0)
  | minus {s : Str} : signed = true → s ≠ [] → Digits s →
      Numeral signed ('-' :: s) (-(Nat.ofDigitChars 10 s 0 : Int))

theorem Numeral.signed {signed : Bool} {s : Str} {n : Int} (h : Numeral signed s n) :
    Numeral true s n := by
  cases h with
  | plain hne hs => exact .plain hne hs
  | plus hne hs => exact .plus hne hs
  | minus _ hne hs => exact .minus rfl hne hs

theorem ne_sign_of_digits {s : Str} (hs : Digits s) (rest : Str) :
    s ≠ '+' :: rest ∧ s ≠ '-' :: rest := by
  constructor <;>
  · rintro rfl
    simpa [Char.isDigit] using hs _ (List.mem_cons_self ..)

/-- What the integer parser accepts. -/
theorem parsePrimitive_eq_ok_iff {low high n : Int} {s : Str} (hlow : low ≤ 0) (hhigh : 0 ≤ high) :
    parsePrimitive low high s = .ok n ↔
      Numeral (decide (low < 0)) s n ∧ low ≤ n ∧ n ≤ high := by
  have hplain : ∀ {t : Str}, parseDigits false low high 0 t = .ok n ↔
      Digits t ∧ n = Nat.ofDigitChars 10 t 0 ∧ n ≤ high := by
    intro t
    exact @parseDigits_eq_ok_iff _ _ _ t hlow 0 hhigh
  have hminus : ∀ {t : Str}, parseDigits true low high 0 t = .ok n ↔
      Digits t ∧ n = -(Nat.ofDigitChars 10 t 0 : Int) ∧ low ≤ n := by
    intro t
    exact @parseDigits_negative_eq_ok_iff _ _ _ t hhigh 0 hlow
  constructor
  · intro h
    unfold parsePrimitive at h
    split at h
    · cases h
    · cases h
    · cases h
    next rest hne =>
      obtain ⟨hs, rfl, hle⟩ := hplain.mp h
      exact ⟨.plus (by rintro rfl; exact hne rfl) hs, by omega, hle⟩
    next rest hne =>
      split at h
      next hneg =>
        obtain ⟨hs, rfl, hle⟩ := hminus.mp h
        exact ⟨.minus (decide_eq_true hneg) (by rintro rfl; exact hne rfl) hs, hle, by omega⟩
      next => cases h
    next hne _ _ _ _ =>
      obtain ⟨hs, rfl, hle⟩ := hplain.mp h
      exact ⟨.plain (by rintro rfl; exact hne rfl) hs, by omega, hle⟩
  · rintro ⟨hnumeral, hge, hle⟩
    cases hnumeral with
    | plain hne hs =>
      have hsign := ne_sign_of_digits hs
      unfold parsePrimitive
      split
      · exact absurd rfl hne
      · exact absurd rfl (hsign _).1
      · exact absurd rfl (hsign _).2
      · exact absurd rfl (hsign _).1
      · exact absurd rfl (hsign _).2
      · exact hplain.mpr ⟨hs, rfl, hle⟩
    | plus hne hs =>
      obtain ⟨c, rest, rfl⟩ := List.exists_cons_of_ne_nil hne
      rw [parsePrimitive]
      · exact hplain.mpr ⟨hs, rfl, hle⟩
      · exact List.cons_ne_nil _ _
    | minus hsigned hne hs =>
      obtain ⟨c, rest, rfl⟩ := List.exists_cons_of_ne_nil hne
      rw [parsePrimitive, if_pos (of_decide_eq_true hsigned)]
      · exact hminus.mpr ⟨hs, rfl, hge⟩
      · exact List.cons_ne_nil _ _

/-- A run of digits is a `u64` exactly when its value is below the bound. -/
theorem parseU64_digits_iff {s : Str} {n : Int} (hs : Digits s) (hne : s ≠ []) :
    parseU64 s = .ok n ↔ Nat.ofDigitChars 10 s 0 < 2 ^ 64 ∧ n = Nat.ofDigitChars 10 s 0 := by
  rw [parseU64, parsePrimitive_eq_ok_iff (Int.le_refl 0) (by decide)]
  constructor
  · rintro ⟨hnumeral, -, hle⟩
    cases hnumeral with
    | plain => exact ⟨by omega, rfl⟩
    | plus => exact absurd rfl (ne_sign_of_digits hs _).1
    | minus => exact absurd rfl (ne_sign_of_digits hs _).2
  · rintro ⟨hlt, rfl⟩
    exact ⟨.plain hne hs, by omega, by omega⟩

theorem u64_eq_some_iff {n : Nat} {v : { n : Nat // n < 2 ^ 64 }} :
    u64 n = some v ↔ v.val = n := by
  unfold u64
  constructor
  · intro h
    split at h
    · rw [← Option.some.inj h]
    · cases h
  · rintro rfl
    rw [dif_pos v.property]

/-! ## Written numbers -/

theorem decimal_digits (n : Nat) : Digits (decimal n) :=
  fun _ hc => Nat.isDigit_of_mem_toDigits (by decide) (by decide) hc

theorem padInt_digits (width n : Nat) : Digits (padInt width n) := by
  rw [padInt, if_neg (by omega), digits_append]
  constructor
  · intro c hc
    rw [List.eq_of_mem_replicate hc]
    rfl
  · exact decimal_digits _

theorem padInt_ne_nil (width n : Nat) : padInt width n ≠ [] := by
  rw [padInt, if_neg (by omega)]
  exact List.append_ne_nil_of_right_ne_nil _ Nat.toDigits_ne_nil

/-- The leading zeros do not count. -/
theorem ofDigitChars_padInt (width n : Nat) : Nat.ofDigitChars 10 (padInt width n) 0 = n := by
  rw [padInt, if_neg (by omega), Nat.ofDigitChars_append, Nat.ofDigitChars_replicate_zero,
    Nat.mul_zero]
  exact Nat.ofDigitChars_ten_toDigits

/-- A number that fits is padded to the width. -/
theorem length_padInt {width n : Nat} (h : n < 10 ^ width) (hpos : 0 < width) :
    (padInt width n).length = width := by
  have hlen : (decimal n).length ≤ width := (Nat.length_toDigits_le_iff (by decide) hpos).mpr h
  rw [padInt, if_neg (by omega)]
  simp only [List.length_append, List.length_replicate, Int.natAbs_natCast]
  omega

theorem ofDigitChars_lt {s : Str} (hs : Digits s) : Nat.ofDigitChars 10 s 0 < 10 ^ s.length := by
  induction s using List.reverseRecOn with
  | nil => decide
  | append_singleton s c ih =>
    obtain ⟨hs, hc⟩ := digits_append.mp hs
    have hrange : 48 ≤ c.toNat ∧ c.toNat ≤ 57 := by
      simpa [Char.isDigit, UInt32.le_iff_toNat_le] using (digits_cons.mp hc).1
    have hzero : '0'.toNat = 48 := rfl
    have hlt := ih hs
    rw [Nat.ofDigitChars_append, Nat.ofDigitChars_cons, Nat.ofDigitChars_nil, List.length_append,
      List.length_singleton, Nat.pow_succ]
    omega

end Saml.Number
