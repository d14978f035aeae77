import Mathlib.Data.List.Basic
import Mathlib.Data.Char

/-!
# Base64

The standard alphabet with mandatory, canonical padding: three octets become
four symbols, and a text is read only when it is what its octets are written as.
-/

namespace Saml.Library.Base64

/-- The symbol of a six-bit value. -/
def symbol (n : Nat) : Char :=
  if n < 26 then Char.ofNat (n + 65)
  else if n < 52 then Char.ofNat (n + 71)
  else if n < 62 then Char.ofNat (n - 4)
  else if n = 62 then '+' else '/'

/-- The six-bit value of a symbol. -/
def value (c : Char) : Option Nat :=
  let n := c.toNat
  if 65 ≤ n ∧ n < 91 then some (n - 65)
  else if 97 ≤ n ∧ n < 123 then some (n - 71)
  else if 48 ≤ n ∧ n < 58 then some (n + 4)
  else if c = '+' then some 62
  else if c = '/' then some 63
  else none

/-- Encode three octets at a time, padding the last group. -/
def encode : List UInt8 → List Char
  | [] => []
  | [a] => [symbol (a.toNat / 4), symbol (a.toNat % 4 * 16), '=', '=']
  | [a, b] =>
      [symbol (a.toNat / 4), symbol (a.toNat % 4 * 16 + b.toNat / 16),
        symbol (b.toNat % 16 * 4), '=']
  | a :: b :: c :: rest =>
      symbol (a.toNat / 4) :: symbol (a.toNat % 4 * 16 + b.toNat / 16) ::
        symbol (b.toNat % 16 * 4 + c.toNat / 64) :: symbol (c.toNat % 64) :: encode rest

/-- The single octet of a doubly padded group, when its spare bits are zero. -/
def octet (p q : Nat) : Option (List UInt8) :=
  if q % 16 = 0 then some [UInt8.ofNat (p * 4 + q / 16)] else none

/-- The two octets of a padded group, when its spare bits are zero. -/
def octets (p q r : Nat) : Option (List UInt8) :=
  if r % 4 = 0 then
    some [UInt8.ofNat (p * 4 + q / 16), UInt8.ofNat (q % 16 * 16 + r / 4)]
  else none

/-- Decode four symbols at a time; only the last group may be padded. -/
def decode : List Char → Option (List UInt8)
  | [] => some []
  | [a, b, '=', '='] => do octet (← value a) (← value b)
  | [a, b, c, '='] => do octets (← value a) (← value b) (← value c)
  | a :: b :: c :: d :: rest => do
      let p ← value a
      let q ← value b
      let r ← value c
      let s ← value d
      let tail ← decode rest
      some (UInt8.ofNat (p * 4 + q / 16) :: UInt8.ofNat (q % 16 * 16 + r / 4) ::
        UInt8.ofNat (r % 4 * 64 + s) :: tail)
  | _ => none

theorem value_symbol {n : Nat} (h : n < 64) : value (symbol n) = some n := by
  have key : ∀ m : Fin 64, value (symbol m) = some m.val := by decide
  exact key ⟨n, h⟩

theorem symbol_ne_pad {n : Nat} (h : n < 64) : symbol n ≠ '=' := by
  have key : ∀ m : Fin 64, symbol m ≠ '=' := by decide
  exact key ⟨n, h⟩

/-- The characters an encoding is made of. -/
def IsSymbol (c : Char) : Prop := c = '=' ∨ (value c).isSome

theorem isSymbol_symbol {n : Nat} (h : n < 64) : IsSymbol (symbol n) := by
  right
  rw [value_symbol h]
  rfl

theorem ofNat_toNat (a : UInt8) {n : Nat} (h : n = a.toNat) : UInt8.ofNat n = a := by
  rw [h, UInt8.ofNat_toNat]

/-- Reading what was written gives the octets back. -/
theorem decode_encode (bytes : List UInt8) : decode (encode bytes) = some bytes := by
  induction bytes using encode.induct with
  | case1 => rfl
  | case2 a =>
      have ha := a.toNat_lt
      simp only [encode, decode, value_symbol (show a.toNat / 4 < 64 by omega),
        value_symbol (show a.toNat % 4 * 16 < 64 by omega), octet, Option.bind_eq_bind,
        Option.bind_some]
      rw [if_pos (by omega), ofNat_toNat a (by omega)]
  | case3 a b =>
      have ha := a.toNat_lt
      have hb := b.toNat_lt
      have hr : b.toNat % 16 * 4 < 64 := by omega
      rw [encode, decode]
      · simp only [value_symbol (show a.toNat / 4 < 64 by omega),
          value_symbol (show a.toNat % 4 * 16 + b.toNat / 16 < 64 by omega), value_symbol hr,
          octets, Option.bind_eq_bind, Option.bind_some]
        rw [if_pos (by omega), ofNat_toNat a (by omega), ofNat_toNat b (by omega)]
      · exact symbol_ne_pad hr
  | case4 a b c rest ih =>
      have ha := a.toNat_lt
      have hb := b.toNat_lt
      have hc := c.toNat_lt
      have hs : c.toNat % 64 < 64 := by omega
      rw [encode, decode]
      · simp only [value_symbol (show a.toNat / 4 < 64 by omega),
          value_symbol (show a.toNat % 4 * 16 + b.toNat / 16 < 64 by omega),
          value_symbol (show b.toNat % 16 * 4 + c.toNat / 64 < 64 by omega), value_symbol hs, ih,
          Option.bind_eq_bind, Option.bind_some]
        rw [ofNat_toNat a (by omega), ofNat_toNat b (by omega), ofNat_toNat c (by omega)]
      · intro _ hpad
        exact absurd hpad (symbol_ne_pad hs)
      · intro hpad
        exact absurd hpad (symbol_ne_pad hs)

/-- Every character of an encoding is a symbol or the pad. -/
theorem isSymbol_encode (bytes : List UInt8) : ∀ c ∈ encode bytes, IsSymbol c := by
  induction bytes using encode.induct with
  | case1 => simp [encode]
  | case2 a =>
      have ha := a.toNat_lt
      simp only [encode, List.forall_mem_cons]
      exact ⟨isSymbol_symbol (by omega), isSymbol_symbol (by omega), .inl rfl, .inl rfl, by simp⟩
  | case3 a b =>
      have ha := a.toNat_lt
      have hb := b.toNat_lt
      simp only [encode, List.forall_mem_cons]
      exact ⟨isSymbol_symbol (by omega), isSymbol_symbol (by omega), isSymbol_symbol (by omega),
        .inl rfl, by simp⟩
  | case4 a b c rest ih =>
      have ha := a.toNat_lt
      have hb := b.toNat_lt
      have hc := c.toNat_lt
      simp only [encode, List.forall_mem_cons]
      exact ⟨isSymbol_symbol (by omega), isSymbol_symbol (by omega), isSymbol_symbol (by omega),
        isSymbol_symbol (by omega), ih⟩

/-- Only symbols are read. -/
theorem isSymbol_of_decode {text : List Char} {bytes : List UInt8} (h : decode text = some bytes) :
    ∀ c ∈ text, IsSymbol c := by
  have hvalue {c : Char} {n : Nat} (h : value c = some n) : IsSymbol c := .inr (by rw [h]; rfl)
  have hpad : IsSymbol '=' := .inl rfl
  fun_induction decode text generalizing bytes with
  | case1 => simp
  | case2 a b =>
      simp only [Option.bind_eq_bind, Option.bind_eq_some_iff] at h
      obtain ⟨p, hp, q, hq, _⟩ := h
      simp only [List.mem_cons, forall_eq_or_imp, List.not_mem_nil]
      exact ⟨hvalue hp, hvalue hq, hpad, hpad, nofun⟩
  | case3 a b c =>
      simp only [Option.bind_eq_bind, Option.bind_eq_some_iff] at h
      obtain ⟨p, hp, q, hq, r, hr, _⟩ := h
      simp only [List.mem_cons, forall_eq_or_imp, List.not_mem_nil]
      exact ⟨hvalue hp, hvalue hq, hvalue hr, hpad, nofun⟩
  | case4 a b c d rest _ _ ih =>
      simp only [Option.bind_eq_bind, Option.bind_eq_some_iff] at h
      obtain ⟨p, hp, q, hq, r, hr, s, hs, tail, htail, _⟩ := h
      simp only [List.mem_cons, forall_eq_or_imp]
      exact ⟨hvalue hp, hvalue hq, hvalue hr, hvalue hs, ih htail⟩
  | case5 => cases h
end Saml.Library.Base64
