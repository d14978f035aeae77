import Saml.Error

/-!
# Machine integers

Checked 64-bit arithmetic, and the decimal text form of the primitive integer
types.
-/

namespace Saml.Number

/-- The result of a checked `i64` operation. -/
def i64 (n : Int) : Option Int :=
  if -(2 ^ 63) ≤ n ∧ n < 2 ^ 63 then some n else none

theorem i64_eq_some {n : Int} (h : -(2 ^ 63) ≤ n ∧ n < 2 ^ 63) : i64 n = some n := if_pos h

/-- The result of a checked `u64` operation. -/
def u64 (n : Nat) : Option { n : Nat // n < 2 ^ 64 } :=
  if h : n < 2 ^ 64 then some ⟨n, h⟩ else none

/-- The value of an ASCII digit. -/
def digit (c : Char) : Option Nat :=
  if '0' ≤ c ∧ c ≤ '9' then some (c.toNat - '0'.toNat) else none

/-- The digit loop of `from_str_radix`: accumulate under a bound, on the
positive side or the negative one. -/
def parseDigits (negative : Bool) (low high : Int) : Int → Str → Except Str Int
  | acc, [] => .ok acc
  | acc, c :: rest =>
      match digit c with
      | none => .error "invalid digit found in string"
      | some d =>
          let next := if negative then acc * 10 - d else acc * 10 + d
          if high < next then .error "number too large to fit in target type"
          else if next < low then .error "number too small to fit in target type"
          else parseDigits negative low high next rest

/-- `str::parse` for a primitive integer type with the given bounds; only a
type that has negative values takes a minus sign. -/
def parsePrimitive (low high : Int) (s : Str) : Except Str Int :=
  match s with
  | [] => .error "cannot parse integer from empty string"
  | ['+'] => .error "invalid digit found in string"
  | ['-'] => .error "invalid digit found in string"
  | '+' :: rest => parseDigits false low high 0 rest
  | '-' :: rest =>
      if low < 0 then parseDigits true low high 0 rest
      else .error "invalid digit found in string"
  | digits => parseDigits false low high 0 digits

/-- The bounds of `i32`. -/
def parseI32 : Str → Except Str Int := parsePrimitive (-(2 ^ 31)) (2 ^ 31 - 1)

/-- The bounds of `u16`. -/
def parseU16 : Str → Except Str Int := parsePrimitive 0 (2 ^ 16 - 1)

/-- The bounds of `u32`. -/
def parseU32 : Str → Except Str Int := parsePrimitive 0 (2 ^ 32 - 1)

/-- The bounds of `u64`. -/
def parseU64 : Str → Except Str Int := parsePrimitive 0 (2 ^ 64 - 1)

/-- The bounds of `i64`. -/
def parseI64 : Str → Except Str Int := parsePrimitive (-(2 ^ 63)) (2 ^ 63 - 1)

/-- The decimal digits of a number. -/
def decimal (n : Nat) : Str := Nat.toDigits 10 n

/-- `{n}` for a signed integer. -/
def showInt (n : Int) : Str :=
  if n < 0 then '-' :: decimal n.natAbs else decimal n.natAbs

/-- `{n:0width}`: zeros go between the sign and the digits. -/
def padInt (width : Nat) (n : Int) : Str :=
  let digits := decimal n.natAbs
  if n < 0 then '-' :: (List.replicate (width - 1 - digits.length) '0' ++ digits)
  else List.replicate (width - digits.length) '0' ++ digits

end Saml.Number
