import Mathlib.Data.List.Basic
import Mathlib.Data.Nat.ModEq

/-!
# Length-framed fields

Fields of any length, each behind a header of one width that says how long it
is. The concatenation determines the fields.
-/

namespace Saml.Library.Framing

/-! ## Numbers of a fixed width -/

/-- The octets of a number, most significant first. -/
def bigEndian : Nat → Nat → List UInt8
  | 0, _ => []
  | width + 1, n => bigEndian width (n / 256) ++ [UInt8.ofNat n]

/-- The number that octets stand for. -/
def fromBigEndian (octets : List UInt8) : Nat :=
  octets.foldl (fun acc b => acc * 256 + b.toNat) 0

@[simp] theorem length_bigEndian (width n : Nat) : (bigEndian width n).length = width := by
  induction width generalizing n with
  | zero => rfl
  | succ width ih => rw [bigEndian, List.length_append, ih, List.length_singleton]

theorem fromBigEndian_append (octets : List UInt8) (b : UInt8) :
    fromBigEndian (octets ++ [b]) = fromBigEndian octets * 256 + b.toNat := by
  rw [fromBigEndian, List.foldl_append, ← fromBigEndian]
  rfl

/-- The octets keep the number as far as their width goes. -/
theorem fromBigEndian_bigEndian (width n : Nat) :
    fromBigEndian (bigEndian width n) = n % 256 ^ width := by
  induction width generalizing n with
  | zero => rw [Nat.pow_zero, Nat.mod_one]; rfl
  | succ width ih =>
      calc fromBigEndian (bigEndian (width + 1) n)
          = fromBigEndian (bigEndian width (n / 256)) * 256 + (UInt8.ofNat n).toNat := by
            rw [bigEndian, fromBigEndian_append]
        _ = n / 256 % 256 ^ width * 256 + n % 256 := by
            rw [ih, UInt8.toNat_ofNat']
        _ = n % 256 ^ (width + 1) := by
            rw [Nat.pow_succ', Nat.mod_mul, Nat.mul_comm, Nat.add_comm]

theorem bigEndian_injOn {width n m : Nat} (hn : n < 256 ^ width) (hm : m < 256 ^ width)
    (h : bigEndian width n = bigEndian width m) : n = m := by
  have hvalue := congrArg fromBigEndian h
  rwa [fromBigEndian_bigEndian, fromBigEndian_bigEndian, Nat.mod_eq_of_lt hn,
    Nat.mod_eq_of_lt hm] at hvalue

/-! ## Framed fields -/

section

variable {α : Type} {header : Nat → List α} {width bound : Nat}

/-- A header of one width that tells the lengths below a bound apart. -/
structure Header (header : Nat → List α) (width bound : Nat) : Prop where
  length : ∀ n, (header n).length = width
  injOn : ∀ n m, n < bound → m < bound → header n = header m → n = m

/-- A field behind its header. -/
def frame (header : Nat → List α) (field : List α) : List α := header field.length ++ field

/-- Fields behind their headers, one after the other. -/
def frames (header : Nat → List α) (fields : List (List α)) : List α :=
  fields.flatMap (frame header)

/-- Step: the first field can be cut off. -/
theorem frame_append_inj (h : Header header width bound) {field other rest others : List α}
    (hfield : field.length < bound) (hother : other.length < bound)
    (heq : frame header field ++ rest = frame header other ++ others) :
    field = other ∧ rest = others := by
  rw [frame, frame, List.append_assoc, List.append_assoc] at heq
  have hwidths : (header field.length).length = (header other.length).length := by
    rw [h.length, h.length]
  obtain ⟨hheader, htail⟩ := List.append_inj heq hwidths
  exact List.append_inj htail (h.injOn _ _ hfield hother hheader)

/-- As many fields are determined by their concatenation. -/
theorem frames_inj (h : Header header width bound) {fields others : List (List α)}
    (hcount : fields.length = others.length) (hfields : ∀ field ∈ fields, field.length < bound)
    (hothers : ∀ other ∈ others, other.length < bound)
    (heq : frames header fields = frames header others) : fields = others := by
  induction fields generalizing others with
  | nil => exact (List.length_eq_zero_iff.mp hcount.symm).symm
  | cons field rest ih =>
      cases others with
      | nil => cases hcount
      | cons other more =>
          obtain ⟨rfl, htail⟩ := frame_append_inj h (hfields field List.mem_cons_self)
            (hothers other List.mem_cons_self) heq
          have hrest := ih (Nat.succ.inj hcount)
            (fun f hf => hfields f (List.mem_cons_of_mem _ hf))
            (fun o ho => hothers o (List.mem_cons_of_mem _ ho)) htail
          rw [hrest]

end

/-- Eight octets, most significant first, are a header for 64-bit lengths. -/
theorem header_bigEndian : Header (bigEndian 8) 8 (2 ^ 64) := by
  refine ⟨length_bigEndian 8, ?_⟩
  intro n m hn hm h
  exact bigEndian_injOn (by omega) (by omega) h

end Saml.Library.Framing
