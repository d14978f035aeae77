import Mathlib.Data.List.Induction
import Mathlib.Logic.Equiv.Defs

/-!
# Cipher-block chaining

Octet strings in blocks, the chaining of a block permutation, and the padding
whose octets all hold its length.
-/

namespace Saml.Library

/-- A string of `n` octets. -/
@[ext] structure Block (n : Nat) where
  octets : List UInt8
  length_octets : octets.length = n
deriving DecidableEq

namespace Block

variable {n : Nat}

/-- Exclusive or, octet by octet. -/
def xor (a b : Block n) : Block n :=
  ⟨List.zipWith (· ^^^ ·) a.octets b.octets, by
    rw [List.length_zipWith, a.length_octets, b.length_octets, Nat.min_self]⟩

theorem zipWith_xor_cancel (a b : List UInt8) (h : a.length = b.length) :
    List.zipWith (· ^^^ ·) (List.zipWith (· ^^^ ·) a b) b = a := by
  induction a generalizing b with
  | nil => rfl
  | cons x a ih =>
    cases b with
    | nil => cases h
    | cons y b =>
      rw [List.zipWith_cons_cons, List.zipWith_cons_cons, ih b (Nat.succ.inj h)]
      rw [UInt8.xor_assoc, UInt8.xor_self, UInt8.xor_zero]

@[simp] theorem xor_xor_cancel (a b : Block n) : (a.xor b).xor b = a :=
  Block.ext (zipWith_xor_cancel a.octets b.octets (a.length_octets.trans b.length_octets.symm))

/-- The octets of a list of blocks. -/
def flatten (blocks : List (Block n)) : List UInt8 := blocks.flatMap Block.octets

@[simp] theorem flatten_nil : flatten ([] : List (Block n)) = [] := rfl

@[simp] theorem flatten_cons (block : Block n) (blocks : List (Block n)) :
    flatten (block :: blocks) = block.octets ++ flatten blocks := rfl

theorem flatten_append (first second : List (Block n)) :
    flatten (first ++ second) = flatten first ++ flatten second := List.flatMap_append

theorem length_flatten (blocks : List (Block n)) : (flatten blocks).length = n * blocks.length := by
  induction blocks with
  | nil => rfl
  | cons block blocks ih =>
    rw [flatten_cons, List.length_append, ih, block.length_octets, List.length_cons,
      Nat.mul_succ, Nat.add_comm]

/-- The blocks of a string whose length is a multiple of the block length. -/
def split (n : Nat) (octets : List UInt8) : Option (List (Block n)) :=
  match octets with
  | [] => some []
  | first :: rest =>
      if h : 0 < n ∧ n ≤ (first :: rest).length then
        (split n ((first :: rest).drop n)).map fun blocks =>
          ⟨(first :: rest).take n, by rw [List.length_take, Nat.min_eq_left h.2]⟩ :: blocks
      else none
termination_by octets.length
decreasing_by
  rw [List.length_drop]
  have _hpos : 0 < (first :: rest).length := List.length_pos_iff.mpr (List.cons_ne_nil first rest)
  omega

theorem split_eq_some_iff (hn : 0 < n) {octets : List UInt8} {blocks : List (Block n)} :
    split n octets = some blocks ↔ flatten blocks = octets := by
  induction octets using split.induct n generalizing blocks with
  | case1 =>
    rw [split]
    cases blocks with
    | nil => simp
    | cons block blocks =>
      have hne : block.octets ≠ [] := List.ne_nil_of_length_pos (block.length_octets.symm ▸ hn)
      simp [hne]
  | case2 first rest h ih =>
    rw [split, dif_pos h, Option.map_eq_some_iff]
    constructor
    · rintro ⟨blocks, hblocks, rfl⟩
      rw [flatten_cons, ih.mp hblocks, List.take_append_drop]
    · intro hflatten
      cases blocks with
      | nil => cases hflatten
      | cons block blocks =>
        rw [flatten_cons] at hflatten
        have htake : (first :: rest).take n = block.octets := by
          rw [← hflatten, List.take_left' block.length_octets]
        have hdrop : (first :: rest).drop n = flatten blocks := by
          rw [← hflatten, List.drop_left' block.length_octets]
        exact ⟨blocks, ih.mpr hdrop.symm, by congr 1; exact Block.ext htake⟩
  | case3 first rest h =>
    rw [split, dif_neg h]
    constructor
    · intro hnone
      cases hnone
    · intro hflatten
      cases blocks with
      | nil => cases hflatten
      | cons block blocks =>
        have hlength := congrArg List.length hflatten
        rw [flatten_cons, List.length_append, block.length_octets] at hlength
        exact absurd ⟨hn, by omega⟩ h

end Block

/-! ## Chaining -/

namespace Chain

variable {n : Nat} (permutation : Equiv.Perm (Block n))

/-- Each block is masked with the ciphertext before it, and then permuted. -/
def encrypt (iv : Block n) : List (Block n) → List (Block n)
  | [] => []
  | plain :: rest =>
      permutation (plain.xor iv) :: encrypt (permutation (plain.xor iv)) rest

/-- The inverse of the chaining. -/
def decrypt (iv : Block n) : List (Block n) → List (Block n)
  | [] => []
  | cipher :: rest => (permutation.symm cipher).xor iv :: decrypt cipher rest

theorem length_encrypt (iv : Block n) (blocks : List (Block n)) :
    (encrypt permutation iv blocks).length = blocks.length := by
  induction blocks generalizing iv with
  | nil => rfl
  | cons plain rest ih => rw [encrypt, List.length_cons, List.length_cons, ih]

theorem decrypt_encrypt (iv : Block n) (blocks : List (Block n)) :
    decrypt permutation iv (encrypt permutation iv blocks) = blocks := by
  induction blocks generalizing iv with
  | nil => rfl
  | cons plain rest ih =>
    rw [encrypt, decrypt, ih, Equiv.symm_apply_apply, Block.xor_xor_cancel]

theorem encrypt_decrypt (iv : Block n) (blocks : List (Block n)) :
    encrypt permutation iv (decrypt permutation iv blocks) = blocks := by
  induction blocks generalizing iv with
  | nil => rfl
  | cons cipher rest ih =>
    rw [decrypt, encrypt, Block.xor_xor_cancel, Equiv.apply_symm_apply, ih]

end Chain

/-! ## Padding -/

namespace Padding

variable {n : Nat}

/-- A padding of `k` octets that all hold `k`. -/
def pad (k : Nat) : List UInt8 := List.replicate k (UInt8.ofNat k)

/-- Remove the padding from the last block. -/
def unpadBlock (last : Block n) : Option (List UInt8) :=
  match last.octets.getLast? with
  | none => none
  | some octet =>
      let k := octet.toNat
      if k = 0 ∨ n < k then none
      else if (last.octets.drop (n - k)).all (· = octet) then some (last.octets.take (n - k))
      else none

/-- Remove the padding from the last of the blocks. -/
def unpad (blocks : List (Block n)) : Option (List UInt8) :=
  match blocks.getLast? with
  | none => none
  | some last => (unpadBlock last).map (Block.flatten blocks.dropLast ++ ·)

/-- The padding of a block is removed exactly when its octets hold its length. -/
theorem unpadBlock_eq_some_iff (hn : n < 256) {last : Block n} {plain : List UInt8} :
    unpadBlock last = some plain ↔ ∃ k, 1 ≤ k ∧ k ≤ n ∧ last.octets = plain ++ pad k := by
  constructor
  · intro h
    unfold unpadBlock at h
    split at h
    · cases h
    next octet hoctet =>
      dsimp only at h
      split at h
      · cases h
      next hrange =>
        obtain ⟨hpos, hle⟩ := not_or.mp hrange
        split at h
        next hall =>
          have hsame : last.octets.drop (n - octet.toNat) = pad octet.toNat := by
            rw [pad, UInt8.ofNat_toNat, List.eq_replicate_iff, List.length_drop, last.length_octets]
            refine ⟨by omega, fun b hb => ?_⟩
            simpa using List.all_eq_true.mp hall b hb
          refine ⟨octet.toNat, by omega, by omega, ?_⟩
          rw [← hsame, ← Option.some.inj h, List.take_append_drop]
        next => cases h
  · rintro ⟨k, hpos, hle, hlast⟩
    have hlength := congrArg List.length hlast
    rw [last.length_octets, List.length_append, pad, List.length_replicate] at hlength
    have hoctet : last.octets.getLast? = some (UInt8.ofNat k) := by
      rw [hlast, pad, List.getLast?_append, List.getLast?_replicate,
        if_neg (by omega), Option.some_or]
    have hk : (UInt8.ofNat k).toNat = k := by
      rw [UInt8.toNat_ofNat', Nat.mod_eq_of_lt (by omega)]
    have hplain : n - k = plain.length := by omega
    unfold unpadBlock
    rw [hoctet]
    dsimp only
    rw [hk, if_neg (by omega), hlast, hplain, List.drop_left, List.take_left, if_pos]
    rw [pad, List.all_replicate]
    simp

/-- The padding is removed exactly when its octets hold its length, at least
one and at most that of a block. -/
theorem unpad_eq_some_iff (hn : n < 256) {blocks : List (Block n)} {plain : List UInt8} :
    unpad blocks = some plain ↔
      ∃ k, 1 ≤ k ∧ k ≤ n ∧ Block.flatten blocks = plain ++ pad k := by
  unfold unpad
  induction blocks using List.reverseRecOn with
  | nil =>
    constructor
    · intro h
      cases h
    · rintro ⟨k, hpos, _, h⟩
      have hlength := congrArg List.length h
      rw [Block.flatten_nil, List.length_append, pad,
        List.length_replicate, List.length_nil] at hlength
      omega
  | append_singleton blocks last _ =>
    rw [List.getLast?_concat, List.dropLast_concat]
    dsimp only
    rw [Option.map_eq_some_iff, Block.flatten_append, Block.flatten_cons, Block.flatten_nil,
      List.append_nil]
    constructor
    · rintro ⟨rest, hrest, rfl⟩
      obtain ⟨k, hpos, hle, hlast⟩ := (unpadBlock_eq_some_iff hn).mp hrest
      exact ⟨k, hpos, hle, by rw [hlast, List.append_assoc]⟩
    · rintro ⟨k, hpos, hle, h⟩
      have hlength := congrArg List.length h
      have hpad : (pad k).length = k := List.length_replicate
      rw [List.length_append, List.length_append, last.length_octets, hpad] at hlength
      have hplain : (Block.flatten blocks).length ≤ plain.length := by omega
      have hfirst : Block.flatten blocks = plain.take (Block.flatten blocks).length := by
        rw [← List.take_append_of_le_length hplain, ← h, List.take_left]
      have hlast : last.octets = plain.drop (Block.flatten blocks).length ++ pad k := by
        rw [← List.drop_append_of_le_length hplain, ← h, List.drop_left]
      refine ⟨plain.drop (Block.flatten blocks).length,
        (unpadBlock_eq_some_iff hn).mpr ⟨k, hpos, hle, hlast⟩, ?_⟩
      conv_lhs => rw [hfirst]
      rw [List.length_take, Nat.min_eq_left hplain, List.take_append_drop]

end Padding

end Saml.Library
