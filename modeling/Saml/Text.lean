import Mathlib.Algebra.Group.Int.Defs
import Mathlib.Algebra.GroupWithZero.Nat
import Mathlib.Data.List.Basic
import Mathlib.Data.List.Infix
import Mathlib.Data.Char

/-!
# Text and octets

Wire text is a list of Unicode scalar values. The octets that digests,
signatures and ciphers see are the UTF-8 encoding of such a text.
-/

namespace Saml

/-- A text, character by character. -/
abbrev Str := List Char

instance : Coe String Str := ⟨String.toList⟩

instance : LawfulBEq Str := inferInstance

/-- A byte string. -/
abbrev Octets := List UInt8

/-- What holds of every entry is decided along the list, also where the entries
are of a type with finitely many values. -/
instance (priority := high) decidableForallMem {α : Type} (p : α → Prop) [DecidablePred p]
    (l : List α) : Decidable (∀ a, a ∈ l → p a) := List.decidableBAll p l

instance (priority := high) decidableExistsMem {α : Type} (p : α → Prop) [DecidablePred p]
    (l : List α) : Decidable (∃ a, a ∈ l ∧ p a) := List.decidableBEx p l

namespace Text

/-- The UTF-8 encoding of a text (`str::as_bytes`). -/
def asBytes (s : Str) : Octets := s.flatMap String.utf8EncodeChar

/-- Decoding of a byte string (`std::str::from_utf8`). -/
def fromUtf8 (o : Octets) : Option Str :=
  (String.fromUTF8? ⟨o.toArray⟩).map String.toList

theorem toByteArray_asBytes (s : Str) : (⟨(asBytes s).toArray⟩ : ByteArray) = s.utf8Encode := by
  apply ByteArray.ext
  rw [List.utf8Encode, List.data_toByteArray, asBytes]

theorem asBytes_append (s t : Str) : asBytes (s ++ t) = asBytes s ++ asBytes t :=
  List.flatMap_append

/-- Decoding inverts encoding. -/
theorem fromUtf8_asBytes (s : Str) : fromUtf8 (asBytes s) = some s := by
  have hvalid : ByteArray.IsValidUTF8 s.utf8Encode := .intro s rfl
  have hstring : String.fromUTF8 s.utf8Encode hvalid = String.ofList s := rfl
  rw [fromUtf8, toByteArray_asBytes, String.fromUTF8?, dif_pos hvalid, hstring]
  simp

theorem asBytes_injective {s t : Str} (h : asBytes s = asBytes t) : s = t := by
  have hs := fromUtf8_asBytes s
  rw [h, fromUtf8_asBytes] at hs
  exact (Option.some.inj hs).symm

/-- Only an ASCII character is encoded with its own octet. -/
theorem mem_of_mem_asBytes {b : UInt8} (ascii : b.toNat < 128) {s : Str} (h : b ∈ asBytes s) :
    ∃ c ∈ s, c.toNat = b.toNat := by
  obtain ⟨c, hc, hbyte⟩ := List.mem_flatMap.mp h
  refine ⟨c, hc, ?_⟩
  have hval : c.toNat = c.val.toNat := rfl
  simp only [String.utf8EncodeChar] at hbyte
  split_ifs at hbyte <;> simp [← UInt8.toNat_inj] at hbyte <;> omega

/-- Encoding inverts decoding. -/
theorem asBytes_fromUtf8 {o : Octets} {s : Str} (h : fromUtf8 o = some s) : asBytes s = o := by
  obtain ⟨text, htext, _⟩ := Option.map_eq_some_iff.mp h
  unfold String.fromUTF8? at htext
  split at htext
  · rename_i hvalid
    obtain ⟨l, hl⟩ := hvalid
    have hbytes : asBytes l = o := by
      have harray := congrArg ByteArray.data hl
      rw [← toByteArray_asBytes] at harray
      simpa using harray.symm
    rw [← hbytes, fromUtf8_asBytes] at h
    rw [← Option.some.inj h, hbytes]
  · cases htext

/-- Only a carriage return is encoded with the octet 13. -/
theorem return_notMem_asBytes {s : Str} (h : '\r' ∉ s) : (13 : UInt8) ∉ asBytes s := by
  intro hmem
  obtain ⟨c, hc, hval⟩ := mem_of_mem_asBytes (by decide) hmem
  have hreturn : c = '\r' := Char.ext (UInt32.toNat_inj.mp hval)
  exact h (hreturn ▸ hc)

/-- The length a Rust `str` reports, in bytes. -/
def byteLen (s : Str) : Nat := (s.map Char.utf8Size).sum

@[simp] theorem byteLen_nil : byteLen [] = 0 := rfl

@[simp] theorem byteLen_cons (c : Char) (s : Str) :
    byteLen (c :: s) = c.utf8Size + byteLen s := by
  simp [byteLen]

theorem length_le_byteLen (s : Str) : s.length ≤ byteLen s := by
  induction s with
  | nil => exact le_rfl
  | cons c s ih =>
    have hpos := Char.utf8Size_pos c
    rw [List.length_cons, byteLen_cons]
    omega

@[simp] theorem byteLen_append (s t : Str) :
    byteLen (s ++ t) = byteLen s + byteLen t := by
  simp [byteLen]

/-- The Unicode `White_Space` property, which `str::trim` strips. -/
def isWhitespace (c : Char) : Bool :=
  let n := c.toNat
  (9 ≤ n && n ≤ 13) || n == 32 || n == 0x85 || n == 0xA0 || n == 0x1680 ||
    (0x2000 ≤ n && n ≤ 0x200A) || n == 0x2028 || n == 0x2029 || n == 0x202F ||
    n == 0x205F || n == 0x3000

/-- `str::trim`. -/
def trim (s : Str) : Str :=
  ((s.dropWhile isWhitespace).reverse.dropWhile isWhitespace).reverse

/-- A text `str::trim` leaves alone. -/
def Trimmed (s : Str) : Prop := trim s = s

instance (s : Str) : Decidable (Trimmed s) := inferInstanceAs (Decidable (_ = _))

/-- `str::split_whitespace`: the maximal runs of non-blank characters. -/
def splitWhitespace (s : Str) : List Str :=
  (s.splitOnP isWhitespace).filter (· ≠ [])

/-- A piece between separators holds none. -/
theorem notMem_of_mem_splitOn {c : Char} {s piece : Str} (h : piece ∈ s.splitOn c) :
    c ∉ piece := by
  induction s generalizing piece with
  | nil =>
    obtain rfl := List.mem_singleton.mp h
    exact List.not_mem_nil
  | cons d rest ih =>
    rw [List.splitOn_cons_eq_if_modifyHead] at h
    split at h
    · rcases List.mem_cons.mp h with rfl | h
      · exact List.not_mem_nil
      · exact ih h
    next hd =>
      obtain ⟨first, others, hsplit⟩ := List.exists_cons_of_ne_nil (List.splitOn_ne_nil c rest)
      have hpieces : ∀ p ∈ first :: others, c ∉ p := fun p hp => ih (hsplit ▸ hp)
      rw [hsplit] at h
      rcases List.mem_cons.mp h with rfl | h
      · intro hmem
        rcases List.mem_cons.mp hmem with heq | hmem
        · exact hd (beq_iff_eq.mpr heq.symm)
        · exact hpieces first List.mem_cons_self hmem
      · exact hpieces piece (List.mem_cons_of_mem _ h)

/-- A text of three pieces. -/
theorem splitOn_eq_three {c : Char} {s a b d : Str} (h : s.splitOn c = [a, b, d]) :
    s = a ++ c :: (b ++ c :: d) ∧ c ∉ a ∧ c ∉ b ∧ c ∉ d := by
  have hpieces : ∀ piece ∈ [a, b, d], c ∉ piece :=
    fun piece hpiece => notMem_of_mem_splitOn (h ▸ hpiece)
  refine ⟨?_, hpieces a (by simp), hpieces b (by simp), hpieces d (by simp)⟩
  have hjoin : [c].intercalate (s.splitOn c) = s := List.intercalate_splitOn c
  rw [← hjoin, h]
  simp [List.intercalate, List.intersperse]

/-- Three pieces that hold no separator are the pieces of the text. -/
theorem splitOn_three {c : Char} {a b d : Str} (ha : c ∉ a) (hb : c ∉ b) (hd : c ∉ d) :
    (a ++ c :: (b ++ c :: d)).splitOn c = [a, b, d] := by
  rw [List.splitOn_append_cons_self_of_not_mem ha, List.splitOn_append_cons_self_of_not_mem hb,
    List.splitOn_eq_singleton hd]

/-- `str::strip_prefix` for a single character. -/
def stripChar (c : Char) : Str → Option Str
  | [] => none
  | d :: rest => if d = c then some rest else none

end Text

end Saml
