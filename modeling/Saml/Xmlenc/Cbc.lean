import Saml.Library.BlockCipher
import Saml.Xmlenc.Decrypt

/-!
# The accepted padding

`decrypt_cbc` over a block permutation for each session key: the padding that
it removes holds its length in every octet.
-/

namespace Saml.Xmlenc

open Crypto Library

/-- `decrypt_padded_b2b_mut` with PKCS#7 padding. -/
def decryptPaddedBlocks (permutation : Equiv.Perm (Block 16)) (iv : Block 16)
    (ciphertext : Octets) : Option Octets := do
  let blocks ← Block.split 16 ciphertext
  Padding.unpad (Chain.decrypt permutation iv blocks)

/-- The length of a session key. -/
def SessionKey (key : Octets) : Prop := key.length = 16 ∨ key.length = 32

/-- The primitive chains a block cipher, and removes the padding that it uses. -/
structure IsCbc (crypto : Primitives) (cipher : Octets → Equiv.Perm (Block 16)) : Prop where
  decrypt : ∀ key (iv : Block 16) ciphertext, SessionKey key →
    crypto.aesCbcDecrypt key iv.octets ciphertext = decryptPaddedBlocks (cipher key) iv ciphertext

/-- A ciphertext as the profile lays it out: the vector and the chained blocks. -/
def layout (permutation : Equiv.Perm (Block 16)) (iv : Block 16) (blocks : List (Block 16)) :
    Octets :=
  iv.octets ++ Block.flatten (Chain.encrypt permutation iv blocks)

variable {crypto : Primitives} {cipher : Octets → Equiv.Perm (Block 16)}

theorem decryptPaddedBlocks_encrypt (permutation : Equiv.Perm (Block 16)) (iv : Block 16)
    (blocks : List (Block 16)) :
    decryptPaddedBlocks permutation iv (Block.flatten (Chain.encrypt permutation iv blocks)) =
      Padding.unpad blocks := by
  have hsplit := (Block.split_eq_some_iff (by decide)).mpr
    (rfl : Block.flatten (Chain.encrypt permutation iv blocks) = _)
  rw [decryptPaddedBlocks, hsplit, Option.bind_eq_bind, Option.bind_some, Chain.decrypt_encrypt]

/-- Every refusal has the one generic reason. -/
theorem decryptCbc_error {key ciphertext : Octets} {err : Error}
    (h : decryptCbc crypto key ciphertext = .error err) : err = .decryptFailed "data" := by
  unfold decryptCbc at h
  split at h
  · exact (Except.error.inj h).symm
  · cases hdecrypt : crypto.aesCbcDecrypt key (ciphertext.take 16) (ciphertext.drop 16) with
    | none =>
      rw [hdecrypt] at h
      exact (Except.error.inj h).symm
    | some plaintext =>
      rw [hdecrypt] at h
      cases h

/-- The blocks of a ciphertext in that layout are decrypted. -/
theorem decryptCbc_layout (hcbc : IsCbc crypto cipher) {key : Octets} (hkey : SessionKey key)
    {iv : Block 16} {blocks : List (Block 16)} {plaintext : Octets} :
    decryptCbc crypto key (layout (cipher key) iv blocks) = .ok plaintext ↔
      ∃ k, 1 ≤ k ∧ k ≤ 16 ∧ Block.flatten blocks = plaintext ++ Padding.pad k := by
  have htake : (layout (cipher key) iv blocks).take 16 = iv.octets :=
    List.take_left' iv.length_octets
  have hdrop : (layout (cipher key) iv blocks).drop 16 =
      Block.flatten (Chain.encrypt (cipher key) iv blocks) := List.drop_left' iv.length_octets
  have hlong : ¬ (layout (cipher key) iv blocks).length < 16 := by
    rw [layout, List.length_append, iv.length_octets]
    omega
  rw [decryptCbc, if_neg hlong, htake, hdrop, hcbc.decrypt key iv _ hkey, okOr_eq_ok_iff,
    decryptPaddedBlocks_encrypt]
  exact Padding.unpad_eq_some_iff (by decide)

/-- What is accepted has the layout. -/
theorem exists_layout (hcbc : IsCbc crypto cipher) {key : Octets} (hkey : SessionKey key)
    {ciphertext plaintext : Octets} (h : decryptCbc crypto key ciphertext = .ok plaintext) :
    ∃ iv blocks, ciphertext = layout (cipher key) iv blocks := by
  obtain ⟨hlong, h⟩ := ite_error_eq_ok_iff.mp h
  rw [okOr_eq_ok_iff] at h
  have hiv : (ciphertext.take 16).length = 16 := by
    rw [List.length_take]
    omega
  rw [hcbc.decrypt key ⟨ciphertext.take 16, hiv⟩ _ hkey] at h
  obtain ⟨ciphers, hsplit, _⟩ := Option.bind_eq_some_iff.mp h
  refine ⟨⟨ciphertext.take 16, hiv⟩,
    Chain.decrypt (cipher key) ⟨ciphertext.take 16, hiv⟩ ciphers, ?_⟩
  rw [layout, Chain.encrypt_decrypt, (Block.split_eq_some_iff (by decide)).mp hsplit,
    List.take_append_drop]

theorem length_layout (permutation : Equiv.Perm (Block 16)) (iv : Block 16)
    (blocks : List (Block 16)) :
    (layout permutation iv blocks).length = 16 * (blocks.length + 1) := by
  rw [layout, List.length_append, iv.length_octets, Block.length_flatten, Chain.length_encrypt]
  omega

/-- A refusal is the generic error. -/
theorem decryptCbc_eq_error_of {key ciphertext : Octets}
    (h : ∀ plaintext, decryptCbc crypto key ciphertext ≠ .ok plaintext) :
    decryptCbc crypto key ciphertext = .error (.decryptFailed "data") := by
  cases hresult : decryptCbc crypto key ciphertext with
  | ok plaintext => exact absurd hresult (h plaintext)
  | error err => rw [decryptCbc_error hresult]

theorem getLast?_append_pad (plaintext : Octets) {k : Nat} (hpos : 1 ≤ k) :
    (plaintext ++ Padding.pad k).getLast? = some (UInt8.ofNat k) := by
  rw [Padding.pad, List.getLast?_append, List.getLast?_replicate, if_neg (by omega), Option.some_or]

namespace Transparent

/-- The primitives with the identity as the permutation of blocks. -/
def chained : Primitives :=
  { Crypto.Transparent.primitives with
    aesCbcDecrypt := fun _ iv ciphertext =>
      if h : iv.length = 16 then decryptPaddedBlocks (Equiv.refl _) ⟨iv, h⟩ ciphertext else none }

theorem isCbc : IsCbc chained fun _ => Equiv.refl (Block 16) where
  decrypt _ iv _ _ := dif_pos iv.length_octets

/-- A session key. -/
def key : Octets := List.replicate 16 0

end Transparent

/-- A block of fourteen octets and two pad octets. -/
def paddedBlock (first second : UInt8) : Block 16 := ⟨List.replicate 14 0 ++ [first, second], rfl⟩

end Saml.Xmlenc
