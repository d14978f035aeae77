import Saml.Dsig.Algorithms
import Saml.Text
import Saml.Library.Base64

/-!
# Certificates and key pairs

`crypto::cert` and `crypto::keypair` over the primitives of the cryptographic
packages, which are a parameter.
-/

namespace Saml.Crypto

open Dsig Xmlenc Library

/-- Algorithm family of a key. -/
inductive PublicKeyAlgorithm where
  | rsa
  | ecdsaP256
  | ecdsaP384
deriving DecidableEq, Repr

/-- The elliptic curves in use. -/
inductive Curve where
  | p256
  | p384
deriving DecidableEq, Repr

/-- A public key: its family and its encoded key material. -/
structure PublicKey where
  algorithmFamily : PublicKeyAlgorithm
  material : Octets
deriving DecidableEq

/-- A parsed X.509 certificate. -/
structure X509Certificate where
  der : Octets
  spkiDer : Octets
  publicKey : PublicKey
deriving DecidableEq

/-- A private key with its optional certificate. -/
structure KeyPair where
  algorithmFamily : PublicKeyAlgorithm
  secret : Octets
  cert : Option X509Certificate
deriving DecidableEq

/-- The primitives of the hashing, signature, cipher and X.509 packages. A
signature that does not parse does not verify. -/
structure Primitives where
  digest : DigestAlgorithm → Octets → Octets
  fromDer : Octets → Option X509Certificate
  publicMaterial : PublicKeyAlgorithm → Octets → Octets
  rsaSign : DigestAlgorithm → Octets → Octets → Option Octets
  rsaVerify : DigestAlgorithm → Octets → Octets → Octets → Bool
  ecdsaSign : Curve → Octets → Octets → Option Octets
  ecdsaVerifyFixed : Curve → Octets → Octets → Octets → Bool
  ecdsaVerifyDer : Curve → Octets → Octets → Octets → Bool
  rsaOaepEncrypt : OaepDigest → OaepDigest → Octets → Octets → Octets → Option Octets
  rsaOaepDecrypt : OaepDigest → OaepDigest → Octets → Octets → Option Octets
  aesCbcEncrypt : Octets → Octets → Octets → Option Octets
  aesCbcDecrypt : Octets → Octets → Octets → Option Octets
  aesGcmEncrypt : Octets → Octets → Octets → Option Octets
  aesGcmDecrypt : Octets → Octets → Octets → Option Octets

/-- `BASE64_STANDARD.encode`. -/
def base64Encode (bytes : Octets) : Str := Base64.encode bytes

/-- `BASE64_STANDARD.decode`, with the crate's error. -/
def base64Decode (text : Str) : Result Octets :=
  okOr (Base64.decode text) .base64Decode

variable (crypto : Primitives)

namespace X509Certificate

/-- `fingerprint_sha256`. -/
def fingerprintSha256 (cert : X509Certificate) : Octets := crypto.digest .sha256 cert.der

/-- `from_base64_x509`: base64 DER with blanks anywhere. -/
def fromBase64X509 (b64 : Str) : Result X509Certificate := do
  let der ← base64Decode (b64.filter fun c => !Text.isWhitespace c)
  okOr (crypto.fromDer der) .x509Parse

/-- `to_base64_x509`. -/
def toBase64X509 (cert : X509Certificate) : Str := base64Encode cert.der

/-- `same_public_key_as`. -/
def samePublicKeyAs (a b : X509Certificate) : Bool := a.spkiDer == b.spkiDer

end X509Certificate

/-- `PublicKey::verify_signature` succeeds: an ECDSA signature is tried as the
fixed-length form and then as DER; other pairings are refused. -/
def PublicKey.verifySignature (key : PublicKey) (algorithm : SignatureAlgorithm)
    (signedBytes signatureBytes : Octets) : Bool :=
  let ecdsa curve :=
    crypto.ecdsaVerifyFixed curve key.material signedBytes signatureBytes ||
      crypto.ecdsaVerifyDer curve key.material signedBytes signatureBytes
  match key.algorithmFamily, algorithm with
  | .rsa, .rsaSha256 => crypto.rsaVerify .sha256 key.material signedBytes signatureBytes
  | .rsa, .rsaSha384 => crypto.rsaVerify .sha384 key.material signedBytes signatureBytes
  | .rsa, .rsaSha512 => crypto.rsaVerify .sha512 key.material signedBytes signatureBytes
  | .ecdsaP256, .ecdsaSha256 => ecdsa .p256
  | .ecdsaP384, .ecdsaSha384 => ecdsa .p384
  | _, _ => false

namespace KeyPair

/-- The public half of a key pair. -/
def publicKey (key : KeyPair) : PublicKey :=
  ⟨key.algorithmFamily, crypto.publicMaterial key.algorithmFamily key.secret⟩

/-- The `Debug` name of a signature algorithm. -/
def debugAlgorithm : SignatureAlgorithm → Str
  | .rsaSha256 => "RsaSha256"
  | .rsaSha384 => "RsaSha384"
  | .rsaSha512 => "RsaSha512"
  | .ecdsaSha256 => "EcdsaSha256"
  | .ecdsaSha384 => "EcdsaSha384"
  | .ecdsaSha512 => "EcdsaSha512"

/-- The `Debug` name of a key family. -/
def debugFamily : PublicKeyAlgorithm → Str
  | .rsa => "Rsa"
  | .ecdsaP256 => "EcdsaP256"
  | .ecdsaP384 => "EcdsaP384"

/-- `KeyPair::sign`. -/
def sign (key : KeyPair) (algorithm : SignatureAlgorithm) (signedBytes : Octets) :
    Result Octets :=
  match key.algorithmFamily, algorithm with
  | .rsa, .rsaSha256 =>
      okOr (crypto.rsaSign .sha256 key.secret signedBytes)
        (.signatureVerification "rsa sign failed")
  | .rsa, .rsaSha384 =>
      okOr (crypto.rsaSign .sha384 key.secret signedBytes)
        (.signatureVerification "rsa sign failed")
  | .rsa, .rsaSha512 =>
      okOr (crypto.rsaSign .sha512 key.secret signedBytes)
        (.signatureVerification "rsa sign failed")
  | .ecdsaP256, .ecdsaSha256 =>
      okOr (crypto.ecdsaSign .p256 key.secret signedBytes)
        (.signatureVerification "ecdsa-p256 sign failed")
  | .ecdsaP384, .ecdsaSha384 =>
      okOr (crypto.ecdsaSign .p384 key.secret signedBytes)
        (.signatureVerification "ecdsa-p384 sign failed")
  | family, algorithm =>
      .error (.disallowedAlgorithm
        (debugAlgorithm algorithm ++ " does not match key family " ++ debugFamily family))

/-- `oaep_padding`: SHA-1 needs the weak-algorithms build. -/
def oaepPadding (oaepDigest mgf1Digest : OaepDigest) : Result (OaepDigest × OaepDigest) :=
  if oaepDigest = .sha1 then
    .error (.disallowedAlgorithm "RSA-OAEP-SHA1 requires the weak-algos feature")
  else if mgf1Digest = .sha1 then
    .error (.disallowedAlgorithm "RSA-OAEP MGF1-SHA1 requires the weak-algos feature")
  else .ok (oaepDigest, mgf1Digest)

/-- `KeyPair::decrypt_rsa_oaep`. -/
def decryptRsaOaep (key : KeyPair) (ciphertext : Octets) (oaepDigest mgf1Digest : OaepDigest) :
    Result Octets :=
  if key.algorithmFamily ≠ .rsa then .error (.decryptFailed "key transport")
  else do
    let (oaep, mgf1) ← oaepPadding oaepDigest mgf1Digest
    okOr (crypto.rsaOaepDecrypt oaep mgf1 key.secret ciphertext) (.decryptFailed "key transport")

end KeyPair

/-- What the callers rely on from the signature packages: a signature made
with a private key verifies under its public key. -/
def SignsCorrectly : Prop :=
  ∀ (key : KeyPair) (algorithm : SignatureAlgorithm) (bytes signature : Octets),
    key.sign crypto algorithm bytes = .ok signature →
      (key.publicKey crypto).verifySignature crypto algorithm bytes signature = true

/-! ## Transparent primitives -/

namespace Transparent

/-- Length and sum of a byte string, in octets. -/
def checksum (bytes : Octets) : Octets :=
  let n := bytes.length
  let sum := (bytes.map UInt8.toNat).sum
  [UInt8.ofNat (n / 256), UInt8.ofNat n, UInt8.ofNat (sum / 256), UInt8.ofNat sum]

/-- Primitives that follow the interface of the real ones and hide nothing: a
digest is a checksum, a signature names its key and checksum, a ciphertext its
key and plaintext. -/
def primitives : Primitives where
  digest _ bytes := checksum bytes
  fromDer der := some ⟨der, der, ⟨.rsa, der⟩⟩
  publicMaterial _ secret := secret
  rsaSign _ secret bytes := some (secret ++ checksum bytes)
  rsaVerify _ material bytes signature := signature == material ++ checksum bytes
  ecdsaSign _ secret bytes := some (secret ++ checksum bytes)
  ecdsaVerifyFixed _ material bytes signature := signature == material ++ checksum bytes
  ecdsaVerifyDer _ _ _ _ := false
  rsaOaepEncrypt _ _ _ _ message := some message
  rsaOaepDecrypt _ _ _ ciphertext := some ciphertext
  aesCbcEncrypt _ _ plaintext := some plaintext
  aesCbcDecrypt _ _ ciphertext := some ciphertext
  aesGcmEncrypt _ _ plaintext := some (plaintext ++ List.replicate 16 0)
  aesGcmDecrypt _ _ ciphertext := some (ciphertext.take (ciphertext.length - 16))

theorem signsCorrectly : SignsCorrectly primitives := by
  rintro ⟨family, secret, cert⟩ algorithm bytes signature h
  have same : (secret ++ checksum bytes == secret ++ checksum bytes) = true := beq_self_eq_true _
  cases family <;> cases algorithm <;> try cases h
  case rsa.rsaSha256.refl | rsa.rsaSha384.refl | rsa.rsaSha512.refl => exact same
  case ecdsaP256.ecdsaSha256.refl | ecdsaP384.ecdsaSha384.refl =>
    exact (Bool.or_eq_true _ _).mpr (.inl same)

end Transparent

end Saml.Crypto
