import Saml.Random
import Saml.Xml.Emit
import Saml.Xmlenc.Decrypt

/-!
# Encryption

`xmlenc::encrypt`: serialize an assertion, encrypt it under a fresh session key
and wrap that key for the recipient.
-/

namespace Saml.Xmlenc

open Xml Crypto

/-- The type of an encrypted element. -/
def ENCRYPTED_DATA_TYPE_ELEMENT : Str := "http://www.w3.org/2001/04/xmlenc#Element"

/-- A name in the XML-Encryption namespace. -/
def xenc (loc : Str) : QName := ⟨some XENC_NS, loc⟩

/-- The draws of one encryption: the session key, the initialization vector of
the cipher, and the padding seed of the key transport. -/
structure EncryptionDraws where
  sessionKey : (n : Nat) → Draw n
  iv : (n : Nat) → Draw n
  seed : Octets

/-- `fill_random`. -/
def fillRandom {n : Nat} (draw : Draw n) : Result Octets :=
  (okOr draw (.decryptFailed "rng")).map Subtype.val

/-- Length of the initialization vector in octets. -/
def DataEncryptionAlgorithm.ivSize : DataEncryptionAlgorithm → Nat
  | .aes128Cbc | .aes256Cbc => 16
  | .aes128Gcm | .aes256Gcm => 12

variable (crypto : Primitives)

/-- `encrypt_data`: the initialization vector and the ciphertext. -/
def encryptData (algorithm : DataEncryptionAlgorithm) (draws : EncryptionDraws)
    (sessionKey plaintext : Octets) : Result (Octets × Octets) := do
  let iv ← fillRandom (draws.iv algorithm.ivSize)
  let encrypted :=
    match algorithm with
    | .aes128Cbc | .aes256Cbc => crypto.aesCbcEncrypt sessionKey iv plaintext
    | .aes128Gcm | .aes256Gcm => crypto.aesGcmEncrypt sessionKey iv plaintext
  let ciphertext ← okOr encrypted (.decryptFailed "data")
  .ok (iv, ciphertext)

/-- `wrap_session_key`. -/
def wrapSessionKey (recipient : PublicKey) (algorithm : KeyTransportAlgorithm)
    (draws : EncryptionDraws) (sessionKey : Octets) : Result Octets :=
  match algorithm with
  | .rsaOaep =>
      okOr (crypto.rsaOaepEncrypt .sha256 .sha256 recipient.material draws.seed sessionKey)
        (.decryptFailed "key transport")
  | .rsaOaepMgf1Sha1 =>
      .error (.disallowedAlgorithm "RSA-OAEP-SHA1 outbound requires the weak-algos feature")

/-- An element of the XML-Encryption namespace around one child. -/
def xencWrapper (loc : Str) (child : Element) : Element :=
  (ElementOf.build (xenc loc)).withChild (.element child)

/-- A `CipherData` with its `CipherValue`. -/
def cipherData (b64 : Str) : Element :=
  xencWrapper "CipherData" ((ElementOf.build (xenc "CipherValue")).withText b64)

/-- An element with an `Algorithm` attribute. -/
def algorithmElement (qname : QName) (uri : Str) : Element :=
  (ElementOf.build qname).withAttribute ⟨none, "Algorithm"⟩ uri

/-- `build_key_transport_encryption_method`. -/
def buildKeyTransportEncryptionMethod (algorithm : KeyTransportAlgorithm) : Element :=
  let method := algorithmElement (xenc "EncryptionMethod") algorithm.uri
  match algorithm with
  | .rsaOaep =>
      (method.withChild (.element
        (algorithmElement ⟨some DS_NS, "DigestMethod"⟩ OaepDigest.sha256.uri))).withChild
          (.element (algorithmElement ⟨some XENC11_NS, "MGF"⟩ OaepDigest.sha256.mgf1Uri))
  | .rsaOaepMgf1Sha1 =>
      method.withChild (.element
        (algorithmElement ⟨some DS_NS, "DigestMethod"⟩ OaepDigest.sha1.uri))

/-- `build_encrypted_assertion_element`: every declaration stands on the outer
wrapper, that of `xenc11` only when it is used. -/
def buildEncryptedAssertionElement (dataAlgorithm : DataEncryptionAlgorithm)
    (keyTransport : KeyTransportAlgorithm) (wrappedKeyB64 dataCipherB64 : Str) : Element :=
  let keyEm := buildKeyTransportEncryptionMethod keyTransport
  let encryptedKey := ((ElementOf.build (xenc "EncryptedKey")).withChild (.element keyEm)).withChild
    (.element (cipherData wrappedKeyB64))
  let keyInfo := (ElementOf.build ⟨some DS_NS, "KeyInfo"⟩).withChild (.element encryptedKey)
  let encryptedData := ((((ElementOf.build (xenc "EncryptedData")).withAttribute ⟨none, "Type"⟩
    ENCRYPTED_DATA_TYPE_ELEMENT).withChild
      (.element (algorithmElement (xenc "EncryptionMethod") dataAlgorithm.uri))).withChild
      (.element keyInfo)).withChild (.element (cipherData dataCipherB64))
  let wrapper := (((ElementOf.build ⟨some SAML_NS, "EncryptedAssertion"⟩).withNamespace
    (some "saml") SAML_NS).withNamespace (some "xenc") XENC_NS).withNamespace (some "ds") DS_NS
  let wrapper :=
    if (keyEm.childElement (some XENC11_NS) "MGF").isSome then
      wrapper.withNamespace (some "xenc11") XENC11_NS
    else wrapper
  wrapper.withChild (.element encryptedData)

/-- `encrypt_assertion`. -/
def encryptAssertion (assertion : Element) (recipient : X509Certificate)
    (dataAlgorithm : DataEncryptionAlgorithm) (keyTransport : KeyTransportAlgorithm)
    (draws : EncryptionDraws) : Result Element :=
  if recipient.publicKey.algorithmFamily ≠ .rsa then
    .error (.disallowedAlgorithm "key transport requires RSA cert")
  else do
    let plaintext ← emitElement assertion
    let sessionKey ← fillRandom (draws.sessionKey dataAlgorithm.keySize)
    let (iv, ciphertext) ←
      encryptData crypto dataAlgorithm draws sessionKey (Text.asBytes plaintext)
    let wrappedKey ← wrapSessionKey crypto recipient.publicKey keyTransport draws sessionKey
    .ok (buildEncryptedAssertionElement dataAlgorithm keyTransport (base64Encode wrappedKey)
      (base64Encode (iv ++ ciphertext)))

end Saml.Xmlenc
