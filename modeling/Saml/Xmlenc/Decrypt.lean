import Saml.Xml.Parse
import Saml.Dsig.Reference

/-!
# Decryption

`xmlenc::decrypt`: from an `xenc:EncryptedData` payload to the element its
plaintext holds.
-/

namespace Saml.Xmlenc

open Xml Crypto

/-- `oaep_digest_from_method`: SHA-1 when none is declared. -/
def oaepDigestFromMethod (encryptionMethod : Element) : Result OaepDigest :=
  match encryptionMethod.childElement (some DS_NS) "DigestMethod" with
  | none => .ok .sha1
  | some digestMethod => do
      let uri ← okOr (digestMethod.attr none "Algorithm")
        (.decryptFailed "missing DigestMethod/@Algorithm")
      OaepDigest.fromUri uri

/-- `mgf1_digest_from_method`. -/
def mgf1DigestFromMethod (encryptionMethod : Element) : Result (Option OaepDigest) :=
  match encryptionMethod.childElement (some XENC11_NS) "MGF" with
  | none => .ok none
  | some mgf => do
      let uri ← okOr (mgf.attr none "Algorithm") (.decryptFailed "missing MGF/@Algorithm")
      (OaepDigest.fromMgf1Uri uri).map some

/-- The MGF1 hash: declared or SHA-1, and fixed by the older transport. -/
def resolveMgf1Digest (keyTransport : KeyTransportAlgorithm) (encryptionMethod : Element) :
    Result OaepDigest :=
  match keyTransport with
  | .rsaOaep => do
      let declared ← mgf1DigestFromMethod encryptionMethod
      .ok (declared.getD .sha1)
  | .rsaOaepMgf1Sha1 =>
      if (encryptionMethod.childElement (some XENC11_NS) "MGF").isSome then
        .error (.decryptFailed "rsa-oaep-mgf1p must not declare MGF")
      else .ok .sha1

/-- `decode_base64_ws_tolerant`. -/
def decodeBase64WsTolerant (text : Str) : Result Octets :=
  base64Decode (text.filter fun c => !Text.isWhitespace c)

/-- `extract_cipher_value`. -/
def extractCipherValue (parent : Element) : Result Octets := do
  let cipherData ← okOr (parent.childElement (some XENC_NS) "CipherData")
    (.decryptFailed "missing CipherData")
  let cipherValue ← okOr (cipherData.childElement (some XENC_NS) "CipherValue")
    (.decryptFailed "missing CipherValue")
  decodeBase64WsTolerant cipherValue.textContent

variable (crypto : Primitives)

/-- `unwrap_session_key`: the first key that unwraps wins. -/
def unwrapSessionKey (wrapped : Octets) (keys : List KeyPair) (oaepDigest mgf1Digest : OaepDigest) :
    Result Octets :=
  okOr (keys.findSome? fun key =>
      (key.decryptRsaOaep crypto wrapped oaepDigest mgf1Digest).toOption)
    (.decryptFailed "key transport")

/-- `decrypt_cbc`. -/
def decryptCbc (sessionKey ciphertext : Octets) : Result Octets :=
  if ciphertext.length < 16 then .error (.decryptFailed "data")
  else
    okOr (crypto.aesCbcDecrypt sessionKey (ciphertext.take 16) (ciphertext.drop 16))
      (.decryptFailed "data")

/-- `decrypt_gcm`. -/
def decryptGcm (sessionKey ciphertext : Octets) : Result Octets :=
  if ciphertext.length < 12 + 16 then .error (.decryptFailed "data")
  else
    okOr (crypto.aesGcmDecrypt sessionKey (ciphertext.take 12) (ciphertext.drop 12))
      (.decryptFailed "data")

/-- `decrypt_data`. The session key has the algorithm's length. -/
def decryptData (algorithm : DataEncryptionAlgorithm) (sessionKey ciphertext : Octets) :
    Result Octets :=
  match algorithm with
  | .aes128Cbc | .aes256Cbc => decryptCbc crypto sessionKey ciphertext
  | .aes128Gcm | .aes256Gcm => decryptGcm crypto sessionKey ciphertext

/-- Steps 1 to 9 of `decrypt_encrypted_assertion`: the decrypted octets. -/
def decryptPayload (encryptedAssertion : Element) (decryptionKeys : List KeyPair)
    (policy : PeerCryptoPolicy) : Result Octets := do
  let encryptedData ← okOr (encryptedAssertion.childElement (some XENC_NS) "EncryptedData")
    (.decryptFailed "missing EncryptedData")
  let dataEm ← okOr (encryptedData.childElement (some XENC_NS) "EncryptionMethod")
    (.decryptFailed "missing EncryptedData/EncryptionMethod")
  let dataAlgUri ← okOr (dataEm.attr none "Algorithm")
    (.decryptFailed "missing EncryptionMethod/@Algorithm")
  let dataAlgorithm ← DataEncryptionAlgorithm.fromUri dataAlgUri
  if dataAlgorithm ∉ policy.allowedDataEncryptionAlgorithms then
    .error (.disallowedAlgorithm dataAlgUri)
  else do
    let keyInfo ← okOr (encryptedData.childElement (some DS_NS) "KeyInfo")
      (.decryptFailed "missing KeyInfo")
    let encryptedKey ← okOr (keyInfo.childElement (some XENC_NS) "EncryptedKey")
      (.decryptFailed "missing EncryptedKey")
    let keyEm ← okOr (encryptedKey.childElement (some XENC_NS) "EncryptionMethod")
      (.decryptFailed "missing EncryptedKey/EncryptionMethod")
    let keyAlgUri ← okOr (keyEm.attr none "Algorithm")
      (.decryptFailed "missing EncryptedKey/EncryptionMethod/@Algorithm")
    let keyTransport ← KeyTransportAlgorithm.fromUri keyAlgUri
    if keyTransport ∉ policy.allowedKeyTransportAlgorithms then
      .error (.disallowedAlgorithm keyAlgUri)
    else do
      let oaepDigest ← oaepDigestFromMethod keyEm
      let mgf1Digest ← resolveMgf1Digest keyTransport keyEm
      if oaepDigest ∉ policy.allowedOaepDigestAlgorithms then
        .error (.disallowedAlgorithm oaepDigest.uri)
      else if mgf1Digest ∉ policy.allowedOaepMgf1DigestAlgorithms then
        .error (.disallowedAlgorithm mgf1Digest.mgf1Uri)
      else do
        let wrappedKeyBytes ← extractCipherValue encryptedKey
        let sessionKey ←
          unwrapSessionKey crypto wrappedKeyBytes decryptionKeys oaepDigest mgf1Digest
        if sessionKey.length ≠ dataAlgorithm.keySize then
          .error (.decryptFailed "key size mismatch")
        else do
          let ciphertext ← extractCipherValue encryptedData
          decryptData crypto dataAlgorithm sessionKey ciphertext

/-- `decrypt_encrypted_assertion`: decrypt, parse, and return the root. -/
def decryptEncryptedAssertion (qx : QuickXml) (encryptedAssertion : Element)
    (decryptionKeys : List KeyPair) (policy : PeerCryptoPolicy) : Result Element := do
  let plaintext ← decryptPayload crypto encryptedAssertion decryptionKeys policy
  let document ← Document.parse qx plaintext
  .ok document.root

end Saml.Xmlenc
