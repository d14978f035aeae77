import Saml.Error

/-!
# Algorithm identifiers and peer policy

`dsig::algorithms`, `xmlenc::algorithms` and the OAEP digest names of
`crypto::keypair`, with the crate's default features.
-/

namespace Saml

/-- Look an algorithm up by its URI, or by one of its other URIs. -/
def fromUriTable {α : Type} (uri : α → Str) (algs : List α) (aliases : List (Str × α))
    (name : Str) : Result α :=
  match (algs.map (fun alg => (uri alg, alg)) ++ aliases).lookup name with
  | some alg => .ok alg
  | none => .error (.disallowedAlgorithm name)

/-- Distinct URIs make the table find each algorithm under its own URI. -/
theorem fromUriTable_uri {α : Type} {uri : α → Str} (inj : Function.Injective uri)
    {algs : List α} (aliases : List (Str × α)) {alg : α} (mem : alg ∈ algs) :
    fromUriTable uri algs aliases (uri alg) = .ok alg := by
  have hlookup :
      (algs.map (fun alg => (uri alg, alg)) ++ aliases).lookup (uri alg) = some alg := by
    induction algs with
    | nil => cases mem
    | cons a algs ih =>
        rw [List.map_cons, List.cons_append, List.lookup_cons]
        by_cases h : uri alg = uri a
        · rw [inj h, beq_self_eq_true]
        · have hne : alg ≠ a := fun heq => h (congrArg uri heq)
          rw [beq_false_of_ne h]
          exact ih (List.mem_of_ne_of_mem hne mem)
  rw [fromUriTable, hlookup]

namespace Dsig

/-- Signature algorithms. -/
inductive SignatureAlgorithm where
  | rsaSha256
  | rsaSha384
  | rsaSha512
  | ecdsaSha256
  | ecdsaSha384
  | ecdsaSha512
deriving DecidableEq, Repr

namespace SignatureAlgorithm

/-- The default allow-list. -/
def DEFAULTS : List SignatureAlgorithm :=
  [.rsaSha256, .rsaSha384, .rsaSha512, .ecdsaSha256, .ecdsaSha384, .ecdsaSha512]

def uriText : SignatureAlgorithm → String
  | .rsaSha256 => "http://www.w3.org/2001/04/xmldsig-more#rsa-sha256"
  | .rsaSha384 => "http://www.w3.org/2001/04/xmldsig-more#rsa-sha384"
  | .rsaSha512 => "http://www.w3.org/2001/04/xmldsig-more#rsa-sha512"
  | .ecdsaSha256 => "http://www.w3.org/2001/04/xmldsig-more#ecdsa-sha256"
  | .ecdsaSha384 => "http://www.w3.org/2001/04/xmldsig-more#ecdsa-sha384"
  | .ecdsaSha512 => "http://www.w3.org/2001/04/xmldsig-more#ecdsa-sha512"

def uri (alg : SignatureAlgorithm) : Str := alg.uriText

def fromUri : Str → Result SignatureAlgorithm :=
  fromUriTable uri DEFAULTS []

theorem uriText_injective : Function.Injective uriText := by
  intro a b h
  cases a <;> cases b <;> simp only [uriText, String.reduceEq] at h ⊢

theorem uri_injective : Function.Injective uri :=
  fun _ _ h => uriText_injective (String.toList_injective h)

theorem fromUri_uri (alg : SignatureAlgorithm) : fromUri alg.uri = .ok alg := by
  refine fromUriTable_uri uri_injective _ ?_
  cases alg <;> decide

end SignatureAlgorithm

/-- Digest algorithms. -/
inductive DigestAlgorithm where
  | sha256
  | sha384
  | sha512
deriving DecidableEq, Repr

namespace DigestAlgorithm

/-- The default allow-list. -/
def DEFAULTS : List DigestAlgorithm := [.sha256, .sha384, .sha512]

def uriText : DigestAlgorithm → String
  | .sha256 => "http://www.w3.org/2001/04/xmlenc#sha256"
  | .sha384 => "http://www.w3.org/2001/04/xmldsig-more#sha384"
  | .sha512 => "http://www.w3.org/2001/04/xmlenc#sha512"

def uri (alg : DigestAlgorithm) : Str := alg.uriText

/-- SHA-384 is read under both of its URIs. -/
def fromUri : Str → Result DigestAlgorithm :=
  fromUriTable uri DEFAULTS [("http://www.w3.org/2001/04/xmlenc#sha384", sha384)]

theorem uriText_injective : Function.Injective uriText := by
  intro a b h
  cases a <;> cases b <;> simp only [uriText, String.reduceEq] at h ⊢

theorem uri_injective : Function.Injective uri :=
  fun _ _ h => uriText_injective (String.toList_injective h)

theorem fromUri_uri (alg : DigestAlgorithm) : fromUri alg.uri = .ok alg := by
  refine fromUriTable_uri uri_injective _ ?_
  cases alg <;> decide

end DigestAlgorithm

/-- Canonicalization algorithms. -/
inductive C14nAlgorithm where
  | exclusiveCanonical
  | exclusiveCanonicalWithComments
  | inclusiveCanonical
  | inclusiveCanonicalWithComments
deriving DecidableEq, Repr

namespace C14nAlgorithm

/-- The default allow-list. -/
def DEFAULTS : List C14nAlgorithm := [.exclusiveCanonical]

def uriText : C14nAlgorithm → String
  | .exclusiveCanonical => "http://www.w3.org/2001/10/xml-exc-c14n#"
  | .exclusiveCanonicalWithComments => "http://www.w3.org/2001/10/xml-exc-c14n#WithComments"
  | .inclusiveCanonical => "http://www.w3.org/TR/2001/REC-xml-c14n-20010315"
  | .inclusiveCanonicalWithComments =>
      "http://www.w3.org/TR/2001/REC-xml-c14n-20010315#WithComments"

def uri (alg : C14nAlgorithm) : Str := alg.uriText

def fromUri : Str → Result C14nAlgorithm :=
  fromUriTable uri
    [.exclusiveCanonical, .exclusiveCanonicalWithComments, .inclusiveCanonical,
      .inclusiveCanonicalWithComments] []

theorem uriText_injective : Function.Injective uriText := by
  intro a b h
  cases a <;> cases b <;> simp only [uriText, String.reduceEq] at h ⊢

theorem uri_injective : Function.Injective uri :=
  fun _ _ h => uriText_injective (String.toList_injective h)

theorem fromUri_uri (alg : C14nAlgorithm) : fromUri alg.uri = .ok alg := by
  refine fromUriTable_uri uri_injective _ ?_
  cases alg <;> decide

def includesComments : C14nAlgorithm → Bool
  | .exclusiveCanonicalWithComments | .inclusiveCanonicalWithComments => true
  | _ => false

def isExclusive : C14nAlgorithm → Bool
  | .exclusiveCanonical | .exclusiveCanonicalWithComments => true
  | _ => false

end C14nAlgorithm

end Dsig

namespace Xmlenc

/-- Data-encryption algorithms. -/
inductive DataEncryptionAlgorithm where
  | aes128Cbc
  | aes256Cbc
  | aes128Gcm
  | aes256Gcm
deriving DecidableEq, Repr

namespace DataEncryptionAlgorithm

def uriText : DataEncryptionAlgorithm → String
  | .aes128Cbc => "http://www.w3.org/2001/04/xmlenc#aes128-cbc"
  | .aes256Cbc => "http://www.w3.org/2001/04/xmlenc#aes256-cbc"
  | .aes128Gcm => "http://www.w3.org/2009/xmlenc11#aes128-gcm"
  | .aes256Gcm => "http://www.w3.org/2009/xmlenc11#aes256-gcm"

def uri (alg : DataEncryptionAlgorithm) : Str := alg.uriText

def fromUri : Str → Result DataEncryptionAlgorithm :=
  fromUriTable uri [.aes128Cbc, .aes256Cbc, .aes128Gcm, .aes256Gcm] []

theorem uriText_injective : Function.Injective uriText := by
  intro a b h
  cases a <;> cases b <;> simp only [uriText, String.reduceEq] at h ⊢

theorem uri_injective : Function.Injective uri :=
  fun _ _ h => uriText_injective (String.toList_injective h)

theorem fromUri_uri (alg : DataEncryptionAlgorithm) : fromUri alg.uri = .ok alg := by
  refine fromUriTable_uri uri_injective _ ?_
  cases alg <;> decide

/-- Key length in octets. -/
def keySize : DataEncryptionAlgorithm → Nat
  | .aes128Cbc | .aes128Gcm => 16
  | .aes256Cbc | .aes256Gcm => 32

end DataEncryptionAlgorithm

/-- Key-transport algorithms. -/
inductive KeyTransportAlgorithm where
  | rsaOaep
  | rsaOaepMgf1Sha1
deriving DecidableEq, Repr

namespace KeyTransportAlgorithm

def uriText : KeyTransportAlgorithm → String
  | .rsaOaep => "http://www.w3.org/2009/xmlenc11#rsa-oaep"
  | .rsaOaepMgf1Sha1 => "http://www.w3.org/2001/04/xmlenc#rsa-oaep-mgf1p"

def uri (alg : KeyTransportAlgorithm) : Str := alg.uriText

def fromUri : Str → Result KeyTransportAlgorithm :=
  fromUriTable uri [.rsaOaep, .rsaOaepMgf1Sha1] []

theorem uriText_injective : Function.Injective uriText := by
  intro a b h
  cases a <;> cases b <;> simp only [uriText, String.reduceEq] at h ⊢

theorem uri_injective : Function.Injective uri :=
  fun _ _ h => uriText_injective (String.toList_injective h)

theorem fromUri_uri (alg : KeyTransportAlgorithm) : fromUri alg.uri = .ok alg := by
  refine fromUriTable_uri uri_injective _ ?_
  cases alg <;> decide

end KeyTransportAlgorithm

/-- The OAEP hash functions. -/
inductive OaepDigest where
  | sha1
  | sha256
  | sha384
  | sha512
deriving DecidableEq, Repr

namespace OaepDigest

/-- The default message-digest allow-list. -/
def DEFAULTS : List OaepDigest := [.sha256, .sha384, .sha512]

/-- The default MGF1 allow-list. -/
def MGF1_DEFAULTS : List OaepDigest := [.sha1, .sha256, .sha384, .sha512]

def uriText : OaepDigest → String
  | .sha1 => "http://www.w3.org/2000/09/xmldsig#sha1"
  | .sha256 => "http://www.w3.org/2001/04/xmlenc#sha256"
  | .sha384 => "http://www.w3.org/2001/04/xmldsig-more#sha384"
  | .sha512 => "http://www.w3.org/2001/04/xmlenc#sha512"

def uri (alg : OaepDigest) : Str := alg.uriText

def mgf1UriText : OaepDigest → String
  | .sha1 => "http://www.w3.org/2009/xmlenc11#mgf1sha1"
  | .sha256 => "http://www.w3.org/2009/xmlenc11#mgf1sha256"
  | .sha384 => "http://www.w3.org/2009/xmlenc11#mgf1sha384"
  | .sha512 => "http://www.w3.org/2009/xmlenc11#mgf1sha512"

def mgf1Uri (alg : OaepDigest) : Str := alg.mgf1UriText

/-- SHA-384 is read under both of its URIs. -/
def fromUri : Str → Result OaepDigest :=
  fromUriTable uri MGF1_DEFAULTS [("http://www.w3.org/2001/04/xmlenc#sha384", sha384)]

def fromMgf1Uri : Str → Result OaepDigest :=
  fromUriTable mgf1Uri MGF1_DEFAULTS []

theorem uriText_injective : Function.Injective uriText := by
  intro a b h
  cases a <;> cases b <;> simp only [uriText, String.reduceEq] at h ⊢

theorem uri_injective : Function.Injective uri :=
  fun _ _ h => uriText_injective (String.toList_injective h)

theorem fromUri_uri (alg : OaepDigest) : fromUri alg.uri = .ok alg := by
  refine fromUriTable_uri uri_injective _ ?_
  cases alg <;> decide

theorem mgf1UriText_injective : Function.Injective mgf1UriText := by
  intro a b h
  cases a <;> cases b <;> simp only [mgf1UriText, String.reduceEq] at h ⊢

theorem mgf1Uri_injective : Function.Injective mgf1Uri :=
  fun _ _ h => mgf1UriText_injective (String.toList_injective h)

theorem fromMgf1Uri_mgf1Uri (alg : OaepDigest) : fromMgf1Uri alg.mgf1Uri = .ok alg := by
  refine fromUriTable_uri mgf1Uri_injective [] ?_
  cases alg <;> decide

end OaepDigest

end Xmlenc

/-- Which algorithms are accepted from a peer. -/
structure PeerCryptoPolicy where
  allowedSignatureAlgorithms : List Dsig.SignatureAlgorithm
  allowedDigestAlgorithms : List Dsig.DigestAlgorithm
  allowedC14nAlgorithms : List Dsig.C14nAlgorithm
  allowedDataEncryptionAlgorithms : List Xmlenc.DataEncryptionAlgorithm
  allowedKeyTransportAlgorithms : List Xmlenc.KeyTransportAlgorithm
  allowedOaepDigestAlgorithms : List Xmlenc.OaepDigest
  allowedOaepMgf1DigestAlgorithms : List Xmlenc.OaepDigest

/-- `PeerCryptoPolicy::strong_defaults`. -/
def PeerCryptoPolicy.strongDefaults : PeerCryptoPolicy where
  allowedSignatureAlgorithms := Dsig.SignatureAlgorithm.DEFAULTS
  allowedDigestAlgorithms := Dsig.DigestAlgorithm.DEFAULTS
  allowedC14nAlgorithms := Dsig.C14nAlgorithm.DEFAULTS
  allowedDataEncryptionAlgorithms := [.aes128Gcm, .aes256Gcm]
  allowedKeyTransportAlgorithms := [.rsaOaep]
  allowedOaepDigestAlgorithms := Xmlenc.OaepDigest.DEFAULTS
  allowedOaepMgf1DigestAlgorithms := Xmlenc.OaepDigest.MGF1_DEFAULTS

end Saml
