import Saml.Redirect

/-!
# Wire messages

The front-channel dispatches of `binding` and the decoder of inbound messages:
a form field in base64 for HTTP-POST, a query string for HTTP-Redirect.
-/

namespace Saml

open Crypto Redirect

/-- A form posted through the user agent. -/
structure PostForm where
  action : Url
  samlRequest : Option Str
  samlResponse : Option Str
  relayState : Option Str
deriving DecidableEq

/-- A message on its way through the user agent. -/
inductive Dispatch where
  | redirect (url : Url)
  | post (form : PostForm)
deriving DecidableEq

namespace Post

/-- The bound on a decoded message. -/
def MAX_DECODED_BYTES : Nat := 10 * 1024 * 1024

/-- The bound on its base64 text. -/
def MAX_BASE64_INPUT_LEN : Nat := MAX_DECODED_BYTES * 4 / 3 + 4

/-- `post::encode_request`. -/
def encodeRequest (destination : Url) (xml : Octets) (relayState : Option Str) : Dispatch :=
  .post ⟨destination, some (base64Encode xml), none, relayState⟩

/-- `post::encode_response`. -/
def encodeResponse (destination : Url) (xml : Octets) (relayState : Option Str) : Dispatch :=
  .post ⟨destination, none, some (base64Encode xml), relayState⟩

/-- `post::decode`, without the relay state it passes through. -/
def decode (b64 : Str) : Result Octets :=
  if Text.byteLen b64 > MAX_BASE64_INPUT_LEN then .error .base64Decode
  else do
    let xml ← base64Decode b64
    if xml.length > MAX_DECODED_BYTES then .error .base64Decode else .ok xml

end Post

/-- Detached signature of a Redirect-bound message. -/
structure DetachedSignature where
  signature : Octets
  sigAlg : Str
  rawQueryString : Str
deriving DecidableEq

/-- The output of `decode_wire`. -/
structure DecodedWire where
  xml : Octets
  relayState : Option Str
  detachedSignature : Option Octets
  detachedSigAlg : Option Str
  signedQueryString : Option Str
deriving DecidableEq

namespace DecodedWire

/-- `as_detached_signature`: all three parts or nothing. -/
def asDetachedSignature (decoded : DecodedWire) : Option DetachedSignature := do
  let signature ← decoded.detachedSignature
  let sigAlg ← decoded.detachedSigAlg
  let rawQueryString ← decoded.signedQueryString
  some ⟨signature, sigAlg, rawQueryString⟩

/-- A message without Redirect-only material. -/
def plain (xml : Octets) : DecodedWire := ⟨xml, none, none, none, none⟩

/-- The fields of a decoded query. -/
def ofRedirect (decoded : DecodedRedirect) : DecodedWire :=
  ⟨decoded.xml, decoded.relayState, decoded.signature, decoded.sigAlg, decoded.signedQueryString⟩

end DecodedWire

variable (web : Web)

/-- The Redirect branch of a wire decoder. -/
def decodeRedirect (body : Octets) (direction : RedirectDirection) : Result DecodedWire := do
  let qs ← okOr (Text.fromUtf8 body) .base64Decode
  let decoded ← Redirect.decode web qs direction
  .ok (.ofRedirect decoded)

/-- The POST branch of a wire decoder. -/
def decodePost (body : Octets) : Result DecodedWire := do
  let b64 ← okOr (Text.fromUtf8 body) .base64Decode
  let xml ← Post.decode b64
  .ok (.plain xml)

/-- `decode_wire`. -/
def decodeWire (body : Octets) (binding : Binding) (direction : RedirectDirection) :
    Result DecodedWire :=
  match binding with
  | .httpRedirect => decodeRedirect web body direction
  | .httpPost => decodePost body
  | .soap => .error (.unsupportedByPeer .soap)
  | .httpArtifact => .error (.unsupportedByPeer .httpArtifact)

variable {web}

/-- The Redirect-only parts of a POST message are absent. -/
theorem decodePost_ok {body : Octets} {decoded : DecodedWire} (h : decodePost body = .ok decoded) :
    decoded = .plain decoded.xml := by
  obtain ⟨b64, _, h⟩ := bind_eq_ok_iff.mp h
  obtain ⟨xml, _, h⟩ := bind_eq_ok_iff.mp h
  obtain rfl := Except.ok.inj h
  rfl

/-- A query string is read from its octets. -/
theorem decodeWire_asBytes {query : Str} {direction : RedirectDirection}
    {decoded : DecodedRedirect} (h : Redirect.decode web query direction = .ok decoded) :
    decodeWire web (Text.asBytes query) .httpRedirect direction = .ok (.ofRedirect decoded) := by
  refine bind_eq_ok_iff.mpr ⟨query, okOr_eq_ok_iff.mpr (Text.fromUtf8_asBytes query), ?_⟩
  exact bind_eq_ok_iff.mpr ⟨decoded, h, rfl⟩

/-- The parts of a detached signature. -/
theorem asDetachedSignature_eq_some_iff {decoded : DecodedWire} {d : DetachedSignature} :
    decoded.asDetachedSignature = some d ↔
      decoded.detachedSignature = some d.signature ∧ decoded.detachedSigAlg = some d.sigAlg ∧
        decoded.signedQueryString = some d.rawQueryString := by
  rcases decoded with ⟨xml, relayState, signature, sigAlg, signedQueryString⟩
  rcases d with ⟨s, a, q⟩
  cases signature <;> cases sigAlg <;> cases signedQueryString <;>
    simp [DecodedWire.asDetachedSignature]

end Saml
