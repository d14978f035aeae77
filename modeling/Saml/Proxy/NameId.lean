import Saml.Library.Framing
import Saml.Proxy.Flow

/-!
# Name identifier transforms

The transforms that mint a downstream name identifier. The persistent one is a
keyed hash over the upstream identity provider, the upstream subject and the
downstream service provider.
-/

namespace Saml.Proxy

open Library Library.Framing

/-- The key of the keyed hash, and its output. -/
abbrev Octets32 := { octets : Octets // octets.length = 32 }

/-- `PersistentPerSpHmac`. -/
structure PersistentPerSpHmac where
  key : Octets32
  format : NameIdFormat

/-- The domain separator, with its version. -/
def PERSISTENT_DOMAIN : Str := "saml-proxy-persistent-nameid-v1\x00"

namespace PersistentPerSpHmac

/-- `u64::try_from(field.len())` as big-endian octets. -/
def lengthPrefix (field : Octets) : Result Octets :=
  match Number.u64 field.length with
  | some len => .ok (bigEndian 8 len.val)
  | none =>
      .error (.invalidConfiguration "PersistentPerSpHmac input exceeds u64 length")

/-- What one field adds to the hash. -/
def framedField (field : Str) : Result Octets := do
  let len ← lengthPrefix (Text.asBytes field)
  .ok (len ++ Text.asBytes field)

/-- The octets the keyed hash is updated with. -/
def hmacInput (upstreamIdpEntityId upstreamSubject downstreamSpEntityId : Str) :
    Result Octets := do
  let fields ← [upstreamIdpEntityId, upstreamSubject, downstreamSpEntityId].mapM framedField
  .ok (Text.asBytes PERSISTENT_DOMAIN ++ fields.flatten)

/-- `transform`, over the keyed hash of the `hmac` package. -/
def transform (hmac : Octets32 → Octets → Octets32) (self : PersistentPerSpHmac) :
    NameIdTransform := fun upstreamIdpEntityId upstreamSubject _ downstreamSp => do
  let input ← hmacInput upstreamIdpEntityId upstreamSubject.value downstreamSp.entityId
  .ok {
    value := base64UrlNoPad (hmac self.key input).val
    format := self.format
    nameQualifier := none
    spNameQualifier := some downstreamSp.entityId
    spProvidedId := none }

/-- A field that is short enough stands behind its length. -/
theorem framedField_eq_ok_iff {field : Str} {octets : Octets} :
    framedField field = .ok octets ↔
      (Text.asBytes field).length < 2 ^ 64 ∧ frame (bigEndian 8) (Text.asBytes field) = octets := by
  unfold framedField lengthPrefix Number.u64 frame
  by_cases hlength : (Text.asBytes field).length < 2 ^ 64
  · rw [dif_pos hlength]
    constructor
    · intro h
      exact ⟨hlength, Except.ok.inj h⟩
    · rintro ⟨-, rfl⟩
      rfl
  · rw [dif_neg hlength]
    constructor
    · intro h
      cases h
    · rintro ⟨hshort, -⟩
      exact absurd hshort hlength

/-- The input is the domain separator and the three framed fields. -/
theorem hmacInput_eq_ok_iff {idp subject sp : Str} {input : Octets} :
    hmacInput idp subject sp = .ok input ↔
      (∀ field ∈ [idp, subject, sp], (Text.asBytes field).length < 2 ^ 64) ∧
        Text.asBytes PERSISTENT_DOMAIN ++
          frames (bigEndian 8) ([idp, subject, sp].map Text.asBytes) = input := by
  have hfields : ∀ parts, [idp, subject, sp].mapM framedField = .ok parts ↔
      (∀ field ∈ [idp, subject, sp], (Text.asBytes field).length < 2 ^ 64) ∧
        [idp, subject, sp].map (frame (bigEndian 8) ∘ Text.asBytes) = parts := by
    intro parts
    simp only [mapM_eq_ok_iff, framedField_eq_ok_iff, List.forall₂_and_left,
      ← List.forall₂_eq_eq_eq, List.forall₂_map_left_iff, Function.comp_apply]
  have hflat : ([idp, subject, sp].map (frame (bigEndian 8) ∘ Text.asBytes)).flatten =
      frames (bigEndian 8) ([idp, subject, sp].map Text.asBytes) := by
    rw [frames, List.flatMap_def, List.map_map]
  rw [hmacInput, bind_eq_ok_iff, ← hflat]
  constructor
  · rintro ⟨parts, hparts, h⟩
    obtain ⟨hshort, rfl⟩ := (hfields parts).mp hparts
    exact ⟨hshort, Except.ok.inj h⟩
  · rintro ⟨hshort, rfl⟩
    exact ⟨_, (hfields _).mpr ⟨hshort, rfl⟩, rfl⟩

/-- The octets given to the keyed hash determine the upstream identity
provider, the upstream subject and the downstream service provider. -/
theorem hmacInput_injective {idp subject sp idp' subject' sp' : Str} {input : Octets}
    (h : hmacInput idp subject sp = .ok input) (h' : hmacInput idp' subject' sp' = .ok input) :
    (idp, subject, sp) = (idp', subject', sp') := by
  obtain ⟨hshort, hinput⟩ := hmacInput_eq_ok_iff.mp h
  obtain ⟨hshort', hinput'⟩ := hmacInput_eq_ok_iff.mp h'
  have hframes := List.append_cancel_left (hinput.trans hinput'.symm)
  have hfields : [idp, subject, sp].map Text.asBytes = [idp', subject', sp'].map Text.asBytes := by
    have hcount : ([idp, subject, sp].map Text.asBytes).length =
        ([idp', subject', sp'].map Text.asBytes).length := rfl
    apply frames_inj header_bigEndian hcount _ _ hframes
    · simpa using hshort
    · simpa using hshort'
  have htexts : [idp, subject, sp] = [idp', subject', sp'] :=
    List.map_injective_iff.mpr (fun _ _ => Text.asBytes_injective) hfields
  simpa using htexts

theorem hmacInput_injective_alice :
    ∃ input, hmacInput "idp" "alice" "sp" = .ok input ∧
      (("idp" : Str), ("alice" : Str), ("sp" : Str)) =
        (("idp" : Str), ("alice" : Str), ("sp" : Str)) := by
  have hok : hmacInput "idp" "alice" "sp" = .ok (Text.asBytes PERSISTENT_DOMAIN ++
      frames (bigEndian 8) (["idp", "alice", "sp"].map Text.asBytes)) := by
    rw [hmacInput_eq_ok_iff]
    exact ⟨by decide +kernel, rfl⟩
  exact ⟨_, hok, hmacInput_injective hok hok⟩

end PersistentPerSpHmac

end Saml.Proxy
