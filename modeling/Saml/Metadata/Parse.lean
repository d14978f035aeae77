import Saml.Descriptor
import Saml.Xml.Parse

/-!
# Metadata

`metadata::parse` and the readers of `descriptor`: an entity descriptor becomes
the descriptors of its roles, and an aggregate the list of its entities.
-/

namespace Saml.Metadata

open Xml Crypto

/-- `is_md_element`. -/
def isMdElement (element : Element) (loc : Str) : Bool := element.hasName (some MD_NS) loc

/-! ## Attributes -/

/-- `parse_optional_xs_datetime`. -/
def parseOptionalXsDatetime (element : Element) (loc : Str) : Result (Option SystemTime) :=
  mapTranspose Time.parseXsDatetime (element.attr none loc)

/-- `parse_optional_bool_value`. -/
def parseOptionalBoolValue : Option Str → Result (Option Bool)
  | none => .ok none
  | some value =>
      if value = "true" ∨ value = "1" then .ok (some true)
      else if value = "false" ∨ value = "0" then .ok (some false)
      else .error (.invalidConfiguration "invalid xs:boolean attribute")

/-- `parse_optional_bool`. -/
def parseOptionalBool (element : Element) (loc : Str) : Result (Option Bool) :=
  parseOptionalBoolValue (element.attr none loc)

/-- The refusal of a duration. -/
def unsupported {α : Type} : Result α :=
  .error (.invalidConfiguration "unsupported xs:duration")

/-- The components of a duration, in the order they may come. -/
inductive Slot where
  | days
  | hours
  | minutes
  | seconds
deriving DecidableEq, Repr

namespace Slot

/-- The place of a component in the canonical order. -/
def rank : Slot → Nat
  | .days => 0
  | .hours => 1
  | .minutes => 2
  | .seconds => 3

/-- The component of a designator, before or after the `T`. -/
def ofDesignator : Bool → Char → Option Slot
  | false, 'D' => some .days
  | true, 'H' => some .hours
  | true, 'M' => some .minutes
  | true, 'S' => some .seconds
  | _, _ => none

end Slot

/-- What has been read of a duration. -/
structure DurationScan where
  afterT : Bool
  lastSlot : Option Slot
  days : Nat
  hours : Nat
  minutes : Nat
  seconds : Nat
  sawAny : Bool

namespace DurationScan

/-- Nothing read. -/
def start : DurationScan := ⟨false, none, 0, 0, 0, 0, false⟩

/-- Store the value of a component. -/
def assign (scan : DurationScan) (slot : Slot) (value : Nat) : DurationScan :=
  let scan := { scan with lastSlot := some slot, sawAny := true }
  match slot with
  | .days => { scan with days := value }
  | .hours => { scan with hours := value }
  | .minutes => { scan with minutes := value }
  | .seconds => { scan with seconds := value }

/-- Read one component: its digits and its designator. -/
def component (scan : DurationScan) (digits : Str) (designator : Char) : Result DurationScan :=
  match Number.parseU64 digits with
  | .error _ => unsupported
  | .ok value =>
      match Slot.ofDesignator scan.afterT designator with
      | none => unsupported
      | some slot =>
          if scan.lastSlot.any (slot.rank ≤ Slot.rank ·) then unsupported
          else .ok (scan.assign slot value.toNat)

/-- The loop over the text behind the `P`. -/
def read (scan : DurationScan) : Str → Result DurationScan
  | [] => .ok scan
  | c :: rest =>
      if c = 'T' then
        if scan.afterT ∨ rest = [] then unsupported else read { scan with afterT := true } rest
      else if (Number.digit c).isNone then unsupported
      else
        match _h : rest.dropWhile (Number.digit · |>.isSome) with
        | [] => unsupported
        | designator :: after =>
            match scan.component (c :: rest.takeWhile (Number.digit · |>.isSome)) designator with
            | .error err => .error err
            | .ok next => read next after
termination_by text => text.length
decreasing_by
  · simp
  · have hle := (List.dropWhile_suffix (fun x => (Number.digit x).isSome) (l := rest)).length_le
    rw [_h] at hle
    simp only [List.length_cons] at hle ⊢
    omega

/-- The seconds of all components, while they fit. -/
def totalSecs (scan : DurationScan) : Option { n : Nat // n < 2 ^ 64 } := do
  let days ← Number.u64 (scan.days * 86400)
  let hours ← Number.u64 (scan.hours * 3600)
  let total ← Number.u64 (days + hours)
  let minutes ← Number.u64 (scan.minutes * 60)
  let total ← Number.u64 (total + minutes)
  Number.u64 (total + scan.seconds)

end DurationScan

/-- `parse_xs_duration`: days, hours, minutes and seconds in canonical order. -/
def parseXsDuration (s : Str) : Result Duration :=
  match s with
  | 'P' :: rest =>
      if Text.byteLen s < 3 then unsupported
      else do
        let scan ← DurationScan.start.read rest
        if !scan.sawAny then unsupported
        else
          match scan.totalSecs with
          | some secs => .ok (Duration.ofSecs secs secs.property)
          | none => unsupported
  | _ => unsupported

/-- `parse_optional_duration`. -/
def parseOptionalDuration (element : Element) (loc : Str) : Result (Option Duration) :=
  mapTranspose parseXsDuration (element.attr none loc)

/-! ## Role descriptors -/

/-- The `index` of an endpoint. -/
def parseEndpointIndex (text : Str) : Result UInt16 :=
  match Number.parseU16 text with
  | .ok n => .ok (UInt16.ofNat n.toNat)
  | .error _ => .error (.invalidConfiguration "endpoint index is not a u16")

/-- `parse_endpoint`. -/
def parseEndpoint (element : Element) : Result Endpoint := do
  let bindingUri ← okOr (element.attr none "Binding")
    (.invalidConfiguration "endpoint missing Binding")
  let binding ← Binding.fromUri bindingUri
  let location ← okOr (element.attr none "Location")
    (.invalidConfiguration "endpoint missing Location")
  let index ← mapTranspose parseEndpointIndex (element.attr none "index")
  let isDefault ← parseOptionalBoolValue (element.attr none "isDefault")
  .ok ⟨location, binding, index, isDefault.getD false⟩

/-- The endpoints of a role with a name. -/
def parseEndpoints (role : Element) (loc : Str) : Result (List Endpoint) :=
  (role.allChildElements (some MD_NS) loc).mapM parseEndpoint

variable (crypto : Primitives)

/-- The certificates of one `KeyInfo`, in order. -/
def parseKeyInfo (keyInfo : Element) : Result (List X509Certificate) :=
  ((keyInfo.allChildElements (some DS_NS) "X509Data").flatMap
    (·.allChildElements (some DS_NS) "X509Certificate")).mapM fun cert =>
      X509Certificate.fromBase64X509 crypto cert.textContent

/-- One `KeyDescriptor`: what it adds to the signing and to the encryption
certificates. -/
def parseKeyDescriptor (kd : Element) : Result (List X509Certificate × List X509Certificate) :=
  let useAttr := kd.attr none "use"
  let goesToSigning := useAttr = some ("signing" : Str) ∨ useAttr = none
  let goesToEncryption := useAttr = some ("encryption" : Str) ∨ useAttr = none
  if ¬ goesToSigning ∧ ¬ goesToEncryption then
    .error (.invalidConfiguration "KeyDescriptor use attribute must be signing or encryption")
  else do
    let keyInfo ← okOr (kd.childElement (some DS_NS) "KeyInfo")
      (.invalidConfiguration "KeyDescriptor missing KeyInfo")
    let certs ← parseKeyInfo crypto keyInfo
    .ok (if goesToSigning then certs else [], if goesToEncryption then certs else [])

/-- `parse_key_descriptors`. -/
def parseKeyDescriptors (role : Element) :
    Result (List X509Certificate × List X509Certificate) := do
  let parts ← (role.allChildElements (some MD_NS) "KeyDescriptor").mapM (parseKeyDescriptor crypto)
  .ok (parts.flatMap Prod.fst, parts.flatMap Prod.snd)

/-- `parse_name_id_formats`: blank entries are dropped. -/
def parseNameIdFormats (role : Element) : List NameIdFormat :=
  (role.allChildElements (some MD_NS) "NameIDFormat").filterMap fun child =>
    let trimmed := Text.trim child.textContent
    if trimmed = [] then none else some (NameIdFormat.fromUri trimmed)

/-- `validate_artifact_resolution_endpoints` after some indices. -/
def validateArtifactResolutionEndpointsFrom : List UInt16 → List Endpoint → Result (List UInt16)
  | seen, [] => .ok seen
  | seen, endpoint :: rest =>
      if endpoint.binding ≠ .soap then
        .error (.invalidConfiguration "ArtifactResolutionService endpoints must use SOAP")
      else
        match endpoint.index with
        | none => .error (.invalidConfiguration
            "ArtifactResolutionService is missing the required index attribute")
        | some index =>
            if index ∈ seen then
              .error (.invalidConfiguration
                "two ArtifactResolutionService endpoints share an index")
            else validateArtifactResolutionEndpointsFrom (seen ++ [index]) rest

/-- `validate_artifact_resolution_endpoints`. -/
def validateArtifactResolutionEndpoints (endpoints : List Endpoint) : Result (List UInt16) :=
  validateArtifactResolutionEndpointsFrom [] endpoints

/-- The identifier of an entity descriptor. -/
def parseEntityId (element : Element) : Result Str :=
  if !isMdElement element "EntityDescriptor" then
    .error (.invalidConfiguration "expected <md:EntityDescriptor>")
  else okOr (element.attr none "entityID")
    (.invalidConfiguration "EntityDescriptor missing entityID")

/-- `IdpDescriptor::from_entity_descriptor_element`. -/
def idpFromEntityDescriptorElement (element : Element) : Result IdpDescriptor := do
  let entityId ← parseEntityId element
  let idp ← okOr (element.childElement (some MD_NS) "IDPSSODescriptor")
    (.invalidConfiguration "EntityDescriptor missing IDPSSODescriptor")
  let wantAuthnRequestsSigned ← parseOptionalBool idp "WantAuthnRequestsSigned"
  let ownValidUntil ← parseOptionalXsDatetime idp "validUntil"
  let validUntil ← parseOptionalXsDatetime element "validUntil"
  let ownCacheDuration ← parseOptionalDuration idp "cacheDuration"
  let cacheDuration ← parseOptionalDuration element "cacheDuration"
  let (signingCerts, encryptionCerts) ← parseKeyDescriptors crypto idp
  let ssoEndpoints ← parseEndpoints idp "SingleSignOnService"
  let sloEndpoints ← parseEndpoints idp "SingleLogoutService"
  let artifactResolutionEndpoints ← parseEndpoints idp "ArtifactResolutionService"
  let _ ← validateArtifactResolutionEndpoints artifactResolutionEndpoints
  .ok {
    entityId := entityId
    ssoEndpoints := ssoEndpoints
    sloEndpoints := sloEndpoints
    artifactResolutionEndpoints := artifactResolutionEndpoints
    signingCerts := signingCerts
    encryptionCerts := encryptionCerts
    supportedNameIdFormats := parseNameIdFormats idp
    wantAuthnRequestsSigned := wantAuthnRequestsSigned.getD false
    validUntil := ownValidUntil.or validUntil
    cacheDuration := ownCacheDuration.or cacheDuration }

/-- One assertion consumer service, narrowed to the response bindings. -/
def parseAssertionConsumerService (element : Element) : Result SsoResponseEndpoint := do
  let endpoint ← parseEndpoint element
  match SsoResponseEndpoint.tryFromEndpoint endpoint with
  | .ok narrowed => .ok narrowed
  | .error (.invalidConfiguration _) => .error (.invalidConfiguration
      "SP metadata advertises ACS with non-POST/Artifact binding")
  | .error other => .error other

/-- `SpDescriptor::from_entity_descriptor_element`. -/
def spFromEntityDescriptorElement (element : Element) : Result SpDescriptor := do
  let entityId ← parseEntityId element
  let sp ← okOr (element.childElement (some MD_NS) "SPSSODescriptor")
    (.invalidConfiguration "EntityDescriptor missing SPSSODescriptor")
  let authnRequestsSigned ← parseOptionalBool sp "AuthnRequestsSigned"
  let wantAssertionsSigned ← parseOptionalBool sp "WantAssertionsSigned"
  let ownValidUntil ← parseOptionalXsDatetime sp "validUntil"
  let validUntil ← parseOptionalXsDatetime element "validUntil"
  let ownCacheDuration ← parseOptionalDuration sp "cacheDuration"
  let cacheDuration ← parseOptionalDuration element "cacheDuration"
  let (signingCerts, encryptionCerts) ← parseKeyDescriptors crypto sp
  let assertionConsumerServices ←
    (sp.allChildElements (some MD_NS) "AssertionConsumerService").mapM
      parseAssertionConsumerService
  let singleLogoutServices ← parseEndpoints sp "SingleLogoutService"
  .ok {
    entityId := entityId
    assertionConsumerServices := assertionConsumerServices
    singleLogoutServices := singleLogoutServices
    signingCerts := signingCerts
    encryptionCerts := encryptionCerts
    supportedNameIdFormats := parseNameIdFormats sp
    wantAssertionsSigned := wantAssertionsSigned.getD false
    authnRequestsSigned := authnRequestsSigned.getD false
    validUntil := ownValidUntil.or validUntil
    cacheDuration := ownCacheDuration.or cacheDuration }

/-! ## Aggregates -/

/-- One entry of an aggregate. -/
inductive MetadataEntry where
  | idp (idp : IdpDescriptor)
  | sp (sp : SpDescriptor)
  | dual (idp : IdpDescriptor) (sp : SpDescriptor)
  | other
deriving DecidableEq

/-- `parse_entity_descriptor`. -/
def parseEntityDescriptor (entity : Element) : Result MetadataEntry :=
  let hasIdp := (entity.childElement (some MD_NS) "IDPSSODescriptor").isSome
  let hasSp := (entity.childElement (some MD_NS) "SPSSODescriptor").isSome
  match hasIdp, hasSp with
  | true, true => do
      let idp ← idpFromEntityDescriptorElement crypto entity
      let sp ← spFromEntityDescriptorElement crypto entity
      .ok (.dual idp sp)
  | true, false => do
      let idp ← idpFromEntityDescriptorElement crypto entity
      .ok (.idp idp)
  | false, true => do
      let sp ← spFromEntityDescriptorElement crypto entity
      .ok (.sp sp)
  | false, false => .ok .other

mutual

/-- `collect_entities`. -/
def collectEntities : Element → Result (List MetadataEntry)
  | ⟨_, _, _, _, children, _⟩ => collectChildren children

/-- What one child adds to the entities. -/
def collectChild : Node → Result (List MetadataEntry)
  | .element ⟨qname, sourcePrefix, declared, attributes, children, id⟩ =>
      let elem : Element := ⟨qname, sourcePrefix, declared, attributes, children, id⟩
      if isMdElement elem "EntityDescriptor" then do
        let entry ← parseEntityDescriptor crypto elem
        .ok [entry]
      else if isMdElement elem "EntitiesDescriptor" then collectChildren children
      else .ok []
  | _ => .ok []

/-- The entities among some children, in order. -/
def collectChildren : List Node → Result (List MetadataEntry)
  | [] => .ok []
  | child :: rest => do
      let entries ← collectChild child
      let others ← collectChildren rest
      .ok (entries ++ others)

end

/-- A parsed aggregate, or a single entity as one. -/
structure EntitiesDescriptor where
  name : Option Str
  validUntil : Option SystemTime
  entities : List MetadataEntry
deriving DecidableEq

namespace EntitiesDescriptor

/-- `from_root_element`. -/
def fromRootElement (root : Element) : Result EntitiesDescriptor :=
  if !isMdElement root "EntitiesDescriptor" then
    if isMdElement root "EntityDescriptor" then do
      let entry ← parseEntityDescriptor crypto root
      let validUntil ← parseOptionalXsDatetime root "validUntil"
      .ok ⟨none, validUntil, [entry]⟩
    else .error (.invalidConfiguration
      "root is not <md:EntityDescriptor> or <md:EntitiesDescriptor>")
  else do
    let validUntil ← parseOptionalXsDatetime root "validUntil"
    let entities ← collectEntities crypto root
    .ok ⟨root.attr none "Name", validUntil, entities⟩

variable (qx : QuickXml)

/-- `from_metadata_xml_with_limits`. -/
def fromMetadataXmlWithLimits (xml : Octets) (limits : XmlLimits) : Result EntitiesDescriptor := do
  let doc ← Document.parseWithLimits qx xml limits
  fromRootElement crypto doc.root

/-- `from_metadata_xml`. -/
def fromMetadataXml (xml : Octets) : Result EntitiesDescriptor :=
  fromMetadataXmlWithLimits crypto qx xml .aggregate

end EntitiesDescriptor

end Saml.Metadata
