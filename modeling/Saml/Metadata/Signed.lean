import Saml.Dsig.Verify
import Saml.Metadata.Stream

/-!
# Metadata entry points

The readers of a single role, the readers that verify the signature of a
document first, and the accessors of an aggregate.
-/

namespace Saml

/-- `PeerCryptoPolicy::metadata_compat_defaults`. -/
def PeerCryptoPolicy.metadataCompatDefaults : PeerCryptoPolicy :=
  { PeerCryptoPolicy.strongDefaults with
    allowedC14nAlgorithms := [.exclusiveCanonical, .exclusiveCanonicalWithComments,
      .inclusiveCanonical, .inclusiveCanonicalWithComments] }

namespace Metadata

open Xml Crypto

/-! ## One role -/

mutual

/-- `find_entity_descriptor` at one node. -/
def findAt (pred : Element → Bool) : Node → Option Element
  | .element ⟨qname, sourcePrefix, declared, attributes, children, id⟩ =>
      let elem : Element := ⟨qname, sourcePrefix, declared, attributes, children, id⟩
      if isMdElement elem "EntityDescriptor" then
        if pred elem then some elem else none
      else if isMdElement elem "EntitiesDescriptor" then findIn pred children
      else none
  | _ => none

/-- The first entity among some children. -/
def findIn (pred : Element → Bool) : List Node → Option Element
  | [] => none
  | child :: rest =>
      match findAt pred child with
      | some found => some found
      | none => findIn pred rest

end

/-- `find_entity_descriptor`. -/
def findEntityDescriptor (root : Element) (pred : Element → Bool) : Option Element :=
  findAt pred (.element root)

/-- Whether an entity has a role. -/
def hasRole (role : Str) (entity : Element) : Bool :=
  (entity.childElement (some MD_NS) role).isSome

variable (crypto : Primitives) (qx : QuickXml)

/-- The first entity of a document with an identity provider. -/
def idpFromRoot (root : Element) : Result IdpDescriptor := do
  let entity ← okOr (findEntityDescriptor root (hasRole "IDPSSODescriptor"))
    (.invalidConfiguration "metadata does not contain an IdP entity")
  idpFromEntityDescriptorElement crypto entity

/-- The first entity of a document with a service provider. -/
def spFromRoot (root : Element) : Result SpDescriptor := do
  let entity ← okOr (findEntityDescriptor root (hasRole "SPSSODescriptor"))
    (.invalidConfiguration "metadata does not contain an SP entity")
  spFromEntityDescriptorElement crypto entity

/-- `IdpDescriptor::from_metadata_xml`. -/
def idpFromMetadataXml (xml : Octets) : Result IdpDescriptor := do
  let doc ← Document.parse qx xml
  idpFromRoot crypto doc.root

/-- `SpDescriptor::from_metadata_xml`. -/
def spFromMetadataXml (xml : Octets) : Result SpDescriptor := do
  let doc ← Document.parse qx xml
  spFromRoot crypto doc.root

/-! ## Signed documents -/

/-- `verify_metadata_signature_on_document`. -/
def verifyMetadataSignatureOnDocument (doc : Document) (trustedSigningCert : X509Certificate)
    (policy : PeerCryptoPolicy) : Result Unit := do
  let signatureElem ← okOr (doc.root.childElement (some DS_NS) "Signature") .signatureMissing
  let verified ← Dsig.verifySignature crypto doc signatureElem [trustedSigningCert] policy
  if verified.signedElement ≠ doc.root.id then
    .error (.signatureVerification "metadata signature does not cover the document root")
  else .ok ()

/-- `parse_signed_entities_descriptor_with_policy`. -/
def parseSignedEntitiesDescriptorWithPolicy (xml : Octets) (cert : X509Certificate)
    (policy : PeerCryptoPolicy) : Result EntitiesDescriptor := do
  let doc ← Document.parseWithLimits qx xml .aggregate
  let _ ← verifyMetadataSignatureOnDocument crypto doc cert policy
  EntitiesDescriptor.fromRootElement crypto doc.root

/-- `parse_signed_entities_descriptor`. -/
def parseSignedEntitiesDescriptor (xml : Octets) (cert : X509Certificate) :
    Result EntitiesDescriptor :=
  parseSignedEntitiesDescriptorWithPolicy crypto qx xml cert .metadataCompatDefaults

/-- `parse_signed_idp_descriptor_with_policy`. -/
def parseSignedIdpDescriptorWithPolicy (xml : Octets) (cert : X509Certificate)
    (policy : PeerCryptoPolicy) : Result IdpDescriptor := do
  let doc ← Document.parse qx xml
  let _ ← verifyMetadataSignatureOnDocument crypto doc cert policy
  idpFromRoot crypto doc.root

/-- `parse_signed_idp_descriptor`. -/
def parseSignedIdpDescriptor (xml : Octets) (cert : X509Certificate) : Result IdpDescriptor :=
  parseSignedIdpDescriptorWithPolicy crypto qx xml cert .metadataCompatDefaults

/-- `parse_signed_sp_descriptor_with_policy`. -/
def parseSignedSpDescriptorWithPolicy (xml : Octets) (cert : X509Certificate)
    (policy : PeerCryptoPolicy) : Result SpDescriptor := do
  let doc ← Document.parse qx xml
  let _ ← verifyMetadataSignatureOnDocument crypto doc cert policy
  spFromRoot crypto doc.root

/-- `parse_signed_sp_descriptor`. -/
def parseSignedSpDescriptor (xml : Octets) (cert : X509Certificate) : Result SpDescriptor :=
  parseSignedSpDescriptorWithPolicy crypto qx xml cert .metadataCompatDefaults

section Visits

variable {σ : Type} (visit : σ → Element → σ × Result StreamControl)

mutual

/-- `visit_entities` at one node. -/
def visitNode (s : σ) : Node → σ × Result StreamControl
  | .element ⟨qname, sourcePrefix, declared, attributes, children, id⟩ =>
      let elem : Element := ⟨qname, sourcePrefix, declared, attributes, children, id⟩
      if isMdElement elem "EntityDescriptor" then visit s elem
      else if isMdElement elem "EntitiesDescriptor" then visitNodes s children
      else (s, .ok .continue)
  | _ => (s, .ok .continue)

/-- The children of a wrapper, until the visitor stops. -/
def visitNodes (s : σ) : List Node → σ × Result StreamControl
  | [] => (s, .ok .continue)
  | child :: rest =>
      match visitNode s child with
      | (s, .ok .continue) => visitNodes s rest
      | other => other

end

/-- `visit_entities`. -/
def visitEntities (s : σ) (root : Element) : σ × Result StreamControl :=
  if isMdElement root "EntityDescriptor" ∨ isMdElement root "EntitiesDescriptor" then
    visitNode visit s (.element root)
  else (s, notMetadata)

end Visits

/-- `stream_signed_entities_with_policy`. -/
def streamSignedEntitiesWithPolicy {σ : Type} (visit : σ → MetadataEntry → σ × StreamControl)
    (s : σ) (xml : Octets) (cert : X509Certificate) (policy : PeerCryptoPolicy) :
    σ × Result Unit :=
  let verified := do
    let doc ← Document.parseWithLimits qx xml .aggregate
    let _ ← verifyMetadataSignatureOnDocument crypto doc cert policy
    .ok doc
  match verified with
  | .error err => (s, .error err)
  | .ok doc =>
      let (s, result) := visitEntities (visitEntity crypto visit) s doc.root
      (s, result.map fun _ => ())

/-- `stream_signed_entities`. -/
def streamSignedEntities {σ : Type} (visit : σ → MetadataEntry → σ × StreamControl) (s : σ)
    (xml : Octets) (cert : X509Certificate) : σ × Result Unit :=
  streamSignedEntitiesWithPolicy crypto qx visit s xml cert .metadataCompatDefaults

/-! ## Accessors -/

namespace MetadataEntry

/-- `entity_id`. -/
def entityId : MetadataEntry → Option Str
  | .idp descriptor => some descriptor.entityId
  | .dual descriptor _ => some descriptor.entityId
  | .sp descriptor => some descriptor.entityId
  | .other => none

/-- The identity provider of an entry. -/
def asIdp : MetadataEntry → Option IdpDescriptor
  | .idp descriptor => some descriptor
  | .dual descriptor _ => some descriptor
  | _ => none

/-- The service provider of an entry. -/
def asSp : MetadataEntry → Option SpDescriptor
  | .sp descriptor => some descriptor
  | .dual _ descriptor => some descriptor
  | _ => none

end MetadataEntry

namespace EntitiesDescriptor

variable (parsed : EntitiesDescriptor)

/-- `by_entity_id`. -/
def byEntityId (entityId : Str) : Option MetadataEntry :=
  parsed.entities.find? (·.entityId = some entityId)

/-- One entry of the index: the first one of an identifier stays. -/
def indexEntry (index : List (Str × MetadataEntry)) (entry : MetadataEntry) :
    List (Str × MetadataEntry) :=
  match entry.entityId with
  | some id => if index.any (·.1 = id) then index else index ++ [(id, entry)]
  | none => index

/-- `index_by_entity_id`. -/
def indexByEntityId : List (Str × MetadataEntry) := parsed.entities.foldl indexEntry []

/-- `find_idp`. -/
def findIdp (entityId : Str) : Option IdpDescriptor :=
  parsed.entities.findSome? fun entry => entry.asIdp.filter (·.entityId = entityId)

/-- `find_sp`. -/
def findSp (entityId : Str) : Option SpDescriptor :=
  parsed.entities.findSome? fun entry => entry.asSp.filter (·.entityId = entityId)

/-- `iter_idps`. -/
def iterIdps : List IdpDescriptor := parsed.entities.filterMap MetadataEntry.asIdp

/-- `iter_sps`. -/
def iterSps : List SpDescriptor := parsed.entities.filterMap MetadataEntry.asSp

end EntitiesDescriptor

end Metadata

end Saml
