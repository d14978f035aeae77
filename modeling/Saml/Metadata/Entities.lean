import Saml.Metadata.Parse
import Saml.Xml.Lifted

/-!
# Entities of a tree

The elements an aggregate's entries are read from, in order. Reading an entry
looks at names, attributes and content only, so it reads the same from a lifted
subtree.
-/

namespace Saml.Metadata

open Xml Crypto

/-! ## Reading a lifted entity -/

@[simp] theorem isMdElement_unnumbered (e : Element) (loc : Str) :
    isMdElement (unnumbered e) loc = isMdElement e loc :=
  unnumbered_hasName e _ loc

@[simp] theorem parseEndpoint_unnumbered (e : Element) :
    parseEndpoint (unnumbered e) = parseEndpoint e := by
  simp only [parseEndpoint, unnumbered_attr]

@[simp] theorem parseEndpoints_unnumbered (role : Element) (loc : Str) :
    parseEndpoints (unnumbered role) loc = parseEndpoints role loc := by
  simp only [parseEndpoints, unnumbered_allChildElements, List.mapM_map]
  congr 1
  funext e
  exact parseEndpoint_unnumbered e

@[simp] theorem parseAssertionConsumerService_unnumbered (e : Element) :
    parseAssertionConsumerService (unnumbered e) = parseAssertionConsumerService e := by
  simp only [parseAssertionConsumerService, parseEndpoint_unnumbered]

@[simp] theorem parseOptionalBool_unnumbered (e : Element) (loc : Str) :
    parseOptionalBool (unnumbered e) loc = parseOptionalBool e loc := by
  rw [parseOptionalBool, unnumbered_attr, parseOptionalBool]

@[simp] theorem parseOptionalXsDatetime_unnumbered (e : Element) (loc : Str) :
    parseOptionalXsDatetime (unnumbered e) loc = parseOptionalXsDatetime e loc := by
  rw [parseOptionalXsDatetime, unnumbered_attr, parseOptionalXsDatetime]

@[simp] theorem parseOptionalDuration_unnumbered (e : Element) (loc : Str) :
    parseOptionalDuration (unnumbered e) loc = parseOptionalDuration e loc := by
  rw [parseOptionalDuration, unnumbered_attr, parseOptionalDuration]

@[simp] theorem parseNameIdFormats_unnumbered (role : Element) :
    parseNameIdFormats (unnumbered role) = parseNameIdFormats role := by
  simp only [parseNameIdFormats, unnumbered_allChildElements, List.filterMap_map]
  congr 1
  funext child
  simp only [Function.comp_apply, unnumbered_textContent]

@[simp] theorem parseEntityId_unnumbered (e : Element) :
    parseEntityId (unnumbered e) = parseEntityId e := by
  simp only [parseEntityId, isMdElement_unnumbered, unnumbered_attr]

variable (crypto : Primitives)

@[simp] theorem parseKeyInfo_unnumbered (e : Element) :
    parseKeyInfo crypto (unnumbered e) = parseKeyInfo crypto e := by
  simp only [parseKeyInfo, unnumbered_allChildElements, List.flatMap_map, ← List.map_flatMap]
  rw [List.mapM_map]
  congr 1
  funext cert
  rw [Function.comp_apply, unnumbered_textContent]

@[simp] theorem parseKeyDescriptor_unnumbered (kd : Element) :
    parseKeyDescriptor crypto (unnumbered kd) = parseKeyDescriptor crypto kd := by
  simp only [parseKeyDescriptor, unnumbered_attr, unnumbered_childElement]
  cases kd.childElement (some DS_NS) "KeyInfo" with
  | none => rfl
  | some keyInfo => simp only [Option.map_some, okOr_some, ok_bind, parseKeyInfo_unnumbered]

@[simp] theorem parseKeyDescriptors_unnumbered (role : Element) :
    parseKeyDescriptors crypto (unnumbered role) = parseKeyDescriptors crypto role := by
  simp only [parseKeyDescriptors, unnumbered_allChildElements, List.mapM_map]
  congr 2
  funext kd
  exact parseKeyDescriptor_unnumbered crypto kd

@[simp] theorem idpFromEntityDescriptorElement_unnumbered (e : Element) :
    idpFromEntityDescriptorElement crypto (unnumbered e) =
      idpFromEntityDescriptorElement crypto e := by
  simp only [idpFromEntityDescriptorElement, parseEntityId_unnumbered, unnumbered_childElement]
  cases e.childElement (some MD_NS) "IDPSSODescriptor" with
  | none => rfl
  | some idp => simp [ok_bind]

@[simp] theorem spFromEntityDescriptorElement_unnumbered (e : Element) :
    spFromEntityDescriptorElement crypto (unnumbered e) =
      spFromEntityDescriptorElement crypto e := by
  simp only [spFromEntityDescriptorElement, parseEntityId_unnumbered, unnumbered_childElement]
  cases e.childElement (some MD_NS) "SPSSODescriptor" with
  | none => rfl
  | some sp => simp [ok_bind, List.mapM_map, Function.comp_def]

/-- An entry is read from names, attributes and content. -/
theorem parseEntityDescriptor_unnumbered (e : Element) :
    parseEntityDescriptor crypto (unnumbered e) = parseEntityDescriptor crypto e := by
  simp [parseEntityDescriptor]

theorem parseEntityDescriptor_alike {e d : Element} (h : Alike e d) :
    parseEntityDescriptor crypto e = parseEntityDescriptor crypto d := by
  rw [← parseEntityDescriptor_unnumbered, h, parseEntityDescriptor_unnumbered]

/-! ## The elements of an aggregate -/

mutual

/-- The entity elements of one child of a wrapper. -/
def entitiesAt : Node → List Element
  | .element ⟨qname, sourcePrefix, declared, attributes, children, id⟩ =>
      let elem : Element := ⟨qname, sourcePrefix, declared, attributes, children, id⟩
      if isMdElement elem "EntityDescriptor" then [elem]
      else if isMdElement elem "EntitiesDescriptor" then entitiesIn children
      else []
  | _ => []

/-- The entity elements among the children of a wrapper, in order. -/
def entitiesIn : List Node → List Element
  | [] => []
  | child :: rest => entitiesAt child ++ entitiesIn rest

end

theorem entitiesAt_element (e : Element) :
    entitiesAt (.element e) = if isMdElement e "EntityDescriptor" then [e]
      else if isMdElement e "EntitiesDescriptor" then entitiesIn e.children else [] := by
  rw [entitiesAt]

theorem entitiesAt_leaf {node : Node} (h : node.asElement = none) : entitiesAt node = [] := by
  cases node with
  | element e => cases h
  | text t => rfl
  | comment c => rfl

theorem entitiesIn_append (nodes others : List Node) :
    entitiesIn (nodes ++ others) = entitiesIn nodes ++ entitiesIn others := by
  induction nodes with
  | nil => rw [entitiesIn, List.nil_append, List.nil_append]
  | cons node rest ih => rw [List.cons_append, entitiesIn, ih, entitiesIn, List.append_assoc]

theorem entitiesIn_leaves {nodes : List Node} (h : ∀ node ∈ nodes, node.asElement = none) :
    entitiesIn nodes = [] := by
  induction nodes with
  | nil => rw [entitiesIn]
  | cons node rest ih =>
      rw [entitiesIn, entitiesAt_leaf (h node List.mem_cons_self),
        ih fun other hother => h other (List.mem_cons_of_mem _ hother), List.append_nil]

theorem collect_eq :
    (∀ e : Element, collectChild crypto (.element e) =
      (entitiesAt (.element e)).mapM (parseEntityDescriptor crypto)) ∧
    ∀ nodes : List Node, collectChildren crypto nodes =
      (entitiesIn nodes).mapM (parseEntityDescriptor crypto) := by
  have leaf (node : Node) (rest : List Node) (hnode : node.asElement = none)
      (hcollect : collectChild crypto node = .ok [])
      (ih : collectChildren crypto rest =
        (entitiesIn rest).mapM (parseEntityDescriptor crypto)) :
      collectChildren crypto (node :: rest) =
        (entitiesIn (node :: rest)).mapM (parseEntityDescriptor crypto) := by
    rw [collectChildren, hcollect, entitiesIn, entitiesAt_leaf hnode, ih, List.nil_append]
    rw [ok_bind]
    cases (entitiesIn rest).mapM (parseEntityDescriptor crypto) <;> rfl
  apply Element.induct
  case mk =>
    intro e ih
    rw [entitiesAt_element, collectChild]
    split
    · rw [mapM_singleton]
    · split
      · exact ih
      · rfl
  case nil => rfl
  case element =>
    intro e rest he ih
    rw [collectChildren, he, ih, entitiesIn, List.mapM_append]
    rfl
  case text =>
    intro t rest ih
    exact leaf _ rest rfl rfl ih
  case comment =>
    intro c rest ih
    exact leaf _ rest rfl rfl ih

/-- The elements the entries of a document are read from. -/
def rootEntities (root : Element) : List Element :=
  if isMdElement root "EntitiesDescriptor" then entitiesIn root.children
  else if isMdElement root "EntityDescriptor" then [root]
  else []

/-- The spec of `from_root_element`: the root is of one of the two kinds, and the
entries are read from its entity elements. -/
theorem entities_fromRootElement {root : Element} {parsed : EntitiesDescriptor}
    (h : EntitiesDescriptor.fromRootElement crypto root = .ok parsed) :
    (isMdElement root "EntitiesDescriptor" = true ∨ isMdElement root "EntityDescriptor" = true) ∧
      (rootEntities root).mapM (parseEntityDescriptor crypto) = .ok parsed.entities := by
  unfold EntitiesDescriptor.fromRootElement at h
  rw [rootEntities]
  by_cases hwrapper : isMdElement root "EntitiesDescriptor" = true
  · simp only [hwrapper, Bool.not_true, Bool.false_eq_true, if_false] at h
    obtain ⟨validUntil, _, h⟩ := bind_eq_ok_iff.mp h
    obtain ⟨entities, hentities, h⟩ := bind_eq_ok_iff.mp h
    obtain rfl := Except.ok.inj h
    rw [if_pos hwrapper, ← (collect_eq crypto).2]
    refine ⟨.inl hwrapper, ?_⟩
    rcases root with ⟨qname, sourcePrefix, declared, attributes, children, id⟩
    exact hentities
  · simp only [hwrapper, Bool.not_false, if_true] at h
    by_cases hentity : isMdElement root "EntityDescriptor" = true
    · rw [if_pos hentity] at h
      obtain ⟨entry, hentry, h⟩ := bind_eq_ok_iff.mp h
      obtain ⟨validUntil, _, h⟩ := bind_eq_ok_iff.mp h
      obtain rfl := Except.ok.inj h
      rw [if_neg hwrapper, if_pos hentity]
      refine ⟨.inr hentity, ?_⟩
      rw [mapM_singleton, hentry]
      rfl
    · rw [if_neg hentity] at h
      cases h

end Saml.Metadata
