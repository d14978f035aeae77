import Saml.Metadata.Entities
import Saml.Metadata.Signed

/-!
# The expiry of a descriptor

Which `validUntil` a descriptor has, whatever entry point it comes from: that of
its role element, or else that of its entity element.
-/

namespace Saml.Metadata

open Xml Crypto

/-- The expiry of a role of an entity: its own, or else the entity's. -/
def Expires (role : Str) (entity : Element) (validUntil : Option SystemTime) : Prop :=
  ∃ roleElement own outer, entity.childElement (some MD_NS) role = some roleElement ∧
    parseOptionalXsDatetime roleElement "validUntil" = .ok own ∧
      parseOptionalXsDatetime entity "validUntil" = .ok outer ∧ validUntil = own.or outer

/-- The expiry of an identity provider read from an entity. -/
def IdpExpires (entity : Element) (idp : IdpDescriptor) : Prop :=
  Expires "IDPSSODescriptor" entity idp.validUntil

/-- The expiry of a service provider read from an entity. -/
def SpExpires (entity : Element) (sp : SpDescriptor) : Prop :=
  Expires "SPSSODescriptor" entity sp.validUntil

/-- The expiry of the roles of an entry. -/
def EntryExpires (entity : Element) (entry : MetadataEntry) : Prop :=
  (∀ idp ∈ entry.asIdp, IdpExpires entity idp) ∧ ∀ sp ∈ entry.asSp, SpExpires entity sp

/-! ## One entity -/

variable {crypto : Primitives}

theorem idpExpires_of_element {entity : Element} {idp : IdpDescriptor}
    (h : idpFromEntityDescriptorElement crypto entity = .ok idp) : IdpExpires entity idp := by
  obtain ⟨entityId, _, h⟩ := bind_eq_ok_iff.mp h
  obtain ⟨role, hrole, h⟩ := bind_eq_ok_iff.mp h
  obtain ⟨wantSigned, _, h⟩ := bind_eq_ok_iff.mp h
  obtain ⟨own, hown, h⟩ := bind_eq_ok_iff.mp h
  obtain ⟨outer, houter, h⟩ := bind_eq_ok_iff.mp h
  obtain ⟨ownCache, _, h⟩ := bind_eq_ok_iff.mp h
  obtain ⟨cache, _, h⟩ := bind_eq_ok_iff.mp h
  obtain ⟨certs, _, h⟩ := bind_eq_ok_iff.mp h
  obtain ⟨sso, _, h⟩ := bind_eq_ok_iff.mp h
  obtain ⟨slo, _, h⟩ := bind_eq_ok_iff.mp h
  obtain ⟨artifact, _, h⟩ := bind_eq_ok_iff.mp h
  obtain ⟨indices, _, h⟩ := bind_eq_ok_iff.mp h
  cases h
  exact ⟨role, own, outer, okOr_eq_ok_iff.mp hrole, hown, houter, rfl⟩

theorem spExpires_of_element {entity : Element} {sp : SpDescriptor}
    (h : spFromEntityDescriptorElement crypto entity = .ok sp) : SpExpires entity sp := by
  obtain ⟨entityId, _, h⟩ := bind_eq_ok_iff.mp h
  obtain ⟨role, hrole, h⟩ := bind_eq_ok_iff.mp h
  obtain ⟨signed, _, h⟩ := bind_eq_ok_iff.mp h
  obtain ⟨wantSigned, _, h⟩ := bind_eq_ok_iff.mp h
  obtain ⟨own, hown, h⟩ := bind_eq_ok_iff.mp h
  obtain ⟨outer, houter, h⟩ := bind_eq_ok_iff.mp h
  obtain ⟨ownCache, _, h⟩ := bind_eq_ok_iff.mp h
  obtain ⟨cache, _, h⟩ := bind_eq_ok_iff.mp h
  obtain ⟨certs, _, h⟩ := bind_eq_ok_iff.mp h
  obtain ⟨acs, _, h⟩ := bind_eq_ok_iff.mp h
  obtain ⟨slo, _, h⟩ := bind_eq_ok_iff.mp h
  cases h
  exact ⟨role, own, outer, okOr_eq_ok_iff.mp hrole, hown, houter, rfl⟩

theorem entryExpires_of_element {entity : Element} {entry : MetadataEntry}
    (h : parseEntityDescriptor crypto entity = .ok entry) : EntryExpires entity entry := by
  unfold parseEntityDescriptor at h
  dsimp only at h
  split at h
  · obtain ⟨idp, hidp, h⟩ := bind_eq_ok_iff.mp h
    obtain ⟨sp, hsp, h⟩ := bind_eq_ok_iff.mp h
    cases h
    constructor
    · rintro _ ⟨⟩
      exact idpExpires_of_element hidp
    · rintro _ ⟨⟩
      exact spExpires_of_element hsp
  · obtain ⟨idp, hidp, h⟩ := bind_eq_ok_iff.mp h
    cases h
    constructor
    · rintro _ ⟨⟩
      exact idpExpires_of_element hidp
    · rintro _ ⟨⟩
  · obtain ⟨sp, hsp, h⟩ := bind_eq_ok_iff.mp h
    cases h
    constructor
    · rintro _ ⟨⟩
    · rintro _ ⟨⟩
      exact spExpires_of_element hsp
  · cases h
    constructor <;> rintro _ ⟨⟩

/-! ## The entities of a document -/

theorem name_unique {e : Element} {a b : Str} (ha : isMdElement e a = true)
    (hb : isMdElement e b = true) : a = b := by
  rw [isMdElement, ElementOf.hasName_iff] at ha hb
  exact congrArg QName.localName (ha.symm.trans hb)

theorem entitiesAt_root {root : Element} : entitiesAt (.element root) = rootEntities root := by
  rw [entitiesAt_element, rootEntities]
  by_cases hentity : isMdElement root "EntityDescriptor" = true
  · have hwrapper : ¬ isMdElement root "EntitiesDescriptor" = true :=
      fun h => absurd (name_unique hentity h) (by decide)
    rw [if_pos hentity, if_neg hwrapper, if_pos hentity]
  · rw [if_neg hentity, if_neg hentity]

/-- The search looks at the entities in their order. -/
theorem find_eq (pred : Element → Bool) :
    (∀ e : Element, findAt pred (.element e) = (entitiesAt (.element e)).find? pred) ∧
    ∀ nodes : List Node, findIn pred nodes = (entitiesIn nodes).find? pred := by
  have leaf (node : Node) (rest : List Node) (hnode : node.asElement = none)
      (hfind : findAt pred node = none) (ih : findIn pred rest = (entitiesIn rest).find? pred) :
      findIn pred (node :: rest) = (entitiesIn (node :: rest)).find? pred := by
    rw [findIn, hfind, entitiesIn, entitiesAt_leaf hnode, List.nil_append]
    exact ih
  apply Element.induct
  case mk =>
    intro e ih
    rw [entitiesAt_element, findAt]
    split
    · rw [List.find?_singleton]
    · split
      · exact ih
      · rfl
  case nil => rfl
  case element =>
    intro e rest he ih
    rw [findIn, he, ih, entitiesIn, List.find?_append]
    cases (entitiesAt (.element e)).find? pred <;> rfl
  case text =>
    intro t rest ih
    exact leaf _ rest rfl rfl ih
  case comment =>
    intro c rest ih
    exact leaf _ rest rfl rfl ih

theorem mem_of_findEntityDescriptor {root entity : Element} {pred : Element → Bool}
    (h : findEntityDescriptor root pred = some entity) : entity ∈ rootEntities root := by
  rw [findEntityDescriptor, (find_eq pred).1, entitiesAt_root] at h
  exact List.mem_of_find?_eq_some h

/-- An identity provider of a document. -/
theorem idpExpires_of_root {root : Element} {idp : IdpDescriptor}
    (h : idpFromRoot crypto root = .ok idp) :
    ∃ entity ∈ rootEntities root, IdpExpires entity idp := by
  obtain ⟨entity, hentity, h⟩ := bind_eq_ok_iff.mp h
  exact ⟨entity, mem_of_findEntityDescriptor (okOr_eq_ok_iff.mp hentity), idpExpires_of_element h⟩

/-- A service provider of a document. -/
theorem spExpires_of_root {root : Element} {sp : SpDescriptor}
    (h : spFromRoot crypto root = .ok sp) : ∃ entity ∈ rootEntities root, SpExpires entity sp := by
  obtain ⟨entity, hentity, h⟩ := bind_eq_ok_iff.mp h
  exact ⟨entity, mem_of_findEntityDescriptor (okOr_eq_ok_iff.mp hentity), spExpires_of_element h⟩

/-- The entries of an aggregate, each from its entity. -/
theorem entriesExpire_of_root {root : Element} {parsed : EntitiesDescriptor}
    (h : EntitiesDescriptor.fromRootElement crypto root = .ok parsed) :
    List.Forall₂ EntryExpires (rootEntities root) parsed.entities := by
  have hentries := mapM_eq_ok_iff.mp (entities_fromRootElement crypto h).2
  exact hentries.imp fun entity entry => entryExpires_of_element

/-! ## Visitors -/

/-- A visitor that keeps what it is given, with the entity it was read from. -/
def keepWithEntity (crypto : Primitives) (control : List MetadataEntry → StreamControl)
    (seen : List (Element × MetadataEntry)) (entity : Element) :
    List (Element × MetadataEntry) × Result StreamControl :=
  match parseEntityDescriptor crypto entity with
  | .ok entry => (seen ++ [(entity, entry)], .ok (control (seen.map Prod.snd ++ [entry])))
  | .error err => (seen, .error err)

/-- A visitor that keeps what it is given, and goes on as long as it likes. -/
def keep (control : List MetadataEntry → StreamControl) (seen : List MetadataEntry)
    (entry : MetadataEntry) : List MetadataEntry × StreamControl :=
  (seen ++ [entry], control (seen ++ [entry]))

variable {control : List MetadataEntry → StreamControl}

/-- What was kept so far comes from such entities and has their expiry. -/
def Kept (allowed : Element → Prop) (seen : List (Element × MetadataEntry)) : Prop :=
  ∀ visited ∈ seen, allowed visited.1 ∧ EntryExpires visited.1 visited.2

theorem kept_nil (allowed : Element → Prop) : Kept allowed [] :=
  fun _ h => absurd h List.not_mem_nil

theorem Kept.visit {allowed : Element → Prop} {seen : List (Element × MetadataEntry)}
    {entity : Element} (h : Kept allowed seen) (hentity : allowed entity) :
    Kept allowed (keepWithEntity crypto control seen entity).1 := by
  unfold keepWithEntity
  split
  next entry hentry =>
    intro visited hvisited
    rcases List.mem_append.mp hvisited with hvisited | hvisited
    · exact h visited hvisited
    · obtain rfl := List.mem_singleton.mp hvisited
      exact ⟨hentity, entryExpires_of_element hentry⟩
  next => exact h

/-- The two visitors keep the same entries. -/
theorem visitEntity_keep (seen : List (Element × MetadataEntry)) (entity : Element) :
    visitEntity crypto (keep control) (seen.map Prod.snd) entity =
      Prod.map (List.map Prod.snd) id (keepWithEntity crypto control seen entity) := by
  unfold visitEntity keepWithEntity keep
  cases parseEntityDescriptor crypto entity with
  | ok entry => simp
  | error err => rfl

/-- What every visit preserves holds after the scan. -/
theorem Scan.run_invariant {σ : Type} {sr : StreamReader}
    {visit : σ → Element → σ × Result StreamControl} {I : σ → Prop}
    (hvisit : ∀ s root, I s → I (visit s root).1) :
    ∀ (events : List (Except Str Event)) (scan : Scan) (s : σ), I s →
      I (scan.run sr visit s events).1 := by
  intro events
  induction events with
  | nil => exact fun scan s h => h
  | cons event rest ih =>
    intro scan s h
    cases event with
    | error e => exact h
    | ok event =>
      rw [Scan.run]
      split
      · exact h
      · exact h
      · exact ih _ s h
      next root next _ =>
        have hroot := hvisit s root h
        split
        next hv =>
          rw [hv] at hroot
          exact hroot
        next hv =>
          rw [hv] at hroot
          exact hroot
        next s' hv =>
          rw [hv] at hroot
          split
          · exact ih next s' hroot
          · exact hroot

/-- Visitors whose states correspond run alike. -/
theorem Scan.run_map {σ τ : Type} {sr : StreamReader} {f : σ → τ}
    {visit : σ → Element → σ × Result StreamControl}
    {other : τ → Element → τ × Result StreamControl}
    (hvisit : ∀ s root, other (f s) root = Prod.map f id (visit s root)) :
    ∀ (events : List (Except Str Event)) (scan : Scan) (s : σ),
      scan.run sr other (f s) events = Prod.map f id (scan.run sr visit s events) := by
  intro events
  induction events with
  | nil => exact fun scan s => rfl
  | cons event rest ih =>
    intro scan s
    cases event with
    | error e => rfl
    | ok event =>
      rw [Scan.run, Scan.run]
      cases scan.step sr event with
      | error err => rfl
      | ok outcome =>
        cases outcome with
        | next scan => exact ih scan s
        | done => rfl
        | entity root next =>
          dsimp only
          rw [hvisit s root]
          obtain ⟨s', result⟩ := visit s root
          cases result with
          | error err => rfl
          | ok answer =>
            cases answer with
            | stop => rfl
            | «continue» =>
              dsimp only [Prod.map, id]
              split
              · exact ih next s'
              · rfl

/-- What every visit of an entity preserves holds after the walk. -/
theorem visitNode_invariant {σ : Type} {visit : σ → Element → σ × Result StreamControl}
    {I : σ → Prop} {allowed : Element → Prop}
    (hvisit : ∀ s entity, allowed entity → I s → I (visit s entity).1) :
    (∀ (e : Element) (s : σ), (∀ entity ∈ entitiesAt (.element e), allowed entity) → I s →
      I (visitNode visit s (.element e)).1) ∧
    ∀ (nodes : List Node) (s : σ), (∀ entity ∈ entitiesIn nodes, allowed entity) → I s →
      I (visitNodes visit s nodes).1 := by
  have leaf (node : Node) (rest : List Node) (hnode : node.asElement = none)
      (hvisited : ∀ s, visitNode visit s node = (s, .ok .continue))
      (ih : ∀ s, (∀ entity ∈ entitiesIn rest, allowed entity) → I s →
        I (visitNodes visit s rest).1) (s : σ)
      (hallowed : ∀ entity ∈ entitiesIn (node :: rest), allowed entity) (h : I s) :
      I (visitNodes visit s (node :: rest)).1 := by
    rw [entitiesIn, entitiesAt_leaf hnode, List.nil_append] at hallowed
    rw [visitNodes, hvisited]
    exact ih s hallowed h
  apply Element.induct
  case mk =>
    intro e ih s hallowed h
    rw [entitiesAt_element] at hallowed
    rw [visitNode]
    split
    next hentity =>
      rw [if_pos hentity] at hallowed
      exact hvisit s e (hallowed e (List.mem_singleton_self e)) h
    next hentity =>
      rw [if_neg hentity] at hallowed
      split
      next hwrapper =>
        rw [if_pos hwrapper] at hallowed
        exact ih s hallowed h
      next => exact h
  case nil =>
    intro s _ h
    exact h
  case element =>
    intro e rest he ih s hallowed h
    rw [entitiesIn] at hallowed
    have hfirst := he s (fun entity hmem => hallowed entity (List.mem_append_left _ hmem)) h
    rw [visitNodes]
    split
    next s' hs' =>
      rw [hs'] at hfirst
      exact ih s' (fun entity hmem => hallowed entity (List.mem_append_right _ hmem)) hfirst
    next => exact hfirst
  case text =>
    intro t rest ih
    exact leaf _ rest rfl (fun _ => rfl) ih
  case comment =>
    intro c rest ih
    exact leaf _ rest rfl (fun _ => rfl) ih

/-- Visitors whose states correspond walk alike. -/
theorem visitNode_map {σ τ : Type} {f : σ → τ}
    {visit : σ → Element → σ × Result StreamControl}
    {other : τ → Element → τ × Result StreamControl}
    (hvisit : ∀ s entity, other (f s) entity = Prod.map f id (visit s entity)) :
    (∀ (e : Element) (s : σ), visitNode other (f s) (.element e) =
      Prod.map f id (visitNode visit s (.element e))) ∧
    ∀ (nodes : List Node) (s : σ), visitNodes other (f s) nodes =
      Prod.map f id (visitNodes visit s nodes) := by
  apply Element.induct
  case mk =>
    intro e ih s
    rw [visitNode, visitNode]
    split
    · exact hvisit s e
    · split
      · exact ih s
      · rfl
  case nil => exact fun s => rfl
  case element =>
    intro e rest he ih s
    rw [visitNodes, visitNodes, he s]
    obtain ⟨s', result⟩ := visitNode visit s (.element e)
    cases result with
    | error err => rfl
    | ok answer =>
      cases answer with
      | stop => rfl
      | «continue» => exact ih s'
  case text =>
    intro t rest ih
    exact ih
  case comment =>
    intro c rest ih
    exact ih

/-! ## The entry points -/

/-- A property of an entity of a parsed document. -/
def OfEntity (doc : Result Document) (P : Element → Prop) : Prop :=
  ∃ parsed, doc = .ok parsed ∧ ∃ entity ∈ rootEntities parsed.root, P entity

/-- The entries of an aggregate have the expiries of the document's entities. -/
def EntriesExpire (doc : Result Document) (entries : List MetadataEntry) : Prop :=
  ∃ parsed, doc = .ok parsed ∧ List.Forall₂ EntryExpires (rootEntities parsed.root) entries

theorem streamEntities_keep (sr : StreamReader) (xml : Octets) :
    (streamEntities crypto sr (keep control) [] xml).1 =
      (streamEntityElements sr (keepWithEntity crypto control) [] xml).1.map Prod.snd :=
  congrArg Prod.fst (Scan.run_map visitEntity_keep _ _ [])

theorem kept_streamEntityElements (sr : StreamReader) (xml : Octets) :
    Kept (fun _ => True) (streamEntityElements sr (keepWithEntity crypto control) [] xml).1 :=
  Scan.run_invariant (fun _ _ h => h.visit trivial) _ _ _ (kept_nil _)

variable (crypto control) in
/-- The walk of a tree keeps entries of its entities. -/
theorem kept_visitEntities (root : Element) :
    ∃ seen, (visitEntities (visitEntity crypto (keep control)) [] root).1 = seen.map Prod.snd ∧
      Kept (· ∈ rootEntities root) seen := by
  unfold visitEntities
  split
  · refine ⟨(visitNode (keepWithEntity crypto control) [] (.element root)).1, ?_, ?_⟩
    · exact congrArg Prod.fst ((visitNode_map visitEntity_keep).1 root [])
    · exact (visitNode_invariant fun _ _ hentity h => Kept.visit h hentity).1 root []
        (fun entity hmem => entitiesAt_root ▸ hmem) (kept_nil _)
  · exact ⟨[], rfl, kept_nil _⟩

/-- What `stream_signed_entities` keeps comes from the entities of a document. -/
theorem kept_streamSignedEntities (qx : QuickXml) (xml : Octets) (cert : X509Certificate)
    (policy : PeerCryptoPolicy) :
    ∃ seen, (streamSignedEntitiesWithPolicy crypto qx (keep control) [] xml cert policy).1 =
        seen.map Prod.snd ∧
      Kept (fun entity => ∃ doc, Document.parseWithLimits qx xml .aggregate = .ok doc ∧
        entity ∈ rootEntities doc.root) seen := by
  unfold streamSignedEntitiesWithPolicy
  dsimp only
  split
  · exact ⟨[], rfl, kept_nil _⟩
  next doc hverified =>
    obtain ⟨parsed, hparse, h⟩ := bind_eq_ok_iff.mp hverified
    obtain ⟨_, _, h⟩ := bind_eq_ok_iff.mp h
    cases h
    obtain ⟨seen, hseen, hkept⟩ := kept_visitEntities crypto control doc.root
    exact ⟨seen, hseen, fun visited hmem =>
      ⟨⟨doc, hparse, (hkept visited hmem).1⟩, (hkept visited hmem).2⟩⟩

/-- The accessors return roles of the entries of the aggregate. -/
def AccessorsOfEntries (parsed : EntitiesDescriptor) : Prop :=
  (∀ entityId, ∀ entry ∈ parsed.byEntityId entityId, entry ∈ parsed.entities) ∧
  (∀ indexed ∈ parsed.indexByEntityId, indexed.2 ∈ parsed.entities) ∧
  (∀ entityId, ∀ idp ∈ parsed.findIdp entityId, ∃ entry ∈ parsed.entities, idp ∈ entry.asIdp) ∧
  (∀ entityId, ∀ sp ∈ parsed.findSp entityId, ∃ entry ∈ parsed.entities, sp ∈ entry.asSp) ∧
  (∀ idp ∈ parsed.iterIdps, ∃ entry ∈ parsed.entities, idp ∈ entry.asIdp) ∧
  ∀ sp ∈ parsed.iterSps, ∃ entry ∈ parsed.entities, sp ∈ entry.asSp

/-- The index holds entries that it was given. -/
theorem mem_of_foldl_indexEntry {indexed : Str × MetadataEntry} (entries : List MetadataEntry) :
    ∀ index, indexed ∈ entries.foldl EntitiesDescriptor.indexEntry index →
      indexed ∈ index ∨ indexed.2 ∈ entries := by
  induction entries with
  | nil => exact fun index h => .inl h
  | cons entry rest ih =>
    intro index h
    rcases ih _ h with hindex | hrest
    · unfold EntitiesDescriptor.indexEntry at hindex
      split at hindex
      · split at hindex
        · exact .inl hindex
        · rcases List.mem_append.mp hindex with hold | hnew
          · exact .inl hold
          · obtain rfl := List.mem_singleton.mp hnew
            exact .inr (List.mem_cons_self ..)
      · exact .inl hindex
    · exact .inr (List.mem_cons_of_mem entry hrest)

theorem accessorsOfEntries (parsed : EntitiesDescriptor) : AccessorsOfEntries parsed := by
  refine ⟨?_, ?_, ?_, ?_, ?_, ?_⟩
  · intro entityId entry h
    exact List.mem_of_find?_eq_some h
  · intro indexed h
    rcases mem_of_foldl_indexEntry parsed.entities [] h with hnil | hentry
    · cases hnil
    · exact hentry
  · intro entityId idp h
    obtain ⟨entry, hentry, hidp⟩ := List.exists_of_findSome?_eq_some h
    exact ⟨entry, hentry, (Option.filter_eq_some_iff.mp hidp).1⟩
  · intro entityId sp h
    obtain ⟨entry, hentry, hsp⟩ := List.exists_of_findSome?_eq_some h
    exact ⟨entry, hentry, (Option.filter_eq_some_iff.mp hsp).1⟩
  · intro idp h
    exact List.mem_filterMap.mp h
  · intro sp h
    exact List.mem_filterMap.mp h

namespace Sample

/-- An entity without an expiry inside an aggregate that has one. -/
def expiring : Str :=
  "<md:EntitiesDescriptor xmlns:md=\"urn:oasis:names:tc:SAML:2.0:metadata\"" ++
    " validUntil=\"2020-01-01T00:00:00Z\"><md:EntityDescriptor entityID=\"e\">" ++
    "<md:IDPSSODescriptor/></md:EntityDescriptor></md:EntitiesDescriptor>"

end Sample

end Saml.Metadata
