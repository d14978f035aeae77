import Saml.Metadata.Signed
import Saml.Metadata.Visited
import Saml.Xml.Reader

/-!
# Streaming and eager parsing

A whole run of the scan beside the builder of the document: the visitor gets the
entities the tree has, each lifted out of it, in order.
-/

namespace Saml.Metadata

open Xml Crypto TreeBuilder

variable {sr : StreamReader} {b next final : TreeBuilder} {scan : Scan} {event : Event}

/-! ## What is gathered only grows -/

theorem gatheredBy_finished {root : Element} (hroot : b.completedRoot = some root)
    (hnext : next.completedRoot = some root) : gatheredBy next = gatheredBy b := by
  rw [gatheredBy, gatheredBy, hroot, hnext]

/-- Step: an event adds at the end, if it adds anything. -/
theorem gatheredBy_feed {qx : QuickXml} (hfeed : b.feed qx event = .ok next) :
    ∃ added, gatheredBy next = gatheredBy b ++ added := by
  cases hroot : b.completedRoot with
  | some root =>
      have hone : b.feedAll qx [.ok event] = .ok next :=
        bind_eq_ok_iff.mpr ⟨next, hfeed, rfl⟩
      refine ⟨[], ?_⟩
      rw [List.append_nil, gatheredBy_finished hroot (completedRoot_feedAll hone hroot)]
  | none =>
      have quiet (h : Quiet b next) : ∃ added, gatheredBy next = gatheredBy b ++ added :=
        ⟨[], by rw [gatheredBy_quiet h, List.append_nil]⟩
      have heffect := effect_feed hfeed
      cases event with
      | start start =>
          obtain ⟨element, -, -, -, -, -, hgathered⟩ := opens_shape hroot heffect
          exact ⟨[], by rw [hgathered, List.append_nil]⟩
      | empty start =>
          obtain ⟨element, -, -, -, -, hgathered⟩ := collapses_shape hroot heffect
          exact ⟨_, hgathered⟩
      | endTag loc =>
          obtain ⟨element, declared, -, -, hgathered⟩ := closes_shape hroot heffect
          exact ⟨_, hgathered⟩
      | docType => exact heffect.elim
      | pi => exact heffect.elim
      | text t => exact quiet heffect
      | generalRef loc => exact quiet heffect
      | cData t => exact quiet heffect
      | comment t => exact quiet heffect
      | decl => exact quiet heffect

theorem gatheredBy_feedAll {qx : QuickXml} {events : List (Except Str Event)}
    (h : b.feedAll qx events = .ok final) : ∃ added, gatheredBy final = gatheredBy b ++ added := by
  induction events generalizing b with
  | nil =>
      obtain rfl := Except.ok.inj h
      exact ⟨[], (List.append_nil _).symm⟩
  | cons item rest ih =>
      cases item with
      | error err => cases h
      | ok event =>
          obtain ⟨next, hnext, h⟩ := bind_eq_ok_iff.mp h
          obtain ⟨added, hadded⟩ := gatheredBy_feed hnext
          obtain ⟨more, hmore⟩ := ih h
          exact ⟨added ++ more, by rw [hmore, hadded, List.append_assoc]⟩

/-! ## The run -/

/-- The document ends with its root closed, and the root is of one of the two kinds. -/
structure Ends (final : TreeBuilder) : Prop where
  stack : final.stack = []
  root : ∃ root, final.completedRoot = some root ∧
    (root.qname = md "EntitiesDescriptor" ∨ root.qname = md "EntityDescriptor")

theorem Ends.named {qx : QuickXml} {events : List (Except Str Event)} (h : Ends final)
    (hfeed : b.feedAll qx events = .ok final) {name : QName} (hname : rootName b = some name) :
    name = md "EntitiesDescriptor" ∨ name = md "EntityDescriptor" := by
  obtain ⟨root, hroot, hkind⟩ := h.root
  have hlast := rootName_feedAll hfeed hname
  rw [rootName, hroot] at hlast
  rw [← Option.some.inj hlast]
  exact hkind

theorem Ends.single {qx : QuickXml} {events : List (Except Str Event)} (h : Ends final)
    (hfeed : b.feedAll qx events = .ok final) : b.completedRoot = none ∨ b.stack = [] := by
  cases hroot : b.completedRoot with
  | none => exact .inl rfl
  | some root =>
      refine .inr (Classical.byContradiction fun hopen => ?_)
      exact open_feedAll hfeed hroot hopen h.stack

/-- Step: whatever the builder of the document takes, the scan takes. -/
theorem Tracks.turn (faithful : StreamReader.Faithful sr) (hsound : Sound b)
    (h : Tracks sr b scan) (hfeed : b.feed sr.toQuickXml event = .ok next)
    (hclean : spurious sr.toQuickXml (b, event) = false ∧ missed sr.toQuickXml (b, event) = false)
    (hnamed : ∀ name, rootName next = some name →
      name = md "EntitiesDescriptor" ∨ name = md "EntityDescriptor")
    (hsingle : next.completedRoot = none ∨ next.stack = [])
    (hbound : (gatheredBy next).length ≤ MAX_STREAM_ENTITIES) : Turn sr b next scan event := by
  have heffect := effect_feed hfeed
  cases event with
  | start start => exact h.startTag faithful hsound hfeed hclean.1 hnamed hsingle
  | empty start => exact h.emptyTag hfeed hclean.2 hnamed hsingle
  | endTag loc => exact h.endTag hfeed hbound
  | docType => exact heffect.elim
  | pi => exact heffect.elim
  | text t => exact h.quiet heffect hfeed (fun loc => Event.noConfusion) rfl
  | generalRef loc => exact h.quiet heffect hfeed (fun loc => Event.noConfusion) rfl
  | cData t => exact h.quiet heffect hfeed (fun loc => Event.noConfusion) rfl
  | comment t => exact h.quiet heffect hfeed (fun loc => Event.noConfusion) rfl
  | decl => exact h.quiet heffect hfeed (fun loc => Event.noConfusion) rfl

/-- Show a visitor elements until it stops or fails. -/
def visitEach {σ : Type} (visit : σ → Element → σ × Result StreamControl) (s : σ) :
    List Element → σ × Result StreamControl
  | [] => (s, .ok .continue)
  | root :: rest =>
      match visit s root with
      | (s, .ok .continue) => visitEach visit s rest
      | other => other

/-- What a caller of the stream gets: whether the visitor stopped is not told. -/
def untold {σ : Type} (visited : σ × Result StreamControl) : σ × Result Unit :=
  (visited.1, visited.2.map fun _ => ())

section Runs

variable {σ : Type} {visit : σ → Element → σ × Result StreamControl} {reached : Scan}
  {rest : List (Except Str Event)} {lifted : List Element} {root : Element} {s : σ}

theorem run_next (h : scan.step sr event = .ok (.next reached)) :
    scan.run sr visit s (.ok event :: rest) = reached.run sr visit s rest := by
  rw [Scan.run, h]

theorem run_done (h : scan.step sr event = .ok .done) :
    scan.run sr visit s (.ok event :: rest) = (s, .ok ()) := by
  rw [Scan.run, h]

/-- An entity of an aggregate goes before what the rest of the run visits. -/
theorem run_entity (h : scan.step sr event = .ok (.entity root reached))
    (aggregate : reached.rootIsAggregate = true)
    (hrest : ∀ s, reached.run sr visit s rest = untold (visitEach visit s lifted)) :
    scan.run sr visit s (.ok event :: rest) = untold (visitEach visit s (root :: lifted)) := by
  rw [Scan.run, h, visitEach]
  dsimp only
  simp only [aggregate, if_true, hrest]
  obtain ⟨shown, err | control⟩ := visit s root
  · rfl
  · cases control <;> rfl

/-- An entity that is the root is the only one. -/
theorem run_single (h : scan.step sr event = .ok (.entity root reached))
    (single : reached.rootIsAggregate = false) :
    scan.run sr visit s (.ok event :: rest) = untold (visitEach visit s [root]) := by
  rw [Scan.run, h, visitEach]
  dsimp only
  simp only [single, Bool.false_eq_true, if_false, visitEach]
  obtain ⟨shown, err | control⟩ := visit s root
  · rfl
  · cases control <;> rfl

end Runs

/-- The run: the visitor gets what is still to be gathered. -/
theorem run_tracks (faithful : StreamReader.Faithful sr) {events : List (Except Str Event)}
    (hsound : Sound b) (h : Tracks sr b scan) (hfeed : b.feedAll sr.toQuickXml events = .ok final)
    (hends : Ends final)
    (hclean : ∀ reading ∈ readings sr.toQuickXml b events,
      spurious sr.toQuickXml reading = false ∧ missed sr.toQuickXml reading = false)
    (hbound : (gatheredBy final).length ≤ MAX_STREAM_ENTITIES) :
    ∃ added lifted, gatheredBy final = gatheredBy b ++ added ∧ List.Forall₂ Alike added lifted ∧
      ∀ {σ : Type} (visit : σ → Element → σ × Result StreamControl) (s : σ),
        scan.run sr visit s events = untold (visitEach visit s lifted) := by
  induction events generalizing b scan with
  | nil =>
      obtain rfl := Except.ok.inj hfeed
      exact ⟨[], [], (List.append_nil _).symm, .nil, fun visit s => rfl⟩
  | cons item rest ih =>
      cases item with
      | error err => cases hfeed
      | ok event =>
          obtain ⟨next, hnext, hfeed⟩ := bind_eq_ok_iff.mp hfeed
          rw [readings_cons hnext] at hclean
          have hrest := fun reading hreading => hclean reading (List.mem_cons_of_mem _ hreading)
          obtain ⟨more, hmore⟩ := gatheredBy_feedAll hfeed
          have hfew : (gatheredBy next).length ≤ MAX_STREAM_ENTITIES := by
            rw [hmore, List.length_append] at hbound
            exact Nat.le_of_add_right_le hbound
          -- behind the root nothing is gathered
          have hlast (hroot : next.completedRoot.isSome = true) :
              gatheredBy final = gatheredBy next := by
            obtain ⟨root, hroot⟩ := Option.isSome_iff_exists.mp hroot
            exact gatheredBy_finished hroot (completedRoot_feedAll hfeed hroot)
          rcases h.turn faithful hsound hnext (hclean _ List.mem_cons_self)
            (fun name hname => hends.named hfeed hname) (hends.single hfeed) hfew with
            ⟨hstep, htracks, hsame⟩ | ⟨hstep, htracks, hadds, halike, hsingle⟩ |
            ⟨hstep, hsame, hroot⟩
          · obtain ⟨added, lifted, hadded, hlifted, hrun⟩ :=
              ih (hsound.feed hnext) htracks hfeed hrest
            refine ⟨added, lifted, hsame ▸ hadded, hlifted, fun visit s => ?_⟩
            rw [run_next hstep, hrun]
          · rename_i e root reached
            cases haggregate : reached.rootIsAggregate with
            | true =>
                obtain ⟨added, lifted, hadded, hlifted, hrun⟩ :=
                  ih (hsound.feed hnext) htracks hfeed hrest
                refine ⟨e :: added, root :: lifted, ?_, .cons halike hlifted, fun visit s => ?_⟩
                · rw [hadded, hadds, List.append_assoc]
                  rfl
                · exact run_entity hstep haggregate (hrun visit)
            | false =>
                refine ⟨[e], [root], ?_, .cons halike .nil, fun visit s => ?_⟩
                · rw [hlast (hsingle haggregate), hadds]
                · exact run_single hstep haggregate
          · refine ⟨[], [], ?_, .nil, fun visit s => run_done hstep⟩
            rw [hlast hroot, hsame, List.append_nil]

/-! ## The document -/

variable {crypto : Primitives}

/-- Show a visitor entries until it stops. -/
def showEach {σ : Type} (visit : σ → MetadataEntry → σ × StreamControl) (s : σ) :
    List MetadataEntry → σ × StreamControl
  | [] => (s, .continue)
  | entry :: rest =>
      match visit s entry with
      | (s, .continue) => showEach visit s rest
      | other => other

theorem visitEntity_ok {e : Element} {entry : MetadataEntry}
    (h : parseEntityDescriptor crypto e = .ok entry) {σ : Type}
    (visit : σ → MetadataEntry → σ × StreamControl) (s : σ) :
    visitEntity crypto visit s e = ((visit s entry).1, .ok (visit s entry).2) := by
  rw [visitEntity, h]

/-- A visitor of elements that are like those the entries are read from is shown
the entries. -/
theorem visitEach_entries {elements lifted : List Element} {entries : List MetadataEntry}
    (hentries : elements.mapM (parseEntityDescriptor crypto) = .ok entries)
    (halike : List.Forall₂ Alike elements lifted) {σ : Type}
    (visit : σ → MetadataEntry → σ × StreamControl) (s : σ) :
    visitEach (visitEntity crypto visit) s lifted =
      ((showEach visit s entries).1, .ok (showEach visit s entries).2) := by
  rw [mapM_eq_ok_iff] at hentries
  induction halike generalizing entries s with
  | nil =>
      cases hentries
      rfl
  | cons hfirst hrest ih =>
      cases hentries with
      | @cons _ entry _ others hentry hothers =>
          have hread := (parseEntityDescriptor_alike crypto hfirst).symm.trans hentry
          rw [visitEach, visitEntity_ok hread, showEach]
          rcases visit s entry with ⟨shown, goes | stops⟩
          · exact ih hothers shown
          · rfl

/-- The events of a document, each with the builder of the eager parse. -/
def documentReadings (qx : QuickXml) (metadataXml : Octets) : List (TreeBuilder × Event) :=
  readings qx (TreeBuilder.new .aggregate) (qx.readEvents (normalizeLineEndings metadataXml))

/-- The spec of the eager parse: the events build the root, and the entries are
read from its entity elements. -/
theorem fromMetadataXml_ok {qx : QuickXml} {metadataXml : Octets} {parsed : EntitiesDescriptor}
    (h : EntitiesDescriptor.fromMetadataXml crypto qx metadataXml = .ok parsed) :
    ∃ final, (TreeBuilder.new .aggregate).feedAll qx
        (qx.readEvents (normalizeLineEndings metadataXml)) = .ok final ∧ Ends final ∧
      (gatheredBy final).mapM (parseEntityDescriptor crypto) = .ok parsed.entities := by
  obtain ⟨doc, hdoc, h⟩ := bind_eq_ok_iff.mp h
  obtain ⟨final, hfinal, hdoc⟩ := bind_eq_ok_iff.mp hdoc
  obtain ⟨hkind, hentries⟩ := entities_fromRootElement crypto h
  unfold TreeBuilder.finish at hdoc
  split at hdoc
  · cases hdoc
  next hstack =>
    split at hdoc
    · cases hdoc
    next root hroot =>
      obtain rfl := Except.ok.inj hdoc
      refine ⟨final, hfinal, ⟨hstack, root, hroot, ?_⟩, ?_⟩
      · exact hkind.imp isMdElement_iff.mp isMdElement_iff.mp
      · rw [gatheredBy, hroot]
        exact hentries

/-- Streaming shows the entries of the eager parse, unless an entity is written as
an empty tag or a tag only looks like an entity. -/
theorem streamEntities_eager (faithful : StreamReader.Faithful sr) {metadataXml : Octets}
    {parsed : EntitiesDescriptor}
    (h : EntitiesDescriptor.fromMetadataXml crypto sr.toQuickXml metadataXml = .ok parsed)
    (hbound : parsed.entities.length ≤ MAX_STREAM_ENTITIES)
    (hclean : ∀ reading ∈ documentReadings sr.toQuickXml metadataXml,
      spurious sr.toQuickXml reading = false ∧ missed sr.toQuickXml reading = false)
    {σ : Type} (visit : σ → MetadataEntry → σ × StreamControl) (s : σ) :
    streamEntities crypto sr visit s metadataXml =
      ((showEach visit s parsed.entities).1, .ok ()) := by
  obtain ⟨final, hfeed, hends, hentries⟩ := fromMetadataXml_ok h
  have hlength := (mapM_eq_ok_iff.mp hentries).length_eq
  obtain ⟨added, lifted, hadded, halike, hrun⟩ := run_tracks faithful
    ⟨rfl, rfl⟩ (.fresh rfl rfl) hfeed hends hclean (hlength.le.trans hbound)
  have hnew : gatheredBy (TreeBuilder.new .aggregate) = [] := rfl
  rw [hnew, List.nil_append] at hadded
  rw [← hadded] at halike
  have hstream : streamEntities crypto sr visit s metadataXml =
      untold (visitEach (visitEntity crypto visit) s lifted) := hrun _ s
  rw [hstream, visitEach_entries hentries halike]
  rfl

/-! ## Signed documents -/

section Signed

variable {σ : Type} (visit : σ → Element → σ × Result StreamControl)

theorem visitEach_append (s : σ) (elements others : List Element) :
    visitEach visit s (elements ++ others) =
      match visitEach visit s elements with
      | (s, .ok .continue) => visitEach visit s others
      | other => other := by
  induction elements generalizing s with
  | nil => rfl
  | cons first rest ih =>
      rw [List.cons_append, visitEach, visitEach]
      rcases visit s first with ⟨shown, err | goes | stops⟩
      · rfl
      · exact ih shown
      · rfl

/-- The walk of a tree shows its entity elements in order. -/
theorem visitNode_eq :
    (∀ (e : Element) (s : σ),
      visitNode visit s (.element e) = visitEach visit s (entitiesAt (.element e))) ∧
    ∀ (nodes : List Node) (s : σ),
      visitNodes visit s nodes = visitEach visit s (entitiesIn nodes) := by
  have leaf (node : Node) (rest : List Node) (hnode : node.asElement = none)
      (hvisit : ∀ s, visitNode visit s node = (s, .ok .continue))
      (ih : ∀ s, visitNodes visit s rest = visitEach visit s (entitiesIn rest)) (s : σ) :
      visitNodes visit s (node :: rest) = visitEach visit s (entitiesIn (node :: rest)) := by
    rw [visitNodes, hvisit, entitiesIn, entitiesAt_leaf hnode, List.nil_append, ← ih]
  apply Element.induct
  case mk =>
    intro e ih s
    rw [entitiesAt_element, visitNode]
    split
    · rw [visitEach]
      rcases visit s _ with ⟨shown, err | goes | stops⟩ <;> rfl
    · split
      · exact ih s
      · rfl
  case nil =>
    intro s
    rfl
  case element =>
    intro e rest he ih s
    rw [visitNodes, he, entitiesIn, visitEach_append]
    rcases visitEach visit s (entitiesAt (.element e)) with ⟨shown, err | goes | stops⟩
    · rfl
    · exact ih shown
    · rfl
  case text =>
    intro t rest ih
    exact leaf _ rest rfl (fun s => rfl) ih
  case comment =>
    intro c rest ih
    exact leaf _ rest rfl (fun s => rfl) ih

/-- The spec of `visit_entities` on a root of one of the two kinds. -/
theorem visitEntities_eq {root : Element} (hroot : isMdElement root "EntitiesDescriptor" = true ∨
    isMdElement root "EntityDescriptor" = true) (s : σ) :
    visitEntities visit s root = visitEach visit s (rootEntities root) := by
  rw [visitEntities, if_pos hroot.symm, (visitNode_eq visit).1, ← rootEntities_eq]

/-- A visitor that has always continued was shown all entries, which are well formed. -/
theorem entries_of_visitEach {elements : List Element} {visit : σ → MetadataEntry → σ × StreamControl}
    {s shown : σ} (h : visitEach (visitEntity crypto visit) s elements = (shown, .ok .continue)) :
    ∃ entries, elements.mapM (parseEntityDescriptor crypto) = .ok entries ∧
      showEach visit s entries = (shown, .continue) := by
  induction elements generalizing s with
  | nil =>
      obtain ⟨rfl, -⟩ := Prod.mk.inj h
      exact ⟨[], rfl, rfl⟩
  | cons first rest ih =>
      rw [visitEach] at h
      cases hentry : parseEntityDescriptor crypto first with
      | error err =>
          rw [visitEntity, hentry] at h
          cases h
      | ok entry =>
          rw [visitEntity_ok hentry] at h
          rcases hshow : visit s entry with ⟨next, goes | stops⟩
          · rw [hshow] at h
            obtain ⟨entries, hentries, hshown⟩ := ih h
            refine ⟨entry :: entries, ?_, ?_⟩
            · rw [mapM_eq_ok_iff] at hentries ⊢
              exact .cons hentry hentries
            · rw [showEach, hshow]
              exact hshown
          · rw [hshow] at h
            cases h

/-- A visitor that always continues does not stop. -/
theorem visitEach_continues {elements : List Element} {visit : σ → MetadataEntry → σ × StreamControl}
    (continues : ∀ s entry, (visit s entry).2 = .continue) {s shown : σ} {control : StreamControl}
    (h : visitEach (visitEntity crypto visit) s elements = (shown, .ok control)) :
    control = .continue := by
  induction elements generalizing s with
  | nil =>
      obtain ⟨-, hcontrol⟩ := Prod.mk.inj h
      exact (Except.ok.inj hcontrol).symm
  | cons first rest ih =>
      rw [visitEach] at h
      cases hentry : parseEntityDescriptor crypto first with
      | error err =>
          rw [visitEntity, hentry] at h
          cases h
      | ok entry =>
          rw [visitEntity_ok hentry, continues s entry] at h
          exact ih h

/-- Streaming a signed document walks the tree that the signature covers. -/
theorem streamSignedEntities_ok {qx : QuickXml} {xml : Octets} {cert : X509Certificate}
    {policy : PeerCryptoPolicy} {doc : Document}
    (hdoc : Document.parseWithLimits qx xml .aggregate = .ok doc)
    (hverified : verifyMetadataSignatureOnDocument crypto doc cert policy = .ok ())
    (visit : σ → MetadataEntry → σ × StreamControl) (s : σ) :
    streamSignedEntitiesWithPolicy crypto qx visit s xml cert policy =
      untold (visitEntities (visitEntity crypto visit) s doc.root) := by
  unfold streamSignedEntitiesWithPolicy
  rw [hdoc, ok_bind, hverified, ok_bind]
  rfl

/-- Signed documents: streaming shows the entries of the eager parse up to a stop,
and what was shown to its end without one is what the eager parse reads below a
root that the signature covers. -/
theorem streamSignedEntities_eager (qx : QuickXml) (xml : Octets) (cert : X509Certificate)
    (policy : PeerCryptoPolicy) (visit : σ → MetadataEntry → σ × StreamControl) (s : σ) :
    (∀ parsed, parseSignedEntitiesDescriptorWithPolicy crypto qx xml cert policy = .ok parsed →
      streamSignedEntitiesWithPolicy crypto qx visit s xml cert policy =
        ((showEach visit s parsed.entities).1, .ok ())) ∧
    ∀ shown, (∀ s entry, (visit s entry).2 = .continue) →
      streamSignedEntitiesWithPolicy crypto qx visit s xml cert policy = (shown, .ok ()) →
        ∃ doc entries, Document.parseWithLimits qx xml .aggregate = .ok doc ∧
          verifyMetadataSignatureOnDocument crypto doc cert policy = .ok () ∧
          (rootEntities doc.root).mapM (parseEntityDescriptor crypto) = .ok entries ∧
          showEach visit s entries = (shown, .continue) := by
  constructor
  · intro parsed h
    obtain ⟨doc, hdoc, h⟩ := bind_eq_ok_iff.mp h
    obtain ⟨⟨⟩, hverified, h⟩ := bind_eq_ok_iff.mp h
    obtain ⟨hroot, hentries⟩ := entities_fromRootElement crypto h
    have halike : List.Forall₂ Alike (rootEntities doc.root) (rootEntities doc.root) :=
      List.forall₂_same.mpr fun e he => rfl
    rw [streamSignedEntities_ok hdoc hverified, visitEntities_eq _ hroot,
      visitEach_entries hentries halike]
    rfl
  · intro shown continues h
    unfold streamSignedEntitiesWithPolicy at h
    dsimp only at h
    split at h
    · cases h
    next doc hchecked =>
      obtain ⟨parsed, hdoc, hchecked⟩ := bind_eq_ok_iff.mp hchecked
      obtain ⟨⟨⟩, hverified, hchecked⟩ := bind_eq_ok_iff.mp hchecked
      obtain rfl := Except.ok.inj hchecked
      by_cases hroot : isMdElement parsed.root "EntitiesDescriptor" = true ∨
          isMdElement parsed.root "EntityDescriptor" = true
      · rw [visitEntities_eq _ hroot] at h
        rcases hvisited : visitEach (visitEntity crypto visit) s (rootEntities parsed.root) with
          ⟨seen, err | control⟩
        · rw [hvisited] at h
          cases h
        · rw [hvisited] at h
          obtain ⟨rfl, -⟩ := Prod.mk.inj h
          obtain rfl := visitEach_continues continues hvisited
          obtain ⟨entries, hentries, hshown⟩ := entries_of_visitEach hvisited
          exact ⟨parsed, entries, hdoc, hverified, hentries, hshown⟩
      · rw [visitEntities, if_neg (fun hkind => hroot hkind.symm)] at h
        cases h

end Signed

/-! ## An aggregate that is streamed -/

namespace Sample

/-- The scanning reader; its unchecked iteration yields what the checked one does. -/
def stream : StreamReader := { Scanning.reader with uncheckedAttributes := BytesStart.attributes }

theorem toQuickXml_stream : stream.toQuickXml = Scanning.reader := rfl

theorem faithful_stream : StreamReader.Faithful stream := fun _ _ => rfl

/-- Entities in nested wrappers, the inner one with another prefix, beside an
element of another namespace. -/
def nested : Str :=
  "<EntitiesDescriptor xmlns=\"urn:oasis:names:tc:SAML:2.0:metadata\">" ++
    "<EntityDescriptor entityID=\"outer\"><IDPSSODescriptor/></EntityDescriptor>" ++
    "<m:EntitiesDescriptor xmlns:m=\"urn:oasis:names:tc:SAML:2.0:metadata\">" ++
    "<x:Note xmlns:x=\"urn:x\">entity</x:Note>" ++
    "<m:EntityDescriptor entityID=\"inner\"><SPSSODescriptor/></m:EntityDescriptor>" ++
    "</m:EntitiesDescriptor></EntitiesDescriptor>"

/-- The builder at the end of a text, before it is finished. -/
def built (text : Str) : Result TreeBuilder :=
  (TreeBuilder.new .aggregate).feedAll Scanning.reader ((Library.Markup.scanText text).map Scanning.event)

theorem readEvents_asBytes {text : Str} (h : '\r' ∉ text) :
    Scanning.reader.readEvents (normalizeLineEndings (Text.asBytes text)) =
      (Library.Markup.scanText text).map Scanning.event := by
  rw [normalizeLineEndings_of_notMem (Text.return_notMem_asBytes h)]
  simp only [Scanning.reader, Text.fromUtf8_asBytes]

end Sample

namespace Sample

/-- No tag of the nested aggregate is missed, and none only looks like an entity. -/
theorem nested_clean : ∀ reading ∈ documentReadings stream.toQuickXml (Text.asBytes nested),
    spurious stream.toQuickXml reading = false ∧ missed stream.toQuickXml reading = false := by
  have hclean : ((readings Scanning.reader (TreeBuilder.new .aggregate)
      ((Library.Markup.scanText nested).map Scanning.event)).all fun reading =>
        !spurious Scanning.reader reading && !missed Scanning.reader reading) = true := by
    decide +kernel
  rw [toQuickXml_stream, documentReadings, readEvents_asBytes (by decide +kernel)]
  rw [List.all_eq_true] at hclean
  intro reading hreading
  have hboth := hclean reading hreading
  rw [Bool.and_eq_true, Bool.not_eq_true', Bool.not_eq_true'] at hboth
  exact hboth

/-- The eager parse of the nested aggregate. -/
theorem nested_parsed : ∃ parsed,
    EntitiesDescriptor.fromMetadataXml Transparent.primitives Scanning.reader
      (Text.asBytes nested) = .ok parsed ∧
    parsed.entities.map MetadataEntry.entityId = [some "outer".toList, some "inner".toList] := by
  have hread : ((built nested).toOption.bind fun b =>
      (b.finish.toOption.bind fun doc => (EntitiesDescriptor.fromRootElement
        Transparent.primitives doc.root).toOption.map fun parsed =>
          parsed.entities.map MetadataEntry.entityId)) =
        some [some "outer".toList, some "inner".toList] := by
    decide +kernel
  obtain ⟨b, hb, hread⟩ := Option.bind_eq_some_iff.mp hread
  obtain ⟨doc, hdoc, hread⟩ := Option.bind_eq_some_iff.mp hread
  obtain ⟨parsed, hparsed, hids⟩ := Option.map_eq_some_iff.mp hread
  refine ⟨parsed, ?_, hids⟩
  refine bind_eq_ok_iff.mpr ⟨doc, bind_eq_ok_iff.mpr ⟨b, ?_, ok_of_toOption hdoc⟩,
    ok_of_toOption hparsed⟩
  rw [readEvents_asBytes (by decide +kernel)]
  exact ok_of_toOption hb

end Sample

/-- A stop behind the first entity of the nested aggregate. -/
theorem streamEntities_eager_nested : ∃ parsed,
    EntitiesDescriptor.fromMetadataXml Transparent.primitives Scanning.reader
      (Text.asBytes Sample.nested) = .ok parsed ∧
    parsed.entities.map MetadataEntry.entityId = [some "outer".toList, some "inner".toList] ∧
    streamEntities Transparent.primitives Sample.stream
      (fun s entry => (s ++ [entry], .stop)) [] (Text.asBytes Sample.nested) =
        (parsed.entities.take 1, .ok ()) := by
  obtain ⟨parsed, hparsed, hids⟩ := Sample.nested_parsed
  have hlength := congrArg List.length hids
  rw [List.length_map] at hlength
  refine ⟨parsed, hparsed, hids, ?_⟩
  rw [@streamEntities_eager Sample.stream _ Sample.faithful_stream _ _ hparsed
    (by rw [hlength]; decide) Sample.nested_clean]
  obtain ⟨first, rest, hentities⟩ := List.exists_cons_of_length_eq_add_one hlength
  rw [hentities]
  rfl

end Saml.Metadata
