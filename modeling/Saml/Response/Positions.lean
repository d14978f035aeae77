import Saml.Response.Issued
import Saml.Response.Soundness

/-!
# Signature positions

What the structural check before verification establishes about the trees
behind an accepted response. The check stops at every signature it admits, and
it is made on the received tree alone; both limits show in the condition under
which every signature stands in an allowed position.
-/

namespace Saml.Response

open Xml Crypto Dsig

variable {crypto : Primitives} {qx : QuickXml}

/-! ## Positions in a tree -/

/-- The signatures among the children of an element are allowed there. -/
def PlacesSignatures (d : Element) : Prop :=
  ∀ s ∈ d.childElements, s.qname = ds "Signature" → signatureAllowedUnder (some d.qname) = true

/-- Every signature of a tree is a child of an element that may carry one. -/
structure SignaturesPlaced (root : Element) : Prop where
  top : root.qname ≠ ds "Signature"
  below : Everywhere PlacesSignatures root

/-- Every signature inside another one is a child of an element that may carry
one. -/
def NestedPlaced (e : Element) : Prop :=
  Everywhere (fun outer => outer.qname = ds "Signature" → Everywhere PlacesSignatures outer) e

theorem nestedPlaced_iff {e : Element} :
    NestedPlaced e ↔ (e.qname = ds "Signature" → Everywhere PlacesSignatures e) ∧
      ∀ child ∈ e.childElements, NestedPlaced child :=
  everywhere_iff

theorem Everywhere.nestedPlaced {e : Element} (h : Everywhere PlacesSignatures e) :
    NestedPlaced e := by
  intro path outer hwalk _ rest d hd
  apply h (path ++ rest) d
  rw [ElementOf.walk_append, hwalk]
  exact hd

/-! ## The walk -/

theorem walkSignaturesBelow_ok_iff (parent : QName) (nodes : List Node) :
    walkSignaturesBelow parent nodes = .ok () ↔
      ∀ child, Node.element child ∈ nodes → walkSignatures (some parent) child = .ok () := by
  induction nodes with
  | nil => simp [walkSignaturesBelow]
  | cons node rest ih =>
      rw [walkSignaturesBelow, bind_eq_ok_iff]
      constructor
      · rintro ⟨_, hnode, hrest⟩ child hchild
        rcases List.mem_cons.mp hchild with rfl | hmem
        · exact hnode
        · exact ih.mp hrest child hmem
      · intro h
        refine ⟨(), ?_, ih.mpr fun child hchild => h child (List.mem_cons_of_mem node hchild)⟩
        cases node with
        | element e => exact h e List.mem_cons_self
        | text t => rfl
        | comment c => rfl

/-- One step of the walk: a signature is judged by its parent and not entered,
any other element is entered. -/
theorem walkSignatures_ok_iff (parent : Option QName) (e : Element) :
    walkSignatures parent e = .ok () ↔
      if e.qname = ds "Signature" then signatureAllowedUnder parent = true
      else ∀ child ∈ e.childElements, walkSignatures (some e.qname) child = .ok () := by
  rcases e with ⟨qname, sourcePrefix, declared, attributes, children, id⟩
  rw [walkSignatures, ← show ds "Signature" = ⟨some DS_NS, "Signature"⟩ from rfl]
  by_cases hname : qname = ds "Signature"
  · rw [if_pos hname, if_pos hname]
    by_cases hallowed : signatureAllowedUnder parent = true
    · simp [hallowed]
    · simp [hallowed]
  · rw [if_neg hname, if_neg hname, walkSignaturesBelow_ok_iff]
    simp only [ElementOf.mem_childElements]

/-- The walk accepts a tree that hides no misplaced signature in a signature
exactly when no signature of the tree is misplaced. -/
theorem walkSignatures_placed_iff :
    (∀ (e : Element) (parent : Option QName),
      walkSignatures parent e = .ok () ∧ NestedPlaced e ↔
        (e.qname = ds "Signature" → signatureAllowedUnder parent = true) ∧
          Everywhere PlacesSignatures e) ∧
    ∀ (nodes : List Node) (parent : QName), ∀ child, Node.element child ∈ nodes →
      (walkSignatures (some parent) child = .ok () ∧ NestedPlaced child ↔
        (child.qname = ds "Signature" → signatureAllowedUnder (some parent) = true) ∧
          Everywhere PlacesSignatures child) := by
  apply Element.induct
  case mk =>
    intro e ih parent
    by_cases hname : e.qname = ds "Signature"
    · rw [walkSignatures_ok_iff, if_pos hname, forall_prop_of_true hname]
      refine and_congr_right fun _ => ?_
      constructor
      · intro hnested
        exact (nestedPlaced_iff.mp hnested).1 hname
      · exact Everywhere.nestedPlaced
    · rw [walkSignatures_ok_iff, if_neg hname, nestedPlaced_iff, everywhere_iff]
      have children (child : Element) (hchild : child ∈ e.childElements) :=
        ih e.qname child (ElementOf.mem_childElements.mp hchild)
      constructor
      · rintro ⟨hwalks, _, hnested⟩
        refine ⟨fun h => absurd h hname, ?_, ?_⟩
        · intro s hs
          exact ((children s hs).mp ⟨hwalks s hs, hnested s hs⟩).1
        · intro child hchild
          exact ((children child hchild).mp ⟨hwalks child hchild, hnested child hchild⟩).2
      · rintro ⟨_, hself, hbelow⟩
        refine ⟨?_, fun h => absurd h hname, ?_⟩
        · intro child hchild
          exact ((children child hchild).mpr ⟨hself child hchild, hbelow child hchild⟩).1
        · intro child hchild
          exact ((children child hchild).mpr ⟨hself child hchild, hbelow child hchild⟩).2
  case nil =>
    intro parent child hchild
    cases hchild
  case element =>
    intro first rest hfirst ih parent child hchild
    rcases List.mem_cons.mp hchild with heq | hchild
    · rw [Node.element.inj heq]
      exact hfirst (some parent)
    · exact ih parent child hchild
  case text =>
    intro t rest ih parent child hchild
    rcases List.mem_cons.mp hchild with heq | hchild
    · cases heq
    · exact ih parent child hchild
  case comment =>
    intro c rest ih parent child hchild
    rcases List.mem_cons.mp hchild with heq | hchild
    · cases heq
    · exact ih parent child hchild

/-- What the check misses: the signatures inside signatures. -/
theorem signaturesPlaced_iff (document : Document) :
    SignaturesPlaced document.root ↔
      enforceSignaturePositions document = .ok () ∧ NestedPlaced document.root := by
  rw [enforceSignaturePositions, walkSignatures_placed_iff.1 document.root none]
  constructor
  · rintro ⟨htop, hbelow⟩
    exact ⟨fun h => absurd h htop, hbelow⟩
  · rintro ⟨htop, hbelow⟩
    exact ⟨fun h => absurd (htop h) Bool.false_ne_true, hbelow⟩

/-! ## The trees behind an accepted response -/

/-- The document the encrypted assertion of a response decrypts to. -/
def DecryptsTo (crypto : Primitives) (qx : QuickXml) (input : ValidateResponse)
    (doc : Document) : Prop :=
  ∃ id enc cleartext, input.parsed.assertion = some (.encrypted id) ∧
    input.document.element id = some enc ∧
    Xmlenc.decryptEncryptedAssertion crypto qx enc input.decryptionKeys input.peerCryptoPolicy =
      .ok cleartext ∧
    Document.new cleartext = .ok doc

/-- The document a located assertion was decrypted into is the one the
response decrypts to. -/
theorem AssertionSource.decryptedDoc_iff {input : ValidateResponse} {located : LocatedAssertion}
    (h : AssertionSource crypto qx input located) (doc : Document) :
    located.decryptedDoc = some doc ↔ DecryptsTo crypto qx input doc := by
  cases h with
  | cleartext id wrapper element decrypted =>
      rw [decrypted]
      constructor
      · intro h
        cases h
      · rintro ⟨other, enc, cleartext, hwrapper, _⟩
        rw [wrapper] at hwrapper
        cases hwrapper
  | encrypted id enc cleartext found wrapper element decrypts wraps decrypted root =>
      rw [decrypted]
      constructor
      · intro h
        obtain rfl := Option.some.inj h
        exact ⟨id, enc, cleartext, wrapper, element, decrypts, wraps⟩
      · rintro ⟨other, enc', cleartext', hwrapper, helement, hdecrypts, hwraps⟩
        rw [wrapper] at hwrapper
        obtain rfl := AssertionWrapper.encrypted.inj (Option.some.inj hwrapper)
        obtain rfl := Option.some.inj (element.symm.trans helement)
        obtain rfl := Except.ok.inj (decrypts.symm.trans hdecrypts)
        rw [Except.ok.inj (wraps.symm.trans hwraps)]

/-- The trees that contribute to an accepted response have every signature in
an allowed position exactly when the received one hides none in a signature,
and the decrypted one, which is not walked, would pass the walk and hides none
either. -/
theorem validateResponse_placed_iff {octets : Octets} {input : ValidateResponse}
    {identity : Identity} (parsed : Document.parse qx octets = .ok input.document)
    (accepted : validateResponse crypto qx input = .ok identity) :
    ∃ located, locateAssertion crypto qx input = .ok located ∧
      ((SignaturesPlaced input.document.root ∧
          ∀ doc, located.decryptedDoc = some doc → SignaturesPlaced doc.root) ↔
        NestedPlaced input.document.root ∧
          ∀ doc, DecryptsTo crypto qx input doc →
            enforceSignaturePositions doc = .ok () ∧ NestedPlaced doc.root) := by
  obtain ⟨_, hpositions, located, hlocated, _⟩ := validateResponse_ok accepted
  obtain ⟨hsource, _⟩ := locateAssertion_ok (Document.wellIndexed_parse parsed) hlocated
  refine ⟨located, hlocated, and_congr ?_ ?_⟩
  · rw [signaturesPlaced_iff]
    exact and_iff_right hpositions
  · refine forall_congr' fun doc => ?_
    rw [hsource.decryptedDoc_iff, signaturesPlaced_iff]

/-- The sample exchange succeeds, and its trees are placed under that condition. -/
theorem validateResponse_placed_iff_sample : ∃ text input identity,
    Sample.exchange = .ok (text, input, identity) ∧ ∃ located,
      locateAssertion Transparent.primitives Scanning.reader input = .ok located ∧
        ((SignaturesPlaced input.document.root ∧
            ∀ doc, located.decryptedDoc = some doc → SignaturesPlaced doc.root) ↔
          NestedPlaced input.document.root ∧
            ∀ doc, DecryptsTo Transparent.primitives Scanning.reader input doc →
              enforceSignaturePositions doc = .ok () ∧ NestedPlaced doc.root) := by
  obtain ⟨⟨text, input, identity⟩, hexchange⟩ := exists_of_isOk Sample.exchange_isOk
  obtain ⟨hparsed, _, haccepted⟩ := Sample.exchange_ok hexchange
  exact ⟨text, input, identity, hexchange, validateResponse_placed_iff hparsed haccepted⟩

/-! ## A signature in a signature -/

namespace Sample

/-- An object with a signature in it. -/
def signedObject : Element :=
  (ElementOf.build (ds "Object")).withChild (.element (ElementOf.build (ds "Signature")))

/-- Append that object to a signature. -/
def smuggle : Node → Node
  | .element e =>
      if e.qname = ds "Signature" then .element (e.withChild (.element signedObject))
      else .element e
  | node => node

/-- Whether the element at a path has a misplaced signature among its children. -/
def misplacesAt (path : ElementPath) (root : Element) : Bool :=
  (root.walk path).any fun d =>
    d.childElements.any (fun s => s.qname = ds "Signature") && !signatureAllowedUnder (some d.qname)

/-- Take the signed assertion of the sample, add the object to its signature
and send it on; the received input and the identity. -/
def smuggled : Result (Str × ValidateResponse × Identity) := do
  let assertion ← issuedAssertion Transparent.primitives issuance (draws 4)
  let doc ← Document.new (buildResponse "response" "idp" "acs" (some "request")
    "2023-11-14T22:13:20Z" .success
    (some { assertion with children := assertion.children.map smuggle }))
  let text ← emitDocument doc
  let document ← Scanning.parseText text
  let (parsed, _) ← parseResponse document
  let identity ← validateResponse Transparent.primitives Scanning.reader (request document parsed)
  if '\r' ∈ text ∨ misplacesAt [2, 1, 3] document.root = false then .error .inflate
  else .ok (text, request document parsed, identity)

set_option maxRecDepth 20000 in
theorem smuggled_isOk : smuggled.isOk = true := by decide +kernel

theorem not_signaturesPlaced_of_misplacesAt {path : ElementPath} {root : Element}
    (h : misplacesAt path root = true) : ¬ SignaturesPlaced root := by
  intro hplaced
  rw [misplacesAt, Option.any_eq_true] at h
  obtain ⟨d, hd, hmisplaced⟩ := h
  rw [Bool.and_eq_true, List.any_eq_true] at hmisplaced
  obtain ⟨⟨s, hs, hname⟩, hdisallowed⟩ := hmisplaced
  rw [hplaced.below path d hd s hs (of_decide_eq_true hname)] at hdisallowed
  cases hdisallowed

/-- The steps of the exchange with the changed signature. -/
theorem smuggled_ok {text : Str} {input : ValidateResponse} {identity : Identity}
    (h : smuggled = .ok (text, input, identity)) :
    Document.parse Scanning.reader (Text.asBytes text) = .ok input.document ∧
      (∃ rootId, parseResponse input.document = .ok (input.parsed, rootId)) ∧
      validateResponse Transparent.primitives Scanning.reader input = .ok identity ∧
      ¬ SignaturesPlaced input.document.root := by
  obtain ⟨_, _, h⟩ := bind_eq_ok_iff.mp h
  obtain ⟨_, _, h⟩ := bind_eq_ok_iff.mp h
  obtain ⟨text, _, h⟩ := bind_eq_ok_iff.mp h
  obtain ⟨document, hdocument, h⟩ := bind_eq_ok_iff.mp h
  obtain ⟨⟨parsed, rootId⟩, hparsed, h⟩ := bind_eq_ok_iff.mp h
  obtain ⟨extracted, hextracted, h⟩ := bind_eq_ok_iff.mp h
  obtain ⟨hplain, h⟩ := ite_error_eq_ok_iff.mp h
  obtain ⟨rfl, rest⟩ := Prod.mk.inj (Except.ok.inj h)
  obtain ⟨rfl, rfl⟩ := Prod.mk.inj rest
  obtain ⟨hreturn, hmisplaces⟩ := not_or.mp hplain
  rw [Scanning.parse_asBytes hreturn]
  exact ⟨hdocument, ⟨rootId, hparsed⟩, hextracted,
    not_signaturesPlaced_of_misplacesAt (Bool.not_eq_false _ ▸ hmisplaces)⟩

end Sample

/-- An accepted response can hide a misplaced signature in its signature. -/
theorem validateResponse_misplaced : ¬ ∀ (crypto : Primitives) (qx : QuickXml) (octets : Octets)
    (input : ValidateResponse) (rootId : ElementId) (identity : Identity),
    Document.parse qx octets = .ok input.document →
    parseResponse input.document = .ok (input.parsed, rootId) →
    validateResponse crypto qx input = .ok identity →
    ∃ located, locateAssertion crypto qx input = .ok located ∧
      SignaturesPlaced input.document.root ∧
      ∀ doc, located.decryptedDoc = some doc → SignaturesPlaced doc.root := by
  intro hclaim
  obtain ⟨⟨text, input, identity⟩, hsmuggled⟩ := exists_of_isOk Sample.smuggled_isOk
  obtain ⟨hparsed, ⟨rootId, hresponse⟩, haccepted, hmisplaced⟩ := Sample.smuggled_ok hsmuggled
  obtain ⟨_, _, hplaced, _⟩ := hclaim _ _ _ _ _ _ hparsed hresponse haccepted
  exact hmisplaced hplaced

end Saml.Response
