import Saml.Redirect
import Saml.Library.Run
import Mathlib.Data.List.Infix

/-!
# The common domain cookie

`disco::cdc`: the entity identifiers of the providers that a user visited, the
most recent one last, in the value of the `_saml_idp` cookie.
-/

namespace Saml.Disco

open Library Redirect

/-- `CommonDomainCookie`, oldest entry first. -/
structure CommonDomainCookie where
  entityIds : List Str
deriving DecidableEq

namespace CommonDomainCookie

/-- One entry of a cookie value. -/
def parseEntry (token : Str) : Result Str := do
  let bytes ← okOr (Base64.decode token)
    (.commonDomainCookieMalformed "cookie entry is not valid base64")
  let entityId ← okOr (Text.fromUtf8 bytes)
    (.commonDomainCookieMalformed "cookie entry does not decode to UTF-8")
  if entityId = [] then
    .error (.commonDomainCookieMalformed "cookie entry decodes to an empty entityID")
  else .ok entityId

/-- `parse`: empty tokens between the separators are skipped. -/
def parse (cookieValue : Str) : Result CommonDomainCookie := do
  let decoded ← okOr (Text.fromUtf8 (pctDecodeBytes (Text.asBytes cookieValue)))
    (.commonDomainCookieMalformed "cookie value is not valid UTF-8 after percent-decoding")
  let entityIds ← ((decoded.splitOn ' ').filter (· ≠ [])).mapM parseEntry
  .ok ⟨entityIds⟩

/-- `most_recent`. -/
def mostRecent (cookie : CommonDomainCookie) : Option Str := cookie.entityIds.getLast?

/-- `record`. -/
def record (cookie : CommonDomainCookie) (entityId : Str) : CommonDomainCookie :=
  ⟨cookie.entityIds.filter (· ≠ entityId) ++ [entityId]⟩

/-- One entry in base64. -/
def encodeEntry (entityId : Str) : Str := Base64.encode (Text.asBytes entityId)

/-- `to_cookie_value`. -/
def toCookieValue (cookie : CommonDomainCookie) : Str :=
  List.intercalate "%20" (cookie.entityIds.map encodeEntry)

/-- The loop of `truncate_to_fit`: the oldest entry goes first. -/
def dropOldest (maxValueLen : Nat) : List Str → List Str
  | [] => []
  | entityId :: rest =>
      if maxValueLen < Text.byteLen (toCookieValue ⟨entityId :: rest⟩) then
        dropOldest maxValueLen rest
      else entityId :: rest

/-- `truncate_to_fit`. -/
def truncateToFit (cookie : CommonDomainCookie) (maxValueLen : Nat) : CommonDomainCookie :=
  ⟨dropOldest maxValueLen cookie.entityIds⟩

/-! ## Reading a written cookie -/

/-- A text with neither of the characters that the codec of the list uses. -/
def Plain (s : Str) : Prop := ' ' ∉ s ∧ '%' ∉ s

theorem plain_encodeEntry (entityId : Str) : Plain (encodeEntry entityId) := by
  have hsymbol := Base64.isSymbol_encode (Text.asBytes entityId)
  constructor
  · intro hmem
    exact absurd (hsymbol _ hmem) (by unfold Base64.IsSymbol; decide)
  · intro hmem
    exact absurd (hsymbol _ hmem) (by unfold Base64.IsSymbol; decide)

theorem percent_notMem_asBytes {s : Str} (h : '%' ∉ s) : (0x25 : UInt8) ∉ Text.asBytes s := by
  intro hmem
  obtain ⟨c, hc, hval⟩ := Text.mem_of_mem_asBytes (by decide) hmem
  have hpercent : c = '%' := Char.ext (UInt32.toNat_inj.mp hval)
  exact h (hpercent ▸ hc)

/-- Octets without a percent sign are read as themselves. -/
theorem pctDecodeBytes_append {bytes : Octets} (h : (0x25 : UInt8) ∉ bytes) (rest : Octets) :
    pctDecodeBytes (bytes ++ rest) = bytes ++ pctDecodeBytes rest := by
  induction bytes with
  | nil => rfl
  | cons b bytes ih =>
    rw [List.cons_append, pctDecodeBytes_cons (fun hb => h (by simp [hb])), ih (fun hb => h (by
      simp [hb])), List.cons_append]

theorem pctDecodeBytes_separator (rest : Octets) :
    pctDecodeBytes (Text.asBytes "%20" ++ rest) = Text.asBytes " " ++ pctDecodeBytes rest := by
  have hseparator : Text.asBytes "%20" = [0x25, 0x32, 0x30] := by decide +kernel
  have hspace : Text.asBytes " " = [0x20] := by decide +kernel
  rw [hseparator, hspace]
  simp [pctDecodeBytes, hexValue]

/-- The written separators are read as spaces. -/
theorem pctDecodeBytes_intercalate {tokens : List Str} (h : ∀ token ∈ tokens, Plain token) :
    pctDecodeBytes (Text.asBytes (List.intercalate "%20" tokens)) =
      Text.asBytes (List.intercalate [' '] tokens) := by
  induction tokens with
  | nil => rfl
  | cons token tokens ih =>
    have htoken := percent_notMem_asBytes (h token (List.mem_cons_self ..)).2
    cases tokens with
    | nil =>
      rw [List.intercalate_singleton, List.intercalate_singleton]
      have hdecode := pctDecodeBytes_append htoken []
      rwa [List.append_nil, pctDecodeBytes, List.append_nil] at hdecode
    | cons next tokens =>
      rw [List.intercalate_cons_cons, List.intercalate_cons_cons, List.append_assoc,
        Text.asBytes_append, Text.asBytes_append, pctDecodeBytes_append htoken,
        pctDecodeBytes_separator, ih fun t ht => h t (List.mem_cons_of_mem _ ht), List.append_assoc,
        Text.asBytes_append, Text.asBytes_append]
      rfl

/-- The tokens of a list joined with spaces. -/
theorem tokens_intercalate {tokens : List Str} (h : ∀ token ∈ tokens, Plain token) :
    ((List.intercalate [' '] tokens).splitOn ' ').filter (· ≠ []) = tokens.filter (· ≠ []) := by
  by_cases hne : tokens = []
  · subst hne
    rfl
  · rw [List.splitOn_intercalate ' ' (fun token htoken => (h token htoken).1) hne]

theorem encodeEntry_eq_nil_iff {entityId : Str} : encodeEntry entityId = [] ↔ entityId = [] := by
  constructor
  · intro h
    have hdecode := Base64.decode_encode (Text.asBytes entityId)
    rw [show Base64.encode (Text.asBytes entityId) = [] from h] at hdecode
    apply Text.asBytes_injective
    exact (Option.some.inj hdecode).symm
  · rintro rfl
    rfl

theorem parseEntry_encodeEntry {entityId : Str} (h : entityId ≠ []) :
    parseEntry (encodeEntry entityId) = .ok entityId := by
  rw [parseEntry, encodeEntry, Base64.decode_encode, okOr_some, ok_bind, Text.fromUtf8_asBytes,
    okOr_some, ok_bind, if_neg h]

/-- What is read from a written cookie: its entries without the empty ones. -/
theorem parse_toCookieValue (cookie : CommonDomainCookie) :
    parse cookie.toCookieValue = .ok ⟨cookie.entityIds.filter (· ≠ [])⟩ := by
  have hplain : ∀ token ∈ cookie.entityIds.map encodeEntry, Plain token := by
    intro token htoken
    obtain ⟨entityId, _, rfl⟩ := List.mem_map.mp htoken
    exact plain_encodeEntry entityId
  have hfilter : (cookie.entityIds.map encodeEntry).filter (· ≠ []) =
      (cookie.entityIds.filter (· ≠ [])).map encodeEntry := by
    rw [List.filter_map]
    congr 1
    apply List.filter_congr
    intro entityId _
    simp [encodeEntry_eq_nil_iff]
  have hentries : ((cookie.entityIds.filter (· ≠ [])).map encodeEntry).mapM parseEntry =
      .ok (cookie.entityIds.filter (· ≠ [])) := by
    rw [mapM_eq_ok_iff, List.forall₂_map_left_iff, List.forall₂_same]
    intro entityId hmem
    exact parseEntry_encodeEntry (by simpa using (List.mem_filter.mp hmem).2)
  rw [parse, toCookieValue, pctDecodeBytes_intercalate hplain, Text.fromUtf8_asBytes, okOr_some,
    ok_bind, tokens_intercalate hplain, hfilter, hentries, ok_bind]

/-- A cookie is read back exactly when no entry is empty. -/
theorem parse_toCookieValue_iff {cookie : CommonDomainCookie} :
    parse cookie.toCookieValue = .ok cookie ↔ [] ∉ cookie.entityIds := by
  rw [parse_toCookieValue]
  constructor
  · intro h hmem
    have hids := congrArg entityIds (Except.ok.inj h)
    rw [← hids] at hmem
    simp at hmem
  · intro h
    have hids : cookie.entityIds.filter (· ≠ []) = cookie.entityIds := by
      rw [List.filter_eq_self]
      intro entityId hmem
      exact decide_eq_true fun hnil => h (hnil ▸ hmem)
    rw [hids]

theorem nonempty_of_parseEntry {token entityId : Str} (h : parseEntry token = .ok entityId) :
    entityId ≠ [] := by
  obtain ⟨bytes, _, h⟩ := bind_eq_ok_iff.mp h
  obtain ⟨decoded, _, h⟩ := bind_eq_ok_iff.mp h
  obtain ⟨hne, h⟩ := ite_error_eq_ok_iff.mp h
  exact Except.ok.inj h ▸ hne

/-- A parsed cookie has no empty entry. -/
theorem nil_notMem_of_parse {value : Str} {cookie : CommonDomainCookie}
    (h : parse value = .ok cookie) : [] ∉ cookie.entityIds := by
  obtain ⟨decoded, _, h⟩ := bind_eq_ok_iff.mp h
  obtain ⟨entityIds, hentries, h⟩ := bind_eq_ok_iff.mp h
  cases h
  intro hmem
  obtain ⟨token, _, htoken⟩ := mem_of_mapM_ok hentries hmem
  exact nonempty_of_parseEntry htoken rfl

/-! ## Recording and truncating -/

/-- After `record` the entry is the most recent one and occurs once, and the
others keep their order. -/
theorem record_spec (cookie : CommonDomainCookie) (entityId : Str) :
    (cookie.record entityId).mostRecent = some entityId ∧
      (cookie.record entityId).entityIds.count entityId = 1 ∧
      (cookie.record entityId).entityIds.filter (· ≠ entityId) =
        cookie.entityIds.filter (· ≠ entityId) := by
  refine ⟨?_, ?_, ?_⟩
  · rw [mostRecent, record, List.getLast?_concat]
  · have hzero : (cookie.entityIds.filter (· ≠ entityId)).count entityId = 0 := by
      rw [List.count_eq_zero]
      intro hmem
      simp at hmem
    rw [record, List.count_append, hzero, List.count_singleton_self]
  · simp [record, List.filter_append, List.filter_filter]

theorem dropOldest_suffix (maxValueLen : Nat) (entityIds : List Str) :
    dropOldest maxValueLen entityIds <:+ entityIds := by
  induction entityIds with
  | nil => exact List.suffix_rfl
  | cons entityId rest ih =>
    rw [dropOldest]
    split
    · exact ih.trans (List.suffix_cons entityId rest)
    · exact List.suffix_rfl

theorem byteLen_dropOldest (maxValueLen : Nat) (entityIds : List Str) :
    Text.byteLen (toCookieValue ⟨dropOldest maxValueLen entityIds⟩) ≤ maxValueLen := by
  induction entityIds with
  | nil => exact Nat.zero_le _
  | cons entityId rest ih =>
    rw [dropOldest]
    split
    · exact ih
    next hfits => exact Nat.not_lt.mp hfits

/-- A suffix that fits is no longer than what the loop leaves. -/
theorem length_le_dropOldest {maxValueLen : Nat} {entityIds kept : List Str}
    (hsuffix : kept <:+ entityIds)
    (hfits : Text.byteLen (toCookieValue ⟨kept⟩) ≤ maxValueLen) :
    kept.length ≤ (dropOldest maxValueLen entityIds).length := by
  induction entityIds with
  | nil => exact hsuffix.length_le
  | cons entityId rest ih =>
    rw [dropOldest]
    split
    next hlong =>
      rcases List.suffix_cons_iff.mp hsuffix with rfl | hrest
      · exact absurd hfits (Nat.not_le.mpr hlong)
      · exact ih hrest
    next => exact hsuffix.length_le

/-! ## Runs -/

/-- An operation on the cookie of a user. -/
inductive Operation where
  | parse (cookieValue : Str)
  | record (entityId : Str)
  | truncateToFit (maxValueLen : Nat)

/-- The cookie of a user: a value that cannot be parsed leaves it as it is. -/
def machine : Machine CommonDomainCookie Operation (Result Unit) where
  step
    | cookie, .parse cookieValue =>
        match parse cookieValue with
        | .ok next => (next, .ok ())
        | .error err => (cookie, .error err)
    | cookie, .record entityId => (cookie.record entityId, .ok ())
    | cookie, .truncateToFit maxValueLen => (cookie.truncateToFit maxValueLen, .ok ())

/-- The cookie after a sequence of operations on an empty one. -/
def afterOperations (operations : List Operation) : CommonDomainCookie :=
  machine.after ⟨[]⟩ operations

/-- One operation that does not record the empty identifier brings no empty entry. -/
theorem nil_notMem_step {cookie : CommonDomainCookie} {operation : Operation}
    (hoperation : operation ≠ .record []) (h : [] ∉ cookie.entityIds) :
    [] ∉ (machine.step cookie operation).1.entityIds := by
  cases operation with
  | parse cookieValue =>
    simp only [machine]
    split
    next hparse => exact nil_notMem_of_parse hparse
    next => exact h
  | record entityId =>
    intro hmem
    rcases List.mem_append.mp hmem with hmem | hmem
    · exact h (List.mem_filter.mp hmem).1
    · exact hoperation (congrArg Operation.record (List.mem_singleton.mp hmem).symm)
  | truncateToFit maxValueLen =>
    intro hmem
    exact h ((dropOldest_suffix maxValueLen cookie.entityIds).subset hmem)

theorem nil_notMem_afterOperations {operations : List Operation}
    (h : .record [] ∉ operations) : [] ∉ (afterOperations operations).entityIds := by
  apply @Machine.after_invariant _ _ _ machine (fun operations => .record [] ∉ operations)
    (fun _ cookie => [] ∉ cookie.entityIds)
  · intro before operation hnotMem hmem
    exact hnotMem (List.mem_append_left _ hmem)
  · exact List.not_mem_nil
  · intro before cookie operation hnotMem hinv
    exact nil_notMem_step (fun heq => hnotMem (by simp [heq])) hinv
  · exact h

/-- Every cookie of a run is read back exactly when the run never records the
empty identifier; recording and truncating do what they say on every cookie. -/
theorem cookie_laws (operations : List Operation) :
    ((∀ before, before <+: operations →
      parse (afterOperations before).toCookieValue = .ok (afterOperations before)) ↔
        .record [] ∉ operations) ∧
    (∀ (cookie : CommonDomainCookie) (entityId : Str),
      (cookie.record entityId).mostRecent = some entityId ∧
        (cookie.record entityId).entityIds.count entityId = 1 ∧
        (cookie.record entityId).entityIds.filter (· ≠ entityId) =
          cookie.entityIds.filter (· ≠ entityId)) ∧
    ∀ (cookie : CommonDomainCookie) (maxValueLen : Nat),
      (cookie.truncateToFit maxValueLen).entityIds <:+ cookie.entityIds ∧
        Text.byteLen (cookie.truncateToFit maxValueLen).toCookieValue ≤ maxValueLen ∧
        ∀ kept, kept <:+ cookie.entityIds →
          Text.byteLen (toCookieValue ⟨kept⟩) ≤ maxValueLen →
            kept.length ≤ (cookie.truncateToFit maxValueLen).entityIds.length := by
  refine ⟨?_, record_spec, ?_⟩
  · constructor
    · intro h hmem
      obtain ⟨before, after, rfl⟩ := List.append_of_mem hmem
      have hread := h (before ++ [.record []]) ⟨after, by simp⟩
      apply parse_toCookieValue_iff.mp hread
      rw [afterOperations, Machine.after_concat]
      exact List.mem_append_right _ (List.mem_singleton_self [])
    · intro h before hpre
      apply parse_toCookieValue_iff.mpr
      exact nil_notMem_afterOperations fun hmem => h (hpre.subset hmem)
  · intro cookie maxValueLen
    exact ⟨dropOldest_suffix .., byteLen_dropOldest .., fun kept => length_le_dropOldest⟩

/-- A recorded empty identifier is lost on the way. -/
theorem empty_entry_lost :
    ¬ ∀ operations : List Operation,
      parse (afterOperations operations).toCookieValue = .ok (afterOperations operations) := by
  intro h
  have hread := h [.record []]
  rw [parse_toCookieValue] at hread
  have hids := congrArg entityIds (Except.ok.inj hread)
  exact absurd hids (by decide)

end CommonDomainCookie

end Saml.Disco
