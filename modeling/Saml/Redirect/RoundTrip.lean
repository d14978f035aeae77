import Saml.Redirect.SignedOctets
import Mathlib.Data.List.TakeWhile

/-!
# The round trip of a redirect

The encoder appends its parameters to the query a destination URL has of its
own, and the decoder reads the last parameter of a name. A message comes back
unless that query adds a parameter the encoder leaves out, or runs into the
first one it writes.
-/

namespace Saml

/-- `Url::query`: what stands between the first question mark and the fragment. -/
def Url.query (url : Url) : Option Str :=
  let s := url.asStr.takeWhile (· ≠ '#')
  if '?' ∈ s then some (s.dropWhile (· ≠ '?')).tail else none

namespace Redirect

open Crypto

variable {web : Web}

/-! ## The query of a destination -/

/-- The text `append_query` has parsed. -/
def joinQuery (base : Url) (query : Str) : Str :=
  let s := base.asStr.takeWhile (· ≠ '#')
  let s :=
    if '?' ∈ s then
      if s.getLast? = some '?' ∨ s.getLast? = some '&' then s else s ++ ['&']
    else s ++ ['?']
  s ++ query

theorem appendQuery_eq_ok_iff {base url : Url} {query : Str} :
    appendQuery web base query = .ok url ↔ web.parseUrl (joinQuery base query) = some url :=
  okOr_eq_ok_iff

/-- A query behind the query a destination has of its own, as `append_query`
joins them. -/
def joined (lead : Option Str) (query : Str) : Str :=
  match lead with
  | none => query
  | some l =>
      if l = [] ∨ l.getLast? = some '?' ∨ l.getLast? = some '&' then l ++ query
      else l ++ '&' :: query

/-- A character the query state of a URL parser leaves alone. -/
def isQueryChar (c : Char) : Bool :=
  0x20 < c.toNat && c.toNat < 0x7F && c ∉ ['"', '#', '<', '>', '\'']

/-- What the encoder relies on from the URL package: a URL it serialized keeps
its text, and the query characters behind it, when it is parsed again. -/
def KeepsQuery (web : Web) : Prop :=
  ∀ source base query url, web.parseUrl source = some base →
    (∀ c ∈ query, isQueryChar c = true) → web.parseUrl (joinQuery base query) = some url →
      url.query = (Url.mk (joinQuery base query)).query

/-- Cutting a text at the first occurrence of a character. -/
theorem cut_at {front back : Str} {c : Char} (h : c ∉ front) :
    (front ++ c :: back).takeWhile (· ≠ c) = front ∧
      (front ++ c :: back).dropWhile (· ≠ c) = c :: back := by
  have hstop : ∀ d ∈ front, decide (d ≠ c) = true := by
    intro d hd
    rw [decide_eq_true_eq]
    rintro rfl
    exact h hd
  rw [List.takeWhile_append_of_pos hstop, List.dropWhile_append_of_pos hstop]
  simp

theorem takeWhile_of_notMem {s : Str} {c : Char} (h : c ∉ s) : s.takeWhile (· ≠ c) = s := by
  rw [List.takeWhile_eq_self_iff]
  intro d hd
  rw [decide_eq_true_eq]
  rintro rfl
  exact h hd

theorem notMem_takeWhile (s : Str) (c : Char) : c ∉ s.takeWhile (· ≠ c) := by
  intro hmem
  have hne := List.mem_takeWhile_imp hmem
  simp at hne

/-- The query of the text `append_query` has parsed. -/
theorem query_joinQuery (base : Url) {query : Str} (clean : '#' ∉ query) :
    (Url.mk (joinQuery base query)).query = some (joined base.query query) := by
  have hbase : '#' ∉ base.asStr.takeWhile (· ≠ '#') := notMem_takeWhile _ _
  unfold Url.query joinQuery
  dsimp only
  generalize base.asStr.takeWhile (· ≠ '#') = s at hbase ⊢
  by_cases hquestion : '?' ∈ s
  · obtain ⟨front, back, rfl, hfront⟩ := List.eq_append_cons_of_mem hquestion
    have hlast : (front ++ '?' :: back).getLast? =
        if back = [] then some '?' else back.getLast? := by
      cases back <;> simp [List.getLast?_append, List.getLast?_cons]
    have hread (tail : Str) (htail : '#' ∉ tail) :
        let t := (front ++ '?' :: (back ++ tail)).takeWhile (· ≠ '#')
        (if '?' ∈ t then some (t.dropWhile (· ≠ '?')).tail else none) = some (back ++ tail) := by
      dsimp only
      rw [takeWhile_of_notMem (by simp at hbase ⊢; tauto), if_pos (by simp), (cut_at hfront).2,
        List.tail_cons]
    rw [if_pos hquestion, if_pos hquestion, (cut_at hfront).2, List.tail_cons, hlast]
    by_cases hback : back = []
    · subst hback
      simpa [joined] using hread query clean
    · by_cases hends : back.getLast? = some '?' ∨ back.getLast? = some '&'
      · simpa [joined, hback, hends] using hread query clean
      · simpa [joined, hback, hends] using hread ('&' :: query) (by simp [clean])
  · rw [if_neg hquestion, if_neg hquestion, List.append_assoc, List.singleton_append,
      takeWhile_of_notMem (by simp [hbase, clean]), if_pos (by simp), (cut_at hquestion).2]
    rfl

/-! ## Parameters behind a lead -/

/-- A query of its own that runs into what is written behind it. -/
def Glued (lead : Str) : Prop := lead ≠ [] ∧ lead.getLast? = some '?'

instance (lead : Str) : Decidable (Glued lead) := instDecidableAnd

theorem parameter_nil (key : Str) : parameter [] key = none := rfl

/-- A query that does not run into the next one only adds its parameters. -/
theorem parameter_joined {lead : Option Str} (apart : ¬ Glued (lead.getD [])) (query key : Str) :
    parameter (joined lead query) key =
      (parameter query key).or (parameter (lead.getD []) key) := by
  cases lead with
  | none => simp [joined, parameter_nil]
  | some l =>
      rw [Option.getD_some] at apart ⊢
      unfold joined
      dsimp only
      by_cases hnil : l = []
      · subst hnil
        simp [parameter_nil]
      · have hquestion : l.getLast? ≠ some '?' := fun h => apart ⟨hnil, h⟩
        by_cases hamp : l.getLast? = some '&'
        · obtain ⟨front, rfl⟩ := List.getLast?_eq_some_iff.mp hamp
          rw [if_pos (.inr (.inr hamp)), List.append_assoc, List.singleton_append,
            parameter_append, parameter_append front [] key, parameter_nil, Option.none_or]
        · rw [if_neg (by tauto), parameter_append]

/-- The last separator of a query. -/
theorem exists_last_piece (query : Str) :
    '&' ∉ query ∨ ∃ front piece, query = front ++ '&' :: piece ∧ '&' ∉ piece := by
  induction query with
  | nil => exact .inl List.not_mem_nil
  | cons c rest ih =>
      rcases ih with hrest | ⟨front, piece, rfl, hpiece⟩
      · by_cases hc : c = '&'
        · exact .inr ⟨[], rest, by simp [hc], hrest⟩
        · exact .inl (by simp [hrest, Ne.symm hc])
      · exact .inr ⟨c :: front, piece, rfl, hpiece⟩

/-- A value with a question mark in it. -/
def Questioned (value : Option Str) : Prop := ∃ v, value = some v ∧ '?' ∈ v

/-- A pair that ends in a question mark keeps its name whatever runs into it:
either it is never found under a key, or its value holds the question mark. -/
theorem parameter_gluedPair {piece key : Str} (hpiece : '&' ∉ piece) (hkey : '?' ∉ key) :
    (∀ first, '&' ∉ first → parameter (piece ++ '?' :: first) key = none) ∨
      ∀ first, '&' ∉ first → Questioned (parameter (piece ++ '?' :: first) key) := by
  by_cases hvalue : '=' ∈ piece
  · obtain ⟨name, value, rfl, hname⟩ := List.eq_append_cons_of_mem hvalue
    have hclean : ∀ c ∈ name, Clean c := by
      intro c hc
      constructor
      · rintro rfl
        exact hpiece (List.mem_append_left _ hc)
      · rintro rfl
        exact hname hc
    have hread (first : Str) (hfirst : '&' ∉ first) :
        parameter (name ++ '=' :: value ++ '?' :: first) key =
          if name = key then some (value ++ '?' :: first) else none := by
      rw [List.append_assoc, List.cons_append]
      exact parameter_pair hclean (by simp at hpiece ⊢; tauto) key
    by_cases heq : name = key
    · right
      intro first hfirst
      exact ⟨_, by rw [hread first hfirst, if_pos heq], by simp⟩
    · left
      intro first hfirst
      rw [hread first hfirst, if_neg heq]
  · left
    intro first hfirst
    have hsplit : (piece ++ '?' :: first).splitOn '&' = [piece ++ '?' :: first] := by
      rw [List.splitOn_eq_splitOnP]
      refine List.splitOnP_eq_singleton fun c hc => ?_
      have hne : c ≠ '&' := by
        rintro rfl
        simp at hc
        tauto
      simpa using hne
    have hpair : '?' ∈ (splitPair (piece ++ '?' :: first)).1 := by
      have hstop : ∀ c ∈ piece, decide (c ≠ '=') = true := by
        intro c hc
        rw [decide_eq_true_eq]
        rintro rfl
        exact hvalue hc
      rw [splitPair, List.takeWhile_append_of_pos hstop]
      simp
    have hne : (splitPair (piece ++ '?' :: first)).1 ≠ key := fun heq => hkey (heq ▸ hpair)
    simp [parameter, parameters, hsplit, hne]

/-- A query that ends in a question mark offers the same parameters with
something run into it, or ones that hold a question mark. -/
theorem parameter_glued {lead first key : Str} (glued : Glued lead) (hfirst : '&' ∉ first)
    (hkey : '?' ∉ key) :
    parameter (lead ++ first) key = parameter lead key ∨
      Questioned (parameter (lead ++ first) key) ∧ Questioned (parameter lead key) := by
  obtain ⟨body, rfl⟩ := List.getLast?_eq_some_iff.mp glued.2
  rw [List.append_assoc, List.singleton_append]
  rcases exists_last_piece body with hbody | ⟨front, piece, rfl, hpiece⟩
  · rcases parameter_gluedPair hbody hkey with hnone | hquestioned
    · left
      rw [hnone first hfirst, hnone [] List.not_mem_nil]
    · exact .inr ⟨hquestioned first hfirst, hquestioned [] List.not_mem_nil⟩
  · simp only [List.append_assoc, List.cons_append, parameter_append]
    rcases parameter_gluedPair hpiece hkey with hnone | hquestioned
    · left
      rw [hnone first hfirst, hnone [] List.not_mem_nil]
    · right
      obtain ⟨v, hv, hmark⟩ := hquestioned first hfirst
      obtain ⟨w, hw, hmark'⟩ := hquestioned [] List.not_mem_nil
      exact ⟨⟨v, by rw [hv, Option.some_or], hmark⟩, w, by rw [hw, Option.some_or], hmark'⟩

/-! ## Values with a question mark -/

/-- Names written by the binding hold no question mark. -/
theorem paramName_question (direction : RedirectDirection) : '?' ∉ direction.paramName := by
  cases direction <;> decide

/-- Percent-decoding keeps a question mark. -/
theorem question_mem_pctDecodeBytes (bytes : Octets) (h : 0x3F ∈ bytes) :
    0x3F ∈ pctDecodeBytes bytes := by
  have hdigit : hexValue 0x3F = none := rfl
  fun_induction pctDecodeBytes bytes with
  | case1 hi lo rest x y hy hx ih =>
      rcases List.mem_cons.mp h with h | h
      · cases h
      · rcases List.mem_cons.mp h with rfl | h
        · simp [hdigit] at hx
        · rcases List.mem_cons.mp h with rfl | h
          · simp [hdigit] at hy
          · exact List.mem_cons_of_mem _ (ih h)
  | case2 hi lo rest hno ih =>
      rcases List.mem_cons.mp h with h | h
      · cases h
      · exact List.mem_cons_of_mem _ (ih h)
  | case3 b rest hno ih =>
      rcases List.mem_cons.mp h with rfl | h
      · exact List.mem_cons_self
      · exact List.mem_cons_of_mem _ (ih h)
  | case4 => cases h

/-- A value with a question mark is no message. -/
theorem unreadable_of_question {value : Str} (h : '?' ∈ value) (xml : Octets) :
    decodePayload web value ≠ .ok xml := by
  intro hread
  obtain ⟨text, htext, hread⟩ := bind_eq_ok_iff.mp hread
  obtain ⟨deflated, hdeflated, _⟩ := bind_eq_ok_iff.mp hread
  have hbytes := Text.asBytes_fromUtf8 (okOr_eq_ok_iff.mp htext)
  have hmark : (0x3F : UInt8) ∈ Text.asBytes value := by
    refine List.mem_flatMap.mpr ⟨'?', h, ?_⟩
    decide
  have hdecoded : (0x3F : UInt8) ∈ Text.asBytes text := by
    rw [hbytes]
    exact question_mem_pctDecodeBytes _ hmark
  obtain ⟨c, hc, hval⟩ := Text.mem_of_mem_asBytes (by decide) hdecoded
  obtain rfl : c = '?' := Char.ext (UInt32.toNat_inj.mp hval)
  have hsymbol := Library.Base64.isSymbol_of_decode (okOr_eq_ok_iff.mp hdeflated) _ hc
  revert hsymbol
  unfold Library.Base64.IsSymbol
  decide

/-! ## What is written -/

/-- How a redirect is signed. -/
structure Signing where
  sigAlgUri : Str
  sign : Octets → Result Octets

variable (web)

/-- The query of a redirect, signed or not. -/
def queryOf (direction : RedirectDirection) (xml : Octets) (relayState : Option Str)
    (signing : Option Signing) : Result Str :=
  match signing with
  | none => unsignedQueryOf web direction xml relayState
  | some s => signedQueryOf web direction xml relayState s.sigAlgUri s.sign

/-- The URL of a redirect, by the encoder of the signing choice. -/
def encode (destination : Url) (direction : RedirectDirection) (xml : Octets)
    (relayState : Option Str) (signing : Option Signing) : Result Url :=
  match signing with
  | none => encodeUnsigned web destination direction xml relayState
  | some s => encodeSigned web destination direction xml relayState s.sigAlgUri s.sign

/-- The message a redirect sends, with the octets given to the signer. -/
def sent (direction : RedirectDirection) (xml : Octets) (relayState : Option Str)
    (signing : Option Signing) : Result DecodedRedirect :=
  match signing with
  | none => .ok ⟨xml, relayState, none, none, none⟩
  | some s => do
      let payload ← deflateAndBase64 web xml
      let signedQs := signedQuery direction payload relayState s.sigAlgUri
      let signature ← s.sign (Text.asBytes signedQs)
      .ok ⟨xml, relayState, some signature, some s.sigAlgUri, some signedQs⟩

variable {web}

theorem encode_eq_ok_iff {destination url : Url} {direction : RedirectDirection} {xml : Octets}
    {relayState : Option Str} {signing : Option Signing} :
    encode web destination direction xml relayState signing = .ok url ↔
      ∃ query, queryOf web direction xml relayState signing = .ok query ∧
        web.parseUrl (joinQuery destination query) = some url := by
  have hbind : encode web destination direction xml relayState signing =
      (queryOf web direction xml relayState signing).bind (appendQuery web destination) := by
    cases signing <;> rfl
  rw [hbind]
  exact bind_eq_ok_iff.trans (exists_congr fun query => and_congr_right fun _ =>
    appendQuery_eq_ok_iff)

/-- A first pair and what stands behind it. -/
def behind (first : Str) (rest : Option Str) : Str :=
  rest.elim first fun more => first ++ '&' :: more

theorem parameter_behind (first : Str) (rest : Option Str) (key : Str) :
    parameter (behind first rest) key =
      (rest.bind fun more => parameter more key).or (parameter first key) := by
  cases rest with
  | none => simp [behind]
  | some more => simpa [behind] using parameter_append first more key

theorem append_behind (lead first : Str) (rest : Option Str) :
    lead ++ behind first rest = behind (lead ++ first) rest := by
  cases rest <;> simp [behind]

/-- The parameters behind the first one. -/
def tailValue (relayState sigAlg signature : Option Str) (key : Str) : Option Str :=
  if key = SIGNATURE then signature.map pctEncode
  else if key = SIG_ALG then sigAlg.map pctEncode
  else if key = RELAY_STATE then relayState.map pctEncode else none

variable (web)

/-- What a written query is made of: a pair with the payload, the parameters
behind it, and the message they stand for. -/
structure Written (direction : RedirectDirection) (xml : Octets) (relayState : Option Str)
    (signing : Option Signing) (query payload : Str) (message : DecodedRedirect)
    (rest : Option Str) : Prop where
  payload_eq : deflateAndBase64 web xml = .ok payload
  sent_eq : sent web direction xml relayState signing = .ok message
  query_eq : query = behind (pctPair direction.paramName payload) rest
  rest_eq : ∀ key, (rest.bind fun more => parameter more key) =
    tailValue relayState message.sigAlg (message.signature.map base64Encode) key
  xml_eq : message.xml = xml
  relayState_eq : message.relayState = relayState
  sigAlg_isSome : message.sigAlg.isSome ↔ signing.isSome
  signature_isSome : message.signature.isSome ↔ signing.isSome
  signedQueryString_eq : message.signedQueryString =
    message.sigAlg.map fun alg => signedQuery direction payload relayState alg

variable {web}

theorem queryOf_ok {direction : RedirectDirection} {xml : Octets} {relayState : Option Str}
    {signing : Option Signing} {query : Str}
    (h : queryOf web direction xml relayState signing = .ok query) :
    ∃ payload message rest,
      Written web direction xml relayState signing query payload message rest := by
  obtain ⟨_, _, _, hra, hrs, has⟩ := names_distinct direction
  cases signing with
  | none =>
      obtain ⟨payload, hpayload, h⟩ := bind_eq_ok_iff.mp h
      obtain rfl := Except.ok.inj h
      refine ⟨payload, _, relayState.map (pctPair RELAY_STATE), hpayload, rfl, ?_, ?_, rfl, rfl,
        by simp, by simp, rfl⟩
      · cases relayState <;> simp [payloadQuery, behind]
      · intro key
        cases relayState with
        | none => simp [tailValue]
        | some rs =>
            simp only [Option.map_some, Option.bind_some, parameter_pctPair relayState_clean]
            by_cases hkey : RELAY_STATE = key
            · subst hkey
              simp [tailValue, hra, hrs]
            · simp [tailValue, hkey, Ne.symm hkey]
  | some s =>
      obtain ⟨payload, hpayload, h⟩ := bind_eq_ok_iff.mp h
      obtain ⟨signature, hsign, h⟩ := bind_eq_ok_iff.mp h
      obtain rfl := Except.ok.inj h
      refine ⟨payload, ⟨xml, relayState, some signature, some s.sigAlgUri,
        some (signedQuery direction payload relayState s.sigAlgUri)⟩,
        some (withLead (relayState.map (pctPair RELAY_STATE)) (pctPair SIG_ALG s.sigAlgUri ++
          '&' :: pctPair SIGNATURE (base64Encode signature))), hpayload, ?_, ?_, ?_, rfl, rfl,
        by simp, by simp, rfl⟩
      · exact bind_eq_ok_iff.mpr ⟨payload, hpayload, bind_eq_ok_iff.mpr ⟨signature, hsign, rfl⟩⟩
      · cases relayState <;> simp [signedQuery, payloadQuery, behind, withLead]
      · intro key
        rw [Option.bind_some, parameter_withLead, parameter_append,
          parameter_pctPair signature_clean, parameter_pctPair sigAlg_clean]
        unfold tailValue
        by_cases hs : key = SIGNATURE
        · subst hs
          simp
        · by_cases ha : key = SIG_ALG
          · subst ha
            simp [hs, Ne.symm hs]
          · cases relayState with
            | none => simp [hs, ha, Ne.symm hs, Ne.symm ha]
            | some rs =>
                rw [Option.map_some, Option.bind_some, parameter_pctPair relayState_clean]
                simp [hs, ha, Ne.symm hs, Ne.symm ha, eq_comm]

/-! ## The characters of a query -/

theorem queryChar_of_all {s : Str} (h : s.all isQueryChar = true) :
    ∀ c ∈ s, isQueryChar c = true := List.all_eq_true.mp h

theorem upperHex_queryChar : ∀ n < 16, isQueryChar (upperHex n) = true := by decide

theorem pctEncode_queryChar {value : Str} {c : Char} (h : c ∈ pctEncode value) :
    isQueryChar c = true := by
  obtain ⟨b, _, hc⟩ := List.mem_flatMap.mp h
  unfold pctEncodeByte at hc
  split at hc
  · rename_i hplain
    obtain ⟨hlt, hset⟩ := isPlain_bounds hplain
    obtain rfl := List.mem_singleton.mp hc
    have key : ∀ n < 128, isPlain (UInt8.ofNat n) = true →
        isQueryChar (Char.ofNat n) = true := by decide
    apply key b.toNat hlt
    rw [UInt8.ofNat_toNat]
    exact hplain
  · have hhi : b.toNat / 16 < 16 := by have := b.toNat_lt; omega
    have hlo : b.toNat % 16 < 16 := Nat.mod_lt _ (by decide)
    simp only [List.mem_cons, List.not_mem_nil, or_false] at hc
    rcases hc with rfl | rfl | rfl
    · decide
    · exact upperHex_queryChar _ hhi
    · exact upperHex_queryChar _ hlo

theorem pctPair_queryChar {name value : Str} (hname : ∀ c ∈ name, isQueryChar c = true) {c : Char}
    (h : c ∈ pctPair name value) : isQueryChar c = true := by
  rcases List.mem_append.mp h with h | h
  · exact hname c h
  · rcases List.mem_cons.mp h with rfl | h
    · decide
    · exact pctEncode_queryChar h

theorem payloadQuery_queryChar {direction : RedirectDirection} {payload : Str}
    {relayState : Option Str} {c : Char} (h : c ∈ payloadQuery direction payload relayState) :
    isQueryChar c = true := by
  rcases List.mem_append.mp h with h | h
  · refine pctPair_queryChar ?_ h
    cases direction <;> exact queryChar_of_all (by decide)
  · cases relayState with
    | none => cases h
    | some rs =>
        rcases List.mem_cons.mp h with rfl | h
        · decide
        · exact pctPair_queryChar (queryChar_of_all (by decide)) h

/-- A URL parser leaves a written query alone. -/
theorem queryOf_queryChar {direction : RedirectDirection} {xml : Octets} {relayState : Option Str}
    {signing : Option Signing} {query : Str}
    (h : queryOf web direction xml relayState signing = .ok query) :
    ∀ c ∈ query, isQueryChar c = true := by
  intro c hc
  cases signing with
  | none =>
      obtain ⟨payload, _, h⟩ := bind_eq_ok_iff.mp h
      obtain rfl := Except.ok.inj h
      exact payloadQuery_queryChar hc
  | some s =>
      obtain ⟨payload, _, h⟩ := bind_eq_ok_iff.mp h
      obtain ⟨signature, _, h⟩ := bind_eq_ok_iff.mp h
      obtain rfl := Except.ok.inj h
      rcases List.mem_append.mp hc with hc | hc
      · rcases List.mem_append.mp hc with hc | hc
        · exact payloadQuery_queryChar hc
        · rcases List.mem_cons.mp hc with rfl | hc
          · decide
          · exact pctPair_queryChar (queryChar_of_all (by decide)) hc
      · rcases List.mem_cons.mp hc with rfl | hc
        · decide
        · exact pctPair_queryChar (queryChar_of_all (by decide)) hc

/-! ## The round trip -/

/-- The other direction. -/
def RedirectDirection.other : RedirectDirection → RedirectDirection
  | .request => .response
  | .response => .request

theorem RedirectDirection.eq_or_other (d direction : RedirectDirection) :
    d = direction ∨ d = direction.other := by
  cases d <;> cases direction <;> decide

theorem RedirectDirection.other_ne (direction : RedirectDirection) :
    direction.other ≠ direction := by
  cases direction <;> decide

/-- What a destination's own query offers under a name: the query that stands
before the written pair, or with that pair run into it. -/
def own (lead first key : Str) : Option Str :=
  if Glued lead then parameter (lead ++ first) key
  else (parameter first key).or (parameter lead key)

theorem parameter_joined_behind (lead : Option Str) (first : Str) (rest : Option Str) (key : Str) :
    parameter (joined lead (behind first rest)) key =
      (rest.bind fun more => parameter more key).or (own (lead.getD []) first key) := by
  by_cases glued : Glued (lead.getD [])
  · cases lead with
    | none => exact absurd rfl glued.1
    | some l =>
        rw [Option.getD_some] at glued ⊢
        have hjoined : joined (some l) (behind first rest) = behind (l ++ first) rest := by
          rw [joined, if_pos (.inr (.inl glued.2)), append_behind]
        rw [hjoined, parameter_behind, own, if_pos glued]
  · rw [parameter_joined glued, parameter_behind, own, if_neg glued, Option.or_assoc]

/-- The messages a query decodes to, once its other parameters are known. -/
theorem decode_written_iff {query : Str} {relayState sigAlg : Option Str}
    {signature : Option Octets} (hrelay : parameter query RELAY_STATE = relayState.map pctEncode)
    (halg : parameter query SIG_ALG = sigAlg.map pctEncode)
    (hsig : parameter query SIGNATURE = (signature.map base64Encode).map pctEncode)
    {direction : RedirectDirection} {decoded : DecodedRedirect} :
    decode web query direction = .ok decoded ↔
      ∃ saml xml, parameter query direction.paramName = some saml ∧
        decodePayload web saml = .ok xml ∧
        decoded = ⟨xml, relayState, signature, sigAlg, signature.map fun _ =>
          reconstruct direction.paramName saml (relayState.map pctEncode)
            (sigAlg.map pctEncode)⟩ := by
  have hread : mapTranspose decodeSignature ((signature.map base64Encode).map pctEncode) =
      .ok signature := by
    cases signature with
    | none => rfl
    | some octets => simp [mapTranspose, decodeSignature_encode, Except.map]
  rw [decode_eq_ok_iff, hrelay, halg, hsig, hread, mapTranspose_pctDecode, mapTranspose_pctDecode]
  rcases decoded with ⟨xml, relay, sig, alg, signed⟩
  constructor
  · rintro ⟨saml, hsaml, hxml, heq, heq', heq'', rfl⟩
    obtain rfl := Except.ok.inj heq
    obtain rfl := Except.ok.inj heq'
    obtain rfl := Except.ok.inj heq''
    refine ⟨saml, xml, hsaml, hxml, ?_⟩
    cases signature <;> rfl
  · rintro ⟨saml, xml', hsaml, hxml, heq⟩
    simp only [DecodedRedirect.mk.injEq] at heq
    obtain ⟨rfl, rfl, rfl, rfl, rfl⟩ := heq
    refine ⟨saml, hsaml, hxml, rfl, rfl, rfl, ?_⟩
    cases sig <;> rfl

/-- The octets a signature covers fix the raw payload. -/
theorem reconstruct_injective {paramName saml other : Str} {relayState sigAlg : Option Str}
    (h : reconstruct paramName saml relayState sigAlg =
      reconstruct paramName other relayState sigAlg) : saml = other := by
  simp only [reconstruct, List.append_assoc, List.append_cancel_left_eq, List.cons_append,
    List.cons.injEq, true_and] at h
  exact List.append_cancel_right h

variable (web)

/-- A redirect comes back: the query of its URL is accepted in the direction it
was sent in, in no other, and as the message that was sent. -/
def RoundTrips (direction : RedirectDirection) (xml : Octets) (relayState : Option Str)
    (signing : Option Signing) (url : Url) : Prop :=
  ∃ message query, sent web direction xml relayState signing = .ok message ∧
    url.query = some query ∧
    ∀ d decoded, decode web query d = .ok decoded ↔ d = direction ∧ decoded = message

/-- The destination's own query leaves a redirect alone: it holds no parameter
that the redirect goes without, nor a message of the other direction, and it does
not run into the payload, or holds the same payload itself. -/
structure Undisturbed (lead : Str) (direction : RedirectDirection) (xml : Octets)
    (relayState : Option Str) (signing : Option Signing) : Prop where
  relayState : relayState = none → parameter lead RELAY_STATE = none
  sigAlg : signing = none → parameter lead SIG_ALG = none
  signature : signing = none → parameter lead SIGNATURE = none
  otherDirection : ∀ v, parameter lead direction.other.paramName = some v →
    ∀ other, decodePayload web v ≠ .ok other
  apart : Glued lead → ∃ v, parameter lead direction.paramName = some v ∧
    decodePayload web v = .ok xml ∧
    (signing.isSome → ∀ payload, deflateAndBase64 web xml = .ok payload → v = pctEncode payload)

variable {web}

/-- The same condition on what the query offers as it is joined. -/
theorem undisturbed_iff_own (inflates : Inflates web) {lead : Str} {direction : RedirectDirection}
    {xml : Octets} {relayState : Option Str} {signing : Option Signing} {payload : Str}
    (fits : xml.length ≤ MAX_INFLATED_BYTES) (hpayload : deflateAndBase64 web xml = .ok payload) :
    Undisturbed web lead direction xml relayState signing ↔
      (relayState = none → own lead (pctPair direction.paramName payload) RELAY_STATE = none) ∧
      (signing = none → own lead (pctPair direction.paramName payload) SIG_ALG = none ∧
        own lead (pctPair direction.paramName payload) SIGNATURE = none) ∧
      (∀ v, own lead (pctPair direction.paramName payload) direction.other.paramName = some v →
        ∀ other, decodePayload web v ≠ .ok other) ∧
      ∃ v, own lead (pctPair direction.paramName payload) direction.paramName = some v ∧
        decodePayload web v = .ok xml ∧ (signing.isSome → v = pctEncode payload) := by
  obtain ⟨hrelay, halg, hsig, _⟩ := names_distinct direction
  have hread := decodePayload_encode inflates fits hpayload
  have hfirst : '&' ∉ pctPair direction.paramName payload := by
    intro hmem
    rcases List.mem_append.mp hmem with hmem | hmem
    · exact (paramName_clean direction _ hmem).1 rfl
    · rcases List.mem_cons.mp hmem with heq | hmem
      · cases heq
      · exact (pctEncode_clean hmem).1 rfl
  have hother : direction.paramName ≠ direction.other.paramName := fun h =>
    direction.other_ne (paramName_injective h).symm
  by_cases glued : Glued lead
  · have hquestion (key : Str) (hkey : '?' ∉ key) :
        own lead (pctPair direction.paramName payload) key = parameter lead key ∨
          Questioned (own lead (pctPair direction.paramName payload) key) ∧
            Questioned (parameter lead key) := by
      rw [own, if_pos glued]
      exact parameter_glued glued hfirst hkey
    -- a parameter is missing in both, or in neither
    have hnone (key : Str) (hkey : '?' ∉ key) : parameter lead key = none ↔
        own lead (pctPair direction.paramName payload) key = none := by
      rcases hquestion key hkey with heq | ⟨⟨v, hv, _⟩, w, hw, _⟩
      · rw [heq]
      · simp [hv, hw]
    -- a message is read from both, or from neither
    have hreadable (key : Str) (hkey : '?' ∉ key) (P : Str → Octets → Prop) :
        (∃ v x, parameter lead key = some v ∧ decodePayload web v = .ok x ∧ P v x) ↔
          ∃ v x, own lead (pctPair direction.paramName payload) key = some v ∧
            decodePayload web v = .ok x ∧ P v x := by
      rcases hquestion key hkey with heq | ⟨⟨v, hv, hmark⟩, w, hw, hmark'⟩
      · rw [heq]
      · constructor
        · rintro ⟨v', x, hv', hx, _⟩
          obtain rfl := Option.some.inj (hw.symm.trans hv')
          exact absurd hx (unreadable_of_question hmark' x)
        · rintro ⟨v', x, hv', hx, _⟩
          obtain rfl := Option.some.inj (hv.symm.trans hv')
          exact absurd hx (unreadable_of_question hmark x)
    have hforeign := hreadable direction.other.paramName (paramName_question _) fun _ _ => True
    have hsame := hreadable direction.paramName (paramName_question _) fun v x =>
      x = xml ∧ (signing.isSome → v = pctEncode payload)
    constructor
    · rintro ⟨h1, h2, h3, h4, h5⟩
      refine ⟨fun h => (hnone _ (by decide)).mp (h1 h), fun h => ⟨(hnone _ (by decide)).mp (h2 h),
        (hnone _ (by decide)).mp (h3 h)⟩, ?_, ?_⟩
      · intro v hv x hx
        obtain ⟨w, y, hw, hy, _⟩ := hforeign.mpr ⟨v, x, hv, hx, trivial⟩
        exact h4 w hw y hy
      · obtain ⟨v, hv, hx, hvalue⟩ := h5 glued
        obtain ⟨w, y, hw, hy, rfl, hpct⟩ :=
          hsame.mp ⟨v, xml, hv, hx, rfl, fun h => hvalue h payload hpayload⟩
        exact ⟨w, hw, hy, hpct⟩
    · rintro ⟨h1, h2, h4, w, hw, hx, hpct⟩
      refine ⟨fun h => (hnone _ (by decide)).mpr (h1 h),
        fun h => (hnone _ (by decide)).mpr (h2 h).1,
        fun h => (hnone _ (by decide)).mpr (h2 h).2, ?_, ?_⟩
      · intro v hv x hx
        obtain ⟨w, y, hw, hy, _⟩ := hforeign.mp ⟨v, x, hv, hx, trivial⟩
        exact h4 w hw y hy
      · intro _
        obtain ⟨v, y, hv, hy, rfl, hvalue⟩ := hsame.mpr ⟨w, xml, hw, hx, rfl, hpct⟩
        refine ⟨v, hv, hy, ?_⟩
        intro h other hpayload'
        obtain rfl := Except.ok.inj (hpayload.symm.trans hpayload')
        exact hvalue h
  · have hown (key : Str) (hkey : direction.paramName ≠ key) :
        own lead (pctPair direction.paramName payload) key = parameter lead key := by
      rw [own, if_neg glued, parameter_pctPair (paramName_clean direction), if_neg hkey,
        Option.none_or]
    have hpair : own lead (pctPair direction.paramName payload) direction.paramName =
        some (pctEncode payload) := by
      rw [own, if_neg glued, parameter_pctPair (paramName_clean direction), if_pos rfl,
        Option.some_or]
    rw [hown _ hrelay, hown _ halg, hown _ hsig, hown _ hother, hpair]
    constructor
    · rintro ⟨h1, h2, h3, h4, _⟩
      exact ⟨h1, fun h => ⟨h2 h, h3 h⟩, h4, _, rfl, hread, fun _ => rfl⟩
    · rintro ⟨h1, h2, h4, _⟩
      exact ⟨h1, fun h => (h2 h).1, fun h => (h2 h).2, h4, fun h => absurd h glued⟩

namespace Written

variable {direction : RedirectDirection} {xml : Octets} {relayState : Option Str}
  {signing : Option Signing} {query payload : Str} {message : DecodedRedirect} {rest : Option Str}

/-- The octets given to the signer are put together again from the written
payload, and from no other. -/
theorem signedQueryString_iff
    (w : Written web direction xml relayState signing query payload message rest) (saml : Str) :
    (message.signedQueryString = message.signature.map fun _ =>
      reconstruct direction.paramName saml (relayState.map pctEncode)
        (message.sigAlg.map pctEncode)) ↔ (signing.isSome → saml = pctEncode payload) := by
  rw [w.signedQueryString_eq, ← w.sigAlg_isSome]
  cases halg : message.sigAlg with
  | none =>
      have hnone : message.signature = none := by
        rw [← Option.not_isSome_iff_eq_none, w.signature_isSome, ← w.sigAlg_isSome, halg]
        simp
      simp [hnone]
  | some alg =>
      have hsome : message.signature.isSome := by
        rw [w.signature_isSome, ← w.sigAlg_isSome, halg]
        rfl
      obtain ⟨signature, hsignature⟩ := Option.isSome_iff_exists.mp hsome
      rw [hsignature, Option.map_some, Option.map_some, Option.map_some, Option.some_inj,
        ← reconstruct_signedQuery]
      constructor
      · intro heq _
        exact (reconstruct_injective heq).symm
      · intro heq
        rw [heq rfl]

theorem unsigned (w : Written web direction xml relayState signing query payload message rest)
    (h : signing = none) : message.sigAlg = none ∧ message.signature = none := by
  subst h
  exact ⟨by simpa using w.sigAlg_isSome, by simpa using w.signature_isSome⟩

theorem signed (w : Written web direction xml relayState signing query payload message rest)
    (h : message.sigAlg = none ∨ message.signature = none) : signing = none := by
  rcases h with h | h
  · simpa [h] using w.sigAlg_isSome.symm
  · simpa [h] using w.signature_isSome.symm

/-- What the whole query offers under each name of the binding. -/
theorem parameter_whole
    (w : Written web direction xml relayState signing query payload message rest) {whole : Str}
    {own : Str → Option Str}
    (h : ∀ key, parameter whole key = (rest.bind fun more => parameter more key).or (own key)) :
    parameter whole RELAY_STATE = (relayState.map pctEncode).or (own RELAY_STATE) ∧
      parameter whole SIG_ALG = (message.sigAlg.map pctEncode).or (own SIG_ALG) ∧
      parameter whole SIGNATURE =
        ((message.signature.map base64Encode).map pctEncode).or (own SIGNATURE) ∧
      ∀ d : RedirectDirection, parameter whole d.paramName = own d.paramName := by
  obtain ⟨_, _, _, hra, hrs, has⟩ := names_distinct direction
  refine ⟨?_, ?_, ?_, ?_⟩
  · rw [h, w.rest_eq, tailValue, if_neg hrs, if_neg hra, if_pos rfl]
  · rw [h, w.rest_eq, tailValue, if_neg has, if_pos rfl]
  · rw [h, w.rest_eq, tailValue, if_pos rfl]
  · intro d
    obtain ⟨hpr, hpa, hps, _⟩ := names_distinct d
    rw [h, w.rest_eq, tailValue, if_neg hps, if_neg hpa, if_neg hpr, Option.none_or]

/-- With nothing added to what the message goes without, the whole query has
the written values. -/
theorem values (w : Written web direction xml relayState signing query payload message rest)
    {whole : Str} {own : Str → Option Str}
    (h : ∀ key, parameter whole key = (rest.bind fun more => parameter more key).or (own key))
    (hrelay : relayState = none → own RELAY_STATE = none)
    (hsigning : signing = none → own SIG_ALG = none ∧ own SIGNATURE = none) :
    parameter whole RELAY_STATE = relayState.map pctEncode ∧
      parameter whole SIG_ALG = message.sigAlg.map pctEncode ∧
      parameter whole SIGNATURE = (message.signature.map base64Encode).map pctEncode := by
  obtain ⟨hr, ha, hs, _⟩ := w.parameter_whole h
  rw [hr, ha, hs]
  refine ⟨?_, ?_, ?_⟩
  · cases relayState with
    | none => simp [hrelay rfl]
    | some rs => rfl
  · cases halg : message.sigAlg with
    | none => simp [(hsigning (w.signed (.inl halg))).1]
    | some alg => rfl
  · cases hsignature : message.signature with
    | none => simp [(hsigning (w.signed (.inr hsignature))).2]
    | some signature => rfl

/-- A message that comes back got no parameter it goes without. -/
theorem nothingAdded
    (w : Written web direction xml relayState signing query payload message rest) {whole : Str}
    {own : Str → Option Str}
    (h : ∀ key, parameter whole key = (rest.bind fun more => parameter more key).or (own key))
    (hread : decode web whole direction = .ok message) :
    (relayState = none → own RELAY_STATE = none) ∧
      (signing = none → own SIG_ALG = none ∧ own SIGNATURE = none) := by
  obtain ⟨hr, ha, hs, _⟩ := w.parameter_whole h
  obtain ⟨_, _, _, hrelay, halg, hsignature, _⟩ := decode_eq_ok_iff.mp hread
  constructor
  · intro heq
    rw [w.relayState_eq, hr, heq, mapTranspose_eq_ok_iff] at hrelay
    simpa using hrelay
  · intro heq
    obtain ⟨hnoAlg, hnoSignature⟩ := w.unsigned heq
    rw [ha, hnoAlg, mapTranspose_eq_ok_iff] at halg
    rw [hs, hnoSignature, mapTranspose_eq_ok_iff] at hsignature
    exact ⟨by simpa using halg, by simpa using hsignature⟩

/-- The whole query is read as the message, and in its direction only, exactly
when nothing stands in the way. -/
theorem decode_iff (w : Written web direction xml relayState signing query payload message rest)
    {whole : Str} {own : Str → Option Str}
    (h : ∀ key, parameter whole key = (rest.bind fun more => parameter more key).or (own key)) :
    (∀ d decoded, decode web whole d = .ok decoded ↔ d = direction ∧ decoded = message) ↔
      (relayState = none → own RELAY_STATE = none) ∧
      (signing = none → own SIG_ALG = none ∧ own SIGNATURE = none) ∧
      (∀ v, own direction.other.paramName = some v → ∀ other, decodePayload web v ≠ .ok other) ∧
      ∃ v, own direction.paramName = some v ∧ decodePayload web v = .ok xml ∧
        (signing.isSome → v = pctEncode payload) := by
  obtain ⟨_, _, _, hpayload⟩ := w.parameter_whole h
  constructor
  · intro hall
    have hread := (hall direction message).mpr ⟨rfl, rfl⟩
    obtain ⟨hrelay, hsigning⟩ := w.nothingAdded h hread
    obtain ⟨hvr, hva, hvs⟩ := w.values h hrelay hsigning
    refine ⟨hrelay, hsigning, ?_, ?_⟩
    · intro v hv x hx
      have hother := (hall direction.other _).mp
        ((decode_written_iff hvr hva hvs).mpr ⟨v, x, (hpayload _).trans hv, hx, rfl⟩)
      exact direction.other_ne hother.1
    · obtain ⟨saml, x, hsaml, hx, heq⟩ := (decode_written_iff hvr hva hvs).mp hread
      have hxml : x = xml := by rw [← w.xml_eq, heq]
      refine ⟨saml, (hpayload _).symm.trans hsaml, hxml ▸ hx, (w.signedQueryString_iff saml).mp ?_⟩
      exact congrArg DecodedRedirect.signedQueryString heq
  · rintro ⟨hrelay, hsigning, hforeign, v, hv, hx, hpct⟩ d decoded
    obtain ⟨hvr, hva, hvs⟩ := w.values h hrelay hsigning
    have hmessage : message = ⟨xml, relayState, message.signature, message.sigAlg,
        message.signature.map fun _ => reconstruct direction.paramName v
          (relayState.map pctEncode) (message.sigAlg.map pctEncode)⟩ := by
      rw [← (w.signedQueryString_iff v).mpr hpct, ← w.xml_eq, ← w.relayState_eq]
    rw [decode_written_iff hvr hva hvs]
    constructor
    · rintro ⟨saml, x, hsaml, hread, rfl⟩
      rw [hpayload] at hsaml
      rcases RedirectDirection.eq_or_other d direction with rfl | rfl
      · obtain rfl := Option.some.inj (hv.symm.trans hsaml)
        obtain rfl := Except.ok.inj (hx.symm.trans hread)
        exact ⟨rfl, hmessage.symm⟩
      · exact absurd hread (hforeign saml hsaml x)
    · rintro ⟨rfl, rfl⟩
      exact ⟨v, xml, (hpayload _).trans hv, hx, hmessage⟩

end Written

/-- A redirect comes back exactly when the destination's own query leaves it
alone. -/
theorem roundTrips_iff_undisturbed (inflates : Inflates web) (keeps : KeepsQuery web)
    {source : Str} {destination url : Url} (parsed : web.parseUrl source = some destination)
    {direction : RedirectDirection} {xml : Octets} {relayState : Option Str}
    {signing : Option Signing} (fits : xml.length ≤ MAX_INFLATED_BYTES)
    (h : encode web destination direction xml relayState signing = .ok url) :
    RoundTrips web direction xml relayState signing url ↔
      Undisturbed web (destination.query.getD []) direction xml relayState signing := by
  obtain ⟨query, hquery, hparse⟩ := encode_eq_ok_iff.mp h
  obtain ⟨payload, message, rest, w⟩ := queryOf_ok hquery
  have hchars := queryOf_queryChar hquery
  have hfragment : '#' ∉ query := by
    intro hmem
    have hno := hchars _ hmem
    revert hno
    decide
  have hurl : url.query = some (joined destination.query query) :=
    (keeps source destination query url parsed hchars hparse).trans
      (query_joinQuery destination hfragment)
  have hround : RoundTrips web direction xml relayState signing url ↔
      ∀ d decoded, decode web (joined destination.query query) d = .ok decoded ↔
        d = direction ∧ decoded = message := by
    constructor
    · rintro ⟨other, whole, hother, hwhole, hall⟩
      obtain rfl := Except.ok.inj (w.sent_eq.symm.trans hother)
      obtain rfl := Option.some.inj (hurl.symm.trans hwhole)
      exact hall
    · intro hall
      exact ⟨message, _, w.sent_eq, hurl, hall⟩
  rw [hround, undisturbed_iff_own inflates fits w.payload_eq]
  refine w.decode_iff ?_
  rw [w.query_eq]
  exact parameter_joined_behind destination.query _ rest

/-! ## Destinations with a query -/

theorem Transparent.keepsQuery : KeepsQuery Transparent.storedWeb := by
  intro source base query url _ _ h
  simp only [Transparent.storedWeb] at h
  split at h
  · rw [← Option.some.inj h]
  · cases h

namespace Sample

/-- A short message. -/
def xml : Octets := [60, 97, 47, 62]

/-- A destination with a query of its own. -/
def destination : Url := ⟨"https://idp.example/sso?next=home"⟩

/-- A destination whose own query ends in a question mark. -/
def questioned : Url := ⟨"https://idp.example/sso?next=/home?"⟩

/-- The query of the redirect to a destination. -/
def queryTo (destination : Url) : Option Str :=
  (encode Transparent.storedWeb destination .request xml none none).toOption.bind Url.query

end Sample

/-- The redirect to a destination with a query of its own. -/
theorem roundTrips_iff_undisturbed_sample :
    ∃ url, encode Transparent.storedWeb Sample.destination .request Sample.xml none none = .ok url ∧
      (RoundTrips Transparent.storedWeb .request Sample.xml none none url ↔
        Undisturbed Transparent.storedWeb (Sample.destination.query.getD []) .request Sample.xml
          none none) := by
  have hencoded : (encode Transparent.storedWeb Sample.destination .request Sample.xml none
      none).isOk = true := by decide +kernel
  have hparsed : Transparent.storedWeb.parseUrl Sample.destination.asStr =
      some Sample.destination := by decide
  obtain ⟨url, hurl⟩ := exists_of_isOk hencoded
  exact ⟨url, hurl, roundTrips_iff_undisturbed Transparent.inflates Transparent.keepsQuery
    hparsed (by decide) hurl⟩

/-- A message sent to a destination whose own query ends in a question mark
does not come back: the query runs into the payload. -/
theorem not_roundTrips_questioned :
    ∃ url, encode Transparent.storedWeb Sample.questioned .request Sample.xml none none = .ok url ∧
      ¬ RoundTrips Transparent.storedWeb .request Sample.xml none none url := by
  have hencoded : (encode Transparent.storedWeb Sample.questioned .request Sample.xml none
      none).isOk = true := by decide +kernel
  obtain ⟨url, hurl⟩ := exists_of_isOk hencoded
  refine ⟨url, hurl, ?_⟩
  rintro ⟨message, query, _, hquery, hall⟩
  obtain ⟨saml, hsaml, _⟩ := decode_eq_ok_iff.mp ((hall .request message).mpr ⟨rfl, rfl⟩)
  have hnone : (Sample.queryTo Sample.questioned).bind
      (parameter · RedirectDirection.request.paramName) = none := by decide +kernel
  have hto : Sample.queryTo Sample.questioned = some query := by
    rw [Sample.queryTo, hurl]
    exact hquery
  rw [hto, Option.bind_some, hsaml] at hnone
  cases hnone

end Redirect

end Saml
