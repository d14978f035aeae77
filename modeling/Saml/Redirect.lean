import Saml.Binding
import Mathlib.Tactic.IntervalCases

/-!
# HTTP-Redirect binding

`binding::redirect`: a message travels deflated, in base64 and percent-encoded
in a query string, with a detached signature over the parameters before it.
-/

namespace Saml.Redirect

open Crypto

/-- The printable characters that are percent-encoded (`ENCODE_SET`). -/
def ENCODE_SET : Str := " !\"#$%&'()*+,/:;<=>?@[\\]^\x60\x7b|\x7d"

/-- The bound on an inflated message. -/
def MAX_INFLATED_BYTES : Nat := 10 * 1024 * 1024

/-- One side of a redirect-bound message direction. -/
inductive RedirectDirection where
  | request
  | response
deriving DecidableEq, Repr

/-- `param_name`. -/
def RedirectDirection.paramName : RedirectDirection → Str
  | .request => "SAMLRequest"
  | .response => "SAMLResponse"

/-- The other parameters of the binding. -/
def RELAY_STATE : Str := "RelayState"
def SIG_ALG : Str := "SigAlg"
def SIGNATURE : Str := "Signature"

/-! ## Percent coding -/

/-- Whether an octet is written as itself. -/
def isPlain (b : UInt8) : Bool :=
  0x20 ≤ b && b < 0x7F && Char.ofNat b.toNat ∉ ENCODE_SET

/-- An uppercase hexadecimal digit. -/
def upperHex (n : Nat) : Char := Char.ofNat (if n < 10 then 48 + n else 55 + n)

/-- The value of a hexadecimal digit. -/
def hexValue (b : UInt8) : Option Nat :=
  let n := b.toNat
  if 48 ≤ n ∧ n < 58 then some (n - 48)
  else if 65 ≤ n ∧ n < 71 then some (n - 55)
  else if 97 ≤ n ∧ n < 103 then some (n - 87)
  else none

/-- `utf8_percent_encode` of one octet. -/
def pctEncodeByte (b : UInt8) : Str :=
  if isPlain b then [Char.ofNat b.toNat]
  else ['%', upperHex (b.toNat / 16), upperHex (b.toNat % 16)]

/-- `utf8_percent_encode`. -/
def pctEncode (value : Str) : Str := (Text.asBytes value).flatMap pctEncodeByte

/-- `percent_decode`: a percent sign without two digits stands for itself. -/
def pctDecodeBytes : Octets → Octets
  | 0x25 :: hi :: lo :: rest =>
      match hexValue hi, hexValue lo with
      | some h, some l => UInt8.ofNat (16 * h + l) :: pctDecodeBytes rest
      | _, _ => 0x25 :: pctDecodeBytes (hi :: lo :: rest)
  | b :: rest => b :: pctDecodeBytes rest
  | [] => []

/-- `pct_decode`. -/
def pctDecode (value : Str) : Result Str :=
  okOr (Text.fromUtf8 (pctDecodeBytes (Text.asBytes value))) .base64Decode

/-- `write_pct_pair`. -/
def pctPair (name value : Str) : Str := name ++ '=' :: pctEncode value

/-! ## Encoding -/

variable (web : Web)

/-- `deflate_and_base64`. -/
def deflateAndBase64 (xml : Octets) : Result Str :=
  match web.deflate xml with
  | .ok deflated => .ok (base64Encode deflated)
  | .error message => .error (.xmlEmit message)

/-- `append_query`. -/
def appendQuery (base : Url) (query : Str) : Result Url :=
  let s := base.asStr.takeWhile (· ≠ '#')
  let s :=
    if '?' ∈ s then
      if s.getLast? = some '?' ∨ s.getLast? = some '&' then s else s ++ ['&']
    else s ++ ['?']
  okOr (web.parseUrl (s ++ query))
    (.invalidConfiguration "destination URL is not a valid base URL")

/-- The payload and `RelayState` parameters. -/
def payloadQuery (direction : RedirectDirection) (payload : Str) (relayState : Option Str) : Str :=
  pctPair direction.paramName payload ++
    (relayState.elim [] fun rs => '&' :: pctPair RELAY_STATE rs)

/-- The parameters a detached signature covers. -/
def signedQuery (direction : RedirectDirection) (payload : Str) (relayState : Option Str)
    (sigAlgUri : Str) : Str :=
  payloadQuery direction payload relayState ++ '&' :: pctPair SIG_ALG sigAlgUri

/-- The query of `encode_unsigned`. -/
def unsignedQueryOf (direction : RedirectDirection) (xml : Octets) (relayState : Option Str) :
    Result Str := do
  let payload ← deflateAndBase64 web xml
  .ok (payloadQuery direction payload relayState)

/-- The query of `encode_signed`. -/
def signedQueryOf (direction : RedirectDirection) (xml : Octets) (relayState : Option Str)
    (sigAlgUri : Str) (sign : Octets → Result Octets) : Result Str := do
  let payload ← deflateAndBase64 web xml
  let signedQs := signedQuery direction payload relayState sigAlgUri
  let signature ← sign (Text.asBytes signedQs)
  .ok (signedQs ++ '&' :: pctPair SIGNATURE (base64Encode signature))

/-- `encode_unsigned`: the URL of the redirect. -/
def encodeUnsigned (destination : Url) (direction : RedirectDirection) (xml : Octets)
    (relayState : Option Str) : Result Url := do
  let query ← unsignedQueryOf web direction xml relayState
  appendQuery web destination query

/-- `encode_signed`: the URL of the redirect. -/
def encodeSigned (destination : Url) (direction : RedirectDirection) (xml : Octets)
    (relayState : Option Str) (sigAlgUri : Str) (sign : Octets → Result Octets) : Result Url := do
  let query ← signedQueryOf web direction xml relayState sigAlgUri sign
  appendQuery web destination query

/-! ## Decoding -/

/-- `str::split('&')` and `split_once('=')`: the name and value of a pair. -/
def splitPair (pair : Str) : Str × Str :=
  (pair.takeWhile (· ≠ '='), (pair.dropWhile (· ≠ '=')).tail)

/-- The parameters of a raw query string, empty pairs left out. -/
def parameters (rawQueryString : Str) : List (Str × Str) :=
  ((rawQueryString.splitOn '&').filter (· ≠ [])).map splitPair

/-- The raw value of a parameter: the last one counts. -/
def parameter (rawQueryString name : Str) : Option Str :=
  ((parameters rawQueryString).reverse.find? fun p => p.1 = name).map Prod.snd

/-- Decoded fields of an inbound Redirect-bound message. -/
structure DecodedRedirect where
  xml : Octets
  relayState : Option Str
  signature : Option Octets
  sigAlg : Option Str
  signedQueryString : Option Str
deriving DecidableEq

/-- `inflate_capped`. -/
def inflateCapped (deflated : Octets) : Result Octets := do
  let buf ← okOr (web.inflate (MAX_INFLATED_BYTES + 1) deflated) .inflate
  if buf.length > MAX_INFLATED_BYTES then .error .inflate else .ok buf

/-- The message of a raw parameter value. -/
def decodePayload (saml : Str) : Result Octets := do
  let samlB64 ← pctDecode saml
  let deflated ← base64Decode samlB64
  inflateCapped web deflated

/-- The signature octets of a raw parameter value. -/
def decodeSignature (sig : Str) : Result Octets := do
  let sigB64 ← pctDecode sig
  base64Decode sigB64

/-- The signed query string put together from the raw values. -/
def reconstruct (paramName saml : Str) (relayState sigAlg : Option Str) : Str :=
  paramName ++ '=' :: saml ++ (relayState.elim [] fun rs => '&' :: RELAY_STATE ++ '=' :: rs) ++
    (sigAlg.elim [] fun sa => '&' :: SIG_ALG ++ '=' :: sa)

/-- `decode`. -/
def decode (rawQueryString : Str) (direction : RedirectDirection) : Result DecodedRedirect := do
  let raw := parameter rawQueryString
  let saml ← okOr (raw direction.paramName)
    (.invalidConfiguration "missing SAMLRequest/SAMLResponse parameter")
  let xml ← decodePayload web saml
  let relayState ← mapTranspose pctDecode (raw RELAY_STATE)
  let sigAlg ← mapTranspose pctDecode (raw SIG_ALG)
  let signature ← mapTranspose decodeSignature (raw SIGNATURE)
  .ok {
    xml := xml
    relayState := relayState
    signature := signature
    sigAlg := sigAlg
    signedQueryString := (raw SIGNATURE).map fun _ =>
      reconstruct direction.paramName saml (raw RELAY_STATE) (raw SIG_ALG) }

/-! ## Percent coding round trip -/

theorem hexValue_upperHex : ∀ n < 16, hexValue (UInt8.ofNat (upperHex n).toNat) = some n := by
  decide

theorem upperHex_lt : ∀ n < 16, (upperHex n).toNat < 128 := by decide

/-- Neither a separator of parameters nor of a name and its value. -/
def Clean (c : Char) : Prop := c ≠ '&' ∧ c ≠ '='

instance (c : Char) : Decidable (Clean c) := inferInstanceAs (Decidable (_ ∧ _))

theorem clean_of_all {s : Str} (h : s.all (Clean ·) = true) : ∀ c ∈ s, Clean c := by
  intro c hc
  exact of_decide_eq_true (List.all_eq_true.mp h c hc)

theorem upperHex_clean : ∀ n < 16, upperHex n ≠ '&' ∧ upperHex n ≠ '=' := by decide

theorem asBytes_ascii {c : Char} (h : c.toNat < 128) :
    Text.asBytes [c] = [UInt8.ofNat c.toNat] := by
  have hval : c.val.toNat ≤ 127 := Nat.le_of_lt_succ h
  simp only [Text.asBytes, List.flatMap_cons, List.flatMap_nil, List.append_nil,
    String.utf8EncodeChar, hval, if_true]
  rfl

theorem ofNat_toNat_ascii {n : Nat} (h : n < 128) : (Char.ofNat n).toNat = n := by
  have hvalid : n.isValidChar := .inl (lt_trans h (by decide))
  rw [Char.ofNat, dif_pos hvalid]
  rfl

theorem isPlain_bounds {b : UInt8} (h : isPlain b = true) :
    b.toNat < 128 ∧ Char.ofNat b.toNat ∉ ENCODE_SET := by
  simp only [isPlain, Bool.and_eq_true, decide_eq_true_eq] at h
  exact ⟨lt_trans (UInt8.lt_iff_toNat_lt.mp h.1.2) (by decide), h.2⟩

/-- An octet that is not a percent sign is read as itself. -/
theorem pctDecodeBytes_cons {b : UInt8} (h : b ≠ 0x25) (rest : Octets) :
    pctDecodeBytes (b :: rest) = b :: pctDecodeBytes rest := by
  match rest with
  | [] => simp [pctDecodeBytes]
  | [_] => simp [pctDecodeBytes]
  | _ :: _ :: _ => simp [pctDecodeBytes, h]

/-- An octet written with two digits is read back. -/
theorem pctDecodeBytes_digits (b : UInt8) (rest : Octets) :
    pctDecodeBytes (Text.asBytes ['%', upperHex (b.toNat / 16), upperHex (b.toNat % 16)] ++ rest) =
      b :: pctDecodeBytes rest := by
  have hhi : b.toNat / 16 < 16 := by have := b.toNat_lt; omega
  have hlo : b.toNat % 16 < 16 := Nat.mod_lt _ (by decide)
  have hbytes : Text.asBytes ['%', upperHex (b.toNat / 16), upperHex (b.toNat % 16)] =
      [0x25, UInt8.ofNat (upperHex (b.toNat / 16)).toNat,
        UInt8.ofNat (upperHex (b.toNat % 16)).toNat] := by
    have hsplit : ∀ c d e : Char, [c, d, e] = [c] ++ ([d] ++ [e]) := fun _ _ _ => rfl
    rw [hsplit, Text.asBytes_append, Text.asBytes_append, asBytes_ascii (by decide),
      asBytes_ascii (upperHex_lt _ hhi), asBytes_ascii (upperHex_lt _ hlo)]
    rfl
  rw [hbytes]
  simp only [List.cons_append, List.nil_append, pctDecodeBytes, hexValue_upperHex _ hhi,
    hexValue_upperHex _ hlo]
  rw [Nat.div_add_mod, UInt8.ofNat_toNat]

/-- An octet written as an ASCII character is read back. -/
theorem pctDecodeBytes_ascii {b : UInt8} (ascii : b.toNat < 128) (h : b ≠ 0x25) (rest : Octets) :
    pctDecodeBytes (Text.asBytes [Char.ofNat b.toNat] ++ rest) = b :: pctDecodeBytes rest := by
  rw [asBytes_ascii (by rw [ofNat_toNat_ascii ascii]; exact ascii), ofNat_toNat_ascii ascii,
    UInt8.ofNat_toNat, List.singleton_append, pctDecodeBytes_cons h]

/-- An encoded octet is read back. -/
theorem pctDecodeBytes_encodeByte (b : UInt8) (rest : Octets) :
    pctDecodeBytes (Text.asBytes (pctEncodeByte b) ++ rest) = b :: pctDecodeBytes rest := by
  unfold pctEncodeByte
  split
  next hplain =>
    obtain ⟨hlt, hset⟩ := isPlain_bounds hplain
    apply pctDecodeBytes_ascii hlt
    rintro rfl
    exact hset (by decide)
  next => exact pctDecodeBytes_digits b rest

theorem pctDecodeBytes_pctEncode (bytes : Octets) :
    pctDecodeBytes (Text.asBytes (bytes.flatMap pctEncodeByte)) = bytes := by
  induction bytes with
  | nil => rfl
  | cons b rest ih =>
      rw [List.flatMap_cons, Text.asBytes_append, pctDecodeBytes_encodeByte, ih]

/-- Percent-decoding inverts percent-encoding. -/
theorem pctDecode_pctEncode (value : Str) : pctDecode (pctEncode value) = .ok value := by
  rw [pctDecode, pctEncode, pctDecodeBytes_pctEncode, Text.fromUtf8_asBytes, okOr_some]

/-- Encoded values hold no separator. -/
theorem pctEncode_clean {value : Str} {c : Char} (h : c ∈ pctEncode value) : Clean c := by
  obtain ⟨b, _, hc⟩ := List.mem_flatMap.mp h
  unfold pctEncodeByte at hc
  split at hc
  · rename_i hplain
    obtain ⟨_, hset⟩ := isPlain_bounds hplain
    obtain rfl := List.mem_singleton.mp hc
    constructor
    · intro heq
      exact hset (heq ▸ by decide)
    · intro heq
      exact hset (heq ▸ by decide)
  · have hhi : b.toNat / 16 < 16 := by have := b.toNat_lt; omega
    have hlo : b.toNat % 16 < 16 := Nat.mod_lt _ (by decide)
    simp only [List.mem_cons, List.not_mem_nil, or_false] at hc
    rcases hc with rfl | rfl | rfl
    · exact ⟨by decide, by decide⟩
    · exact upperHex_clean _ hhi
    · exact upperHex_clean _ hlo

/-! ## Query round trip -/

/-- Parameters of a query put together from two. -/
theorem parameters_append (first second : Str) :
    parameters (first ++ '&' :: second) = parameters first ++ parameters second := by
  simp only [parameters, List.splitOn_eq_splitOnP]
  rw [List.splitOnP_append_cons first second (by simp), List.filter_append, List.map_append]

/-- A query of one pair. -/
theorem parameters_pair {name value : Str} (hname : ∀ c ∈ name, Clean c)
    (hvalue : '&' ∉ value) : parameters (name ++ '=' :: value) = [(name, value)] := by
  have hsplit : (name ++ '=' :: value).splitOn '&' = [name ++ '=' :: value] := by
    rw [List.splitOn_eq_splitOnP]
    refine List.splitOnP_eq_singleton fun c hc => ?_
    rcases List.mem_append.mp hc with hc | hc
    · simpa using (hname c hc).1
    · rcases List.mem_cons.mp hc with rfl | hc
      · decide
      · simpa using fun heq : c = '&' => hvalue (heq ▸ hc)
  have hstop : ∀ c ∈ name, decide (c ≠ '=') = true := fun c hc => by simpa using (hname c hc).2
  have hpair : splitPair (name ++ '=' :: value) = (name, value) := by
    rw [splitPair, List.takeWhile_append_of_pos hstop, List.dropWhile_append_of_pos hstop]
    simp
  simp [parameters, hsplit, hpair]

/-- The last parameter of a name counts. -/
theorem parameter_append (first second name : Str) :
    parameter (first ++ '&' :: second) name =
      (parameter second name).or (parameter first name) := by
  simp only [parameter, parameters_append, List.reverse_append, List.find?_append]
  cases (parameters second).reverse.find? (fun p => decide (p.1 = name)) <;> rfl

theorem parameter_pair {name value : Str} (hname : ∀ c ∈ name, Clean c)
    (hvalue : '&' ∉ value) (key : Str) :
    parameter (name ++ '=' :: value) key = if name = key then some value else none := by
  simp only [parameter, parameters_pair hname hvalue, List.reverse_singleton, List.find?_cons,
    List.find?_nil]
  by_cases h : name = key <;> simp [h]

theorem parameter_pctPair {name : Str} (hname : ∀ c ∈ name, Clean c) (value key : Str) :
    parameter (pctPair name value) key = if name = key then some (pctEncode value) else none :=
  parameter_pair hname (fun h => (pctEncode_clean h).1 rfl) key

/-- A raw value holds no separator. -/
theorem notMem_parameter {query key value : Str} (h : parameter query key = some value) :
    '&' ∉ value := by
  obtain ⟨pair, hfind, rfl⟩ := Option.map_eq_some_iff.mp h
  have hmem := List.mem_reverse.mp (List.mem_of_find?_eq_some hfind)
  obtain ⟨piece, hpiece, rfl⟩ := List.mem_map.mp hmem
  have hclean := Text.notMem_of_mem_splitOn (List.mem_filter.mp hpiece).1
  intro hvalue
  have htail : '&' ∈ piece.dropWhile (· ≠ '=') := List.mem_of_mem_tail hvalue
  exact hclean ((List.dropWhile_sublist _).mem htail)

/-- The names the binding writes hold no separator. -/
theorem paramName_clean (direction : RedirectDirection) : ∀ c ∈ direction.paramName, Clean c := by
  cases direction <;> exact clean_of_all (by decide)

/-- A query behind the query an endpoint URL has of its own. -/
def withLead (lead : Option Str) (query : Str) : Str :=
  lead.elim query fun l => l ++ '&' :: query

theorem parameter_withLead (lead : Option Str) (query key : Str) :
    parameter (withLead lead query) key =
      (parameter query key).or (lead.bind fun l => parameter l key) := by
  cases lead with
  | none => simp [withLead]
  | some l => simpa [withLead] using parameter_append l query key

theorem relayState_clean : ∀ c ∈ RELAY_STATE, Clean c := clean_of_all (by decide)
theorem sigAlg_clean : ∀ c ∈ SIG_ALG, Clean c := clean_of_all (by decide)
theorem signature_clean : ∀ c ∈ SIGNATURE, Clean c := clean_of_all (by decide)

/-- The names the binding writes are different. -/
theorem names_distinct (direction : RedirectDirection) :
    direction.paramName ≠ RELAY_STATE ∧ direction.paramName ≠ SIG_ALG ∧
      direction.paramName ≠ SIGNATURE ∧ RELAY_STATE ≠ SIG_ALG ∧
      RELAY_STATE ≠ SIGNATURE ∧ SIG_ALG ≠ SIGNATURE := by
  cases direction <;> decide

/-- The parameters of a payload query. -/
theorem parameter_payloadQuery (direction : RedirectDirection) (payload : Str)
    (relayState : Option Str) (key : Str) :
    parameter (payloadQuery direction payload relayState) key =
      if key = RELAY_STATE then relayState.map pctEncode
      else if key = direction.paramName then some (pctEncode payload) else none := by
  obtain ⟨hrelay, _⟩ := names_distinct direction
  cases relayState with
  | none =>
      rw [payloadQuery, Option.elim_none, List.append_nil,
        parameter_pctPair (paramName_clean direction)]
      by_cases hkey : key = RELAY_STATE
      · subst hkey
        simp [hrelay]
      · simp [hkey, eq_comm]
  | some rs =>
      rw [payloadQuery, Option.elim_some, parameter_append, parameter_pctPair relayState_clean,
        parameter_pctPair (paramName_clean direction)]
      by_cases hkey : key = RELAY_STATE
      · subst hkey
        simp
      · simp [hkey, Ne.symm hkey, eq_comm]

/-- The parameters of a signed query. -/
theorem parameter_signedQuery (direction : RedirectDirection) (payload : Str)
    (relayState : Option Str) (alg key : Str) :
    parameter (signedQuery direction payload relayState alg) key =
      if key = SIG_ALG then some (pctEncode alg)
      else parameter (payloadQuery direction payload relayState) key := by
  rw [signedQuery, parameter_append, parameter_pctPair sigAlg_clean]
  by_cases hkey : key = SIG_ALG
  · subst hkey
    simp
  · simp [hkey, Ne.symm hkey]

/-- What the callers rely on from the DEFLATE package: inflating gives back
what was deflated, up to the number of octets asked for. -/
def Inflates : Prop :=
  ∀ bytes deflated limit, web.deflate bytes = .ok deflated →
    web.inflate limit deflated = some (bytes.take limit)

variable {web}

theorem deflateAndBase64_ok {xml : Octets} {payload : Str}
    (h : deflateAndBase64 web xml = .ok payload) :
    ∃ deflated, web.deflate xml = .ok deflated ∧ payload = base64Encode deflated := by
  unfold deflateAndBase64 at h
  split at h
  · rename_i deflated hdeflated
    exact ⟨deflated, hdeflated, (Except.ok.inj h).symm⟩
  · cases h

/-- A payload within the bound is read back. -/
theorem decodePayload_encode (inflates : Inflates web) {xml : Octets} {payload : Str}
    (fits : xml.length ≤ MAX_INFLATED_BYTES) (h : deflateAndBase64 web xml = .ok payload) :
    decodePayload web (pctEncode payload) = .ok xml := by
  obtain ⟨deflated, hdeflated, rfl⟩ := deflateAndBase64_ok h
  have htake : xml.take (MAX_INFLATED_BYTES + 1) = xml := List.take_of_length_le (by omega)
  have hinflate := inflates xml deflated (MAX_INFLATED_BYTES + 1) hdeflated
  rw [htake] at hinflate
  refine bind_eq_ok_iff.mpr ⟨_, pctDecode_pctEncode _, bind_eq_ok_iff.mpr ⟨deflated, ?_, ?_⟩⟩
  · rw [base64Decode, base64Encode, Library.Base64.decode_encode, okOr_some]
  · refine bind_eq_ok_iff.mpr ⟨xml, by rw [hinflate, okOr_some], ?_⟩
    rw [if_neg (not_lt.mpr fits)]

theorem decodeSignature_encode (signature : Octets) :
    decodeSignature (pctEncode (base64Encode signature)) = .ok signature := by
  refine bind_eq_ok_iff.mpr ⟨_, pctDecode_pctEncode _, ?_⟩
  rw [base64Decode, base64Encode, Library.Base64.decode_encode, okOr_some]

theorem mapTranspose_pctDecode (value : Option Str) :
    mapTranspose pctDecode (value.map pctEncode) = .ok value := by
  cases value with
  | none => rfl
  | some v => simp [mapTranspose, pctDecode_pctEncode, Except.map]

/-- An unsigned query decodes to its message, behind any lead without the
parameters it leaves out. -/
theorem decode_unsigned (inflates : Inflates web) {direction : RedirectDirection} {xml : Octets}
    {relayState lead : Option Str} {query : Str} (fits : xml.length ≤ MAX_INFLATED_BYTES)
    (h : unsignedQueryOf web direction xml relayState = .ok query)
    (noRelay : relayState = none → (lead.bind fun l => parameter l RELAY_STATE) = none)
    (noSigAlg : (lead.bind fun l => parameter l SIG_ALG) = none)
    (noSignature : (lead.bind fun l => parameter l SIGNATURE) = none) :
    decode web (withLead lead query) direction = .ok ⟨xml, relayState, none, none, none⟩ := by
  obtain ⟨payload, hpayload, h⟩ := bind_eq_ok_iff.mp h
  obtain rfl := Except.ok.inj h
  obtain ⟨hrelay, halg, hsig, hra, hrs, has⟩ := names_distinct direction
  have hsaml : parameter (withLead lead (payloadQuery direction payload relayState))
      direction.paramName = some (pctEncode payload) := by
    simp [parameter_withLead, parameter_payloadQuery, hrelay]
  have hrelayState : parameter (withLead lead (payloadQuery direction payload relayState))
      RELAY_STATE = relayState.map pctEncode := by
    cases relayState with
    | none => simpa [parameter_withLead, parameter_payloadQuery] using noRelay rfl
    | some rs => simp [parameter_withLead, parameter_payloadQuery]
  have hsigAlg : parameter (withLead lead (payloadQuery direction payload relayState))
      SIG_ALG = none := by
    simpa [parameter_withLead, parameter_payloadQuery, hra.symm, halg.symm] using noSigAlg
  have hsignature : parameter (withLead lead (payloadQuery direction payload relayState))
      SIGNATURE = none := by
    simpa [parameter_withLead, parameter_payloadQuery, hrs.symm, hsig.symm] using noSignature
  unfold decode
  simp only [hsaml, hrelayState, hsigAlg, hsignature, okOr_some, mapTranspose_pctDecode]
  simp [decodePayload_encode inflates fits hpayload, mapTranspose, bind, Except.bind]

theorem reconstruct_signedQuery (direction : RedirectDirection) (payload : Str)
    (relayState : Option Str) (alg : Str) :
    reconstruct direction.paramName (pctEncode payload) (relayState.map pctEncode)
        (some (pctEncode alg)) =
      signedQuery direction payload relayState alg := by
  cases relayState <;> simp [reconstruct, signedQuery, payloadQuery, pctPair]

/-- The parameters of a signed query put together from raw values. -/
theorem parameter_reconstruct (direction : RedirectDirection) {saml : Str}
    {relayState sigAlg : Option Str} (hsaml : '&' ∉ saml) (hrelay : ∀ v ∈ relayState, '&' ∉ v)
    (halg : ∀ v ∈ sigAlg, '&' ∉ v) (key : Str) :
    parameter (reconstruct direction.paramName saml relayState sigAlg) key =
      if key = SIG_ALG then sigAlg else if key = RELAY_STATE then relayState
      else if key = direction.paramName then some saml else none := by
  obtain ⟨hpr, hpa, _, hra, _⟩ := names_distinct direction
  have hpayload : parameter (direction.paramName ++ '=' :: saml ++
      (relayState.elim [] fun rs => '&' :: RELAY_STATE ++ '=' :: rs)) key =
      if key = RELAY_STATE then relayState
      else if key = direction.paramName then some saml else none := by
    cases relayState with
    | none =>
        rw [Option.elim_none, List.append_nil, parameter_pair (paramName_clean direction) hsaml]
        by_cases hkey : key = RELAY_STATE
        · subst hkey
          simp [hpr]
        · simp [hkey, eq_comm]
    | some rs =>
        rw [Option.elim_some, List.cons_append, parameter_append,
          parameter_pair relayState_clean (hrelay rs rfl),
          parameter_pair (paramName_clean direction) hsaml]
        by_cases hkey : key = RELAY_STATE
        · subst hkey
          simp
        · simp [hkey, Ne.symm hkey, eq_comm]
  cases sigAlg with
  | none =>
      rw [reconstruct, Option.elim_none, List.append_nil, hpayload]
      by_cases hkey : key = SIG_ALG
      · subst hkey
        simp [hra.symm, hpa.symm]
      · simp [hkey]
  | some sa =>
      rw [reconstruct, Option.elim_some, List.cons_append, parameter_append,
        parameter_pair sigAlg_clean (halg sa rfl), hpayload]
      by_cases hkey : key = SIG_ALG
      · subst hkey
        simp
      · simp [hkey, Ne.symm hkey]

/-- What a decoded query says of the octets its signature covers: they decode
to the same message. -/
theorem decode_signedQueryString {raw signedQs : Str} {direction : RedirectDirection}
    {decoded : DecodedRedirect} (h : decode web raw direction = .ok decoded)
    (hsigned : decoded.signedQueryString = some signedQs) :
    decode web signedQs direction =
      .ok ⟨decoded.xml, decoded.relayState, none, decoded.sigAlg, none⟩ := by
  obtain ⟨hpr, hpa, hps, hra, hrs, has⟩ := names_distinct direction
  obtain ⟨saml, hsaml, h⟩ := bind_eq_ok_iff.mp h
  obtain ⟨xml, hxml, h⟩ := bind_eq_ok_iff.mp h
  obtain ⟨relayState, hrelay, h⟩ := bind_eq_ok_iff.mp h
  obtain ⟨sigAlg, halg, h⟩ := bind_eq_ok_iff.mp h
  obtain ⟨signature, hsig, h⟩ := bind_eq_ok_iff.mp h
  obtain rfl := Except.ok.inj h
  obtain ⟨_, _, rfl⟩ := Option.map_eq_some_iff.mp hsigned
  have hraw := okOr_eq_ok_iff.mp hsaml
  have hrelayClean : ∀ v ∈ parameter raw RELAY_STATE, '&' ∉ v := fun _ hv => notMem_parameter hv
  have halgClean : ∀ v ∈ parameter raw SIG_ALG, '&' ∉ v := fun _ hv => notMem_parameter hv
  have hparameter := parameter_reconstruct direction (notMem_parameter hraw) hrelayClean halgClean
  unfold decode
  simp only [hparameter, hpa, hpr, has.symm, hrs.symm, hra, hps.symm, if_true, if_false]
  refine bind_eq_ok_iff.mpr ⟨saml, rfl, bind_eq_ok_iff.mpr ⟨xml, hxml, ?_⟩⟩
  refine bind_eq_ok_iff.mpr ⟨relayState, hrelay, bind_eq_ok_iff.mpr ⟨sigAlg, halg, ?_⟩⟩
  exact bind_eq_ok_iff.mpr ⟨none, rfl, rfl⟩

/-- A signed query decodes to its message, its signature and the octets the
signature covers. -/
theorem decode_signed (inflates : Inflates web) {direction : RedirectDirection} {xml : Octets}
    {relayState lead : Option Str} {alg query : Str} {sign : Octets → Result Octets}
    (fits : xml.length ≤ MAX_INFLATED_BYTES)
    (h : signedQueryOf web direction xml relayState alg sign = .ok query)
    (noRelay : relayState = none → (lead.bind fun l => parameter l RELAY_STATE) = none) :
    ∃ signedQs signature, sign (Text.asBytes signedQs) = .ok signature ∧
      decode web (withLead lead query) direction =
        .ok ⟨xml, relayState, some signature, some alg, some signedQs⟩ := by
  obtain ⟨payload, hpayload, h⟩ := bind_eq_ok_iff.mp h
  obtain ⟨signature, hsign, h⟩ := bind_eq_ok_iff.mp h
  obtain rfl := Except.ok.inj h
  obtain ⟨hrelay, halg, hsig, hra, hrs, has⟩ := names_distinct direction
  refine ⟨signedQuery direction payload relayState alg, signature, hsign, ?_⟩
  have hquery (key : Str) :
      parameter (withLead lead (signedQuery direction payload relayState alg ++
        '&' :: pctPair SIGNATURE (base64Encode signature))) key =
      ((if key = SIGNATURE then some (pctEncode (base64Encode signature))
        else parameter (signedQuery direction payload relayState alg) key).or
        (lead.bind fun l => parameter l key)) := by
    rw [parameter_withLead, parameter_append, parameter_pctPair signature_clean]
    by_cases hkey : key = SIGNATURE
    · subst hkey
      simp
    · simp [hkey, Ne.symm hkey]
  have hsaml := hquery direction.paramName
  have hrelayState := hquery RELAY_STATE
  have hsigAlg := hquery SIG_ALG
  have hsignature := hquery SIGNATURE
  simp only [hsig, parameter_signedQuery, parameter_payloadQuery, halg, hrelay, hrs, hra, has,
    if_false, if_true, Option.some_or] at hsaml hrelayState hsigAlg hsignature
  have hrelayState' : (relayState.map pctEncode).or (lead.bind fun l => parameter l RELAY_STATE) =
      relayState.map pctEncode := by
    cases relayState with
    | none => simpa using noRelay rfl
    | some rs => rfl
  rw [hrelayState'] at hrelayState
  unfold decode
  simp only [hsaml, hrelayState, hsigAlg, hsignature, okOr_some, mapTranspose_pctDecode]
  simp [decodePayload_encode inflates fits hpayload, mapTranspose, bind, Except.bind, Except.map,
    pctDecode_pctEncode, decodeSignature_encode, reconstruct_signedQuery]

/-! ## Transparent web functions -/

namespace Transparent

/-- The low octet of a length, and the one above it. -/
def lengthOctets (n : Nat) : UInt8 × UInt8 := (UInt8.ofNat n, UInt8.ofNat (n / 256))

/-- One stored DEFLATE block: the header, the length and its complement. -/
def storedBlock (bytes : Octets) : Octets :=
  let (lo, hi) := lengthOctets bytes.length
  1 :: lo :: hi :: ~~~lo :: ~~~hi :: bytes

/-- The content of one stored DEFLATE block. -/
def readStoredBlock : Octets → Option Octets
  | header :: lo :: hi :: nlo :: nhi :: bytes =>
      if header = 1 ∧ (lo, hi) = lengthOctets bytes.length ∧ (nlo, nhi) = (~~~lo, ~~~hi) then
        some bytes
      else none
  | _ => none

/-- Web functions that follow the interface of the real ones: a URL is taken as
written, and DEFLATE stores. -/
def storedWeb : Web where
  parseUrl s := if ("https://" : Str) <+: s then some ⟨s⟩ else none
  appendPairs url pairs :=
    ⟨url.asStr ++ '?' :: List.intercalate "&" (pairs.map fun p => pctPair p.1 p.2)⟩
  sha1 bytes := (bytes ++ List.replicate 20 0).take 20
  deflate bytes :=
    if bytes.length < 65536 then .ok (storedBlock bytes) else .error "message too long to store"
  inflate limit deflated := (readStoredBlock deflated).map (·.take limit)

theorem readStoredBlock_storedBlock (bytes : Octets) :
    readStoredBlock (storedBlock bytes) = some bytes :=
  if_pos ⟨rfl, rfl, rfl⟩

theorem deflateAndBase64_stored {xml : Octets} (h : xml.length < 65536) :
    deflateAndBase64 storedWeb xml = .ok (base64Encode (storedBlock xml)) := by
  have hdeflate : storedWeb.deflate xml = .ok (storedBlock xml) := if_pos h
  rw [deflateAndBase64, hdeflate]

theorem inflates : Inflates storedWeb := by
  intro bytes deflated limit h
  have hstored : storedBlock bytes = deflated := by
    simp only [storedWeb] at h
    split at h
    · exact Except.ok.inj h
    · cases h
  subst hstored
  exact congrArg (Option.map (·.take limit)) (readStoredBlock_storedBlock bytes)

end Transparent

end Saml.Redirect
