import Saml.Redirect.RoundTrip

/-!
# Form-encoded queries

The query of a URL as a list of names and values, the way the URL standard writes
and reads it and the package behind `url::form_urlencoded` does.
-/

namespace Saml.Disco

open Redirect

/-! ## Writing -/

/-- An octet a form-encoded name or value shows as itself. -/
def isFormPlain (b : UInt8) : Bool :=
  let c := Char.ofNat b.toNat
  b.toNat < 128 && (c.isAlphanum || c ∈ ['*', '-', '.', '_'])

/-- `byte_serialize` of one octet. -/
def formEncodeByte (b : UInt8) : Str :=
  if b = 0x20 then ['+']
  else if isFormPlain b then [Char.ofNat b.toNat]
  else ['%', upperHex (b.toNat / 16), upperHex (b.toNat % 16)]

/-- `byte_serialize` of a text. -/
def formEncode (value : Str) : Str := (Text.asBytes value).flatMap formEncodeByte

/-- One name with its value. -/
def formPair (p : Str × Str) : Str := formEncode p.1 ++ '=' :: formEncode p.2

/-- `append_pair`: a separator goes in front unless the query is empty. -/
def appendPair (query : Str) (p : Str × Str) : Str :=
  if query = [] then formPair p else query ++ '&' :: formPair p

/-! ## Reading -/

/-- A plus sign stands for a blank. -/
def plusToSpace (s : Str) : Str := s.map fun c => if c = '+' then ' ' else c

/-- A raw name or value; octets that are no text are replaced. -/
def formDecode (fromUtf8Lossy : Octets → Str) (s : Str) : Str :=
  fromUtf8Lossy (pctDecodeBytes (Text.asBytes (plusToSpace s)))

/-- `form_urlencoded::parse`. -/
def formParse (fromUtf8Lossy : Octets → Str) (query : Str) : List (Str × Str) :=
  (parameters query).map fun p => (formDecode fromUtf8Lossy p.1, formDecode fromUtf8Lossy p.2)

/-! ## The round trip -/

/-- The characters with a meaning of their own in a query. -/
def RESERVED : Str := ['&', '=', '+', '%', '#', '?', ' ']

theorem isFormPlain_bounds {b : UInt8} (h : isFormPlain b = true) :
    b.toNat < 128 ∧ Char.ofNat b.toNat ∉ RESERVED := by
  have hbound : b.toNat < 128 := by
    simp only [isFormPlain, Bool.and_eq_true, decide_eq_true_eq] at h
    exact h.1
  have htable : ∀ n < 128, isFormPlain (UInt8.ofNat n) = true → Char.ofNat n ∉ RESERVED := by
    decide +kernel
  exact ⟨hbound, htable b.toNat hbound (by rwa [UInt8.ofNat_toNat])⟩

theorem upperHex_reserved : ∀ n < 16, upperHex n ∉ RESERVED := by decide

theorem plusToSpace_append (s t : Str) : plusToSpace (s ++ t) = plusToSpace s ++ plusToSpace t :=
  List.map_append

theorem plusToSpace_of_notMem {s : Str} (h : '+' ∉ s) : plusToSpace s = s := by
  have hkeep : ∀ c ∈ s, (if c = '+' then ' ' else c) = id c := by
    rintro c hc
    apply if_neg
    rintro rfl
    exact h hc
  rw [plusToSpace, List.map_congr_left hkeep, List.map_id]

/-- What an octet is written with. -/
theorem formEncodeByte_cases (b : UInt8) : (b = 0x20 ∧ formEncodeByte b = ['+']) ∨
    (isFormPlain b = true ∧ formEncodeByte b = [Char.ofNat b.toNat]) ∨
    formEncodeByte b = ['%', upperHex (b.toNat / 16), upperHex (b.toNat % 16)] := by
  unfold formEncodeByte
  split
  next hblank => exact .inl ⟨hblank, rfl⟩
  next =>
    split
    next hplain => exact .inr (.inl ⟨hplain, rfl⟩)
    next => exact .inr (.inr rfl)

/-- A written octet is read back. -/
theorem decode_formEncodeByte (b : UInt8) (rest : Octets) :
    pctDecodeBytes (Text.asBytes (plusToSpace (formEncodeByte b)) ++ rest) =
      b :: pctDecodeBytes rest := by
  rcases formEncodeByte_cases b with ⟨rfl, heq⟩ | ⟨hplain, heq⟩ | heq
  · have hspace : plusToSpace (formEncodeByte 0x20) = [Char.ofNat (0x20 : UInt8).toNat] := by decide
    rw [hspace]
    exact pctDecodeBytes_ascii (by decide) (by decide) rest
  · obtain ⟨hlt, hreserved⟩ := isFormPlain_bounds hplain
    rw [heq, plusToSpace_of_notMem]
    · apply pctDecodeBytes_ascii hlt
      rintro rfl
      exact hreserved (by decide)
    · intro hmem
      rw [← List.mem_singleton.mp hmem] at hreserved
      exact hreserved (by decide)
  · have hhi := upperHex_reserved (b.toNat / 16) (by have := b.toNat_lt; omega)
    have hlo := upperHex_reserved (b.toNat % 16) (Nat.mod_lt _ (by decide))
    rw [heq, plusToSpace_of_notMem]
    · exact pctDecodeBytes_digits b rest
    · intro hmem
      simp only [List.mem_cons, List.not_mem_nil, or_false] at hmem
      rcases hmem with h | h | h
      · exact absurd h (by decide)
      · exact hhi (h ▸ by decide)
      · exact hlo (h ▸ by decide)

theorem pctDecodeBytes_formEncode (bytes : Octets) :
    pctDecodeBytes (Text.asBytes (plusToSpace (bytes.flatMap formEncodeByte))) = bytes := by
  induction bytes with
  | nil => rfl
  | cons b rest ih =>
    rw [List.flatMap_cons, plusToSpace_append, Text.asBytes_append, decode_formEncodeByte, ih]

/-- What the reader relies on from the lossy decoder: it keeps what is text. -/
def KeepsText (fromUtf8Lossy : Octets → Str) : Prop := ∀ s, fromUtf8Lossy (Text.asBytes s) = s

variable {fromUtf8Lossy : Octets → Str}

theorem formDecode_formEncode (keeps : KeepsText fromUtf8Lossy) (value : Str) :
    formDecode fromUtf8Lossy (formEncode value) = value := by
  rw [formDecode, formEncode, pctDecodeBytes_formEncode, keeps]

/-- What is written holds none of the separators. -/
theorem notMem_formEncode {value : Str} {c : Char} (hc : c ∈ ['&', '=', '#', '?']) :
    c ∉ formEncode value := by
  intro hmem
  obtain ⟨b, _, hb⟩ := List.mem_flatMap.mp hmem
  have htable : ∀ d ∈ ['&', '=', '#', '?'], d ∈ RESERVED ∧ d ≠ '+' ∧ d ≠ '%' := by decide
  have hreserved := htable c hc
  rcases formEncodeByte_cases b with ⟨_, heq⟩ | ⟨hplain, heq⟩ | heq
  · rw [heq] at hb
    exact hreserved.2.1 (List.mem_singleton.mp hb)
  · rw [heq] at hb
    exact (isFormPlain_bounds hplain).2 (List.mem_singleton.mp hb ▸ hreserved.1)
  · rw [heq] at hb
    simp only [List.mem_cons, List.not_mem_nil, or_false] at hb
    rcases hb with h | h | h
    · exact hreserved.2.2 h
    · exact upperHex_reserved (b.toNat / 16) (by have := b.toNat_lt; omega) (h ▸ hreserved.1)
    · exact upperHex_reserved (b.toNat % 16) (Nat.mod_lt _ (by decide)) (h ▸ hreserved.1)

theorem formEncode_clean {value : Str} : ∀ c ∈ formEncode value, Clean c := by
  intro c hc
  constructor
  · rintro rfl
    exact notMem_formEncode (by decide) hc
  · rintro rfl
    exact notMem_formEncode (by decide) hc

/-- A pair that is appended to a query is read after those the query has. -/
theorem formParse_appendPair (keeps : KeepsText fromUtf8Lossy) (query : Str) (p : Str × Str) :
    formParse fromUtf8Lossy (appendPair query p) = formParse fromUtf8Lossy query ++ [p] := by
  have hpair : formParse fromUtf8Lossy (formPair p) = [p] := by
    rw [formParse, formPair,
      parameters_pair formEncode_clean fun h => (formEncode_clean _ h).1 rfl]
    simp [formDecode_formEncode keeps]
  unfold appendPair
  split
  next hempty =>
    rw [hempty, hpair]
    rfl
  next =>
    have happend : formParse fromUtf8Lossy (query ++ '&' :: formPair p) =
        formParse fromUtf8Lossy query ++ formParse fromUtf8Lossy (formPair p) := by
      rw [formParse, parameters_append, List.map_append]
      rfl
    rw [happend, hpair]

/-- Appended pairs come back in order. -/
theorem formParse_appendPairs (keeps : KeepsText fromUtf8Lossy) (query : Str)
    (pairs : List (Str × Str)) : formParse fromUtf8Lossy (pairs.foldl appendPair query) =
      formParse fromUtf8Lossy query ++ pairs := by
  induction pairs generalizing query with
  | nil => rw [List.foldl_nil, List.append_nil]
  | cons p rest ih =>
    rw [List.foldl_cons, ih, formParse_appendPair keeps, List.append_assoc]
    rfl

end Saml.Disco
