import Saml.Disco.Service

/-!
# What comes back from the discovery service

Requests and answers are appended to a query that is kept. Reading one back
finds the pairs of both, so what comes back depends on the parameters of the same
names that the query already has.
-/

namespace Saml.Disco

/-! ## Reading each parameter once -/

/-- The values a list of pairs has for a name. -/
def valuesOf (pairs : List (Str × Str)) (name : Str) : List Str :=
  (pairs.filter fun p => p.1 = name).map Prod.snd

theorem valuesOf_append (first second : List (Str × Str)) (name : Str) :
    valuesOf (first ++ second) name = valuesOf first name ++ valuesOf second name := by
  rw [valuesOf, List.filter_append, List.map_append]
  rfl

theorem valuesOf_cons (p : Str × Str) (rest : List (Str × Str)) (name : Str) :
    valuesOf (p :: rest) name =
      if p.1 = name then p.2 :: valuesOf rest name else valuesOf rest name := by
  unfold valuesOf
  by_cases h : p.1 = name <;> simp [h]

theorem ofName_eq_some_iff {name : Str} {parameter : Parameter} :
    Parameter.ofName name = some parameter ↔ name = parameter.name := by
  constructor
  · intro h
    rw [Parameter.ofName] at h
    have hfound := List.find?_some h
    exact (of_decide_eq_true hfound).symm
  · rintro rfl
    cases parameter <;> decide

theorem valuesOf_optionalPair (name : Str) (value : Option Str) (other : Str) :
    valuesOf (optionalPair name value) other = if name = other then value.toList else [] := by
  cases value with
  | none => simp [valuesOf, optionalPair]
  | some v => by_cases h : name = other <;> simp [valuesOf, optionalPair, h]

theorem toList_injective {α : Type} {x y : Option α} (h : x.toList = y.toList) : x = y := by
  cases x <;> cases y <;> simp_all

theorem exists_toList {α : Type} {l : List α} (h : l.length ≤ 1) :
    ∃ x : Option α, x.toList = l := by
  match l with
  | [] => exact ⟨none, rfl⟩
  | [a] => exact ⟨some a, rfl⟩
  | _ :: _ :: _ =>
    simp only [List.length_cons] at h
    omega

/-- What one pair does to the slots. -/
theorem fillSlot_eq_ok_iff {slots filled : Slots} {p : Str × Str} :
    fillSlot slots p = .ok filled ↔ ∀ parameter : Parameter, (filled parameter).toList =
      (slots parameter).toList ++ valuesOf [p] parameter.name := by
  have hvalues (parameter : Parameter) : valuesOf [p] parameter.name =
      if p.1 = parameter.name then [p.2] else [] := valuesOf_cons p [] parameter.name
  unfold fillSlot
  cases hname : Parameter.ofName p.1 with
  | none =>
    have hother (parameter : Parameter) : p.1 ≠ parameter.name := by
      intro heq
      rw [ofName_eq_some_iff.mpr heq] at hname
      cases hname
    simp only [hvalues, if_neg (hother _), List.append_nil, Except.ok.injEq]
    constructor
    · rintro rfl parameter
      rfl
    · intro h
      funext parameter
      exact (toList_injective (h parameter)).symm
  | some found =>
    have hfound := ofName_eq_some_iff.mp hname
    have hiff (parameter : Parameter) : p.1 = parameter.name ↔ parameter = found := by
      rw [← ofName_eq_some_iff, hname, Option.some.injEq, eq_comm]
    dsimp only
    simp only [hvalues, hiff]
    cases hslot : slots found with
    | some old =>
      simp only [Option.isSome_some, if_true, reduceCtorEq, false_iff, not_forall]
      refine ⟨found, ?_⟩
      rw [hslot, if_pos rfl]
      cases filled found <;> simp
    | none =>
      simp only [Option.isSome_none, Bool.false_eq_true, if_false, Except.ok.injEq]
      constructor
      · rintro rfl parameter
        by_cases h : parameter = found
        · subst h
          simp [hslot]
        · simp [h]
      · intro h
        funext parameter
        apply toList_injective
        rw [h parameter]
        by_cases hp : parameter = found
        · subst hp
          simp [hslot]
        · simp [hp]

/-- The slots after a query: each parameter has the one value it came with. -/
theorem foldlM_fillSlot {pairs : List (Str × Str)} {slots filled : Slots} :
    pairs.foldlM fillSlot slots = .ok filled ↔ ∀ parameter : Parameter,
      (filled parameter).toList = (slots parameter).toList ++ valuesOf pairs parameter.name := by
  induction pairs generalizing slots with
  | nil =>
    have hnil : valuesOf [] = fun _ => [] := rfl
    simp only [List.foldlM_nil, hnil, List.append_nil]
    constructor
    · intro h
      obtain rfl := Except.ok.inj h
      exact fun _ => rfl
    · intro h
      have heq : slots = filled := funext fun parameter => (toList_injective (h parameter)).symm
      rw [heq]
      rfl
  | cons p rest ih =>
    have hcons (name : Str) : valuesOf (p :: rest) name = valuesOf [p] name ++ valuesOf rest name :=
      valuesOf_append [p] rest name
    rw [List.foldlM_cons, bind_eq_ok_iff]
    simp only [fillSlot_eq_ok_iff, ih, hcons]
    constructor
    · rintro ⟨next, hnext, hrest⟩ parameter
      rw [hrest, hnext, List.append_assoc]
    · intro h
      have hfill : ∀ parameter : Parameter, ∃ value : Option Str, value.toList =
          (slots parameter).toList ++ valuesOf [p] parameter.name := by
        intro parameter
        apply exists_toList
        have hlength := congrArg List.length (h parameter)
        have hone : (filled parameter).toList.length ≤ 1 := by
          cases filled parameter <;> simp
        rw [← List.append_assoc, List.length_append] at hlength
        omega
      choose next hnext using hfill
      refine ⟨next, hnext, ?_⟩
      intro parameter
      rw [h, hnext, List.append_assoc]

/-- What the answer is read as: the one value of the parameter. -/
theorem foldlM_fillChoice (name : Str) (pairs : List (Str × Str)) (chosen : Option Str) :
    pairs.foldlM (fillChoice name) chosen =
      if (chosen.toList ++ valuesOf pairs name).length ≤ 1 then
        .ok (chosen.toList ++ valuesOf pairs name).head?
      else .error (.discoveryResponseMalformed "duplicate IdP entityID parameter") := by
  induction pairs generalizing chosen with
  | nil =>
    cases chosen with
    | none => rfl
    | some value => rfl
  | cons p rest ih =>
    have hstep : fillChoice name chosen p = if p.1 = name then
        if chosen.isSome then
          .error (.discoveryResponseMalformed "duplicate IdP entityID parameter")
        else .ok (some p.2)
      else .ok chosen := rfl
    rw [List.foldlM_cons, valuesOf_cons, hstep]
    by_cases hname : p.1 = name
    · rw [if_pos hname, if_pos hname]
      cases chosen with
      | none =>
        rw [Option.isSome_none, if_neg Bool.false_ne_true, ok_bind, ih]
        rfl
      | some value =>
        rw [Option.isSome_some, if_pos rfl, if_neg (by simp)]
        rfl
    · rw [if_neg hname, if_neg hname, ok_bind, ih]

/-! ## Answers -/

variable {pkg : UrlPackage}

/-- The query a URL keeps. -/
theorem query_withoutEmptyQuery (lawful : pkg.Lawful) (url : Url) :
    (withoutEmptyQuery pkg url).query.getD [] = url.query.getD [] := by
  unfold withoutEmptyQuery
  dsimp only
  split
  next hempty =>
    rw [lawful.query_dropFragment] at hempty
    rw [lawful.query_dropQuery, hempty]
    rfl
  next => rw [lawful.query_dropFragment]

/-- The values a URL of its own has for a parameter. -/
def carried (pkg : UrlPackage) (url : Url) (name : Str) : List Str :=
  valuesOf (pkg.formParse (url.query.getD [])) name

/-- Appended pairs are read behind those of the URL. -/
theorem valuesOf_appended (lawful : pkg.Lawful) (url : Url) (pairs : List (Str × Str))
    (name : Str) : valuesOf (pkg.formParse
        ((pkg.appendPairs (withoutEmptyQuery pkg url) pairs).query.getD [])) name =
      carried pkg url name ++ valuesOf pairs name := by
  obtain ⟨fromUtf8Lossy, keeps, hparse⟩ := lawful.formParse
  rw [lawful.query_appendPairs, Option.getD_some, query_withoutEmptyQuery lawful, hparse,
    formParse_appendPairs keeps, valuesOf_append, carried, hparse]

/-- What the answer to a choice is read as. -/
def answered (pkg : UrlPackage) (returnUrl : Url) (returnIdParam : Str)
    (choice : Option Str) : Result (Option Str) := do
  let url ← buildDiscoveryResponseUrl pkg returnUrl returnIdParam choice
  parseDiscoveryResponseQuery pkg (url.query.getD []) returnIdParam

theorem ensureSafeParamName_of_safe {name : Str} (h : SafeParamName name) :
    ensureSafeParamName name = .ok () := if_pos h

/-- Without a choice a parameter the return URL carries is read in its place. -/
theorem answered_none (lawful : pkg.Lawful) {name : Str} (safe : SafeParamName name)
    (returnUrl : Url) : answered pkg returnUrl name none =
      if (carried pkg returnUrl name).length ≤ 1 then
        .ok ((carried pkg returnUrl name).head?.filter (· ≠ []))
      else .error (.discoveryResponseMalformed "duplicate IdP entityID parameter") := by
  have hpairs : valuesOf (pkg.formParse ((withoutEmptyQuery pkg returnUrl).query.getD [])) name =
      carried pkg returnUrl name := by
    rw [query_withoutEmptyQuery lawful, carried]
  rw [answered, buildDiscoveryResponseUrl, ensureSafeParamName_of_safe safe, ok_bind]
  dsimp only
  rw [ok_bind, parseDiscoveryResponseQuery, ensureSafeParamName_of_safe safe, ok_bind,
    foldlM_fillChoice, Option.toList_none, List.nil_append, hpairs]
  split <;> rfl

/-- A choice comes back when the return URL has no such parameter of its own. -/
theorem answered_some (lawful : pkg.Lawful) {name : Str} (safe : SafeParamName name)
    (returnUrl : Url) {entityId : Str} (hne : entityId ≠ []) :
    answered pkg returnUrl name (some entityId) =
      if carried pkg returnUrl name = [] then .ok (some entityId)
      else .error (.discoveryResponseMalformed "duplicate IdP entityID parameter") := by
  have hvalue : valuesOf [(name, entityId)] name = [entityId] := by
    rw [valuesOf_cons, if_pos rfl]
    rfl
  rw [answered, buildDiscoveryResponseUrl, ensureSafeParamName_of_safe safe, ok_bind]
  dsimp only
  rw [if_neg hne, ok_bind, parseDiscoveryResponseQuery, ensureSafeParamName_of_safe safe, ok_bind,
    foldlM_fillChoice, Option.toList_none, List.nil_append, valuesOf_appended lawful, hvalue]
  cases carried pkg returnUrl name with
  | nil =>
    rw [List.nil_append, if_pos (by simp), if_pos rfl]
    simp [ok_bind, hne]
  | cons first rest =>
    rw [if_neg (by simp), if_neg (by simp)]
    rfl

/-! ## Requests -/

/-- What the service is asked for, with the defaults of the protocol. -/
def DiscoveryRequest.parsed (request : DiscoveryRequest) : ParsedDiscoveryRequest where
  spEntityId := request.spEntityId
  returnUrl := request.returnUrl
  returnIdParam := request.returnIdParam.getD DEFAULT_RETURN_ID_PARAM
  isPassive := request.isPassive

/-- What a request is read as. -/
def asked (pkg : UrlPackage) (discoveryService : Url) (request : DiscoveryRequest) :
    Result ParsedDiscoveryRequest := do
  let url ← buildDiscoveryRequestUrl pkg discoveryService request
  parseDiscoveryRequestQuery pkg (url.query.getD [])

theorem name_injective {first second : Parameter} : first.name = second.name ↔ first = second := by
  constructor
  · intro h
    have hfirst := ofName_eq_some_iff.mpr (rfl : first.name = first.name)
    rw [ofName_eq_some_iff.mpr h] at hfirst
    exact (Option.some.inj hfirst).symm
  · rintro rfl
    rfl

/-- The values an appended request has for each parameter. -/
theorem valuesOf_pairs (request : DiscoveryRequest) (parameter : Parameter) :
    valuesOf request.pairs parameter.name = match parameter with
      | .entityId => [request.spEntityId]
      | .returnUrl => request.returnUrl.toList
      | .returnIdParam => request.returnIdParam.toList
      | .policy => []
      | .isPassive => if request.isPassive then ["true"] else [] := by
  have hpairs : request.pairs =
      optionalPair Parameter.entityId.name (some request.spEntityId) ++
        optionalPair Parameter.returnUrl.name request.returnUrl ++
        optionalPair Parameter.returnIdParam.name request.returnIdParam ++
        optionalPair Parameter.isPassive.name
          (if request.isPassive then some ("true" : Str) else none) := rfl
  simp only [hpairs, valuesOf_append, valuesOf_optionalPair, name_injective]
  cases parameter with
  | isPassive => cases request.isPassive <;> rfl
  | _ => simp

/-- The spellings of a boolean. -/
def passiveSpellings : Bool → List Str
  | true => ["true", "1"]
  | false => ["false", "0"]

theorem parsePassive_some_iff {value : Str} {isPassive : Bool} :
    parsePassive (some value) = .ok isPassive ↔ value ∈ passiveSpellings isPassive := by
  have hdisjoint : ∀ v ∈ passiveSpellings false, v ∉ passiveSpellings true := by decide
  have htrue : (value = ("true" : Str) ∨ value = ("1" : Str)) ↔
      value ∈ passiveSpellings true := by
    simp [passiveSpellings]
  have hfalse : (value = ("false" : Str) ∨ value = ("0" : Str)) ↔
      value ∈ passiveSpellings false := by
    simp [passiveSpellings]
  unfold parsePassive
  dsimp only
  simp only [htrue, hfalse]
  by_cases hspelled : value ∈ passiveSpellings true
  · rw [if_pos hspelled]
    cases isPassive with
    | true => exact iff_of_true rfl hspelled
    | false => exact iff_of_false (fun h => by cases h) fun h => hdisjoint value h hspelled
  · rw [if_neg hspelled]
    by_cases hother : value ∈ passiveSpellings false
    · rw [if_pos hother]
      cases isPassive with
      | true => exact iff_of_false (fun h => by cases h) hspelled
      | false => exact iff_of_true rfl hother
    · rw [if_neg hother]
      cases isPassive with
      | true => exact iff_of_false (fun h => by cases h) hspelled
      | false => exact iff_of_false (fun h => by cases h) hother

theorem parsePassive_eq_ok_iff {value : Option Str} {isPassive : Bool} :
    parsePassive value = .ok isPassive ↔
      (value = none ∧ isPassive = false) ∨ ∃ v ∈ passiveSpellings isPassive, value = some v := by
  cases value with
  | none => cases isPassive <;> simp [parsePassive]
  | some v => simp [parsePassive_some_iff]

/-- What the collected values are read as. -/
theorem readSlots_eq_ok_iff {slots : Slots} {parsed : ParsedDiscoveryRequest} :
    readSlots slots = .ok parsed ↔
      (slots .entityId = some parsed.spEntityId ∧ parsed.spEntityId ≠ []) ∧
      (slots .policy = none ∨ slots .policy = some DISCOVERY_POLICY_SINGLE) ∧
      slots .returnUrl = parsed.returnUrl ∧
      parseReturnIdParam (slots .returnIdParam) = .ok parsed.returnIdParam ∧
      parsePassive (slots .isPassive) = .ok parsed.isPassive := by
  have hpolicy : (slots .policy).any (· ≠ DISCOVERY_POLICY_SINGLE) = true ↔
      ¬ (slots .policy = none ∨ slots .policy = some DISCOVERY_POLICY_SINGLE) := by
    cases slots .policy <;> simp
  have hentity (e : Str) : (slots .entityId).filter (· ≠ []) = some e ↔
      slots .entityId = some e ∧ e ≠ [] := by
    rw [Option.filter_eq_some_iff]
    simp
  rcases parsed with ⟨spEntityId, returnUrl, returnIdParam, isPassive⟩
  dsimp only
  unfold readSlots
  rw [bind_eq_ok_iff]
  simp only [okOr_eq_ok_iff, hentity]
  constructor
  · rintro ⟨e, he, h⟩
    obtain ⟨hnot, h⟩ := ite_error_eq_ok_iff.mp h
    obtain ⟨param, hparam, h⟩ := bind_eq_ok_iff.mp h
    obtain ⟨passive, hpassive, h⟩ := bind_eq_ok_iff.mp h
    obtain ⟨rfl, rfl, rfl, rfl⟩ := (ParsedDiscoveryRequest.mk.injEq ..).mp (Except.ok.inj h)
    exact ⟨he, not_not.mp fun hp => hnot (hpolicy.mpr hp), rfl, hparam, hpassive⟩
  · rintro ⟨he, hp, hreturn, hparam, hpassive⟩
    refine ⟨spEntityId, he, ?_⟩
    rw [if_neg (fun h => hpolicy.mp h hp), hreturn, bind_of_ok hparam, bind_of_ok hpassive]

theorem parseReturnIdParam_eq_ok_iff {value : Option Str} {param : Str} :
    parseReturnIdParam value = .ok param ↔
      (value = none ∧ param = DEFAULT_RETURN_ID_PARAM) ∨
        (value = some param ∧ SafeParamName param) := by
  cases value with
  | none => simp [parseReturnIdParam, eq_comm]
  | some v =>
    by_cases hsafe : SafeParamName v
    · rw [parseReturnIdParam, ensureSafeParamName_of_safe hsafe, ok_bind]
      constructor
      · intro h
        obtain rfl := Except.ok.inj h
        exact .inr ⟨rfl, hsafe⟩
      · rintro (⟨h, _⟩ | ⟨h, _⟩)
        · cases h
        · rw [Option.some.inj h]
    · rw [parseReturnIdParam, ensureSafeParamName, if_neg hsafe]
      constructor
      · intro h
        cases h
      · rintro (⟨h, _⟩ | ⟨h, hparam⟩)
        · cases h
        · exact absurd (Option.some.inj h ▸ hparam) hsafe

/-- A list of at most one entry is its first. -/
theorem toList_head? {α : Type} {l : List α} (h : l.length ≤ 1) : l.head?.toList = l := by
  obtain ⟨x, rfl⟩ := exists_toList h
  cases x <;> rfl

/-- The parameters of the service URL do not change what a request is read as:
it has none of the parameters that the request brings, and its other ones say
what the request leaves to the defaults. -/
structure RequestClear (pkg : UrlPackage) (discoveryService : Url) (request : DiscoveryRequest) :
    Prop where
  entityId : carried pkg discoveryService Parameter.entityId.name = []
  returnUrl : carried pkg discoveryService Parameter.returnUrl.name = []
  returnIdParam : carried pkg discoveryService Parameter.returnIdParam.name = [] ∨
    request.returnIdParam = none ∧
      carried pkg discoveryService Parameter.returnIdParam.name = [DEFAULT_RETURN_ID_PARAM]
  policy : carried pkg discoveryService Parameter.policy.name = [] ∨
    carried pkg discoveryService Parameter.policy.name = [DISCOVERY_POLICY_SINGLE]
  isPassive : carried pkg discoveryService Parameter.isPassive.name = [] ∨
    request.isPassive = false ∧ ∃ v ∈ passiveSpellings false,
      carried pkg discoveryService Parameter.isPassive.name = [v]

/-- What is read back from the values of the service URL and of the request. -/
theorem asked_eq_ok_iff_slots (lawful : pkg.Lawful) (discoveryService : Url)
    {request : DiscoveryRequest} (named : request.spEntityId ≠ [])
    (safe : ∀ param, request.returnIdParam = some param → SafeParamName param)
    {parsed : ParsedDiscoveryRequest} :
    asked pkg discoveryService request = .ok parsed ↔
      (∀ parameter : Parameter, (carried pkg discoveryService parameter.name ++
        valuesOf request.pairs parameter.name).length ≤ 1) ∧
      readSlots (fun parameter => (carried pkg discoveryService parameter.name ++
        valuesOf request.pairs parameter.name).head?) = .ok parsed := by
  have hsafe : request.returnIdParam.elim (.ok ()) ensureSafeParamName = .ok () := by
    cases hparam : request.returnIdParam with
    | none => rfl
    | some param => exact ensureSafeParamName_of_safe (safe param hparam)
  have hbuild : buildDiscoveryRequestUrl pkg discoveryService request =
      .ok (pkg.appendPairs (withoutEmptyQuery pkg discoveryService) request.pairs) := by
    rw [buildDiscoveryRequestUrl, if_neg named, bind_of_ok hsafe]
  rw [asked, bind_of_ok hbuild, parseDiscoveryRequestQuery, bind_eq_ok_iff]
  simp only [foldlM_fillSlot, Option.toList_none, List.nil_append, valuesOf_appended lawful]
  constructor
  · rintro ⟨slots, hslots, hread⟩
    have hlength (parameter : Parameter) : (carried pkg discoveryService parameter.name ++
        valuesOf request.pairs parameter.name).length ≤ 1 := by
      rw [← hslots]
      cases slots parameter <;> simp
    refine ⟨hlength, ?_⟩
    have hsame : slots = fun parameter => (carried pkg discoveryService parameter.name ++
        valuesOf request.pairs parameter.name).head? := by
      funext parameter
      apply toList_injective
      rw [hslots, toList_head? (hlength parameter)]
    rw [← hsame]
    exact hread
  · rintro ⟨hlength, hread⟩
    exact ⟨_, fun parameter => toList_head? (hlength parameter), hread⟩

theorem eq_nil_of_length {α : Type} {l : List α} {x : Option α} (h : (l ++ x.toList).length ≤ 1)
    (hx : (l ++ x.toList).head? = x) : l = [] := by
  cases x with
  | none => simpa using hx
  | some a =>
    rw [Option.toList_some, List.length_append, List.length_singleton] at h
    exact List.length_eq_zero_iff.mp (by omega)

theorem eq_singleton_of_head? {α : Type} {l : List α} (h : l.length ≤ 1) {a : α}
    (ha : l.head? = some a) : l = [a] := by
  rw [← toList_head? h, ha]
  rfl

/-- A request comes back as it was made exactly when the service URL is clear. -/
theorem asked_eq_ok_iff (lawful : pkg.Lawful) (discoveryService : Url)
    {request : DiscoveryRequest} (named : request.spEntityId ≠ [])
    (safe : ∀ param, request.returnIdParam = some param → SafeParamName param) :
    asked pkg discoveryService request = .ok request.parsed ↔
      RequestClear pkg discoveryService request := by
  rw [asked_eq_ok_iff_slots lawful discoveryService named safe, readSlots_eq_ok_iff,
    parseReturnIdParam_eq_ok_iff, parsePassive_eq_ok_iff]
  simp only [valuesOf_pairs]
  constructor
  · rintro ⟨hlength, ⟨hentity, -⟩, hpolicy, hreturn, hparam, hpassive⟩
    constructor
    · have hone := hlength .entityId
      dsimp only at hone
      rw [List.length_append, List.length_singleton] at hone
      exact List.length_eq_zero_iff.mp (by omega)
    · exact eq_nil_of_length (hlength .returnUrl) hreturn
    · have hone := hlength .returnIdParam
      dsimp only at hone hparam
      cases hown : request.returnIdParam with
      | none =>
        rw [hown, Option.toList_none, List.append_nil] at hone hparam
        rcases hparam with ⟨hnone, _⟩ | ⟨hsome, _⟩
        · exact .inl (List.head?_eq_none_iff.mp hnone)
        · have hdefault : request.parsed.returnIdParam = DEFAULT_RETURN_ID_PARAM := by
            rw [DiscoveryRequest.parsed, hown]
            rfl
          rw [hdefault] at hsome
          exact .inr ⟨rfl, eq_singleton_of_head? hone hsome⟩
      | some param =>
        rw [hown, Option.toList_some, List.length_append, List.length_singleton] at hone
        exact .inl (List.length_eq_zero_iff.mp (by omega))
    · have hone := hlength .policy
      dsimp only at hone hpolicy
      rw [List.append_nil] at hone hpolicy
      rcases hpolicy with hnone | hsome
      · exact .inl (List.head?_eq_none_iff.mp hnone)
      · exact .inr (eq_singleton_of_head? hone hsome)
    · have hone := hlength .isPassive
      have hflag : request.parsed.isPassive = request.isPassive := rfl
      dsimp only at hone hpassive
      rw [hflag] at hpassive
      cases hown : request.isPassive with
      | true =>
        rw [hown, if_pos rfl, List.length_append, List.length_singleton] at hone
        exact .inl (List.length_eq_zero_iff.mp (by omega))
      | false =>
        rw [hown] at hone hpassive
        rw [if_neg Bool.false_ne_true, List.append_nil] at hone hpassive
        rcases hpassive with ⟨hnone, _⟩ | ⟨v, hv, hsome⟩
        · exact .inl (List.head?_eq_none_iff.mp hnone)
        · exact .inr ⟨rfl, v, hv, eq_singleton_of_head? hone hsome⟩
  · intro h
    refine ⟨?_, ⟨?_, named⟩, ?_, ?_, ?_, ?_⟩
    · intro parameter
      cases parameter with
      | entityId => simp [h.entityId]
      | returnUrl => cases hown : request.returnUrl <;> simp [h.returnUrl]
      | returnIdParam =>
        rcases h.returnIdParam with hnil | ⟨hown, hone⟩
        · cases hown : request.returnIdParam <;> simp [hnil]
        · simp [hown, hone]
      | policy => rcases h.policy with hnil | hone <;> simp [*]
      | isPassive =>
        rcases h.isPassive with hnil | ⟨hown, v, _, hone⟩
        · cases hown : request.isPassive <;> simp [hnil]
        · simp [hown, hone]
    · simp [h.entityId, DiscoveryRequest.parsed]
    · rcases h.policy with hnil | hone <;> simp [*]
    · cases hown : request.returnUrl <;> simp [h.returnUrl, DiscoveryRequest.parsed, hown]
    · rcases h.returnIdParam with hnil | ⟨hown, hone⟩
      · cases hown : request.returnIdParam with
        | none => exact .inl (by simp [hnil, DiscoveryRequest.parsed, hown])
        | some param => exact .inr (by simp [hnil, DiscoveryRequest.parsed, hown, safe param hown])
      · have hsafe : SafeParamName DEFAULT_RETURN_ID_PARAM := by decide
        exact .inr (by simp [hone, DiscoveryRequest.parsed, hown, hsafe])
    · rcases h.isPassive with hnil | ⟨hown, v, hv, hone⟩
      · cases hown : request.isPassive with
        | true => exact .inr ⟨"true", by simp [passiveSpellings, DiscoveryRequest.parsed, hown],
            by simp [hnil]⟩
        | false => exact .inl (by simp [hnil, DiscoveryRequest.parsed, hown])
      · exact .inr ⟨v, by simpa [DiscoveryRequest.parsed, hown] using hv, by simp [hone, hown]⟩

/-- The answer of a discovery service is read as its choice when the accepted
return URL has no parameter of that name, and as a duplicate when it has one and
there is a choice; a request is read as it was made exactly when the parameters
of the service URL leave room for it. -/
theorem discovery_round_trip (lawful : pkg.Lawful) :
    (∀ endpoints request returnUrl returnIdParam choice,
      validateDiscoveryReturnUrl pkg endpoints request = .ok returnUrl →
      SafeParamName returnIdParam → choice ≠ some [] →
      carried pkg returnUrl returnIdParam = [] →
        answered pkg returnUrl returnIdParam choice = .ok choice) ∧
    (∀ endpoints request returnUrl returnIdParam entityId,
      validateDiscoveryReturnUrl pkg endpoints request = .ok returnUrl →
      SafeParamName returnIdParam → entityId ≠ [] →
      carried pkg returnUrl returnIdParam ≠ [] →
        answered pkg returnUrl returnIdParam (some entityId) =
          .error (.discoveryResponseMalformed "duplicate IdP entityID parameter")) ∧
    ∀ (discoveryService : Url) (request : DiscoveryRequest), request.spEntityId ≠ [] →
      (∀ param, request.returnIdParam = some param → SafeParamName param) →
        (asked pkg discoveryService request = .ok request.parsed ↔
          RequestClear pkg discoveryService request) := by
  refine ⟨?_, ?_, ?_⟩
  · intro endpoints request returnUrl name choice _ safe hne hclear
    cases choice with
    | none =>
      rw [answered_none lawful safe, hclear, if_pos (by simp)]
      rfl
    | some entityId =>
      have hentity : entityId ≠ [] := fun h => hne (congrArg some h)
      rw [answered_some lawful safe returnUrl hentity, if_pos hclear]
  · intro endpoints request returnUrl name entityId _ safe hne hleft
    rw [answered_some lawful safe returnUrl hne, if_neg hleft]
  · intro discoveryService request named safe
    exact asked_eq_ok_iff lawful discoveryService named safe

/-! ## URLs as texts -/

namespace Written

/-- The text before the fragment. -/
def body (url : Url) : Str := url.asStr.takeWhile (· ≠ '#')

/-- The fragment with its sign. -/
def tail (url : Url) : Str := url.asStr.dropWhile (· ≠ '#')

/-- A URL with another query. -/
def withQuery (url : Url) (query : Option Str) : Url :=
  ⟨(body url).takeWhile (· ≠ '?') ++ query.elim [] ('?' :: ·) ++ tail url⟩

/-- The host and what follows it in an `https` URL. -/
def rest (url : Url) : Str := (body url).drop 8

/-- URLs with the scheme `https` and no userinfo, taken as they are written. -/
def urls : UrlPackage where
  parse s := if ("https://" : Str) <+: s then some ⟨s⟩ else none
  fragment url := if '#' ∈ url.asStr then some (tail url).tail else none
  username _ := []
  password _ := none
  scheme url := url.asStr.takeWhile (· ≠ ':')
  hostStr url := some ((rest url).takeWhile fun c => c ≠ '/' && c ≠ '?')
  portOrKnownDefault _ := some 443
  path url := ((rest url).dropWhile (· ≠ '/')).takeWhile (· ≠ '?')
  dropFragment url := ⟨body url⟩
  dropQuery url := withQuery url none
  appendPairs url pairs := withQuery url (some (pairs.foldl appendPair (url.query.getD [])))
  formParse := Disco.formParse fun octets => (Text.fromUtf8 octets).getD []

theorem keepsText : KeepsText fun octets => (Text.fromUtf8 octets).getD [] := by
  intro s
  dsimp only
  rw [Text.fromUtf8_asBytes]
  rfl

theorem takeWhile_tail (url : Url) : (tail url).takeWhile (· ≠ '#') = [] := by
  unfold tail
  cases hdrop : url.asStr.dropWhile (· ≠ '#') with
  | nil => rfl
  | cons c rest =>
    have hhead := List.head?_dropWhile_not (· ≠ '#') url.asStr
    rw [hdrop] at hhead
    rw [List.takeWhile_cons_of_neg]
    simpa using hhead

theorem query_withQuery (url : Url) {query : Option Str} (h : ∀ q, query = some q → '#' ∉ q) :
    (withQuery url query).query = query := by
  have hfront : '#' ∉ (body url).takeWhile (· ≠ '?') := fun hmem =>
    Redirect.notMem_takeWhile url.asStr '#' ((List.takeWhile_sublist _).subset hmem)
  have hquestion : '?' ∉ (body url).takeWhile (· ≠ '?') := Redirect.notMem_takeWhile _ _
  have hbefore : '#' ∉ (body url).takeWhile (· ≠ '?') ++ query.elim [] ('?' :: ·) := by
    cases query with
    | none => simpa using hfront
    | some q => simpa [h q rfl] using hfront
  have htake : (withQuery url query).asStr.takeWhile (· ≠ '#') =
      (body url).takeWhile (· ≠ '?') ++ query.elim [] ('?' :: ·) := by
    have hall : ∀ c ∈ (body url).takeWhile (· ≠ '?') ++ query.elim [] ('?' :: ·),
        decide (c ≠ '#') = true := by
      rintro c hc
      rw [decide_eq_true_eq]
      rintro rfl
      exact hbefore hc
    rw [withQuery, List.takeWhile_append_of_pos hall, takeWhile_tail, List.append_nil]
  unfold Url.query
  dsimp only
  rw [htake]
  cases query with
  | none => rw [if_neg (by simpa using hquestion)]
  | some q =>
    rw [Option.elim_some, if_pos (by simp), (Redirect.cut_at hquestion).2]
    rfl

theorem hash_notMem_query {url : Url} : '#' ∉ url.query.getD [] := by
  unfold Url.query
  dsimp only
  split
  · intro hmem
    rw [Option.getD_some] at hmem
    exact Redirect.notMem_takeWhile url.asStr '#'
      ((List.dropWhile_sublist _).subset (List.mem_of_mem_tail hmem))
  · exact List.not_mem_nil

theorem hash_notMem_appendPairs {query : Str} (h : '#' ∉ query) (pairs : List (Str × Str)) :
    '#' ∉ pairs.foldl appendPair query := by
  induction pairs generalizing query with
  | nil => exact h
  | cons p rest ih =>
    apply ih
    have hpair : '#' ∉ formPair p := by
      rw [formPair, List.mem_append, List.mem_cons]
      rintro (hmem | heq | hmem)
      · exact notMem_formEncode (by decide) hmem
      · exact absurd heq (by decide)
      · exact notMem_formEncode (by decide) hmem
    unfold appendPair
    split
    · exact hpair
    · rw [List.mem_append, List.mem_cons]
      rintro (hmem | heq | hmem)
      · exact h hmem
      · exact absurd heq (by decide)
      · exact hpair hmem

theorem lawful : urls.Lawful where
  query_dropFragment := by
    intro url
    unfold Url.query
    dsimp only [urls, body]
    rw [Redirect.takeWhile_of_notMem (Redirect.notMem_takeWhile _ _)]
  query_dropQuery url := query_withQuery url nofun
  query_appendPairs := by
    intro url pairs
    apply query_withQuery
    intro q hq
    obtain rfl := Option.some.inj hq
    exact hash_notMem_appendPairs hash_notMem_query pairs
  formParse := ⟨_, keepsText, fun _ => rfl⟩

/-- The values of a URL whose query is made of written pairs. -/
theorem carried_of_query {url : Url} (pairs : List (Str × Str))
    (h : url.query = some (pairs.foldl appendPair [])) (name : Str) :
    carried urls url name = valuesOf pairs name := by
  have hparse : urls.formParse (pairs.foldl appendPair []) = pairs :=
    formParse_appendPairs keepsText [] pairs
  rw [carried, h, Option.getD_some, hparse]

/-! ## Sample URLs -/

/-- The endpoint of a service provider. -/
def endpoint : DiscoveryResponseEndpoint := ⟨"https://sp.example.com/disco", 0, true⟩

/-- A request whose return URL has the given query. -/
def returning (query : Str) : ParsedDiscoveryRequest where
  spEntityId := "https://sp.example.com/saml"
  returnUrl := some ("https://sp.example.com/disco?" ++ query)
  returnIdParam := DEFAULT_RETURN_ID_PARAM
  isPassive := true

/-- A request without a return URL. -/
def question : DiscoveryRequest := ⟨"https://sp.example.com/saml", none, none, false⟩

theorem question_safe :
    ∀ param, question.returnIdParam = some param → SafeParamName param := by
  intro param h
  cases h

end Written

/-- A leftover parameter of the return URL is read as the choice of a service that
made none, and clashes with the choice of one that made one; a parameter of the
service URL clashes with that of the request. -/
theorem leftover_parameter :
    (∃ returnUrl, validateDiscoveryReturnUrl Written.urls [Written.endpoint]
        (Written.returning "entityID=other") = .ok returnUrl ∧
      answered Written.urls returnUrl "entityID" none = .ok (some "other") ∧
      answered Written.urls returnUrl "entityID" (some "chosen") =
        .error (.discoveryResponseMalformed "duplicate IdP entityID parameter")) ∧
    asked Written.urls ⟨"https://ds.example.org/?entityID=other"⟩ Written.question ≠
      .ok Written.question.parsed := by
  have safe : SafeParamName "entityID" := by decide
  have hcarried : carried Written.urls ⟨"https://sp.example.com/disco?entityID=other"⟩
      "entityID" = ["other"] :=
    Written.carried_of_query [("entityID", "other")] (by decide +kernel) "entityID"
  refine ⟨⟨⟨"https://sp.example.com/disco?entityID=other"⟩, by decide +kernel, ?_, ?_⟩, ?_⟩
  · rw [answered_none Written.lawful safe, hcarried]
    rfl
  · rw [answered_some Written.lawful safe _ (by decide), hcarried]
    rfl
  · intro h
    have hnamed : Written.question.spEntityId ≠ [] := by decide
    have hclear := (asked_eq_ok_iff Written.lawful _ hnamed Written.question_safe).mp h
    have hother : carried Written.urls ⟨"https://ds.example.org/?entityID=other"⟩ "entityID" =
        ["other"] :=
      Written.carried_of_query [("entityID", "other")] (by decide +kernel) "entityID"
    exact absurd (hother.symm.trans hclear.entityId) (List.cons_ne_nil _ _)

theorem discovery_round_trip_written :
    answered Written.urls ⟨"https://sp.example.com/disco?state=abc"⟩ "entityID"
        (some "https://idp.example.com/saml") = .ok (some "https://idp.example.com/saml") ∧
      answered Written.urls ⟨"https://sp.example.com/disco?entityID=other"⟩ "entityID"
        (some "chosen") =
          .error (.discoveryResponseMalformed "duplicate IdP entityID parameter") ∧
      asked Written.urls ⟨"https://ds.example.org/?tenant=blue"⟩ Written.question =
        .ok Written.question.parsed := by
  obtain ⟨hclear, hleft, hasked⟩ := discovery_round_trip Written.lawful
  have safe : SafeParamName "entityID" := by decide
  have hstate : carried Written.urls ⟨"https://sp.example.com/disco?state=abc"⟩ "entityID" = [] :=
    Written.carried_of_query [("state", "abc")] (by decide +kernel) "entityID"
  have hother : carried Written.urls ⟨"https://sp.example.com/disco?entityID=other"⟩
      "entityID" = ["other"] :=
    Written.carried_of_query [("entityID", "other")] (by decide +kernel) "entityID"
  have htenant (parameter : Parameter) :
      carried Written.urls ⟨"https://ds.example.org/?tenant=blue"⟩ parameter.name = [] := by
    rw [Written.carried_of_query [("tenant", "blue")] (by decide +kernel)]
    cases parameter <;> decide
  refine ⟨?_, ?_, ?_⟩
  · exact hclear [Written.endpoint] (Written.returning "state=abc") _ _ _ (by decide +kernel) safe
      (by decide) hstate
  · apply hleft [Written.endpoint] (Written.returning "entityID=other") _ _ _ (by decide +kernel)
      safe (by decide)
    rw [hother]
    exact List.cons_ne_nil _ _
  · exact (hasked _ Written.question (by decide) Written.question_safe).mpr
      ⟨htenant _, htenant _, .inl (htenant _), .inl (htenant _), .inl (htenant _)⟩

end Saml.Disco
