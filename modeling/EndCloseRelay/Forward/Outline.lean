import EndCloseRelay.Forward.Allowlist

/-!
# What a mapping tells of the values it reads

Payloads of one outline have the same keys, lengths and types, and differ in
scalars only.  What a reference finds in them has one outline too, so that two
such mappings differ in what they throw only where an amount or a date is
refused and quoted.
-/

namespace EndCloseRelay

open Js

/-- Results with one image are one error, or values with one image. -/
theorem cases_of_map_eq {ε α β : Type} {f : α → β} {r r' : Except ε α} (same : r.map f = r'.map f) :
    (∃ e, r = .error e ∧ r' = .error e) ∨ ∃ a a', r = .ok a ∧ r' = .ok a' ∧ f a = f a' := by
  rcases r with e | a <;> rcases r' with e' | a'
  · exact .inl ⟨e, rfl, congrArg Except.error (Except.error.inj same).symm⟩
  · cases same
  · cases same
  · exact .inr ⟨a, a', rfl, rfl, Except.ok.inj same⟩

/-! ## Outlines -/

namespace Json

mutual

/-- A value with every scalar blanked. -/
def outline : Json → Json
  | null => null
  | bool _ => bool false
  | num _ => num { text := "0" }
  | str _ => str ""
  | arr items => arr (outlineItems items)
  | obj entries => obj (outlineEntries entries)
  | inherited member => inherited member

/-- The outlines of the elements of an array. -/
def outlineItems : List Json → List Json
  | [] => []
  | item :: items => outline item :: outlineItems items

/-- The outlines of the members of an object. -/
def outlineEntries : List (String × Json) → List (String × Json)
  | [] => []
  | (key, value) :: entries => (key, outline value) :: outlineEntries entries

end

theorem outlineItems_eq_map (items : List Json) : outlineItems items = items.map outline := by
  induction items with
  | nil => rfl
  | cons item items ih => rw [outlineItems, ih, List.map_cons]

theorem outlineEntries_eq_map (entries : List (String × Json)) :
    outlineEntries entries = entries.map fun entry => (entry.1, entry.2.outline) := by
  induction entries with
  | nil => rfl
  | cons entry entries ih => rw [outlineEntries, ih, List.map_cons]

theorem isObject_outline (value : Json) : value.outline.isObject = value.isObject := by
  cases value <;> rfl

theorem values_outline (value : Json) : value.outline.values = value.values.map outline := by
  cases value with
  | arr items => exact outlineItems_eq_map items
  | obj entries =>
    show (outlineEntries entries).map Prod.snd = (entries.map Prod.snd).map outline
    rw [outlineEntries_eq_map, List.map_map, List.map_map]
    rfl
  | _ => rfl

theorem prototypeMember_outline (key : String) :
    (prototypeMember key).map outline = prototypeMember key := by
  unfold prototypeMember
  split
  · rfl
  · split <;> rfl

theorem child_outline (value : Json) (key : String) :
    value.outline.child key = (value.child key).map outline := by
  cases value with
  | arr items =>
    show (arrayIndex key).bind ((outlineItems items)[·]?) = _
    rw [outlineItems_eq_map]
    show _ = ((arrayIndex key).bind (items[·]?)).map outline
    cases arrayIndex key with
    | none => rfl
    | some i => exact List.getElem?_map
  | obj entries =>
    show ((outlineEntries entries).lookup key).or _ = ((entries.lookup key).or _).map outline
    have found : (outlineEntries entries).lookup key = (entries.lookup key).map outline := by
      induction entries with
      | nil => rfl
      | cons entry entries ih =>
        obtain ⟨name, value⟩ := entry
        rw [outlineEntries, List.lookup_cons, List.lookup_cons, ih]
        cases key == name <;> rfl
    rw [found]
    cases entries.lookup key with
    | none => exact (prototypeMember_outline key).symm
    | some value => rfl
  | inherited member =>
    cases member with
    | function name => rfl
    | objectPrototype =>
      show (if key = "__proto__" then some null else prototypeMember key) =
        (if key = "__proto__" then some null else prototypeMember key).map outline
      split
      · rfl
      · exact (prototypeMember_outline key).symm
  | _ => rfl

theorem getSegments_outline (segs : List String) (value : Json) :
    getSegments segs value.outline = (getSegments segs value).map outline := by
  induction segs generalizing value with
  | nil => rfl
  | cons head rest ih =>
    unfold getSegments
    rw [isObject_outline]
    split
    · rfl
    · split
      · rw [values_outline, List.filterMap_map, Option.map_some, outline, outlineItems_eq_map,
          List.map_filterMap]
        exact congrArg (fun f => some (arr (value.values.filterMap f))) (funext ih)
      · rw [child_outline]
        cases value.child head with
        | none => rfl
        | some child => exact ih child

end Json

theorem getAtPath_outline (payload : Json) (path : String) :
    getAtPath payload.outline path = (getAtPath payload path).map Json.outline :=
  Json.getSegments_outline _ _

/-- A path finds values of one outline, or nothing, in payloads of one outline. -/
theorem getAtPath_alike {payload payload' : Json} (same : payload.outline = payload'.outline)
    (path : String) :
    (getAtPath payload path = none ∧ getAtPath payload' path = none) ∨
      ∃ value value', getAtPath payload path = some value ∧ getAtPath payload' path = some value' ∧
        value.outline = value'.outline := by
  have found := getAtPath_outline payload path
  rw [same, getAtPath_outline payload' path] at found
  rcases here : getAtPath payload path with _ | value <;>
    rcases there : getAtPath payload' path with _ | value'
  · exact .inl ⟨rfl, rfl⟩
  · rw [here, there] at found
    cases found
  · rw [here, there] at found
    cases found
  · rw [here, there] at found
    exact .inr ⟨value, value', rfl, rfl, (Option.some.inj found).symm⟩

/-! ## Transforms -/

mutual

theorem outline_applyText (f : String → String) (value : Json) :
    (applyText f value).outline = value.outline := by
  cases value with
  | arr items => exact congrArg Json.arr (outlineItems_applyTextItems f items)
  | _ => rfl

theorem outlineItems_applyTextItems (f : String → String) (items : List Json) :
    Json.outlineItems (applyTextItems f items) = Json.outlineItems items := by
  cases items with
  | nil => rfl
  | cons item items =>
    simp only [applyTextItems, Json.outlineItems, outline_applyText f item,
      outlineItems_applyTextItems f items]

end

/-- Whether hashing fails, and how, is told by the outline. -/
theorem hashValue_outline (rt : Runtime) (maskingKey : Bytes) (value : Json) :
    (hashValue rt maskingKey value).map (fun _ => ()) =
      (hashValue rt maskingKey value.outline).map fun _ => () := by
  cases value with
  | inherited member => rfl
  | _ => rfl

theorem applyTransform_outline (rt : Runtime) (maskingKey : Bytes) {value value' : Json}
    (same : value.outline = value'.outline) (name : TransformName) :
    (applyTransform rt maskingKey value name).map Json.outline =
      (applyTransform rt maskingKey value' name).map Json.outline := by
  cases name with
  | hash =>
    have hashed := hashValue_outline rt maskingKey value
    rw [same, ← hashValue_outline rt maskingKey value'] at hashed
    unfold applyTransform
    rcases cases_of_map_eq hashed with ⟨e, here, there⟩ | ⟨text, text', here, there, -⟩
    · rw [here, there]
    · rw [here, there]
      rfl
  | trim =>
    show Except.ok (applyText trim value).outline = Except.ok (applyText trim value').outline
    rw [outline_applyText, outline_applyText, same]
  | lowercase =>
    show Except.ok (applyText rt.toLowerCase value).outline =
      Except.ok (applyText rt.toLowerCase value').outline
    rw [outline_applyText, outline_applyText, same]

/-- Two readings find values of one outline, or nothing, or fail alike. -/
def ReadAlike (read read' : Except RelayError (Option Json)) : Prop :=
  read.map (Option.map Json.outline) = read'.map (Option.map Json.outline)

/-- Two readers find values of one outline. -/
def ReadersAlike (read read' : Reader) : Prop := ∀ ref, ReadAlike (read ref) (read' ref)

theorem ReadAlike.cases {read read' : Except RelayError (Option Json)} (alike : ReadAlike read read') :
    (∃ e, read = .error e ∧ read' = .error e) ∨ (read = .ok none ∧ read' = .ok none) ∨
      ∃ value value', read = .ok (some value) ∧ read' = .ok (some value') ∧
        value.outline = value'.outline := by
  rcases cases_of_map_eq alike with ⟨e, here, there⟩ | ⟨found, found', here, there, same⟩
  · exact .inl ⟨e, here, there⟩
  · rcases found with _ | value <;> rcases found' with _ | value'
    · exact .inr (.inl ⟨here, there⟩)
    · cases same
    · cases same
    · exact .inr (.inr ⟨value, value', here, there, Option.some.inj same⟩)

/-- References find values of one outline in payloads of one outline. -/
theorem resolve_alike (rt : Runtime) (maskingKey : Bytes) {payload payload' : Json}
    (same : payload.outline = payload'.outline) :
    ReadersAlike (resolve rt maskingKey payload) (resolve rt maskingKey payload') := by
  intro ref
  have found := getAtPath_alike same (refSource ref)
  have transformed : ∀ (names : List TransformName) (value value' : Json),
      value.outline = value'.outline →
        (names.foldlM (applyTransform rt maskingKey) value).map Json.outline =
          (names.foldlM (applyTransform rt maskingKey) value').map Json.outline := by
    intro names
    induction names with
    | nil => exact fun value value' same => congrArg Except.ok same
    | cons name names ih =>
      intro value value' same
      rw [List.foldlM_cons, List.foldlM_cons]
      rcases cases_of_map_eq (applyTransform_outline rt maskingKey same name) with
        ⟨e, here, there⟩ | ⟨next, next', here, there, same⟩
      · rw [here, there]
      · rw [here, there]
        exact ih next next' same
  unfold ReadAlike resolve
  rcases found with ⟨here, there⟩ | ⟨value, value', here, there, outlines⟩
  · rw [here, there]
  · rw [here, there]
    simp only
    rcases cases_of_map_eq (transformed (refTransforms ref) value value' outlines) with
      ⟨e, fails, fails'⟩ | ⟨v, v', reads, reads', same⟩
    · rw [fails, fails']
    · rw [reads, reads']
      exact congrArg (fun v => Except.ok (some v)) same

/-! ## Refusals -/

/-- What the refusal of an amount quotes, nothing where `toCents` reads it. -/
def amountQuote (value : Json) : Option String :=
  match toCents value with
  | .ok _ => none
  | .error _ => match value with
    | .num n => some n.text
    | .str s => some (String.ofList (s.toList.filter fun c => !(c == '$' || c == ',' || isSpace c)))
    | _ => some (describeJson value)

/-- What the refusal of a date quotes, nothing where `parseDate` reads it. -/
def dateQuote (rt : Runtime) (format : DateFormat) (value : Json) : Option String :=
  match parseDate rt value format with
  | .ok _ => none
  | .error _ => match value with
    | .str s => some s
    | _ => some (describeJson value)

/-- The two amounts a map would quote, or else the two dates. -/
def RecordMap.quotes (rt : Runtime) (read : Reader) (readPath : String → Option Json)
    (map : RecordMap) : Option String × Option String :=
  match amountQuote ((readValue read map.amount.ref).getD .null) with
  | some amount => (some amount, none)
  | none => (none, map.date.bind fun ref =>
      dateQuote rt (dateSource ref).2 ((readPath (dateSource ref).1).getD .null))

section Refusals

variable {rt : Runtime} {value value' : Json}

/-- Amounts of one outline are both read, or refused in one message where that
quotes one text. -/
theorem toCents_alike (same : value.outline = value'.outline)
    (quotes : amountQuote value = amountQuote value') :
    (toCents value).map (fun _ => ()) = (toCents value').map fun _ => () := by
  unfold amountQuote at quotes
  rcases here : toCents value with e | cents <;> rcases there : toCents value' with e' | cents' <;>
    rw [here, there] at quotes
  · have refused : toCents value = toCents value' := by
      cases value <;> cases value' <;> try cases same
      all_goals
        have quoted := Option.some.inj quotes
        simp only [toCents, quoted]
    rw [← here, ← there, refused]
  · cases value <;> cases quotes
  · cases value' <;> cases quotes
  · rfl

/-- Dates of one outline, likewise. -/
theorem parseDate_alike {format : DateFormat} (same : value.outline = value'.outline)
    (quotes : dateQuote rt format value = dateQuote rt format value') :
    (parseDate rt value format).map (fun _ => ()) = (parseDate rt value' format).map fun _ => () := by
  unfold dateQuote at quotes
  rcases here : parseDate rt value format with e | day <;>
    rcases there : parseDate rt value' format with e' | day' <;> rw [here, there] at quotes
  · have refused : parseDate rt value format = parseDate rt value' format := by
      cases value <;> cases value' <;> try cases same
      all_goals
        have quoted := Option.some.inj quotes
        simp only [parseDate, quoted]
    rw [← here, ← there, refused]
  · cases value <;> cases quotes
  · cases value' <;> cases quotes
  · rfl

end Refusals

/-! ## Mappings -/

theorem ok_of_map_eq {ε α β : Type} {f : α → β} {r r' : Except ε α} (same : r.map f = r'.map f)
    {a : α} (returns : r = .ok a) : ∃ a', r' = .ok a' := by
  rcases cases_of_map_eq same with ⟨e, fails, -⟩ | ⟨_, a', -, there, -⟩
  · cases returns.symm.trans fails
  · exact ⟨a', there⟩

theorem error_of_map_eq {ε α β : Type} {f : α → β} {r r' : Except ε α} (same : r.map f = r'.map f)
    {e : ε} (throws : r = .error e) : r' = .error e := by
  rcases cases_of_map_eq same with ⟨e', here, there⟩ | ⟨_, _, returns, -, -⟩
  · rw [there, Except.error.inj (throws.symm.trans here)]
  · cases throws.symm.trans returns

/-- Two sets of reads of a map go alike stage by stage: they fail with one
error, or both go on. -/
structure StagesAlike (rt : Runtime) (map : RecordMap) (receivedAt : String) (read : Reader)
    (readPath : String → Option Json) (read' : Reader) (readPath' : String → Option Json) : Prop where
  externalId : (map.externalIdOf read).map (fun _ => ()) = (map.externalIdOf read').map fun _ => ()
  amount : (map.amountOf read).map (fun _ => ()) = (map.amountOf read').map fun _ => ()
  date : ∀ cents, map.amountOf read = .ok cents →
    (dateText rt readPath receivedAt map.date).map (fun _ => ()) =
      (dateText rt readPath' receivedAt map.date).map fun _ => ()
  later : ReadersAlike read read'

section Stages

variable {rt : Runtime} {read read' : Reader} {readPath readPath' : String → Option Json}
  {leaves leaves' : List String} {route : RouteConfig} {receivedAt : String} {e e' : RelayError}

theorem StagesAlike.symm {map : RecordMap}
    (alike : StagesAlike rt map receivedAt read readPath read' readPath') :
    StagesAlike rt map receivedAt read' readPath' read readPath where
  externalId := alike.externalId.symm
  amount := alike.amount.symm
  date cents counted := by
    obtain ⟨cents', counted'⟩ := ok_of_map_eq alike.amount.symm counted
    exact (alike.date cents' counted').symm
  later ref := (alike.later ref).symm

theorem MapFailure.alike (alike : StagesAlike rt route.map receivedAt read readPath read' readPath')
    (failure : MapFailure rt read readPath route receivedAt e) :
    MapFailure rt read' readPath' route receivedAt e := by
  cases failure with
  | externalId fails => exact .externalId (error_of_map_eq alike.externalId fails)
  | amount named fails =>
    obtain ⟨text, named⟩ := ok_of_map_eq alike.externalId named
    exact .amount named (error_of_map_eq alike.amount fails)
  | date named counted fails =>
    obtain ⟨text, named⟩ := ok_of_map_eq alike.externalId named
    obtain ⟨cents, counted'⟩ := ok_of_map_eq alike.amount counted
    exact .date named counted' (error_of_map_eq (alike.date _ counted) fails)
  | readLater named counted dated member refused =>
    obtain ⟨text, named⟩ := ok_of_map_eq alike.externalId named
    obtain ⟨cents, counted'⟩ := ok_of_map_eq alike.amount counted
    obtain ⟨day, dated⟩ := ok_of_map_eq (alike.date _ counted) dated
    exact .readLater named counted' dated member (error_of_map_eq (alike.later _) refused)

/-- Where reading fails in one way only, a mapping fails in one way. -/
theorem MapFailure.unique {refusal : RelayError} (only : ∀ ref e, read ref = .error e → e = refusal)
    (failure : MapFailure rt read readPath route receivedAt e)
    (failure' : MapFailure rt read readPath route receivedAt e') : e = e' := by
  have clash : ∀ {α : Type} {r : Except RelayError α} {e : RelayError} {a : α} {P : Prop},
      r = .error e → r = .ok a → P := fun throws returns => nomatch throws.symm.trans returns
  cases failure with
  | externalId fails =>
    cases failure' with
    | externalId fails' => exact Except.error.inj (fails.symm.trans fails')
    | amount named _ => exact clash fails named
    | date named _ _ => exact clash fails named
    | readLater named _ _ _ _ => exact clash fails named
  | amount named fails =>
    cases failure' with
    | externalId fails' => exact clash fails' named
    | amount _ fails' => exact Except.error.inj (fails.symm.trans fails')
    | date _ counted _ => exact clash fails counted
    | readLater _ counted _ _ _ => exact clash fails counted
  | date named counted fails =>
    cases failure' with
    | externalId fails' => exact clash fails' named
    | amount _ fails' => exact clash fails' counted
    | date _ _ fails' => exact Except.error.inj (fails.symm.trans fails')
    | readLater _ _ dated _ _ => exact clash fails dated
  | readLater named counted dated _ refused =>
    cases failure' with
    | externalId fails' => exact clash fails' named
    | amount _ fails' => exact clash fails' counted
    | date _ _ fails' => exact clash fails' dated
    | readLater _ _ _ _ refused' => exact (only _ _ refused).trans (only _ _ refused').symm

/-- What a mapped event asks the host for, less the inputs. -/
def MappedEvent.asks (m : MappedEvent) : List (String × String) :=
  m.pending.map fun p => (p.field, p.enrichment)

theorem asks_alike (alike : ReadersAlike read read') (map : RecordMap) :
    (map.pendingEntries read).map (fun p => (p.field, p.enrichment)) =
      (map.pendingEntries read').map fun p => (p.field, p.enrichment) := by
  unfold RecordMap.pendingEntries
  rw [List.map_filterMap, List.map_filterMap]
  refine congrArg (List.filterMap · map.laterFields) (funext fun entry => ?_)
  unfold pendingEntry readValue
  cases refEnrichment entry.2 with
  | none => rfl
  | some enrichment =>
    rcases (alike entry.2).cases with ⟨e, here, there⟩ | ⟨here, there⟩ | ⟨v, v', here, there, -⟩ <;>
      rw [here, there] <;> rfl

/-- Mappings that go alike throw one error, or ask the host for the same. -/
theorem mapEventWith_alike {refusal : RelayError} (only : ∀ ref e, read' ref = .error e → e = refusal)
    (alike : StagesAlike rt route.map receivedAt read readPath read' readPath') :
    (mapEventWith rt read readPath leaves route receivedAt).map MappedEvent.asks =
      (mapEventWith rt read' readPath' leaves' route receivedAt).map MappedEvent.asks := by
  rcases mapEventWith_cases rt read readPath leaves route receivedAt with
    ⟨record, pending, report, -, mapped, returns, -⟩ | ⟨e, failure, throws⟩ <;>
  rcases mapEventWith_cases rt read' readPath' leaves' route receivedAt with
    ⟨record', pending', report', -, mapped', returns', -⟩ | ⟨e', failure', throws'⟩
  · rw [returns, returns']
    refine congrArg Except.ok ?_
    unfold MappedEvent.asks
    rw [mapped.pending, mapped'.pending]
    exact asks_alike alike.later route.map
  · exact absurd mapped (failure'.alike alike.symm).not_mapsTo
  · exact absurd mapped' (failure.alike alike).not_mapsTo
  · rw [throws, throws', (failure.alike alike).unique only failure']

end Stages

/-- Payloads of one outline go alike through a map that quotes the same of them. -/
theorem stages_alike (rt : Runtime) (maskingKey : Bytes) (map : RecordMap) (receivedAt : String)
    {payload payload' : Json} (same : payload.outline = payload'.outline)
    (quotes : map.quotes rt (resolve rt maskingKey payload) (getAtPath payload) =
      map.quotes rt (resolve rt maskingKey payload') (getAtPath payload')) :
    StagesAlike rt map receivedAt (resolve rt maskingKey payload) (getAtPath payload)
      (resolve rt maskingKey payload') (getAtPath payload') := by
  have readers := resolve_alike rt maskingKey same
  have quoted : ∀ amount, amountQuote ((readValue (resolve rt maskingKey payload) map.amount.ref).getD
      .null) = amount → amountQuote ((readValue (resolve rt maskingKey payload') map.amount.ref).getD
      .null) = amount ∧ (amount = none → ∀ ref ∈ map.date,
        dateQuote rt (dateSource ref).2 ((getAtPath payload (dateSource ref).1).getD .null) =
          dateQuote rt (dateSource ref).2 ((getAtPath payload' (dateSource ref).1).getD .null)) := by
    rintro amount rfl
    unfold RecordMap.quotes at quotes
    split at quotes <;> rename_i here <;> split at quotes <;> rename_i there <;> rw [here, there]
    · exact ⟨(congrArg Prod.fst quotes).symm, nofun⟩
    · cases quotes
    · cases quotes
    · refine ⟨rfl, fun _ ref named => ?_⟩
      have dates := congrArg Prod.snd quotes
      rw [Option.mem_def.mp named] at dates
      exact dates
  refine ⟨?_, ?_, ?_, readers⟩
  · unfold RecordMap.externalIdOf
    rcases (readers map.externalId.ref).cases with
      ⟨e, here, there⟩ | ⟨here, there⟩ | ⟨value, value', here, there, outlines⟩
    · rw [here, there]
    · rw [here, there]
    · rw [here, there]
      cases value <;> cases value' <;> first | cases outlines | skip
      all_goals rfl
  · have amounts := (quoted _ rfl).1
    unfold RecordMap.amountOf
    unfold readValue at amounts
    rcases (readers map.amount.ref).cases with
      ⟨e, here, there⟩ | ⟨here, there⟩ | ⟨value, value', here, there, outlines⟩
    · rw [here, there]
    · rw [here, there]
    · rw [here, there] at amounts ⊢
      exact toCents_alike outlines amounts.symm
  · intro cents counted
    cases dated : map.date with
    | none => rfl
    | some ref =>
      have accepted : amountQuote ((readValue (resolve rt maskingKey payload) map.amount.ref).getD
          .null) = none := by
        unfold RecordMap.amountOf at counted
        unfold readValue amountQuote
        rcases reads : resolve rt maskingKey payload map.amount.ref with e | value
        · rw [reads] at counted
          cases counted
        · rw [reads] at counted
          have returns : toCents (value.getD .null) = .ok cents := counted
          simp only [returns]
      have dates := (quoted _ accepted).2 rfl ref dated
      unfold dateText
      rcases getAtPath_alike same (dateSource ref).1 with
        ⟨here, there⟩ | ⟨value, value', here, there, outlines⟩
      · simp only [here, there]
      · simp only [here, there, Option.getD_some] at dates ⊢
        exact parseDate_alike outlines dates

theorem mapEvent_alike (rt : Runtime) (maskingKey : Bytes) (route : RouteConfig) (receivedAt : String)
    {payload payload' : Json} (same : payload.outline = payload'.outline)
    (quotes : route.map.quotes rt (resolve rt maskingKey payload) (getAtPath payload) =
      route.map.quotes rt (resolve rt maskingKey payload') (getAtPath payload')) :
    (mapEvent rt maskingKey route payload receivedAt).map MappedEvent.asks =
      (mapEvent rt maskingKey route payload' receivedAt).map MappedEvent.asks :=
  mapEventWith_alike (fun ref e refused => ((resolve_error_iff rt maskingKey payload' ref e).mp refused).2)
    (stages_alike rt maskingKey route.map receivedAt same quotes)

end EndCloseRelay
