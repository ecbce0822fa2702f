import EndCloseRelay.Forward.BatchKeys
import EndCloseRelay.Forward.Mapping
import EndCloseRelay.Scanning.Delimited

/-!
# Colliding batch keys

`EndCloseClient.idempotencyKey` digests `key:external_id` and a line break for
each record, nothing escaped, and an external id is any text a payload holds.
What is digested is the text as an encoder makes it, where U+FFFD stands for each
surrogate that is in no pair.  `bytes_determine_batch_iff` says of which batches the
digested bytes tell what they are.
-/

namespace EndCloseRelay

open Js Scanning

/-! ## Records a mapping can produce -/

/-- A record `mapEvent` returns for a route the schema accepts. -/
def Mapped (record : EndCloseRecord) : Prop :=
  ∃ (rt : Runtime) (maskingKey : Bytes) (route : RouteConfig) (payload : Json) (receivedAt : String)
    (m : MappedEvent), route.schemaValid ∧
      mapEvent rt maskingKey route payload receivedAt = .ok m ∧ m.record = record

/-- A map that takes its ids from `id`. -/
def plainMap : RecordMap where
  dataStreamKey := "payments"
  externalId := { ref := .path "id" }
  amount := { ref := .path "amount" }
  direction := .credit

/-- A route for a data stream, with that map. -/
def plainRoute (dataStreamKey : String) : RouteConfig where
  id := "payments"
  source := "payabli"
  auth := .staticHeader { secretEnv := "PAYABLI_SECRET" }
  map := { plainMap with dataStreamKey }

/-- The payload of one cent with an id. -/
def plainPayload (id : String) : Json := .obj [("id", .str id), ("amount", .str "0.01")]

/-- The record of it. -/
def plainRecord (dataStreamKey externalId : String) : EndCloseRecord where
  date := ""
  dataStreamKey
  amount := .integer 1
  direction := .credit
  externalId
  metadata := []

theorem resolve_plain (externalId : String) :
    resolve (.knowing []) [] (plainPayload externalId) (.path "id") = .ok (some (.str externalId)) ∧
    resolve (.knowing []) [] (plainPayload externalId) (.path "amount") =
      .ok (some (.str "0.01")) := by
  have id : pathSegments "id" = ["id"] := by decide
  have amount : pathSegments "amount" = ["amount"] := by decide
  unfold resolve getAtPath refSource
  simp only [id, amount]
  exact ⟨rfl, rfl⟩

theorem mapEvent_plain (dataStreamKey externalId : String) : ∃ m,
    mapEvent (.knowing []) [] (plainRoute dataStreamKey) (plainPayload externalId) "" = .ok m ∧
      m.record = plainRecord dataStreamKey externalId := by
  obtain ⟨id, amount⟩ := resolve_plain externalId
  have maps : MapsTo (.knowing []) (resolve (.knowing []) [] (plainPayload externalId))
      (getAtPath (plainPayload externalId)) (plainRoute dataStreamKey) ""
      (plainRecord dataStreamKey externalId) [] := by
    constructor
    case externalId =>
      show (do externalIdText _ (← resolve (.knowing []) [] (plainPayload externalId) (.path "id"))) = _
      rw [id]
      rfl
    case amount =>
      show (do toCents ((← resolve (.knowing []) [] (plainPayload externalId) (.path "amount")).getD
        .null)) = _
      rw [amount]
      exact (by decide : toCents (.str "0.01") = .ok (.integer 1))
    case readable => exact fun ref member => absurd member List.not_mem_nil
    all_goals rfl
  obtain ⟨report, returns⟩ := mapEventWith_ok_iff.mpr maps
  exact ⟨_, returns, rfl⟩

theorem RecordMap.schemaValid_withKey {map : RecordMap} {dataStreamKey : String}
    (named : dataStreamKey ≠ "") (valid : map.schemaValid) :
    RecordMap.schemaValid { map with dataStreamKey } := by
  unfold RecordMap.schemaValid at valid ⊢
  simp only [Bool.and_eq_true] at valid ⊢
  obtain ⟨⟨⟨⟨⟨⟨⟨-, externalId⟩, amount⟩, date⟩, description⟩, currency⟩, metadata⟩, names⟩ := valid
  exact ⟨⟨⟨⟨⟨⟨⟨bne_iff_ne.mpr named, externalId⟩, amount⟩, date⟩, description⟩, currency⟩, metadata⟩,
    names⟩

/-- Every data stream key and every text for an id come from some mapping. -/
theorem mapped_plain {dataStreamKey : String} (named : dataStreamKey ≠ "") (externalId : String) :
    Mapped (plainRecord dataStreamKey externalId) := by
  obtain ⟨m, returns, record⟩ := mapEvent_plain dataStreamKey externalId
  have closed : plainMap.schemaValid := by decide
  have map := RecordMap.schemaValid_withKey named closed
  have frame : (plainRoute "payments").schemaValid := by decide
  have valid : (plainRoute dataStreamKey).schemaValid := by
    unfold RouteConfig.schemaValid at frame ⊢
    simp only [Bool.and_eq_true] at frame ⊢
    obtain ⟨⟨⟨before, -⟩, positive⟩, bound⟩ := frame
    exact ⟨⟨⟨before, map⟩, positive⟩, bound⟩
  exact ⟨_, _, _, _, _, m, valid, returns, record⟩

/-- A mapped record names its data stream. -/
theorem Mapped.named {record : EndCloseRecord} (mapped : Mapped record) : record.dataStreamKey ≠ "" := by
  obtain ⟨rt, maskingKey, route, payload, receivedAt, m, valid, returns, rfl⟩ := mapped
  have made := mapEventWith_ok_iff.mp ⟨m.report, returns⟩
  rw [made.dataStreamKey]
  unfold RouteConfig.schemaValid RecordMap.schemaValid at valid
  simp only [Bool.and_eq_true] at valid
  exact bne_iff_ne.mp valid.1.1.2.1.1.1.1.1.1.1

/-! ## What is digested -/

/-- The line a record adds to the digest, as JavaScript has it. -/
def recordLine (record : EndCloseRecord) : Units × Units :=
  (units record.dataStreamKey, units record.externalId)

/-- The line as an encoder sees it. -/
def shownLine (line : Units × Units) : Delimited.Entry Char := (decode line.1, decode line.2)

theorem keyBytes_eq (lines : List (Units × Units)) : keyBytes lines =
    (Delimited.encode ':' '\n' (lines.map shownLine)).flatMap String.utf8EncodeChar := by
  unfold keyBytes
  induction lines with
  | nil => rfl
  | cons line lines ih =>
    have shows : decode (line.1 ++ (units ":" ++ (line.2 ++ units "\n"))) =
        Delimited.encodeEntry ':' '\n' (shownLine line) := by
      rw [decode_append fun v head => by obtain rfl := Option.some.inj head; rfl, decode_units_append,
        decode_append fun v head => by obtain rfl := Option.some.inj head; rfl, decode_units]
      simp [Delimited.encodeEntry, shownLine]
    rw [List.flatMap_cons, ih, List.map_cons, Delimited.encode_cons, List.flatMap_append, utf8Units,
      utf8, shown, String.toList_ofList, shows]

theorem keyBytes_eq_iff {lines lines' : List (Units × Units)} :
    keyBytes lines = keyBytes lines' ↔
      Delimited.encode ':' '\n' (lines.map shownLine) = Delimited.encode ':' '\n' (lines'.map shownLine) := by
  have injective : Function.Injective fun text : List Char => text.flatMap String.utf8EncodeChar := by
    intro text text' same
    refine String.ofList_injective (utf8_injective ?_)
    rw [utf8, utf8, String.toList_ofList, String.toList_ofList]
    exact same
  rw [keyBytes_eq, keyBytes_eq]
  exact injective.eq_iff

/-- The key of a batch digests the lines of its records. -/
theorem utf8_composition (records : List EndCloseRecord) :
    utf8 (composition records) = keyBytes (records.map recordLine) := by
  have text : (composition records).toList =
      Delimited.encode ':' '\n' ((records.map recordLine).map shownLine) := by
    unfold composition
    rw [String.toList_join, List.map_map]
    induction records with
    | nil => rfl
    | cons record records ih =>
      rw [List.map_cons, List.flatMap_cons, ih, List.map_cons, Delimited.encode_cons, Function.comp_apply,
        recordLine, shownLine, decode_units, decode_units, Delimited.encodeEntry]
      simp
  rw [utf8, text, keyBytes_eq]

/-- No batch of other lines is digested as the same bytes, exactly when the batch is
empty, or of one line without a colon in its id or behind the first character of
its key, and without U+FFFD, which an encoder also makes of a surrogate alone. -/
theorem readable_lines_iff {lines : List (Units × Units)} (named : ∀ line ∈ lines, line.1 ≠ []) :
    (∀ lines', (∀ line ∈ lines', line.1 ≠ []) → keyBytes lines' = keyBytes lines → lines' = lines) ↔
    (lines = [] ∨ ∃ key id, lines = [(key, id)] ∧ ':' ∉ (decode key).tail ∧ ':' ∉ decode id ∧
      '\uFFFD' ∉ decode key ∧ '\uFFFD' ∉ decode id) := by
  have entries : ∀ ls : List (Units × Units), (∀ line ∈ ls, line.1 ≠ []) →
      ∀ e ∈ ls.map shownLine, e.1 ≠ [] := by
    intro ls each e member empty
    obtain ⟨line, there, rfl⟩ := List.mem_map.mp member
    exact each line there (decode_eq_nil_iff.mp empty)
  have readable := @Delimited.readable_iff Char ':' '\n' _ (entries lines named)
  constructor
  · intro only
    have single : lines.map shownLine = [] ∨ ∃ e, lines.map shownLine = [e] ∧
        ':' ∉ e.1.tail ∧ ':' ∉ e.2 := by
      refine readable.mp fun es each same => ?_
      let others := es.map fun e => (units (String.ofList e.1), units (String.ofList e.2))
      have shows : others.map shownLine = es := by
        rw [List.map_map]
        conv_rhs => rw [← List.map_id es]
        refine List.map_congr_left fun e _ => ?_
        simp [shownLine, decode_units]
      have others_ : ∀ line ∈ others, line.1 ≠ [] := by
        intro line member empty
        obtain ⟨e, there, rfl⟩ := List.mem_map.mp member
        have text := decode_units (String.ofList e.1)
        rw [show units (String.ofList e.1) = [] from empty, String.toList_ofList] at text
        exact each e there text.symm
      rw [← shows] at same ⊢
      rw [only others others_ (keyBytes_eq_iff.mpr same.symm)]
    rcases single with empty | ⟨e, shape, plainKey, plainId⟩
    · exact .inl (List.map_eq_nil_iff.mp empty)
    obtain ⟨⟨key, id⟩, rfl, rfl⟩ := List.map_eq_singleton_iff.mp shape
    have some_ : key ≠ [] := named _ List.mem_cons_self
    -- another text that is shown alike makes another batch of the same bytes
    have alike : ∀ key' id', decode key' = decode key → decode id' = decode id →
        (key', id') = (key, id) := by
      intro key' id' keys ids
      have named' : ∀ line ∈ [(key', id')], line.1 ≠ [] := by
        intro line member empty
        rw [List.mem_singleton.mp member] at empty
        rw [show key' = [] from empty] at keys
        exact some_ (decode_eq_nil_iff.mp keys.symm)
      refine List.singleton_inj.mp (only _ named' (keyBytes_eq_iff.mpr ?_))
      rw [List.map_singleton, List.map_singleton, shownLine, shownLine, keys, ids]
    refine .inr ⟨key, id, rfl, plainKey, plainId, fun lost => ?_, fun lost => ?_⟩
    · obtain ⟨key', other, shows⟩ := exists_decode lost
      exact other (Prod.mk.inj (alike key' id shows rfl)).1
    · obtain ⟨id', other, shows⟩ := exists_decode lost
      exact other (Prod.mk.inj (alike key id' rfl shows)).2
  · intro single lines' named' same
    have single' : lines.map shownLine = [] ∨ ∃ e, lines.map shownLine = [e] ∧
        ':' ∉ e.1.tail ∧ ':' ∉ e.2 := by
      rcases single with rfl | ⟨key, id, rfl, plainKey, plainId, -⟩
      · exact .inl rfl
      · exact .inr ⟨_, rfl, plainKey, plainId⟩
    have shows := readable.mpr single' _ (entries lines' named') (keyBytes_eq_iff.mp same.symm)
    rcases single with rfl | ⟨key, id, rfl, -, -, keptKey, keptId⟩
    · exact List.map_eq_nil_iff.mp shows.symm
    · obtain ⟨⟨key', id'⟩, rfl, line⟩ := List.map_eq_singleton_iff.mp shows.symm
      obtain ⟨keys, ids⟩ : decode key' = decode key ∧ decode id' = decode id := Prod.mk.inj line
      rw [eq_of_decode keptKey keys, eq_of_decode keptId ids]

/-- Over all texts of JavaScript, the lines of a batch are told by its bytes exactly
when it is empty, or of one line that is read in one way only.  These lines are those
of the records that mappings make: a mapped record names its data stream, its batch
is digested by its lines, and every key and id make up a line of some mapped record. -/
theorem bytes_determine_batch_iff {lines : List (Units × Units)} (named : ∀ line ∈ lines, line.1 ≠ []) :
    ((∀ lines', (∀ line ∈ lines', line.1 ≠ []) → keyBytes lines' = keyBytes lines → lines' = lines) ↔
      (lines = [] ∨ ∃ key id, lines = [(key, id)] ∧ ':' ∉ (decode key).tail ∧ ':' ∉ decode id ∧
        '\uFFFD' ∉ decode key ∧ '\uFFFD' ∉ decode id)) ∧
    (∀ records, (∀ r ∈ records, Mapped r) → (∀ line ∈ records.map recordLine, line.1 ≠ []) ∧
      ∀ rt, idempotencyKey rt records =
        "relay-" ++ sliceTo (rt.sha256Hex (keyBytes (records.map recordLine))) 40) ∧
    ∀ key id : String, key ≠ "" → ∃ r, Mapped r ∧ recordLine r = (units key, units id) := by
  refine ⟨readable_lines_iff named, fun records mapped => ⟨fun line member empty => ?_, fun rt => ?_⟩,
    fun key id given => ⟨_, mapped_plain given id, rfl⟩⟩
  · obtain ⟨r, there, rfl⟩ := List.mem_map.mp member
    have text := decode_units r.dataStreamKey
    rw [show units r.dataStreamKey = [] from empty] at text
    exact (mapped r there).named (String.toList_eq_nil_iff.mp text.symm)
  · rw [← utf8_composition]
    rfl

/-- Where no text holds a line break and no key a colon, only texts that an encoder
makes one collide. -/
theorem shownLines_of_bytes {lines lines' : List (Units × Units)}
    (plain : ∀ line ∈ lines, ':' ∉ decode line.1 ∧ '\n' ∉ decode line.1 ∧ '\n' ∉ decode line.2)
    (plain' : ∀ line ∈ lines', ':' ∉ decode line.1 ∧ '\n' ∉ decode line.1 ∧ '\n' ∉ decode line.2)
    (same : keyBytes lines = keyBytes lines') : lines.map shownLine = lines'.map shownLine := by
  refine Delimited.encode_injOn ?_ ?_ (by decide) (keyBytes_eq_iff.mp same)
  · intro e member
    obtain ⟨line, there, rfl⟩ := List.mem_map.mp member
    exact plain line there
  · intro e member
    obtain ⟨line, there, rfl⟩ := List.mem_map.mp member
    exact plain' line there

/-- One payment that a mapping makes is told by its bytes. -/
theorem bytes_determine_batch_iff_plain : Mapped (plainRecord "payments" "txn_1") ∧
    ∀ lines', (∀ line ∈ lines', line.1 ≠ []) →
      keyBytes lines' = keyBytes [recordLine (plainRecord "payments" "txn_1")] →
        lines' = [recordLine (plainRecord "payments" "txn_1")] := by
  have named : ∀ line ∈ [recordLine (plainRecord "payments" "txn_1")], line.1 ≠ [] := by decide
  exact ⟨mapped_plain (by decide) _, (bytes_determine_batch_iff named).1.mpr
    (.inr ⟨_, _, rfl, by decide, by decide, by decide, by decide⟩)⟩

/-- Two payments, and one payment whose id spells the rest of the other batch. -/
theorem batches_collide : (∀ r ∈ [plainRecord "payments" "txn_1", plainRecord "payments" "txn_2"], Mapped r) ∧
    Mapped (plainRecord "payments" "txn_1\npayments:txn_2") ∧
    keyBytes ([plainRecord "payments" "txn_1", plainRecord "payments" "txn_2"].map recordLine) =
      keyBytes ([plainRecord "payments" "txn_1\npayments:txn_2"].map recordLine) ∧
    [plainRecord "payments" "txn_1", plainRecord "payments" "txn_2"].map recordLine ≠
      [plainRecord "payments" "txn_1\npayments:txn_2"].map recordLine := by
  refine ⟨fun r member => ?_, mapped_plain (by decide) _, by decide, by decide⟩
  rcases List.mem_cons.mp member with rfl | member
  · exact mapped_plain (by decide) _
  · rw [List.mem_singleton.mp member]
    exact mapped_plain (by decide) _

end EndCloseRelay
