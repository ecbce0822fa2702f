import EndCloseRelay.Engine.MemoryRecords
import EndCloseRelay.Engine.Payloads
import EndCloseRelay.Engine.Representation
import EndCloseRelay.Engine.Retention
import EndCloseRelay.Sqlite.Records

/-!
# The two stores

What every run of either store keeps.
-/

namespace EndCloseRelay

open Interaction MemoryStore

/-- The stores of the repository. -/
inductive StoreKind
  | memory
  | sqlite

namespace StoreKind

/-- A store as its callers see it. -/
def store : StoreKind → RecordStore
  | .memory => memoryRecords
  | .sqlite => sqliteRecords

/-- What a store keeps beside its records: `byKey` is the inverse of `rows`. -/
def Indexed : (kind : StoreKind) → kind.store.State → Prop
  | .memory, (store : MemoryStore) => store.byKey = store.rows.map fun r => (r.idempotencyKey, r.id)
  | .sqlite, _ => True

theorem indexed_run (kind : StoreKind) (calls : List (kind.store.Choice × StoreOp)) :
    kind.Indexed (kind.store.machine.run calls) := by
  cases kind with
  | memory => exact (memoryRecords.sound_run calls).index
  | sqlite => trivial

end StoreKind

/-! ## Leases, keys and claims -/

/-- After any calls to either store, records are well kept, keys are distinct
and indexed, a claim takes the due records of the smallest ids, and an id that
two calls claimed was put back between them. -/
theorem stores_represent (kind : StoreKind) (calls : List (kind.store.Choice × StoreOp))
    (fresh : ∀ call ∈ calls, call.2.StartsFresh) :
    (∀ r ∈ kind.store.records (kind.store.machine.run calls), r.WellKept) ∧
    ((kind.store.records (kind.store.machine.run calls)).map fun r => r.idempotencyKey).Nodup ∧
    kind.Indexed (kind.store.machine.run calls) ∧
    (∀ choice routeId now limit lease,
      ClaimsSmallest (kind.store.records (kind.store.machine.run calls)) routeId now limit lease
        (kind.store.apply choice (kind.store.machine.run calls)
          (.claimDue routeId now limit lease)).1) ∧
    ∀ before first between second after id, calls = before ++ first :: (between ++ second :: after) →
      id ∈ claimedIds first.2 (kind.store.apply first.1 (kind.store.machine.run before) first.2).1 →
      id ∈ claimedIds second.2
        (kind.store.apply second.1 (kind.store.machine.run (before ++ first :: between)) second.2).1 →
      ∃ earlier call later r, between = earlier ++ call :: later ∧
        kind.store.getById (kind.store.machine.run (before ++ first :: earlier)) id = some r ∧
          r.id = id ∧ call.2.PutsBack r := by
  have sound := kind.store.sound_run calls
  refine ⟨RecordStore.wellKept_run calls fresh, kind.store.keys _ sound, kind.indexed_run calls,
    RecordStore.claims_run calls, ?_⟩
  intro before first between second _ id _ once again
  exact RecordStore.putsBack_between before between first second once again

/-- An event as ingest hands it over. -/
def storedEvent (key : String) (receivedAt : Int) : NewEvent where
  routeId := "r1"
  source := "payabli"
  eventId := key
  eventType := none
  payload := [1]
  payloadIv := none
  headersJson := "\x7b\x7d"
  receivedAt
  status := .pending
  idempotencyKey := key

/-- Two events stored and claimed. -/
def claimedPair : List (Unit × StoreOp) :=
  [((), .insert (storedEvent "a" 0)), ((), .insert (storedEvent "b" 0)),
    ((), .claimDue "r1" 1 50 ⟨"d1", 2⟩)]

theorem stores_represent_sample :
    ((memoryRecords.records (memoryRecords.machine.run claimedPair)).map
      fun r => r.idempotencyKey).Nodup ∧
    StoreKind.Indexed .memory (memoryRecords.machine.run claimedPair) := by
  have fresh : ∀ call ∈ claimedPair, call.2.StartsFresh := by
    intro call member
    rcases List.mem_cons.mp member with rfl | member
    · exact .inl rfl
    · rcases List.mem_cons.mp member with rfl | member
      · exact .inl rfl
      · rw [List.mem_singleton.mp member]
        trivial
  have represents := stores_represent .memory claimedPair fresh
  exact ⟨represents.2.1, represents.2.2.1⟩

/-! ## Retention -/

/-- Looping `pruneBatch` ends whatever rows it picks, leaves what retention is to
leave, and counts what it wiped and deleted. -/
theorem retention_reached (kind : StoreKind) (retention : RetentionSettings) {now : Int}
    (dated : retention.Dated now) {limit : Nat} (positive : 1 ≤ limit)
    (choices : Nat → kind.store.Choice) (s : kind.store.State)
    (sound : kind.store.Sound s) (wipedIfEmpty : ∀ r ∈ kind.store.records s, r.WipedIfEmpty) :
    ∃ fuel totals s',
      kind.store.pruneRounds retention now limit fuel (fun n => (false, choices n)) {} s =
        some (.ok (), totals, s') ∧
      kind.store.records s' =
        retained (now - retention.deliveredDays * dayMs) (now - retention.ledgerDays * dayMs)
          (kind.store.records s) ∧
      totals.wiped = (kind.store.records s).countP
        (EventRecord.wipeable (now - retention.deliveredDays * dayMs)) ∧
      totals.deleted = (kind.store.records s).countP
        (EventRecord.endedBefore (now - retention.ledgerDays * dayMs)) := by
  obtain ⟨fuel, totals, s', ends, wiped, deleted, left⟩ :=
    RecordStore.pruneRounds_ends retention dated positive (fun n => (false, choices n)) (fun _ => rfl) {} s
      sound wipedIfEmpty
  exact ⟨fuel, totals, s', ends, left, wiped.trans (Nat.zero_add _), deleted.trans (Nat.zero_add _)⟩

/-- A store with an event that was delivered and one that waits. -/
def deliveredAndPending : MemoryStore := memoryRecords.machine.run
  [((), .insert (storedEvent "a" 0)), ((), .markDelivered [1] 1 none), ((), .insert (storedEvent "b" 0))]

theorem retention_reached_sample : ∃ fuel totals s',
    memoryRecords.pruneRounds ⟨14, 90⟩ (20 * dayMs) 50 fuel (fun _ => (false, ())) {}
      deliveredAndPending = some (.ok (), totals, s') ∧
    memoryRecords.records s' = retained (20 * dayMs - 14 * dayMs) (20 * dayMs - 90 * dayMs)
      deliveredAndPending.rows ∧ totals.wiped = 1 ∧ totals.deleted = 0 :=
  retention_reached .memory ⟨14, 90⟩ (by decide) (by decide : 1 ≤ 50) (fun _ => ()) deliveredAndPending
    (memoryRecords.sound_run _) (by decide)

/-- With a ledger of a thousand million days no round answers: its cutoff is no time. -/
theorem retention_undated (fuel : Nat) : memoryRecords.pruneRounds ⟨14, 1000000000⟩ (20 * dayMs) 50 (fuel + 1)
    (fun _ => (false, ())) {} deliveredAndPending =
      some (.error (.other "Invalid time value"), {}, deliveredAndPending) := rfl

theorem retention_throws :
    ¬ (∃ fuel totals s', memoryRecords.pruneRounds ⟨14, 1000000000⟩ (20 * dayMs) 50 fuel
        (fun _ => (false, ())) {} deliveredAndPending = some (.ok (), totals, s')) ∧
      memoryRecords.records deliveredAndPending ≠ retained (20 * dayMs - 14 * dayMs)
        (20 * dayMs - 1000000000 * dayMs) (memoryRecords.records deliveredAndPending) := by
  constructor
  · rintro ⟨fuel, totals, s', ends⟩
    cases fuel with
    | zero => cases ends
    | succ fuel =>
      rw [retention_undated] at ends
      cases ends
  · decide

/-- `prune(now, deliveredDays, ledgerDays)`: the loop, in batches of 500. -/
def EventsRepo.prune (plans : Nat → Plan) (events : Events) (retention : RetentionSettings) (now : Int)
    (fuel : Nat) : Option (Except RelayError (Nat × Nat) × Events) :=
  (sqliteRecords.pruneRounds retention now 500 fuel (fun n => (false, plans n)) {} events).map
    fun (ended, totals, events) => (ended.map fun () => (totals.wiped, totals.deleted), events)

theorem EventsRepo.prune_reached (plans : Nat → Plan) (events : Events) (retention : RetentionSettings)
    {now : Int} (dated : retention.Dated now) (wipedIfEmpty : ∀ r ∈ SqliteStore.records events, r.WipedIfEmpty) :
    ∃ fuel events', EventsRepo.prune plans events retention now fuel =
        some (.ok (RecordStore.dueCounts (S := sqliteRecords) retention now events), events') ∧
      SqliteStore.records events' =
        RecordStore.retainedRecords (S := sqliteRecords) retention now events := by
  obtain ⟨fuel, totals, events', ends, wiped, deleted, left⟩ :=
    RecordStore.pruneRounds_ends (S := sqliteRecords) retention dated (by decide : 0 < 500)
      (fun n => (false, plans n)) (fun _ => rfl) {} events trivial wipedIfEmpty
  have counts : (totals.wiped, totals.deleted) =
      RecordStore.dueCounts (S := sqliteRecords) retention now events := by
    rw [wiped, deleted]
    exact Prod.ext (Nat.zero_add _) (Nat.zero_add _)
  refine ⟨fuel, events', ?_, left⟩
  unfold EventsRepo.prune
  rw [ends, ← counts]
  rfl

/-- `runPrune` of either store, where nothing aborts it. -/
theorem runPrune_reached (kind : StoreKind) (retention : RetentionSettings) {now : Int}
    (dated : retention.Dated now) (choices : Nat → kind.store.Choice) (s : kind.store.State)
    (sound : kind.store.Sound s) (wipedIfEmpty : ∀ r ∈ kind.store.records s, r.WipedIfEmpty) :
    ∃ fuel totals s',
      kind.store.runPrune (some retention) now fuel (fun n => (false, choices n)) s =
        some (.ok (), totals, s') ∧
      (totals.wiped, totals.deleted) = RecordStore.dueCounts retention now s ∧
      kind.store.records s' = RecordStore.retainedRecords retention now s := by
  obtain ⟨fuel, totals, s', ends, wiped, deleted, left⟩ :=
    RecordStore.pruneRounds_ends retention dated (by decide : 0 < RecordStore.pruneBatchSize)
      (fun n => (false, choices n)) (fun _ => rfl) {} s sound wipedIfEmpty
  refine ⟨fuel, totals, s', ?_, ?_, left⟩
  · unfold RecordStore.runPrune
    simp only [ends]
    rfl
  · rw [wiped, deleted]
    exact Prod.ext (Nat.zero_add _) (Nat.zero_add _)

/-! ## Payloads -/

/-- The store in memory gives no id out again. -/
theorem memory_unissued {store : MemoryStore} {id : Nat} (given : id < store.nextId)
    (calls : List (Unit × StoreOp)) :
    (memoryRecords.machineFrom store).Guarded (fun s call => ¬ memoryRecords.Issues id s call) calls := by
  refine Machine.guarded_of_invariant (fun s : MemoryStore => id < s.nextId) given ?_ ?_ calls
  · intro s call below
    exact Nat.lt_of_lt_of_le below (nextId_le_apply call.2)
  · rintro s call below ⟨e, -, issued⟩
    have next : (MemoryStore.insert s e).1 = .inserted id := issued
    rcases @MemoryStore.insert_cases s e with ⟨known, -⟩ | ⟨new, -⟩
    · cases next.symm.trans known
    · rw [InsertResult.inserted.inj (next.symm.trans new)] at below
      exact Nat.lt_irrefl _ below

/-- For both codecs and both stores: the body of a webhook that is stored comes
back from its row, by every way of reading it, after any calls until retention
takes it; after that `readPayload` finds none, in the SQLite store until the id is
given to another event. -/
theorem payloads_return (kind : StoreKind) (codec : CodecKind) (inverts : codec.Inverts)
    (deps : IngestDeps) (uses : deps.codec = codec.codec)
    (before : List (kind.store.Choice × StoreOp)) (host : Ingest.Host kind.store) (draws : host.Draws)
    (routeId : String) (raw : RawRequest) {result : IngestResult}
    (served : (host.serve deps routeId raw (kind.store.machine.run before)).1.1 = .ok result)
    (stored : result.isStored) :
    ∃ id, result.id = some id ∧
      (∀ later, (kind.store.machineFrom
          (host.serve deps routeId raw (kind.store.machine.run before)).2.2).Guarded
            (fun s call => ¬ kind.store.Takes id s call) later →
        kind.store.ReadsBack codec.codec raw.body ((kind.store.machineFrom
          (host.serve deps routeId raw (kind.store.machine.run before)).2.2).run later) id) ∧
      ∀ earlier call later, kind.store.Takes id ((kind.store.machineFrom
          (host.serve deps routeId raw (kind.store.machine.run before)).2.2).run earlier) call →
        (kind = .sqlite → (kind.store.machineFrom ((kind.store.machineFrom
          (host.serve deps routeId raw (kind.store.machine.run before)).2.2).run
            (earlier ++ [call]))).Guarded (fun s call => ¬ kind.store.Issues id s call) later) →
        kind.store.readPayload codec.codec ((kind.store.machineFrom
          (host.serve deps routeId raw (kind.store.machine.run before)).2.2).run
            (earlier ++ call :: later)) id = .ok none := by
  have returns : deps.codec.Returns := by
    rw [uses]
    exact CodecKind.returns inverts
  obtain ⟨sound, id, r, named, found, holds⟩ := Ingest.Host.saved_of_serve returns draws
    (kind.store.sound_run before) served stored
  rw [uses] at holds
  generalize (host.serve deps routeId raw (kind.store.machine.run before)).2.2 = s at sound found ⊢
  refine ⟨id, named, fun later kept => RecordStore.readsBack_run sound found holds kept, ?_⟩
  intro earlier call later taken kept
  have sound' : kind.store.Sound ((kind.store.machineFrom s).run earlier) :=
    (kind.store.machineFrom s).invariant kind.store.Sound sound
      (fun s call sound => kind.store.sound_apply call.1 s call.2 sound) earlier
  have unissued : (kind.store.machineFrom (kind.store.apply call.1
      ((kind.store.machineFrom s).run earlier) call.2).2).Guarded
        (fun s call => ¬ kind.store.Issues id s call) later := by
    cases kind with
    | memory =>
      refine memory_unissued ?_ later
      have given := (memoryRecords.machineFrom s).invariant (fun s : MemoryStore => id < s.nextId)
        (row?_lt found) (fun s call below => Nat.lt_of_lt_of_le below (nextId_le_apply call.2)) earlier
      exact Nat.lt_of_lt_of_le given (nextId_le_apply call.2)
    | sqlite =>
      rw [Machine.run_concat] at kept
      exact kept rfl
  have read : kind.store.readPayload codec.codec _ id = .ok none :=
    RecordStore.readPayload_taken sound' taken unissued
  rw [← read, ← List.singleton_append, ← List.append_assoc, Machine.run_append, Machine.run_concat]
  rfl

/-- The text of an event, under AES-256-GCM with a key and an iv of zeros; for
anything else, its text with a tag of zeros. -/
def sampleGcm : AesGcm where
  encipher key iv plain :=
    if key = List.replicate 32 0 ∧ iv = List.replicate 12 0 ∧ plain = sampleText then
      (sampleCiphertext, sampleTag) else (plain, List.replicate 16 0)
  decipher key iv body tag :=
    if key = List.replicate 32 0 ∧ iv = List.replicate 12 0 ∧ body = sampleCiphertext ∧ tag = sampleTag then
      some sampleText
    else if tag = List.replicate 16 0 then some body else none
where
  sampleText : Bytes := [123, 34, 69, 118, 101, 110, 116, 34, 58, 34, 65, 34, 125]
  sampleCiphertext : Bytes := [181, 133, 5, 75, 40, 14, 31, 76, 61, 108, 132, 241, 199]
  sampleTag : Bytes := [177, 117, 178, 109, 116, 188, 246, 100, 91, 155, 138, 84, 11, 68, 227, 0]

theorem sampleGcm_inverts (key : Bytes) : sampleGcm.Inverts key := by
  have other : List.replicate 16 0 ≠ sampleGcm.sampleTag := by decide
  constructor
  · intro iv plain _
    unfold sampleGcm
    simp only []
    split
    · rfl
    · rfl
  · intro iv plain _
    unfold sampleGcm
    simp only []
    split
    · rename_i known
      rw [if_pos ⟨known.1, known.2.1, rfl, rfl⟩, known.2.2]
    · rw [if_neg fun same => other same.2.2.2, if_pos rfl]

/-- AES-256-GCM under a key of zeros. -/
def sampleCodec : CodecKind := .aesGcm sampleGcm ⟨List.replicate 32 0, rfl⟩

/-- A relay that encrypts, whose platform knows that text. -/
def encryptingDeps : IngestDeps where
  runtime := .knowing [(sampleGcm.sampleText, .obj [("Event", .str "A")])]
  codec := sampleCodec.codec

/-- The platform of such a relay, which draws zeros. -/
def encryptingHost : Ingest.Host sqliteRecords where
  answer
    | _, .getRoute _ => .ok (some System.sampleRoute)
    | _, .getKillswitch => .ok .none
    | _, .resolveSecret _ => .ok (some (.text "secret"))
    | _, .now => (0 : Int)
    | _, .entropy => List.replicate 12 (0 : UInt8)
    | _, .insert _ => .ok .duplicate
  choice _ := SqliteStore.byId

theorem payloads_return_sample :
    sqliteRecords.readPayload sampleCodec.codec ((sqliteRecords.machineFrom
      (encryptingHost.serve encryptingDeps "payments"
        { System.sampleRequest with rawBody := some sampleGcm.sampleText } sqliteRecords.empty).2.2).run
          [(SqliteStore.byId, .claimDue "payments" 0 50 ⟨"d1", 1⟩)]) 1 =
      .ok (some sampleGcm.sampleText) := by
  have served : (encryptingHost.serve encryptingDeps "payments"
      { System.sampleRequest with rawBody := some sampleGcm.sampleText } sqliteRecords.empty).1.1 =
        .ok ⟨200, .status "accepted", .ingest .accepted, some 1⟩ := rfl
  obtain ⟨id, named, back, -⟩ := payloads_return .sqlite sampleCodec (sampleGcm_inverts _) encryptingDeps rfl
    [] encryptingHost (fun _ => rfl) "payments" _ served (.inl rfl)
  obtain rfl := Option.some.inj named
  exact (back [(SqliteStore.byId, .claimDue "payments" 0 50 ⟨"d1", 1⟩)]
    ⟨fun taken => (by cases taken.1), trivial⟩).readPayload

/-- A webhook is stored, delivered, wiped and deleted, and the next event gets its id. -/
theorem wiped_id_reads_other :
    (encryptingHost.serve System.sampleDeployment.ingest "payments" System.sampleRequest
      sqliteRecords.empty).1.1 = .ok ⟨200, .status "accepted", .ingest .accepted, some 1⟩ ∧
    ¬ ∀ earlier call later, sqliteRecords.Takes 1 ((sqliteRecords.machineFrom
        (encryptingHost.serve System.sampleDeployment.ingest "payments" System.sampleRequest
          sqliteRecords.empty).2.2).run earlier) call →
      sqliteRecords.readPayload plainCodec ((sqliteRecords.machineFrom
        (encryptingHost.serve System.sampleDeployment.ingest "payments" System.sampleRequest
          sqliteRecords.empty).2.2).run (earlier ++ call :: later)) 1 = .ok none := by
  refine ⟨rfl, fun gone => ?_⟩
  have read := gone
    [(SqliteStore.byId, .claimDue "payments" 0 50 ⟨"d1", 1⟩), (SqliteStore.byId, .markDelivered [1] 1 none)]
    (SqliteStore.byId, .pruneBatch (91 * dayMs) 14 90 500)
    [(SqliteStore.byId, .pruneBatch (91 * dayMs) 14 90 500),
      (SqliteStore.byId, .insert (storedEvent "b" (91 * dayMs)))] ⟨rfl, by decide⟩
  cases Option.some_ne_none _ (Except.ok.inj read)

end EndCloseRelay
