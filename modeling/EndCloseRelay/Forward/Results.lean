import EndCloseRelay.Forward.BatchProtocol
import EndCloseRelay.Interaction.Machine
import Mathlib.Data.List.TakeWhile

/-!
# Whose result is whose

`settleResults` finds the event of a result item by a key: the external id of
the item, or its index.  `ResultsAgree` says when that key leads to the event
whose record the item is about, and `settles_exactly_iff` that this is what a
correct settlement takes, whatever End Close answers.
-/

namespace EndCloseRelay

open Interaction

/-! ## Result items -/

/-- The item reports a record that was not taken. -/
def BulkResultItem.isFailure (item : BulkResultItem) : Bool :=
  item.status == some "failed" || item.status == some "rejected"

/-- The key `settleResults` reads off an item. -/
def BulkResultItem.key (item : BulkResultItem) : String :=
  item.externalId.getD ((item.index.map Js.Number.text).getD "undefined")

/-- The items of the results, where they are items. -/
def BulkResults.items? : BulkResults → Option (List BulkResultItem)
  | .absent => some []
  | .items listed => some listed
  | .unreadable _ => none

namespace Dispatcher

/-- The item is about the record at an index of a POST: it names it by that
index, by its external id, or by both. -/
structure IsAbout (batch : List (EventRecord × EndCloseRecord)) (item : BulkResultItem)
    (j : Nat) : Prop where
  inBatch : j < batch.length
  names : item.index.isSome ∨ item.externalId.isSome
  index : ∀ n, item.index = some n → n.text = indexKey j
  externalId : ∀ x, item.externalId = some x → (batch[j]?.map fun b => b.2.externalId) = some x

/-- The record of the event at an index is reported as failed. -/
def IsReported (batch : List (EventRecord × EndCloseRecord)) (items : List BulkResultItem)
    (i : Nat) : Prop :=
  ∃ item ∈ items, item.isFailure ∧ IsAbout batch item i

/-- The key of an item leads to an event at an index. -/
def Leads (item : BulkResultItem) (event : EventRecord) (i : Nat) : Prop :=
  item.key = externalIdKey event ∨ item.key = indexKey i

/-- The keys of a batch lead where they should: the external id of a record to
its own event alone, and an index to no other event by its external id. -/
def ResultsAgree (batch : List (EventRecord × EndCloseRecord)) : Prop :=
  ∀ i j b c, batch[i]? = some b → batch[j]? = some c →
    ((c.2.externalId = externalIdKey b.1 ∨ c.2.externalId = indexKey i) ↔ i = j) ∧
      (i ≠ j → externalIdKey b.1 ≠ indexKey j)

/-! ## What a settlement did -/

/-- The items of the answer of an exchange that ends the polling. -/
def finalItems : Exchange Op.Answer → Option (List BulkResultItem)
  | ⟨.getBulkRequest _, answer⟩ =>
    match HttpAnswer.read answer with
    | .ok (some status) =>
      if status.status = some "pending" ∨ status.status = some "processing" then none
      else status.results.items?
    | _ => none
  | _ => none

/-- The ids an exchange parked. -/
def parkedBy : Exchange Op.Answer → List Nat
  | ⟨.store (.markParked ids _), .ok _⟩ => ids
  | _ => []

/-- The ids an exchange marked delivered. -/
def deliveredBy : Exchange Op.Answer → List Nat
  | ⟨.store (.markDelivered ids _ _), .ok _⟩ => ids
  | _ => []

/-- However the calls of a settlement are answered, if End Close gives a final
answer whose every item is about a record of the POST, and the store takes the
marks, then exactly the events whose own record is reported are parked, and the
others of the batch are marked delivered. -/
def SettlesExactly (batch : List (EventRecord × EndCloseRecord)) : Prop :=
  ∀ (W : Type) (world : Program.World Op.Answer W) (w : W) (s : State)
    (bulkRequestId : Option String) (items : List BulkResultItem),
    let out := ((settleResults bulkRequestId (batch.map Prod.fst)).start s).exec world [] w
    out.1.1 = .ok () → (∃ x ∈ out.2.1, finalItems x = some items) →
    (∀ item ∈ items, ∃ j, IsAbout batch item j) →
    ∀ id,
      (id ∈ out.2.1.flatMap parkedBy ↔
        ∃ i b, batch[i]? = some b ∧ b.1.id = id ∧ IsReported batch items i) ∧
      (id ∈ out.2.1.flatMap deliveredBy ↔
        ∃ i b, batch[i]? = some b ∧ b.1.id = id ∧ ¬ IsReported batch items i)

section

variable {calls : Calls} {s : State}

/-- The failed keys of the items. -/
def keysOf (items : List BulkResultItem) : List String :=
  (items.filter BulkResultItem.isFailure).map BulkResultItem.key

theorem failedKeys_of_items {results : BulkResults} {items : List BulkResultItem}
    (readable : results.items? = some items) : failedKeys results = .ok (keysOf items) := by
  cases results with
  | absent =>
    obtain rfl := Option.some.inj readable
    rfl
  | items items' =>
    obtain rfl := Option.some.inj readable
    rfl
  | unreadable message => cases readable

/-- Polling parks and delivers nothing, and ends with the keys of the final answer. -/
theorem pollResults_final {bulkRequestId : Option String} {attempts : Nat}
    (before : ∀ x ∈ calls, finalItems x = none) :
    (pollResults bulkRequestId attempts).Sat (Discipline.free Op Op.Answer) calls s
      fun calls' _ r =>
        calls'.flatMap parkedBy = calls.flatMap parkedBy ∧
        calls'.flatMap deliveredBy = calls.flatMap deliveredBy ∧
        ∀ failed, r = .ok failed → ∀ x ∈ calls', ∀ items, finalItems x = some items →
          failed.getD [] = keysOf items := by
  induction attempts generalizing calls s with
  | zero =>
    refine Method.Sat.pure ⟨rfl, rfl, fun failed _ x member items final => ?_⟩
    rw [before x member] at final
    cases final
  | succ attempts ih =>
    refine Method.sat_call_bind trivial fun answer _ => ?_
    have none_ : ∀ {failed : Option (List String)} {y : Exchange Op.Answer},
        finalItems y = none → ∀ x ∈ y :: calls, ∀ items, finalItems x = some items →
          failed.getD [] = keysOf items := by
      intro failed y plain x member items final
      rcases List.mem_cons.mp member with rfl | member
      · rw [plain] at final
        cases final
      · rw [before x member] at final
        cases final
    cases read : HttpAnswer.read answer with
    | error err =>
      refine Method.Sat.pure ⟨rfl, rfl, fun failed _ => none_ ?_⟩
      simp only [finalItems, read]
    | ok status =>
      cases status with
      | none => exact Method.Sat.throw ⟨rfl, rfl, fun failed same => by cases same⟩
      | some status =>
        simp only []
        split
        · rename_i waiting
          refine Method.sat_call_bind trivial fun _ _ => ?_
          refine (ih ?_).mono fun calls' _ r holds => holds
          intro x member
          rcases List.mem_cons.mp member with rfl | member
          · rfl
          · rcases List.mem_cons.mp member with rfl | member
            · simp only [finalItems, read, if_pos waiting]
            · exact before x member
        · rename_i final
          refine Method.sat_ofExcept_bind (fun failed readable => ?_)
            (fun err _ => ⟨rfl, rfl, fun failed same => by cases same⟩)
          refine Method.Sat.pure ⟨rfl, rfl, fun out same x member items found => ?_⟩
          obtain rfl := Except.ok.inj same
          rcases List.mem_cons.mp member with rfl | member
          · simp only [finalItems, read, if_neg final] at found
            rw [failedKeys_of_items found] at readable
            obtain rfl := Except.ok.inj readable
            cases keys : keysOf items with
            | nil => rfl
            | cons key keys => rfl
          · rw [before x member] at found
            cases found

theorem failedEvents_nil (mapped : List EventRecord) : failedEvents [] mapped = [] := by
  simp [failedEvents, isFailed]

theorem okEvents_nil (mapped : List EventRecord) : okEvents [] mapped = mapped := by
  simp [okEvents, isFailed]

/-- A settlement after a final answer: what it parks and marks delivered. -/
theorem settleResults_final (bulkRequestId : Option String) (mapped : List EventRecord) :
    (settleResults bulkRequestId mapped).Sat (Discipline.free Op Op.Answer) [] s
      fun calls' _ r => r = .ok () → ∀ x ∈ calls', ∀ items, finalItems x = some items →
        calls'.flatMap parkedBy = (failedEvents (keysOf items) mapped).map (fun e => e.id) ∧
        calls'.flatMap deliveredBy = (okEvents (keysOf items) mapped).map fun e => e.id := by
  refine Method.sat_call_bind trivial fun deliveredAt _ => ?_
  have start : ∀ x ∈ [(⟨.now, deliveredAt⟩ : Exchange Op.Answer)], finalItems x = none := by
    intro x member
    rw [List.mem_singleton.mp member]
    rfl
  refine Method.Sat.bind _ (pollResults_final start) (fun mid _ failed polled => ?_)
    (fun mid _ err _ same => by cases same)
  obtain ⟨parked, delivered, keys⟩ := polled
  replace keys := keys failed rfl
  have earlier : ∀ {y : Exchange Op.Answer}, finalItems y = none → ∀ {rest : Calls},
      (∀ x ∈ rest, ∀ items, finalItems x = some items → failed.getD [] = keysOf items) →
      ∀ x ∈ y :: rest, ∀ items, finalItems x = some items → failed.getD [] = keysOf items := by
    intro y plain rest known x member items final
    rcases List.mem_cons.mp member with rfl | member
    · rw [plain] at final
      cases final
    · exact known x member items final
  cases failed with
  | none =>
    refine Method.sat_call_bind trivial fun answer _ => ?_
    cases answer with
    | error err => exact fun same => by cases same
    | ok _ =>
      refine Method.Sat.modify fun _ x member items final => ?_
      have none_ := earlier rfl keys x member items final
      rw [List.flatMap_cons, List.flatMap_cons, parked, delivered, ← none_]
      exact ⟨by simp [failedEvents_nil, parkedBy], by simp [okEvents_nil, deliveredBy]⟩
  | some failed =>
    refine Method.sat_call_bind trivial fun answer _ => ?_
    cases answer with
    | error err => exact fun same => by cases same
    | ok _ =>
      refine Method.sat_call_bind trivial fun answer _ => ?_
      cases answer with
      | error err => exact fun same => by cases same
      | ok _ =>
        refine Method.sat_modify_bind (Method.Sat.modify fun _ x member items final => ?_)
        have some_ := earlier rfl (earlier rfl keys) x member items final
        rw [List.flatMap_cons, List.flatMap_cons, List.flatMap_cons, List.flatMap_cons, parked,
          delivered, ← some_]
        exact ⟨by simp [parkedBy], by simp [deliveredBy]⟩

end

/-! ## When the keys lead to the right events -/

theorem indexKey_inj {i j : Nat} (same : indexKey i = indexKey j) : i = j := by
  unfold indexKey at same
  rw [Nat.toString_eq_repr, Nat.toString_eq_repr] at same
  have digits := congrArg String.toList same
  rw [Nat.toList_repr, Nat.toList_repr] at digits
  rw [← Nat.ofDigitChars_ten_toDigits (n := i), digits, Nat.ofDigitChars_ten_toDigits]

theorem isFailed_keysOf {items : List BulkResultItem} {event : EventRecord} {i : Nat} :
    isFailed (keysOf items) (event, i) ↔ ∃ item ∈ items, item.isFailure ∧ Leads item event i := by
  have keys : ∀ key, key ∈ keysOf items ↔ ∃ item ∈ items, item.isFailure ∧ item.key = key := by
    intro key
    simp only [keysOf, List.mem_map, List.mem_filter, and_assoc]
  simp only [isFailed, Bool.or_eq_true, List.contains_iff_mem, keys, Leads]
  constructor
  · rintro (⟨item, member, failure, key⟩ | ⟨item, member, failure, key⟩)
    · exact ⟨item, member, failure, .inl key⟩
    · exact ⟨item, member, failure, .inr key⟩
  · rintro ⟨item, member, failure, key | key⟩
    · exact .inl ⟨item, member, failure, key⟩
    · exact .inr ⟨item, member, failure, key⟩

variable {batch : List (EventRecord × EndCloseRecord)}

/-- Where keys agree, an item leads to the event whose record it is about. -/
theorem leads_iff (agree : ResultsAgree batch) {item : BulkResultItem} {i j : Nat}
    (about : IsAbout batch item j) {b : EventRecord × EndCloseRecord}
    (atI : batch[i]? = some b) : Leads item b.1 i ↔ i = j := by
  obtain ⟨c, atJ⟩ : ∃ c, batch[j]? = some c := ⟨_, List.getElem?_eq_getElem about.inBatch⟩
  obtain ⟨external, apart⟩ := agree i j b c atI atJ
  cases named : item.externalId with
  | some x =>
    have own := about.externalId x named
    rw [atJ] at own
    have key : item.key = c.2.externalId := by
      rw [BulkResultItem.key, named]
      exact (Option.some.inj own).symm
    rw [Leads, key]
    exact external
  | none =>
    obtain ⟨n, indexed⟩ : ∃ n, item.index = some n := by
      rcases about.names with indexed | external
      · exact Option.isSome_iff_exists.mp indexed
      · rw [named] at external
        cases external
    have key : item.key = indexKey j := by
      rw [BulkResultItem.key, named, indexed]
      exact about.index n indexed
    rw [Leads, key]
    constructor
    · rintro (same | same)
      · by_contra other
        exact apart other same.symm
      · exact (indexKey_inj same).symm
    · rintro rfl
      exact .inr rfl

/-- Where keys agree, the failed events are those whose own record is reported. -/
theorem isFailed_iff_isReported (agree : ResultsAgree batch) {items : List BulkResultItem}
    (wellFormed : ∀ item ∈ items, ∃ j, IsAbout batch item j) {i : Nat}
    {b : EventRecord × EndCloseRecord} (atI : batch[i]? = some b) :
    isFailed (keysOf items) (b.1, i) ↔ IsReported batch items i := by
  rw [isFailed_keysOf]
  constructor
  · rintro ⟨item, member, failure, leads⟩
    obtain ⟨j, about⟩ := wellFormed item member
    obtain rfl := (leads_iff agree about atI).mp leads
    exact ⟨item, member, failure, about⟩
  · rintro ⟨item, member, failure, about⟩
    exact ⟨item, member, failure, (leads_iff agree about atI).mpr rfl⟩

theorem getElem?_mapped {i : Nat} {e : EventRecord} :
    (batch.map Prod.fst)[i]? = some e ↔ ∃ b, batch[i]? = some b ∧ b.1 = e := by
  rw [List.getElem?_map, Option.map_eq_some_iff]

theorem mem_failed_ids {failed : List String} {id : Nat} :
    id ∈ (failedEvents failed (batch.map Prod.fst)).map (fun e => e.id) ↔
      ∃ i b, batch[i]? = some b ∧ b.1.id = id ∧ isFailed failed (b.1, i) := by
  simp only [List.mem_map, mem_failedEvents]
  constructor
  · rintro ⟨e, ⟨i, atI, failed⟩, rfl⟩
    obtain ⟨b, atB, rfl⟩ := getElem?_mapped.mp (by simpa using atI)
    exact ⟨i, b, atB, rfl, failed⟩
  · rintro ⟨i, b, atI, rfl, failed⟩
    exact ⟨b.1, ⟨i, by simp [atI], failed⟩, rfl⟩

theorem mem_ok_ids {failed : List String} {id : Nat} :
    id ∈ (okEvents failed (batch.map Prod.fst)).map (fun e => e.id) ↔
      ∃ i b, batch[i]? = some b ∧ b.1.id = id ∧ ¬ isFailed failed (b.1, i) := by
  simp only [List.mem_map, mem_okEvents]
  constructor
  · rintro ⟨e, ⟨i, atI, failed⟩, rfl⟩
    obtain ⟨b, atB, rfl⟩ := getElem?_mapped.mp (by simpa using atI)
    exact ⟨i, b, atB, rfl, failed⟩
  · rintro ⟨i, b, atI, rfl, failed⟩
    exact ⟨b.1, ⟨i, by simp [atI], failed⟩, rfl⟩

/-- What a run of a settlement did, in a world that gives a final answer and
takes the marks. -/
theorem settled_run {W : Type} {world : Program.World Op.Answer W} {w : W} {s : State}
    {bulkRequestId : Option String} {items : List BulkResultItem}
    (succeeds : (((settleResults bulkRequestId (batch.map Prod.fst)).start s).exec world [] w).1.1 =
      .ok ())
    (answered : ∃ x ∈ (((settleResults bulkRequestId (batch.map Prod.fst)).start s).exec
      world [] w).2.1, finalItems x = some items) (id : Nat) :
    (id ∈ (((settleResults bulkRequestId (batch.map Prod.fst)).start s).exec
        world [] w).2.1.flatMap parkedBy ↔
      ∃ i b, batch[i]? = some b ∧ b.1.id = id ∧ isFailed (keysOf items) (b.1, i)) ∧
    (id ∈ (((settleResults bulkRequestId (batch.map Prod.fst)).start s).exec
        world [] w).2.1.flatMap deliveredBy ↔
      ∃ i b, batch[i]? = some b ∧ b.1.id = id ∧ ¬ isFailed (keysOf items) (b.1, i)) := by
  obtain ⟨x, member, final⟩ := answered
  have ran := Program.Sat.exec_free world w
    (settleResults_final (s := s) bulkRequestId (batch.map Prod.fst))
  obtain ⟨parked, delivered⟩ := ran succeeds x member items final
  rw [parked, delivered, mem_failed_ids, mem_ok_ids]
  exact ⟨Iff.rfl, Iff.rfl⟩

/-- Agreeing keys are enough. -/
theorem settlesExactly_of_agree (agree : ResultsAgree batch) : SettlesExactly batch := by
  intro W world w s bulkRequestId items out succeeds answered wellFormed id
  obtain ⟨parked, delivered⟩ := settled_run succeeds answered id
  rw [parked, delivered]
  constructor
  · refine exists₂_congr fun i b => and_congr_right fun atI => and_congr_right fun _ => ?_
    exact isFailed_iff_isReported agree wellFormed atI
  · refine exists₂_congr fun i b => and_congr_right fun atI => and_congr_right fun _ => ?_
    exact not_congr (isFailed_iff_isReported agree wellFormed atI)

/-! ## A world that answers at once -/

/-- The store takes the marks, and the first poll brings one item. -/
def answering (item : BulkResultItem) : Program.World Op.Answer Unit := fun _ _ op =>
  (match op with
    | .store (.markParked ..) => .ok ()
    | .store (.markDelivered ..) => .ok ()
    | .store _ => .error (.other "")
    | .getKillswitch => .ok .none
    | .getRoute _ => .ok none
    | .isRoutePaused _ => .ok false
    | .enrich .. => .ok .undefined
    | .bulkCreateRecords .. => .response 200 "" (.ok none)
    | .getBulkRequest _ =>
      .response 200 "" (.ok (some { status := some "completed", results := .items [item] }))
    | .now => (0 : Int)
    | .random => (0 : ℚ)
    | .aborted => false
    | .sleep _ => (), ())

theorem answering_run {item : BulkResultItem} (failure : item.isFailure)
    (mapped : List EventRecord) (s : State) :
    (((settleResults none mapped).start s).exec (answering item) [] ()).1.1 = .ok () ∧
      ∃ x ∈ (((settleResults none mapped).start s).exec (answering item) [] ()).2.1,
        finalItems x = some [item] := by
  obtain ⟨index, externalId, status⟩ := item
  have cases_ : status = some "failed" ∨ status = some "rejected" := by
    simpa [BulkResultItem.isFailure] using failure
  rcases cases_ with rfl | rfl
  · exact ⟨rfl, _, List.mem_of_getElem? (i := 2) rfl, rfl⟩
  · exact ⟨rfl, _, List.mem_of_getElem? (i := 2) rfl, rfl⟩

/-- Rows of a batch are told apart by their ids. -/
theorem at_of_id (nodup : (batch.map fun b => b.1.id).Nodup) {i j : Nat}
    {b c : EventRecord × EndCloseRecord} (atI : batch[i]? = some b) (atJ : batch[j]? = some c)
    (same : b.1.id = c.1.id) : i = j := by
  have below : i < (batch.map fun b => b.1.id).length := by
    rw [List.length_map]
    exact (List.getElem?_eq_some_iff.mp atI).1
  apply (List.getElem?_inj below nodup).mp
  rw [List.getElem?_map, List.getElem?_map, atI, atJ, Option.map_some, Option.map_some, same]

/-- A settlement that is always exact leads every failure to the event it is about. -/
theorem leads_of_settlesExactly (nodup : (batch.map fun b => b.1.id).Nodup)
    (exactly : SettlesExactly batch) (item : BulkResultItem) (failure : item.isFailure) {i j : Nat}
    (about : ∀ k, IsAbout batch item k ↔ k = j) {b : EventRecord × EndCloseRecord}
    (atI : batch[i]? = some b) : Leads item b.1 i ↔ i = j := by
  obtain ⟨succeeds, answered⟩ := answering_run failure (batch.map Prod.fst) { reclaimOwner := none }
  have wellFormed : ∀ item' ∈ [item], ∃ j, IsAbout batch item' j := by
    intro item' member
    obtain rfl := List.mem_singleton.mp member
    exact ⟨j, (about j).mpr rfl⟩
  have wanted := (exactly Unit _ () _ none [item] succeeds answered wellFormed b.1.id).1
  have done := (settled_run succeeds answered b.1.id).1
  rw [done] at wanted
  have reported : IsReported batch [item] i ↔ i = j := by
    rw [← about i]
    constructor
    · rintro ⟨item', member, -, is⟩
      rwa [List.mem_singleton.mp member] at is
    · intro is
      exact ⟨item, List.mem_singleton_self _, failure, is⟩
  have failed : isFailed (keysOf [item]) (b.1, i) ↔ Leads item b.1 i := by
    rw [isFailed_keysOf]
    constructor
    · rintro ⟨item', member, -, leads⟩
      rwa [List.mem_singleton.mp member] at leads
    · intro leads
      exact ⟨item, List.mem_singleton_self _, failure, leads⟩
  rw [← reported, ← failed]
  constructor
  · intro is
    obtain ⟨i', b', atI', same, is'⟩ := wanted.mp ⟨i, b, atI, rfl, is⟩
    obtain rfl := at_of_id nodup atI' atI same
    exact is'
  · intro is
    obtain ⟨i', b', atI', same, is'⟩ := wanted.mpr ⟨i, b, atI, rfl, is⟩
    obtain rfl := at_of_id nodup atI' atI same
    rw [atI] at atI'
    obtain rfl := Option.some.inj atI'
    exact is'

theorem agree_of_settlesExactly (nodup : (batch.map fun b => b.1.id).Nodup)
    (exactly : SettlesExactly batch) : ResultsAgree batch := by
  intro i j b c atI atJ
  have inBatch : j < batch.length := (List.getElem?_eq_some_iff.mp atJ).1
  -- An item that names the record by its index and its external id.
  have both := leads_of_settlesExactly nodup exactly
    ⟨some (.ofNat j), some c.2.externalId, some "rejected"⟩ rfl (j := j) (fun k => by
      constructor
      · intro about
        exact (indexKey_inj (about.index _ rfl)).symm
      · rintro rfl
        refine ⟨inBatch, .inl rfl, ?_, ?_⟩
        · rintro n same
          rw [← Option.some.inj same]
          rfl
        · rintro x same
          rw [atJ, ← Option.some.inj same]
          rfl) atI
  -- An item that names it by its index alone.
  have byIndex := leads_of_settlesExactly nodup exactly
    ⟨some (.ofNat j), none, some "rejected"⟩ rfl (j := j) (fun k => by
      constructor
      · intro about
        exact (indexKey_inj (about.index _ rfl)).symm
      · rintro rfl
        refine ⟨inBatch, .inl rfl, ?_, ?_⟩
        · rintro n same
          rw [← Option.some.inj same]
          rfl
        · rintro x same
          cases same) atI
  refine ⟨both, fun other same => other (byIndex.mp (.inl same.symm))⟩

/-- The results of a batch of distinct rows reach the right events, whatever
End Close answers, exactly when its keys agree. -/
theorem settlesExactly_iff (nodup : (batch.map fun b => b.1.id).Nodup) :
    SettlesExactly batch ↔ ResultsAgree batch :=
  ⟨agree_of_settlesExactly nodup, settlesExactly_of_agree⟩

/-! ## A batch whose keys do not agree -/

/-- A row that the generic adapter identified by the event, not by the payment. -/
def eventRow : EventRecord where
  routeId := "payments"
  source := "generic-hmac"
  eventId := "evt_1"
  eventType := none
  payload := [1]
  payloadIv := none
  headersJson := ""
  receivedAt := 0
  status := .delivering
  idempotencyKey := ""
  id := 1
  nextAttemptAt := none

/-- The record of a payment. -/
def paymentRecord (externalId : String) : EndCloseRecord where
  date := "1970-01-01"
  dataStreamKey := "payments"
  amount := .integer 100
  currency := none
  direction := .credit
  description := none
  externalId
  metadata := []

/-- The row of another event, whose id has a source before it. -/
def otherRow : EventRecord := { eventRow with eventId := "payabli:evt_2", id := 2 }

/-- Two events, each with the record of its own payment. -/
def twoPayments : List (EventRecord × EndCloseRecord) :=
  [(eventRow, paymentRecord "evt_1"), (otherRow, paymentRecord "evt_2")]

/-- The settlement of the two where End Close rejects the second. -/
def secondRejected : Calls :=
  (((settleResults none (twoPayments.map Prod.fst)).start { reclaimOwner := none }).exec
    (answering ⟨none, some "evt_2", some "rejected"⟩) [] ()).2.1

theorem agree_twoPayments : ResultsAgree twoPayments := by
  intro i j b c atI atJ
  have cases_ : ∀ {k : Nat} {d : EventRecord × EndCloseRecord}, twoPayments[k]? = some d →
      (k = 0 ∧ d = (eventRow, paymentRecord "evt_1")) ∨ (k = 1 ∧ d = (otherRow, paymentRecord "evt_2")) := by
    intro k d atK
    match k with
    | 0 => exact .inl ⟨rfl, (Option.some.inj atK).symm⟩
    | 1 => exact .inr ⟨rfl, (Option.some.inj atK).symm⟩
    | k + 2 => cases atK
  rcases cases_ atI with ⟨rfl, rfl⟩ | ⟨rfl, rfl⟩ <;> rcases cases_ atJ with ⟨rfl, rfl⟩ | ⟨rfl, rfl⟩ <;>
    decide

/-- Where the events have the ids of their payments, the result of one reaches it and
spares the other. -/
theorem settlesExactly_two : SettlesExactly twoPayments ∧
    secondRejected.flatMap parkedBy = [2] ∧ secondRejected.flatMap deliveredBy = [1] :=
  ⟨(settlesExactly_iff (by decide)).mpr agree_twoPayments, by decide, by decide⟩

/-- The result that names the record by its external id does not reach the
event, which is marked delivered. -/
theorem rejected_delivered : ¬ SettlesExactly [(eventRow, paymentRecord "pay_1")] := by
  intro exactly
  have run := exactly Unit (answering ⟨none, some "pay_1", some "rejected"⟩) ()
    { reclaimOwner := none } none [⟨none, some "pay_1", some "rejected"⟩] rfl
    ⟨_, List.mem_of_getElem? (i := 2) rfl, rfl⟩
  have about : IsAbout [(eventRow, paymentRecord "pay_1")] ⟨none, some "pay_1", some "rejected"⟩ 0 :=
    ⟨by decide, .inr rfl, nofun, fun x same => same⟩
  have wellFormed : ∀ item ∈ [(⟨none, some "pay_1", some "rejected"⟩ : BulkResultItem)],
      ∃ j, IsAbout [(eventRow, paymentRecord "pay_1")] item j := by
    intro item member
    obtain rfl := List.mem_singleton.mp member
    exact ⟨0, about⟩
  have parked := (run wellFormed 1).1.mpr
    ⟨0, _, rfl, rfl, _, List.mem_singleton_self _, rfl, about⟩
  exact absurd parked (by decide)

end Dispatcher

end EndCloseRelay
