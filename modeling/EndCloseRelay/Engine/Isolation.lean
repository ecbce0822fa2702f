import EndCloseRelay.Engine.Accounting
import EndCloseRelay.Forward.BatchWork
import EndCloseRelay.Forward.Isolation

/-!
# One bad event

A cycle from any state of a store that works, over routes that are known and not
paused: it leaves the other events alone, and the event that cannot be turned
into a record parked or in retry, exactly where no event makes its batch throw
before something else is to be done.
-/

namespace EndCloseRelay

open Interaction MemoryStore

/-! ## The rows of a route -/

namespace MemoryStore

/-- The rows of a route. -/
def rowsOf (store : MemoryStore) (routeId : String) : List EventRecord :=
  store.rows.filter fun r => r.routeId == routeId

theorem dueRows_eq (store : MemoryStore) (routeId : String) (now : Int) (limit : Nat) :
    store.dueRows routeId now limit = ((store.rowsOf routeId).filter fun r => r.isDue now).take limit := by
  unfold dueRows rowsOf
  rw [List.filter_filter]
  congr 2
  funext r
  exact Bool.and_comm _ _

variable {store : MemoryStore} {routeId : String}

/-- A change to the rows of other routes. -/
theorem rowsOf_updateWhere {p : EventRecord → Bool} {f : EventRecord → EventRecord}
    {keeps : ∀ r, (f r).id = r.id} (routes : ∀ r, (f r).routeId = r.routeId)
    (others : ∀ r ∈ store.rows, p r → r.routeId ≠ routeId) :
    (store.updateWhere p f keeps).rowsOf routeId = store.rowsOf routeId := by
  unfold updateWhere update rowsOf
  rw [List.filter_map]
  have tests : (fun r : EventRecord => r.routeId == routeId) ∘ (fun r => if p r then f r else r) =
      fun r => r.routeId == routeId := by
    funext r
    simp only [Function.comp_apply]
    split
    · rw [routes]
    · rfl
  rw [tests]
  refine (List.map_congr_left fun r member => ?_).trans (List.map_id _)
  obtain ⟨there, of⟩ := List.mem_filter.mp member
  rw [if_neg fun taken => others r there taken (beq_iff_eq.mp of)]
  rfl

theorem rowsOf_updateRow {f : EventRecord → EventRecord} {keeps : ∀ r, (f r).id = r.id}
    (routes : ∀ r, (f r).routeId = r.routeId) {id : Nat}
    (other : ∀ r, store.row? id = some r → r.routeId ≠ routeId) :
    (store.updateRow f keeps id).rowsOf routeId = store.rowsOf routeId := by
  refine rowsOf_updateWhere routes fun r member named => other r ?_
  rw [← beq_iff_eq.mp named]
  exact row?_of_mem member

theorem rowsOf_updatePicked {f : EventRecord → EventRecord} {keeps : ∀ r, (f r).id = r.id}
    (routes : ∀ r, (f r).routeId = r.routeId) {ids : List Nat}
    (others : ∀ id ∈ ids, ∀ r, store.row? id = some r → r.routeId ≠ routeId) :
    (store.updatePicked f keeps ids).rowsOf routeId = store.rowsOf routeId := by
  unfold updatePicked
  induction ids generalizing store with
  | nil => rfl
  | cons first ids ih =>
    rw [List.foldl_cons, ih, rowsOf_updateRow routes (others first List.mem_cons_self)]
    intro id member r found
    rw [row?_updateRow] at found
    split at found
    · obtain ⟨old, there, rfl⟩ := Option.map_eq_some_iff.mp found
      rw [routes]
      exact others id (List.mem_cons_of_mem _ member) old there
    · exact others id (List.mem_cons_of_mem _ member) r found

theorem rowsOf_releaseRows {nextAttemptAt : Int} {error : String} {ids : List Nat} {count : Nat}
    (others : ∀ id ∈ ids, ∀ r, store.row? id = some r → r.routeId ≠ routeId) :
    (ids.foldl (releaseRow nextAttemptAt error) (count, store)).2.rowsOf routeId =
      store.rowsOf routeId := by
  induction ids generalizing store count with
  | nil => rfl
  | cons first ids ih =>
    have routes : ∀ r, (EventRecord.fail nextAttemptAt error r).routeId = r.routeId := fun _ => rfl
    have onward : ∀ id ∈ ids, ∀ r, store.row? id = some r → r.routeId ≠ routeId :=
      fun id member => others id (List.mem_cons_of_mem _ member)
    have first_ : ∃ count', releaseRow nextAttemptAt error (count, store) first = (count', store) ∨
        releaseRow nextAttemptAt error (count, store) first = (count',
          store.updateRow (.fail nextAttemptAt error) (EventRecord.fail_id _ _) first) := by
      unfold releaseRow
      split
      · split
        · exact ⟨_, .inr rfl⟩
        · exact ⟨_, .inl rfl⟩
      · exact ⟨_, .inl rfl⟩
    rw [List.foldl_cons]
    obtain ⟨count', same | same⟩ := first_
    · rw [same]
      exact ih onward
    · rw [same, ih, rowsOf_updateRow routes (others first List.mem_cons_self)]
      intro id member r found
      rw [row?_updateRow] at found
      split at found
      · obtain ⟨old, there, rfl⟩ := Option.map_eq_some_iff.mp found
        exact onward id member old there
      · exact onward id member r found

end MemoryStore

namespace Dispatcher

open EndCloseRelay.System

/-! ## The loop over the due routes -/

/-- The calls of the loop over the due routes: it claims what is due now, in
batches of the maximal size. -/
def isLoopWork (deps : DispatcherDeps) (now : Int) : Op → Prop
  | .store (.claimDue _ at_ limit _) => at_ = now ∧ limit = deps.dispatch.batchMax
  | .getRoute _ | .isRoutePaused _ | .aborted => True
  | op => isBatchCall deps (fun _ _ => True) op

/-- A cycle that is in the loop. -/
def loopWork (deps : DispatcherDeps) (now : Int) : Discipline Op Op.Answer where
  allowed _ op := isLoopWork deps now op
  admits _ _ _ := True

section

variable {deps : DispatcherDeps} {calls : Calls} {s : State} {now : Int}

theorem Busy.looping {α : Type} {m : Body α} (busy : Busy deps (fun _ _ => True) m) :
    m.Sat (loopWork deps now) calls s fun _ _ _ => True := by
  refine (Program.Sat.carry (E := loopWork deps now) (fun _ => True) (busy calls s trivial) trivial
    (fun _ _ _ _ _ _ => ⟨trivial, trivial⟩) fun _ op _ work => ?_).mono fun _ _ _ => trivial
  cases op with
  | store op =>
    cases op with
    | claimDue _ _ _ _ => cases work
    | _ => exact work
  | getRoute _ => trivial
  | isRoutePaused _ => trivial
  | aborted => trivial
  | _ => exact work

theorem deliverRoute_looping {routeId : String} :
    (deliverRoute deps now routeId).Sat (loopWork deps now) calls s
      fun _ _ _ => True := by
  refine Method.sat_call_bind trivial fun route _ => Method.sat_call_bind trivial fun paused _ => ?_
  refine Method.sat_ofExcept_bind (fun found _ => ?_) fun _ _ => trivial
  refine Method.sat_ofExcept_bind (fun stopped _ => ?_) fun _ _ => trivial
  cases found with
  | none => exact Method.Sat.modify trivial
  | some found =>
    simp only []
    split
    · exact Method.Sat.modify trivial
    · refine Method.sat_call_bind trivial fun claimedAt _ => ?_
      refine sat_storeCall_bind ⟨rfl, rfl⟩ (fun claimed _ => ?_) fun _ _ => trivial
      split
      · exact Method.Sat.pure trivial
      · refine Method.Sat.ensuring _ (deliverBatch_busy fun _ => trivial).looping fun _ _ _ _ => ?_
        refine releaseLeftover_busy.looping.mono fun _ _ c _ => ?_
        cases c <;> trivial

theorem deliverDue_looping {due : List String} :
    (deliverDue deps now due).Sat (loopWork deps now) calls s fun _ _ _ => True := by
  induction due generalizing calls s with
  | nil => exact Method.Sat.pure trivial
  | cons routeId due ih =>
    refine Method.sat_call_bind trivial fun aborted _ => ?_
    split
    · exact Method.Sat.pure trivial
    · exact Method.Sat.bind _ deliverRoute_looping (fun _ _ _ _ => ih) fun _ _ _ _ => trivial

end

/-! ## The plant -/

/-- What surrounds a cycle whose store works and whose routes are known and not
paused: a host, and what End Close, the clock and chance answer. -/
structure Plant extends Host where
  answer : Calls → (op : Op) → op.Answer

/-- The store after the calls. -/
def stored (store : MemoryStore) : Calls → MemoryStore
  | [] => store
  | ⟨.store op, _⟩ :: calls => ((stored store calls).apply op).2
  | _ :: calls => stored store calls

namespace Plant

variable (plant : Plant)

/-- What the plant answers. -/
def reply (calls : Calls) (store : MemoryStore) : (op : Op) → op.Answer
  | .store op => .ok (store.apply op).1
  | .getKillswitch => .ok .none
  | .getRoute routeId => .ok (some (plant.routes routeId))
  | .isRoutePaused _ => .ok false
  | .enrich id enrichment input ctx => plant.enrich id enrichment input ctx
  | .aborted => false
  | .bulkCreateRecords key records => plant.answer calls (.bulkCreateRecords key records)
  | .getBulkRequest bulkRequestId => plant.answer calls (.getBulkRequest bulkRequestId)
  | .now => plant.answer calls .now
  | .random => plant.answer calls .random
  | .sleep ms => plant.answer calls (.sleep ms)

/-- The plant as a world over its store. -/
def world : Program.World Op.Answer MemoryStore := fun calls store op =>
  (plant.reply calls store op, stored store [⟨op, plant.reply calls store op⟩])

/-- To be answered by the plant. -/
def told (store : MemoryStore) : Discipline Op Op.Answer where
  allowed _ _ := True
  admits calls op answer := answer = plant.reply calls (stored store calls) op

end Plant

section

variable {plant : Plant} {deps : DispatcherDeps} {store : MemoryStore} {calls : Calls}

theorem stored_cons (op : Op) (answer : op.Answer) :
    stored store (⟨op, answer⟩ :: calls) = stored (stored store calls) [⟨op, answer⟩] := by
  cases op <;> rfl

/-- What holds of the answers of the plant holds of a run in it. -/
theorem Plant.exec_of_told {α : Type} {p : Program Op Op.Answer α} {post : Calls → α → Prop}
    (sat : p.Sat (plant.told store) [] post) :
    post (p.exec plant.world [] store).2.1 (p.exec plant.world [] store).1 ∧
      (p.exec plant.world [] store).2.2 = stored store (p.exec plant.world [] store).2.1 := by
  refine Program.Sat.exec plant.world (fun calls w => w = stored store calls) sat rfl ?_
  rintro calls _ op rfl _
  exact ⟨rfl, (stored_cons op _).symm⟩

/-- The plant answers as a working store and known routes do. -/
theorem Plant.works (plant : Plant) (store : MemoryStore) (calls : Calls) (op : Op) :
    worksFor plant.toHost op (plant.reply calls store op) := by
  cases op with
  | store op =>
    cases op with
    | claimDue routeId now limit lease =>
      refine ⟨_, rfl, fun e member => ?_⟩
      exact (isClaim_claimDue store routeId now limit lease).route e member
    | _ => exact ⟨_, rfl⟩
  | _ => first | rfl | trivial

end

/-! ## Where the loop stands -/

/-- What the calls so far say, in the loop over the routes due in the store it began with. -/
structure Looping (deps : DispatcherDeps) (host : Host) (now : Int) (ready store : MemoryStore)
    (calls : Calls) : Prop where
  told : ∀ x ∈ calls, worksFor host x.1 x.2
  known : ∀ id enrichment input ctx answer,
    (⟨.enrich id enrichment input ctx, answer⟩ : Exchange Op.Answer) ∈ calls → knowsEnrichment deps enrichment
  tracks : Tracks False calls store
  nodup : (idsOf (claims calls)).Nodup
  routes : ((claims calls).map Prod.fst).Nodup
  flying : ∀ e ∈ inFlight calls, ∃ claim ∈ claims calls, e ∈ claim.2
  open_ : ∀ id, standing calls id = some none → id ∈ (inFlight calls).map fun e => e.id
  /-- No event is marked delivered that does not map. -/
  unsent : ∀ claim ∈ claims calls, ∀ e ∈ claim.2, recordOf deps host e = none →
    standing calls e.id ≠ some (some .delivered)
  batches : ∀ claim ∈ claims calls, ∃ lease,
    claim.2 = (ready.dueRows claim.1 now deps.dispatch.batchMax).map (.claim now lease)
  waiting : ∀ routeId, routeId ∉ (claims calls).map Prod.fst → store.rowsOf routeId = ready.rowsOf routeId

section

variable {deps : DispatcherDeps} {host : Host} {now : Int} {ready store store' : MemoryStore}
  {calls : Calls} {event : EventRecord} {x : Exchange Op.Answer}

namespace Looping

/-- An event whose record was posted maps. -/
theorem maps (looping : Looping deps host now ready store calls) (posted : Posted deps calls event) :
    recordOf deps host event ≠ none := by
  obtain ⟨_, _, _, -, -, record, -, route, payload, result, asked, read, fills⟩ := posted
  have given := looping.told _ asked
  simp only [worksFor] at given
  obtain rfl := Option.some.inj (Except.ok.inj given)
  have filled := fillAll_of_filled (fun _ _ _ _ _ asked =>
    ⟨looping.known _ _ _ _ _ asked, looping.told _ asked⟩) fills
  unfold recordOf
  rw [read]
  simp only [filled]
  exact Option.some_ne_none _

/-- The rows in flight are claimed, and of no route that waits. -/
theorem claimed (looping : Looping deps host now ready store calls) {routeId : String}
    (waits : routeId ∉ (claims calls).map Prod.fst) {id : Nat}
    (listed : id ∈ (inFlight calls).map fun e => e.id) {r : EventRecord} (found : store.row? id = some r) :
    r.routeId ≠ routeId := by
  obtain ⟨e, member, rfl⟩ := List.mem_map.mp listed
  obtain ⟨claim, there, ofClaim⟩ := looping.flying e member
  have claimed : e.id ∈ idsOf (claims calls) :=
    List.mem_flatMap.mpr ⟨claim, there, List.mem_map_of_mem ofClaim⟩
  obtain ⟨was, stands⟩ := Option.isSome_iff_exists.mp (standing_isSome.mpr claimed)
  rcases looping.tracks _ was stands with ⟨r', found', -, of⟩ | ⟨-, -, -, gone⟩
  · obtain rfl := Option.some.inj (found.symm.trans found')
    exact fun same => waits (same ▸ of)
  · exact gone.elim

/-- A claimed event is the one in flight under its id. -/
theorem unique (looping : Looping deps host now ready store calls) {e : EventRecord}
    (member : e ∈ inFlight calls) {claim : String × List EventRecord} (there : claim ∈ claims calls)
    (ofClaim : event ∈ claim.2) (same : e.id = event.id) : e = event := by
  have nodup := looping.nodup
  obtain ⟨claim', there', ofClaim'⟩ := looping.flying e member
  have spelled : idsOf (claims calls) = ((claims calls).flatMap Prod.snd).map fun e => e.id :=
    (List.map_flatMap ..).symm
  rw [spelled] at nodup
  exact List.inj_on_of_nodup_map nodup (List.mem_flatMap.mpr ⟨claim', there', ofClaim'⟩)
    (List.mem_flatMap.mpr ⟨claim, there, ofClaim⟩) same

/-- A call that leaves the batch and the store alone. -/
theorem quiet (looping : Looping deps host now ready store calls) (works : worksFor host x.1 x.2)
    (known : ∀ id enrichment input ctx answer,
      x = (⟨.enrich id enrichment input ctx, answer⟩ : Exchange Op.Answer) → knowsEnrichment deps enrichment)
    (neutral : Neutral x) (silent : batchEvent x = .quiet) :
    Looping deps host now ready store (x :: calls) := by
  have same : claims (x :: calls) = claims calls := by
    rw [claims_cons, neutral.1]
    rfl
  have stands : ∀ id, standing (x :: calls) id = standing calls id := fun id => neutral.2 id _
  have flies : inFlight (x :: calls) = inFlight calls := by
    rw [inFlight, silent]
  refine ⟨?_, ?_, looping.tracks.neutral neutral, ?_, ?_, ?_, ?_, ?_, ?_, ?_⟩
  · intro y member
    rcases List.mem_cons.mp member with rfl | member
    · exact works
    · exact looping.told y member
  · intro id enrichment input ctx answer member
    rcases List.mem_cons.mp member with named | member
    · exact known id enrichment input ctx answer named.symm
    · exact looping.known id enrichment input ctx answer member
  · rw [same]
    exact looping.nodup
  · rw [same]
    exact looping.routes
  · rw [same, flies]
    exact looping.flying
  · intro id
    rw [stands, flies]
    exact looping.open_ id
  · intro claim there e member unmapped
    rw [stands]
    exact looping.unsent claim (same ▸ there) e member unmapped
  · rw [same]
    exact looping.batches
  · rw [same]
    exact looping.waiting

/-- A mark of rows of the batch. -/
theorem mark {op : StoreOp} {a : op.Result} {result : ForwardResult} {ids : List Nat}
    {f : EventRecord → EventRecord} {keeps : ∀ r, (f r).id = r.id}
    (looping : Looping deps host now ready store calls) (works : worksFor host (.store op) (.ok a))
    (marks : Marks ⟨.store op, .ok a⟩ ids result) (settles : batchEvent ⟨.store op, .ok a⟩ = .settled ids)
    (unsent : ∀ id ∈ ids, standing calls id ≠ some (some .delivered))
    (status : ∀ r, (f r).status = result.status) (route : ∀ r, (f r).routeId = r.routeId)
    (isOpen : ∀ id ∈ ids, id ∈ opens calls)
    (posted : result = .delivered → ∀ e ∈ inFlight calls, e.id ∈ ids → Posted deps calls e) :
    Looping deps host now ready (store.updatePicked f keeps ids) (⟨.store op, .ok a⟩ :: calls) := by
  have same : claims (⟨.store op, .ok a⟩ :: calls) = claims calls := by
    rw [claims_cons, marks.claims]
    rfl
  have flies : inFlight (⟨.store op, .ok a⟩ :: calls) = inFlight calls := by
    rw [inFlight, settles]
  have listed : ∀ id ∈ ids, id ∈ (inFlight calls).map fun e => e.id := by
    intro id member
    obtain ⟨e, there, named⟩ := mem_inFlight_of_opens (isOpen id member)
    exact List.mem_map.mpr ⟨e, there, named⟩
  refine ⟨?_, ?_, looping.tracks.mark marks unsent status route, ?_, ?_, ?_, ?_, ?_, ?_, ?_⟩
  · intro y member
    rcases List.mem_cons.mp member with rfl | member
    · exact works
    · exact looping.told y member
  · intro id enrichment input ctx answer member
    rcases List.mem_cons.mp member with named | member
    · cases congrArg Sigma.fst named
    · exact looping.known id enrichment input ctx answer member
  · rw [same]
    exact looping.nodup
  · rw [same]
    exact looping.routes
  · rw [same, flies]
    exact looping.flying
  · intro id stands
    rw [standing, marks.marks] at stands
    rw [flies]
    split at stands
    · obtain ⟨_, -, settled⟩ := Option.map_eq_some_iff.mp stands
      cases settled
    · exact looping.open_ id stands
  · intro claim there e member unmapped stands
    rw [same] at there
    rw [standing, marks.marks] at stands
    split at stands
    · rename_i marked
      obtain ⟨_, -, settled⟩ := Option.map_eq_some_iff.mp stands
      obtain ⟨e', flying, named⟩ := mem_inFlight_of_opens (isOpen _ marked)
      obtain rfl := looping.unique flying there member named
      exact looping.maps (posted (Option.some.inj settled) e' flying marked) unmapped
    · exact looping.unsent claim there e member unmapped stands
  · rw [same]
    exact looping.batches
  · intro routeId waits
    rw [same] at waits
    rw [rowsOf_updatePicked route fun id member r found => looping.claimed waits (listed id member) found]
    exact looping.waiting routeId waits

/-- A claim. -/
theorem claim {routeId : String} {lease : Lease} (looping : Looping deps host now ready store calls)
    (idle : inFlight calls = []) (first : routeId ∉ (claims calls).map Prod.fst)
    (fresh : FreshClaim calls routeId (store.claimDue routeId now deps.dispatch.batchMax lease).1) :
    Looping deps host now ready (store.claimDue routeId now deps.dispatch.batchMax lease).2
      (⟨.store (.claimDue routeId now deps.dispatch.batchMax lease),
        .ok (store.claimDue routeId now deps.dispatch.batchMax lease).1⟩ :: calls) := by
  have due : store.dueRows routeId now deps.dispatch.batchMax =
      ready.dueRows routeId now deps.dispatch.batchMax := by
    rw [dueRows_eq, dueRows_eq, looping.waiting routeId first]
  have tracks : Tracks False (⟨.store (.claimDue routeId now deps.dispatch.batchMax lease),
      .ok (store.claimDue routeId now deps.dispatch.batchMax lease).1⟩ :: calls)
      (store.claimDue routeId now deps.dispatch.batchMax lease).2 := looping.tracks.claim
  have rows : ∀ other, other ≠ routeId →
      (store.claimDue routeId now deps.dispatch.batchMax lease).2.rowsOf other = store.rowsOf other := by
    intro other differs
    show (store.updateWhere _ _ (EventRecord.claim_id now lease)).rowsOf other = _
    refine rowsOf_updateWhere (fun _ => rfl) fun r member taken => ?_
    obtain ⟨d, picked, named⟩ := List.mem_map.mp (List.contains_iff_mem.mp taken)
    obtain ⟨there, of, -⟩ := mem_dueRows picked
    have found := row?_of_mem there
    rw [named, row?_of_mem member] at found
    obtain rfl := Option.some.inj found
    rw [of]
    exact Ne.symm differs
  have batch : (store.claimDue routeId now deps.dispatch.batchMax lease).1 =
      (ready.dueRows routeId now deps.dispatch.batchMax).map (.claim now lease) := by
    rw [← due]
    rfl
  generalize (store.claimDue routeId now deps.dispatch.batchMax lease).1 = claimed at fresh tracks batch ⊢
  have more : claims (⟨.store (.claimDue routeId now deps.dispatch.batchMax lease), .ok claimed⟩ :: calls) =
      (routeId, claimed) :: claims calls := claims_cons _ _
  refine ⟨?_, ?_, tracks, ?_, ?_, ?_, ?_, ?_, ?_, ?_⟩
  · intro y member
    rcases List.mem_cons.mp member with rfl | member
    · exact ⟨claimed, rfl, fresh.route⟩
    · exact looping.told y member
  · intro id enrichment input ctx answer member
    rcases List.mem_cons.mp member with named | member
    · cases congrArg Sigma.fst named
    · exact looping.known id enrichment input ctx answer member
  · rw [more]
    show (claimed.map (fun e => e.id) ++ idsOf (claims calls)).Nodup
    refine List.nodup_append.mpr ⟨fresh.nodup, looping.nodup, fun id listed other old same => ?_⟩
    obtain ⟨e, member, rfl⟩ := List.mem_map.mp listed
    exact fresh.fresh e member (same ▸ old)
  · rw [more]
    exact List.nodup_cons.mpr ⟨first, looping.routes⟩
  · intro e member
    rw [more]
    exact ⟨_, List.mem_cons_self, member⟩
  · intro id stands
    show id ∈ claimed.map fun e => e.id
    by_contra unlisted
    have old : standing calls id = some none := (if_neg unlisted).symm.trans stands
    have listed := looping.open_ id old
    rw [idle] at listed
    cases listed
  · intro claim there e member unmapped stands
    rw [more] at there
    by_cases listed : e.id ∈ claimed.map fun e => e.id
    · have anew : some none = some (some ForwardResult.delivered) := (if_pos listed).symm.trans stands
      cases anew
    · have old : standing calls e.id = some (some .delivered) := (if_neg listed).symm.trans stands
      rcases List.mem_cons.mp there with rfl | there
      · exact listed (List.mem_map_of_mem member)
      · exact looping.unsent claim there e member unmapped old
  · intro claim there
    rw [more] at there
    rcases List.mem_cons.mp there with rfl | there
    · exact ⟨lease, batch⟩
    · exact looping.batches claim there
  · intro other waits
    rw [more, List.map_cons, List.mem_cons, not_or] at waits
    rw [rows other waits.1]
    exact looping.waiting other waits.2

/-- The release of the batch. -/
theorem release {nextAttemptAt : Int} {error : String} {ids : List Nat} {released : Nat}
    (looping : Looping deps host now ready store calls) (all : ids = (inFlight calls).map fun e => e.id) :
    Looping deps host now ready (store.releaseDelivering ids nextAttemptAt error).2
      (⟨.store (.releaseDelivering ids nextAttemptAt error), .ok released⟩ :: calls) := by
  have tracks : Tracks False
      (⟨.store (.releaseDelivering ids nextAttemptAt error), .ok released⟩ :: calls)
      (store.releaseDelivering ids nextAttemptAt error).2 := looping.tracks.release
  have same : claims (⟨.store (.releaseDelivering ids nextAttemptAt error), .ok released⟩ :: calls) =
      claims calls := claims_cons _ _
  refine ⟨?_, ?_, tracks, ?_, ?_, ?_, ?_, ?_, ?_, ?_⟩
  · intro y member
    rcases List.mem_cons.mp member with rfl | member
    · exact ⟨released, rfl⟩
    · exact looping.told y member
  · intro id enrichment input ctx answer member
    rcases List.mem_cons.mp member with named | member
    · cases congrArg Sigma.fst named
    · exact looping.known id enrichment input ctx answer member
  · rw [same]
    exact looping.nodup
  · rw [same]
    exact looping.routes
  · intro e member
    cases member
  · intro id stands
    by_cases listed : id ∈ ids ∧ standing calls id = some none
    · have settled : some (some ForwardResult.retried) = some none := (if_pos listed).symm.trans stands
      cases settled
    · have old : standing calls id = some none := (if_neg listed).symm.trans stands
      exact absurd ⟨all ▸ looping.open_ id old, old⟩ listed
  · intro claim there e member unmapped stands
    rw [same] at there
    by_cases listed : e.id ∈ ids ∧ standing calls e.id = some none
    · have settled : some (some ForwardResult.retried) = some (some .delivered) :=
        (if_pos listed).symm.trans stands
      cases settled
    · exact looping.unsent claim there e member unmapped ((if_neg listed).symm.trans stands)
  · rw [same]
    exact looping.batches
  · intro routeId waits
    rw [same] at waits
    rw [show (store.releaseDelivering ids nextAttemptAt error).2.rowsOf routeId = store.rowsOf routeId from
      rowsOf_releaseRows fun id member r found => looping.claimed waits (all ▸ member) found]
    exact looping.waiting routeId waits

/-- A working store answers every mark, so nothing slips. -/
theorem not_slipping (looping : Looping deps host now ready store calls) : ¬ slipping calls := by
  intro slips
  unfold slipping at slips
  split at slips
  · rename_i calls
    unfold halfSettled at slips
    split at slips
    · obtain ⟨a, same⟩ := looping.told ⟨_, _⟩
        (List.mem_cons_of_mem _ (List.mem_cons_of_mem _ List.mem_cons_self))
      cases same
    · cases slips
  · cases slips

end Looping

/-- What the methods of the loop keep to, all in one. -/
def looped (deps : DispatcherDeps) (host : Host) (now : Int) : Discipline Op Op.Answer :=
  ((protocol deps).both bookkeeping).both ((loopWork deps now).both (working host))

/-- One call of the loop, answered by the plant. -/
theorem Looping.step {plant : Plant} {calls : Calls} {op : Op}
    (looping : Looping deps plant.toHost now ready store calls)
    (allowed : (looped deps plant.toHost now).allowed calls op) :
    (looped deps plant.toHost now).admits calls op (plant.reply calls store op) ∧
      Looping deps plant.toHost now ready
        (stored store [⟨op, plant.reply calls store op⟩]) (⟨op, plant.reply calls store op⟩ :: calls) := by
  obtain ⟨⟨protocol_, books⟩, work, -⟩ := allowed
  have unslipped := looping.not_slipping
  have works : worksFor plant.toHost op (plant.reply calls store op) := plant.works store calls op
  cases op with
  | store op =>
    cases op with
    | claimDue routeId at_ limit lease =>
      obtain ⟨rfl, rfl⟩ := work
      have fresh : FreshClaim calls routeId (store.claimDue routeId at_ deps.dispatch.batchMax lease).1 :=
        looping.tracks.freshClaim books
      exact ⟨⟨⟨fresh.toIsClaim, fresh⟩, trivial, works⟩, looping.claim protocol_.1 books fresh⟩
    | markDelivered ids deliveredAt bulkRequestId =>
      refine ⟨⟨⟨trivial, trivial⟩, trivial, works⟩, ?_⟩
      exact looping.mark works (marks_delivered ids deliveredAt bulkRequestId) rfl books (fun _ => rfl)
        (fun _ => rfl) protocol_.1 fun _ => protocol_.2
    | markFailed ids nextAttemptAt error =>
      refine ⟨⟨⟨trivial, trivial⟩, trivial, works⟩, ?_⟩
      exact looping.mark works (marks_failed ids nextAttemptAt error) rfl books (fun _ => rfl)
        (fun _ => rfl) (protocol_.resolve_right unslipped) fun same => by cases same
    | markParked ids error =>
      refine ⟨⟨⟨trivial, trivial⟩, trivial, works⟩, ?_⟩
      exact looping.mark works (marks_parked ids error) rfl books (fun _ => rfl)
        (fun _ => rfl) protocol_ fun same => by cases same
    | releaseDelivering ids nextAttemptAt error =>
      exact ⟨⟨⟨trivial, trivial⟩, trivial, works⟩, looping.release protocol_⟩
    | _ => cases work
  | enrich id enrichment input ctx =>
    refine ⟨⟨⟨trivial, trivial⟩, trivial, works⟩, ?_⟩
    refine looping.quiet works (fun id' enrichment' input' ctx' answer same => ?_) ⟨rfl, fun _ _ => rfl⟩ rfl
    obtain ⟨rfl, rfl, rfl, rfl⟩ := Op.enrich.inj (congrArg Sigma.fst same)
    exact work
  | _ =>
    refine ⟨⟨⟨trivial, trivial⟩, trivial, works⟩, ?_⟩
    exact looping.quiet works (fun _ _ _ _ _ same => by cases congrArg Sigma.fst same)
      ⟨rfl, fun _ _ => rfl⟩ rfl

/-- Before the first claim. -/
theorem Looping.begin (told : ∀ x ∈ calls, worksFor host x.1 x.2)
    (known : ∀ id enrichment input ctx answer,
      (⟨.enrich id enrichment input ctx, answer⟩ : Exchange Op.Answer) ∈ calls →
        knowsEnrichment deps enrichment) (unclaimed : claims calls = []) (idle : inFlight calls = []) :
    Looping deps host now ready ready calls where
  told := told
  known := known
  tracks := Tracks.of_unclaimed unclaimed
  nodup := by
    rw [unclaimed]
    exact List.nodup_nil
  routes := by
    rw [unclaimed]
    exact List.nodup_nil
  flying e member := by
    rw [idle] at member
    cases member
  open_ id stands := by
    have claimed := standing_isSome.mp (Option.isSome_iff_exists.mpr ⟨_, stands⟩)
    rw [unclaimed] at claimed
    cases claimed
  unsent claim there := by
    rw [unclaimed] at there
    cases there
  batches claim there := by
    rw [unclaimed] at there
    cases there
  waiting _ _ := rfl

end

/-! ## A whole cycle -/

namespace Plant

variable (plant : Plant)

/-- The time a cycle begins with. -/
def now : Int := plant.answer [] .now

/-- The time its housekeeping begins with. -/
def startedAt : Int := plant.answer [⟨.now, plant.now⟩] .now

/-- The store after housekeeping: rows reclaimed, and swept where that is due. -/
def readied (deps : DispatcherDeps) (s : State) (store : MemoryStore) : MemoryStore :=
  let sweepDue : Bool := deps.dispatch.recoverIntervalMs ≤ plant.startedAt - s.lastSweepAt
  if s.reclaimOwner.isSome || sweepDue then
    let reclaimed := (store.apply (.recoverDelivering plant.now s.reclaimOwner)).2
    if sweepDue then (reclaimed.apply (.parkExpired plant.now deps.dispatch.parkAfterMs)).2
    else reclaimed
  else store

/-- One cycle in the plant: its result, its calls and the store it leaves. -/
def cycle (deps : DispatcherDeps) (s : State) (store : MemoryStore) :
    (Except RelayError CycleSummary × State) × Calls × MemoryStore :=
  ((Dispatcher.cycle deps).start s).exec plant.world [] store

end Plant

/-- The call is of an enrichment. -/
def isEnrich : Op → Bool
  | .enrich .. => true
  | _ => false

/-- What housekeeping leaves: nothing is claimed yet. -/
structure Prepared (ready store : MemoryStore) (calls : Calls) (s : State) : Prop where
  stored : stored store calls = ready
  unasked : calls.all fun x => !isEnrich x.1
  claims : claims calls = []
  idle : inFlight calls = []
  posts : posts calls = []
  summary : s.summary = {}

/-- What a cycle in a plant leaves: it attempted the due routes, up to the first
with an event that throws, and its rows are in the store as they stand. -/
structure Ended (deps : DispatcherDeps) (host : Host) (now : Int) (ready store : MemoryStore)
    (calls : Calls) : Prop where
  delivered : ∃ mid, claims mid = [] ∧ posts mid = [] ∧
    Delivered deps host (ready.routesWithDueEvents now) mid calls
  looping : Looping deps host now ready store calls
  idle : inFlight calls = []

section

variable {plant : Plant} {deps : DispatcherDeps} {store : MemoryStore} {calls : Calls} {s : State}

theorem housekeeping_told (fresh : s.summary = {}) :
    (housekeeping deps plant.now).Sat (plant.told store) [⟨.now, plant.now⟩] s fun calls s' r =>
      r = .ok () ∧ Prepared (plant.readied deps s store) store calls s' := by
  refine Method.sat_call_bind trivial fun startedAt told => Method.sat_get_bind ?_
  obtain rfl : startedAt = plant.startedAt := told
  unfold Plant.readied
  extract_lets sweepDue reclaimed
  split
  · refine Method.Sat.tryCatch (fun calls s' r => r = .ok () ∧ Prepared _ store calls s') ?_
      (fun _ _ _ holds => holds) fun _ _ _ holds => by cases holds.1
    refine Method.sat_get_bind (sat_storeCall_bind trivial (fun count told => ?_)
      fun err told => by cases told)
    refine Method.sat_modify_bind ?_
    split
    · refine sat_storeCall_bind trivial (fun expired told' => ?_) fun err told => by cases told
      refine Method.sat_call_bind trivial fun sweptAt _ => Method.Sat.modify ⟨rfl, ?_⟩
      exact ⟨rfl, rfl, rfl, rfl, rfl, fresh⟩
    · refine Method.Sat.pure ⟨rfl, ?_⟩
      exact ⟨rfl, rfl, rfl, rfl, rfl, fresh⟩
  · refine Method.Sat.pure ⟨rfl, ?_⟩
    exact ⟨rfl, rfl, rfl, rfl, rfl, fresh⟩

/-- What a run in the plant is told, a working store and known routes answer. -/
theorem working_told {α : Type} {m : Body α} {post : Method.Post Op.Answer State RelayError α}
    (told : ∀ x ∈ calls, worksFor plant.toHost x.1 x.2) (sat : m.Sat (plant.told store) calls s post) :
    m.Sat (plant.told store) calls s fun calls s r =>
      post calls s r ∧ ∀ x ∈ calls, worksFor plant.toHost x.1 x.2 := by
  refine Program.Sat.carry (E := plant.told store) (fun calls => ∀ x ∈ calls, worksFor plant.toHost x.1 x.2)
    sat told (fun calls op answer told _ given => ⟨given, fun x member => ?_⟩) fun _ _ _ _ => trivial
  rcases List.mem_cons.mp member with rfl | member
  · obtain rfl := given
    exact plant.works (stored store calls) calls op
  · exact told x member

/-- The loop, from the store housekeeping left. -/
theorem deliverDue_told {ready : MemoryStore} {due : List String} (nodup : due.Nodup)
    (begun : Looping deps plant.toHost plant.now ready (stored store calls) calls)
    (unclaimed : claims calls = []) (unsent : posts calls = []) (idle : inFlight calls = [])
    (counts : ∀ result, s.summary.count result = 0) (listed : due = ready.routesWithDueEvents plant.now) :
    (deliverDue deps plant.now due).Sat (plant.told store) calls s
      fun calls' _ _ => Ended deps plant.toHost plant.now ready (stored store calls') calls' := by
  have balanced : Balanced s.hooks [] [] calls s := by
    refine ⟨unclaimed, fun _ listed => (List.not_mem_nil listed).elim, [], (List.append_nil _).symm, ?_⟩
    refine ⟨?_, ?_, fun entry member => (List.not_mem_nil member).elim, counts⟩
    · rw [unclaimed]
      exact List.nodup_nil
    · rw [unclaimed]
      exact List.Perm.refl _
  have kept : (deliverDue deps plant.now due).Sat (protocol deps) calls s
      fun calls' _ _ => inFlight calls' = [] := deliverDue_sat idle
  have booked : (deliverDue deps plant.now due).Sat bookkeeping calls s (Settled s.hooks) :=
    deliverDue_balanced balanced nodup fun _ _ => List.not_mem_nil
  have worked : (deliverDue deps plant.now due).Sat (loopWork deps plant.now) calls s fun _ _ _ => True :=
    deliverDue_looping
  have done : (deliverDue deps plant.now due).Sat (working plant.toHost) calls s
      fun calls' _ _ => Delivered deps plant.toHost due calls calls' := deliverDue_done
  refine (Program.Sat.carry (E := plant.told store)
    (fun calls => Looping deps plant.toHost plant.now ready (stored store calls) calls)
    (Program.Sat.both (Program.Sat.both kept booked) (Program.Sat.both worked done)) begun
    (fun calls op answer looping allowed told => ?_) fun _ _ _ _ => trivial).mono ?_
  · obtain rfl := told
    rw [stored_cons]
    exact looping.step allowed
  · rintro calls' out ⟨⟨⟨idle, -⟩, -, delivered⟩, looping⟩
    rw [listed] at delivered
    exact ⟨⟨calls, unclaimed, unsent, delivered⟩, looping, idle⟩

/-- A cycle in a plant. -/
theorem cycle_told :
    (cycle deps).Sat (plant.told store) [] s fun calls' _ _ =>
      Ended deps plant.toHost plant.now (plant.readied deps s store) (stored store calls') calls' := by
  refine Method.sat_call_bind trivial fun now told => Method.sat_modify_bind ?_
  obtain rfl : now = plant.now := told
  have housekept : (housekeeping deps plant.now).Sat (plant.told store) [⟨.now, plant.now⟩]
      { s with summary := {} } _ := working_told (fun x member => by
        rw [List.mem_singleton.mp member]
        trivial) (housekeeping_told rfl)
  refine Method.Sat.bind _ housekept (fun calls s' _ prepared => ?_) fun _ _ _ failed => by cases failed.1.1
  obtain ⟨⟨-, prepared⟩, told⟩ := prepared
  replace prepared : Prepared (plant.readied deps s store) store calls s' := prepared
  refine Method.Sat.bind (fun calls' _ _ => Ended deps plant.toHost plant.now (plant.readied deps s store)
    (stored store calls') calls') ?_ (fun _ _ _ ended => Method.sat_get_bind (Method.Sat.pure ended))
    fun _ _ _ ended => ended
  refine Method.sat_call_bind trivial fun killswitch given => ?_
  obtain rfl : killswitch = .ok .none := given
  refine Method.sat_ofExcept_bind (fun killswitch same => ?_) fun _ same => by cases same
  obtain rfl := (Except.ok.inj same).symm
  rw [if_pos rfl]
  refine sat_storeCall_bind trivial (fun due given => ?_) fun err given => by cases given
  have listed : due = (plant.readied deps s store).routesWithDueEvents plant.now :=
    (Except.ok.inj given).trans
      (congrArg (fun ready : MemoryStore => ready.routesWithDueEvents plant.now) prepared.stored)
  subst listed
  refine Method.sat_modify_bind (deliverDue_told (nodup_routesWithDueEvents _ _) ?_ prepared.claims
    prepared.posts prepared.idle (fun result => ?_) rfl)
  · have ready : stored store (⟨.store (.routesWithDueEvents plant.now),
        .ok ((plant.readied deps s store).routesWithDueEvents plant.now)⟩ ::
          ⟨.getKillswitch, .ok .none⟩ :: calls) = plant.readied deps s store := prepared.stored
    rw [ready]
    refine Looping.begin (fun x member => ?_) (fun id enrichment input ctx answer member => ?_)
      prepared.claims prepared.idle
    · rcases List.mem_cons.mp member with rfl | member
      · exact ⟨_, rfl⟩
      · rcases List.mem_cons.mp member with rfl | member
        · rfl
        · exact told x member
    · rcases List.mem_cons.mp member with named | member
      · cases congrArg Sigma.fst named
      · rcases List.mem_cons.mp member with named | member
        · cases congrArg Sigma.fst named
        · cases List.all_eq_true.mp prepared.unasked _ member
  · show ({ s'.summary with due := _ } : CycleSummary).count result = 0
    rw [prepared.summary]
    cases result <;> rfl

/-! ## What an event is, claimed or not -/

theorem fillAll_claim {host : Host} (now : Int) (lease : Lease) (r : EventRecord) (payload : Json)
    (pending : List PendingEnrichment) (record : EndCloseRecord) :
    fillAll deps host (r.claim now lease) payload pending record = fillAll deps host r payload pending record := by
  induction pending generalizing record with
  | nil => rfl
  | cons p pending ih =>
    unfold fillAll
    simp only [ih]
    rfl

theorem recordOf_claim {host : Host} (now : Int) (lease : Lease) (r : EventRecord) :
    recordOf deps host (r.claim now lease) = recordOf deps host r := by
  unfold recordOf
  simp only [fillAll_claim]
  rfl

/-- Whether a cycle leaves the other events alone depends on the rows that are due. -/
theorem tolerable_congr {host : Host} {batch batch' : String → List EventRecord} {due : List String}
    (same : ∀ routeId, ∃ now lease, batch routeId = batch' routeId ∨
      batch routeId = (batch' routeId).map (.claim now lease)) :
    tolerable deps host batch due = tolerable deps host batch' due := by
  induction due with
  | nil => rfl
  | cons routeId due ih =>
    unfold tolerable
    rw [ih]
    obtain ⟨now, lease, same | same⟩ := same routeId
    · rw [same]
    · rw [same, List.any_map, List.all_map]
      have throws : abandons deps host ∘ EventRecord.claim now lease = abandons deps host := rfl
      have maps : (fun e => (recordOf deps host e).isNone) ∘ EventRecord.claim now lease =
          fun e => (recordOf deps host e).isNone := by
        funext r
        exact congrArg Option.isNone (recordOf_claim now lease r)
      rw [throws, maps]

/-! ## One bad event -/

/-- Every claimed event that does not map ends parked or in retry. -/
def Settles (deps : DispatcherDeps) (host : Host) (calls : Calls) (store : MemoryStore) : Prop :=
  ∀ claim ∈ claims calls, ∀ e ∈ claim.2, recordOf deps host e = none →
    ∃ r, store.row? e.id = some r ∧ (r.status = .parked ∨ r.status = .retry)

/-- Nothing that was claimed is left delivering, and what does not map is not delivered. -/
theorem Ended.settles {host : Host} {now : Int} {ready store : MemoryStore}
    (ended : Ended deps host now ready store calls) : Settles deps host calls store := by
  intro claim there e member unmapped
  have claimed : e.id ∈ idsOf (claims calls) :=
    List.mem_flatMap.mpr ⟨claim, there, List.mem_map_of_mem member⟩
  obtain ⟨was, stands⟩ := Option.isSome_iff_exists.mp (standing_isSome.mpr claimed)
  rcases ended.looping.tracks _ was stands with ⟨r, found, status, -⟩ | ⟨-, -, -, gone⟩
  · refine ⟨r, found, ?_⟩
    cases was with
    | none =>
      have listed := ended.looping.open_ _ stands
      rw [ended.idle] at listed
      cases listed
    | some result =>
      cases result with
      | delivered => exact absurd stands (ended.looping.unsent claim there e member unmapped)
      | retried => exact .inr status
      | parked => exact .inl status
  · exact gone.elim

theorem Ended.isolated_iff {host : Host} {now : Int} {ready store : MemoryStore}
    (ended : Ended deps host now ready store calls) :
    Isolated deps host (ready.routesWithDueEvents now) calls ↔
      tolerable deps host (fun routeId => ready.dueRows routeId now deps.dispatch.batchMax)
        (ready.routesWithDueEvents now) := by
  classical
  obtain ⟨mid, unclaimed, unsent, delivered⟩ := ended.delivered
  let batch : String → List EventRecord := fun routeId =>
    if claimed : ∃ events, (routeId, events) ∈ claims calls then claimed.choose
    else ready.dueRows routeId now deps.dispatch.batchMax
  have batches : ∀ claim ∈ claims calls, claim.2 = batch claim.1 := by
    intro claim member
    have claimed : ∃ events, (claim.1, events) ∈ claims calls := ⟨claim.2, member⟩
    have chosen : batch claim.1 = claimed.choose := dif_pos claimed
    rw [chosen]
    exact congrArg Prod.snd
      (List.inj_on_of_nodup_map ended.looping.routes member claimed.choose_spec rfl)
  have same : ∀ routeId, ∃ now' lease, batch routeId = ready.dueRows routeId now deps.dispatch.batchMax ∨
      batch routeId = (ready.dueRows routeId now deps.dispatch.batchMax).map (.claim now' lease) := by
    intro routeId
    by_cases claimed : ∃ events, (routeId, events) ∈ claims calls
    · obtain ⟨lease, spelled⟩ := ended.looping.batches _ claimed.choose_spec
      have chosen : batch routeId = claimed.choose := dif_pos claimed
      exact ⟨now, lease, .inr (chosen.trans spelled)⟩
    · exact ⟨now, ⟨"", 0⟩, .inl (dif_neg claimed)⟩
  rw [← tolerable_congr same]
  refine delivered.isolated_iff (nodup_routesWithDueEvents ready now) (fun routeId _ => ?_)
    (fun post member => ?_) fun claim member _ => batches claim member
  · rw [unclaimed]
    exact List.not_mem_nil
  · rw [unsent] at member
    cases member

/-- A cycle over known routes that are not paused, with a working store, leaves
the other events alone and settles the bad ones, exactly where an event that
throws stands in the batch of the last due route at most, and then no event of
that batch maps. -/
theorem bad_event_wedges_nothing_iff (plant : Plant) (deps : DispatcherDeps) (s : State)
    (store : MemoryStore) :
    (Isolated deps plant.toHost ((plant.readied deps s store).routesWithDueEvents plant.now)
        (plant.cycle deps s store).2.1 ∧
      Settles deps plant.toHost (plant.cycle deps s store).2.1 (plant.cycle deps s store).2.2) ↔
    tolerable deps plant.toHost
      (fun routeId => (plant.readied deps s store).dueRows routeId plant.now deps.dispatch.batchMax)
      ((plant.readied deps s store).routesWithDueEvents plant.now) := by
  obtain ⟨ended, same⟩ := Plant.exec_of_told (cycle_told : (cycle deps).Sat (plant.told store) [] s _)
  have ended' : Ended deps plant.toHost plant.now (plant.readied deps s store)
      (plant.cycle deps s store).2.2 (plant.cycle deps s store).2.1 := by
    rw [show (plant.cycle deps s store).2.2 = stored store (plant.cycle deps s store).2.1 from same]
    exact ended
  rw [and_iff_left ended'.settles]
  exact ended'.isolated_iff

end

/-! ## An event that throws -/

/-- A plant with one route, where End Close takes what is posted. -/
def samplePlant : Plant where
  routes _ := sampleRoute
  enrich _ _ _ _ := .ok .undefined
  answer _ op := ((sampleReply 0 .absent).respond {} op).1

/-- A store with two events of the route: the text of the first is not JSON. -/
def oneBad : MemoryStore :=
  (((({} : MemoryStore).apply (.insert (sampleEvent "e1" [9]))).2).apply (.insert (sampleEvent "e2" [1]))).2
where
  sampleEvent (key : String) (payload : Bytes) : NewEvent := {
    routeId := "payments", source := "payabli", eventId := key, eventType := none, payload
    payloadIv := none, headersJson := "\x7b\x7d", receivedAt := 0, status := .pending
    idempotencyKey := key }

/-- The event whose text is not JSON keeps the other one from being posted. -/
theorem bad_event_wedges_its_batch :
    ¬ (Isolated (sampleDeployment.dispatcher "a") samplePlant.toHost
        ((samplePlant.readied (sampleDeployment.dispatcher "a") { reclaimOwner := none } oneBad).routesWithDueEvents
          samplePlant.now)
        (samplePlant.cycle (sampleDeployment.dispatcher "a") { reclaimOwner := none } oneBad).2.1 ∧
      Settles (sampleDeployment.dispatcher "a") samplePlant.toHost
        (samplePlant.cycle (sampleDeployment.dispatcher "a") { reclaimOwner := none } oneBad).2.1
        (samplePlant.cycle (sampleDeployment.dispatcher "a") { reclaimOwner := none } oneBad).2.2) := by
  rintro ⟨isolated, -⟩
  have unsent : posts (samplePlant.cycle (sampleDeployment.dispatcher "a") { reclaimOwner := none }
      oneBad).2.1 = [] := rfl
  obtain ⟨post, sent, -⟩ := isolated.posted _ (List.mem_of_getElem? (i := 0) rfl)
    (List.mem_singleton.mpr rfl) _ (List.mem_of_getElem? (i := 1) rfl) _ rfl
  rw [unsent] at sent
  cases sent

end Dispatcher

end EndCloseRelay
