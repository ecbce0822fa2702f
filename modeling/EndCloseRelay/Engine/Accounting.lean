import EndCloseRelay.Engine.Leases
import EndCloseRelay.Engine.NoLoss
import EndCloseRelay.Forward.Accounts

/-!
# What a cycle reports

The rows a cycle has claimed stand in the store as its calls say, as long as no
operator and no other instance acts on them: webhooks may come in and retention
may prune meanwhile.  With the balanced books of `Accounts` this gives
`cycle_accounts`, what the summary and the hooks of a cycle that resolves are
worth.
-/

namespace EndCloseRelay

open Interaction

/-- The status a row is settled in. -/
def ForwardResult.status : ForwardResult → EventStatus
  | delivered => .delivered
  | retried => .retry
  | parked => .parked

/-- The status of a claimed row that stands so. -/
def standingStatus : Option ForwardResult → EventStatus
  | none => .delivering
  | some result => result.status

/-- Retention prunes. -/
def Action.isPrune : Action → Bool
  | .prune .. => true
  | _ => false

namespace MemoryStore

/-- The due routes are listed once each. -/
theorem nodup_routesWithDueEvents (store : MemoryStore) (now : Int) :
    (store.routesWithDueEvents now).Nodup := by
  unfold routesWithDueEvents
  suffices every : ∀ (rows : List EventRecord) (out : List String), out.Nodup →
      (rows.foldl (fun out r => if r.routeId ∈ out then out else out ++ [r.routeId]) out).Nodup from
    every _ [] List.nodup_nil
  intro rows
  induction rows with
  | nil => exact fun out nodup => nodup
  | cons r rows ih =>
    intro out nodup
    refine ih _ ?_
    show (if r.routeId ∈ out then out else out ++ [r.routeId]).Nodup
    split
    · exact nodup
    · rename_i absent
      exact List.nodup_append.mpr ⟨nodup, List.nodup_singleton _, fun a listed b new same =>
        absent (List.mem_singleton.mp new ▸ same ▸ listed)⟩

/-- Picking ids keeps what the change keeps. -/
theorem keeps_updatePicked {α : Type} (g : EventRecord → α) {store : MemoryStore}
    {f : EventRecord → EventRecord} (keeps : ∀ r, (f r).id = r.id) (ids : List Nat)
    (same : ∀ r, g (f r) = g r) {id : Nat} {r : EventRecord} (found : store.row? id = some r) :
    ∃ r', (store.updatePicked f keeps ids).row? id = some r' ∧ g r' = g r := by
  refine ⟨f^[ids.count id] r, ?_, ?_⟩
  · rw [row?_updatePicked, found]
    rfl
  · generalize ids.count id = n
    induction n with
    | zero => rfl
    | succ n ih => rw [Function.iterate_succ_apply', same, ih]

end MemoryStore

namespace System

open Dispatcher

/-! ## The claimed rows in the store -/

/-- A claimed row is in the store as it stands, under a route the cycle has
claimed; a delivered one may have been pruned. -/
def Stands (pruned : Prop) (calls : Calls) (store : MemoryStore) (id : Nat)
    (was : Option ForwardResult) : Prop :=
  (∃ r, store.row? id = some r ∧ r.status = standingStatus was ∧
    r.routeId ∈ (claims calls).map Prod.fst) ∨
  (store.row? id = none ∧ was = some .delivered ∧ id < store.nextId ∧ pruned)

/-- Every claimed row is in the store as it stands. -/
def Tracks (pruned : Prop) (calls : Calls) (store : MemoryStore) : Prop :=
  ∀ id was, standing calls id = some was → Stands pruned calls store id was

section

variable {D : Deployment} {s : System} {i : String} {pruned : Prop} {calls : Calls}
  {store : MemoryStore} {x : Exchange Op.Answer} {op : StoreOp} {id : Nat}

theorem Tracks.neutral (tracks : Tracks pruned calls store) (neutral : Neutral x) :
    Tracks pruned (x :: calls) store := by
  intro id was stands
  rw [standing, neutral.2] at stands
  have old := tracks id was stands
  unfold Stands at old ⊢
  rwa [claims_cons, neutral.1]

/-- A call that fails changes nothing. -/
theorem neutral_of_error (op : StoreOp) (err : RelayError) : Neutral ⟨.store op, .error err⟩ := by
  cases op <;> exact ⟨rfl, fun _ _ => rfl⟩

/-- A row that no call touches stands as before. -/
theorem Stands.mono {store' : MemoryStore} {was : Option ForwardResult} {calls' : Calls}
    (stands : Stands pruned calls store id was) (row : store'.row? id = store.row? id)
    (below : store.nextId ≤ store'.nextId)
    (more : (claims calls).map Prod.fst ⊆ (claims calls').map Prod.fst) :
    Stands pruned calls' store' id was := by
  rcases stands with ⟨r, found, status, claimed⟩ | ⟨absent, sent, known, gone⟩
  · exact .inl ⟨r, row.trans found, status, more claimed⟩
  · exact .inr ⟨row.trans absent, sent, Nat.lt_of_lt_of_le known below, gone⟩

/-- A mark leaves the rows it names in its status. -/
theorem Tracks.mark {result : ForwardResult} {ids : List Nat} {f : EventRecord → EventRecord}
    {keeps : ∀ r, (f r).id = r.id} (tracks : Tracks pruned calls store) (marks : Marks x ids result)
    (unsent : ∀ id ∈ ids, standing calls id ≠ some (some .delivered))
    (status : ∀ r, (f r).status = result.status) (route : ∀ r, (f r).routeId = r.routeId) :
    Tracks pruned (x :: calls) (store.updatePicked f keeps ids) := by
  have same : claims (x :: calls) = claims calls := by
    rw [claims_cons, marks.claims]
    rfl
  intro id was stands
  by_cases listed : id ∈ ids
  · rw [standing, marks.marks, if_pos listed] at stands
    obtain ⟨before, stood, rfl⟩ := Option.map_eq_some_iff.mp stands
    rcases tracks id before stood with ⟨r, found, -, claimed⟩ | ⟨-, rfl, -⟩
    · obtain ⟨r', found', kept⟩ := MemoryStore.keeps_updatePicked (fun r => r.routeId) keeps ids
        route found
      refine .inl ⟨r', found', MemoryStore.status_updatePicked _ status listed found', ?_⟩
      rw [same, kept]
      exact claimed
    · exact absurd stood (unsent id listed)
  · rw [marks.spared listed] at stands
    refine (tracks id was stands).mono ?_ ?_ (same ▸ List.Subset.refl _)
    · rw [MemoryStore.row?_updatePicked, List.count_eq_zero_of_not_mem listed]
      cases store.row? id <;> rfl
    · exact Nat.le_of_eq (MemoryStore.nextId_updatePicked _ _ _).symm

/-- Before the first claim there is nothing to track. -/
theorem Tracks.of_unclaimed (none_ : claims calls = []) : Tracks pruned calls store := by
  intro id was stands
  have claimed := standing_isSome.mp (Option.isSome_iff_exists.mpr ⟨was, stands⟩)
  rw [none_] at claimed
  cases claimed

/-- A claim leaves the rows it picks delivering. -/
theorem Tracks.claim {routeId : String} {now : Int} {limit : Nat} {lease : Lease}
    (tracks : Tracks pruned calls store) :
    Tracks pruned (⟨.store (.claimDue routeId now limit lease),
      .ok (store.claimDue routeId now limit lease).1⟩ :: calls)
      (store.claimDue routeId now limit lease).2 := by
  have more : (claims (⟨.store (.claimDue routeId now limit lease),
      .ok (store.claimDue routeId now limit lease).1⟩ :: calls)).map Prod.fst =
        routeId :: (claims calls).map Prod.fst := by
    rw [claims_cons]
    rfl
  intro id was stands
  by_cases listed : id ∈ ((store.claimDue routeId now limit lease).1.map fun e => e.id)
  · obtain rfl : none = was := Option.some.inj ((if_pos listed).symm.trans stands)
    obtain ⟨e, member, rfl⟩ := List.mem_map.mp listed
    obtain ⟨r, picked, rfl⟩ := List.mem_map.mp member
    obtain ⟨there, route, -⟩ := MemoryStore.mem_dueRows picked
    have claimed := MemoryStore.row?_claimDue routeId now limit lease (MemoryStore.row?_of_mem there)
    rw [if_pos picked] at claimed
    refine .inl ⟨r.claim now lease, claimed, rfl, ?_⟩
    rw [more]
    exact route ▸ List.mem_cons_self ..
  · have stood : standing calls id = some was := (if_neg listed).symm.trans stands
    have before := tracks id was stood
    refine before.mono ?_ (MemoryStore.nextId_le_apply (.claimDue routeId now limit lease)) ?_
    · cases found : store.row? id with
      | none =>
        unfold MemoryStore.claimDue
        rw [MemoryStore.row?_updateWhere, found]
        rfl
      | some r =>
        rw [MemoryStore.row?_claimDue routeId now limit lease found]
        obtain ⟨-, rfl⟩ := MemoryStore.row?_mem found
        have spared : r ∉ store.dueRows routeId now limit := fun picked =>
          listed (List.mem_map.mpr ⟨r.claim now lease, List.mem_map_of_mem picked, rfl⟩)
        rw [if_neg spared]
    · rw [more]
      exact List.subset_cons_self _ _

/-- A release retries the rows that are still delivering. -/
theorem Tracks.release {ids : List Nat} {nextAttemptAt : Int} {error : String} {released : Nat}
    (tracks : Tracks pruned calls store) :
    Tracks pruned (⟨.store (.releaseDelivering ids nextAttemptAt error), .ok released⟩ :: calls)
      (store.releaseDelivering ids nextAttemptAt error).2 := by
  intro id was stands
  have row := MemoryStore.row?_releaseRows nextAttemptAt error ids (0, store) id
  have below := Nat.le_of_eq (MemoryStore.nextId_releaseRows nextAttemptAt error ids (0, store)).symm
  by_cases taken : id ∈ ids ∧ standing calls id = some none
  · obtain rfl : some .retried = was := Option.some.inj ((if_pos taken).symm.trans stands)
    rcases tracks id none taken.2 with ⟨r, found, status, claimed⟩ | ⟨-, sent, -⟩
    · rw [found, Option.map_some, if_pos ⟨taken.1, status⟩] at row
      exact .inl ⟨r.fail nextAttemptAt error, row, rfl, claimed⟩
    · cases sent
  · have stood : standing calls id = some was := (if_neg taken).symm.trans stands
    have before := tracks id was stood
    refine before.mono ?_ below (List.Subset.refl _)
    rcases before with ⟨r, found, status, -⟩ | ⟨absent, -⟩
    · have spared : ¬ (id ∈ ids ∧ r.status = .delivering) := by
        intro both
        refine taken ⟨both.1, ?_⟩
        rw [stood]
        cases was with
        | none => rfl
        | some result =>
          rw [status] at both
          cases result <;> cases both.2
      rw [found, Option.map_some, if_neg spared] at row
      exact row.trans found.symm
    · rw [absent] at row
      exact row.trans absent.symm

/-- A call of the cycle to the store. -/
theorem Tracks.apply (tracks : Tracks pruned calls store) (allowed : bookAllowed calls op) :
    Tracks pruned (⟨.store op, .ok (store.apply op).1⟩ :: calls) (store.apply op).2 := by
  cases op with
  | routesWithDueEvents now => exact tracks.neutral ⟨rfl, fun _ _ => rfl⟩
  | claimDue routeId now limit lease => exact tracks.claim
  | markDelivered ids deliveredAt bulkRequestId =>
    exact tracks.mark (marks_delivered ids deliveredAt bulkRequestId) allowed (fun _ => rfl) fun _ => rfl
  | markFailed ids nextAttemptAt error =>
    exact tracks.mark (marks_failed ids nextAttemptAt error) allowed (fun _ => rfl) fun _ => rfl
  | markParked ids error =>
    exact tracks.mark (marks_parked ids error) allowed (fun _ => rfl) fun _ => rfl
  | releaseDelivering ids nextAttemptAt error => exact tracks.release
  | recoverDelivering now owner => exact Tracks.of_unclaimed allowed
  | parkExpired now maxAgeMs => exact Tracks.of_unclaimed allowed
  | _ => cases allowed

/-- Whatever the world answers to a call of the cycle. -/
theorem Tracks.respond {op : Op} (tracks : Tracks pruned calls store) (reply : Reply)
    (allowed : bookkeeping.allowed calls op) :
    Tracks pruned (⟨op, (reply.respond store op).1⟩ :: calls) (reply.respond store op).2 := by
  cases op with
  | store op =>
    rcases reply.respond_store store op with ⟨fault, -, same⟩ | ⟨-, same⟩
    · rw [same]
      exact tracks.neutral (neutral_of_error op fault.error)
    · rw [same]
      exact tracks.apply allowed
  | _ => exact tracks.neutral ⟨rfl, fun _ _ => rfl⟩

/-- A claim of a route that was not claimed returns rows that were not. -/
theorem Tracks.freshClaim {routeId : String} {now : Int} {limit : Nat} {lease : Lease}
    (tracks : Tracks pruned calls store) (allowed : routeId ∉ (claims calls).map Prod.fst) :
    FreshClaim calls routeId (store.claimDue routeId now limit lease).1 := by
  refine ⟨isClaim_claimDue store routeId now limit lease, fun e member claimed => ?_⟩
  obtain ⟨r, picked, rfl⟩ := List.mem_map.mp member
  obtain ⟨there, route, -⟩ := MemoryStore.mem_dueRows picked
  have found := MemoryStore.row?_of_mem there
  obtain ⟨was, stands⟩ := Option.isSome_iff_exists.mp (standing_isSome.mpr claimed)
  rcases tracks _ was stands with ⟨r', found', -, listed⟩ | ⟨absent, -⟩
  · obtain rfl := Option.some.inj (found.symm.trans found')
    exact allowed (route ▸ listed)
  · cases found.symm.trans absent

/-- The store answers as the books need it. -/
theorem Tracks.admits {op : Op} (tracks : Tracks pruned calls store) (reply : Reply)
    (allowed : bookkeeping.allowed calls op) :
    bookkeeping.admits calls op (reply.respond store op).1 := by
  cases op with
  | store op =>
    rcases reply.respond_store store op with ⟨fault, -, same⟩ | ⟨-, same⟩
    · rw [same]
      cases op <;> trivial
    · rw [same]
      cases op with
      | routesWithDueEvents now => exact MemoryStore.nodup_routesWithDueEvents store now
      | claimDue routeId now limit lease => exact tracks.freshClaim allowed
      | _ => trivial
  | _ => trivial

/-! ## A cycle among webhooks and pruning -/

/-- What goes on while the cycle of an instance lasts, when it is the only
dispatcher and no operator acts. -/
def DuringCycle (i : String) : Action → Prop
  | .answer j _ => j = i
  | .ingest .. | .prune .. => True
  | _ => False

/-- The relay from the moment an instance begins a cycle. -/
def cycleFrom (D : Deployment) (i : String) (s : System) : Machine System Action where
  init := s.start D i
  step := step D

/-- The cycle keeps its books, and its rows are in the store as they stand. -/
def Accounted (pruned : Prop) (hooks : List RelayEvent) (i : String) (s : System) : Prop :=
  ((s.instances i).rest.Sat bookkeeping (s.instances i).calls fun calls out =>
    ∀ summary, out.1 = .ok summary →
      Balanced hooks (claims calls) [] calls out.2 ∧ out.2.summary = summary) ∧
  Tracks pruned (s.instances i).calls s.store

/-- A webhook or a prune leaves the claimed rows as they stand. -/
theorem Tracks.others {a : Action} (tracks : Tracks pruned calls s.store)
    (other : ∀ j reply, a ≠ .answer j reply) (during : DuringCycle i a)
    (prunes : a.isPrune → pruned) : Tracks pruned calls (step D s a).store := by
  intro id was stands
  have before := tracks id was stands
  have below : s.store.nextId ≤ (step D s a).store.nextId := nextId_step D s a
  have move := row_move D s a id
  rcases before with ⟨r, found, status, claimed⟩ | ⟨absent, sent, known, gone⟩
  · rw [found] at move
    generalize after : (step D s a).store.row? id = row at move
    cases move with
    | same => exact .inl ⟨r, after, status, claimed⟩
    | call applied change =>
      cases a with
      | prune now deliveredDays ledgerDays limit =>
        obtain rfl := Option.some.inj applied
        cases change with
        | same => exact .inl ⟨r, after, status, claimed⟩
        | step moved =>
          cases moved with
          | wipe terminal => exact .inl ⟨r.wipe, after, status, claimed⟩
        | deleted terminal =>
          refine .inr ⟨after, ?_, ?_, prunes rfl⟩
          · rw [EventRecord.isTerminal_iff, status] at terminal
            cases was with
            | none => cases terminal
            | some result =>
              cases result with
              | delivered => rfl
              | retried => cases terminal
              | parked => cases terminal
          · exact Nat.lt_of_lt_of_le (MemoryStore.row?_lt found) below
      | answer j reply => exact absurd rfl (other j reply)
      | ingest routeId raw world => cases applied
      | _ => cases during
  · rw [absent] at move
    generalize after : (step D s a).store.row? id = row at move
    cases move with
    | same => exact .inr ⟨after, sent, Nat.lt_of_lt_of_le known below, gone⟩
    | stored webhook new status => omega
    | call applied change =>
      cases a with
      | prune now deliveredDays ledgerDays limit =>
        obtain rfl := Option.some.inj applied
        cases change with
        | same => exact .inr ⟨after, sent, Nat.lt_of_lt_of_le known below, gone⟩
      | answer j reply => exact absurd rfl (other j reply)
      | ingest routeId raw world => cases applied
      | _ => cases during

theorem instances_ingest (D : Deployment) (s : System) (routeId : String) (raw : RawRequest)
    (world : Ingest.Calls → Ingest.Reply) :
    (step D s (.ingest routeId raw world)).instances = s.instances :=
  (s.ingest_cases D routeId raw world).1

theorem accounted_step {hooks : List RelayEvent} {a : Action}
    (accounted : Accounted pruned hooks i s) (during : DuringCycle i a)
    (prunes : a.isPrune → pruned) : Accounted pruned hooks i (step D s a) := by
  cases a with
  | answer j reply =>
    obtain rfl : j = i := during
    show Accounted pruned hooks j (s.answer j reply)
    rcases s.answer_cases j reply with ⟨-, same⟩ | ⟨op, next, rest, answers, after⟩
    · rw [same]
      exact accounted
    · obtain ⟨sat, tracks⟩ := accounted
      rw [rest] at sat
      unfold Accounted
      rw [after, answers.calls, answers.store]
      exact ⟨sat.2 _ (tracks.admits reply sat.1), tracks.respond reply sat.1⟩
  | ingest routeId raw world =>
    unfold Accounted
    rw [instances_ingest]
    refine ⟨accounted.1, accounted.2.others (fun _ _ equal => by cases equal) during prunes⟩
  | prune now deliveredDays ledgerDays limit =>
    exact ⟨accounted.1, accounted.2.others (fun _ _ equal => by cases equal) during prunes⟩
  | _ => cases during

/-- What a finished cycle reported: its summary counts the rows it claimed, one
hook settled each of them, and the row is in the store in the status the hook
told, unless it was delivered and retention has deleted it since. -/
structure Reported (pruned : Prop) (summary : CycleSummary) (told : List RelayEvent)
    (calls : Calls) (store : MemoryStore) : Prop where
  total : summary.delivered + summary.retried + summary.parked = (idsOf (claims calls)).length
  once : ((settlements told).map Prod.fst).Perm (idsOf (claims calls))
  distinct : (idsOf (claims calls)).Nodup
  status : ∀ id result, (id, result) ∈ settlements told →
    (∃ r, store.row? id = some r ∧ r.status = result.status) ∨
      (store.row? id = none ∧ result = .delivered ∧ pruned)

/-- The three counts add up to the rows told of. -/
theorem count_sum (told : List (Nat × ForwardResult)) :
    told.countP (fun entry => entry.2 = .delivered) + told.countP (fun entry => entry.2 = .retried) +
      told.countP (fun entry => entry.2 = .parked) = told.length := by
  induction told with
  | nil => rfl
  | cons entry told ih =>
    obtain ⟨id, result⟩ := entry
    simp only [List.countP_cons, List.length_cons]
    cases result <;> simp <;> omega

/-- A cycle that resolves, with one dispatcher on the store and no operator
acting, reports what it did. -/
theorem cycle_accounts (D : Deployment) (i : String) (s : System)
    (r : Except RelayError CycleSummary) (state : Dispatcher.State)
    (idle : (s.instances i).rest = .pure (r, state)) (actions : List Action)
    (during : ∀ a ∈ actions, DuringCycle i a) (summary : CycleSummary) (state' : Dispatcher.State)
    (resolved : (((cycleFrom D i s).run actions).instances i).rest = .pure (.ok summary, state')) :
    ∃ told, state'.hooks = state.hooks ++ told ∧
      Reported (∃ a ∈ actions, a.isPrune) summary told
        (((cycleFrom D i s).run actions).instances i).calls ((cycleFrom D i s).run actions).store := by
  have started : Accounted (∃ a ∈ actions, a.isPrune) state.hooks i (cycleFrom D i s).init := by
    show Accounted _ _ i (s.start D i)
    unfold start
    rw [idle]
    simp only [Accounted, setInstance_same]
    exact ⟨Dispatcher.runOnce_balanced (D.dispatcher i) state, Tracks.of_unclaimed rfl⟩
  have accounted := Machine.listed_invariant (M := cycleFrom D i s)
    (Accounted (∃ a ∈ actions, a.isPrune) state.hooks i)
    (fun a => DuringCycle i a ∧ (a.isPrune → ∃ a ∈ actions, a.isPrune)) started
    (fun s a accounted kind => accounted_step accounted kind.1 kind.2)
    (fun a member => ⟨during a member, fun prunes => ⟨a, member, prunes⟩⟩)
  obtain ⟨sat, tracks⟩ := accounted
  rw [resolved] at sat
  obtain ⟨balanced, same⟩ := sat summary rfl
  have kept : state'.summary = summary := same
  subst kept
  obtain ⟨told, hooks, books⟩ := balanced.books
  have each := books.each
  rw [List.append_nil] at each
  refine ⟨told, hooks, ?_, each, books.nodup, ?_⟩
  · have delivered := books.count .delivered
    have retried := books.count .retried
    have parked := books.count .parked
    have sum := count_sum (settlements told)
    have length := each.length_eq
    rw [List.length_map] at length
    simp only [CycleSummary.count] at delivered retried parked
    omega
  · intro id result member
    have stands := books.agree (id, result) member
    rcases tracks id (some result) stands with ⟨r, found, status, -⟩ | ⟨absent, sent, -, gone⟩
    · exact .inl ⟨r, found, status⟩
    · exact .inr ⟨absent, Option.some.inj sent, gone⟩

/-- The summary a cycle of `i` has resolved with. -/
def summary? (s : System) (i : String) : Option CycleSummary :=
  match (s.instances i).rest with
  | .pure (.ok summary, _) => some summary
  | _ => none

theorem resolved_of_summary {s : System} {i : String} {told : CycleSummary}
    (resolved : s.summary? i = some told) :
    ∃ state', (s.instances i).rest = .pure (.ok told, state') := by
  unfold summary? at resolved
  split at resolved
  · next told' state' rest =>
    obtain rfl := Option.some.inj resolved
    exact ⟨state', rest⟩
  · exact nomatch resolved

/-- Refunds go to a route of their own. -/
def returnsRoute : RouteConfig :=
  { sampleRoute with id := "refunds", map := { sampleRoute.map with dataStreamKey := "refunds" } }

/-- A payment without an amount. -/
def amountless : Json := .obj [("Event", .str "ApprovedPayment"), ("TransactionId", .str "t2")]

/-- A refund. -/
def sampleRefund : Json :=
  .obj [("Event", .str "ApprovedPayment"), ("TransactionId", .str "r1"), ("amount", .str "1.00")]

/-- The texts of the three. -/
def busyDocuments : List (Bytes × Json) :=
  [([1], samplePayment), ([2], amountless), ([3], sampleRefund)]

/-- The sample deployment, which also reads the other two. -/
def busyDeployment : Deployment where
  ingest := { runtime := .knowing busyDocuments, codec := plainCodec }
  dispatcher i := {
    runtime := .knowing busyDocuments, codec := plainCodec, maskingKey := [], instanceId := i }
  named _ := rfl

/-- A payment, the payment without an amount, and the refund come in. -/
def busyIngests : List Action :=
  [sampleIngest,
    .ingest "payments" { sampleRequest with rawBody := some [2] } fun _ => sampleWorld sampleRoute,
    .ingest "refunds" { sampleRequest with rawBody := some [3] } fun _ => sampleWorld returnsRoute]

/-- Both routes are known, and End Close accepts every POST. -/
def busyReply (fault : Option StoreFault := none) : Dispatcher.Reply where
  fault
  answer
    | .getRoute id => .ok (some (if id = "refunds" then returnsRoute else sampleRoute))
    | op => (sampleReply 0 .absent).answer op

/-- The write that says the refund is delivered fails. -/
def busyCycle : List Action :=
  List.replicate 25 (.answer "a" busyReply) ++
    .answer "a" (busyReply (some (.failed "disk I/O error" "markDelivered"))) ::
    List.replicate 10 (.answer "a" busyReply)

/-- The cycle of `a` once the three webhooks are stored. -/
def busySystem : System :=
  (cycleFrom busyDeployment "a" ((machine busyDeployment).run busyIngests)).run busyCycle

/-- One payment is delivered, the one without an amount parked, and the refund
returned once its write has failed. -/
theorem cycle_accounts_busy :
    (∃ told, Reported (∃ a ∈ busyCycle, a.isPrune)
        { delivered := 1, parked := 1, retried := 1, due := ["payments", "refunds"] } told
        (busySystem.instances "a").calls busySystem.store) ∧
      busySystem.store.rows.map (fun r => (r.id, r.status)) =
        [(1, .delivered), (2, .parked), (3, .retry)] := by
  obtain ⟨state', rest⟩ := @resolved_of_summary busySystem "a"
    { delivered := 1, parked := 1, retried := 1, due := ["payments", "refunds"] } (by decide +kernel)
  have waiting : ((machine busyDeployment).run busyIngests).instances = idle busyDeployment := by
    show (step busyDeployment (step busyDeployment (step busyDeployment _ (.ingest _ _ _))
      (.ingest _ _ _)) (.ingest _ _ _)).instances = _
    simp only [instances_ingest]
    rfl
  unfold busySystem at rest ⊢
  obtain ⟨told, -, reported⟩ := cycle_accounts busyDeployment "a"
    ((machine busyDeployment).run busyIngests) (.ok {}) (.initial (busyDeployment.dispatcher "a"))
    (by rw [waiting]; rfl) busyCycle (fun a member => by
      simp only [busyCycle, List.mem_append, List.mem_cons, List.mem_replicate] at member
      rcases member with ⟨-, rfl⟩ | rfl | ⟨-, rfl⟩ <;> rfl) _ _ rest
  exact ⟨⟨told, reported⟩, by decide +kernel⟩

end

end System

end EndCloseRelay
