import EndCloseRelay.Engine.Admission

/-!
# Reading a stored payload back

What a codec made of the body of a webhook stands in its row through every call
to the store but the `pruneBatch` that takes it; until then every way of reading
the row gives the body back, and afterwards `readPayload` of `engine/relay.ts`
finds none.
-/

namespace EndCloseRelay

open Interaction MemoryStore

/-! ## Payloads through a call -/

/-- The record holds what the codec decodes to the body. -/
structure EventRecord.Holds (codec : PayloadCodec) (body : Bytes) (r : EventRecord) : Prop where
  decodes : codec.decode r.payload r.payloadIv = .ok body
  filled : r.payload ≠ []

/-- The call is retention's. -/
def StoreOp.isPrune : StoreOp → Bool
  | .pruneBatch .. => true
  | _ => false

/-- Only retention changes the payload and the iv of a record. -/
theorem MemoryStore.RowStep.payload {op : StoreOp} {r r' : EventRecord} (step : RowStep op r r')
    (other : op.isPrune = false) : r'.payload = r.payload ∧ r'.payloadIv = r.payloadIv := by
  cases step with
  | @fail ids nextAttemptAt error r member =>
    have kept : ∀ n, ((EventRecord.fail nextAttemptAt error)^[n] r).payload = r.payload ∧
        ((EventRecord.fail nextAttemptAt error)^[n] r).payloadIv = r.payloadIv := by
      intro n
      induction n with
      | zero => exact ⟨rfl, rfl⟩
      | succ n ih =>
        rw [Function.iterate_succ_apply']
        exact ih
    exact kept _
  | wipe _ => cases other
  | _ => exact ⟨rfl, rfl⟩

/-- A record stays where it is, with its payload, through any other call. -/
theorem Moves.payload {op : StoreOp} {r : EventRecord} {new : Option EventRecord}
    (moves : Moves op (some r) new) (other : op.isPrune = false) :
    ∃ r', new = some r' ∧ r'.payload = r.payload ∧ r'.payloadIv = r.payloadIv := by
  cases moves with
  | change change =>
    cases change with
    | same => exact ⟨r, rfl, rfl, rfl⟩
    | step step => exact ⟨_, rfl, step.payload other⟩
    | deleted _ => cases other
  | failOnce _ => exact ⟨_, rfl, rfl, rfl⟩

/-- What retention changed has no payload. -/
theorem Moves.wiped {op : StoreOp} {old new : Option EventRecord} (moves : Moves op old new)
    (prune : op.isPrune) (changed : new ≠ old) : ∀ r ∈ new, r.payload = [] := by
  cases moves with
  | change change =>
    cases change with
    | same => exact absurd rfl changed
    | inserted => cases prune
    | step step =>
      cases step with
      | wipe _ =>
        intro r is
        rw [← Option.some.inj is]
        rfl
      | _ => cases prune
    | deleted _ =>
      intro r is
      cases is
  | failOnce _ => cases prune
  | blankIv _ => cases prune

/-- A record without a payload gets none, and none comes but by an insert. -/
theorem Moves.stays_wiped {op : StoreOp} {old new : Option EventRecord} (moves : Moves op old new)
    (wiped : ∀ r ∈ old, r.payload = []) (kept : ∀ e, op = .insert e → old = none → new = none) :
    ∀ r ∈ new, r.payload = [] := by
  cases old with
  | none =>
    intro r is
    cases is
    obtain ⟨e, rfl⟩ := moves.insert_of_new
    cases kept e rfl rfl
  | some r =>
    cases prune : op.isPrune with
    | false =>
      obtain ⟨r', rfl, same, -⟩ := moves.payload prune
      intro r'' is
      rw [← Option.some.inj is, same]
      exact wiped r rfl
    | true =>
      by_cases changed : new = some r
      · rw [changed]
        exact wiped
      · exact moves.wiped prune changed

/-- The row of a new event holds its body. -/
theorem Moves.holds {codec : PayloadCodec} {body : Bytes} {e : NewEvent} {r : EventRecord}
    (moves : Moves (.insert e) none (some r)) (decodes : codec.decode e.payload e.payloadIv = .ok body)
    (filled : e.payload ≠ []) (marked : e.payloadIv ≠ some []) : r.Holds codec body := by
  cases moves with
  | change change =>
    cases change with
    | inserted => exact ⟨decodes, filled⟩
  | blankIv blank => exact absurd blank marked

/-! ## Reading -/

namespace RecordStore

/-- `readPayload(id)`; `none` stands for `undefined`. -/
def readPayload (S : RecordStore) (codec : PayloadCodec) (s : S.State) (id : Nat) :
    Except RelayError (Option Bytes) :=
  match S.getById s id with
  | none => .ok none
  | some r => if r.payload.isEmpty then .ok none else (codec.decode r.payload r.payloadIv).map some

/-- What `claimDue` returns. -/
def claimDue (S : RecordStore) (choice : S.Choice) (s : S.State) (routeId : String) (now : Int) (limit : Nat)
    (lease : Lease) : List EventRecord :=
  (S.apply choice s (.claimDue routeId now limit lease)).1

/-- A store from a state on. -/
def machineFrom (S : RecordStore) (s : S.State) : Machine S.State (S.Choice × StoreOp) where
  init := s
  step s call := (S.apply call.1 s call.2).2

/-- The body comes back from the row, by every way of reading it. -/
structure ReadsBack (S : RecordStore) (codec : PayloadCodec) (body : Bytes) (s : S.State) (id : Nat) :
    Prop where
  getById : ∃ r, S.getById s id = some r ∧ codec.decode r.payload r.payloadIv = .ok body
  claimDue : ∀ choice routeId now limit lease, ∀ r ∈ S.claimDue choice s routeId now limit lease,
    r.id = id → codec.decode r.payload r.payloadIv = .ok body
  readPayload : S.readPayload codec s id = .ok (some body)

/-- The call is retention's, and changes what stands under the id: it wipes or deletes. -/
def Takes (S : RecordStore) (id : Nat) (s : S.State) (call : S.Choice × StoreOp) : Prop :=
  call.2.isPrune ∧ S.getById (S.apply call.1 s call.2).2 id ≠ S.getById s id

/-- The call gives the id to a new event. -/
def Issues (S : RecordStore) (id : Nat) (s : S.State) (call : S.Choice × StoreOp) : Prop :=
  ∃ e, call.2 = .insert e ∧ (S.apply call.1 s (.insert e)).1 = .inserted id

variable {S : RecordStore} {s : S.State} {codec : PayloadCodec} {body : Bytes} {id : Nat}

theorem readsBack_of_holds (sound : S.Sound s) {r : EventRecord} (found : S.getById s id = some r)
    (holds : r.Holds codec body) : S.ReadsBack codec body s id where
  getById := ⟨r, found, holds.decodes⟩
  claimDue choice routeId now limit lease c member same := by
    unfold RecordStore.claimDue at member
    rw [S.claimed choice s routeId now limit lease sound] at member
    obtain ⟨due, picked, rfl⟩ := List.mem_map.mp member
    have there := getById_of_mem sound (List.mem_filter.mp (List.mem_of_mem_take picked)).1
    rw [show due.id = id from same, found] at there
    rw [← Option.some.inj there]
    exact holds.decodes
  readPayload := by
    unfold RecordStore.readPayload
    rw [found]
    simp only []
    rw [if_neg (by rw [List.isEmpty_iff]; exact holds.filled), holds.decodes]
    rfl

/-- The body stays readable until retention takes it. -/
theorem readsBack_run (sound : S.Sound s) {r : EventRecord} (found : S.getById s id = some r)
    (holds : r.Holds codec body) {later : List (S.Choice × StoreOp)}
    (kept : (S.machineFrom s).Guarded (fun s call => ¬ S.Takes id s call) later) :
    S.ReadsBack codec body ((S.machineFrom s).run later) id := by
  have stays := (S.machineFrom s).guarded_invariant
    (fun s => S.Sound s ∧ ∃ r, S.getById s id = some r ∧ r.Holds codec body) ⟨sound, r, found, holds⟩
    ?_ kept
  · obtain ⟨sound', r', found', holds'⟩ := stays
    exact readsBack_of_holds sound' found' holds'
  · rintro s call ⟨sound, r, found, holds⟩ untaken
    refine ⟨S.sound_apply _ _ _ sound, ?_⟩
    have moves := S.moves call.1 s call.2 id sound
    rw [found] at moves
    cases prune : call.2.isPrune with
    | true =>
      have same : S.getById (S.apply call.1 s call.2).2 id = S.getById s id := by
        by_contra changed
        exact untaken ⟨prune, changed⟩
      exact ⟨r, same.trans found, holds⟩
    | false =>
      obtain ⟨r', new, payload, iv⟩ := moves.payload prune
      refine ⟨r', new, ?_, ?_⟩
      · rw [payload, iv]
        exact holds.decodes
      · rw [payload]
        exact holds.filled

/-- What retention took is not read again, until an insert gives the id away. -/
theorem readPayload_taken (sound : S.Sound s) {call : S.Choice × StoreOp} (taken : S.Takes id s call)
    {later : List (S.Choice × StoreOp)}
    (kept : (S.machineFrom (S.apply call.1 s call.2).2).Guarded (fun s call => ¬ S.Issues id s call)
      later) :
    S.readPayload codec ((S.machineFrom (S.apply call.1 s call.2).2).run later) id = .ok none := by
  have wiped := (S.machineFrom (S.apply call.1 s call.2).2).guarded_invariant
    (fun s => S.Sound s ∧ ∀ r ∈ S.getById s id, r.payload = [])
    ⟨S.sound_apply _ _ _ sound, (S.moves call.1 s call.2 id sound).wiped taken.1 taken.2⟩ ?_ kept
  · unfold RecordStore.readPayload
    cases found : S.getById ((S.machineFrom (S.apply call.1 s call.2).2).run later) id with
    | none => rfl
    | some r =>
      simp only []
      rw [if_pos (by rw [wiped.2 r found]; rfl)]
  · rintro s ⟨choice, op⟩ ⟨sound, wiped⟩ unissued
    refine ⟨S.sound_apply _ _ _ sound, (S.moves choice s op id sound).stays_wiped wiped ?_⟩
    rintro e rfl absent
    by_contra present
    exact unissued ⟨e, rfl,
      (S.inserted choice s e id sound).mpr ⟨absent, Option.isSome_iff_ne_none.mpr present⟩⟩

end RecordStore

/-! ## What a request stores -/

/-- The webhook is stored: it was let in, and its event is new. -/
def IngestResult.isStored (result : IngestResult) : Prop :=
  result.outcome = .ingest .accepted ∨ result.outcome = .ingest .filtered

namespace Ingest

/-- A row is handed over with its body, which is not empty, encoded under bytes drawn for it. -/
def encoding (deps : IngestDeps) (raw : RawRequest) : Discipline Op Op.Answer where
  allowed calls op := ∀ e, op = .insert e → raw.body ≠ [] ∧
    ∃ entropy, (⟨.entropy, entropy⟩ : Exchange Op.Answer) ∈ calls ∧
      (e.payload, e.payloadIv) = deps.codec.encode entropy raw.body
  admits _ _ _ := True

/-- A method that stores nothing else. -/
abbrev Encodes (deps : IngestDeps) (raw : RawRequest) {α : Type} (m : Body α) : Prop :=
  Method.Keeps (encoding deps raw) (fun _ _ => True) m fun _ => True

section

variable {deps : IngestDeps} {raw : RawRequest} {α : Type}

theorem encodes_pure (a : α) : Encodes deps raw (pure a) := Method.Keeps.pure trivial

theorem encodes_ofExcept (r : Except RelayError α) : Encodes deps raw (Method.ofExcept r) :=
  Method.Keeps.ofExcept.mono fun _ _ => trivial

theorem encodes_emit (event : RelayEvent) : Encodes deps raw (emit event) :=
  Method.Keeps.modify fun _ _ _ => trivial

theorem encodes_ask {op : Op} (plain : ∀ e, op ≠ .insert e) : Encodes deps raw (ask op) :=
  Method.Keeps.call (fun _ _ _ e same => absurd same (plain e)) fun _ _ _ _ _ => trivial

theorem encodes_bind {β : Type} {m : Body α} {f : α → Body β} (first : Encodes deps raw m)
    (second : ∀ a, Encodes deps raw (f a)) : Encodes deps raw (m >>= f) :=
  Method.Keeps.bind first fun a _ => second a

theorem persist_encodes (route : RouteConfig) (routeId : String) (adapter : ProcessorAdapter) (body : Json)
    (filled : raw.body ≠ []) : Encodes deps raw (persist deps route routeId raw adapter body) := by
  refine encodes_bind (encodes_ofExcept _) fun eventId => ?_
  refine encodes_bind (encodes_ofExcept _) fun eventType => fun calls s _ => ?_
  refine Method.sat_call_bind (fun e same => by cases same) fun entropy _ => ?_
  refine Method.sat_call_bind (fun e same => by cases same) fun receivedAt _ => ?_
  refine Method.sat_call_bind (fun e same => ?_) fun inserted _ => ?_
  · obtain rfl := Op.insert.inj same
    exact ⟨filled, entropy, List.mem_cons_of_mem _ List.mem_cons_self, rfl⟩
  · refine Method.sat_ofExcept_bind (fun outcome _ => ?_) fun _ _ => ⟨trivial, fun _ _ => trivial⟩
    cases outcome with
    | duplicate => exact encodes_bind (encodes_emit _) (fun _ => encodes_pure _) _ _ trivial
    | inserted id =>
      simp only []
      split
      · exact encodes_bind (encodes_emit _) (fun _ => encodes_bind (encodes_emit _) fun _ =>
          encodes_pure _) _ _ trivial
      · exact encodes_bind (encodes_emit _) (fun _ => encodes_bind (encodes_emit _) fun _ =>
          encodes_bind (Method.Keeps.modify fun _ _ _ => trivial) fun _ => encodes_pure _) _ _ trivial

theorem verifyAndPersist_encodes (route : RouteConfig) (routeId : String) (filled : raw.body ≠ []) :
    Encodes deps raw (verifyAndPersist deps route routeId raw) := by
  unfold verifyAndPersist
  split
  · exact encodes_pure _
  · rename_i adapter _
    refine encodes_bind (encodes_ask (by simp)) fun answer => encodes_bind (encodes_ofExcept _) fun secret => ?_
    split
    · exact encodes_pure _
    · refine encodes_bind (encodes_ask (by simp)) fun now => encodes_bind (encodes_ofExcept _) fun verdict => ?_
      split
      · exact encodes_bind (encodes_emit _) fun _ => encodes_pure _
      · split
        · exact encodes_bind (encodes_emit _) fun _ => encodes_pure _
        · exact persist_encodes route routeId adapter _ filled

theorem ingestInner_encodes (routeId : String) : Encodes deps raw (ingestInner deps routeId raw) := by
  refine encodes_bind (encodes_ask (by simp)) fun answer => encodes_bind (encodes_ofExcept _) fun found => ?_
  split
  · exact encodes_pure _
  · rename_i route
    refine encodes_bind (encodes_ask (by simp)) fun answer =>
      encodes_bind (encodes_ofExcept _) fun killswitch => ?_
    split
    · exact encodes_bind (encodes_emit _) fun _ => encodes_pure _
    · split
      · exact encodes_bind (encodes_emit _) fun _ => encodes_pure _
      · rename_i filled
        split
        · exact encodes_bind (encodes_emit _) fun _ => encodes_pure _
        · exact verifyAndPersist_encodes route routeId fun empty =>
            filled (List.isEmpty_iff.mpr empty)

/-- Whatever the world answers, a request stores nothing but its own body, encoded. -/
theorem ingestWebhook_encodes (deps : IngestDeps) (routeId : String) (raw : RawRequest) :
    Encodes deps raw (ingestWebhook deps routeId raw) := by
  refine Method.Keeps.tryCatch (ingestInner_encodes routeId) fun err => ?_
  unfold answerFailure
  split
  · exact encodes_bind (encodes_emit _) fun _ => encodes_pure _
  · exact encodes_bind (encodes_emit _) fun _ => encodes_pure _
  · exact Method.Keeps.throw

end

namespace Host

/-- The random bytes of the platform are as many as are asked for. -/
def Draws {S : RecordStore} (host : Host S) : Prop :=
  ∀ calls, List.length (host.answer calls .entropy) = ivBytes

variable {S : RecordStore} {host : Host S} {deps : IngestDeps} {routeId : String} {raw : RawRequest}
  {s : S.State} {calls : Calls}

/-- What the exchanges so far say of the rows. -/
structure Saved (deps : IngestDeps) (raw : RawRequest) (calls : Calls) (s : S.State) : Prop where
  sound : S.Sound s
  drawn : ∀ entropy : Bytes, (⟨.entropy, entropy⟩ : Exchange Op.Answer) ∈ calls → entropy.length = ivBytes
  saved : ∀ e id, (⟨.insert e, .ok (.inserted id)⟩ : Exchange Op.Answer) ∈ calls →
    ∃ r, S.getById s id = some r ∧ r.Holds deps.codec raw.body

theorem Saved.cons {op : Op} {answer : op.Answer} (saved : Saved deps raw calls s)
    (drawn : ∀ entropy : Bytes, (⟨.entropy, entropy⟩ : Exchange Op.Answer) = ⟨op, answer⟩ →
      entropy.length = ivBytes)
    (plain : ∀ e, op ≠ .insert e) : Saved deps raw (⟨op, answer⟩ :: calls) s where
  sound := saved.sound
  drawn entropy member := by
    rcases List.mem_cons.mp member with same | member
    · exact drawn entropy same
    · exact saved.drawn entropy member
  saved e id member := by
    rcases List.mem_cons.mp member with same | member
    · exact absurd (congrArg Sigma.fst same).symm (plain e)
    · exact saved.saved e id member

/-- One exchange: a row that is stored holds the body. -/
theorem Saved.step (returns : deps.codec.Returns) (draws : host.Draws) (saved : Saved deps raw calls s)
    {op : Op} (allowed : (encoding deps raw).allowed calls op) :
    Saved deps raw (⟨op, (host.world calls s op).1⟩ :: calls) (host.world calls s op).2 := by
  cases op with
  | insert e =>
    obtain ⟨filled, entropy, member, encoded⟩ := allowed e rfl
    have length := saved.drawn entropy member
    have payload : e.payload = (deps.codec.encode entropy raw.body).1 := congrArg Prod.fst encoded
    have iv : e.payloadIv = (deps.codec.encode entropy raw.body).2 := congrArg Prod.snd encoded
    have old : ∀ e' id, (⟨.insert e', .ok (.inserted id)⟩ : Exchange Op.Answer) ∈ calls →
        ∃ r, S.getById (S.apply (host.choice calls) s (.insert e)).2 id = some r ∧
          r.Holds deps.codec raw.body := by
      intro e' id there
      obtain ⟨r, found, holds⟩ := saved.saved e' id there
      have moves := S.moves (host.choice calls) s (.insert e) id saved.sound
      rw [found] at moves
      obtain ⟨r', found', payload', iv'⟩ := moves.payload rfl
      refine ⟨r', found', ?_, ?_⟩
      · rw [payload', iv']
        exact holds.decodes
      · rw [payload']
        exact holds.filled
    unfold world
    simp only []
    split
    · refine ⟨S.sound_apply _ _ _ saved.sound, fun entropy' member' => ?_, fun e' id member' => ?_⟩
      · rcases List.mem_cons.mp member' with same | member'
        · cases congrArg Sigma.fst same
        · exact saved.drawn entropy' member'
      · rcases List.mem_cons.mp member' with same | member'
        · obtain rfl := Op.insert.inj (congrArg Sigma.fst same)
          have answered := Except.ok.inj (eq_of_heq (Sigma.mk.inj same).2)
          obtain ⟨absent, present⟩ := (S.inserted _ _ _ _ saved.sound).mp answered.symm
          obtain ⟨r, found⟩ := Option.isSome_iff_exists.mp present
          have moves := S.moves (host.choice calls) s (.insert e') id saved.sound
          rw [absent, found] at moves
          refine ⟨r, found, moves.holds ?_ ?_ ?_⟩
          · rw [payload, iv]
            exact returns.decodes entropy raw.body length
          · rw [payload]
            exact returns.fills entropy raw.body length filled
          · rw [iv]
            exact returns.marks entropy raw.body length
        · exact old e' id member'
    · refine ⟨saved.sound, fun entropy' member' => ?_, fun e' id member' => ?_⟩
      · rcases List.mem_cons.mp member' with same | member'
        · cases congrArg Sigma.fst same
        · exact saved.drawn entropy' member'
      · rcases List.mem_cons.mp member' with same | member'
        · cases eq_of_heq (Sigma.mk.inj same).2
        · exact saved.saved e' id member'
  | entropy =>
    refine saved.cons (fun entropy same => ?_) (by simp)
    rw [eq_of_heq (Sigma.mk.inj same).2]
    exact draws calls
  | _ => exact saved.cons (fun entropy same => by cases congrArg Sigma.fst same) (by simp)

/-- The row of a webhook that is stored holds its body. -/
theorem saved_of_serve (returns : deps.codec.Returns) (draws : host.Draws) (sound : S.Sound s)
    {result : IngestResult} (served : (host.serve deps routeId raw s).1.1 = .ok result)
    (stored : result.isStored) :
    S.Sound (host.serve deps routeId raw s).2.2 ∧ ∃ id r, result.id = some id ∧
      S.getById (host.serve deps routeId raw s).2.2 id = some r ∧ r.Holds deps.codec raw.body := by
  have start : Saved deps raw ([] : Calls) s :=
    ⟨sound, (fun _ member => absurd member List.not_mem_nil), fun _ _ member => absurd member List.not_mem_nil⟩
  have sat := Program.Sat.both (ingestWebhook_encodes deps routeId raw [] {} trivial)
    (ingestWebhook_sat deps routeId raw {})
  obtain ⟨⟨-, acknowledged⟩, saved⟩ := Program.Sat.exec host.world (Saved deps raw) sat start
    fun _ _ _ saved allowed => ⟨⟨trivial, trivial⟩, saved.step returns draws allowed.1⟩
  refine ⟨saved.sound, ?_⟩
  have vouched : Acknowledged deps (host.serve deps routeId raw s).2.1 routeId raw result :=
    acknowledged result served
  unfold Acknowledged at vouched
  unfold IngestResult.isStored at stored
  rcases stored with outcome | outcome
  · rw [outcome] at vouched
    obtain ⟨e, id, member, -, -, named, -⟩ := vouched
    obtain ⟨r, found, holds⟩ := saved.saved e id member
    exact ⟨id, r, named, found, holds⟩
  · rw [outcome] at vouched
    obtain ⟨e, id, member, -, -, named, -⟩ := vouched
    obtain ⟨r, found, holds⟩ := saved.saved e id member
    exact ⟨id, r, named, found, holds⟩

end Host

end Ingest

end EndCloseRelay
