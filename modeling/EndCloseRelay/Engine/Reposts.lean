import EndCloseRelay.Engine.Posting
import EndCloseRelay.Engine.Replays
import EndCloseRelay.Forward.BatchKeys
import EndCloseRelay.Forward.Enrichment

/-!
# Posting a replayed event again

The idempotency key of a POST is a digest of the batch's composition: what the maps
in force read of the payloads of its events, a data stream and an external id each.
The retries of one POST share it; so does the POST of a replayed event, whenever its
batch reads like one that was accepted before.
-/

namespace EndCloseRelay

open Interaction

namespace Dispatcher

/-! ## The lines of a batch -/

/-- The record was built from the event under a route whose map reads this line of the
stored payload: the data stream, and the external id. -/
def ReadsLine (deps : DispatcherDeps) (calls : Calls) (built : EventRecord × EndCloseRecord)
    (line : String × String) : Prop :=
  ∃ route payload, BuiltUnder deps calls route payload built.1 built.2 ∧
    line.1 = route.map.dataStreamKey ∧
    route.map.externalIdOf (resolve deps.runtime deps.maskingKey payload) = .ok line.2

/-- The lines of the events a batch of records is of, in their order. -/
def Lines (deps : DispatcherDeps) (calls : Calls) (records : List EndCloseRecord)
    (lines : List (String × String)) : Prop :=
  ∃ built : List (EventRecord × EndCloseRecord), records = built.map Prod.snd ∧
    (built.map Prod.fst).Sublist (inFlight calls) ∧ List.Forall₂ (ReadsLine deps calls) built lines

/-- What lines spell. -/
def spelled (lines : List (String × String)) : String :=
  String.join (lines.map fun line => line.1 ++ ":" ++ line.2 ++ "\n")

section

variable {deps : DispatcherDeps} {calls : Calls} {records : List EndCloseRecord}

/-- Filling a record leaves what its line is made of. -/
theorem Filled.line {event : EventRecord} {payload : Json} {pending : List PendingEnrichment}
    {record filled : EndCloseRecord} (fills : Filled event payload calls pending record filled) :
    filled.dataStreamKey = record.dataStreamKey ∧ filled.externalId = record.externalId := by
  induction fills with
  | done => exact ⟨rfl, rfl⟩
  | omitted _ _ _ ih => exact ih
  | @applied p _ record _ _ value _ _ _ ih =>
    have key := congrArg EndCloseRecord.dataStreamKey (rest_fillField record p.field value)
    have id := congrArg EndCloseRecord.externalId (rest_fillField record p.field value)
    exact ⟨ih.1.trans key, ih.2.trans id⟩

/-- The line of an event is that of its record. -/
theorem readsLine_iff {built : EventRecord × EndCloseRecord} {line : String × String}
    (from_ : BuiltFrom deps calls built.1 built.2) :
    ReadsLine deps calls built line ↔ line = (built.2.dataStreamKey, built.2.externalId) := by
  have reads : ∀ {route : RouteConfig} {payload : Json},
      BuiltUnder deps calls route payload built.1 built.2 →
        route.map.dataStreamKey = built.2.dataStreamKey ∧
          route.map.externalIdOf (resolve deps.runtime deps.maskingKey payload) =
            .ok built.2.externalId := by
    rintro route payload ⟨result, -, read, fills⟩
    have maps := mapsTo_of_readEvent read
    obtain ⟨key, id⟩ := fills.line
    exact ⟨maps.dataStreamKey.symm.trans key.symm, maps.externalId.trans (congrArg Except.ok id.symm)⟩
  constructor
  · rintro ⟨route, payload, under, key, id⟩
    obtain ⟨key', id'⟩ := reads under
    exact Prod.ext (key.trans key') (Except.ok.inj (id.symm.trans id'))
  · rintro rfl
    obtain ⟨route, payload, result, given, read, fills⟩ := from_
    have under : BuiltUnder deps calls route payload built.1 built.2 := ⟨result, given, read, fills⟩
    exact ⟨route, payload, under, (reads under).1.symm, (reads under).2⟩

/-- The digest of a batch is of what its lines spell. -/
theorem Lines.composition {lines : List (String × String)} (reads : Lines deps calls records lines) :
    composition records = spelled lines := by
  obtain ⟨built, rfl, -, each⟩ := reads
  unfold EndCloseRelay.composition spelled
  congr 1
  induction each with
  | nil => rfl
  | @cons b line built lines reads _ ih =>
    have from_ : BuiltFrom deps calls b.1 b.2 := by
      obtain ⟨route, payload, ⟨result, given, read, fills⟩, -⟩ := reads
      exact ⟨route, payload, result, given, read, fills⟩
    rw [List.map_cons, List.map_cons, List.map_cons, ih, (readsLine_iff from_).mp reads]

end

end Dispatcher

namespace System

section

variable {D : Deployment} {s : System} {a : Action}

end

end System

end EndCloseRelay
