import Mathlib.Data.List.Basic

/-!
# Delimited records

Records of a name and a value are written one after the other, a mark behind the
name and a mark behind the value, nothing escaped.  What is written says which
records they were only when it is one record at most and the mark behind the
name is found nowhere else in it (`readable_iff`), or when neither text holds a
mark (`encode_injOn`).
-/

namespace Scanning.Delimited

variable {α : Type} {sep stop : α}

/-- A name and a value. -/
abbrev Entry (α : Type) := List α × List α

/-- What is written of one record. -/
def encodeEntry (sep stop : α) (e : Entry α) : List α := e.1 ++ sep :: e.2 ++ [stop]

/-- What is written of a list of records. -/
def encode (sep stop : α) (es : List (Entry α)) : List α := es.flatMap (encodeEntry sep stop)

@[simp] theorem encode_nil : encode sep stop [] = [] := rfl

@[simp] theorem encode_cons (e : Entry α) (es : List (Entry α)) :
    encode sep stop (e :: es) = encodeEntry sep stop e ++ encode sep stop es := rfl

theorem encode_singleton (e : Entry α) : encode sep stop [e] = encodeEntry sep stop e :=
  List.append_nil _

/-- One record more or less shows in what is written. -/
theorem encode_eq_nil_iff {es : List (Entry α)} : encode sep stop es = [] ↔ es = [] := by
  constructor
  · intro empty
    cases es with
    | nil => rfl
    | cons e es =>
      rw [encode_cons, encodeEntry, List.append_assoc, List.append_assoc] at empty
      have middle := (List.append_eq_nil_iff.mp empty).2
      cases middle
  · rintro rfl
    rfl

/-- What is written ends with a mark. -/
theorem exists_encode_concat (sep stop : α) (e : Entry α) (es : List (Entry α)) :
    ∃ front, encode sep stop (e :: es) = front ++ [stop] := by
  induction es generalizing e with
  | nil => exact ⟨_, encode_singleton e⟩
  | cons next es ih =>
    obtain ⟨front, shape⟩ := ih next
    exact ⟨encodeEntry sep stop e ++ front, by rw [encode_cons, shape, List.append_assoc]⟩

/-- Several records are written as one record with the first name is, whose value
holds the other names and the marks behind them. -/
theorem encode_merge (sep stop : α) (e next : Entry α) (es : List (Entry α)) : ∃ value,
    encode sep stop (e :: next :: es) = encodeEntry sep stop (e.1, value) ∧ sep ∈ value := by
  obtain ⟨front, shape⟩ := exists_encode_concat sep stop next es
  refine ⟨e.2 ++ stop :: front, ?_, ?_⟩
  · rw [encode_cons, shape]
    simp only [encodeEntry, List.append_assoc, List.cons_append, List.nil_append]
  · have inside : sep ∈ encode sep stop (next :: es) := by
      rw [encode_cons, encodeEntry]
      simp
    rw [shape, List.mem_append, List.mem_singleton] at inside
    rcases inside with inside | same
    · exact List.mem_append_right _ (List.mem_cons_of_mem _ inside)
    · rw [same]
      exact List.mem_append_right _ List.mem_cons_self

/-- A record is read back when its text has one mark only that can stand behind a name. -/
theorem encodeEntry_inj {e e' : Entry α} (named : e.1 ≠ []) (named' : e'.1 ≠ [])
    (plainName : sep ∉ e.1.tail) (plainValue : sep ∉ e.2)
    (same : encodeEntry sep stop e = encodeEntry sep stop e') : e = e' := by
  obtain ⟨name, value⟩ := e
  obtain ⟨name', value'⟩ := e'
  have texts : name ++ sep :: value = name' ++ sep :: value' := List.append_cancel_right same
  rcases List.append_eq_append_iff.mp texts with ⟨more, rfl, behind⟩ | ⟨more, rfl, behind⟩
  · cases more with
    | nil =>
      obtain ⟨-, rfl⟩ := List.cons.inj behind
      rw [List.append_nil]
    | cons a more =>
      obtain ⟨rfl, rfl⟩ := List.cons.inj behind
      exact absurd (List.mem_append_right _ List.mem_cons_self) plainValue
  · cases more with
    | nil =>
      obtain ⟨-, rfl⟩ := List.cons.inj behind
      rw [List.append_nil]
    | cons a more =>
      obtain ⟨rfl, rfl⟩ := List.cons.inj behind
      obtain ⟨c, rest, rfl⟩ := List.exists_cons_of_ne_nil named'
      exact absurd (List.mem_append_right _ List.mem_cons_self) plainName

/-- No other records with names are written as these are, exactly when they are
none, or one whose text has no mark but the one behind its name. -/
theorem readable_iff {es : List (Entry α)} (named : ∀ e ∈ es, e.1 ≠ []) :
    (∀ es', (∀ e ∈ es', e.1 ≠ []) → encode sep stop es = encode sep stop es' → es = es') ↔
      es = [] ∨ ∃ e, es = [e] ∧ sep ∉ e.1.tail ∧ sep ∉ e.2 := by
  constructor
  · intro only
    rcases es with _ | ⟨e, _ | ⟨next, es⟩⟩
    · exact .inl rfl
    · right
      have name : e.1 ≠ [] := named e List.mem_cons_self
      have single : ∀ e', e'.1 ≠ [] → encodeEntry sep stop e = encodeEntry sep stop e' → e = e' := by
        intro e' named' same
        have found := only [e'] (fun e member => List.mem_singleton.mp member ▸ named')
          (by rw [encode_singleton, encode_singleton, same])
        exact (List.cons.inj found).1
      obtain ⟨name, value⟩ := e
      obtain ⟨c, rest, rfl⟩ := List.exists_cons_of_ne_nil name
      refine ⟨_, rfl, fun inside => ?_, fun inside => ?_⟩
      · obtain ⟨before, after, shape⟩ := List.append_of_mem inside
        obtain rfl : rest = before ++ sep :: after := shape
        have other := single (c :: before, after ++ sep :: value) (List.cons_ne_nil _ _)
          (by simp [encodeEntry])
        have lengths := congrArg (List.length ∘ Prod.fst) other
        simp at lengths
      · obtain ⟨before, after, shape⟩ := List.append_of_mem inside
        obtain rfl : value = before ++ sep :: after := shape
        have other := single (c :: rest ++ sep :: before, after) (List.cons_ne_nil _ _)
          (by simp [encodeEntry])
        have lengths := congrArg (List.length ∘ Prod.fst) other
        simp at lengths
    · obtain ⟨value, merged, -⟩ := encode_merge sep stop e next es
      rw [← encode_singleton] at merged
      have found := only [(e.1, value)] (fun e' member => List.mem_singleton.mp member ▸
        named e List.mem_cons_self) merged
      cases (List.cons.inj found).2
  · rintro (rfl | ⟨e, rfl, plainName, plainValue⟩) es' named' same
    · exact (encode_eq_nil_iff.mp same.symm).symm
    · have name : e.1 ≠ [] := named e List.mem_cons_self
      rcases es' with _ | ⟨e', _ | ⟨next, es'⟩⟩
      · cases encode_eq_nil_iff.mp same
      · rw [encode_singleton, encode_singleton] at same
        rw [encodeEntry_inj name (named' e' List.mem_cons_self) plainName plainValue same]
      · obtain ⟨value, merged, marked⟩ := encode_merge sep stop e' next es'
        rw [merged, encode_singleton] at same
        have first : e = (e'.1, value) :=
          encodeEntry_inj name (named' e' List.mem_cons_self) plainName plainValue same
        rw [first] at plainValue
        exact absurd marked plainValue

/-- Texts without marks are read back, whatever there is behind them. -/
theorem encode_injOn {es es' : List (Entry α)}
    (plain : ∀ e ∈ es, sep ∉ e.1 ∧ stop ∉ e.1 ∧ stop ∉ e.2)
    (plain' : ∀ e ∈ es', sep ∉ e.1 ∧ stop ∉ e.1 ∧ stop ∉ e.2) (differ : sep ≠ stop)
    (same : encode sep stop es = encode sep stop es') : es = es' := by
  -- the first mark of a kind in a text cuts it in one way
  have cut : ∀ (mark : α) (a b c d : List α), mark ∉ a → mark ∉ b →
      a ++ mark :: c = b ++ mark :: d → a = b ∧ c = d := by
    intro mark a b c d notA notB texts
    rcases List.append_eq_append_iff.mp texts with ⟨more, rfl, behind⟩ | ⟨more, rfl, behind⟩
    all_goals
      cases more with
      | nil =>
        obtain ⟨-, rfl⟩ := List.cons.inj behind
        exact ⟨by rw [List.append_nil], rfl⟩
      | cons m more =>
        obtain ⟨rfl, -⟩ := List.cons.inj behind
        simp at notA notB
  induction es generalizing es' with
  | nil => exact (encode_eq_nil_iff.mp same.symm).symm
  | cons e es ih =>
    cases es' with
    | nil => cases encode_eq_nil_iff.mp same
    | cons e' es' =>
      obtain ⟨name, value⟩ := e
      obtain ⟨name', value'⟩ := e'
      obtain ⟨noSep, noStop, noStop₂⟩ := plain _ List.mem_cons_self
      obtain ⟨noSep', noStop', noStop₂'⟩ := plain' _ List.mem_cons_self
      have inside : stop ∉ name ++ sep :: value := by
        simp only [List.mem_append, List.mem_cons, not_or]
        exact ⟨noStop, differ.symm, noStop₂⟩
      have inside' : stop ∉ name' ++ sep :: value' := by
        simp only [List.mem_append, List.mem_cons, not_or]
        exact ⟨noStop', differ.symm, noStop₂'⟩
      have texts : (name ++ sep :: value) ++ stop :: encode sep stop es =
          (name' ++ sep :: value') ++ stop :: encode sep stop es' := by
        simpa [encodeEntry] using same
      obtain ⟨first, rest⟩ := cut stop _ _ _ _ inside inside' texts
      obtain ⟨rfl, rfl⟩ := cut sep _ _ _ _ noSep noSep' first
      rw [ih (fun e member => plain e (List.mem_cons_of_mem _ member))
        (fun e member => plain' e (List.mem_cons_of_mem _ member)) rest]

end Scanning.Delimited
