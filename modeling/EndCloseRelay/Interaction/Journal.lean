import EndCloseRelay.Interaction.Transaction
import Mathlib.Data.List.Induction
import Mathlib.Data.List.Infix

/-!
# Steps a database remembers

A journal is a list of steps, each carried out in a transaction that also
records its name.  To carry them out is to pass over those that are recorded.
`advance` says what that comes to: wherever the script is cut off, a beginning
of the list has been carried out, and to start again goes on from there.
-/

namespace Interaction

/-- Steps, and where a database records which were carried out.  `effect` is
what the body of a step does without a failure, `none` where it throws. -/
structure Journal (ι κ δ ε : Type) where
  name : ι → κ
  recorded : δ → List κ
  body : ι → Sql δ ε Unit
  effect : ι → δ → Option δ
  steady : ∀ i, (body i).Steady
  returns : ∀ {i db db'}, effect i db = some db' →
    (body i).run.run { db } = (.ok (), { db := db' })
  throws : ∀ {i db}, effect i db = none → ∃ e s, (body i).run.run { db } = (.error e, s)
  records : ∀ {i db db'}, effect i db = some db' → recorded db' = recorded db ++ [name i]

/-- A transaction that throws leaves the database as it was. -/
theorem Sql.db_of_transaction_error {δ ε α : Type} {failure e : ε} {body : Sql δ ε α} {s s' : Session δ}
    (fails : (Sql.transaction failure body).run.run s = (.error e, s')) : s'.db = s.db := by
  unfold Sql.transaction at fails
  rw [Sql.run_undoing] at fails
  split at fails
  · cases fails
  · rw [← (Prod.mk.inj fails).2]

/-- A transaction throws where its body does without a failure. -/
theorem Sql.run_transaction_error {δ ε α : Type} {failure : ε} {body : Sql δ ε α} (steady : body.Steady)
    {db : δ} (throws : ∃ e s, body.run.run { db } = (.error e, s)) (left : Option Nat) :
    ∃ e s, (Sql.transaction failure body).run.run { db, left } = (.error e, s) ∧ s.db = db := by
  obtain ⟨e, s, throws⟩ := throws
  rcases @Sql.Steady.transaction _ _ _ failure _ steady db left with ⟨e', s', fails⟩ | ⟨a, db', clean, -⟩
  · exact ⟨e', s', fails, Sql.db_of_transaction_error fails⟩
  · unfold Sql.transaction at clean
    rw [Sql.run_undoing, Sql.run_statement_bind, Sql.run_bind, throws] at clean
    cases clean

namespace Journal

variable {ι κ δ ε : Type} [DecidableEq κ] (J : Journal ι κ δ ε)

/-- Carry out the steps whose names are not known. -/
def carryOut (failure : ε) (known : List κ) (steps : List ι) : Sql δ ε Unit :=
  steps.forM fun i => if J.name i ∈ known then pure () else Sql.transaction failure (J.body i)

/-- What one step comes to. -/
def advanceOne (db : δ) (i : ι) : Option δ :=
  if J.name i ∈ J.recorded db then some db else J.effect i db

/-- What the steps come to, one after the other. -/
def advance (steps : List ι) (db : δ) : Option δ := steps.foldlM J.advanceOne db

variable {J} {steps : List ι} {db db' : δ}

theorem advance_append (earlier later : List ι) (db : δ) :
    J.advance (earlier ++ later) db = (J.advance earlier db).bind (J.advance later) :=
  List.foldlM_append

theorem advance_cons_eq_some {i : ι} : J.advance (i :: steps) db = some db' ↔
    ∃ mid, J.advanceOne db i = some mid ∧ J.advance steps mid = some db' := by
  unfold advance
  rw [List.foldlM_cons]
  exact Option.bind_eq_some_iff

theorem recorded_advanceOne {i : ι} (advanced : J.advanceOne db i = some db') (k : κ) :
    k ∈ J.recorded db' ↔ k ∈ J.recorded db ∨ k = J.name i := by
  unfold advanceOne at advanced
  split at advanced
  · rename_i known
    obtain rfl := Option.some.inj advanced
    refine ⟨.inl, ?_⟩
    rintro (known' | rfl)
    · exact known'
    · exact known
  · rw [J.records advanced, List.mem_append, List.mem_singleton]

/-- What is recorded in the end is what was, and the steps. -/
theorem mem_recorded_advance (advanced : J.advance steps db = some db') (k : κ) :
    k ∈ J.recorded db' ↔ k ∈ J.recorded db ∨ k ∈ steps.map J.name := by
  induction steps generalizing db with
  | nil =>
    obtain rfl := Option.some.inj advanced
    simp
  | cons i steps ih =>
    obtain ⟨mid, one, rest⟩ := advance_cons_eq_some.mp advanced
    rw [ih rest, recorded_advanceOne one, List.map_cons, List.mem_cons, or_assoc]

/-- The names are recorded in the order of the steps, each once. -/
theorem recorded_advance (distinct : (steps.map J.name).Nodup) (advanced : J.advance steps db = some db') :
    J.recorded db' = J.recorded db ++
      (steps.map J.name).filter fun k => k ∉ J.recorded db := by
  induction steps generalizing db with
  | nil =>
    obtain rfl := Option.some.inj advanced
    exact (List.append_nil _).symm
  | cons i steps ih =>
    obtain ⟨mid, one, rest⟩ := advance_cons_eq_some.mp advanced
    rw [List.map_cons, List.nodup_cons] at distinct
    have others : ∀ k ∈ steps.map J.name, k ∈ J.recorded mid ↔ k ∈ J.recorded db := by
      intro k member
      have other : k ≠ J.name i := fun same => distinct.1 (same ▸ member)
      rw [recorded_advanceOne one, or_iff_left other]
    have kept : (steps.map J.name).filter (fun k => k ∉ J.recorded mid) =
        (steps.map J.name).filter fun k => k ∉ J.recorded db :=
      List.filter_congr fun k member => by simp only [others k member]
    rw [ih distinct.2 rest, kept, List.map_cons, List.filter_cons]
    unfold advanceOne at one
    split at one
    · rename_i known
      obtain rfl := Option.some.inj one
      rw [if_neg (by simpa using known)]
    · rename_i fresh
      rw [if_pos (by simpa using fresh), J.records one, List.append_assoc, List.singleton_append]

/-- Steps that are recorded change nothing. -/
theorem advance_known (known : ∀ i ∈ steps, J.name i ∈ J.recorded db) : J.advance steps db = some db := by
  induction steps with
  | nil => rfl
  | cons i steps ih =>
    refine advance_cons_eq_some.mpr ⟨db, if_pos (known i List.mem_cons_self), ?_⟩
    exact ih fun j member => known j (List.mem_cons_of_mem i member)

/-- To start again goes on from where the script got. -/
theorem advance_resume {done again : List ι} {mid : δ} (begun : done <+: steps)
    (begun' : again <+: steps) (first : J.advance done db = some mid)
    (second : J.advance again mid = some db') :
    ∃ all, all <+: steps ∧ done <+: all ∧ again <+: all ∧ J.advance all db = some db' := by
  have known : ∀ i ∈ done, J.name i ∈ J.recorded mid := fun i member =>
    (mem_recorded_advance first _).mpr (.inr (List.mem_map_of_mem member))
  rcases List.prefix_or_prefix_of_prefix begun' begun with shorter | longer
  · rw [advance_known fun i member => known i (shorter.subset member)] at second
    obtain rfl := Option.some.inj second
    exact ⟨done, begun, List.prefix_refl _, shorter, first⟩
  · obtain ⟨more, rfl⟩ := longer
    rw [advance_append, advance_known known] at second
    refine ⟨done ++ more, begun', List.prefix_append _ _, List.prefix_refl _, ?_⟩
    rw [advance_append, first]
    exact second

/-- What holds of the beginnings of the steps, when each step can be carried out
where it holds of those before it. -/
theorem advance_invariant (inv : List ι → δ → Prop) (start : inv [] db)
    (step : ∀ done i mid, done ++ [i] <+: steps → inv done mid →
      ∃ db', J.advanceOne mid i = some db' ∧ inv (done ++ [i]) db')
    {done : List ι} (begun : done <+: steps) : ∃ db', J.advance done db = some db' ∧ inv done db' := by
  induction done using List.reverseRecOn with
  | nil => exact ⟨db, rfl, start⟩
  | append_singleton done i ih =>
    obtain ⟨mid, advanced, holds⟩ := ih ((List.prefix_append done [i]).trans begun)
    obtain ⟨db', one, holds'⟩ := step done i mid begun holds
    refine ⟨db', ?_, holds'⟩
    rw [advance_append, advanced]
    exact advance_cons_eq_some.mpr ⟨db', one, rfl⟩

/-- What a step that was not known leaves known. -/
theorem known_onward {i : ι} {known : List κ} (distinct : ((i :: steps).map J.name).Nodup)
    (same : ∀ j ∈ i :: steps, J.name j ∈ known ↔ J.name j ∈ J.recorded db)
    (one : J.advanceOne db i = some db') : ∀ j ∈ steps, J.name j ∈ known ↔ J.name j ∈ J.recorded db' := by
  intro j member
  rw [List.map_cons, List.nodup_cons] at distinct
  have other : J.name j ≠ J.name i := fun equal => distinct.1 (equal ▸ List.mem_map_of_mem member)
  rw [recorded_advanceOne one, or_iff_left other]
  exact same j (List.mem_cons_of_mem i member)

/-- The script, cut off anywhere, has carried out a beginning of the steps; it
returns only when it has carried out all. -/
theorem run_carryOut (failure : ε) {known : List κ} (left : Option Nat)
    (distinct : (steps.map J.name).Nodup)
    (same : ∀ i ∈ steps, J.name i ∈ known ↔ J.name i ∈ J.recorded db) :
    ∃ done, done <+: steps ∧
      J.advance done db = some ((J.carryOut failure known steps).run.run { db, left }).2.db ∧
      (((J.carryOut failure known steps).run.run { db, left }).1 = .ok () → done = steps) := by
  induction steps generalizing db left with
  | nil => exact ⟨[], List.prefix_refl _, rfl, fun _ => rfl⟩
  | cons i steps ih =>
    have distinct' := (List.nodup_cons.mp distinct).2
    have unfolds : J.carryOut failure known (i :: steps) =
        (if J.name i ∈ known then pure () else Sql.transaction failure (J.body i)) >>= fun _ =>
          J.carryOut failure known steps := rfl
    -- the rest of the loop, once the first step has come to a database
    have onward : ∀ mid left', J.advanceOne db i = some mid → ∃ done, done <+: i :: steps ∧
        J.advance done db = some ((J.carryOut failure known steps).run.run { db := mid, left := left' }).2.db ∧
        (((J.carryOut failure known steps).run.run { db := mid, left := left' }).1 = .ok () →
          done = i :: steps) := by
      intro mid left' one
      obtain ⟨done, begun, advanced, all⟩ := ih left' distinct' (known_onward distinct same one)
      refine ⟨i :: done, List.cons_prefix_cons.mpr ⟨rfl, begun⟩, ?_, fun ok => congrArg _ (all ok)⟩
      exact advance_cons_eq_some.mpr ⟨mid, one, advanced⟩
    rw [unfolds, Sql.run_bind]
    by_cases found : J.name i ∈ known
    · rw [if_pos found]
      exact onward db left (if_pos ((same i List.mem_cons_self).mp found))
    · rw [if_neg found]
      have fresh : ¬ J.name i ∈ J.recorded db := fun there => found ((same i List.mem_cons_self).mpr there)
      have stopped : ∀ e (s : Session δ), (Sql.transaction failure (J.body i)).run.run { db, left } =
          (.error e, s) → ∃ done, done <+: i :: steps ∧ J.advance done db = some s.db ∧
            ((.error e : Except ε Unit) = .ok () → done = i :: steps) := by
        intro e s fails
        refine ⟨[], List.nil_prefix, ?_, fun same => by cases same⟩
        exact congrArg some (Sql.db_of_transaction_error fails).symm
      cases effect : J.effect i db with
      | none =>
        obtain ⟨e, s, fails, -⟩ := @Sql.run_transaction_error _ _ _ failure _ (J.steady i) _
          (J.throws effect) left
        rw [fails]
        exact stopped e s fails
      | some mid =>
        have one : J.advanceOne db i = some mid := (if_neg fresh).trans effect
        rcases @Sql.run_transaction_cases _ _ _ failure _ (J.steady i) _ _ _
            (J.returns effect) left with
          ⟨e, s, fails, -⟩ | ⟨left', runs⟩
        · rw [fails]
          exact stopped e s fails
        · rw [runs]
          exact onward mid left' one

/-- Where every step can be carried out and nothing fails, the script returns. -/
theorem run_carryOut_all (failure : ε) {known : List κ} (distinct : (steps.map J.name).Nodup)
    (same : ∀ i ∈ steps, J.name i ∈ known ↔ J.name i ∈ J.recorded db)
    (advanced : J.advance steps db = some db') :
    (J.carryOut failure known steps).run.run { db } = (.ok (), { db := db' }) := by
  induction steps generalizing db with
  | nil =>
    obtain rfl := Option.some.inj advanced
    rfl
  | cons i steps ih =>
    obtain ⟨mid, one, rest⟩ := advance_cons_eq_some.mp advanced
    have unfolds : J.carryOut failure known (i :: steps) =
        (if J.name i ∈ known then pure () else Sql.transaction failure (J.body i)) >>= fun _ =>
          J.carryOut failure known steps := rfl
    rw [unfolds, Sql.run_bind, ← ih (List.nodup_cons.mp distinct).2 (known_onward distinct same one) rest]
    by_cases found : J.name i ∈ known
    · have here : J.name i ∈ J.recorded db := (same i List.mem_cons_self).mp found
      rw [advanceOne, if_pos here] at one
      obtain rfl := Option.some.inj one
      rw [if_pos found]
      rfl
    · have fresh : ¬ J.name i ∈ J.recorded db := fun there => found ((same i List.mem_cons_self).mpr there)
      rw [advanceOne, if_neg fresh] at one
      rw [if_neg found, Sql.run_transaction (J.returns one)]

end Journal

end Interaction
