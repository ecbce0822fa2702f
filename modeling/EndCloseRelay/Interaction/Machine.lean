import EndCloseRelay.Interaction.Program
import Mathlib.Data.List.Infix

/-!
# Worlds and machines

A world answers the calls of a program and moves on; `exec` runs a program to
its end in one, and `Sat.exec` carries what `Sat` says over to such a run.  A
`Machine` takes one action after the other; `Guarded` restricts the runs to
those whose every action meets a guard in the state it is taken in, and the
invariant rules are stated for these.
-/

namespace Interaction

/-! ## Running a program in a world -/

namespace Program

variable {Op : Type} {Ans : Op → Type} {α W : Type}

/-- A world: given the exchanges so far, latest first, its answer to a call and
the world after it. -/
abbrev World (Ans : Op → Type) (W : Type) := List (Exchange Ans) → W → (op : Op) → Ans op × W

/-- Run a program: its result, its exchanges and the world it leaves. -/
def exec (world : World Ans W) :
    Program Op Ans α → List (Exchange Ans) → W → α × List (Exchange Ans) × W
  | pure a, history, w => (a, history, w)
  | call op next, history, w =>
    let (answer, w') := world history w op
    (next answer).exec world (⟨op, answer⟩ :: history) w'

/-- What `Sat` promises holds of a run in a world that keeps an invariant and
gives admitted answers. -/
theorem Sat.exec {D : Discipline Op Ans} (world : World Ans W)
    (inv : List (Exchange Ans) → W → Prop) {p : Program Op Ans α} {history : List (Exchange Ans)}
    {post : List (Exchange Ans) → α → Prop} {w : W} (sat : p.Sat D history post)
    (start : inv history w)
    (step : ∀ history w op, inv history w → D.allowed history op →
      D.admits history op (world history w op).1 ∧
        inv (⟨op, (world history w op).1⟩ :: history) (world history w op).2) :
    post (p.exec world history w).2.1 (p.exec world history w).1 ∧
      inv (p.exec world history w).2.1 (p.exec world history w).2.2 := by
  induction p generalizing history w with
  | pure a => exact ⟨sat, start⟩
  | call op next ih =>
    obtain ⟨allowed, onward⟩ := sat
    obtain ⟨admitted, kept⟩ := step history w op start allowed
    exact ih _ (onward _ admitted) kept

/-- What holds whatever is answered holds of a run in any world. -/
theorem Sat.exec_free (world : World Ans W) (w : W) {p : Program Op Ans α}
    {history : List (Exchange Ans)} {post : List (Exchange Ans) → α → Prop}
    (sat : p.Sat (Discipline.free Op Ans) history post) :
    post (p.exec world history w).2.1 (p.exec world history w).1 :=
  (Sat.exec world (fun _ _ => True) sat (w := w) trivial
    fun _ _ _ _ _ => ⟨trivial, trivial⟩).1

end Program

/-! ## Machines -/

/-- A deterministic machine over actions. -/
structure Machine (σ α : Type) where
  init : σ
  step : σ → α → σ

namespace Machine

variable {σ α : Type} (M : Machine σ α)

/-- The state after a run. -/
def run (actions : List α) : σ := actions.foldl M.step M.init

@[simp] theorem run_nil : M.run [] = M.init := rfl

@[simp] theorem run_concat (actions : List α) (a : α) :
    M.run (actions ++ [a]) = M.step (M.run actions) a := by
  rw [run, List.foldl_append]
  rfl

theorem run_append (actions later : List α) :
    M.run (actions ++ later) = later.foldl M.step (M.run actions) :=
  List.foldl_append

/-- Every action meets the guard in the state it is taken in. -/
def GuardedFrom (guard : σ → α → Prop) : σ → List α → Prop
  | _, [] => True
  | s, a :: actions => guard s a ∧ GuardedFrom guard (M.step s a) actions

instance GuardedFrom.decidable (guard : σ → α → Prop) [∀ s a, Decidable (guard s a)] (s : σ)
    (actions : List α) : Decidable (M.GuardedFrom guard s actions) :=
  match actions with
  | [] => isTrue trivial
  | a :: actions =>
    have := GuardedFrom.decidable guard (M.step s a) actions
    inferInstanceAs (Decidable (guard s a ∧ M.GuardedFrom guard (M.step s a) actions))

/-- Every action of the run meets the guard. -/
def Guarded (guard : σ → α → Prop) (actions : List α) : Prop := M.GuardedFrom guard M.init actions

instance (guard : σ → α → Prop) [∀ s a, Decidable (guard s a)] (actions : List α) :
    Decidable (M.Guarded guard actions) :=
  inferInstanceAs (Decidable (M.GuardedFrom guard M.init actions))

variable {M} {guard guard' : σ → α → Prop} {actions : List α} {a : α}

theorem guardedFrom_append {s : σ} {later : List α} : M.GuardedFrom guard s (actions ++ later) ↔
    M.GuardedFrom guard s actions ∧ M.GuardedFrom guard (actions.foldl M.step s) later := by
  induction actions generalizing s with
  | nil => exact (and_iff_right trivial).symm
  | cons b actions ih =>
    rw [List.cons_append, GuardedFrom, GuardedFrom, ih, List.foldl_cons, and_assoc]

theorem guardedFrom_concat {s : σ} : M.GuardedFrom guard s (actions ++ [a]) ↔
    M.GuardedFrom guard s actions ∧ guard (actions.foldl M.step s) a := by
  rw [guardedFrom_append, GuardedFrom, GuardedFrom, and_true]

/-- A run is guarded when its beginning is and its last action is. -/
theorem guarded_concat :
    M.Guarded guard (actions ++ [a]) ↔ M.Guarded guard actions ∧ guard (M.run actions) a :=
  guardedFrom_concat

/-- What holds at the start and is preserved by every guarded step holds after
every guarded run. -/
theorem guarded_invariant (inv : σ → Prop) (start : inv M.init)
    (step : ∀ s a, inv s → guard s a → inv (M.step s a)) (guarded : M.Guarded guard actions) :
    inv (M.run actions) := by
  induction actions using List.reverseRecOn with
  | nil => exact start
  | append_singleton actions a ih =>
    rw [run_concat]
    rw [guarded_concat] at guarded
    exact step _ _ (ih guarded.1) guarded.2

/-- A guard that an invariant of the guarded runs strengthens. -/
theorem Guarded.strengthen (inv : σ → Prop) (start : inv M.init)
    (step : ∀ s a, inv s → guard s a → inv (M.step s a) ∧ guard' s a)
    (guarded : M.Guarded guard actions) : M.Guarded guard' actions := by
  induction actions using List.reverseRecOn with
  | nil => trivial
  | append_singleton actions a ih =>
    rw [guarded_concat] at guarded ⊢
    have kept := guarded_invariant inv start (fun s a kept met => (step s a kept met).1) guarded.1
    exact ⟨ih guarded.1, (step _ _ kept guarded.2).2⟩

/-- A guard that an invariant gives is met by every run. -/
theorem guarded_of_invariant (inv : σ → Prop) (start : inv M.init) (step : ∀ s a, inv s → inv (M.step s a))
    (met : ∀ s a, inv s → guard s a) (actions : List α) : M.Guarded guard actions := by
  have free : M.Guarded (fun _ _ => True) actions := by
    induction actions using List.reverseRecOn with
    | nil => trivial
    | append_singleton actions a ih => exact guarded_concat.mpr ⟨ih, trivial⟩
  exact free.strengthen inv start fun s a kept _ => ⟨step s a kept, met s a kept⟩

/-- What holds at the start and is preserved by every step of a kind holds
after every run of such steps. -/
theorem listed_invariant (inv : σ → Prop) (kind : α → Prop) (start : inv M.init)
    (step : ∀ s a, inv s → kind a → inv (M.step s a)) (listed : ∀ a ∈ actions, kind a) :
    inv (M.run actions) := by
  induction actions using List.reverseRecOn with
  | nil => exact start
  | append_singleton actions a ih =>
    rw [run_concat]
    have earlier := ih fun b member => listed b (List.mem_append_left _ member)
    exact step _ _ earlier (listed a (by simp))

/-- What holds at the start and is preserved by every step holds after every run. -/
theorem invariant (inv : σ → Prop) (start : inv M.init)
    (step : ∀ s a, inv s → inv (M.step s a)) (actions : List α) : inv (M.run actions) :=
  listed_invariant inv (fun _ => True) start (fun s a kept _ => step s a kept)
    (fun _ _ => trivial)

end Machine

end Interaction
