import Mathlib.Data.List.SplitBy

/-!
# Runs between borders

`List.splitBy` over parts of a list: two parts are split on their own where a
border lies between them, and welded where none does.
-/

namespace Scanning

variable {α β : Type} {r : α → α → Bool}

/-- Pieces before more, the last of them glued to the first of those. -/
def weld : List (List α) → List (List α) → List (List α)
  | [], more => more
  | [piece], [] => [piece]
  | [piece], next :: more => (piece ++ next) :: more
  | piece :: piece' :: pieces, more => piece :: weld (piece' :: pieces) more

@[simp] theorem weld_nil (more : List (List α)) : weld [] more = more := rfl

@[simp] theorem weld_cons_cons (piece piece' : List α) (pieces more : List (List α)) :
    weld (piece :: piece' :: pieces) more = piece :: weld (piece' :: pieces) more := rfl

theorem weld_map (f : α → β) (pieces more : List (List α)) :
    (weld pieces more).map (List.map f) = weld (pieces.map (List.map f)) (more.map (List.map f)) := by
  induction pieces with
  | nil => rfl
  | cons piece pieces ih =>
    cases pieces with
    | nil =>
      cases more with
      | nil => rfl
      | cons next more =>
        show (piece ++ next).map f :: _ = _
        rw [List.map_append]
        rfl
    | cons piece' pieces => exact congrArg (piece.map f :: ·) ih

theorem weld_flatten (pieces more : List (List α)) :
    (weld pieces more).flatten = pieces.flatten ++ more.flatten := by
  induction pieces with
  | nil => rfl
  | cons piece pieces ih =>
    cases pieces with
    | nil => cases more <;> simp [weld]
    | cons piece' pieces =>
      show piece ++ (weld (piece' :: pieces) more).flatten = _
      rw [ih, ← List.append_assoc]
      rfl

/-- The first of two elements is split off, or goes with the second. -/
theorem splitBy_cons_cons (a b : α) (l : List α) : (a :: b :: l).splitBy r =
    if r a b then weld [[a]] ((b :: l).splitBy r) else [a] :: (b :: l).splitBy r := by
  by_cases joined : r a b
  · rw [if_pos joined]
    obtain ⟨p, ps, split_⟩ := List.exists_cons_of_ne_nil (List.splitBy_ne_nil.mpr (List.cons_ne_nil b l))
    obtain ⟨flat, full, chains, borders⟩ := List.splitBy_eq_iff.mp split_
    obtain ⟨c, p, rfl⟩ := List.exists_cons_of_ne_nil fun empty => full (empty ▸ List.mem_cons_self)
    obtain rfl : b = c := (List.cons.inj flat).1
    rw [split_, List.splitBy_eq_iff]
    refine ⟨?_, ?_, ?_, ?_⟩
    · rw [flat]
      rfl
    · rintro member
      rcases List.mem_cons.mp member with empty | member
      · cases empty
      · exact full (List.mem_cons_of_mem _ member)
    · intro piece member
      rcases List.mem_cons.mp member with rfl | member
      · exact List.isChain_cons_cons.mpr ⟨joined, chains _ List.mem_cons_self⟩
      · exact chains piece (List.mem_cons_of_mem _ member)
    · show ((a :: b :: p) :: ps).IsChain _
      rw [List.isChain_cons] at borders ⊢
      refine ⟨fun next first => ?_, borders.2⟩
      obtain ⟨_, some_, border⟩ := borders.1 next first
      exact ⟨List.cons_ne_nil _ _, some_, border⟩
  · rw [if_neg joined]
    exact List.splitBy_append_cons (l := [a]) l fun x last => by
      obtain rfl := Option.some.inj last
      exact Bool.eq_false_iff.mpr joined

/-- Where no border lies between two lists, they are welded. -/
theorem splitBy_append_of_joined {l m : List α} (joined : ∀ x ∈ l.getLast?, ∀ y ∈ m.head?, r x y) :
    (l ++ m).splitBy r = weld (l.splitBy r) (m.splitBy r) := by
  induction l with
  | nil => rfl
  | cons a l ih =>
    cases l with
    | nil =>
      cases m with
      | nil => rfl
      | cons b m =>
        rw [List.cons_append, List.nil_append, splitBy_cons_cons, if_pos (joined a rfl b rfl)]
        rfl
    | cons b l =>
      have rest := ih fun x last => joined x (by rwa [List.getLast?_cons_cons])
      rw [List.cons_append, List.cons_append, splitBy_cons_cons, splitBy_cons_cons,
        ← List.cons_append, rest]
      obtain ⟨p, ps, split_⟩ := List.exists_cons_of_ne_nil
        (List.splitBy_ne_nil.mpr (List.cons_ne_nil b l))
      rw [split_]
      split
      · cases ps with
        | nil => cases m.splitBy r <;> rfl
        | cons p' ps => rfl
      · rfl

theorem splitBy_map (f : β → α) (l : List β) :
    (l.map f).splitBy r = (l.splitBy fun a b => r (f a) (f b)).map (List.map f) := by
  induction l with
  | nil => rfl
  | cons a l ih =>
    cases l with
    | nil => rfl
    | cons b l =>
      rw [List.map_cons, List.map_cons, splitBy_cons_cons, splitBy_cons_cons, ← List.map_cons, ih]
      split
      · rw [weld_map]
        rfl
      · rfl

/-- Only the elements of the list matter to where it is split. -/
theorem splitBy_congr {r' : α → α → Bool} {l : List α} (same : ∀ a ∈ l, ∀ b ∈ l, r a b = r' a b) :
    l.splitBy r = l.splitBy r' := by
  induction l with
  | nil => rfl
  | cons a l ih =>
    cases l with
    | nil => rfl
    | cons b l =>
      have rest := ih fun x member y member' =>
        same x (List.mem_cons_of_mem a member) y (List.mem_cons_of_mem a member')
      rw [splitBy_cons_cons, splitBy_cons_cons, rest, same a (by simp) b (by simp)]

/-- A list without borders is one piece. -/
theorem splitBy_of_joined {l : List α} (full : l ≠ []) (joined : ∀ a, ∀ b ∈ l.tail, r a b) :
    l.splitBy r = [l] := by
  induction l with
  | nil => contradiction
  | cons a l ih =>
    cases l with
    | nil => rfl
    | cons b l =>
      have rest := ih (List.cons_ne_nil b l) fun x y member => joined x y (List.mem_cons_of_mem b member)
      rw [splitBy_cons_cons, if_pos (joined a b List.mem_cons_self), rest]
      rfl

/-- Lists with a separator between them: the first, then each of the others behind a separator. -/
theorem intercalate_cons (sep : α) (l : List α) (ls : List (List α)) :
    [sep].intercalate (l :: ls) = l ++ ls.flatMap fun l' => sep :: l' := by
  induction ls generalizing l with
  | nil => rw [List.intercalate_singleton, List.flatMap_nil, List.append_nil]
  | cons l' ls ih =>
    rw [List.intercalate_cons_cons, ih, List.flatMap_cons, List.append_assoc]
    rfl

theorem mem_intercalate {sep x : α} {ls : List (List α)} (member : x ∈ [sep].intercalate ls) :
    x = sep ∨ ∃ l ∈ ls, x ∈ l := by
  cases ls with
  | nil => cases member
  | cons l ls =>
    rw [intercalate_cons, List.mem_append, List.mem_flatMap] at member
    rcases member with here | ⟨l', there, behind⟩
    · exact .inr ⟨l, List.mem_cons_self, here⟩
    · rcases List.mem_cons.mp behind with rfl | inside
      · exact .inl rfl
      · exact .inr ⟨l', List.mem_cons_of_mem l there, inside⟩

end Scanning
