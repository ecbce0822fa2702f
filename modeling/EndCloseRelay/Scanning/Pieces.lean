import Mathlib.Data.List.Basic

/-!
# Replacing what a scan finds

A scan reads a text from left to right and cuts it into pieces: characters it
passes over, and runs it takes.  Replacing the runs it takes by a mark leaves a
text whose substrings, as far as they share no character with the mark, are the
substrings of the old one that no replaced run overlaps; `exposes_render_iff`
says so of substrings that stand between edges.
-/

namespace Scanning

variable {α : Type}

/-- A character passed over, or a run taken. -/
inductive Piece (α : Type)
  | plain (a : α)
  | hit (run : List α)

/-- The text of the pieces, with every run put through a function. -/
def render (f : List α → List α) : List (Piece α) → List α
  | [] => []
  | .plain a :: ps => a :: render f ps
  | .hit run :: ps => f run ++ render f ps

/-- The text the pieces were cut from. -/
def source (ps : List (Piece α)) : List α := render id ps

@[simp] theorem render_nil (f : List α → List α) : render f [] = [] := rfl

@[simp] theorem render_plain (f : List α → List α) (a : α) (ps : List (Piece α)) :
    render f (.plain a :: ps) = a :: render f ps := rfl

@[simp] theorem render_hit (f : List α → List α) (run : List α) (ps : List (Piece α)) :
    render f (.hit run :: ps) = f run ++ render f ps := rfl

@[simp] theorem render_append (f : List α → List α) (ps qs : List (Piece α)) :
    render f (ps ++ qs) = render f ps ++ render f qs := by
  induction ps with
  | nil => rfl
  | cons p ps ih => cases p <;> simp [ih]

@[simp] theorem render_map_plain (f : List α → List α) (run : List α) :
    render f (run.map .plain) = run := by
  induction run with
  | nil => rfl
  | cons a run ih => simp [ih]

/-! ## Cutting a text -/

/-- What looks for a run at the head of a text, given the character before it,
and returns its length. -/
abbrev Finder (α : Type) := Option α → List α → Option Nat

/-- Runs are not empty and in the text. -/
def Finder.Lawful (find : Finder α) : Prop :=
  ∀ prev text n, find prev text = some n → 0 < n ∧ n ≤ text.length

/-- The pieces of a text; `skip` counts the characters of a run still to be
passed over. -/
def pieces (find : Finder α) : Option α → Nat → List α → List (Piece α)
  | _, _, [] => []
  | _, skip + 1, c :: rest => pieces find (some c) skip rest
  | prev, 0, c :: rest =>
    match find prev (c :: rest) with
    | some n => .hit ((c :: rest).take n) :: pieces find (some c) (n - 1) rest
    | none => .plain c :: pieces find (some c) 0 rest

/-- The last character of a text that follows another. -/
def lastOr (prev : Option α) (text : List α) : Option α := text.getLast?.or prev

theorem lastOr_cons (prev : Option α) (c : α) (text : List α) :
    lastOr prev (c :: text) = lastOr (some c) text := by
  unfold lastOr
  rw [List.getLast?_cons]
  cases text.getLast? <;> rfl

@[simp] theorem lastOr_nil (prev : Option α) : lastOr prev [] = prev := rfl

@[simp] theorem lastOr_none (text : List α) : lastOr none text = text.getLast? := Option.or_none

theorem source_pieces {find : Finder α} (lawful : find.Lawful) (prev : Option α) (skip : Nat)
    (text : List α) : source (pieces find prev skip text) = text.drop skip := by
  induction text generalizing prev skip with
  | nil => simp [pieces, source]
  | cons c rest ih =>
    cases skip with
    | succ skip => exact ih _ _
    | zero =>
      unfold pieces
      cases found : find prev (c :: rest) with
      | none =>
        show c :: source (pieces find (some c) 0 rest) = _
        rw [ih]
        rfl
      | some n =>
        obtain ⟨m, rfl⟩ := Nat.exists_eq_succ_of_ne_zero (Nat.ne_of_gt (lawful _ _ _ found).1)
        show (c :: rest).take (m + 1) ++ source (pieces find (some c) m rest) = _
        rw [ih]
        exact congrArg (c :: ·) (List.take_append_drop m rest)

/-- What the finder said where a piece was cut. -/
def Piece.Cut (find : Finder α) (prev : Option α) (after : List α) : Piece α → Prop
  | .plain a => find prev (a :: after) = none
  | .hit run => find prev (run ++ after) = some run.length

theorem cut_of_pieces {find : Finder α} (lawful : find.Lawful) {prev : Option α} {skip : Nat}
    {text : List α} {ps qs : List (Piece α)} {p : Piece α}
    (split : pieces find prev skip text = ps ++ p :: qs) :
    p.Cut find (lastOr prev (text.take skip ++ source ps)) (source qs) := by
  induction text generalizing prev skip ps with
  | nil => simp [pieces] at split
  | cons c rest ih =>
    cases skip with
    | succ skip =>
      have later : p.Cut find (lastOr (some c) (rest.take skip ++ source ps)) (source qs) :=
        ih split
      rwa [List.take_succ_cons, List.cons_append, lastOr_cons]
    | zero =>
      unfold pieces at split
      cases found : find prev (c :: rest) with
      | none =>
        simp only [found] at split
        cases ps with
        | nil =>
          obtain ⟨rfl, rfl⟩ := List.cons.inj split
          show find prev (c :: source _) = none
          rw [source_pieces lawful]
          exact found
        | cons p' ps =>
          obtain ⟨rfl, behind⟩ := List.cons.inj split
          have later := ih behind
          show p.Cut find (lastOr prev (c :: source ps)) _
          rwa [lastOr_cons]
      | some n =>
        obtain ⟨positive, within⟩ := lawful _ _ _ found
        obtain ⟨m, rfl⟩ := Nat.exists_eq_succ_of_ne_zero (Nat.ne_of_gt positive)
        simp only [found] at split
        cases ps with
        | nil =>
          obtain ⟨rfl, rfl⟩ := List.cons.inj split
          show find prev ((c :: rest).take (m + 1) ++ source (pieces find (some c) m rest)) =
            some ((c :: rest).take (m + 1)).length
          rw [source_pieces lawful, List.length_take_of_le within]
          exact (congrArg (find prev) (List.take_append_drop (m + 1) (c :: rest))).trans found
        | cons p' ps =>
          obtain ⟨rfl, behind⟩ := List.cons.inj split
          have later := ih behind
          show p.Cut find (lastOr prev (c :: (rest.take m ++ source ps))) _
          rwa [lastOr_cons]

/-! ## Settling on some runs -/

/-- Pass over the characters of a run that a test does not take. -/
def Piece.settle (taken : List α → Bool) : Piece α → List (Piece α)
  | .plain a => [.plain a]
  | .hit run => if taken run then [.hit run] else run.map .plain

theorem Piece.settle_hit (taken : List α → Bool) (run : List α) :
    (Piece.hit run).settle taken = if taken run then [.hit run] else run.map .plain := rfl

/-- Only a run that the test takes is settled on. -/
theorem Piece.hit_mem_settle {taken : List α → Bool} {p : Piece α} {run : List α}
    (member : .hit run ∈ p.settle taken) : taken run ∧ p = .hit run := by
  cases p with
  | plain a => exact nomatch List.mem_singleton.mp member
  | hit run' =>
    rw [settle_hit] at member
    by_cases took : taken run'
    · rw [if_pos took] at member
      obtain rfl := Piece.hit.inj (List.mem_singleton.mp member)
      exact ⟨took, rfl⟩
    · rw [if_neg took] at member
      obtain ⟨a, -, same⟩ := List.mem_map.mp member
      cases same

/-- Pass over the runs that a test does not take. -/
def settle (taken : List α → Bool) (ps : List (Piece α)) : List (Piece α) :=
  ps.flatMap (Piece.settle taken)

theorem settle_append (taken : List α → Bool) (ps qs : List (Piece α)) :
    settle taken (ps ++ qs) = settle taken ps ++ settle taken qs :=
  List.flatMap_append

/-- Replacing only the runs a test takes. -/
theorem render_settle (taken : List α → Bool) (f : List α → List α) (ps : List (Piece α)) :
    render f (settle taken ps) = render (fun run => if taken run then f run else run) ps := by
  induction ps with
  | nil => rfl
  | cons p ps ih =>
    show render f (p.settle taken ++ settle taken ps) = _
    rw [render_append, ih]
    cases p with
    | plain a => rfl
    | hit run =>
      rw [Piece.settle_hit, render_hit]
      by_cases took : taken run
      · rw [if_pos took, if_pos took]
        simp
      · rw [if_neg took, if_neg took, render_map_plain]

theorem source_settle (taken : List α → Bool) (ps : List (Piece α)) :
    source (settle taken ps) = source ps := by
  unfold source
  rw [render_settle]
  simp only [id, ite_self]
  rfl

/-- The runs settled on are the runs found that the test takes. -/
theorem hit_of_settle {taken : List α → Bool} {ps before after : List (Piece α)} {run : List α}
    (cut : settle taken ps = before ++ .hit run :: after) :
    taken run ∧ ∃ before' after', ps = before' ++ .hit run :: after' ∧
      settle taken before' = before ∧ settle taken after' = after := by
  induction ps generalizing before with
  | nil => simp [settle] at cut
  | cons p ps ih =>
    have cut : p.settle taken ++ settle taken ps = before ++ .hit run :: after := cut
    rcases List.append_eq_append_iff.mp cut with ⟨rest, rfl, later⟩ | ⟨rest, here, later⟩
    · obtain ⟨took, before', after', rfl, same, same'⟩ := ih later
      exact ⟨took, p :: before', after', rfl, congrArg (p.settle taken ++ ·) same, same'⟩
    · cases rest with
      | nil =>
        have later : settle taken ps = [] ++ .hit run :: after := later.symm
        obtain ⟨took, before', after', rfl, same, same'⟩ := ih later
        refine ⟨took, p :: before', after', rfl, ?_, same'⟩
        show p.settle taken ++ settle taken before' = before
        rw [same, here, List.append_nil, List.append_nil]
      | cons first rest =>
        obtain ⟨rfl, rfl⟩ := List.cons.inj later
        have member : Piece.hit run ∈ p.settle taken := by
          rw [here]
          simp
        obtain ⟨took, rfl⟩ := Piece.hit_mem_settle member
        rw [Piece.settle_hit, if_pos took] at here
        have alone := congrArg List.length here
        simp only [List.length_append, List.length_cons, List.length_nil] at alone
        obtain rfl := List.eq_nil_of_length_eq_zero (show before.length = 0 by omega)
        obtain rfl := List.eq_nil_of_length_eq_zero (show rest.length = 0 by omega)
        exact ⟨took, [], ps, rfl, rfl, rfl⟩

theorem settle_of_hit {taken : List α → Bool} {before after : List (Piece α)} {run : List α}
    (took : taken run) : settle taken (before ++ .hit run :: after) =
      settle taken before ++ .hit run :: settle taken after := by
  rw [settle_append]
  show settle taken before ++ (Piece.settle taken (.hit run) ++ settle taken after) = _
  rw [Piece.settle_hit, if_pos took]
  rfl

/-! ## Substrings between the runs -/

/-- A beginning of a text that no run reaches into is plain. -/
theorem plain_of_prefix {f : List α → List α} {ps : List (Piece α)} {run after : List α}
    (text : render f ps = run ++ after)
    (clear : ∀ qs hit qs', ps = qs ++ .hit hit :: qs' → run.length ≤ (render f qs).length) :
    ∃ qs, ps = run.map .plain ++ qs ∧ render f qs = after := by
  induction run generalizing ps with
  | nil => exact ⟨ps, rfl, text⟩
  | cons a run ih =>
    cases ps with
    | nil => cases text
    | cons p ps =>
      cases p with
      | plain b =>
        obtain ⟨rfl, behind⟩ := List.cons.inj text
        have clear' : ∀ qs hit qs', ps = qs ++ .hit hit :: qs' →
            run.length ≤ (render f qs).length := by
          intro qs hit qs' split
          have far := clear (.plain b :: qs) hit qs' (congrArg (.plain b :: ·) split)
          rw [render_plain, List.length_cons, List.length_cons] at far
          omega
        obtain ⟨qs, rfl, rest⟩ := ih behind clear'
        exact ⟨qs, rfl, rest⟩
      | hit hit =>
        have near := clear [] hit ps rfl
        rw [render_nil, List.length_cons, List.length_nil] at near
        omega

/-- A substring that no run overlaps is plain. -/
theorem plain_of_clear {f : List α → List α} {ps : List (Piece α)} {before run after : List α}
    (some_ : ∀ qs hit qs', ps = qs ++ .hit hit :: qs' → f hit ≠ [])
    (text : render f ps = before ++ run ++ after)
    (clear : ∀ qs hit qs', ps = qs ++ .hit hit :: qs' →
      (render f qs).length + (f hit).length ≤ before.length ∨
        before.length + run.length ≤ (render f qs).length) :
    ∃ qs qs', ps = qs ++ run.map .plain ++ qs' ∧ render f qs = before ∧ render f qs' = after := by
  induction ps generalizing before with
  | nil =>
    have empty := congrArg List.length text
    simp only [render_nil, List.length_nil, List.length_append] at empty
    obtain rfl := List.eq_nil_of_length_eq_zero (show before.length = 0 by omega)
    obtain rfl := List.eq_nil_of_length_eq_zero (show run.length = 0 by omega)
    obtain rfl := List.eq_nil_of_length_eq_zero (show after.length = 0 by omega)
    exact ⟨[], [], rfl, rfl, rfl⟩
  | cons p ps ih =>
    cases before with
    | nil =>
      have clear' : ∀ qs hit qs', p :: ps = qs ++ .hit hit :: qs' →
          run.length ≤ (render f qs).length := by
        intro qs hit qs' split
        have filled := List.length_pos_iff.mpr (some_ qs hit qs' split)
        have far := clear qs hit qs' split
        rw [List.length_nil] at far
        omega
      obtain ⟨qs, split, rest⟩ := plain_of_prefix text clear'
      exact ⟨[], qs, split, rfl, rest⟩
    | cons b before =>
      cases p with
      | plain a =>
        obtain ⟨rfl, behind⟩ := List.cons.inj text
        obtain ⟨qs, qs', rfl, rfl, rest⟩ := ih
          (fun qs hit qs' split => some_ (.plain a :: qs) hit qs' (congrArg (.plain a :: ·) split))
          behind fun qs hit qs' split => by
            have far := clear (.plain a :: qs) hit qs' (congrArg (.plain a :: ·) split)
            rw [render_plain, List.length_cons, List.length_cons] at far
            omega
        exact ⟨.plain a :: qs, qs', rfl, rfl, rest⟩
      | hit hit =>
        have within : (f hit).length ≤ (b :: before).length := by
          have far := clear [] hit ps rfl
          rw [render_nil, List.length_nil] at far
          rw [List.length_cons] at far ⊢
          omega
        rw [render_hit, List.append_assoc] at text
        obtain ⟨later, same⟩ : ∃ later, b :: before = f hit ++ later := by
          rcases List.append_eq_append_iff.mp text with ⟨later, same, -⟩ | ⟨later, same, -⟩
          · exact ⟨later, same⟩
          · have longer := congrArg List.length same
            rw [List.length_append] at longer
            obtain rfl := List.eq_nil_of_length_eq_zero (show later.length = 0 by omega)
            exact ⟨[], by rw [same, List.append_nil, List.append_nil]⟩
        rw [same, List.append_assoc] at text
        have text' : render f ps = later ++ run ++ after := by
          rw [List.append_assoc]
          exact List.append_cancel_left text
        have lengths := congrArg List.length same
        rw [List.length_append] at lengths
        obtain ⟨qs, qs', rfl, rfl, rest⟩ := ih
          (fun qs hit' qs' split =>
            some_ (.hit hit :: qs) hit' qs' (congrArg (.hit hit :: ·) split))
          text' fun qs hit' qs' split => by
            have far := clear (.hit hit :: qs) hit' qs' (congrArg (.hit hit :: ·) split)
            rw [render_hit, List.length_append] at far
            omega
        exact ⟨.hit hit :: qs, qs', rfl, same.symm, rest⟩

/-- Two substrings that overlap share a character. -/
theorem shared_of_overlap {text before run after before' run' after' : List α}
    (here : text = before ++ run ++ after) (there : text = before' ++ run' ++ after')
    (filled : run ≠ []) (filled' : run' ≠ [])
    (starts : before.length < before'.length + run'.length)
    (starts' : before'.length < before.length + run.length) : ∃ a, a ∈ run ∧ a ∈ run' := by
  have inside : ∀ {before run after : List α} {n : Nat}, text = before ++ run ++ after →
      before.length ≤ n → n < before.length + run.length → ∃ a, text[n]? = some a ∧ a ∈ run := by
    intro before run after n same low high
    rw [same, List.append_assoc, List.getElem?_append_right low,
      List.getElem?_append_left (by omega)]
    have bound : n - before.length < run.length := by omega
    exact ⟨run[n - before.length], List.getElem?_eq_getElem bound, List.getElem_mem bound⟩
  have positive := List.length_pos_iff.mpr filled
  have positive' := List.length_pos_iff.mpr filled'
  obtain ⟨a, at_, member⟩ :=
    inside (n := max before.length before'.length) here (by omega) (by omega)
  obtain ⟨a', at', member'⟩ :=
    inside (n := max before.length before'.length) there (by omega) (by omega)
  obtain rfl := Option.some.inj (at_.symm.trans at')
  exact ⟨a, member, member'⟩

/-! ## Substrings between edges -/

/-- A substring of a text that stands between edges. -/
structure Stands (edge : Option α → Option α → Bool) (text before run after : List α) : Prop where
  text : text = before ++ run ++ after
  opens : edge before.getLast? run.head?
  closes : edge run.getLast? after.head?

/-- A substring of a shape stands in the text. -/
def Exposes (edge : Option α → Option α → Bool) (shape : List α → Bool) (text : List α) : Prop :=
  ∃ before run after, Stands edge text before run after ∧ shape run

/-- A run overlaps the substring that stands behind some text. -/
def Struck (ps : List (Piece α)) (before run : List α) : Prop :=
  ∃ qs hit qs', ps = qs ++ .hit hit :: qs' ∧
    (source qs).length < before.length + run.length ∧
    before.length < (source qs).length + hit.length

/-- The runs of the pieces and the mark stand between edges, and substrings of
the shape share no character with the mark and no edge with a run. -/
structure Marks (edge : Option α → Option α → Bool) (shape : List α → Bool) (mark : List α)
    (ps : List (Piece α)) : Prop where
  filled : mark ≠ []
  runs : ∀ qs hit qs', ps = qs ++ .hit hit :: qs' → hit ≠ [] ∧
    edge (source qs).getLast? hit.head? ∧ edge hit.getLast? (source qs').head?
  shaped : ∀ run, shape run → run ≠ []
  unmarked : ∀ run, shape run → ∀ a ∈ run, a ∉ mark
  joined : ∀ run, shape run → ∀ qs hit qs', ps = qs ++ .hit hit :: qs' →
    edge hit.getLast? run.head? = false ∧ edge run.getLast? hit.head? = false

section

variable {edge : Option α → Option α → Bool} {shape : List α → Bool} {mark : List α}
  {ps : List (Piece α)}

/-- No run touches a plain substring of the shape, so its neighbours are what
they were in the text. -/
theorem Marks.around (marks : Marks edge shape mark ps) {qs qs' : List (Piece α)} {run : List α}
    (shaped : shape run) (split : ps = qs ++ run.map .plain ++ qs') (f : List α → List α) :
    (render f qs).getLast? = (source qs).getLast? ∧ (render f qs').head? = (source qs').head? := by
  have filled := marks.shaped run shaped
  subst split
  constructor
  · rcases List.eq_nil_or_concat qs with rfl | ⟨earlier, p, rfl⟩
    · rfl
    · cases p with
      | plain a => simp [source]
      | hit hit =>
        have split : earlier.concat (.hit hit) ++ run.map .plain ++ qs' =
            earlier ++ .hit hit :: (run.map .plain ++ qs') := by simp
        have edged := (marks.runs earlier hit _ split).2.2
        have flat := (marks.joined run shaped earlier hit _ split).1
        rw [source, render_append, render_map_plain, List.head?_append_of_ne_nil _ filled,
          flat] at edged
        cases edged
  · cases qs' with
    | nil => rfl
    | cons p later =>
      cases p with
      | plain a => rfl
      | hit hit =>
        have edged := (marks.runs _ hit later rfl).2.1
        have flat := (marks.joined run shaped _ hit later rfl).2
        rw [source, render_append, render_map_plain, List.getLast?_append_of_ne_nil _ filled,
          flat] at edged
        cases edged

/-- No run overlaps a plain substring. -/
theorem not_struck_of_plain {qs qs' : List (Piece α)} {run : List α}
    (split : ps = qs ++ run.map .plain ++ qs') : ¬ Struck ps (source qs) run := by
  rintro ⟨earlier, hit, later, struck, starts, ends⟩
  have beyond : ∀ rest, earlier ≠ qs ++ run.map .plain ++ rest := by
    intro rest same
    rw [same, source, render_append, render_append, render_map_plain, List.length_append,
      List.length_append] at starts
    exact absurd starts (by unfold source; omega)
  rcases List.append_eq_append_iff.mp (split.symm.trans struck) with ⟨rest, same, -⟩ |
    ⟨rest, same, rest_⟩
  · exact beyond rest same
  · cases rest with
    | nil => exact beyond [] (by rw [same, List.append_nil, List.append_nil])
    | cons first rest =>
      obtain rfl := (List.cons.inj rest_).1
      rcases List.append_eq_append_iff.mp same with ⟨middle, -, inside⟩ | ⟨middle, same, inside⟩
      · have member : Piece.hit hit ∈ run.map Piece.plain := by
          rw [inside]
          simp
        obtain ⟨a, -, same⟩ := List.mem_map.mp member
        cases same
      · cases middle with
        | nil =>
          have member : Piece.hit hit ∈ run.map Piece.plain := by
            rw [← List.nil_append (run.map Piece.plain), ← inside]
            exact List.mem_cons_self
          obtain ⟨a, -, same⟩ := List.mem_map.mp member
          cases same
        | cons first middle =>
          obtain rfl := (List.cons.inj inside).1
          rw [same, source, render_append, render_hit, List.length_append,
            List.length_append] at ends
          exact absurd ends (by simp only [source, id]; omega)

/-- The substrings of the shape that are left between the runs. -/
theorem Marks.exposes_iff_plain (marks : Marks edge shape mark ps) :
    Exposes edge shape (render (fun _ => mark) ps) ↔
      ∃ qs run qs', ps = qs ++ run.map .plain ++ qs' ∧ shape run ∧
        edge (source qs).getLast? run.head? ∧ edge run.getLast? (source qs').head? := by
  constructor
  · rintro ⟨before, run, after, stands, shaped⟩
    have clear : ∀ qs hit qs', ps = qs ++ .hit hit :: qs' →
        (render (fun _ => mark) qs).length + mark.length ≤ before.length ∨
          before.length + run.length ≤ (render (fun _ => mark) qs).length := by
      intro qs hit qs' split
      by_contra overlap
      have there : render (fun _ => mark) ps =
          render (fun _ => mark) qs ++ mark ++ render (fun _ => mark) qs' := by
        rw [split, render_append, render_hit, List.append_assoc]
      obtain ⟨a, member, marked⟩ := shared_of_overlap stands.text there (marks.shaped run shaped)
        marks.filled (by omega) (by omega)
      exact marks.unmarked run shaped a member marked
    obtain ⟨qs, qs', split, rfl, rfl⟩ :=
      plain_of_clear (f := fun _ => mark) (fun _ _ _ _ => marks.filled) stands.text clear
    have around := marks.around shaped split fun _ => mark
    exact ⟨qs, run, qs', split, shaped, around.1 ▸ stands.opens, around.2 ▸ stands.closes⟩
  · rintro ⟨qs, run, qs', split, shaped, opens, closes⟩
    have around := marks.around shaped split fun _ => mark
    refine ⟨_, run, _, ⟨?_, around.1 ▸ opens, around.2 ▸ closes⟩, shaped⟩
    rw [split, render_append, render_append, render_map_plain]

/-- What is left of a shape is what stood in the text and no run has struck. -/
theorem Marks.exposes_iff (marks : Marks edge shape mark ps) :
    Exposes edge shape (render (fun _ => mark) ps) ↔
      ∃ before run after, Stands edge (source ps) before run after ∧ shape run ∧
        ¬ Struck ps before run := by
  rw [marks.exposes_iff_plain]
  constructor
  · rintro ⟨qs, run, qs', split, shaped, opens, closes⟩
    refine ⟨source qs, run, source qs', ⟨?_, opens, closes⟩, shaped, ?_⟩
    · rw [split, source, render_append, render_append, render_map_plain]
      rfl
    · exact not_struck_of_plain split
  · rintro ⟨before, run, after, stands, shaped, unstruck⟩
    have clear : ∀ qs hit qs', ps = qs ++ .hit hit :: qs' →
        (source qs).length + hit.length ≤ before.length ∨
          before.length + run.length ≤ (source qs).length := by
      intro qs hit qs' split
      by_contra overlap
      exact unstruck ⟨qs, hit, qs', split, by omega, by omega⟩
    obtain ⟨qs, qs', split, rfl, rfl⟩ :=
      plain_of_clear (f := id) (fun qs hit qs' split => (marks.runs qs hit qs' split).1)
        stands.text clear
    exact ⟨qs, run, qs', split, shaped, stands.opens, stands.closes⟩

end

end Scanning
