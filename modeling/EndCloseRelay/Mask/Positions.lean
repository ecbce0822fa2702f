import EndCloseRelay.Mask.Defaults
import EndCloseRelay.Mask.Paths

/-!
# Positions in a document

A position is the list of child indices from the root of a document down to a
value.  `setAt` replaces the value there.  A dot path touches a position when
the path's walk passes through it or ends above it; the frame lemma says that a
replacement at an untouched position leaves the path's value alone, and the
separation lemma that two replacements of different shape at a touched one
leave it different.
-/

namespace EndCloseRelay

open Js

namespace Json

/-! ## Reading and replacing at a position -/

/-- The value at a position. -/
def at? (node : Json) : List Nat → Option Json
  | [] => some node
  | i :: pos => node.values[i]?.bind fun c => c.at? pos

/-- Replace the `i`-th child of an array or object; the key of a member stays. -/
def setChild (node : Json) (i : Nat) (c : Json) : Json :=
  match node with
  | arr items => arr (items.set i c)
  | obj entries => obj (entries.modify i fun entry => (entry.1, c))
  | other => other

/-- Replace the value at a position. -/
def setAt (node : Json) (w : Json) : List Nat → Json
  | [] => w
  | i :: pos =>
    match node.values[i]? with
    | some c => node.setChild i (c.setAt w pos)
    | none => node

/-- The index of the child `child` selects, an own member or an element. -/
def childIndex (node : Json) (head : String) : Option Nat :=
  match node with
  | arr items => (arrayIndex head).filter (· < items.length)
  | obj entries => entries.findIdx? (head == ·.1)
  | _ => none

theorem map_snd_modify (entries : List (String × Json)) (i : Nat) (c : Json) :
    (entries.modify i fun entry => (entry.1, c)).map Prod.snd = (entries.map Prod.snd).set i c := by
  induction entries generalizing i with
  | nil => cases i <;> rfl
  | cons entry entries ih =>
    cases i with
    | zero => rfl
    | succ i => simp [ih]

theorem values_setChild (node : Json) (i : Nat) (c : Json) :
    (node.setChild i c).values = node.values.set i c := by
  cases node with
  | arr items => rfl
  | obj entries => exact map_snd_modify entries i c
  | _ => rfl

theorem isObject_setChild (node : Json) (i : Nat) (c : Json) :
    (node.setChild i c).isObject = node.isObject := by
  cases node <;> rfl

theorem isObject_of_child {node c : Json} {i : Nat} (child : node.values[i]? = some c) :
    node.isObject := by
  cases node with
  | arr items | obj entries => rfl
  | _ => simp [values] at child

/-- Members with other values under the same keys are found at the same place. -/
theorem findIdx?_modify (entries : List (String × Json)) (i : Nat) (c : Json) (head : String) :
    (entries.modify i fun entry => (entry.1, c)).findIdx? (head == ·.1) =
      entries.findIdx? (head == ·.1) := by
  induction entries generalizing i with
  | nil => cases i <;> rfl
  | cons entry entries ih =>
    cases i with
    | zero => simp [List.findIdx?_cons]
    | succ i => simp [List.findIdx?_cons, ih]

theorem childIndex_setChild (node : Json) (i : Nat) (c : Json) (head : String) :
    (node.setChild i c).childIndex head = node.childIndex head := by
  cases node with
  | arr items => simp [childIndex, setChild]
  | obj entries => exact findIdx?_modify entries i c head
  | _ => rfl

theorem lookup_eq_getElem?_findIdx? (entries : List (String × Json)) (head : String) :
    entries.lookup head =
      (entries.findIdx? (head == ·.1)).bind fun i => (entries.map Prod.snd)[i]? := by
  induction entries with
  | nil => rfl
  | cons entry entries ih =>
    obtain ⟨key, value⟩ := entry
    rw [List.lookup_cons, List.findIdx?_cons]
    by_cases same : head == key
    · simp [same]
    · simp [same, ih, Option.bind_map, Function.comp_def]

theorem findIdx?_lt {entries : List (String × Json)} {head : String} {i : Nat}
    (found : entries.findIdx? (head == ·.1) = some i) : i < (entries.map Prod.snd).length := by
  rw [List.length_map]
  exact (List.findIdx?_eq_some_iff_findIdx_eq.mp found).1

/-- The child at `childIndex` is what `child` finds. -/
theorem child_of_childIndex {node : Json} {head : String} {i : Nat}
    (selected : node.childIndex head = some i) : node.child head = node.values[i]? := by
  cases node with
  | arr items =>
    simp only [childIndex, Option.filter_eq_some_iff] at selected
    simp only [child, selected.1, Option.bind, values]
  | obj entries =>
    simp only [childIndex] at selected
    have bound := findIdx?_lt selected
    simp only [child, values, lookup_eq_getElem?_findIdx?, selected, Option.bind_some]
    rw [List.getElem?_eq_getElem bound, Option.some_or]
  | _ => cases selected

/-- Replacing another child does not change what `child` finds. -/
theorem child_setChild_of_ne {node : Json} {head : String} {i : Nat} (c : Json)
    (other : node.childIndex head ≠ some i) : (node.setChild i c).child head = node.child head := by
  cases node with
  | arr items =>
    simp only [child, setChild]
    cases index : arrayIndex head with
    | none => rfl
    | some j =>
      simp only [childIndex, index] at other
      simp only [Option.bind_some]
      by_cases inside : j < items.length
      · refine List.getElem?_set_ne fun same => other ?_
        rw [Option.filter_eq_some_iff]
        exact ⟨by rw [same], by simp only [same, inside, decide_true]⟩
      · rw [List.getElem?_eq_none (by simpa using inside), List.getElem?_eq_none (by omega)]
  | obj entries =>
    simp only [child, setChild, lookup_eq_getElem?_findIdx?, findIdx?_modify, map_snd_modify]
    simp only [childIndex] at other
    cases found : entries.findIdx? (head == ·.1) with
    | none => rfl
    | some j =>
      rw [found] at other
      simp only [Option.bind_some]
      rw [List.getElem?_set_ne fun same => other (by rw [same])]
  | _ => rfl

theorem setAt_cons {node c : Json} {i : Nat} (child : node.values[i]? = some c) (w : Json)
    (pos : List Nat) : node.setAt w (i :: pos) = node.setChild i (c.setAt w pos) := by
  simp only [setAt, child]

theorem at?_cons {node : Json} {i : Nat} {pos : List Nat} (there : (node.at? (i :: pos)).isSome) :
    ∃ c, node.values[i]? = some c ∧ (c.at? pos).isSome := by
  simp only [at?] at there
  cases child : node.values[i]? with
  | none => simp [child] at there
  | some c => exact ⟨c, rfl, by simpa [child] using there⟩

theorem getElem?_values_setChild {node c : Json} {i : Nat} (child : node.values[i]? = some c)
    (c' : Json) : (node.setChild i c').values[i]? = some c' := by
  rw [values_setChild, List.getElem?_set_self (List.getElem?_eq_some_iff.mp child).1]

/-! ## Paths that touch a position -/

/-- A path touches a position of a document: the two agree as long as both last. -/
def touches : List String → List Nat → Json → Bool
  | head :: rest, i :: pos, node =>
    (head == "*" || node.childIndex head == some i) && node.values[i]?.any (touches rest pos)
  | _, _, _ => true

theorem touches_cons {head : String} {rest : List String} {i : Nat} {pos : List Nat}
    {node c : Json} (child : node.values[i]? = some c) :
    touches (head :: rest) (i :: pos) node ↔
      (head = "*" ∨ node.childIndex head = some i) ∧ touches rest pos c := by
  simp [touches, child]

/-- What was put at a position stands there. -/
theorem at?_setAt {node : Json} (w : Json) {pos : List Nat} (there : (node.at? pos).isSome) :
    (node.setAt w pos).at? pos = some w := by
  induction pos generalizing node with
  | nil => rfl
  | cons i pos ih =>
    obtain ⟨c, child, below⟩ := at?_cons there
    rw [setAt_cons child, at?, getElem?_values_setChild child, Option.bind_some]
    exact ih below

/-- A replacement does not change which paths touch its position. -/
theorem touches_setAt {segs : List String} {pos : List Nat} {node : Json} (w : Json)
    (there : (node.at? pos).isSome) (touched : touches segs pos node) :
    touches segs pos (node.setAt w pos) := by
  induction pos generalizing segs node with
  | nil => cases segs <;> rfl
  | cons i pos ih =>
    cases segs with
    | nil => rfl
    | cons head rest =>
      obtain ⟨c, child, below⟩ := at?_cons there
      rw [touches_cons child] at touched
      rw [setAt_cons child, touches_cons (getElem?_values_setChild child _), childIndex_setChild]
      exact ⟨touched.1, ih below touched.2⟩

theorem modify_self {entries : List (String × Json)} {i : Nat} {c : Json}
    (child : (entries.map Prod.snd)[i]? = some c) :
    (entries.modify i fun entry => (entry.1, c)) = entries := by
  induction entries generalizing i with
  | nil => cases i <;> rfl
  | cons entry entries ih =>
    cases i with
    | zero =>
      obtain rfl : entry.2 = c := by simpa using child
      rfl
    | succ i => simpa using ih (by simpa using child)

theorem setChild_self {node c : Json} {i : Nat} (child : node.values[i]? = some c) :
    node.setChild i c = node := by
  cases node with
  | arr items =>
    obtain ⟨bound, rfl⟩ := List.getElem?_eq_some_iff.mp child
    exact congrArg arr (List.set_getElem_self bound)
  | obj entries => exact congrArg obj (modify_self child)
  | _ => rfl

/-- Putting back what stands at a position changes nothing. -/
theorem setAt_self {node old : Json} {pos : List Nat} (stands : node.at? pos = some old) :
    node.setAt old pos = node := by
  induction pos generalizing node with
  | nil => exact (Option.some.inj stands).symm
  | cons i pos ih =>
    obtain ⟨c, child, below⟩ := Option.bind_eq_some_iff.mp stands
    rw [setAt_cons child, ih below, setChild_self child]

/-- Replacing an element by one with the same image keeps the images. -/
theorem filterMap_set_of_eq {α β : Type} {f : α → Option β} {l : List α} {i : Nat} {a a' : α}
    (old : l[i]? = some a) (same : f a' = f a) : (l.set i a').filterMap f = l.filterMap f := by
  induction l generalizing i with
  | nil => rfl
  | cons b l ih =>
    cases i with
    | zero =>
      obtain rfl : b = a := by simpa using old
      simp [List.filterMap_cons, same]
    | succ i => simp [List.filterMap_cons, ih (by simpa using old)]

/-- A path that does not touch a position reads the same whatever stands there. -/
theorem getSegments_setAt_of_not_touches {segs : List String} {pos : List Nat} {node : Json}
    (w : Json) (there : (node.at? pos).isSome) (untouched : ¬ touches segs pos node) :
    getSegments segs (node.setAt w pos) = getSegments segs node := by
  induction segs generalizing pos node with
  | nil => exact absurd (by cases pos <;> rfl) untouched
  | cons head rest ih =>
    cases pos with
    | nil => exact absurd rfl untouched
    | cons i pos =>
      obtain ⟨c, child, below⟩ := at?_cons there
      rw [touches_cons child] at untouched
      rw [setAt_cons child]
      have object := isObject_of_child child
      simp only [getSegments, isObject_setChild, object, Bool.not_true, Bool.false_eq_true, if_false]
      by_cases wildcard : head = "*"
      · have inner : ¬ touches rest pos c := fun touched => untouched ⟨.inl wildcard, touched⟩
        rw [if_pos wildcard, if_pos wildcard, values_setChild,
          filterMap_set_of_eq child (ih below inner)]
      · rw [if_neg wildcard, if_neg wildcard]
        by_cases selected : node.childIndex head = some i
        · have inner : ¬ touches rest pos c := fun touched => untouched ⟨.inr selected, touched⟩
          have selected' : (node.setChild i (c.setAt w pos)).childIndex head = some i := by
            rw [childIndex_setChild, selected]
          rw [child_of_childIndex selected, child, child_of_childIndex selected',
            getElem?_values_setChild child]
          exact ih below inner
        · rw [child_setChild_of_ne _ selected]

/-- Replacements of which a path's remaining segments read the same leave the
path reading the same. -/
theorem getSegments_setAt_congr (segs : List String) {pos : List Nat} {node w w' : Json}
    (there : (node.at? pos).isSome)
    (same : getSegments (segs.drop pos.length) w = getSegments (segs.drop pos.length) w') :
    getSegments segs (node.setAt w pos) = getSegments segs (node.setAt w' pos) := by
  induction segs generalizing pos node with
  | nil =>
    rw [List.drop_nil] at same
    rw [Option.some.inj same]
  | cons head rest ih =>
    cases pos with
    | nil => exact same
    | cons i pos =>
      obtain ⟨c, child, below⟩ := at?_cons there
      have inner := ih below same
      have object := isObject_of_child child
      rw [setAt_cons child, setAt_cons child]
      simp only [getSegments, isObject_setChild, object, Bool.not_true, Bool.false_eq_true, if_false]
      by_cases wildcard : head = "*"
      · have bound := (List.getElem?_eq_some_iff.mp child).1
        have first := filterMap_set_of_eq (l := node.values.set i (c.setAt w pos))
          (List.getElem?_set_self bound) inner.symm
        rw [if_pos wildcard, if_pos wildcard, values_setChild, values_setChild, ← first, List.set_set]
      · rw [if_neg wildcard, if_neg wildcard]
        by_cases selected : node.childIndex head = some i
        · have selected' (c' : Json) : (node.setChild i c').childIndex head = some i := by
            rw [childIndex_setChild, selected]
          rw [child_of_childIndex (selected' _), getElem?_values_setChild child,
            child_of_childIndex (selected' _), getElem?_values_setChild child]
          exact inner
        · rw [child_setChild_of_ne _ selected, child_setChild_of_ne _ selected]

/-- A path that touches a position and reaches it without a wildcard reads, of
the replacement, what its remaining segments find there. -/
theorem getSegments_setAt_of_touches {segs : List String} {pos : List Nat} {node : Json}
    (w : Json) (there : (node.at? pos).isSome) (touched : touches segs pos node)
    (plain : "*" ∉ segs) (above : pos.length ≤ segs.length) :
    getSegments segs (node.setAt w pos) = getSegments (segs.drop pos.length) w := by
  induction pos generalizing segs node with
  | nil => rfl
  | cons i pos ih =>
    cases segs with
    | nil => simp at above
    | cons head rest =>
      obtain ⟨c, child, below⟩ := at?_cons there
      rw [touches_cons child] at touched
      have object := isObject_of_child child
      have named : head ≠ "*" := fun same => plain (same ▸ List.mem_cons_self)
      have selected : (node.setChild i (c.setAt w pos)).childIndex head = some i := by
        rw [childIndex_setChild]
        exact touched.1.resolve_left named
      rw [setAt_cons child]
      simp only [getSegments, isObject_setChild, object, Bool.not_true, Bool.false_eq_true, if_false,
        if_neg named, child_of_childIndex selected, getElem?_values_setChild child, Option.bind_some]
      exact ih below touched.2 (fun member => plain (List.mem_cons_of_mem head member))
        (by simpa using above)

/-- A path with a wildcard reads an array, if anything. -/
theorem getSegments_wildcard {segs : List String} {node value : Json} (wildcard : "*" ∈ segs)
    (read : getSegments segs node = some value) : ∃ items, value = .arr items := by
  induction segs generalizing node with
  | nil => simp at wildcard
  | cons head rest ih =>
    simp only [getSegments] at read
    split at read
    · cases read
    · split at read
      · exact ⟨_, (Option.some.inj read).symm⟩
      · rename_i named
        obtain ⟨c, -, read⟩ := Option.bind_eq_some_iff.mp read
        exact ih ((List.mem_cons.mp wildcard).resolve_left fun same => named same.symm) read

/-- A path that ends above a position it touches reads an array or object. -/
theorem isObject_of_touches {segs : List String} {pos : List Nat} {node value : Json}
    (there : (node.at? pos).isSome) (touched : touches segs pos node)
    (below : segs.length < pos.length) (read : getSegments segs node = some value) :
    value.isObject := by
  induction segs generalizing pos node with
  | nil =>
    cases pos with
    | nil => simp at below
    | cons i pos =>
      obtain ⟨c, child, -⟩ := at?_cons there
      exact Option.some.inj read ▸ isObject_of_child child
  | cons head rest ih =>
    by_cases wildcard : "*" ∈ head :: rest
    · obtain ⟨items, rfl⟩ := getSegments_wildcard wildcard read
      rfl
    · cases pos with
      | nil => simp at below
      | cons i pos =>
        obtain ⟨c, child, there⟩ := at?_cons there
        rw [touches_cons child] at touched
        have named : head ≠ "*" := fun same => wildcard (same ▸ List.mem_cons_self)
        simp only [getSegments, isObject_of_child child, Bool.not_true, Bool.false_eq_true, if_false,
          if_neg named, child_of_childIndex (touched.1.resolve_left named), child,
          Option.bind_some] at read
        exact ih there touched.2 (by simpa using below) read

/-- A path that has a wildcard or ends above a position it touches reads no scalar. -/
theorem isObject_of_wide {segs : List String} {pos : List Nat} {node value : Json}
    (there : (node.at? pos).isSome) (touched : touches segs pos node)
    (wide : "*" ∈ segs ∨ segs.length < pos.length) (read : getSegments segs node = some value) :
    value.isObject := by
  rcases wide with wildcard | below
  · obtain ⟨items, rfl⟩ := getSegments_wildcard wildcard read
    rfl
  · exact isObject_of_touches there touched below read

/-! ## Shapes -/

mutual

/-- A value with every string emptied, and what is inherited as `JSON.stringify`
shows it: what no text transform and no redaction can change. -/
def shape : Json → Json
  | str _ => str ""
  | arr items => arr (shapeItems items)
  | obj entries => obj (shapeEntries entries)
  | inherited (.function _) => null
  | inherited .objectPrototype => obj []
  | value => value

/-- The shapes of the elements of an array. -/
def shapeItems : List Json → List Json
  | [] => []
  | item :: items => shape item :: shapeItems items

/-- The shapes of the members of an object. -/
def shapeEntries : List (String × Json) → List (String × Json)
  | [] => []
  | (key, value) :: entries => (key, shape value) :: shapeEntries entries

end

theorem shapeItems_eq_map (items : List Json) : shapeItems items = items.map shape := by
  induction items with
  | nil => rfl
  | cons item items ih => rw [shapeItems, ih, List.map_cons]

mutual

/-- The hard denylist keeps the shape. -/
theorem shape_hardDenyDeep (value : Json) : (hardDenyDeep value).shape = value.shape := by
  cases value with
  | arr items => exact congrArg arr (shapeItems_hardDenyItems items)
  | obj entries => exact congrArg obj (shapeEntries_hardDenyEntries entries)
  | inherited member => cases member <;> rfl
  | _ => rfl

theorem shapeItems_hardDenyItems (items : List Json) :
    shapeItems (hardDenyItems items) = shapeItems items := by
  cases items with
  | nil => rfl
  | cons item items =>
    simp only [hardDenyItems, shapeItems, shape_hardDenyDeep item, shapeItems_hardDenyItems items]

theorem shapeEntries_hardDenyEntries (entries : List (String × Json)) :
    shapeEntries (hardDenyEntries entries) = shapeEntries entries := by
  cases entries with
  | nil => rfl
  | cons entry entries =>
    simp only [hardDenyEntries, shapeEntries, shape_hardDenyDeep entry.2,
      shapeEntries_hardDenyEntries entries]

end

theorem values_shape (node : Json) : node.shape.values = node.values.map shape := by
  cases node with
  | arr items => exact shapeItems_eq_map items
  | obj entries =>
    simp only [shape, values]
    induction entries with
    | nil => rfl
    | cons entry entries ih => simp only [shapeEntries, List.map_cons, ih]
  | inherited member => cases member <;> rfl
  | _ => rfl

theorem shape_of_isObject {value : Json} (object : value.isObject) : value.shape ≠ str "" := by
  cases value with
  | arr items | obj entries => exact nofun
  | inherited member =>
    cases member with
    | function name => cases object
    | objectPrototype => exact nofun
  | _ => cases object

/-- Children of different shape make values of different shape. -/
theorem shape_setChild_ne {node c c' : Json} {i : Nat} (bound : i < node.values.length)
    (differ : c.shape ≠ c'.shape) : (node.setChild i c).shape ≠ (node.setChild i c').shape := by
  intro same
  have children : (node.values.set i c).map shape = (node.values.set i c').map shape := by
    rw [← values_setChild, ← values_setChild, ← values_shape, ← values_shape, same]
  have child := congrArg (·[i]?) children
  simp only [List.getElem?_map, List.getElem?_set_self bound, Option.map_some] at child
  exact differ (Option.some.inj child)

/-- Replacements of different shape make documents of different shape. -/
theorem shape_setAt_ne {node w w' : Json} {pos : List Nat} (there : (node.at? pos).isSome)
    (differ : w.shape ≠ w'.shape) : (node.setAt w pos).shape ≠ (node.setAt w' pos).shape := by
  induction pos generalizing node with
  | nil => exact differ
  | cons i pos ih =>
    obtain ⟨c, child, there⟩ := at?_cons there
    rw [setAt_cons child, setAt_cons child]
    exact shape_setChild_ne (List.getElem?_eq_some_iff.mp child).1 (ih there)

/-- The images of a list differ when those of one replaced element do. -/
theorem map_filterMap_set_ne {α β γ : Type} {f : α → Option β} {g : β → γ} {l : List α}
    {i : Nat} {a a' : α} (bound : i < l.length) (differ : (f a).map g ≠ (f a').map g) :
    ((l.set i a).filterMap f).map g ≠ ((l.set i a').filterMap f).map g := by
  induction l generalizing i with
  | nil => simp at bound
  | cons b l ih =>
    cases i with
    | zero =>
      simp only [List.set_cons_zero, List.filterMap_cons]
      cases first : f a with
      | none =>
        cases second : f a' with
        | none => simp [first, second] at differ
        | some y => exact fun same => by simpa using congrArg List.length same
      | some x =>
        cases second : f a' with
        | none => exact fun same => by simpa using congrArg List.length same
        | some y =>
          simp only [first, second, Option.map_some, ne_eq, Option.some.injEq] at differ
          exact fun same => differ (List.cons.inj same).1
    | succ i =>
      have tails := ih (i := i) (by simpa using bound)
      simp only [List.set_cons_succ, List.filterMap_cons]
      cases f b with
      | none => exact tails
      | some x => exact fun same => tails (List.cons.inj same).2

/-- At a touched position two replacements whose remaining segments read
different shapes leave the path reading different shapes. -/
theorem shape_getSegments_setAt_ne {segs : List String} {pos : List Nat} {node w w' : Json}
    (there : (node.at? pos).isSome) (touched : touches segs pos node)
    (differ : (getSegments (segs.drop pos.length) w).map shape ≠
      (getSegments (segs.drop pos.length) w').map shape) :
    (getSegments segs (node.setAt w pos)).map shape ≠
      (getSegments segs (node.setAt w' pos)).map shape := by
  induction segs generalizing pos node with
  | nil =>
    simp only [List.drop_nil, getSegments, Option.map_some, ne_eq, Option.some.injEq] at differ ⊢
    exact shape_setAt_ne there differ
  | cons head rest ih =>
    cases pos with
    | nil => exact differ
    | cons i pos =>
      obtain ⟨c, child, below⟩ := at?_cons there
      rw [touches_cons child] at touched
      have inner := ih below touched.2 differ
      have object := isObject_of_child child
      rw [setAt_cons child, setAt_cons child]
      simp only [getSegments, isObject_setChild, object, Bool.not_true, Bool.false_eq_true, if_false]
      by_cases wildcard : head = "*"
      · rw [if_pos wildcard, if_pos wildcard, values_setChild, values_setChild]
        have lists := map_filterMap_set_ne (List.getElem?_eq_some_iff.mp child).1 inner
        simpa only [Option.map_some, shape, shapeItems_eq_map, ne_eq, Option.some.injEq,
          arr.injEq] using lists
      · have selected (c' : Json) : (node.setChild i c').childIndex head = some i := by
          rw [childIndex_setChild]
          exact touched.1.resolve_left wildcard
        rw [if_neg wildcard, if_neg wildcard, child_of_childIndex (selected _),
          child_of_childIndex (selected _), getElem?_values_setChild child,
          getElem?_values_setChild child]
        exact inner

/-- A value that a path reads `w` of. -/
def plant (w : Json) : List String → Json
  | [] => w
  | head :: rest => if head = "*" then arr [plant w rest] else obj [(head, plant w rest)]

/-- Planting values of different shape leaves the path reading different shapes. -/
theorem shape_getSegments_plant_ne {segs : List String} {w w' : Json}
    (differ : w.shape ≠ w'.shape) :
    (getSegments segs (plant w segs)).map shape ≠ (getSegments segs (plant w' segs)).map shape := by
  induction segs with
  | nil => simpa only [getSegments, plant, Option.map_some, ne_eq, Option.some.injEq] using differ
  | cons head rest ih =>
    by_cases wildcard : head = "*"
    · have lists := map_filterMap_set_ne (l := [null]) (i := 0) Nat.zero_lt_one ih
      simpa only [plant, if_pos wildcard, getSegments, isObject, Bool.not_true, Bool.false_eq_true,
        if_false, values, Option.map_some, shape, shapeItems_eq_map, ne_eq, Option.some.injEq,
        arr.injEq, List.set_cons_zero] using lists
    · simpa only [plant, if_neg wildcard, getSegments, isObject, Bool.not_true, Bool.false_eq_true,
        if_false, child, List.lookup_cons, beq_self_eq_true, Option.some_or, Option.bind_some]
        using ih

/-- Without a wildcard a path reads what was planted. -/
theorem getSegments_plant {segs : List String} (w : Json) (plain : "*" ∉ segs) :
    getSegments segs (plant w segs) = some w := by
  induction segs with
  | nil => rfl
  | cons head rest ih =>
    have named : head ≠ "*" := fun same => plain (same ▸ List.mem_cons_self)
    simp only [plant, if_neg named, getSegments, isObject, Bool.not_true, Bool.false_eq_true,
      if_false, child, List.lookup_cons, beq_self_eq_true, Option.some_or, Option.bind_some]
    exact ih fun member => plain (List.mem_cons_of_mem head member)

/-! ## Members and leaves -/

/-- The name of the object member at a position. -/
def memberName (node : Json) : List Nat → Option String
  | [] => none
  | [i] =>
    match node with
    | obj entries => entries[i]?.map Prod.fst
    | _ => none
  | i :: pos => node.values[i]?.bind fun c => c.memberName pos

theorem at?_of_memberName {node : Json} {pos : List Nat} {name : String}
    (named : node.memberName pos = some name) : (node.at? pos).isSome := by
  induction pos generalizing node with
  | nil => cases named
  | cons i pos ih =>
    cases pos with
    | nil =>
      cases node with
      | obj entries =>
        obtain ⟨entry, found, -⟩ := Option.map_eq_some_iff.mp named
        simp [at?, values, found]
      | _ => cases named
    | cons j pos =>
      obtain ⟨c, child, below⟩ := Option.bind_eq_some_iff.mp named
      simpa only [at?, child, Option.bind_some] using ih below

/-- A value `leafPaths` counts as a leaf of a document. -/
def isLeaf : Json → Bool
  | null | bool _ | num _ | str _ | arr [] | obj [] => true
  | _ => false

theorem values_of_isLeaf {value : Json} (leaf : value.isLeaf) : value.values = [] := by
  cases value with
  | arr items =>
    cases items with
    | nil => rfl
    | cons item items => cases leaf
  | obj entries =>
    cases entries with
    | nil => rfl
    | cons entry entries => cases leaf
  | _ => rfl

/-- Segments that read nothing of an empty object read nothing of any value
without children. -/
theorem getSegments_of_no_values {segs : List String} {value : Json} (below : segs ≠ [])
    (childless : value.values = []) (empty : getSegments segs (obj []) = none) :
    getSegments segs value = none := by
  cases segs with
  | nil => exact absurd rfl below
  | cons head rest =>
    by_cases wildcard : head = "*"
    · simp [getSegments, wildcard, isObject, values] at empty
    · simp only [getSegments, isObject, Bool.not_true, Bool.false_eq_true, if_false, if_neg wildcard,
        child, List.lookup_nil, Option.none_or] at empty
      cases value with
      | arr items =>
        obtain rfl : items = [] := childless
        simp only [getSegments, isObject, Bool.not_true, Bool.false_eq_true, if_false,
          if_neg wildcard, child]
        cases arrayIndex head <;> rfl
      | obj entries =>
        obtain rfl : entries = [] := List.map_eq_nil_iff.mp childless
        simpa only [getSegments, isObject, Bool.not_true, Bool.false_eq_true, if_false,
          if_neg wildcard, child, List.lookup_nil, Option.none_or] using empty
      | inherited member =>
        cases member with
        | function name => rfl
        | objectPrototype =>
          simp only [getSegments, isObject, Bool.not_true, Bool.false_eq_true, if_false,
            if_neg wildcard, child]
          by_cases proto : head = "__proto__"
          · rw [if_pos proto, Option.bind_some]
            cases rest with
            | nil => simp [proto, prototypeMember, getSegments] at empty
            | cons next rest => rfl
          · rw [if_neg proto]
            exact empty
      | _ => rfl

theorem prototypeMember_inherited {head : String} {c : Json}
    (found : prototypeMember head = some c) : ∃ member, c = inherited member := by
  unfold prototypeMember at found
  split at found
  · exact ⟨_, (Option.some.inj found).symm⟩
  · split at found
    · exact ⟨_, (Option.some.inj found).symm⟩
    · cases found

/-- A member read on a value without children finds something inherited, or `null`. -/
theorem child_of_no_values {value c : Json} {head : String} (childless : value.values = [])
    (found : value.child head = some c) : c = null ∨ ∃ member, c = inherited member := by
  cases value with
  | arr items =>
    obtain rfl : items = [] := childless
    obtain ⟨i, -, element⟩ := Option.bind_eq_some_iff.mp found
    cases element
  | obj entries =>
    obtain rfl : entries = [] := List.map_eq_nil_iff.mp childless
    exact .inr (prototypeMember_inherited found)
  | inherited member =>
    cases member with
    | function name => cases found
    | objectPrototype =>
      simp only [child] at found
      split at found
      · exact .inl (Option.some.inj found).symm
      · exact .inr (prototypeMember_inherited found)
  | _ => cases found

/-- Segments below a value without children read no string of it. -/
theorem shape_of_no_values {segs : List String} {value read : Json} (below : segs ≠ [])
    (childless : value.values = []) (found : getSegments segs value = some read) :
    read.shape ≠ str "" := by
  induction segs generalizing value with
  | nil => exact absurd rfl below
  | cons head rest ih =>
    simp only [getSegments, childless, List.filterMap_nil] at found
    split at found
    · cases found
    · split at found
      · rw [← Option.some.inj found]
        exact nofun
      · obtain ⟨c, selected, found⟩ := Option.bind_eq_some_iff.mp found
        have inner := child_of_no_values childless selected
        cases rest with
        | nil =>
          obtain rfl : c = read := Option.some.inj found
          rcases inner with rfl | ⟨member, rfl⟩
          · exact nofun
          · cases member <;> exact nofun
        | cons next rest =>
          refine ih nofun ?_ found
          rcases inner with rfl | ⟨member, rfl⟩ <;> rfl

mutual

/-- The leaves `leafPaths` lists, each with its position. -/
def leafPositions : Json → String → List (List Nat × String)
  | arr (item :: items), pre => itemPositions 0 (item :: items) pre
  | obj (entry :: entries), pre => entryPositions 0 (entry :: entries) pre
  | _, pre => (leafPath pre).map fun path => ([], path)

/-- The leaves under the elements of an array, from index `i` on. -/
def itemPositions : Nat → List Json → String → List (List Nat × String)
  | _, [], _ => []
  | i, item :: items, pre =>
    ((leafPositions item (extendPath pre (toString i))).map fun leaf => (i :: leaf.1, leaf.2)) ++
      itemPositions (i + 1) items pre

/-- The leaves under the members of an object, from the `i`-th on. -/
def entryPositions : Nat → List (String × Json) → String → List (List Nat × String)
  | _, [], _ => []
  | i, (key, value) :: entries, pre =>
    ((leafPositions value (extendPath pre key)).map fun leaf => (i :: leaf.1, leaf.2)) ++
      entryPositions (i + 1) entries pre

end

mutual

/-- The paths of the positions are the leaf paths. -/
theorem map_snd_leafPositions (doc : Json) (pre : String) :
    (doc.leafPositions pre).map Prod.snd = leafPaths doc pre := by
  cases doc with
  | arr items =>
    cases items with
    | nil => simp [leafPositions, leafPaths, Function.comp_def]
    | cons item items => exact map_snd_itemPositions 0 (item :: items) pre
  | obj entries =>
    cases entries with
    | nil => simp [leafPositions, leafPaths, Function.comp_def]
    | cons entry entries => exact map_snd_entryPositions 0 (entry :: entries) pre
  | _ => simp [leafPositions, leafPaths, Function.comp_def]

theorem map_snd_itemPositions (i : Nat) (items : List Json) (pre : String) :
    (itemPositions i items pre).map Prod.snd = leafPathsItems i items pre := by
  cases items with
  | nil => rfl
  | cons item items =>
    simp only [itemPositions, leafPathsItems, List.map_append, List.map_map, Function.comp_def,
      map_snd_leafPositions item, map_snd_itemPositions (i + 1) items]

theorem map_snd_entryPositions (i : Nat) (entries : List (String × Json)) (pre : String) :
    (entryPositions i entries pre).map Prod.snd = leafPathsEntries entries pre := by
  cases entries with
  | nil => rfl
  | cons entry entries =>
    simp only [entryPositions, leafPathsEntries, List.map_append, List.map_map, Function.comp_def,
      map_snd_leafPositions entry.2, map_snd_entryPositions (i + 1) entries]

end

mutual

/-- A value without children stands where a leaf's position says. -/
theorem at?_of_mem_leafPositions (doc : Json) (pre : String) {leaf : List Nat × String}
    (member : leaf ∈ doc.leafPositions pre) :
    ∃ old, doc.at? leaf.1 = some old ∧ old.values = [] := by
  cases doc with
  | arr items =>
    cases items with
    | nil =>
      obtain ⟨path, -, rfl⟩ := List.mem_map.mp member
      exact ⟨_, rfl, rfl⟩
    | cons item items =>
      obtain ⟨j, pos, c, located, child, there⟩ := child_of_mem_itemPositions 0 _ pre member
      rw [located, Nat.zero_add]
      simpa only [at?, values, child, Option.bind_some] using there
  | obj entries =>
    cases entries with
    | nil =>
      obtain ⟨path, -, rfl⟩ := List.mem_map.mp member
      exact ⟨_, rfl, rfl⟩
    | cons entry entries =>
      obtain ⟨j, pos, c, located, child, there⟩ := child_of_mem_entryPositions 0 _ pre member
      rw [located, Nat.zero_add]
      simpa only [at?, values, child, Option.bind_some] using there
  | _ =>
    obtain ⟨path, -, rfl⟩ := List.mem_map.mp member
    exact ⟨_, rfl, rfl⟩

theorem child_of_mem_itemPositions (i : Nat) (items : List Json) (pre : String)
    {leaf : List Nat × String} (member : leaf ∈ itemPositions i items pre) :
    ∃ j pos c, leaf.1 = (i + j) :: pos ∧ items[j]? = some c ∧
      ∃ old, c.at? pos = some old ∧ old.values = [] := by
  cases items with
  | nil => cases member
  | cons item items =>
    rcases List.mem_append.mp member with here | later
    · obtain ⟨inner, listed, rfl⟩ := List.mem_map.mp here
      exact ⟨0, inner.1, item, rfl, rfl, at?_of_mem_leafPositions item _ listed⟩
    · obtain ⟨j, pos, c, located, child, there⟩ := child_of_mem_itemPositions (i + 1) items pre later
      exact ⟨j + 1, pos, c, by rw [located, Nat.add_right_comm, Nat.add_assoc], child, there⟩

theorem child_of_mem_entryPositions (i : Nat) (entries : List (String × Json)) (pre : String)
    {leaf : List Nat × String} (member : leaf ∈ entryPositions i entries pre) :
    ∃ j pos c, leaf.1 = (i + j) :: pos ∧ (entries.map Prod.snd)[j]? = some c ∧
      ∃ old, c.at? pos = some old ∧ old.values = [] := by
  cases entries with
  | nil => cases member
  | cons entry entries =>
    rcases List.mem_append.mp member with here | later
    · obtain ⟨inner, listed, rfl⟩ := List.mem_map.mp here
      exact ⟨0, inner.1, entry.2, rfl, rfl, at?_of_mem_leafPositions entry.2 _ listed⟩
    · obtain ⟨j, pos, c, located, child, there⟩ :=
        child_of_mem_entryPositions (i + 1) entries pre later
      exact ⟨j + 1, pos, c, by rw [located, Nat.add_right_comm, Nat.add_assoc], child, there⟩

end

end Json

end EndCloseRelay
