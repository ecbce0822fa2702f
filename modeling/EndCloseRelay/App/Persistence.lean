import EndCloseRelay.Js.Text
import Mathlib.Algebra.GroupWithZero.Nat
import Mathlib.Data.List.Induction
import Mathlib.Data.List.Infix

/-!
# Where the data directory lies

`parseMountPersistence` reads the table of mounts of the process and goes by the
mount the data directory lies on: the ephemeral layer of a container is an
overlay, a volume is not.  `persistence_decided` is about the tables the kernel
writes: whatever bytes their paths have, the mount that decides is the deepest of
those that hold the directory.
-/

namespace EndCloseRelay.App

open Js

/-! ## Reading a table of mounts -/

/-- The text before the first ` - ` of a line, and that behind it. -/
def cutSeparator : List Char → Option (List Char × List Char)
  | [] => none
  | c :: rest =>
    if [' ', '-', ' '].isPrefixOf (c :: rest) then some ([], rest.drop 2)
    else (cutSeparator rest).map fun (head, tail) => (c :: head, tail)

/-- `parseInt(digits, 8)`, `NaN` being the code 0 for `String.fromCharCode`. -/
def parseOctal (digits : List Char) : Nat :=
  (digits.takeWhile fun c => '0' ≤ c && c ≤ '7').foldl (fun value c => value * 8 + (c.toNat - 48)) 0

/-- `decodeMountPath(p)`. -/
def decodeMountPath : List Char → List Char
  | '\\' :: a :: b :: c :: rest =>
    if isDigit a && isDigit b && isDigit c then Char.ofNat (parseOctal [a, b, c]) :: decodeMountPath rest
    else '\\' :: decodeMountPath (a :: b :: c :: rest)
  | c :: rest => c :: decodeMountPath rest
  | [] => []

/-- What is kept of a line. -/
structure Mount where
  mountPoint : List Char
  fstype : List Char
deriving DecidableEq

/-- The mount of a line, if it has one. -/
def readMount (line : List Char) : Option Mount := do
  let (head, tail) ← cutSeparator line
  let mountPoint := ((head.splitOn ' ')[4]?).getD []
  let fstype := ((tail.splitOn ' ').head?).getD []
  if mountPoint.isEmpty || fstype.isEmpty then none
  else some { mountPoint := decodeMountPath mountPoint, fstype }

/-- The directory is the mount point or lies below it. -/
def Mount.holds (dir : List Char) (mount : Mount) : Bool :=
  dir == mount.mountPoint ||
    (if mount.mountPoint.getLast? == some '/' then mount.mountPoint else mount.mountPoint ++ ['/']).isPrefixOf dir

/-- `p.length`, in code units. -/
def pathLength (p : List Char) : Nat := (p.map fun c => if c.toNat < 65536 then 1 else 2).sum

/-- A mount takes the place of the best so far if its mount point is longer. -/
def better (best : Option Mount) (mount : Mount) : Option Mount :=
  match best with
  | none => some mount
  | some found => if pathLength found.mountPoint < pathLength mount.mountPoint then some mount else some found

/-- `parseMountPersistence(mountinfo, dir)`. -/
def parseMountPersistence (mountinfo dir : List Char) : Option Bool :=
  let mounts := (mountinfo.splitOn '\n').filterMap readMount
  ((mounts.filter (Mount.holds dir)).foldl better none).map fun best => best.fstype != "overlay".toList

/-! ## Paths -/

/-- A path, by the names on it. -/
abbrev Path := List (List Char)

/-- Names are not empty and have no slash. -/
def Path.Proper (path : Path) : Prop := ∀ name ∈ path, name ≠ [] ∧ '/' ∉ name

/-- The text of the names of a path, each behind its slash. -/
def Path.below (path : Path) : List Char := path.flatMap fun name => '/' :: name

/-- The text of an absolute path. -/
def Path.text (path : Path) : List Char := if path = [] then ['/'] else path.below

section

variable {α : Type} {path path' dir : Path}

theorem append_cons_inj {mark : α} {item item' rest rest' : List α} (clean : mark ∉ item)
    (clean' : mark ∉ item') (same : item ++ mark :: rest = item' ++ mark :: rest') :
    item = item' ∧ rest = rest' := by
  induction item generalizing item' with
  | nil =>
    cases item' with
    | nil => exact ⟨rfl, (List.cons.inj same).2⟩
    | cons c item' => exact absurd (List.mem_cons.mpr (.inl (List.cons.inj same).1)) clean'
  | cons c item ih =>
    rw [List.mem_cons, not_or] at clean
    cases item' with
    | nil => exact absurd (List.cons.inj same).1.symm clean.1
    | cons c' item' =>
      rw [List.mem_cons, not_or] at clean'
      obtain ⟨rfl, others⟩ := List.cons.inj same
      obtain ⟨rfl, rfl⟩ := ih clean.2 clean'.2 others
      exact ⟨rfl, rfl⟩

/-- Texts that each end in a mark they do not have are read off one after the other. -/
theorem flatMap_concat_prefix_iff {mark : α} {items items' : List (List α)} (clean : ∀ item ∈ items, mark ∉ item)
    (clean' : ∀ item ∈ items', mark ∉ item) :
    items.flatMap (· ++ [mark]) <+: items'.flatMap (· ++ [mark]) ↔ items <+: items' := by
  induction items generalizing items' with
  | nil => simp
  | cons item items ih =>
    obtain ⟨own, rest⟩ := List.forall_mem_cons.mp clean
    cases items' with
    | nil => simp
    | cons item' items' =>
      obtain ⟨own', rest'⟩ := List.forall_mem_cons.mp clean'
      rw [List.cons_prefix_cons, ← ih rest rest']
      simp only [List.flatMap_cons, List.append_assoc, List.singleton_append]
      constructor
      · rintro ⟨more, same⟩
        rw [List.append_assoc, List.cons_append] at same
        obtain ⟨first, others⟩ := append_cons_inj own own' same
        exact ⟨first, more, others⟩
      · rintro ⟨rfl, more, others⟩
        exact ⟨more, by rw [← others, List.append_assoc, List.cons_append]⟩

theorem below_concat (path : Path) : path.below ++ ['/'] = '/' :: path.flatMap (· ++ ['/']) := by
  induction path with
  | nil => rfl
  | cons name path ih =>
    show '/' :: (name ++ Path.below path) ++ ['/'] = _
    rw [List.cons_append, List.append_assoc, ih, List.flatMap_cons, List.append_assoc]
    rfl

theorem text_of_ne_nil (named : path ≠ []) : path.text = path.below := if_neg named

/-- A path does not end in a slash, unless it is the root. -/
theorem getLast?_below (proper : path.Proper) (named : path ≠ []) : path.below.getLast? ≠ some '/' := by
  obtain ⟨front, name, rfl⟩ := List.eq_nil_or_concat path |>.resolve_left named
  obtain ⟨filled, clean⟩ := proper name (by simp)
  rw [Path.below, List.concat_eq_append, List.flatMap_append, List.flatMap_singleton,
    List.getLast?_append_of_ne_nil _ (by simp)]
  intro slash
  obtain ⟨letters, last, rfl⟩ := List.eq_nil_or_concat name |>.resolve_left filled
  rw [List.concat_eq_append, ← List.cons_append, List.getLast?_append_of_ne_nil _ (by simp)] at slash
  obtain rfl : last = '/' := Option.some.inj slash
  exact clean (by simp)

/-- A mount holds the directories whose path starts with its own. -/
theorem holds_iff (proper : path.Proper) (proper' : dir.Proper) (fstype : List Char) :
    Mount.holds dir.text { mountPoint := path.text, fstype } = true ↔ path <+: dir := by
  have slashed : ∀ dir : Path, ∃ rest, dir.text = '/' :: rest := by
    intro dir
    unfold Path.text
    split
    · exact ⟨[], rfl⟩
    · cases dir with
      | nil => contradiction
      | cons name dir => exact ⟨_, rfl⟩
  by_cases root : path = []
  · subst root
    obtain ⟨rest, starts⟩ := slashed dir
    refine iff_of_true ?_ List.nil_prefix
    rw [Mount.holds, starts]
    simp [Path.text]
  · have open_ : (path.below.getLast? == some '/') = false := by
      simpa using getLast?_below proper root
    have named : path.below ≠ [] := by
      cases path with
      | nil => contradiction
      | cons name path => exact List.cons_ne_nil _ _
    rw [Mount.holds, text_of_ne_nil root, open_, Bool.or_eq_true, beq_iff_eq, if_neg Bool.false_ne_true,
      List.isPrefixOf_iff_prefix]
    by_cases top : dir = []
    · subst top
      refine iff_of_false ?_ fun held => root (List.prefix_nil.mp held)
      have short : 1 < path.below.length := by
        cases path with
        | nil => contradiction
        | cons name path =>
          have filled := List.length_pos_iff.mpr (proper name List.mem_cons_self).1
          rw [Path.below, List.flatMap_cons, List.length_append, List.length_cons]
          omega
      have single : (Path.text []).length = 1 := rfl
      rintro (same | held)
      · have lengths : _ = path.below.length := congrArg List.length same
        omega
      · have bound := held.length_le
        rw [List.length_append, single] at bound
        dsimp only at bound
        omega
    · have clean : ∀ {path : Path}, path.Proper → ∀ name ∈ path, '/' ∉ name := fun proper name member =>
        (proper name member).2
      rw [text_of_ne_nil top, ← flatMap_concat_prefix_iff (clean proper) (clean proper')]
      have closed : path.flatMap (· ++ ['/']) <+: dir.flatMap (· ++ ['/']) ↔
          path.below ++ ['/'] <+: dir.below ++ ['/'] := by
        rw [below_concat, below_concat, List.cons_prefix_cons, and_iff_right rfl]
      rw [closed, List.prefix_concat_iff, List.append_left_inj]
      exact or_congr_left eq_comm

/-- Of two paths that a directory starts with, the one with more names is the longer text. -/
theorem pathLength_lt_iff (proper : path.Proper) (proper' : path'.Proper) (start : path <+: dir)
    (start' : path' <+: dir) : pathLength path.text < pathLength path'.text ↔ path.length < path'.length := by
  have units : ∀ p q : List Char, pathLength (p ++ q) = pathLength p + pathLength q := by
    intro p q
    unfold pathLength
    rw [List.map_append, List.sum_append]
  have some_unit : ∀ (c : Char) (p : List Char), 1 ≤ pathLength (c :: p) := by
    intro c p
    unfold pathLength
    rw [List.map_cons, List.sum_cons]
    split <;> omega
  have below_pos : ∀ {path : Path}, path.Proper → path ≠ [] → 2 ≤ pathLength path.below := by
    intro path proper named
    cases path with
    | nil => contradiction
    | cons name path =>
      obtain ⟨c, letters, rfl⟩ := List.exists_cons_of_ne_nil (proper name List.mem_cons_self).1
      have first := some_unit '/' []
      have second := some_unit c (letters ++ Path.below path)
      show 2 ≤ pathLength (['/'] ++ (c :: (letters ++ Path.below path)))
      rw [units]
      omega
  have longer : ∀ {p q : Path}, p.Proper → q.Proper → p <+: q → p.length < q.length →
      pathLength p.text < pathLength q.text := by
    rintro p q proper proper' ⟨more, rfl⟩ fewer
    have extra : more ≠ [] := by
      rintro rfl
      simp at fewer
    have rest := below_pos (fun name member => proper' name (List.mem_append_right _ member)) extra
    have named : p ++ more ≠ [] := fun same => extra (List.append_eq_nil_iff.mp same).2
    rw [text_of_ne_nil named, Path.below, List.flatMap_append, units]
    by_cases root : p = []
    · subst root
      have single : pathLength (Path.text []) = 1 := by decide
      unfold Path.below at rest
      omega
    · rw [text_of_ne_nil root]
      unfold Path.below at rest ⊢
      omega
  have same : path.length = path'.length → path = path' := fun lengths =>
    (List.prefix_of_prefix_length_le start start' lengths.le).eq_of_length lengths
  rcases Nat.lt_trichotomy path.length path'.length with fewer | equal | more
  · refine iff_of_true ?_ fewer
    exact longer proper proper' (List.prefix_of_prefix_length_le start start' fewer.le) fewer
  · rw [same equal]
    exact iff_of_false (Nat.lt_irrefl _) (Nat.lt_irrefl _)
  · refine iff_of_false ?_ (by omega)
    have shorter := longer proper' proper (List.prefix_of_prefix_length_le start' start more.le) more
    omega

end

/-! ## The table the kernel writes -/

/-- The kernel's text of a path: what would end a field or an escape is octal. -/
def escapeMountPath (p : List Char) : List Char :=
  p.flatMap fun c =>
    if c = ' ' then "\\040".toList else if c = '\t' then "\\011".toList
    else if c = '\n' then "\\012".toList else if c = '\\' then "\\134".toList else [c]

/-- A mount, as the kernel lists it. -/
structure MountEntry where
  id : List Char
  parent : List Char
  device : List Char
  root : List Char
  path : Path
  /-- The options, and the tags behind them. -/
  options : List (List Char)
  fstype : List Char
  /-- The source and its options. -/
  source : List (List Char)

/-- A field: it has no blank. -/
structure Word (word : List Char) : Prop where
  blank : ' ' ∉ word
  line : '\n' ∉ word

/-- A field before the separator, which it is not. -/
structure HeadWord (word : List Char) : Prop extends Word word where
  hyphen : word ≠ ['-']

/-- The fields of an entry can be told apart. -/
structure MountEntry.WellFormed (entry : MountEntry) : Prop where
  head : ∀ word ∈ [entry.id, entry.parent, entry.device, entry.root] ++ entry.options, HeadWord word
  path : entry.path.Proper
  fstype : Word entry.fstype ∧ entry.fstype ≠ []
  source : ∀ word ∈ entry.source, Word word

/-- The fields before the separator. -/
def MountEntry.fields (entry : MountEntry) : List (List Char) :=
  [entry.id, entry.parent, entry.device, entry.root, escapeMountPath entry.path.text] ++ entry.options

/-- The line of an entry. -/
def MountEntry.line (entry : MountEntry) : List Char :=
  [' '].intercalate entry.fields ++ [' ', '-', ' '] ++ [' '].intercalate (entry.fstype :: entry.source)

/-- The table of mounts. -/
def mountTable (entries : List MountEntry) : List Char := entries.flatMap fun entry => entry.line ++ ['\n']

theorem decode_escape (p : List Char) : decodeMountPath (escapeMountPath p) = p := by
  induction p with
  | nil => rfl
  | cons c p ih =>
    show decodeMountPath ((if c = ' ' then _ else _) ++ escapeMountPath p) = c :: p
    by_cases blank : c = ' '
    · subst blank
      show Char.ofNat (parseOctal ['0', '4', '0']) :: decodeMountPath (escapeMountPath p) = _
      rw [ih]
      rfl
    by_cases tab : c = '\t'
    · subst tab
      show Char.ofNat (parseOctal ['0', '1', '1']) :: decodeMountPath (escapeMountPath p) = _
      rw [ih]
      rfl
    by_cases line : c = '\n'
    · subst line
      show Char.ofNat (parseOctal ['0', '1', '2']) :: decodeMountPath (escapeMountPath p) = _
      rw [ih]
      rfl
    by_cases slash : c = '\\'
    · subst slash
      show Char.ofNat (parseOctal ['1', '3', '4']) :: decodeMountPath (escapeMountPath p) = _
      rw [ih]
      rfl
    · rw [if_neg blank, if_neg tab, if_neg line, if_neg slash, List.singleton_append, decodeMountPath, ih]
      intro a b d rest same
      exact absurd same slash

/-- What ends a field or a line is not in an escaped path. -/
theorem not_mem_escape {c : Char} (ends : c = ' ' ∨ c = '\n') (p : List Char) : c ∉ escapeMountPath p := by
  unfold escapeMountPath
  rw [List.mem_flatMap]
  rintro ⟨letter, -, member⟩
  have octal : ∀ digits : List Char, ' ' ∉ digits ∧ '\n' ∉ digits → c ∉ digits := by
    rintro digits ⟨blank, line⟩
    rcases ends with rfl | rfl
    · exact blank
    · exact line
  split at member
  · exact octal _ (by decide) member
  split at member
  · exact octal _ (by decide) member
  split at member
  · exact octal _ (by decide) member
  split at member
  · exact octal _ (by decide) member
  · obtain rfl := List.mem_singleton.mp member
    rcases ends with rfl | rfl <;> contradiction

theorem escape_text (path : Path) : ∃ rest, escapeMountPath path.text = '/' :: rest := by
  cases path with
  | nil => exact ⟨[], rfl⟩
  | cons name path => exact ⟨escapeMountPath (name ++ Path.below path), rfl⟩

theorem word_escape (path : Path) : HeadWord (escapeMountPath path.text) where
  blank := not_mem_escape (.inl rfl) _
  line := not_mem_escape (.inr rfl) _
  hyphen := by
    obtain ⟨rest, starts⟩ := escape_text path
    rw [starts]
    intro same
    exact absurd (List.cons.inj same).1 (by decide)

theorem MountEntry.WellFormed.fields {entry : MountEntry} (formed : entry.WellFormed) :
    ∀ word ∈ entry.fields, HeadWord word := by
  intro word member
  rw [MountEntry.fields, List.mem_append] at member
  simp only [List.mem_cons, List.not_mem_nil, or_false] at member
  rcases member with (rfl | rfl | rfl | rfl | rfl) | option
  · exact formed.head _ (by simp)
  · exact formed.head _ (by simp)
  · exact formed.head _ (by simp)
  · exact formed.head _ (by simp)
  · exact word_escape entry.path
  · exact formed.head word (List.mem_append_right _ option)

/-! ## Reading it back -/

theorem cutSeparator_append {word rest : List Char} (blank : ' ' ∉ word) :
    cutSeparator (word ++ rest) = (cutSeparator rest).map fun (head, tail) => (word ++ head, tail) := by
  induction word with
  | nil => simp
  | cons c word ih =>
    rw [List.mem_cons, not_or] at blank
    have other : [' ', '-', ' '].isPrefixOf (c :: (word ++ rest)) = false := by
      rw [List.isPrefixOf, beq_false_of_ne blank.1, Bool.false_and]
    rw [List.cons_append, cutSeparator, other, if_neg Bool.false_ne_true, ih blank.2, Option.map_map]
    rfl

/-- The blank in front of a word is not the separator's. -/
theorem cutSeparator_blank {word rest : List Char} (isWord : HeadWord word) :
    cutSeparator (' ' :: (word ++ ' ' :: rest)) =
      (cutSeparator (word ++ ' ' :: rest)).map fun (head, tail) => (' ' :: head, tail) := by
  have inside : ¬ [' ', '-', ' '].isPrefixOf (' ' :: (word ++ ' ' :: rest)) = true := by
    rw [List.isPrefixOf_iff_prefix, List.cons_prefix_cons]
    rintro ⟨-, starts⟩
    cases word with
    | nil => exact absurd (List.cons_prefix_cons.mp starts).1 (by decide)
    | cons c word =>
      obtain ⟨rfl, more⟩ := List.cons_prefix_cons.mp starts
      cases word with
      | nil => exact isWord.hyphen rfl
      | cons c word =>
        obtain ⟨rfl, -⟩ := List.cons_prefix_cons.mp more
        exact isWord.blank (by simp)
  rw [cutSeparator, if_neg inside]

/-- A line is cut behind its words. -/
theorem cutSeparator_words {word : List Char} {words : List (List Char)} {tail : List Char}
    (isWords : ∀ each ∈ word :: words, HeadWord each) :
    cutSeparator ([' '].intercalate (word :: words) ++ ' ' :: '-' :: ' ' :: tail) =
      some ([' '].intercalate (word :: words), tail) := by
  induction words generalizing word with
  | nil =>
    have own := isWords word List.mem_cons_self
    rw [List.intercalate_singleton, cutSeparator_append own.blank]
    simp [cutSeparator]
  | cons next words ih =>
    obtain ⟨own, rest⟩ := List.forall_mem_cons.mp isWords
    have following := (List.forall_mem_cons.mp rest).1
    have opened : ∃ more, [' '].intercalate (next :: words) ++ ' ' :: '-' :: ' ' :: tail = next ++ ' ' :: more := by
      cases words with
      | nil => exact ⟨'-' :: ' ' :: tail, by rw [List.intercalate_singleton]⟩
      | cons third words =>
        refine ⟨[' '].intercalate (third :: words) ++ ' ' :: '-' :: ' ' :: tail, ?_⟩
        rw [List.intercalate_cons_cons]
        simp
    obtain ⟨more, opens⟩ := opened
    rw [List.intercalate_cons_cons, List.append_assoc, List.append_assoc, cutSeparator_append own.blank,
      List.singleton_append, opens, cutSeparator_blank following, ← opens, ih rest]
    simp

/-- The mount an entry tells of. -/
def MountEntry.mount (entry : MountEntry) : Mount := { mountPoint := entry.path.text, fstype := entry.fstype }

/-- The line of an entry is read back, whatever its path. -/
theorem readMount_line {entry : MountEntry} (formed : entry.WellFormed) :
    readMount entry.line = some entry.mount := by
  have cut : cutSeparator entry.line =
      some ([' '].intercalate entry.fields, [' '].intercalate (entry.fstype :: entry.source)) := by
    rw [MountEntry.line, List.append_assoc]
    exact cutSeparator_words formed.fields
  have head : ([' '].intercalate entry.fields).splitOn ' ' = entry.fields :=
    List.splitOn_intercalate ' ' (fun word member => (formed.fields word member).blank) (List.cons_ne_nil _ _)
  have rest : ([' '].intercalate (entry.fstype :: entry.source)).splitOn ' ' = entry.fstype :: entry.source := by
    refine List.splitOn_intercalate ' ' ?_ (List.cons_ne_nil _ _)
    rw [List.forall_mem_cons]
    exact ⟨formed.fstype.1.blank, fun word member => (formed.source word member).blank⟩
  have fifth : (entry.fields[4]?).getD [] = escapeMountPath entry.path.text := rfl
  obtain ⟨letters, starts⟩ := escape_text entry.path
  have filled : ((escapeMountPath entry.path.text).isEmpty || entry.fstype.isEmpty) = false := by
    rw [starts, List.isEmpty_eq_false_iff.mpr formed.fstype.2]
    rfl
  rw [readMount, cut]
  show (if ((((([' '].intercalate entry.fields).splitOn ' ')[4]?).getD []).isEmpty ||
    ((([' '].intercalate (entry.fstype :: entry.source)).splitOn ' ').head?.getD []).isEmpty) = true
    then none else some (Mount.mk _ _)) = _
  rw [head, rest, fifth, List.head?_cons, Option.getD_some, filled, if_neg Bool.false_ne_true, decode_escape]
  rfl

/-- No line of the table has a line break of its own. -/
theorem line_clean {entry : MountEntry} (formed : entry.WellFormed) : '\n' ∉ entry.line := by
  have joined : ∀ words : List (List Char), (∀ word ∈ words, '\n' ∉ word) → '\n' ∉ [' '].intercalate words := by
    intro words clean
    induction words with
    | nil => exact List.not_mem_nil
    | cons word words ih =>
      obtain ⟨own, rest⟩ := List.forall_mem_cons.mp clean
      cases words with
      | nil => simpa using own
      | cons next words =>
        rw [List.intercalate_cons_cons]
        simp [own, ih rest]
  have last : ∀ word ∈ entry.fstype :: entry.source, '\n' ∉ word := by
    rw [List.forall_mem_cons]
    exact ⟨formed.fstype.1.line, fun word member => (formed.source word member).line⟩
  rw [MountEntry.line, List.mem_append, List.mem_append, not_or, not_or]
  exact ⟨⟨joined _ fun word member => (formed.fields word member).line, by decide⟩, joined _ last⟩

/-- The whole table is read back. -/
theorem readMount_table {entries : List MountEntry} (formed : ∀ entry ∈ entries, entry.WellFormed) :
    ((mountTable entries).splitOn '\n').filterMap readMount = entries.map MountEntry.mount := by
  induction entries with
  | nil => decide
  | cons entry entries ih =>
    obtain ⟨own, rest⟩ := List.forall_mem_cons.mp formed
    have lines : mountTable (entry :: entries) = entry.line ++ '\n' :: mountTable entries := by
      rw [mountTable, List.flatMap_cons, List.append_assoc, List.singleton_append]
      rfl
    rw [lines, List.splitOn_append_cons_self_of_not_mem (line_clean own), List.filterMap_cons, readMount_line own,
      ih rest, List.map_cons]

/-! ## The mount that decides -/

/-- The best of some mounts is the first of the longest. -/
theorem foldl_better (mounts : List Mount) :
    match mounts.foldl better none with
    | none => mounts = []
    | some best =>
      ∃ before after, mounts = before ++ best :: after ∧
        (∀ mount ∈ before, pathLength mount.mountPoint < pathLength best.mountPoint) ∧
        ∀ mount ∈ after, pathLength mount.mountPoint ≤ pathLength best.mountPoint := by
  induction mounts using List.reverseRecOn with
  | nil => rfl
  | append_singleton mounts last ih =>
    rw [List.foldl_append]
    generalize mounts.foldl better none = best at ih
    cases best with
    | none =>
      obtain rfl := ih
      exact ⟨[], [], rfl, by simp, by simp⟩
    | some best =>
      obtain ⟨before, after, rfl, shorter, most⟩ := ih
      show match (if _ then some last else some best) with | none => _ | some best => _
      by_cases longer : pathLength best.mountPoint < pathLength last.mountPoint
      · rw [if_pos longer]
        refine ⟨before ++ best :: after, [], rfl, ?_, by simp⟩
        intro mount member
        rcases List.mem_append.mp member with early | late
        · exact (shorter mount early).trans longer
        rcases List.mem_cons.mp late with rfl | late
        · exact longer
        · exact (most mount late).trans_lt longer
      · rw [if_neg longer]
        refine ⟨before, after ++ [last], by simp, shorter, ?_⟩
        intro mount member
        rcases List.mem_append.mp member with early | only
        · exact most mount early
        · rw [List.mem_singleton.mp only]
          exact Nat.le_of_not_lt longer

/-- What an answer says of the mounts: the deepest of those that hold the directory
decides, the first of them where several lie one on the other. -/
def Decides (entries : List MountEntry) (dir : Path) : Option Bool → Prop
  | none => ∀ entry ∈ entries, ¬ entry.path <+: dir
  | some persistent =>
    ∃ before entry after, entries = before ++ entry :: after ∧ entry.path <+: dir ∧
      (∀ other ∈ before, other.path <+: dir → other.path.length < entry.path.length) ∧
      (∀ other ∈ after, other.path <+: dir → other.path.length ≤ entry.path.length) ∧
      persistent = (entry.fstype != "overlay".toList)

/-- For the tables the kernel writes, whatever characters their paths have, the mount
the answer goes by is the one the directory lies on. -/
theorem persistence_decided {entries : List MountEntry} {dir : Path}
    (formed : ∀ entry ∈ entries, entry.WellFormed) (proper : dir.Proper) :
    Decides entries dir (parseMountPersistence (mountTable entries) dir.text) := by
  have holds : ∀ entry ∈ entries, Mount.holds dir.text entry.mount = true ↔ entry.path <+: dir :=
    fun entry member => holds_iff (formed entry member).path proper entry.fstype
  have decided : parseMountPersistence (mountTable entries) dir.text =
      (((entries.map MountEntry.mount).filter (Mount.holds dir.text)).foldl better none).map
        fun best => best.fstype != "overlay".toList := by
    rw [← readMount_table formed]
    rfl
  rw [decided]
  have first := foldl_better ((entries.map MountEntry.mount).filter (Mount.holds dir.text))
  generalize ((entries.map MountEntry.mount).filter (Mount.holds dir.text)).foldl better none = best at first
  cases best with
  | none =>
    rw [List.filter_map] at first
    intro entry member holding
    have kept : entry ∈ entries.filter (Mount.holds dir.text ∘ MountEntry.mount) :=
      List.mem_filter.mpr ⟨member, (holds entry member).mpr holding⟩
    rw [List.map_eq_nil_iff.mp first] at kept
    exact List.not_mem_nil kept
  | some best =>
    obtain ⟨earlier, later, split, shorter, most⟩ := first
    obtain ⟨early, late, whole, keptEarly, keptLate⟩ := List.filter_eq_append_iff.mp split
    obtain ⟨skipped, behind, rfl, dropped, keeps, keptBehind⟩ := List.filter_eq_cons_iff.mp keptLate
    obtain ⟨before, rest, rfl, rfl, mappedRest⟩ := List.map_eq_append_iff.mp whole
    obtain ⟨passed, found, rfl, rfl, mappedFound⟩ := List.map_eq_append_iff.mp mappedRest
    obtain ⟨entry, after, rfl, rfl, rfl⟩ := List.map_eq_cons_iff.mp mappedFound
    have known : ∀ {other : MountEntry}, other ∈ before ++ (passed ++ entry :: after) → other.WellFormed :=
      fun member => formed _ member
    have own : entry.WellFormed := known (by simp)
    have holding : entry.path <+: dir := (holds entry (by simp)).mp keeps
    refine ⟨before ++ passed, entry, after, by simp, holding, ?_, ?_, rfl⟩
    · intro other member held
      have there : other ∈ before ++ (passed ++ entry :: after) := by
        rw [← List.append_assoc]
        exact List.mem_append_left _ member
      rcases List.mem_append.mp member with front | skip
      · have listed : other.mount ∈ earlier := by
          rw [← keptEarly]
          exact List.mem_filter.mpr ⟨List.mem_map_of_mem front, (holds other there).mpr held⟩
        exact (pathLength_lt_iff (known there).path own.path held holding).mp (shorter _ listed)
      · exact absurd ((holds other there).mpr held) (dropped _ (List.mem_map_of_mem skip))
    · intro other member held
      have there : other ∈ before ++ (passed ++ entry :: after) := by simp [member]
      have listed : other.mount ∈ later := by
        rw [← keptBehind]
        exact List.mem_filter.mpr ⟨List.mem_map_of_mem member, (holds other there).mpr held⟩
      have bound := most _ listed
      refine Nat.le_of_not_lt fun deeper => ?_
      have longer := (pathLength_lt_iff own.path (known there).path holding held).mpr deeper
      exact absurd bound (Nat.not_le_of_lt longer)

/-- A volume of a source named `-` below the ephemeral layer, at a path with a blank. -/
theorem persistence_decided_sample :
    let words := fun texts : List String => texts.map String.toList
    let layer : MountEntry :=
      { id := "29".toList, parent := "1".toList, device := "0:42".toList, root := "/".toList, path := [],
        options := words ["rw"], fstype := "overlay".toList, source := words ["overlay", "rw"] }
    let volume : MountEntry :=
      { layer with
        path := [['r', 'e', 'l', 'a', 'y', ' ', 'd', 'a', 't', 'a']], options := words ["rw", "shared:7"],
        fstype := "ext4".toList, source := words ["-", "rw"] }
    parseMountPersistence (mountTable [layer, volume]) (Path.text (volume.path ++ [['d', 'b']])) = some true := by
  intro words layer volume
  have heads : ∀ texts : List (List Char),
      texts.all (fun word => !word.contains ' ' && !word.contains '\n' && word != ['-']) →
        ∀ word ∈ texts, HeadWord word := by
    intro texts fine word member
    have own := List.all_eq_true.mp fine word member
    simp only [Bool.and_eq_true, Bool.not_eq_true', bne_iff_ne, List.contains_eq_mem, decide_eq_false_iff_not] at own
    exact { blank := own.1.1, line := own.1.2, hyphen := own.2 }
  have tails : ∀ texts : List (List Char),
      texts.all (fun word => !word.contains ' ' && !word.contains '\n') → ∀ word ∈ texts, Word word := by
    intro texts fine word member
    have own := List.all_eq_true.mp fine word member
    simp only [Bool.and_eq_true, Bool.not_eq_true', List.contains_eq_mem, decide_eq_false_iff_not] at own
    exact ⟨own.1, own.2⟩
  have proper : (volume.path ++ [['d', 'b']]).Proper := by
    unfold Path.Proper
    decide
  have formed : ∀ entry ∈ [layer, volume], entry.WellFormed := by
    rw [List.forall_mem_cons, List.forall_mem_singleton]
    constructor
    · exact ⟨heads _ (by decide), List.forall_mem_nil _,
        ⟨tails [layer.fstype] (by decide) _ List.mem_cons_self, by decide⟩, tails _ (by decide)⟩
    · exact ⟨heads _ (by decide), fun name member => proper name (List.mem_append_left _ member),
        ⟨tails [volume.fstype] (by decide) _ List.mem_cons_self, by decide⟩, tails _ (by decide)⟩
  have decided := persistence_decided formed proper
  have inside : volume.path <+: volume.path ++ [['d', 'b']] := List.prefix_append _ _
  revert decided
  generalize parseMountPersistence (mountTable [layer, volume]) (Path.text (volume.path ++ [['d', 'b']])) = answer
  intro decided
  cases answer with
  | none => exact absurd inside (decided volume (by simp))
  | some persistent =>
    obtain ⟨before, entry, after, whole, -, -, deepest, rfl⟩ := decided
    match before, whole with
    | [], whole =>
      obtain ⟨rfl, rfl⟩ := List.cons.inj whole
      exact absurd (deepest volume (by simp) inside) (by decide)
    | [first], whole =>
      obtain ⟨rfl, -⟩ := List.cons.inj (List.cons.inj whole).2
      rfl
    | first :: second :: before, whole =>
      exact absurd (congrArg List.length whole) (by simp)

end EndCloseRelay.App
