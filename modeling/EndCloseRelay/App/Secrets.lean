import EndCloseRelay.Js.Json
import Mathlib.Logic.Function.Basic

/-!
# The secrets file

`loadSecretsFile` fills the variables of the environment that are unset or empty
from a file of lines `KEY=VALUE`.  The first value that is not empty wins, the
environment's own first of all; a value between quotes is read as it stands.
The environment is an object: a name that every object has a member of is not
unset, and no line fills it.
-/

namespace EndCloseRelay.App

open Js

/-! ## Reading the file -/

/-- The variables of `process.env`. -/
abbrev Environment := String → Option String

/-- `env[key]` is `undefined` or `''`. -/
def Environment.lacks (env : Environment) (key : String) : Bool :=
  match env key with
  | some value => value == ""
  | none => (Json.prototypeMember key).isNone

/-- `SecretsFileResult`. -/
structure SecretsFileResult where
  loaded : List String
  error : Option String := none
deriving DecidableEq

/-- The text starts and ends with the quote, and these are two characters. -/
def isQuoted (quote : Char) (value : List Char) : Bool :=
  value.head? == some quote && value.getLast? == some quote && decide (2 ≤ value.length)

/-- A value without the quotes around it. -/
def unquote (value : List Char) : List Char :=
  if isQuoted '"' value || isQuoted '\'' value then (value.drop 1).dropLast else value

/-- The key and the value of a line, if it has them. -/
def readLine (raw : String) : Option (String × String) :=
  let line := (trim raw).toList
  if line.isEmpty || line.head? == some '#' then none
  else
    let key := line.takeWhile (· != '=')
    match line.dropWhile (· != '=') with
    | [] => none
    | _ :: value =>
      if key.isEmpty then none
      else some (trim (String.ofList key), String.ofList (unquote (trim (String.ofList value)).toList))

/-- Fill a variable that is unset or empty. -/
def fill (filled : List String × Environment) (line : String × String) : List String × Environment :=
  if filled.2.lacks line.1 then (filled.1 ++ [line.1], Function.update filled.2 line.1 (some line.2))
  else filled

/-- The lines of a file that have a key and a value. -/
def readLines (text : String) : List (String × String) := (split text '\n').filterMap readLine

/-- `loadSecretsFile(env)`; `readFile` gives the text of a file, or the message
of what it throws. -/
def loadSecretsFile (readFile : String → Except String String) (env : Environment) :
    SecretsFileResult × Environment :=
  match (env "RELAY_SECRETS_FILE").filter (· ≠ "") with
  | none => ({ loaded := [] }, env)
  | some path =>
    match readFile path with
    | .error message =>
      ({ loaded := []
         error := some ("RELAY_SECRETS_FILE is set but unreadable: " ++ path ++ " (" ++ message ++ ")") }, env)
    | .ok text =>
      let (loaded, env) := (readLines text).foldl fill ([], env)
      ({ loaded }, env)

/-! ## What is filled -/

/-- The first text that is not empty, else the first at all. -/
def firstFilled (values : List String) : Option String := (values.find? (· ≠ "")).or values.head?

/-- The values of a key, in the order of the lines. -/
def valuesOf (key : String) (lines : List (String × String)) : List String :=
  (lines.filter fun line => line.1 == key).map Prod.snd

theorem firstFilled_toList (value : Option String) : firstFilled value.toList = value := by
  cases value with
  | none => rfl
  | some text =>
    unfold firstFilled
    by_cases filled : text = ""
    · simp [filled]
    · simp [filled]

theorem firstFilled_cons {text : String} (filled : text ≠ "") (values : List String) :
    firstFilled (text :: values) = some text := by
  unfold firstFilled
  rw [List.find?_cons_of_pos (by simpa using filled)]
  rfl

theorem firstFilled_empty (text : String) (values : List String) :
    firstFilled ("" :: text :: values) = firstFilled (text :: values) := by
  by_cases filled : text = ""
  · subst filled
    rfl
  · rw [firstFilled_cons filled]
    unfold firstFilled
    simp [filled]

theorem fill_other (filled : List String × Environment) {line : String × String} {key : String}
    (other : key ≠ line.1) : (fill filled line).2 key = filled.2 key := by
  unfold fill
  split
  · exact Function.update_of_ne other _ _
  · rfl

/-- A key that is unset and inherited. -/
def Environment.inherits (env : Environment) (key : String) : Prop :=
  env key = none ∧ (Json.prototypeMember key).isSome

theorem lacks_of_inherits {env : Environment} {key : String} (inherits : env.inherits key) :
    env.lacks key = false := by
  unfold Environment.lacks
  rw [inherits.1]
  exact Option.isNone_eq_false_iff.mpr inherits.2

theorem lacks_iff {env : Environment} {key : String} (own : ¬ env.inherits key) :
    env.lacks key ↔ (env key).getD "" = "" := by
  unfold Environment.lacks
  cases found : env key with
  | none =>
    refine iff_of_true ?_ rfl
    rw [Option.isNone_iff_eq_none, ← Option.not_isSome_iff_eq_none]
    exact fun member => own ⟨found, member⟩
  | some value => exact beq_iff_eq

/-- No line fills an inherited name. -/
theorem inherits_fill {filled : List String × Environment} {key : String}
    (inherits : filled.2.inherits key) (line : String × String) : (fill filled line).2.inherits key := by
  by_cases same : key = line.1
  · subst same
    unfold fill
    rw [lacks_of_inherits inherits]
    exact inherits
  · exact ⟨(fill_other filled same).trans inherits.1, inherits.2⟩

/-- Nor does a line make a name inherited. -/
theorem own_fill {filled : List String × Environment} {key : String} (own : ¬ filled.2.inherits key)
    (line : String × String) : ¬ (fill filled line).2.inherits key := by
  rintro ⟨unset, member⟩
  by_cases same : key = line.1
  · subst same
    unfold fill at unset
    split at unset
    · simp only [Function.update_self] at unset
      cases unset
    · exact own ⟨unset, member⟩
  · exact own ⟨(fill_other filled same).symm.trans unset, member⟩

/-- A line changes the first text that is not empty as a value behind the others does. -/
theorem firstFilled_fill {filled : List String × Environment} {key : String}
    (own : ¬ filled.2.inherits key) (line : String × String) (values : List String) :
    firstFilled (((fill filled line).2 key).toList ++ values) =
      firstFilled ((filled.2 key).toList ++ (valuesOf key [line] ++ values)) := by
  by_cases same : line.1 = key
  · have here : valuesOf key [line] = [line.2] := by simp [valuesOf, same]
    subst same
    rw [here]
    unfold fill
    split
    · rename_i lacks
      rw [lacks_iff own] at lacks
      simp only [Function.update_self]
      cases before : filled.2 line.1 with
      | none => rfl
      | some text =>
        rw [before] at lacks
        obtain rfl : text = "" := lacks
        exact (firstFilled_empty _ _).symm
    · rename_i present
      rw [lacks_iff own] at present
      cases before : filled.2 line.1 with
      | none =>
        rw [before] at present
        exact absurd rfl present
      | some text =>
        rw [before] at present
        exact (firstFilled_cons present _).trans (firstFilled_cons present _).symm
  · have elsewhere : valuesOf key [line] = [] := by simp [valuesOf, same]
    rw [elsewhere, fill_other filled (Ne.symm same), List.nil_append]

/-- What a key has in the end: the first value that is not empty. -/
theorem foldl_fill_env (lines : List (String × String)) {filled : List String × Environment}
    {key : String} (own : ¬ filled.2.inherits key) : (lines.foldl fill filled).2 key =
      firstFilled ((filled.2 key).toList ++ valuesOf key lines) := by
  induction lines generalizing filled with
  | nil =>
    rw [show valuesOf key [] = [] from rfl, List.append_nil, firstFilled_toList]
    rfl
  | cons line lines ih =>
    have split : valuesOf key (line :: lines) = valuesOf key [line] ++ valuesOf key lines := by
      unfold valuesOf
      rw [← List.map_append, ← List.filter_append]
      rfl
    rw [List.foldl_cons, ih (own_fill own line), split, firstFilled_fill own]

/-- What an inherited name has in the end: nothing of its own. -/
theorem foldl_fill_inherits (lines : List (String × String)) {filled : List String × Environment}
    {key : String} (inherits : filled.2.inherits key) :
    (lines.foldl fill filled).2.inherits key ∧
      (key ∈ (lines.foldl fill filled).1 ↔ key ∈ filled.1) := by
  induction lines generalizing filled with
  | nil => exact ⟨inherits, Iff.rfl⟩
  | cons line lines ih =>
    obtain ⟨still, loaded⟩ := ih (inherits_fill inherits line)
    refine ⟨still, loaded.trans ?_⟩
    unfold fill
    split
    · rename_i lacks
      rw [List.mem_append, List.mem_singleton, or_iff_left_iff_imp]
      rintro rfl
      rw [lacks_of_inherits inherits] at lacks
      cases lacks
    · rfl

/-- What is loaded: the keys of lines that were unset or empty. -/
theorem mem_foldl_fill (lines : List (String × String)) {filled : List String × Environment}
    {key : String} (own : ¬ filled.2.inherits key) : key ∈ (lines.foldl fill filled).1 ↔
      key ∈ filled.1 ∨ (filled.2 key).getD "" = "" ∧ key ∈ lines.map Prod.fst := by
  induction lines generalizing filled with
  | nil => simp
  | cons line lines ih =>
    rw [List.foldl_cons, ih (own_fill own line), List.map_cons, List.mem_cons]
    by_cases same : key = line.1
    · subst same
      unfold fill
      split
      · rename_i lacks
        rw [lacks_iff own] at lacks
        simp [lacks]
      · rename_i present
        rw [lacks_iff own] at present
        simp [present]
    · have loaded : key ∈ (fill filled line).1 ↔ key ∈ filled.1 := by
        unfold fill
        split
        · rw [List.mem_append, List.mem_singleton, or_iff_left same]
        · rfl
      rw [loaded, fill_other filled same, or_iff_right same]

/-- The lines of the file the environment names, if there is one and it can be read. -/
def secretsLines (readFile : String → Except String String) (env : Environment) : List (String × String) :=
  match (env "RELAY_SECRETS_FILE").filter (· ≠ "") with
  | none => []
  | some path =>
    match readFile path with
    | .error _ => []
    | .ok text => readLines text

/-- What a file of some lines makes of an environment, and which keys are loaded. -/
structure FilledBy (env : Environment) (lines : List (String × String)) (loaded : List String)
    (env' : Environment) : Prop where
  own : ∀ key, ¬ env.inherits key → env' key = firstFilled ((env key).toList ++ valuesOf key lines)
  inherited : ∀ key, env.inherits key → env' key = none
  loads : ∀ key, key ∈ loaded ↔
    ¬ env.inherits key ∧ (env key).getD "" = "" ∧ key ∈ lines.map Prod.fst

theorem filledBy_nil (env : Environment) : FilledBy env [] [] env where
  own key _ := by
    rw [show valuesOf key [] = [] from rfl, List.append_nil, firstFilled_toList]
  inherited _ inherits := inherits.1
  loads key := by simp

theorem filledBy_foldl (env : Environment) (lines : List (String × String)) :
    FilledBy env lines (lines.foldl fill ([], env)).1 (lines.foldl fill ([], env)).2 where
  own key own := @foldl_fill_env lines ([], env) key own
  inherited key inherits := (@foldl_fill_inherits lines ([], env) key inherits).1.1
  loads key := by
    by_cases inherits : env.inherits key
    · refine iff_of_false (fun listed => ?_) fun other => other.1 inherits
      exact absurd ((@foldl_fill_inherits lines ([], env) key inherits).2.mp listed) List.not_mem_nil
    · rw [@mem_foldl_fill lines ([], env) key inherits, or_iff_right List.not_mem_nil,
        and_iff_right inherits]

/-- Whatever is in the file, a variable has the first value that is not empty, of
the environment and then of the lines, but for a name every object inherits, which
stays unset; the keys that are reported are those of lines that were unset or empty,
and only a file that cannot be read is an error. -/
theorem secrets_filled (readFile : String → Except String String) (env : Environment) :
    FilledBy env (secretsLines readFile env) (loadSecretsFile readFile env).1.loaded
      (loadSecretsFile readFile env).2 ∧
    ((loadSecretsFile readFile env).1.error.isSome ↔
      ∃ path message, env "RELAY_SECRETS_FILE" = some path ∧ path ≠ "" ∧ readFile path = .error message) := by
  unfold loadSecretsFile secretsLines
  cases named : (env "RELAY_SECRETS_FILE").filter (· ≠ "") with
  | none =>
    refine ⟨filledBy_nil env, fun failed => (by cases failed), ?_⟩
    rintro ⟨path, message, set, filled, -⟩
    rw [set, Option.filter_some, if_pos (by simpa using filled)] at named
    cases named
  | some path =>
    obtain ⟨set, filled⟩ := Option.filter_eq_some_iff.mp named
    have only : ∀ path', env "RELAY_SECRETS_FILE" = some path' → path' = path := fun path' set' =>
      Option.some.inj (set'.symm.trans set)
    dsimp only
    cases read : readFile path with
    | error message =>
      refine ⟨filledBy_nil env, fun _ => ?_, fun _ => rfl⟩
      exact ⟨path, message, set, of_decide_eq_true filled, read⟩
    | ok text =>
      refine ⟨filledBy_foldl env _, fun failed => (by cases failed), ?_⟩
      rintro ⟨path', message, set', -, fails⟩
      rw [only path' set', read] at fails
      cases fails

/-! ## Writing a file -/

/-- A line with its value between quotes. -/
def writeLine (line : String × String) : List Char := line.1.toList ++ '=' :: '"' :: (line.2.toList ++ ['"'])

/-- A file of such lines. -/
def writeLines (lines : List (String × String)) : String :=
  String.ofList (lines.flatMap fun line => writeLine line ++ ['\n'])

/-- A line that can be written: its key has no white space at its ends, and no
character that a line or a key ends at. -/
structure Writable (line : String × String) : Prop where
  starts : ∃ c ∈ line.1.toList.head?, isSpace c = false ∧ c ≠ '#'
  ends : ∀ c ∈ line.1.toList.getLast?, isSpace c = false
  key : ∀ c ∈ line.1.toList, c ≠ '=' ∧ c ≠ '\n'
  value : '\n' ∉ line.2.toList

theorem Writable.of_checks {key value : String}
    (starts : (key.toList.head?.any fun c => !isSpace c && c != '#') = true)
    (ends : (key.toList.getLast?.all fun c => !isSpace c) = true)
    (text : (key.toList.all fun c => c != '=' && c != '\n') = true)
    (line : (value.toList.all fun c => c != '\n') = true) : Writable (key, value) where
  starts := by
    obtain ⟨c, first, fine⟩ := Option.any_eq_true _ _ |>.mp starts
    rw [Bool.and_eq_true, Bool.not_eq_true', bne_iff_ne] at fine
    exact ⟨c, first, fine⟩
  ends := fun c last => by
    have fine := Option.all_eq_true _ _ |>.mp ends c last
    rwa [Bool.not_eq_true'] at fine
  key := fun c member => by
    have fine := List.all_eq_true.mp text c member
    rwa [Bool.and_eq_true, bne_iff_ne, bne_iff_ne] at fine
  value := fun member => by
    have fine := List.all_eq_true.mp line _ member
    exact absurd rfl (bne_iff_ne.mp fine)

theorem unquote_quoted (value : List Char) : unquote ('"' :: (value ++ ['"'])) = value := by
  have last : ('"' :: (value ++ ['"'])).getLast? = some '"' := by
    rw [← List.cons_append]
    exact List.getLast?_concat
  have quoted : isQuoted '"' ('"' :: (value ++ ['"'])) = true := by
    simp [isQuoted, last]
  unfold unquote
  rw [quoted, Bool.true_or, if_pos rfl, List.drop_succ_cons, List.drop_zero, List.dropLast_concat]

/-- A line that was written is read. -/
theorem readLine_writeLine {line : String × String} (writable : Writable line) :
    readLine (String.ofList (writeLine line)) = some line := by
  obtain ⟨key, value⟩ := line
  obtain ⟨c, first, plain, notHash⟩ := writable.starts
  obtain ⟨rest, shape⟩ : ∃ rest, key.toList = c :: rest := by
    cases chars : key.toList with
    | nil =>
      rw [chars] at first
      cases first
    | cons d rest =>
      rw [chars] at first
      exact ⟨rest, by rw [show d = c from Option.some.inj first]⟩
  have whole : writeLine (key, value) = c :: (rest ++ '=' :: '"' :: (value.toList ++ ['"'])) := by
    rw [writeLine, shape]
    rfl
  have trimmed : trim (String.ofList (writeLine (key, value))) = String.ofList (writeLine (key, value)) := by
    refine trim_eq_self ?_ ?_
    · rw [whole]
      intro d same
      rw [← Option.some.inj same]
      exact plain
    · intro d last
      have quote : (writeLine (key, value)).getLast? = some '"' := by
        rw [writeLine, ← List.cons_append, ← List.cons_append, ← List.append_assoc]
        exact List.getLast?_concat
      rw [quote] at last
      rw [← Option.some.inj last]
      decide
  have before : ∀ d ∈ key.toList, (d != '=') = true := fun d member => by
    simpa using (writable.key d member).1
  have keyPart : (writeLine (key, value)).takeWhile (· != '=') = key.toList := by
    rw [writeLine, List.takeWhile_append_of_pos before]
    simp
  have valuePart : (writeLine (key, value)).dropWhile (· != '=') =
      '=' :: '"' :: (value.toList ++ ['"']) := by
    rw [writeLine, List.dropWhile_append_of_pos before]
    simp
  have keyTrimmed : trim (String.ofList key.toList) = String.ofList key.toList := by
    refine trim_eq_self ?_ writable.ends
    rw [shape]
    intro d same
    rw [← Option.some.inj same]
    exact plain
  have valueTrimmed : trim (String.ofList ('"' :: (value.toList ++ ['"']))) =
      String.ofList ('"' :: (value.toList ++ ['"'])) := by
    refine trim_eq_self ?_ ?_
    · intro d same
      rw [← Option.some.inj same]
      decide
    · intro d last
      rw [← List.cons_append, List.getLast?_concat] at last
      rw [← Option.some.inj last]
      decide
  have kept : ((writeLine (key, value)).isEmpty || (writeLine (key, value)).head? == some '#') = false := by
    rw [whole, List.isEmpty_cons, Bool.false_or, List.head?_cons, beq_eq_false_iff_ne]
    exact fun same => notHash (Option.some.inj same)
  have named : key.toList.isEmpty = false := by
    rw [shape]
    rfl
  unfold readLine
  simp only [trimmed, String.toList_ofList, kept, keyPart, valuePart, named, keyTrimmed, valueTrimmed,
    unquote_quoted]
  simp

/-- A file of lines with their values between quotes is read as these lines,
whatever the values, but for a line break in one. -/
theorem secrets_round_trip {lines : List (String × String)} (writable : ∀ line ∈ lines, Writable line) :
    readLines (writeLines lines) = lines := by
  have text : ∀ line ∈ lines, '\n' ∉ writeLine line := by
    intro line member
    have fine := writable line member
    have key : '\n' ∉ line.1.toList := fun there => (fine.key _ there).2 rfl
    rw [writeLine]
    simp [key, fine.value]
  unfold readLines writeLines split
  rw [String.toList_ofList]
  induction lines with
  | nil => decide
  | cons line lines ih =>
    rw [List.forall_mem_cons] at writable text
    rw [List.flatMap_cons, List.append_assoc, List.singleton_append, List.splitOn_append_cons_self,
      List.splitOn_eq_singleton text.1, List.map_append, List.filterMap_append, ih writable.2 text.2]
    rw [List.map_singleton, List.filterMap_cons, readLine_writeLine writable.1]
    rfl

theorem secrets_round_trip_sample :
    readLines (writeLines [("ADMIN_BASIC_AUTH", " admin:#=\"'"), ("MASKING_HMAC_KEY", "")]) =
      [("ADMIN_BASIC_AUTH", " admin:#=\"'"), ("MASKING_HMAC_KEY", "")] := by
  refine secrets_round_trip fun line member => ?_
  rcases List.mem_cons.mp member with rfl | member
  · exact Writable.of_checks (by decide) (by decide) (by decide) (by decide)
  · rw [List.mem_singleton.mp member]
    exact Writable.of_checks (by decide) (by decide) (by decide) (by decide)

end EndCloseRelay.App
