import EndCloseRelay.Js.Json

/-!
# Dot paths into JSON documents

`getAtPath` and `leafPaths` of `mask/paths.ts`.  A `*` segment fans out over
every array element or object value, and the result is the array of matches.
-/

namespace EndCloseRelay

open Js

/-- `getSegments(node, segments)`; `none` is `undefined`. -/
def getSegments : List String → Json → Option Json
  | [], node => some node
  | head :: rest, node =>
    if !node.isObject then none
    else if head = "*" then
      some (.arr (node.values.filterMap fun c => getSegments rest c))
    else (node.child head).bind fun c => getSegments rest c

/-- `path.split('.')`. -/
def pathSegments (path : String) : List String := split path '.'

/-- `getAtPath(doc, path)`. -/
def getAtPath (doc : Json) (path : String) : Option Json :=
  getSegments (pathSegments path) doc

/-- `prefix ? prefix + '.' + key : key`: an empty prefix is falsy. -/
def extendPath (pre key : String) : String :=
  if pre = "" then key else pre ++ "." ++ key

/-- `prefix ? [prefix] : []`. -/
def leafPath (pre : String) : List String := if pre = "" then [] else [pre]

mutual

/-- `leafPaths(doc, prefix)`: every leaf path of a document.  An empty array
or object is a leaf. -/
def leafPaths : Json → String → List String
  | .arr (item :: items), pre => leafPathsItems 0 (item :: items) pre
  | .obj (entry :: entries), pre => leafPathsEntries (entry :: entries) pre
  | _, pre => leafPath pre

/-- The leaf paths under the elements of an array, from index `i` on. -/
def leafPathsItems : Nat → List Json → String → List String
  | _, [], _ => []
  | i, item :: items, pre =>
    leafPaths item (extendPath pre (toString i)) ++ leafPathsItems (i + 1) items pre

/-- The leaf paths under the members of an object. -/
def leafPathsEntries : List (String × Json) → String → List String
  | [], _ => []
  | (key, value) :: entries, pre =>
    leafPaths value (extendPath pre key) ++ leafPathsEntries entries pre

end

example : getAtPath (.obj [("a", .arr [.obj [("id", .str "x")], .null])]) "a.*.id"
    = some (.arr [.str "x"]) := rfl

example : leafPaths (.obj [("a", .arr [.null, .obj []]), ("", .str "x")]) "" = ["a.0", "a.1"] := by
  decide

end EndCloseRelay
