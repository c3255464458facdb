/-!
# Paths

A path is a text, in which slashes divide names. Empty names and single points lead nowhere, and a
slash at the front stands for the root. Paths are cut and joined by their names alone: two points
are a name like any other, though a file system may follow them upwards.
-/

namespace SearchIndex.Command.Path

/-- The names in a path. -/
def names (path : String) : List String := (path.toList.splitOn '/').map String.ofList

/-- The path of names. -/
def ofNames (ns : List String) : String := "/".intercalate ns

/-- A name that leads nowhere. -/
def isIdle (name : String) : Bool := name == "" || name == "."

/-- The path begins at the root. -/
def isAbsolute (path : String) : Bool := path.toList.head? == some '/'

/-- The path of a further path behind a directory. -/
def join (directory path : String) : String :=
  if isAbsolute path ∨ directory = "" then path
  else if directory.toList.getLast? = some '/' then directory ++ path
  else directory ++ "/" ++ path

/-- The beginnings of a path that lead somewhere, from the whole to the first name. -/
def beginnings : List String → List (List String)
  | [] => []
  | name :: ns => (beginnings ns).map (name :: ·) ++ if isIdle name then [] else [[name]]

/-- The path of a directory as it is, and the paths above it, upwards. -/
def upwards (path : String) : List String :=
  match beginnings (names path) with
  | [] => [path]
  | _ :: above => path :: above.map ofNames ++ [if isAbsolute path then "/" else ""]

end SearchIndex.Command.Path
