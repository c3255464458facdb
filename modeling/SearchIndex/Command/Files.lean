import SearchIndex.Command.Path

/-!
# Files

`Files` is what a command can do to the files around it, in any monad. `FileTree` is a tree of files
held in memory, on which `Session.files` does the same.
-/

namespace SearchIndex.Command

/-- What a command can do to the files around it. -/
structure Files (m : Type → Type) where
  /-- The text of a file. -/
  read : String → m (Option String)
  /-- The rest of the standard input. -/
  input : m (Option String)
  /-- Writes a file; false if that is not possible. -/
  write : String → String → m Bool
  /-- A file or directory is there. -/
  isThere : String → m Bool
  /-- The working directory and those above it, upwards. -/
  directories : m (List String)

/-- The names on the way from the root to a file or directory. -/
abbrev Location := List String

/-- Files and directories in memory. -/
structure FileTree where
  files : List (Location × String)
  directories : List Location
deriving DecidableEq, Repr

namespace FileTree

/-- The location is the root, a directory, or on the way to a file or directory. -/
def isDirectory (t : FileTree) (l : Location) : Bool :=
  l.isEmpty || t.directories.any l.isPrefixOf ||
    t.files.any fun f => l.isPrefixOf f.1 && l != f.1

/-- The text of the file at a location. -/
def text? (t : FileTree) (l : Location) : Option String :=
  (t.files.find? fun f => f.1 == l).map Prod.snd

/-- The tree with a file written. -/
def put (t : FileTree) (l : Location) (text : String) : FileTree :=
  { t with files := (t.files.filter fun f => f.1 != l) ++ [(l, text)] }

/-- Follows names from a location. All but the last one have to be directories; two points lead
upwards. -/
def walk (t : FileTree) (l : Location) : List String → Option Location
  | [] => some l
  | name :: names =>
    if !t.isDirectory l then none
    else if Path.isIdle name then walk t l names
    else if name = ".." then walk t l.dropLast names
    else walk t (l ++ [name]) names

/-- The location that a path leads to. -/
def locate? (t : FileTree) (directory : Location) (path : String) : Option Location :=
  if path = "" then none
  else t.walk (if Path.isAbsolute path then [] else directory) (Path.names path)

end FileTree

/-- Files in memory around a working directory, and the standard input. -/
structure Session where
  tree : FileTree
  directory : Location
  pending : String
deriving DecidableEq, Repr

/-- The path of a location from the root. -/
def Location.path (l : Location) : String := "/" ++ Path.ofNames l

namespace Session

/-- The location that a path leads to from the working directory. -/
def locate? (s : Session) (path : String) : Option Location := s.tree.locate? s.directory path

/-- The text of a file. -/
def read (s : Session) (path : String) : Option String := (s.locate? path).bind s.tree.text?

/-- The session with a file written, unless a directory stands there. -/
def write (s : Session) (path text : String) : Option Session :=
  match s.locate? path with
  | some l => if s.tree.isDirectory l then none else some { s with tree := s.tree.put l text }
  | none => none

/-- A file or directory is there. -/
def isThere (s : Session) (path : String) : Bool :=
  (s.locate? path).any fun l => s.tree.isDirectory l || (s.tree.text? l).isSome

/-- The files of a session. The standard input is there once. -/
def files : Files (StateM Session) where
  read path := return (← get).read path
  input := do
    let s ← get
    set { s with pending := "" }
    return some s.pending
  write path text := do
    match (← get).write path text with
    | some s =>
      set s
      return true
    | none => return false
  isThere path := return (← get).isThere path
  directories := return Path.upwards (Location.path (← get).directory)

end Session

end SearchIndex.Command
