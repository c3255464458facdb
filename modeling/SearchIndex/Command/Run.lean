import SearchIndex.Command.Arguments
import SearchIndex.Command.Settings
import SearchIndex.Request.Container

/-!
# Running a command

`run` reads a command line, finds the configuration and carries out the command. The first thing
that goes wrong ends it. Nothing is written unless all went well.
-/

namespace SearchIndex.Command

open Index Mapping Request Schema

/-- How a command ends. -/
inductive Outcome where
  /-- With a text for the standard output. -/
  | printed (text : String)
  /-- With a file written. -/
  | written
  /-- With a message and its causes. -/
  | failed (message : String) (causes : List String)
  /-- With a report for the modelling tool. -/
  | reported (report : Report)
  /-- Without having been run. -/
  | refused (refusal : Refusal)
deriving DecidableEq, Repr

/-- The status that a command leaves. -/
def Outcome.status : Outcome → Nat
  | .printed _ | .written | .refused .help => 0
  | .failed _ _ | .reported _ => 1
  | .refused .usage => 2

/-- Curl is used when the command, the request or the configuration asks for it. -/
def scriptKind (options : ScriptOptions) (update : Bool) (config : Config) : ScriptKind :=
  if options.update || update then .curl else config.script

variable {m : Type → Type} [Monad m]

/-- A step of a command: it ends the command or goes on. -/
abbrev Step (m : Type → Type) := ExceptT Outcome m

/-- Reads a file, or the standard input for a dash. -/
def readSource (files : Files m) (file : String) : Step m String := do
  if file = "-" then
    match ← files.input with
    | some text => return text
    | none => throw (.failed "Error reading from stdin" [])
  else
    match ← files.read file with
    | some text => return text
    | none => throw (.failed ("Error reading file " ++ file) [])

/-- Goes on with a value that was read, or ends with a message. -/
def orFail {α : Type} (message : String) : Except Json.Error α → Step m α
  | .ok a => return a
  | .error e => throw (.failed message [e.message])

/-- Goes on with a script, or ends as the options ask for. -/
def orReport (options : ScriptOptions) : Except Request.Error String → Step m String
  | .ok script => return script
  | .error e =>
    if options.jsonErrors then throw (.reported e.report)
    else throw (.failed "Error generating script" [e.message, e.cause.message])

/-- Writes a text with a line end to a file or the standard output. -/
def writeText (files : Files m) (output : Option String) (text : String) : Step m Outcome :=
  match output with
  | some path => do
    if ← files.write path (text ++ "\n") then return .written
    else throw (.failed ("Error writing " ++ path) [])
  | none => return .printed (text ++ "\n")

/-- The script of one entity. -/
def runEntity (files : Files m) (config : Config) (file : String) (options : ScriptOptions) :
    Step m Outcome := do
  let text ← readSource files file
  let r ← orFail ("Error parsing entity request " ++ file) (EntityRequest.read text)
  let r := { r with connection := config.complete r.connection }
  let script ← orReport options (r.generate (scriptKind options r.update config))
  writeText files options.output script

/-- The script of a shared index. -/
def runContainer (files : Files m) (config : Config) (file : String) (options : ScriptOptions) :
    Step m Outcome := do
  let text ← readSource files file
  let r ← orFail ("Error parsing container request " ++ file) (ContainerRequest.read text)
  let r := r.withConnection (config.complete r.connection)
  let script ← orReport options (r.generate (scriptKind options r.update config))
  writeText files options.output script

/-- Reads a document from a file. -/
def readDocument (files : Files m) (file : String) : Step m Json := do
  let text ← readSource files file
  orFail ("Error parsing JSON " ++ file) (Json.read text)

/-- Reads a document that may be missing. -/
def readOptional (files : Files m) : Option String → Step m Json
  | some file => readDocument files file
  | none => return .null

/-- The mapping tree of an entity schema. -/
def runCompile (files : Files m) (schema : String)
    (internal model external output : Option String) : Step m Outcome := do
  let entity ← readDocument files schema
  let root ← orFail ("Invalid entity schema " ++ schema) (Field.ofJson entity)
  let internal ← readOptional files internal
  let model ← readOptional files model
  let external ← readOptional files external
  let scopes : Scopes := ⟨entity, internal, model, external⟩
  let tree : Id Tree := compileDocument scopes.resolver root
  writeText files output (Tree.toJson tree).pretty

/-- The configuration of a command: the file that is named, or the nearest one, or none. -/
def configOf (files : Files m) : Option String → Step m Config
  | some path => do
    match ← ExceptT.lift (loadConfig files path) with
    | .ok config => return config
    | .error e => throw (.failed ("Error loading config " ++ path) [e.message])
  | none => do
    match ← ExceptT.lift (files.directories >>= searchConfig files) with
    | .ok (some (_, config)) => return config
    | .ok none => return .standard
    | .error e => throw (.failed e.message [])

/-- Carries out a command line. -/
def runInvocation (files : Files m) (i : Invocation) : Step m Outcome := do
  let config ← configOf files i.config
  match i.action with
  | .entity file options => runEntity files config file options
  | .container file options => runContainer files config file options
  | .compile schema internal model external output =>
    runCompile files schema internal model external output

/-- Reads and carries out a command line. -/
def run (files : Files m) (arguments : List String) : m Outcome :=
  match Invocation.ofArguments arguments with
  | .error refusal => return .refused refusal
  | .ok i => do
    match ← (runInvocation files i).run with
    | .ok outcome | .error outcome => return outcome

end SearchIndex.Command
