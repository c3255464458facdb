import SearchIndex.Table

/-!
# Arguments

The words of a command line are read in two stages: the options before the name of the command, then
the options and the operand of the command itself. An option takes its value from the same word or
from the next one, no option may be given twice, and two dashes end the options. Of the two places
of `--config` the one behind the name counts first.

The first fault decides between help and a wrong command line, so it matters when a fault shows. A
value in a word of its own is looked at when the next part of the same stage is read, or at the end
of the stage, and the first stage ends behind the second.
-/

namespace SearchIndex.Command

/-- Why a command is not run. -/
inductive Refusal where
  /-- Help was asked for. -/
  | help
  /-- The command line is wrong. -/
  | usage
deriving DecidableEq, Repr

/-- An option that a command knows. -/
structure Switch where
  name : String
  letter : Option Char
  takesValue : Bool
  /-- The value may be the empty text. -/
  mayBeEmpty : Bool
deriving DecidableEq, Repr

/-- What has been read in a stage. -/
structure Reading where
  /-- The options with their values. -/
  options : Table String
  /-- The last option, if its value is a word of its own that nobody has looked at yet, and that
  word once it is there. -/
  pending : Option (Switch × Option String)
  operand : Option String
  /-- No more options may follow. -/
  closed : Bool
deriving DecidableEq, Repr

namespace Reading

/-- Nothing has been read. -/
def empty : Reading := ⟨[], none, none, false⟩

/-- Puts down an option, once. -/
def put (r : Reading) (s : Switch) (value : String) : Except Refusal Reading :=
  if (r.options.get? s.name).isSome ∨ (s.takesValue ∧ !s.mayBeEmpty ∧ value = "") then
    .error .usage
  else .ok { r with options := r.options.insert s.name value }

/-- Puts down the option that is pending. -/
def settle (r : Reading) : Except Refusal Reading :=
  match r.pending with
  | none => .ok r
  | some (s, some value) => { r with pending := none }.put s value
  | some (_, none) => .error .usage

/-- Adds an option with its value. -/
def addOption (r : Reading) (s : Switch) (value : String) : Except Refusal Reading :=
  r.settle.bind fun r => r.put s value

/-- Adds an option whose value is the next word. -/
def await (r : Reading) (s : Switch) : Except Refusal Reading :=
  r.settle.map fun r => { r with pending := some (s, none) }

/-- Adds an option that stands alone. Help is given at once. -/
def addFlag (r : Reading) (s : Switch) : Except Refusal Reading :=
  r.settle.bind fun r => if s.name = "help" then .error .help else r.put s ""

/-- Adds an operand; there is room for one. -/
def addOperand (r : Reading) (word : String) : Except Refusal Reading :=
  r.settle.bind fun r =>
    if r.operand.isSome then .error .usage else .ok { r with operand := some word }

/-- The value of an option. -/
def value? (r : Reading) (name : String) : Option String := r.options.get? name

/-- The option was given. -/
def has (r : Reading) (name : String) : Bool := (r.value? name).isSome

end Reading

/-- The option that asks for help. -/
def helpSwitch : Switch := ⟨"help", some 'h', false, false⟩

/-- The option that names the configuration file. -/
def configSwitch : Switch := ⟨"config", none, true, false⟩

/-- Reads the letters of a word behind one dash. -/
def readLetters (switches : List Switch) (r : Reading) : List Char → Except Refusal Reading
  | [] => .ok r
  | c :: rest =>
    match switches.find? fun s => s.letter == some c with
    | none => .error .usage
    | some s =>
      if s.takesValue then
        match rest with
        | [] => r.await s
        | '=' :: value | value => r.addOption s (String.ofList value)
      else (r.addFlag s).bind fun r => readLetters switches r rest

/-- Reads a word behind two dashes. -/
def readName (switches : List Switch) (r : Reading) (word : List Char) : Except Refusal Reading :=
  let name := String.ofList (word.takeWhile (· ≠ '='))
  match switches.find? fun s => s.name == name with
  | none => .error .usage
  | some s =>
    match s.takesValue, word.dropWhile (· ≠ '=') with
    | true, '=' :: value => r.addOption s (String.ofList value)
    | true, _ => r.await s
    | false, '=' :: _ => .error .usage
    | false, _ => r.addFlag s

/-- What a word is. -/
inductive Word where
  | operand
  | letters (cs : List Char)
  | name (cs : List Char)
  | stop
deriving DecidableEq, Repr

/-- Tells options from operands. A dash alone is an operand. -/
def Word.of (word : String) : Word :=
  match word.toList with
  | ['-', '-'] => .stop
  | '-' :: '-' :: cs => .name cs
  | '-' :: c :: cs => .letters (c :: cs)
  | _ => .operand

/-- Reads words up to the first operand that `stops`; that operand and all after it come second. -/
def readWords (switches : List Switch) (stops : Bool) :
    Reading → List String → Except Refusal (Reading × List String)
  | r, [] => .ok (r, [])
  | r, word :: rest =>
    if r.closed then (r.addOperand word).bind fun r => readWords switches stops r rest
    else
      match Word.of word, r.pending with
      | .stop, _ => readWords switches stops { r with closed := true } rest
      | .letters cs, _ =>
        (readLetters switches r cs).bind fun r => readWords switches stops r rest
      | .name cs, _ => (readName switches r cs).bind fun r => readWords switches stops r rest
      | .operand, some (s, none) =>
        readWords switches stops { r with pending := some (s, some word) } rest
      | .operand, _ =>
        if stops then .ok (r, word :: rest)
        else (r.addOperand word).bind fun r => readWords switches stops r rest

/-- How a script is to be written. -/
structure ScriptOptions where
  update : Bool
  output : Option String
  jsonErrors : Bool
deriving DecidableEq, Repr

/-- A command and its operands. -/
inductive Action where
  | entity (file : String) (options : ScriptOptions)
  | container (file : String) (options : ScriptOptions)
  | compile (schema : String) (internal model external : Option String) (output : Option String)
deriving DecidableEq, Repr

/-- A command line. -/
structure Invocation where
  config : Option String
  action : Action
deriving DecidableEq, Repr

/-- The option that names the file to be written. -/
def outputSwitch : Switch := ⟨"output", some 'o', true, false⟩

/-- The options of the commands that write a script. -/
def scriptSwitches : List Switch :=
  [helpSwitch, configSwitch, outputSwitch, ⟨"update", some 'u', false, false⟩,
   ⟨"json-errors", none, false, false⟩]

/-- The options of the command that compiles a schema. -/
def compileSwitches : List Switch :=
  [helpSwitch, configSwitch, outputSwitch, ⟨"internal", none, true, true⟩,
   ⟨"model", none, true, true⟩, ⟨"external", none, true, true⟩]

/-- Reads the words behind the name of a command that has one operand. -/
def readCommand (switches : List Switch) (words : List String) :
    Except Refusal (String × Reading) :=
  ((readWords switches false .empty words).bind fun p => p.1.settle).bind fun r =>
    match r.operand with
    | some file => .ok (file, r)
    | none => .error .usage

/-- The options of a script. -/
def Reading.script (r : Reading) : ScriptOptions :=
  ⟨r.has "update", r.value? "output", r.has "json-errors"⟩

/-- The names of the commands. -/
def commandNames : List String := ["entity", "container", "compile", "help"]

/-- Reads the name of a command and the words behind it. -/
def readAction : String → List String → Except Refusal (Action × Option String)
  | "entity", words =>
    (readCommand scriptSwitches words).map fun (file, r) =>
      (.entity file r.script, r.value? "config")
  | "container", words =>
    (readCommand scriptSwitches words).map fun (file, r) =>
      (.container file r.script, r.value? "config")
  | "compile", words =>
    (readCommand compileSwitches words).map fun (file, r) =>
      (.compile file (r.value? "internal") (r.value? "model") (r.value? "external")
        (r.value? "output"), r.value? "config")
  | "help", [] => .error .help
  | "help", [word] => .error (if commandNames.contains word then .help else .usage)
  | _, _ => .error .usage

/-- Reads a command line. -/
def Invocation.ofArguments (arguments : List String) : Except Refusal Invocation := do
  let (r, rest) ← readWords [helpSwitch, configSwitch] true .empty arguments
  match rest with
  | name :: words =>
    let (action, config) ← readAction name words
    let r ← r.settle
    return ⟨config <|> r.value? "config", action⟩
  | [] => .error .usage

end SearchIndex.Command
