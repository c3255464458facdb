import SearchIndex.Index.Script
import SearchIndex.Toml.Reader

/-!
# Configuration

A configuration names the kind of script that is written when a request does not ask for one, and
the target that a `curl` command is addressed to when a request names none. Keys that it does not
know are refused.
-/

namespace SearchIndex

open Index

/-- Where a `curl` command is addressed when a request does not say. -/
structure Config.Target where
  host : String
  port : Nat
deriving DecidableEq, Repr

/-- A configuration. -/
structure Config where
  script : ScriptKind
  target : Config.Target
deriving DecidableEq, Repr

namespace Config

/-- The target that is not configured. -/
def Target.standard : Target := ⟨defaultHost, defaultPort⟩

/-- The configuration that says nothing. -/
def standard : Config := ⟨.console, .standard⟩

/-- The greatest port. -/
def greatestPort : Nat := 65535

/-- Reads a kind of script: its name, or a table in which it is the only key and has nothing. -/
def scriptOf : Toml.Value → Option ScriptKind
  | .string name => (ScriptKind.ofName name).toOption
  | .table _ [(name, .table _ [])] | .table _ [(name, .array _ [])] =>
    (ScriptKind.ofName name).toOption
  | _ => none

/-- Reads a host. -/
def hostOf : Toml.Value → Option String
  | .string s => some s
  | _ => none

/-- Reads a port. -/
def portOf : Toml.Value → Option Nat
  | .integer n => if 0 ≤ n ∧ n ≤ greatestPort then some n.toNat else none
  | _ => none

/-- Reads a part that may be missing. -/
def part {α : Type} (read : Toml.Value → Option α) (missing : α) : Option Toml.Value → Option α
  | some v => read v
  | none => some missing

/-- Reads a target: a table, or a list of host and port. -/
def targetOf (v : Toml.Value) : Option Target := do
  let (host, port) ←
    match v with
    | .table _ entries =>
      if entries.all fun e => e.1 == "host" || e.1 == "port" then
        some (Table.get? entries "host", Table.get? entries "port")
      else none
    | .array _ items => some (items[0]?, items[1]?)
    | _ => none
  return ⟨← part hostOf defaultHost host, ← part portOf defaultPort port⟩

/-- Reads the entries of a configuration. -/
def ofEntries (entries : Toml.Entries) : Option Config :=
  if entries.all fun e => e.1 == "script" || e.1 == "target" then do
    let script ← part scriptOf .console (Table.get? entries "script")
    let target ← part targetOf .standard (Table.get? entries "target")
    return ⟨script, target⟩
  else none

/-- Reads a configuration. -/
def read (text : String) : Option Config := (Toml.read text).bind ofEntries

/-- The connection with the target in the places that it leaves open. -/
def complete (config : Config) (c : Connection) : Connection :=
  { host := if c.host?.isSome then c.host else some config.target.host
    port :=
      if c.port?.isSome then c.port else some (.num (.integer config.target.port)) }

end Config

end SearchIndex
