import SearchIndex.Json.Shape

/-!
# Faults of a request

A request fails because a document embedded as text is no JSON, or because an entity document does
not describe a schema. The fault names the document; a `Report` adds the cause.
-/

namespace SearchIndex.Request

/-- What is wrong with a request: which document, and why. -/
inductive Error where
  | malformed (document : String) (cause : Json.Error)
  | notASchema (document : String) (cause : Json.Error)
deriving DecidableEq, Repr

namespace Error

/-- The cause of a fault. -/
def cause : Error → Json.Error
  | .malformed _ cause | .notASchema _ cause => cause

/-- The message of a fault, with its cause. -/
def message : Error → String
  | .malformed document cause => document ++ " is not valid JSON: " ++ cause.message
  | .notASchema document cause => document ++ " does not describe a schema: " ++ cause.message

end Error

/-- What is handed back to the modelling tool: the message, and the message with its causes, one a
line. -/
structure Report where
  message : String
  stack : String
deriving DecidableEq, Repr

/-- Writes a report. -/
def Report.toJson (r : Report) : Json := .obj [("message", .str r.message), ("stack", .str r.stack)]

/-- The report of a fault. -/
def Error.report (e : Error) : Report :=
  ⟨e.message, e.message ++ "\ncaused by: " ++ e.cause.message⟩

end SearchIndex.Request
