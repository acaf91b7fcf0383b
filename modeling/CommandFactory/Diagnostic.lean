import CommandFactory.Failure

/-!
# Diagnostics

Messages of the compiler to its user, collected in the order in which they are reported. A diagnostic
is a note, a warning or an error, and may name the element it is about.
-/

set_option autoImplicit false

namespace CommandFactory

/-- How serious a diagnostic is, in increasing order. -/
inductive Severity where
  | note
  | warning
  | error
  deriving DecidableEq, Repr, Inhabited

namespace Severity

/-- The name of a severity. -/
def name : Severity → String
  | .note => "note"
  | .warning => "warning"
  | .error => "error"

/-- The severities by name. -/
def byName : List (String × Severity) :=
  [("note", .note), ("warning", .warning), ("error", .error)]

/-- The place of a severity in the order. -/
def rank : Severity → Nat
  | .note => 0
  | .warning => 1
  | .error => 2

/-- The more serious of two. -/
def max (a b : Severity) : Severity := if a.rank ≤ b.rank then b else a

end Severity

/-- A message, with the element it is about. -/
structure Diagnostic where
  severity : Severity
  message : String
  element : Option SymbolId
  deriving DecidableEq, Repr, Inhabited

namespace Diagnostic

/-- An error at an element. -/
def errorAt (element : SymbolId) (message : String) : Diagnostic := ⟨.error, message, some element⟩

/-- A warning at an element. -/
def warningAt (element : SymbolId) (message : String) : Diagnostic :=
  ⟨.warning, message, some element⟩

/-- A failure as an error at an element. -/
def ofFailure (element : SymbolId) (failure : Failure) : Diagnostic :=
  errorAt element failure.message

/-- The diagnostic as one line. -/
def display (diagnostic : Diagnostic) : String :=
  let line := diagnostic.severity.name ++ ": " ++ diagnostic.message
  match diagnostic.element with
  | none => line
  | some element => line ++ " [" ++ element.text ++ "]"

/-- The diagnostic as an object. -/
def encode (diagnostic : Diagnostic) : Json :=
  .object
    ([("severity", .string diagnostic.severity.name), ("message", .string diagnostic.message)] ++
      Json.memberIf "element" (diagnostic.element.map fun id => .string id.text))

end Diagnostic

/-- A result with the diagnostics that came up on the way. -/
structure Noted (α : Type) where
  value : α
  diagnostics : List Diagnostic
  deriving Repr, Inhabited

/-! ## Lists of diagnostics -/

namespace Diagnostics

/-- How many diagnostics have the severity. -/
def count (severity : Severity) (diagnostics : List Diagnostic) : Nat :=
  diagnostics.countP fun diagnostic => diagnostic.severity = severity

/-- Whether there is an error among the diagnostics. -/
def hasErrors (diagnostics : List Diagnostic) : Bool := 0 < count .error diagnostics

/-- The highest severity among the diagnostics. -/
def worst? : List Diagnostic → Option Severity
  | [] => none
  | diagnostic :: rest =>
      some
        (match worst? rest with
        | none => diagnostic.severity
        | some severity => diagnostic.severity.max severity)

end Diagnostics

end CommandFactory
