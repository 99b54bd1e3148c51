import ScriptBackend.Span

/-!
# Diagnostics

A diagnostic is a severity, a position and a message. Phases collect them in order; a collection
with an error among them stops the phases that follow. A collection remembers whether it was given
an error, and never says so wrongly.
-/

namespace ScriptBackend

/-- How grave a diagnostic is. -/
inductive Severity where
  /-- Compilation fails. -/
  | error
  /-- Suspicious but accepted. -/
  | warning
  /-- Context for the diagnostic before it. -/
  | info
  deriving DecidableEq, Repr

/-- The name of a severity. -/
def Severity.name : Severity → String
  | .error => "error"
  | .warning => "warning"
  | .info => "info"

/-- The severity of a given name. -/
def Severity.ofName? (text : String) : Option Severity :=
  [Severity.error, .warning, .info].find? fun severity => severity.name = text

/-- A message about a position. -/
structure Diagnostic where
  /-- How grave it is. -/
  severity : Severity
  /-- Where it points. -/
  span : Span
  /-- What it says. -/
  message : String
  deriving DecidableEq, Repr

namespace Diagnostic

/-- An error at a position. -/
def error (span : Span) (message : String) : Diagnostic := ⟨.error, span, message⟩

/-- Context at a position. -/
def info (span : Span) (message : String) : Diagnostic := ⟨.info, span, message⟩

/-- Whether the diagnostic is an error. -/
def isError (diagnostic : Diagnostic) : Bool := diagnostic.severity = .error

/-- A diagnostic reads as position, severity and message. -/
def text (diagnostic : Diagnostic) : String :=
  diagnostic.span.text ++ ": " ++ diagnostic.severity.name ++ ": " ++ diagnostic.message

end Diagnostic

/-- Diagnostics in the order in which they were reported, and whether one of them is an error. -/
structure Diagnostics where
  /-- The diagnostics, the earliest first. -/
  items : List Diagnostic := []
  /-- Whether an error was reported. -/
  hasErrors : Bool := false
  /-- An error was reported exactly if one is among the diagnostics. -/
  hasErrors_eq : hasErrors = items.any Diagnostic.isError := by rfl
  deriving DecidableEq, Repr

namespace Diagnostics

/-- Collections of the same diagnostics are the same. -/
theorem ext_items {first second : Diagnostics} (h : first.items = second.items) :
    first = second := by
  obtain ⟨items, hasErrors, rfl⟩ := first
  obtain ⟨others, hasOthers, rfl⟩ := second
  obtain rfl : items = others := h
  rfl

/-- Report one more diagnostic. -/
def push (diagnostics : Diagnostics) (diagnostic : Diagnostic) : Diagnostics where
  items := diagnostics.items ++ [diagnostic]
  hasErrors := diagnostics.hasErrors || diagnostic.isError
  hasErrors_eq := by simp [diagnostics.hasErrors_eq]

/-- The diagnostics of one collection followed by those of another. -/
def append (first second : Diagnostics) : Diagnostics where
  items := first.items ++ second.items
  hasErrors := first.hasErrors || second.hasErrors
  hasErrors_eq := by simp [first.hasErrors_eq, second.hasErrors_eq]

instance : Append Diagnostics := ⟨append⟩

/-- Diagnostics that are reported one after the other. -/
def ofList (items : List Diagnostic) : Diagnostics := items.foldl push {}

@[simp] theorem items_append (first second : Diagnostics) :
    (first ++ second).items = first.items ++ second.items := rfl

/-- A collection has errors exactly when one of its parts has. -/
@[simp] theorem hasErrors_append (first second : Diagnostics) :
    (first ++ second).hasErrors = (first.hasErrors || second.hasErrors) := rfl

/-- Diagnostics are collected in the order in which they are reported. -/
@[simp] theorem items_ofList (items : List Diagnostic) : (ofList items).items = items := by
  have hpushed (diagnostics : Diagnostics) :
      (items.foldl push diagnostics).items = diagnostics.items ++ items := by
    induction items generalizing diagnostics with
    | nil => simp
    | cons first rest ih =>
      refine (ih (diagnostics.push first)).trans ?_
      simp [push]
  exact hpushed {}

/-- The errors of a collection. -/
def errors (diagnostics : Diagnostics) : List Diagnostic :=
  diagnostics.items.filter Diagnostic.isError

/-- The number of errors. -/
def errorCount (diagnostics : Diagnostics) : Nat := diagnostics.errors.length

/-- The number of diagnostics. -/
def size (diagnostics : Diagnostics) : Nat := diagnostics.items.length

/-- Whether nothing was reported. -/
def isEmpty (diagnostics : Diagnostics) : Bool := diagnostics.items.isEmpty

/-- One diagnostic per line. -/
def text (diagnostics : Diagnostics) : String :=
  String.join (diagnostics.items.map fun diagnostic => diagnostic.text ++ "\n")

/-- Errors are reported exactly when their number is not zero. -/
theorem hasErrors_iff_errorCount {diagnostics : Diagnostics} :
    diagnostics.hasErrors = true ↔ diagnostics.errorCount ≠ 0 := by
  simp [diagnostics.hasErrors_eq, errorCount, errors, List.length_eq_zero_iff]

end Diagnostics

end ScriptBackend
