import Chiptune.Fault

/-!
# Reports

A report is a fault with the place where it arose and the inclusions that led
there. Warnings are collected beside; words that no statement knows are counted,
and only the first hundred of them are kept.
-/

namespace Chiptune

/-- A fault with its place. -/
structure Report where
  fault : Fault
  place : Option Location
  /-- The inclusions that led to the place, outermost first. -/
  includedFrom : List Location

namespace Report

/-- A fault whose place is not yet known. -/
def ofFault (fault : Fault) : Report := ⟨fault, none, []⟩

/-- Give the place of a report that has none. -/
def locate (report : Report) (place : Location) (includedFrom : List Location) : Report :=
  match report.place with
  | some _ => report
  | none => { report with place := some place, includedFrom := includedFrom }

/-- The report as a user reads it, inclusions innermost first. -/
def text (report : Report) : String :=
  let place := (report.place.map fun place => place.text ++ ": ").getD ""
  let trail := report.includedFrom.reverse.map fun place => "\n  included from " ++ place.text
  place ++ report.fault.kind.name ++ " error: " ++ report.fault.message ++ String.join trail

end Report

/-- A problem that does not stop the assembler. -/
structure Warning where
  place : Option Location
  message : String
deriving DecidableEq, Repr, Inhabited

/-- The warning as a user reads it. -/
def Warning.text (warning : Warning) : String :=
  match warning.place with
  | some place => place.text ++ ": warning: " ++ warning.message
  | none => "warning: " ++ warning.message

/-- The warnings of a run. -/
structure Diagnostics where
  warnings : List Warning
  unknownKeywords : Nat
deriving DecidableEq, Repr, Inhabited

namespace Diagnostics

/-- The number of unknown keywords that are kept as warnings. -/
def keptUnknownKeywords : Nat := 100

/-- No warnings. -/
def empty : Diagnostics := ⟨[], 0⟩

/-- Add a warning. -/
def warn (diagnostics : Diagnostics) (place : Location) (message : String) : Diagnostics :=
  { diagnostics with warnings := diagnostics.warnings ++ [⟨some place, message⟩] }

/-- Add several warnings at one place. -/
def warnAll (diagnostics : Diagnostics) (place : Location) (messages : List String) :
    Diagnostics :=
  messages.foldl (fun d message => d.warn place message) diagnostics

/-- Count an unknown keyword, and keep the warning if there are few so far. -/
def unknownKeyword (diagnostics : Diagnostics) (place : Location) (message : String) :
    Diagnostics :=
  let kept :=
    if diagnostics.unknownKeywords < keptUnknownKeywords then diagnostics.warn place message
    else diagnostics
  { kept with unknownKeywords := diagnostics.unknownKeywords + 1 }

/-- The unknown keywords that were counted but not kept. -/
def unshown (diagnostics : Diagnostics) : Nat :=
  diagnostics.unknownKeywords - keptUnknownKeywords

/-- Whether nothing was reported. -/
def isEmpty (diagnostics : Diagnostics) : Bool :=
  diagnostics.warnings.isEmpty && diagnostics.unknownKeywords == 0

/-- The number of warnings, those not kept included. -/
def size (diagnostics : Diagnostics) : Nat :=
  diagnostics.warnings.length + diagnostics.unshown

end Diagnostics

end Chiptune
