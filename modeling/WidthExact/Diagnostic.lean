import WidthExact.Evaluator.CallError
import WidthExact.Word.Basic

/-!
# Diagnostics

A condition that ends the process: an exit code and a message. The host keeps the low eight bits of
the exit code as the status of the process, and the message is written as one line behind the name of
the program.
-/

namespace WidthExact

/-- How a process ended: its status and what it wrote to standard error. -/
structure Termination where
  status : Nat
  stderr : String
  deriving DecidableEq, Repr

/-- An exit code and a message. -/
structure Diagnostic where
  exitCode : Word .w32
  message : String
  deriving DecidableEq

namespace Diagnostic

/-- The exit code for a zero divisor. -/
def divisionByZeroCode : Word .w32 := 1#32

/-- The exit code for an unknown name and for operands of the wrong number or types. -/
def malformedCallCode : Word .w32 := 2#32

/-- The diagnostic for a call error. -/
def ofCallError (error : CallError) : Diagnostic :=
  ⟨if error.isMalformed then malformedCallCode else divisionByZeroCode, error.message⟩

/-- The message behind the name of the program. -/
def render (program : String) (d : Diagnostic) : String := program ++ ": " ++ d.message

/-- The status that the host keeps of an exit code. -/
def statusOf (exitCode : Word .w32) : Nat := exitCode.unsigned % 256

/-- Ends the process with the diagnostic on standard error. -/
def report (program : String) (d : Diagnostic) : Termination :=
  ⟨statusOf d.exitCode, d.render program ++ "\n"⟩

end Diagnostic

/-- The exit code of a process that finds a condition not to hold. -/
def ensureCode : Word .w32 := 1#32

/-- Ends the process silently unless a condition holds. -/
def ensure? (condition : Bool) : Option Termination :=
  if condition then none else some ⟨Diagnostic.statusOf ensureCode, ""⟩

/-- Ends the process with a message on standard error unless a condition holds. -/
def ensureMessage? (condition : Bool) (message : String) : Option Termination :=
  if condition then none else some ⟨Diagnostic.statusOf ensureCode, message ++ "\n"⟩

end WidthExact
