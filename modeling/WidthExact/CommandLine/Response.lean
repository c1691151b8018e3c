import WidthExact.CommandLine.Arguments
import WidthExact.Json.PrimitiveCodec

/-!
# Answers of the command line

What the program does on each invocation. `list` shows primitives with their signatures, as lines or
as JSON. `call` reads the operands as literals of the types that the primitive takes, applies it and
shows the result with its type; whatever goes wrong ends the process with a diagnostic. A diagnostic
stands behind the name by which the program was started, which is a parameter here.
-/

namespace WidthExact.CommandLine

/-- The name of the program: in its version, and in diagnostics where the host tells no other. -/
def programName : String := "scalar"

/-- The version of the program. -/
def versionNumber : String := "0.1.0"

/-- The status that the process ends with, what it writes to standard output, and the line it writes
to standard error, without the line end. -/
structure Response where
  status : Nat
  stdout : String
  diagnostic : Option String
  deriving DecidableEq, Repr

namespace Response

/-- Success with the given output. -/
def success (stdout : String) : Response := ⟨0, stdout, none⟩

/-- The status on arguments that were not understood. -/
def misuse : Response := ⟨2, "", none⟩

/-- The status of a process that a trap ended. No answer of an evaluator comes to that. -/
def trapped : Response := ⟨101, "", none⟩

/-- The end of the process with a diagnostic. -/
def ofDiagnostic (program : String) (d : Diagnostic) : Response :=
  ⟨Diagnostic.statusOf d.exitCode, "", some (d.render program)⟩

/-- The answer on what a call came to. -/
def ofOutcome (program : String) : Outcome → Response
  | .result value => success (value.text ++ "\n")
  | .refused error => ofDiagnostic program (Diagnostic.ofCallError error)
  | .ended d => ofDiagnostic program d
  | .trapped _ => trapped

end Response

/-! ## Listing -/

/-- Whether the name of a primitive begins with the given text, if one is given. -/
def inFamily (family : Option String) (p : Primitive) : Bool :=
  family.all fun text => text.toList.isPrefixOf p.name.toList

/-- The primitives that are listed, in the order of all primitives. -/
def listed (family : Option String) : List Primitive := Primitive.all.filter (inFamily family)

/-- The line that shows a primitive: its name and its signature. -/
def line (p : Primitive) : String := p.name ++ p.signature.text

/-- The JSON object that shows a primitive. -/
def jsonEntry (p : Primitive) : Json :=
  .record [
    ("name", .ofText p.name),
    ("params", .array (p.signature.params.map ScalarType.toJson)),
    ("result", p.signature.result.toJson)]

/-- The listing as text. -/
def listText (family : Option String) : String :=
  String.join ((listed family).map fun p => line p ++ "\n")

/-- The listing as JSON. -/
def listJson (family : Option String) : String :=
  String.ofList ((Json.array ((listed family).map jsonEntry)).pretty 0 ++ ['\n'])

/-! ## Calling -/

/-- Reads literals of the given types, up to the first text that is none. -/
def readLiterals : List ScalarType → List String → Except ParseError (List Scalar)
  | type :: types, text :: texts =>
    match Scalar.parse type text with
    | .error error => .error error
    | .ok value =>
      match readLiterals types texts with
      | .error error => .error error
      | .ok values => .ok (value :: values)
  | _, _ => .ok []

/-- What a call with literals comes to. The number of operands is checked before they are read. -/
def callLiterals (e : Evaluator) (name : String) (operands : List String) : Outcome :=
  match Primitive.parse name with
  | .error error => .refused (.parse error)
  | .ok p =>
    if operands.length = p.signature.arity then
      match readLiterals p.signature.params operands with
      | .error error => .refused (.parse error)
      | .ok args => (e.apply p args).1
    else .refused (.arityMismatch p.name p.signature.arity operands.length)

/-- The policy that the options ask for. -/
def CallOptions.policy (options : CallOptions) : ZeroDivisionPolicy :=
  match options.fatalOnZero with
  | none => .error
  | some exitCode => .fatal exitCode

/-- The evaluator that the options ask for. -/
def CallOptions.evaluator (options : CallOptions) : Evaluator :=
  { policy := options.policy, traceCalls := options.trace }

/-! ## Invocations -/

/-- The answer to a command. -/
def Command.respond (program : String) : Command → Response
  | list family json => .success (if json then listJson family else listText family)
  | call name operands options =>
    .ofOutcome program (callLiterals options.evaluator name operands)

/-- The answer to an invocation. How the program is used is no part of it, and the version is shown
under the program's own name. -/
def Invocation.respond (program : String) : Invocation → Response
  | command c => c.respond program
  | version => .success (programName ++ " " ++ versionNumber ++ "\n")
  | help => .success ""
  | misuse => .misuse

/-- The answer to a list of arguments, for a program started by the given name. -/
def respond (args : List String) (program : String := programName) : Response :=
  (Invocation.read args).respond program

end WidthExact.CommandLine
