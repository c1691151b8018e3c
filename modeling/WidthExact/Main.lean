import WidthExact.CommandLine.Response

/-!
# The program

Writes the answer to its arguments, and a short help text where one is asked for or needed.
-/

namespace WidthExact.CommandLine

/-- How the program is used. -/
def usage : String :=
  "usage: scalar [-v] list [--family TEXT] [--json]\n" ++
  "       scalar [-v] call [--fatal-on-zero CODE] [--trace] NAME [OPERAND ...]\n" ++
  "       scalar --version | --help\n"

end WidthExact.CommandLine

open WidthExact.CommandLine in
/-- Answers the arguments and ends with the status of the answer. -/
def main (args : List String) : IO UInt32 := do
  let invocation := Invocation.read args
  let response := invocation.respond programName
  (← IO.getStdout).putStr response.stdout
  match invocation with
  | .help => IO.print usage
  | .misuse => IO.eprint usage
  | _ => pure ()
  for line in response.diagnostic do
    IO.eprintln line
  return response.status.toUInt32
