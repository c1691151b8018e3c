import WidthExact.Decimal.Numeral
import WidthExact.Scalar.Literal

/-!
# Arguments of the command line

What a list of arguments asks for. There are two commands, `list` and `call`, each with options of its
own. Arguments are read from left to right, and the first one that settles the answer wins: a request
for help or for the version, or a mistake.

An option is written `--name value` or `--name=value` and given once at most. The switches `-v` and
`--verbose` stand anywhere before the operands, as often as wanted, and change only the log of the
host. The argument `--` ends the options.

The operands of `call` begin with the first argument behind the name of the primitive that is no
option. From there on everything is an operand, also with a hyphen in front, so that negative numbers
need no quoting.
-/

namespace WidthExact.CommandLine

/-- The options of `call`: the exit code on a zero divisor, and whether calls are logged. -/
structure CallOptions where
  fatalOnZero : Option (Word .w32) := none
  trace : Bool := false
  deriving DecidableEq

/-- A command. -/
inductive Command where
  /-- Show the primitives whose names begin with the given text. -/
  | list (family : Option String) (json : Bool)
  /-- Apply a primitive to literals. -/
  | call (name : String) (operands : List String) (options : CallOptions)
  deriving DecidableEq

/-- What a list of arguments asks for. -/
inductive Invocation where
  | command (command : Command)
  | version
  | help
  /-- The arguments were not understood. -/
  | misuse
  deriving DecidableEq

/-! ## Shapes of arguments -/

/-- How an argument is written. -/
inductive Shape where
  /-- Without a hyphen in front, or a hyphen alone. -/
  | plain
  /-- Two hyphens alone. -/
  | separator
  /-- Two hyphens and a name, with or without an equals sign and a value. -/
  | long (name : String) (value : Option String)
  /-- One hyphen and letters. -/
  | short (letters : List Char)
  deriving DecidableEq

/-- An option that is spelt out, without its hyphens. -/
def longShape (text : List Char) : Shape :=
  let name := String.ofList (text.takeWhile (· ≠ '='))
  match text.dropWhile (· ≠ '=') with
  | [] => .long name none
  | _ :: value => .long name (some (String.ofList value))

/-- The shape of an argument. -/
def shape (arg : String) : Shape :=
  match arg.toList with
  | ['-'] => .plain
  | ['-', '-'] => .separator
  | '-' :: '-' :: text => longShape text
  | '-' :: letters => .short letters
  | _ => .plain

/-! ## Switches -/

/-- What a cluster of one-letter switches asks for, if it settles the answer. The switch for the
version is known only in front of the command. -/
def readSwitches (beforeCommand : Bool) : List Char → Option Invocation
  | [] => none
  | 'v' :: letters => readSwitches beforeCommand letters
  | 'h' :: _ => some .help
  | 'V' :: _ => some (if beforeCommand then .version else .misuse)
  | _ :: _ => some .misuse

/-- Whether a letter is a switch of the command `call`. -/
def isCallSwitch (letter : Char) : Bool := letter = 'v' || letter = 'h'

/-- Whether an argument is taken for an option of `call` even behind the name of the primitive. -/
def isCallOption (arg : String) : Bool :=
  match shape arg with
  | .plain => false
  | .separator => true
  | .short letters => letters.all isCallSwitch
  | .long name _ => ["fatal-on-zero", "trace", "verbose", "help"].contains name

/-! ## Commands -/

/-- Reads the arguments of `list`, after those that set the given options. -/
def readList (family : Option String) (json : Bool) : List String → Invocation
  | [] => .command (.list family json)
  | arg :: args =>
    match shape arg with
    | .plain => .misuse
    | .separator => if args.isEmpty then .command (.list family json) else .misuse
    | .short letters => (readSwitches false letters).getD (readList family json args)
    | .long "verbose" none => readList family json args
    | .long "help" none => .help
    | .long "json" none => if json then .misuse else readList family true args
    | .long "family" (some value) => if family.isSome then .misuse else readList (some value) json args
    | .long "family" none =>
      match args with
      | [] => .misuse
      | value :: args =>
        if family.isNone && shape value = .plain then readList (some value) json args else .misuse
    | .long _ _ => .misuse

/-- An exit code as it is given to an option. -/
def readExitCode? (text : String) : Option (Word .w32) :=
  (Decimal.readInt? text.toList).bind Word.exactly?

/-- The options with the exit code that a text gives, if there was none before. -/
def CallOptions.withExitCode? (options : CallOptions) (text : String) : Option CallOptions :=
  if options.fatalOnZero.isSome then none
  else (readExitCode? text).map fun code => { options with fatalOnZero := some code }

/-- Reads the arguments of `call`, after those that gave the name, if it is there already, and the
options. -/
def readCall (name : Option String) (options : CallOptions) : List String → Invocation
  | [] =>
    match name with
    | none => .misuse
    | some name => .command (.call name [] options)
  | arg :: args =>
    match name, isCallOption arg with
    | none, false =>
      match shape arg with
      | .plain => readCall (some arg) options args
      | .short letters => (readSwitches false letters).getD .misuse
      | _ => .misuse
    | some name, false => .command (.call name (arg :: args) options)
    | _, true =>
      match shape arg with
      | .plain => .misuse
      | .separator =>
        match name, args with
        | some name, operands => .command (.call name operands options)
        | none, name :: operands => .command (.call name operands options)
        | none, [] => .misuse
      | .short letters => (readSwitches false letters).getD (readCall name options args)
      | .long "verbose" none => readCall name options args
      | .long "help" none => .help
      | .long "trace" none =>
        if options.trace then .misuse else readCall name { options with trace := true } args
      | .long "fatal-on-zero" (some value) =>
        match options.withExitCode? value with
        | none => .misuse
        | some options => readCall name options args
      | .long "fatal-on-zero" none =>
        match args with
        | [] => .misuse
        | value :: args =>
          if shape value = .plain ∨ (name.isSome ∧ isCallOption value = false) then
            match options.withExitCode? value with
            | none => .misuse
            | some options => readCall name options args
          else .misuse
      | .long _ _ => .misuse

/-- Reads what follows the word `help`: nothing, or one of the commands. -/
def readHelp : List String → Invocation
  | [] => .help
  | [topic] => if ["list", "call", "help"].contains topic then .help else .misuse
  | _ => .misuse

/-- What the arguments ask for. -/
def Invocation.read : List String → Invocation
  | [] => misuse
  | arg :: args =>
    match shape arg with
    | .plain =>
      match arg with
      | "list" => readList none false args
      | "call" => readCall none {} args
      | "help" => readHelp args
      | _ => misuse
    | .separator => misuse
    | .short letters => (readSwitches true letters).getD (read args)
    | .long "verbose" none => read args
    | .long "help" none => help
    | .long "version" none => version
    | .long _ _ => misuse

end WidthExact.CommandLine
