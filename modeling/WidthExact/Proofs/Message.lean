import WidthExact.Proofs.CommandLine.Call
import WidthExact.Proofs.Text.Quoted
import WidthExact.Proofs.Width

/-!
# Messages

A text that was not understood is told between double quotes, and can be read back from there. What
a message shows without quotes are words, numbers and the names of primitives and types, so it
stands on one line exactly if those names do. The names in the errors of an evaluator are those that
primitives and types really have, which makes its messages single lines whatever texts it was given.

## Main results

* `ParseError.message_injective` — a parse error is determined by its message.
* `CallError.oneLine_message_iff` — the messages on one line.
* `Evaluator.tellsOneLine_call`, `CommandLine.oneLine_diagnostic_iff` — all messages that are given.
* `diagnostics_quote` — how the texts that are refused are told.
-/

namespace WidthExact

open Text

/-! ## The characters of a message -/

namespace ParseError

@[simp] theorem toList_unknownWidth (text : String) :
    (unknownWidth text).message.toList = "Unknown width suffix: ".toList ++ (quote text).toList :=
  String.toList_append

@[simp] theorem toList_unsupportedBits (bits : Nat) :
    (unsupportedBits bits).message.toList = "Unsupported bit width: ".toList ++ decimal bits :=
  String.toList_append.trans (congrArg _ String.toList_ofList)

@[simp] theorem toList_unknownPrimitive (name : String) :
    (unknownPrimitive name).message.toList = "Unknown primitive: ".toList ++ (quote name).toList :=
  String.toList_append

@[simp] theorem toList_invalidLiteral (type text : String) :
    (invalidLiteral type text).message.toList =
      ("Invalid ".toList ++ type.toList ++ " literal: ".toList) ++ (quote text).toList := by
  have hMessage : (invalidLiteral type text).message =
      "Invalid " ++ type ++ " literal: " ++ quote text := rfl
  rw [hMessage]
  simp only [String.toList_append]

/-- **A parse error is determined by its message.** The kinds differ in their first words. The name
of a type may be anything, quotes included, and still the text behind it begins where it does. -/
theorem message_injective : Function.Injective message := by
  intro e e' hMessage
  have h := congrArg String.toList hMessage
  cases e with
  | unknownWidth text =>
      cases e' with
      | unknownWidth text' =>
          rw [toList_unknownWidth, toList_unknownWidth] at h
          exact congrArg unknownWidth (append_quote_cancel h)
      | _ => simp at h
  | unsupportedBits bits =>
      cases e' with
      | unsupportedBits bits' =>
          rw [toList_unsupportedBits, toList_unsupportedBits] at h
          have hValue := congrArg (Nat.ofDigitChars 10 · 0) (List.append_cancel_left h)
          simp only [ofDigitChars_decimal] at hValue
          exact congrArg unsupportedBits hValue
      | _ => simp at h
  | unknownPrimitive name =>
      cases e' with
      | unknownPrimitive name' =>
          rw [toList_unknownPrimitive, toList_unknownPrimitive] at h
          exact congrArg unknownPrimitive (append_quote_cancel h)
      | _ => simp at h
  | invalidLiteral type text =>
      cases e' with
      | invalidLiteral type' text' =>
          have hLast : ∀ name : String,
              ("Invalid ".toList ++ name.toList ++ " literal: ".toList).getLast? ≠ some '\\' := by
            intro name
            have hSpace : " literal: ".toList.getLast? = some ' ' := by decide
            rw [List.getLast?_append, hSpace]
            simp
          rw [toList_invalidLiteral, toList_invalidLiteral] at h
          obtain ⟨hLead, rfl⟩ := append_quote_inj (hLast type) (hLast type') h
          rw [List.append_left_inj, List.append_right_inj, String.toList_inj] at hLead
          rw [hLead]
      | _ => simp at h

end ParseError

namespace CallError

theorem toList_parse (error : ParseError) :
    (parse error).message.toList = "Parse error: ".toList ++ error.message.toList :=
  String.toList_append

theorem toList_arityMismatch (primitive : String) (expected found : Nat) :
    (arityMismatch primitive expected found).message.toList =
      primitive.toList ++ " expects ".toList ++ decimal expected ++ " operand(s), got ".toList ++
        decimal found := by
  have hMessage : (arityMismatch primitive expected found).message =
      primitive ++ " expects " ++ String.ofList (decimal expected) ++ " operand(s), got " ++
        String.ofList (decimal found) := rfl
  rw [hMessage]
  simp only [String.toList_append, String.toList_ofList]

theorem toList_typeMismatch (primitive : String) (index : Nat) (expected found : ScalarType) :
    (typeMismatch primitive index expected found).message.toList =
      primitive.toList ++ " operand ".toList ++ decimal index ++ ": expected ".toList ++
        expected.text.toList ++ ", got ".toList ++ found.text.toList := by
  have hMessage : (typeMismatch primitive index expected found).message =
      primitive ++ " operand " ++ String.ofList (decimal index) ++ ": expected " ++
        expected.text ++ ", got " ++ found.text := rfl
  rw [hMessage]
  simp only [String.toList_append, String.toList_ofList]

theorem toList_divisionByZero (primitive : String) :
    (divisionByZero primitive).message.toList = "Division by zero in ".toList ++ primitive.toList :=
  String.toList_append

end CallError

/-! ## One line -/

theorem Primitive.oneLine_name (p : Primitive) : OneLine p.name.toList := by
  have hAll : ∀ q ∈ all, OneLine q.spelling := by decide +kernel
  rw [p.toList_name]
  exact hAll p p.mem_all

theorem ScalarType.oneLine_text (type : ScalarType) : OneLine type.text.toList := by
  rcases type with _ | (_ | _ | _ | _) | (_ | _) <;> decide

/-- The name of a type, which the message shows without quotes, stands on one line. -/
def ParseError.NamesOneLine : ParseError → Prop
  | invalidLiteral type _ => OneLine type.toList
  | _ => True

/-- The name of a primitive or of a type, which the message shows without quotes, stands on one
line. -/
def CallError.NamesOneLine : CallError → Prop
  | parse error => error.NamesOneLine
  | arityMismatch primitive _ _ => OneLine primitive.toList
  | typeMismatch primitive _ _ _ => OneLine primitive.toList
  | divisionByZero primitive => OneLine primitive.toList

theorem ParseError.oneLine_message_iff (error : ParseError) :
    OneLine error.message.toList ↔ error.NamesOneLine := by
  cases error with
  | unknownWidth text =>
      rw [toList_unknownWidth, oneLine_append]
      exact iff_of_true ⟨by decide, oneLine_quote text⟩ trivial
  | unsupportedBits bits =>
      rw [toList_unsupportedBits, oneLine_append]
      exact iff_of_true ⟨by decide, oneLine_decimal bits⟩ trivial
  | unknownPrimitive name =>
      rw [toList_unknownPrimitive, oneLine_append]
      exact iff_of_true ⟨by decide, oneLine_quote name⟩ trivial
  | invalidLiteral type text =>
      have hInvalid : OneLine "Invalid ".toList := by decide
      have hLiteral : OneLine " literal: ".toList := by decide
      simp only [toList_invalidLiteral, oneLine_append, hInvalid, hLiteral, oneLine_quote, true_and,
        and_true]
      rfl

/-- **The messages on one line** are those whose unquoted names are on one line. -/
theorem CallError.oneLine_message_iff (error : CallError) :
    OneLine error.message.toList ↔ error.NamesOneLine := by
  cases error with
  | parse error =>
      rw [toList_parse, oneLine_append, error.oneLine_message_iff]
      exact and_iff_right (by decide)
  | arityMismatch primitive expected found =>
      have hExpects : OneLine " expects ".toList := by decide
      have hGot : OneLine " operand(s), got ".toList := by decide
      simp only [toList_arityMismatch, oneLine_append, hExpects, hGot, oneLine_decimal, and_true]
      rfl
  | typeMismatch primitive index expected found =>
      have hOperand : OneLine " operand ".toList := by decide
      have hExpected : OneLine ": expected ".toList := by decide
      have hGot : OneLine ", got ".toList := by decide
      simp only [toList_typeMismatch, oneLine_append, hOperand, hExpected, hGot, oneLine_decimal,
        ScalarType.oneLine_text, and_true]
      rfl
  | divisionByZero primitive =>
      rw [toList_divisionByZero, oneLine_append]
      exact and_iff_right (by decide)

/-! ## The messages that are given -/

/-- What is told of an outcome, if anything is, stands on one line. -/
def Outcome.TellsOneLine : Outcome → Prop
  | refused error => OneLine error.message.toList
  | ended diagnostic => OneLine diagnostic.message.toList
  | _ => True

/-- A parse error is told on one line behind the words of a call error as well. -/
theorem CallError.oneLine_parse {error : ParseError} (h : error.NamesOneLine) :
    OneLine (parse error).message.toList :=
  (parse error).oneLine_message_iff.mpr h

theorem ZeroDivisionPolicy.tellsOneLine_onZeroDivisor (policy : ZeroDivisionPolicy)
    (p : Primitive) : (policy.onZeroDivisor p.name).TellsOneLine := by
  have hMessage := (CallError.divisionByZero p.name).oneLine_message_iff.mpr p.oneLine_name
  cases policy <;> exact hMessage

namespace Evaluator

variable (e : Evaluator)

/-- An application that is refused names its primitive, and a type at most. -/
theorem tellsOneLine_apply (p : Primitive) (args : List Scalar) :
    (e.apply p args).1.TellsOneLine := by
  rcases e.apply_cases p args with
    ⟨error, hCheck, hApply⟩ | ⟨-, -, hApply⟩ | ⟨_, _, -, -, -, hApply⟩
  · rw [hApply]
    refine error.oneLine_message_iff.mpr ?_
    rcases (p.checkOperands_eq_error_iff).mp hCheck with ⟨-, rfl⟩ | ⟨-, _, _, _, -, rfl⟩ <;>
      exact p.oneLine_name
  · rw [hApply]
    exact e.policy.tellsOneLine_onZeroDivisor p
  · rw [hApply]
    trivial

/-- **Every message of an evaluator is one line**, whatever the name that it was called with. -/
theorem tellsOneLine_call (name : String) (args : List Scalar) :
    (e.call name args).1.TellsOneLine := by
  rcases call_cases name with ⟨p, -, hCall⟩ | ⟨-, hCall⟩
  · rw [hCall]
    exact e.tellsOneLine_apply p args
  · rw [hCall]
    exact CallError.oneLine_parse trivial

end Evaluator

namespace CommandLine

theorem tellsOneLine_callLiterals (e : Evaluator) (name : String) (operands : List String) :
    (callLiterals e name operands).TellsOneLine := by
  unfold callLiterals
  cases hName : Primitive.parse name with
  | error error =>
      obtain ⟨rfl, -⟩ := Primitive.parse_eq_error_iff.mp hName
      exact CallError.oneLine_parse trivial
  | ok p =>
      by_cases hLen : operands.length = p.signature.arity
      · simp only [hLen, if_true]
        cases hRead : readLiterals p.signature.params operands with
        | error error =>
            obtain ⟨_, type, _, -, rfl⟩ := readLiterals_eq_error_iff.mp hRead
            exact CallError.oneLine_parse type.oneLine_text
        | ok args => exact e.tellsOneLine_apply p args
      · simp only [hLen, if_false]
        exact (CallError.arityMismatch _ _ _).oneLine_message_iff.mpr p.oneLine_name

theorem oneLine_render_iff (d : Diagnostic) (h : OneLine d.message.toList) (program : String) :
    OneLine (d.render program).toList ↔ OneLine program.toList := by
  have hColon : OneLine ": ".toList := by decide
  simp only [Diagnostic.render, String.toList_append, oneLine_append, hColon, h, and_true]

theorem oneLine_ofOutcome_iff {outcome : Outcome} (h : outcome.TellsOneLine) (program : String) :
    ∀ line ∈ (Response.ofOutcome program outcome).diagnostic,
      OneLine line.toList ↔ OneLine program.toList := by
  intro line hLine
  cases outcome with
  | result value => cases hLine
  | refused error =>
      cases hLine
      exact oneLine_render_iff (Diagnostic.ofCallError error) h program
  | ended d =>
      cases hLine
      exact oneLine_render_iff d h program
  | trapped trap => cases hLine

/-- **A diagnostic is one line exactly if the program's name is**, whatever the arguments. -/
theorem oneLine_diagnostic_iff (program : String) (args : List String) :
    ∀ line ∈ (respond args program).diagnostic, OneLine line.toList ↔ OneLine program.toList := by
  unfold respond
  cases Invocation.read args with
  | command c =>
      cases c with
      | list family json => exact nofun
      | call name operands options =>
          exact oneLine_ofOutcome_iff (tellsOneLine_callLiterals _ name operands) program
  | version => exact nofun
  | help => exact nofun
  | misuse => exact nofun

theorem oneLine_diagnostic (args : List String) :
    ∀ line ∈ (respond args).diagnostic, OneLine line.toList :=
  fun line hLine => (oneLine_diagnostic_iff programName args line hLine).mpr (by decide)

end CommandLine

/-! ## Texts that are refused -/

/-- A message quotes a text behind words. The words have no double quote, so the text stands between
the first one and the next that no backslash escapes, and there the message ends. The text is
written on one line, character by character, and is read back as it was. -/
structure Quotes (words text message : String) : Prop where
  unquoted : '"' ∉ words.toList
  quoted : ∃ written : List Char, message.toList = words.toList ++ '"' :: (written ++ ['"']) ∧
    untilQuote false (written ++ ['"']) = some (written, []) ∧ OneLine written ∧
      Escaped text.toList written ∧ decode written = some text.toList

/-- Whatever a reader refuses, it refuses for the same reason, and quotes behind the same words and
on one line. So no two texts that it refuses have the same message. -/
structure QuotesRefused {α : Type} (words : String) (reason : String → ParseError)
    (parse : String → Except ParseError α) : Prop where
  refused : ∀ text error, parse text = .error error → error = reason text
  quotes : ∀ text, Quotes words text (reason text).message
  oneLine : ∀ text, OneLine (CallError.parse (reason text)).message.toList
  distinct : ∀ text text' error error', parse text = .error error → parse text' = .error error' →
    error.message = error'.message → text = text'

/-- The words are followed by the quoted text, and by nothing else. -/
theorem QuotesRefused.of_quote {α : Type} {words : String} {reason : String → ParseError}
    {parse : String → Except ParseError α}
    (hRefused : ∀ text error, parse text = .error error → error = reason text)
    (hMessage : ∀ text, (reason text).message.toList = words.toList ++ (quote text).toList)
    (hUnquoted : '"' ∉ words.toList) (hNames : ∀ text, (reason text).NamesOneLine) :
    QuotesRefused words reason parse := by
  refine
    { refused := hRefused
      quotes := ?_
      oneLine := fun text => CallError.oneLine_parse (hNames text)
      distinct := ?_ }
  · intro text
    have hEscaped := escaped_encode text.toList
    refine ⟨hUnquoted, encode text.toList, ?_, hEscaped.untilQuote [], hEscaped.oneLine, hEscaped,
      hEscaped.decode⟩
    rw [hMessage, toList_quote]
  · intro text text' error error' hError hError' hSame
    have hChars := congrArg String.toList hSame
    rw [hRefused text error hError, hRefused text' error' hError', hMessage, hMessage] at hChars
    exact append_quote_cancel hChars

theorem ScalarType.unquoted_text (type : ScalarType) : '"' ∉ type.text.toList := by
  rcases type with _ | (_ | _ | _ | _) | (_ | _) <;> decide

theorem Primitive.quotesRefused_parse :
    QuotesRefused "Unknown primitive: " .unknownPrimitive parse :=
  .of_quote (fun _ _ hError => (parse_eq_error_iff.mp hError).1) ParseError.toList_unknownPrimitive
    (by decide) fun _ => trivial

theorem IsWidthNotation.quotesRefused_parse {W : Type} {letter : Char} {bits : W → Nat}
    {written : W → String} {ofBits? : Nat → Option W} {ofBits : Nat → Except ParseError W}
    {parse : String → Except ParseError W}
    (h : IsWidthNotation letter bits written ofBits? ofBits parse) :
    QuotesRefused "Unknown width suffix: " .unknownWidth parse :=
  .of_quote (fun text error hError => ((h.parse_eq_error_iff text error).mp hError).1)
    ParseError.toList_unknownWidth (by decide) fun _ => trivial

theorem Scalar.quotesRefused_parse (type : ScalarType) :
    QuotesRefused ("Invalid " ++ type.text ++ " literal: ") (.invalidLiteral type.text)
      (parse type) := by
  refine .of_quote (fun _ _ hError => (parse_eq_error_iff.mp hError).1) ?_ ?_
    fun _ => type.oneLine_text
  · intro text
    simp only [ParseError.toList_invalidLiteral, String.toList_append]
  · have hInvalid : '"' ∉ "Invalid ".toList := by decide
    have hLiteral : '"' ∉ " literal: ".toList := by decide
    simp only [String.toList_append, List.mem_append, hInvalid, type.unquoted_text, hLiteral,
      or_self, not_false_eq_true]

/-- **A text that is refused cannot be mistaken.** A name, a width or a literal, whatever its
characters, stands in the message between double quotes, blanks around it included, and can be read
back. No message of an evaluator and no diagnostic of the program has more than one line, but for
those in the name by which the program was started. Of all messages there are, those have one line
whose names do, and no two parse errors share one. -/
theorem diagnostics_quote :
    QuotesRefused "Unknown primitive: " .unknownPrimitive Primitive.parse ∧
    QuotesRefused "Unknown width suffix: " .unknownWidth IntWidth.parse ∧
    QuotesRefused "Unknown width suffix: " .unknownWidth FloatWidth.parse ∧
    (∀ type : ScalarType, QuotesRefused ("Invalid " ++ type.text ++ " literal: ")
      (.invalidLiteral type.text) (Scalar.parse type)) ∧
    (∀ (e : Evaluator) (name : String) (args : List Scalar), (e.call name args).1.TellsOneLine) ∧
    (∀ args : List String, ∀ line ∈ (CommandLine.respond args).diagnostic, OneLine line.toList) ∧
    (∀ (program : String) (args : List String),
      ∀ line ∈ (CommandLine.respond args program).diagnostic,
        OneLine line.toList ↔ OneLine program.toList) ∧
    (∀ error : CallError, OneLine error.message.toList ↔ error.NamesOneLine) ∧
    Function.Injective ParseError.message :=
  ⟨Primitive.quotesRefused_parse, IntWidth.isWidthNotation.quotesRefused_parse,
    FloatWidth.isWidthNotation.quotesRefused_parse, Scalar.quotesRefused_parse,
    Evaluator.tellsOneLine_call, CommandLine.oneLine_diagnostic, CommandLine.oneLine_diagnostic_iff,
    CallError.oneLine_message_iff, ParseError.message_injective⟩

/-- A name that would end its quotes and begin a diagnostic of its own; and a no-break space, which
is not told like the six characters of its escape. -/
theorem diagnostics_quote_forged :
    (CommandLine.respond ["call", "x\"\nscalar: y"]).diagnostic =
        some "scalar: Parse error: Unknown primitive: \"x\\\"\\nscalar: y\"" ∧
      OneLine "scalar: Parse error: Unknown primitive: \"x\\\"\\nscalar: y\"".toList ∧
      Scalar.parse .bool "\u00a0" = .error (.invalidLiteral "bool" "\u00a0") ∧
      Scalar.parse .bool "\\u\x7ba0\x7d" = .error (.invalidLiteral "bool" "\\u\x7ba0\x7d") ∧
      (ParseError.invalidLiteral "bool" "\u00a0").message ≠
        (ParseError.invalidLiteral "bool" "\\u\x7ba0\x7d").message := by
  obtain ⟨-, -, -, hLiteral, -, hDiagnostic, -⟩ := diagnostics_quote
  have hShown : (CommandLine.respond ["call", "x\"\nscalar: y"]).diagnostic =
      some "scalar: Parse error: Unknown primitive: \"x\\\"\\nscalar: y\"" := by decide +kernel
  have hSpace : Scalar.parse .bool "\u00a0" = .error (.invalidLiteral "bool" "\u00a0") := by
    decide +kernel
  have hEscape : Scalar.parse .bool "\\u\x7ba0\x7d" =
      .error (.invalidLiteral "bool" "\\u\x7ba0\x7d") := by decide +kernel
  refine ⟨hShown, hDiagnostic _ _ hShown, hSpace, hEscape, fun hSame => ?_⟩
  exact absurd ((hLiteral .bool).distinct _ _ _ _ hSpace hEscape hSame) (by decide)

end WidthExact
