import WidthExact.Evaluator.Basic

/-!
# Straight-line programs

A program is a list of calls on one evaluator. An operand is a scalar or the result of an earlier
call. The answer to each call is what it came to, with the number of results so far; the end of the
process and a trap end the program.
-/

namespace WidthExact

/-- An operand of a step. -/
inductive Argument where
  | literal (value : Scalar)
  /-- The result of the step with the given index. -/
  | result (step : Nat)
  deriving DecidableEq

/-- A call by name. -/
structure Step where
  name : String
  args : List Argument
  deriving DecidableEq

/-- What a step came to, and the number of results after it. -/
structure Answer where
  outcome : Outcome
  calls : Nat
  deriving DecidableEq

namespace Outcome

/-- The result, if there is one. -/
def value? : Outcome → Option Scalar
  | result value => some value
  | _ => none

/-- Whether further calls can follow. -/
def continues : Outcome → Bool
  | result _ => true
  | refused _ => true
  | ended _ => false
  | trapped _ => false

end Outcome

/-- The scalar that an operand stands for after the given answers, if the step that it refers to had a
result. -/
def Argument.resolve? (history : List Answer) : Argument → Option Scalar
  | literal value => some value
  | result step => (history[step]?).bind fun answer => answer.outcome.value?

/-- An evaluator with the answers that it has given. -/
structure Session where
  evaluator : Evaluator
  answers : List Answer := []
  deriving DecidableEq

namespace Session

/-- Whether further calls can follow. -/
def continues (s : Session) : Bool := s.answers.all fun answer => answer.outcome.continues

/-- The session after one more step; `none` if an operand refers to no result. Behind the end of the
process and behind a trap no step is run. -/
def step (s : Session) (step : Step) : Option Session :=
  if s.continues then
    (step.args.mapM (Argument.resolve? s.answers)).map fun args =>
      let (outcome, evaluator) := s.evaluator.call step.name args
      ⟨evaluator, s.answers ++ [⟨outcome, evaluator.calls.unsigned⟩]⟩
  else some s

/-- The session after more steps. -/
def run (s : Session) : List Step → Option Session
  | [] => some s
  | step :: steps => (s.step step).bind fun after => after.run steps

end Session

/-- Runs a program, and gives all answers; `none` if an operand refers to no result. -/
def Evaluator.run (e : Evaluator) (steps : List Step) : Option (List Answer) :=
  (Session.run ⟨e, []⟩ steps).map Session.answers

end WidthExact
