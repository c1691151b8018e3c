import WidthExact.Evaluator.Program
import WidthExact.Proofs.Catalogue.Agreement

/-!
# Sessions refine single calls

A program runs on one evaluator, which keeps a counter. Seen from outside, the counter is all that a
step leaves behind: every answer is that of a call on its own, with the operands read from the
answers before it.

`standalone?` gives the outcomes of a program without any evaluator. `Session.Tracks` is the invariant
of a run: the answers so far have these outcomes, and the evaluator is the first one with the number
of results in its counter.

## Main results

* `Session.Tracks.step` — one step keeps the invariant.
* `Session.Tracks.run` — a whole run keeps it.
* `Evaluator.run_eq_standalone?`, `Evaluator.run_calls` — the outcomes of a program, and that every
  sequence of calls is run to its end.
* `session_refines_calls` — the run of a program, step by step, and as a composition of functions of
  the catalogue.
-/

namespace WidthExact

/-! ## Programs without an evaluator -/

/-- The scalar that an operand stands for after the given outcomes, if the step that it refers to had
a result. -/
def Argument.valueIn? (history : List Outcome) : Argument → Option Scalar
  | literal value => some value
  | result step => (history[step]?).bind Outcome.value?

/-- The outcomes of further steps, each called on its own, behind the given ones. `none` if an operand
refers to no result. -/
def outcomesFrom? (outcomes : List Outcome) : List Step → Option (List Outcome)
  | [] => some outcomes
  | step :: steps =>
    (step.args.mapM (Argument.valueIn? outcomes)).bind fun args =>
      outcomesFrom? (outcomes ++ [call step.name args]) steps

/-- The outcomes of a program whose steps are called each on its own. `none` if an operand refers to no
result. -/
def standalone? (steps : List Step) : Option (List Outcome) := outcomesFrom? [] steps

/-- The number of results among outcomes. -/
def resultCount (outcomes : List Outcome) : Nat :=
  outcomes.countP fun outcome => outcome.value?.isSome

theorem resultCount_le_length (outcomes : List Outcome) :
    resultCount outcomes ≤ outcomes.length :=
  List.countP_le_length

theorem resultCount_snoc (outcomes : List Outcome) (outcome : Outcome) :
    resultCount (outcomes ++ [outcome]) =
      resultCount outcomes + if outcome.value?.isSome then 1 else 0 := by
  rw [resultCount, List.countP_append, List.countP_singleton]
  rfl

/-- Steps add one outcome each and change none of those before. -/
theorem outcomesFrom?_extends :
    ∀ (steps : List Step) (outcomes : List Outcome) {outcomes' : List Outcome},
      outcomesFrom? outcomes steps = some outcomes' →
        ∃ rest, outcomes' = outcomes ++ rest ∧ rest.length = steps.length := by
  intro steps
  induction steps with
  | nil =>
      intro outcomes outcomes' hRun
      exact ⟨[], by rw [List.append_nil, Option.some.inj hRun], rfl⟩
  | cons step steps ih =>
      intro outcomes outcomes' hRun
      obtain ⟨args, -, hRest⟩ := Option.bind_eq_some_iff.mp hRun
      obtain ⟨rest, hOutcomes, hLength⟩ := ih _ hRest
      refine ⟨call step.name args :: rest, ?_, ?_⟩
      · rw [hOutcomes, List.append_assoc, List.singleton_append]
      · rw [List.length_cons, List.length_cons, hLength]

theorem outcomesFrom?_append (first second : List Step) :
    ∀ outcomes, outcomesFrom? outcomes (first ++ second) =
      (outcomesFrom? outcomes first).bind (outcomesFrom? · second) := by
  induction first with
  | nil =>
      intro outcomes
      rfl
  | cons step first ih =>
      intro outcomes
      rw [List.cons_append, outcomesFrom?, outcomesFrom?, Option.bind_assoc]
      congr 1
      funext args
      exact ih _

variable {steps : List Step} {outcomes : List Outcome}

theorem length_of_standalone? (h : standalone? steps = some outcomes) :
    outcomes.length = steps.length := by
  obtain ⟨rest, hOutcomes, hLength⟩ := outcomesFrom?_extends steps [] h
  rw [hOutcomes, List.nil_append, hLength]

/-- The beginning of a program has the beginning of the outcomes. -/
theorem standalone?_take (h : standalone? steps = some outcomes) (k : Nat) :
    standalone? (steps.take k) = some (outcomes.take k) := by
  have hSplit := h
  rw [← List.take_append_drop k steps, standalone?, outcomesFrom?_append] at hSplit
  obtain ⟨before, hBefore, hAfter⟩ := Option.bind_eq_some_iff.mp hSplit
  obtain ⟨rest, hOutcomes, hRest⟩ := outcomesFrom?_extends _ _ hAfter
  have hLength : before.length = min k steps.length := by
    rw [length_of_standalone? hBefore, List.length_take]
  rw [standalone?, hBefore, hOutcomes]
  by_cases hk : k ≤ steps.length
  · rw [List.take_append_of_le_length (by omega), List.take_of_length_le (by omega)]
  · have hNil : rest = [] := List.eq_nil_of_length_eq_zero (by rw [hRest, List.length_drop]; omega)
    rw [hNil, List.append_nil, List.take_of_length_le (by omega)]

/-- The outcome of a step is that of a call on its operands, which are read from the outcomes before. -/
theorem standalone?_getElem? (h : standalone? steps = some outcomes) {k : Nat} {step : Step}
    (hStep : steps[k]? = some step) :
    ∃ args, step.args.mapM (Argument.valueIn? (outcomes.take k)) = some args ∧
      outcomes[k]? = some (call step.name args) := by
  have hLength := length_of_standalone? h
  have hLt : k < steps.length := (List.getElem?_eq_some_iff.mp hStep).choose
  have hNext := standalone?_take h (k + 1)
  rw [List.take_add_one, hStep, standalone?, outcomesFrom?_append] at hNext
  obtain ⟨before, hBefore, hLast⟩ := Option.bind_eq_some_iff.mp hNext
  obtain rfl : outcomes.take k = before := Option.some.inj ((standalone?_take h k).symm.trans hBefore)
  obtain ⟨args, hArgs, hLast⟩ := Option.bind_eq_some_iff.mp hLast
  refine ⟨args, hArgs, ?_⟩
  have hTake := Option.some.inj hLast
  have hHere := congrArg (·[k]?) hTake
  have hBeforeLength : (outcomes.take k).length = k := by
    rw [List.length_take]
    omega
  simp only [List.getElem?_take_of_succ] at hHere
  rw [← hHere, List.getElem?_append_right (by omega), hBeforeLength, Nat.sub_self]
  rfl

/-! ## One call on an evaluator -/

namespace Evaluator

/-- Under the policy of refusal an evaluator answers as a new one does, and counts the results. -/
theorem apply_eq_of_policy {e : Evaluator} (hPolicy : e.policy = .error) (p : Primitive)
    (args : List Scalar) :
    e.apply p args =
      (p.apply args, if (p.apply args).value?.isSome then e.counted else e) := by
  simp only [Primitive.apply, apply]
  cases p.checkOperands args with
  | error error => rfl
  | ok =>
      by_cases hGuard : (p.isDivision && hasZeroDivisor args) = true
      · simp [hGuard, hPolicy, ZeroDivisionPolicy.onZeroDivisor, Outcome.value?]
      · simp only [hGuard, Bool.false_eq_true, if_false]
        cases p.dispatch args <;> rfl

theorem call_eq_of_policy {e : Evaluator} (hPolicy : e.policy = .error) (name : String)
    (args : List Scalar) :
    e.call name args =
      (WidthExact.call name args,
        if (WidthExact.call name args).value?.isSome then e.counted else e) := by
  rcases call_cases name with ⟨p, -, hCall⟩ | ⟨-, hCall⟩
  · rw [WidthExact.call, hCall, hCall]
    exact apply_eq_of_policy hPolicy p args
  · rw [WidthExact.call, hCall, hCall]
    rfl

end Evaluator

/-- A call on its own never ends the run of a program. -/
theorem continues_call (name : String) (args : List Scalar) :
    (call name args).continues = true := by
  rcases Evaluator.call_cases name with ⟨p, -, hCall⟩ | ⟨-, hCall⟩
  · rw [call, hCall]
    rcases ({} : Evaluator).apply_cases p args with
      ⟨error, -, hApply⟩ | ⟨-, -, hApply⟩ | ⟨_, _, -, -, -, hApply⟩ <;> rw [hApply] <;> rfl
  · rw [call, hCall]
    rfl

/-! ## The invariant -/

/-- A counter that has counted `n` times and counts once more has counted `n + 1` times. -/
theorem Word.add_ofUnsigned_succ (calls : Word .w64) (n : Nat) :
    (calls.add (Word.ofUnsigned n)).add Word.one = calls.add (Word.ofUnsigned (n + 1)) := by
  simp only [Word.add, Word.one, Word.ofUnsigned, BitVec.ofNat_add, BitVec.add_assoc]

/-- The operands of a step are the same scalars, read from answers or from their outcomes. -/
theorem Argument.resolve?_eq_valueIn? (history : List Answer) (arg : Argument) :
    arg.resolve? history = arg.valueIn? (history.map Answer.outcome) := by
  cases arg with
  | literal value => rfl
  | result step =>
      rw [resolve?, valueIn?, List.getElem?_map]
      cases history[step]? <;> rfl

namespace Session

/-- A session that began with evaluator `e` and has the given outcomes behind it. -/
structure Tracks (e : Evaluator) (outcomes : List Outcome) (s : Session) : Prop where
  outcomes_eq : s.answers.map Answer.outcome = outcomes
  evaluator_eq : s.evaluator =
    { e with calls := e.calls.add (Word.ofUnsigned (resultCount outcomes)) }
  continues : s.continues = true

variable {e : Evaluator} {outcomes : List Outcome} {s : Session}

theorem Tracks.start (e : Evaluator) : Tracks e [] ⟨e, []⟩ where
  outcomes_eq := rfl
  evaluator_eq := by
    have hCalls : e.calls.add (Word.ofUnsigned 0) = e.calls := BitVec.add_zero _
    exact congrArg (fun calls => { e with calls }) hCalls.symm
  continues := rfl

theorem Tracks.args_eq (h : Tracks e outcomes s) (args : List Argument) :
    args.mapM (Argument.resolve? s.answers) = args.mapM (Argument.valueIn? outcomes) := by
  have hArg : Argument.resolve? s.answers = Argument.valueIn? outcomes := by
    funext arg
    rw [Argument.resolve?_eq_valueIn?, h.outcomes_eq]
  rw [hArg]

/-- The counter of an evaluator that was new is the number of results so far. -/
theorem Tracks.calls_eq (h : Tracks e outcomes s) (hCalls : e.calls = Word.zero)
    (hLength : outcomes.length < twoPow 64) :
    s.evaluator.calls.unsigned = resultCount outcomes := by
  have hLe := resultCount_le_length outcomes
  have hZero : Word.zero.add (Word.ofUnsigned (resultCount outcomes)) =
      (Word.ofUnsigned (resultCount outcomes) : Word .w64) := BitVec.zero_add _
  rw [h.evaluator_eq, hCalls, hZero]
  show resultCount outcomes % twoPow 64 = resultCount outcomes
  exact Nat.mod_eq_of_lt (Nat.lt_of_le_of_lt hLe hLength)

/-- **One step.** Its answer is that of a call on its own, with the counter behind it; only the
counter moves, and that only if there is a result. -/
theorem Tracks.step (h : Tracks e outcomes s) (hPolicy : e.policy = .error) {step : Step}
    {args : List Scalar} (hArgs : step.args.mapM (Argument.valueIn? outcomes) = some args) :
    ∃ s', s.step step = some s' ∧ Tracks e (outcomes ++ [call step.name args]) s' ∧
      s'.answers = s.answers ++ [⟨call step.name args, s'.evaluator.calls.unsigned⟩] ∧
      ((call step.name args).value? = none → s'.evaluator = s.evaluator) := by
  have hPolicy' : s.evaluator.policy = .error := by
    rw [h.evaluator_eq]
    exact hPolicy
  have hCall := s.evaluator.call_eq_of_policy hPolicy' step.name args
  let outcome := call step.name args
  let evaluator := if outcome.value?.isSome then s.evaluator.counted else s.evaluator
  let after : Session := ⟨evaluator, s.answers ++ [⟨outcome, evaluator.calls.unsigned⟩]⟩
  have hStep : s.step step = some after := by
    rw [Session.step, if_pos h.continues, h.args_eq, hArgs, Option.map_some, hCall]
  have hTracks : Tracks e (outcomes ++ [outcome]) after :=
    { outcomes_eq := by
        show (s.answers ++ [_]).map Answer.outcome = _
        rw [List.map_append, h.outcomes_eq, List.map_singleton]
      evaluator_eq := by
        show evaluator = _
        rw [resultCount_snoc]
        by_cases hValue : outcome.value?.isSome
        · simp only [evaluator, hValue, if_true]
          rw [Evaluator.counted, h.evaluator_eq, Word.add_ofUnsigned_succ]
        · simp only [evaluator, hValue]
          exact h.evaluator_eq
      continues := by
        show (s.answers ++ [_]).all _ = true
        rw [List.all_append, Bool.and_eq_true]
        refine ⟨h.continues, ?_⟩
        rw [List.all_cons, List.all_nil, Bool.and_true]
        exact continues_call step.name args }
  refine ⟨after, hStep, hTracks, rfl, fun hNone => ?_⟩
  show evaluator = _
  simp only [evaluator, outcome, hNone, Option.isSome_none, Bool.false_eq_true, if_false]

/-- **A whole run.** A program whose operands all refer to results keeps the invariant from its first
step to its last. -/
theorem Tracks.run (hPolicy : e.policy = .error) (steps : List Step) :
    ∀ {outcomes outcomes' : List Outcome} {s : Session}, Tracks e outcomes s →
      outcomesFrom? outcomes steps = some outcomes' →
        ∃ s', s.run steps = some s' ∧ Tracks e outcomes' s' := by
  induction steps with
  | nil =>
      intro outcomes outcomes' s hTracks hOutcomes
      cases hOutcomes
      exact ⟨s, rfl, hTracks⟩
  | cons step steps ih =>
      intro outcomes outcomes' s hTracks hOutcomes
      obtain ⟨args, hArgs, hRest⟩ := Option.bind_eq_some_iff.mp hOutcomes
      obtain ⟨after, hStep, hAfter, -⟩ := hTracks.step hPolicy hArgs
      obtain ⟨s', hRun, hTracks'⟩ := ih hAfter hRest
      refine ⟨s', ?_, hTracks'⟩
      rw [Session.run, hStep, Option.bind_some, hRun]

/-- A program with an operand that refers to no result does not run to its end. -/
theorem Tracks.run_eq_none (hPolicy : e.policy = .error) (steps : List Step) :
    ∀ {outcomes : List Outcome} {s : Session}, Tracks e outcomes s →
      outcomesFrom? outcomes steps = none → s.run steps = none := by
  induction steps with
  | nil =>
      intro outcomes s _ hOutcomes
      cases hOutcomes
  | cons step steps ih =>
      intro outcomes s hTracks hOutcomes
      cases hArgs : step.args.mapM (Argument.valueIn? outcomes) with
      | none =>
          rw [Session.run, Session.step, if_pos hTracks.continues, hTracks.args_eq, hArgs]
          rfl
      | some args =>
          rw [outcomesFrom?, hArgs, Option.bind_some] at hOutcomes
          obtain ⟨after, hStep, hAfter, -⟩ := hTracks.step hPolicy hArgs
          rw [Session.run, hStep, Option.bind_some]
          exact ih hAfter hOutcomes

end Session

/-- **A program runs as its calls do on their own**, whatever its length and the evaluator that it
runs on, and to its end exactly if its operands refer to results. -/
theorem Evaluator.run_eq_standalone? {e : Evaluator} (hPolicy : e.policy = .error)
    (steps : List Step) : (e.run steps).map (List.map Answer.outcome) = standalone? steps := by
  have hStart := Session.Tracks.start e
  cases hOutcomes : standalone? steps with
  | none =>
      have hRun := hStart.run_eq_none hPolicy steps hOutcomes
      exact congrArg (fun s => (s.map Session.answers).map (List.map Answer.outcome)) hRun
  | some outcomes =>
      obtain ⟨s, hRun, hTracks⟩ := hStart.run hPolicy steps hOutcomes
      rw [← hTracks.outcomes_eq]
      exact congrArg (fun s => (s.map Session.answers).map (List.map Answer.outcome)) hRun

/-! ## Sequences of calls -/

/-- A call as a step: its operands are given, and refer to no other step. -/
def Step.ofCall (name : String) (args : List Scalar) : Step := ⟨name, args.map .literal⟩

theorem mapM_valueIn?_literals (history : List Outcome) (args : List Scalar) :
    (args.map Argument.literal).mapM (Argument.valueIn? history) = some args := by
  induction args with
  | nil => rfl
  | cons value args ih =>
      rw [List.map_cons, List.mapM_cons, ih]
      rfl

/-- Calls that refer to nothing have their outcomes, in order. -/
theorem outcomesFrom?_calls (calls : List (String × List Scalar)) :
    ∀ outcomes, outcomesFrom? outcomes (calls.map fun c => .ofCall c.1 c.2) =
      some (outcomes ++ calls.map fun c => call c.1 c.2) := by
  induction calls with
  | nil =>
      intro outcomes
      exact congrArg some (List.append_nil outcomes).symm
  | cons first calls ih =>
      intro outcomes
      rw [List.map_cons, outcomesFrom?, Step.ofCall, mapM_valueIn?_literals, Option.bind_some, ih,
        List.append_assoc, List.singleton_append, List.map_cons]

/-- **Every sequence of calls runs to its end**, and is answered call by call. -/
theorem Evaluator.run_calls {e : Evaluator} (hPolicy : e.policy = .error)
    (calls : List (String × List Scalar)) :
    ∃ answers, e.run (calls.map fun c => .ofCall c.1 c.2) = some answers ∧
      answers.map Answer.outcome = calls.map fun c => WidthExact.call c.1 c.2 := by
  have hRun := run_eq_standalone? hPolicy (calls.map fun c => .ofCall c.1 c.2)
  rw [standalone?, outcomesFrom?_calls, List.nil_append] at hRun
  exact Option.map_eq_some_iff.mp hRun

/-! ## Composition of functions of the catalogue -/

/-- The scalar that an operand stands for after the given values. -/
def Argument.valueOf? (values : List Scalar) : Argument → Option Scalar
  | literal value => some value
  | result step => values[step]?

namespace Catalogue

/-- The values of further functions of the catalogue, each on operands from the values before. -/
def composeFrom? (values : List Scalar) : List Step → Option (List Scalar)
  | [] => some values
  | step :: steps =>
    (step.args.mapM (Argument.valueOf? values)).bind fun args =>
      (evaluate? step.name args).bind fun value => composeFrom? (values ++ [value]) steps

/-- The values of the functions of the catalogue that a program names, composed as it says. `none` if
one of them has no value. -/
def compose? (steps : List Step) : Option (List Scalar) := composeFrom? [] steps

end Catalogue

theorem Argument.valueIn?_results (values : List Scalar) (arg : Argument) :
    arg.valueIn? (values.map Outcome.result) = arg.valueOf? values := by
  cases arg with
  | literal value => rfl
  | result step =>
      rw [valueIn?, valueOf?, List.getElem?_map]
      cases values[step]? <;> rfl

/-- Functions of the catalogue compose as the calls of their names do. -/
theorem composeFrom?_eq_some (steps : List Step) :
    ∀ {values values' : List Scalar},
      outcomesFrom? (values.map Outcome.result) steps = some (values'.map Outcome.result) →
        Catalogue.composeFrom? values steps = some values' := by
  induction steps with
  | nil =>
      intro values values' hOutcomes
      have hInjective : Function.Injective Outcome.result := fun _ _ h => Outcome.result.inj h
      rw [hInjective.list_map (Option.some.inj hOutcomes)]
      rfl
  | cons step steps ih =>
      intro values values' hOutcomes
      obtain ⟨args, hArgs, hRest⟩ := Option.bind_eq_some_iff.mp hOutcomes
      have hArgs' : step.args.mapM (Argument.valueOf? values) = some args := by
        rw [← hArgs]
        congr 1
        funext arg
        rw [Argument.valueIn?_results]
      -- The call was a result, since all outcomes in the end are.
      obtain ⟨rest, hEnd, -⟩ := outcomesFrom?_extends _ _ hRest
      have hMem : call step.name args ∈ values'.map Outcome.result := by
        rw [hEnd]
        simp
      obtain ⟨value, -, hValue⟩ := List.mem_map.mp hMem
      have hEvaluate := evaluate?_eq_some_iff.mpr hValue.symm
      have hSnoc : values.map Outcome.result ++ [call step.name args] =
          (values ++ [value]).map Outcome.result := by
        rw [List.map_append, List.map_singleton, hValue]
      rw [hSnoc] at hRest
      rw [Catalogue.composeFrom?, hArgs', Option.bind_some, hEvaluate, Option.bind_some]
      exact ih hRest

/-! ## Bit patterns through a session -/

theorem call_fromBits (f : FloatWidth) (n : Word f.patternWidth) :
    call (Primitive.fromBits f).name [.int f.patternWidth n] =
      .result (.float f (Binary.ofBits n)) := by
  rw [call, Evaluator.call_name]
  exact congrArg Prod.fst (Evaluator.apply_of_run _ (.fromBits f) (n, ()) rfl)

theorem call_toBits (f : FloatWidth) (x : Binary f) :
    call (Primitive.toBits f).name [.float f x] = .result (.int f.patternWidth x.toBits) := by
  rw [call, Evaluator.call_name]
  exact congrArg Prod.fst (Evaluator.apply_of_run _ (.toBits f) (x, ()) rfl)

theorem mapM_valueIn?_singleton {outcomes : List Outcome} {arg : Argument} {value : Scalar}
    (h : arg.valueIn? outcomes = some value) :
    [arg].mapM (Argument.valueIn? outcomes) = some [value] := by
  simp [List.mapM_cons, h]

/-- A pattern that becomes a floating-point value, which a later step takes apart again, is the same
pattern then, also where it denotes no number. -/
theorem pattern_kept {steps : List Step} {outcomes : List Outcome}
    (h : standalone? steps = some outcomes) {f : FloatWidth} {n : Word f.patternWidth}
    {source target : Nat} {arg : Argument}
    (hFrom : steps[source]? = some ⟨(Primitive.fromBits f).name, [arg]⟩)
    (hPattern : arg.valueIn? (outcomes.take source) = some (.int f.patternWidth n))
    (hTo : steps[target]? = some ⟨(Primitive.toBits f).name, [.result source]⟩) :
    outcomes[target]? = some (.result (.int f.patternWidth n)) := by
  obtain ⟨args, hArgs, hSource⟩ := standalone?_getElem? h hFrom
  rw [mapM_valueIn?_singleton hPattern] at hArgs
  rw [← Option.some.inj hArgs, call_fromBits] at hSource
  obtain ⟨args', hArgs', hTarget⟩ := standalone?_getElem? h hTo
  -- The operand can be read at all only if the source comes before the target.
  have hBefore : source < target := by
    by_contra hNot
    have hNone : (outcomes.take target)[source]? = none := by
      rw [List.getElem?_eq_none_iff, List.length_take]
      omega
    simp [List.mapM_cons, Argument.valueIn?, hNone] at hArgs'
  have hValue : (Argument.result source).valueIn? (outcomes.take target) =
      some (.float f (Binary.ofBits n)) := by
    rw [Argument.valueIn?, List.getElem?_take_of_lt hBefore, hSource]
    rfl
  rw [mapM_valueIn?_singleton hValue] at hArgs'
  rw [hTarget, ← Option.some.inj hArgs', call_toBits, Binary.toBits_ofBits]

/-! ## Refinement -/

namespace Session

/-- A session on a new evaluator under the policy of refusal. -/
def start (traceCalls : Bool) : Session := ⟨{ policy := .error, traceCalls }, []⟩

end Session

/-- **A session refines single calls.** A program of fewer than 2⁶⁴ steps runs on one evaluator,
traced or not, to the outcomes that its calls have on their own; it does not run to its end only
if an operand refers to no result. Behind any number of its steps the counter is the number of
results. Each step answers as a call on its own operands does, and without a result it leaves the
evaluator as it was. If all steps have results, these are the values of the composed functions of
the catalogue; and the pattern of a value that comes from `from_bits` is the same when `to_bits`
takes it. -/
theorem session_refines_calls (traceCalls : Bool) {steps : List Step}
    (hLength : steps.length < twoPow 64) :
    (Evaluator.run { policy := .error, traceCalls } steps).map (List.map Answer.outcome) =
      standalone? steps ∧
    ∀ outcomes, standalone? steps = some outcomes →
      (∀ k, ∃ s, (Session.start traceCalls).run (steps.take k) = some s ∧
        s.answers.map Answer.outcome = outcomes.take k ∧
        s.evaluator.calls.unsigned = resultCount (outcomes.take k)) ∧
      (∀ k step, steps[k]? = some step → ∃ before args after,
        (Session.start traceCalls).run (steps.take k) = some before ∧
        step.args.mapM (Argument.resolve? before.answers) = some args ∧
        before.step step = some after ∧
        after.answers = before.answers ++
          [⟨call step.name args, resultCount (outcomes.take (k + 1))⟩] ∧
        ((call step.name args).value? = none → after.evaluator = before.evaluator)) ∧
      (∀ values, outcomes = values.map Outcome.result → Catalogue.compose? steps = some values) ∧
      ∀ (f : FloatWidth) (n : Word f.patternWidth) (source target : Nat) (arg : Argument),
        steps[source]? = some ⟨(Primitive.fromBits f).name, [arg]⟩ →
        arg.valueIn? (outcomes.take source) = some (.int f.patternWidth n) →
        steps[target]? = some ⟨(Primitive.toBits f).name, [.result source]⟩ →
          outcomes[target]? = some (.result (.int f.patternWidth n)) := by
  have hStart : Session.Tracks { policy := .error, traceCalls } [] (Session.start traceCalls) :=
    .start _
  refine ⟨Evaluator.run_eq_standalone? rfl steps, fun outcomes hOutcomes => ?_⟩
  have hOutcomesLength := length_of_standalone? hOutcomes
  have hPrefix : ∀ k, ∃ s, (Session.start traceCalls).run (steps.take k) = some s ∧
      Session.Tracks { policy := .error, traceCalls } (outcomes.take k) s := by
    intro k
    exact hStart.run rfl (steps.take k) (standalone?_take hOutcomes k)
  refine ⟨?_, ?_, ?_, ?_⟩
  · intro k
    obtain ⟨s, hRun, hTracks⟩ := hPrefix k
    refine ⟨s, hRun, hTracks.outcomes_eq, hTracks.calls_eq rfl ?_⟩
    rw [List.length_take]
    omega
  · intro k step hStep
    obtain ⟨before, hRun, hTracks⟩ := hPrefix k
    obtain ⟨args, hArgs, hOutcome⟩ := standalone?_getElem? hOutcomes hStep
    obtain ⟨after, hAfter, hNext, hAnswers, hFrame⟩ := hTracks.step rfl hArgs
    have hOutcomes' : outcomes.take (k + 1) = outcomes.take k ++ [call step.name args] := by
      rw [List.take_add_one, hOutcome]
      rfl
    rw [← hOutcomes'] at hNext
    rw [hNext.calls_eq rfl (by rw [List.length_take]; omega)] at hAnswers
    exact ⟨before, args, after, hRun, (hTracks.args_eq step.args).trans hArgs, hAfter, hAnswers,
      hFrame⟩
  · intro values hValues
    rw [hValues] at hOutcomes
    exact composeFrom?_eq_some steps hOutcomes
  · intro f n source target arg hFrom hPattern hTo
    exact pattern_kept hOutcomes hFrom hPattern hTo

/-- A signalling NaN comes back from `to_bits32` with its payload, behind a step that is refused. -/
theorem session_refines_calls_payload :
    (Evaluator.run { policy := .error, traceCalls := true }
        [⟨"from_bits32", [.literal (.int .w32 0x7fa00001#32)]⟩,
          ⟨"sdiv8", [.literal (.int .w8 Word.one), .literal (.int .w8 Word.zero)]⟩,
          ⟨"to_bits32", [.result 0]⟩]).map (List.map Answer.outcome) =
      some [.result (.float .f32 (Binary.ofBits 0x7fa00001#32)),
        .refused (.divisionByZero "sdiv8"), .result (.int .w32 0x7fa00001#32)] := by
  rw [(session_refines_calls true (by decide)).1]
  rfl

end WidthExact
