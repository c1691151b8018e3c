import WidthExact.Proofs.Evaluator.Session
import WidthExact.Proofs.Word.Readings

/-!
# The fatal policy

Two evaluators that differ in nothing but the policy share every check, so they give the same answers
until a call has a zero divisor. There one of them refuses the call, and the other ends the process
with the text of that refusal. Behind that point only the first one goes on.

`Session.Parallel` is the invariant of the two runs, `untilZeroDivisor` what the second run makes of
the answers of the first.

Of the exit code the host keeps the low eight bits. So a code and its remainder by 256 are the same
status, a negative code is one between 0 and 255, and there are codes other than zero whose status is
zero.

## Main results

* `Diagnostic.statusOf_eq`, `Diagnostic.statusOf_eq_zero_iff` — the status that a code leaves behind.
* `Evaluator.call_ends` — the three ends of a call, for all evaluators at once.
* `Session.Parallel.step`, `Session.Parallel.run` — the two runs, step by step and as a whole.
* `fatal_policy` — the answers under the fatal policy, and the end of the process.
-/

namespace WidthExact

/-! ## The status of the process -/

namespace Diagnostic

/-- The host keeps an exit code modulo 256, whatever its sign. -/
theorem statusOf_eq (code : Word .w32) : statusOf code = (code.signed % 256).toNat := by
  have hUnsigned := code.unsigned_eq
  have hRange : (2 : Int) ^ IntWidth.w32.bits = 4294967296 := rfl
  unfold statusOf
  rw [hRange] at hUnsigned
  split at hUnsigned <;> omega

/-- The codes that the host takes for success. -/
theorem statusOf_eq_zero_iff (code : Word .w32) :
    statusOf code = 0 ↔ (256 : Int) ∣ code.signed := by
  rw [statusOf_eq]
  omega

end Diagnostic

/-! ## One call -/

namespace Evaluator

/-- The evaluator with another policy. -/
def withPolicy (e : Evaluator) (policy : ZeroDivisionPolicy) : Evaluator := { e with policy }

/-- **The three ends of a call**, one and the same for all evaluators: the call is malformed, the
divisor is zero, or there is a result. -/
theorem call_ends (name : String) (args : List Scalar) :
    (∃ error : CallError, error.isMalformed = true ∧
      ∀ e : Evaluator, e.call name args = (.refused error, e)) ∨
    (∃ p : Primitive, p.name = name ∧ args.map Scalar.type = p.signature.params ∧
      DividesByZero p args ∧
        ∀ e : Evaluator, e.call name args = (e.policy.onZeroDivisor name, e)) ∨
    ∃ value, ∀ e : Evaluator, e.call name args = (.result value, e.counted) := by
  rcases call_cases name with ⟨p, rfl, hCall⟩ | ⟨-, hCall⟩
  · cases hCheck : p.checkOperands args with
    | error error =>
        refine .inl ⟨error, ?_, fun e => by rw [hCall, apply, hCheck]⟩
        rcases (p.checkOperands_eq_error_iff).mp hCheck with ⟨-, rfl⟩ | ⟨-, _, _, _, -, rfl⟩ <;> rfl
    | ok =>
        have hTypes := (p.checkOperands_eq_ok_iff).mp hCheck
        by_cases hZero : DividesByZero p args
        · have hGuard := (dividesByZero_iff p args).mp hZero
          refine .inr (.inl ⟨p, rfl, hTypes, hZero, fun e => ?_⟩)
          rw [hCall]
          simp only [apply, hCheck, hGuard, if_true]
        · rcases ({} : Evaluator).apply_cases p args with
            ⟨error, hError, -⟩ | ⟨-, hZero', -⟩ | ⟨operands, value, rfl, -, hRun, -⟩
          · rw [hCheck] at hError
            cases hError
          · exact absurd hZero' hZero
          · exact .inr (.inr ⟨value, fun e => by rw [hCall, e.apply_of_run p operands hRun]⟩)
  · exact .inl ⟨.parse (.unknownPrimitive name), rfl, fun e => hCall e args⟩

/-- The fatal policy ends the process exactly on a zero divisor of a call that is right otherwise. -/
theorem call_fatal_eq_ended_iff {e : Evaluator} {code : Word .w32} (hPolicy : e.policy = .fatal code)
    {name : String} {args : List Scalar} {d : Diagnostic} :
    (e.call name args).1 = .ended d ↔
      ∃ p : Primitive, p.name = name ∧ args.map Scalar.type = p.signature.params ∧
        DividesByZero p args ∧ d = ⟨code, (CallError.divisionByZero name).message⟩ := by
  rcases call_cases name with ⟨p, rfl, hCall⟩ | ⟨hNames, hCall⟩
  · have hOwn : (∃ q : Primitive, q.name = p.name ∧ args.map Scalar.type = q.signature.params ∧
          DividesByZero q args ∧ d = ⟨code, (CallError.divisionByZero p.name).message⟩) ↔
        args.map Scalar.type = p.signature.params ∧ DividesByZero p args ∧
          d = ⟨code, (CallError.divisionByZero p.name).message⟩ := by
      constructor
      · rintro ⟨q, hName, h⟩
        rwa [Primitive.name_injective hName] at h
      · intro h
        exact ⟨p, rfl, h⟩
    rw [hOwn, hCall]
    rcases e.apply_cases p args with
      ⟨error, hCheck, hApply⟩ | ⟨hTypes, hZero, hApply⟩ | ⟨operands, _, rfl, hZero, -, hApply⟩
    · rw [← p.checkOperands_eq_ok_iff, hCheck, hApply]
      simp
    · simp [hApply, hPolicy, ZeroDivisionPolicy.onZeroDivisor, hTypes, hZero, eq_comm]
    · simp [hApply, hZero]
  · simp [hCall, hNames]

end Evaluator

/-! ## Two runs -/

/-- The end of the process that stands for the refusal of a zero divisor. -/
def zeroDivisorEnd (code : Word .w32) (primitive : String) : Diagnostic :=
  ⟨code, (CallError.divisionByZero primitive).message⟩

/-- Whether an answer is the refusal of a zero divisor. -/
def Answer.TellsZeroDivisor (a : Answer) : Prop :=
  ∃ primitive, a.outcome = .refused (.divisionByZero primitive)

/-- Answers up to the first refusal of a zero divisor, in whose place the process ends. -/
def untilZeroDivisor (code : Word .w32) : List Answer → List Answer
  | [] => []
  | ⟨.refused (.divisionByZero primitive), calls⟩ :: _ =>
    [⟨.ended (zeroDivisorEnd code primitive), calls⟩]
  | answer :: answers => answer :: untilZeroDivisor code answers

section

variable (code : Word .w32)

theorem untilZeroDivisor_cons {answer : Answer} (h : ¬ answer.TellsZeroDivisor)
    (answers : List Answer) :
    untilZeroDivisor code (answer :: answers) = answer :: untilZeroDivisor code answers := by
  rw [untilZeroDivisor]
  rintro primitive calls rfl
  exact h ⟨primitive, rfl⟩

/-- Without a zero divisor the answers are the same. -/
theorem untilZeroDivisor_eq_self {answers : List Answer}
    (h : ∀ answer ∈ answers, ¬ answer.TellsZeroDivisor) :
    untilZeroDivisor code answers = answers := by
  induction answers with
  | nil => rfl
  | cons answer answers ih =>
      rw [untilZeroDivisor_cons code (h answer List.mem_cons_self),
        ih fun a ha => h a (List.mem_cons_of_mem _ ha)]

/-- With one, they are the same before it. -/
theorem untilZeroDivisor_append {before : List Answer}
    (h : ∀ answer ∈ before, ¬ answer.TellsZeroDivisor) (primitive : String) (calls : Nat)
    (after : List Answer) :
    untilZeroDivisor code (before ++ ⟨.refused (.divisionByZero primitive), calls⟩ :: after) =
      before ++ [⟨.ended (zeroDivisorEnd code primitive), calls⟩] := by
  induction before with
  | nil => rfl
  | cons answer before ih =>
      rw [List.cons_append, untilZeroDivisor_cons code (h answer List.mem_cons_self),
        ih fun a ha => h a (List.mem_cons_of_mem _ ha), List.cons_append]

end

namespace Session

/-- Behind the end of the process no step is run. -/
theorem run_of_not_continues {s : Session} (h : s.continues = false) (steps : List Step) :
    s.run steps = some s := by
  induction steps with
  | nil => rfl
  | cons step steps ih => rw [run, Session.step, h, if_neg Bool.false_ne_true, Option.bind_some, ih]

/-- A run adds the outcomes of calls and changes no answer before them. -/
theorem answers_of_run {s s' : Session} {steps : List Step} (h : s.run steps = some s') :
    ∃ answers, s'.answers = s.answers ++ answers ∧ ∀ answer ∈ answers,
      ∃ (e : Evaluator) (name : String) (args : List Scalar),
        (e.call name args).1 = answer.outcome := by
  induction steps generalizing s with
  | nil =>
      cases h
      exact ⟨[], (List.append_nil _).symm, fun _ hMem => absurd hMem List.not_mem_nil⟩
  | cons step steps ih =>
      obtain ⟨next, hStep, hRest⟩ := Option.bind_eq_some_iff.mp h
      obtain ⟨answers, hAnswers, hCalls⟩ := ih hRest
      unfold Session.step at hStep
      split at hStep
      · obtain ⟨args, -, rfl⟩ := Option.map_eq_some_iff.mp hStep
        refine ⟨_ :: answers, by rw [hAnswers, List.append_assoc, List.singleton_append], ?_⟩
        intro answer hMem
        rcases List.mem_cons.mp hMem with rfl | hMem
        · exact ⟨s.evaluator, step.name, args, rfl⟩
        · exact hCalls answer hMem
      · cases hStep
        exact ⟨answers, hAnswers, hCalls⟩

/-- Two sessions that have given the same answers and can both go on, the first under the policy of
refusal and the second under the fatal policy. -/
structure Parallel (code : Word .w32) (s t : Session) : Prop where
  policy_eq : s.evaluator.policy = .error
  evaluator_eq : t.evaluator = s.evaluator.withPolicy (.fatal code)
  answers_eq : t.answers = s.answers
  continues : s.continues = true

namespace Parallel

variable {code : Word .w32} {s t s' : Session}

/-- **One step.** Both sessions give the same answer, which tells no zero divisor, and stay parallel;
or the first one refuses a zero divisor and the second one ends the process. -/
theorem step (h : Parallel code s t) {step : Step} (hStep : s.step step = some s') :
    ∃ answer, s'.answers = s.answers ++ [answer] ∧ s'.continues = true ∧
      ((¬ answer.TellsZeroDivisor ∧ ∃ t', t.step step = some t' ∧ Parallel code s' t') ∨
        ∃ (p : Primitive) (calls : Nat) (t' : Session),
          answer = ⟨.refused (.divisionByZero p.name), calls⟩ ∧ t.step step = some t' ∧
            t'.answers = t.answers ++ [⟨.ended (zeroDivisorEnd code p.name), calls⟩]) := by
  rw [Session.step, if_pos h.continues] at hStep
  obtain ⟨args, hArgs, rfl⟩ := Option.map_eq_some_iff.mp hStep
  have hContinues : t.continues = true := by
    rw [Session.continues, h.answers_eq]
    exact h.continues
  have hStep' : t.step step = some ⟨(t.evaluator.call step.name args).2, t.answers ++
      [⟨(t.evaluator.call step.name args).1,
        (t.evaluator.call step.name args).2.calls.unsigned⟩]⟩ := by
    rw [Session.step, if_pos hContinues, h.answers_eq, hArgs, Option.map_some]
  have hSnoc (outcome : Outcome) (calls : Nat) (e : Evaluator) (hGoes : outcome.continues = true) :
      (⟨e, s.answers ++ [⟨outcome, calls⟩]⟩ : Session).continues = true := by
    show (s.answers ++ [_]).all _ = true
    rw [List.all_append, Bool.and_eq_true]
    exact ⟨h.continues, by simpa using hGoes⟩
  rcases Evaluator.call_ends step.name args with
    ⟨error, hMalformed, hCall⟩ | ⟨p, hName, -, -, hCall⟩ | ⟨value, hCall⟩
  · rw [hCall] at hStep' ⊢
    refine ⟨_, rfl, hSnoc _ _ _ rfl, .inl ⟨?_, _, hStep', ?_⟩⟩
    · rintro ⟨primitive, hTells⟩
      cases Outcome.refused.inj hTells
      cases hMalformed
    · exact ⟨h.policy_eq, h.evaluator_eq, by rw [h.answers_eq, h.evaluator_eq]; rfl, hSnoc _ _ _ rfl⟩
  · rw [hCall] at hStep' ⊢
    rw [h.policy_eq, ← hName]
    rw [h.evaluator_eq, ← hName] at hStep'
    exact ⟨_, rfl, hSnoc _ _ _ rfl, .inr ⟨p, _, _, rfl, hStep', rfl⟩⟩
  · rw [hCall] at hStep' ⊢
    refine ⟨_, rfl, hSnoc _ _ _ rfl, .inl ⟨?_, _, hStep', ?_⟩⟩
    · rintro ⟨primitive, hTells⟩
      cases hTells
    · refine ⟨h.policy_eq, ?_, ?_, hSnoc _ _ _ rfl⟩
      · show t.evaluator.counted = _
        rw [h.evaluator_eq]
        rfl
      · rw [h.answers_eq, h.evaluator_eq]
        rfl

/-- **A whole run.** The second session gives the answers of the first up to its first zero
divisor. -/
theorem run (h : Parallel code s t) (steps : List Step) (hRun : s.run steps = some s') :
    ∃ answers t', s'.answers = s.answers ++ answers ∧ t.run steps = some t' ∧
      t'.answers = t.answers ++ untilZeroDivisor code answers := by
  induction steps generalizing s t with
  | nil =>
      cases hRun
      exact ⟨[], t, (List.append_nil _).symm, rfl, (List.append_nil _).symm⟩
  | cons step steps ih =>
      obtain ⟨next, hStep, hRest⟩ := Option.bind_eq_some_iff.mp hRun
      obtain ⟨answer, hAnswer, hContinues, hEnds⟩ := h.step hStep
      rcases hEnds with ⟨hTells, t₁, hStep', hNext⟩ | ⟨p, calls, t₁, rfl, hStep', hAnswer'⟩
      · obtain ⟨answers, t', hAnswers, hRun', hAnswers'⟩ := ih hNext hRest
        refine ⟨answer :: answers, t', ?_, ?_, ?_⟩
        · rw [hAnswers, hAnswer, List.append_assoc, List.singleton_append]
        · rw [Session.run, hStep', Option.bind_some, hRun']
        · rw [hAnswers', hNext.answers_eq, hAnswer, h.answers_eq, untilZeroDivisor_cons code hTells,
            List.append_assoc, List.singleton_append]
      · -- The process is at its end here; the first session goes on, with whatever answers.
        obtain ⟨answers, hAnswers, -⟩ := answers_of_run hRest
        have hEnded : t₁.continues = false := by
          rw [Session.continues, hAnswer', List.all_append]
          exact Bool.and_false _
        refine ⟨⟨.refused (.divisionByZero p.name), calls⟩ :: answers, t₁, ?_, ?_, hAnswer'⟩
        · rw [hAnswers, hAnswer, List.append_assoc, List.singleton_append]
        · rw [Session.run, hStep', Option.bind_some, run_of_not_continues hEnded]

end Parallel

end Session

/-! ## The end of the process -/

/-- Every name stands on one line. -/
theorem Primitive.newline_not_mem_name (p : Primitive) : '\n' ∉ p.name.toList :=
  p.not_mem_name (by decide)

/-- The text of a zero divisor, which names a primitive, stands on one line. -/
theorem newline_not_mem_message {e : Evaluator} {name primitive : String} {args : List Scalar}
    (h : (e.call name args).1 = .refused (.divisionByZero primitive)) :
    '\n' ∉ (CallError.divisionByZero primitive).message.toList := by
  have hName : primitive = name ∧ ∃ p : Primitive, p.name = name := by
    rcases Evaluator.call_ends name args with
      ⟨error, hMalformed, hCall⟩ | ⟨p, hName, -, -, hCall⟩ | ⟨value, hCall⟩
    · rw [hCall] at h
      cases Outcome.refused.inj h
      cases hMalformed
    · rw [hCall] at h
      cases hPolicy : e.policy with
      | error =>
          rw [hPolicy] at h
          exact ⟨(CallError.divisionByZero.inj (Outcome.refused.inj h)).symm, p, hName⟩
      | fatal code =>
          rw [hPolicy] at h
          cases h
    · rw [hCall] at h
      cases h
  obtain ⟨rfl, p, rfl⟩ := hName
  have hText : (CallError.divisionByZero p.name).message.toList =
      "Division by zero in ".toList ++ p.name.toList := String.toList_append
  rw [hText, List.mem_append, not_or]
  exact ⟨by decide, p.newline_not_mem_name⟩

/-- **The fatal policy.** Every sequence of calls is run to its end under the policy of refusal, with
the outcomes that the calls have on their own. A program that is so run gives the same answers under
the fatal policy, with the same counts of results, up to the first zero divisor that is refused. In
the place of that refusal the process ends: its status is the code modulo 256, it writes the text of
the refusal as one line behind the name of the program, and no later step is run. Without a zero
divisor the runs are the same. A call ends the process exactly if its name, the number and the types
of its operands are right and its divisor is zero; a malformed one is refused alike under both
policies. -/
theorem fatal_policy (e : Evaluator) (code : Word .w32) (program : String) :
    (∀ steps answers, (e.withPolicy .error).run steps = some answers →
      ((∀ answer ∈ answers, ¬ answer.TellsZeroDivisor) →
        (e.withPolicy (.fatal code)).run steps = some answers) ∧
      ∀ before primitive calls after,
        answers = before ++ ⟨.refused (.divisionByZero primitive), calls⟩ :: after →
        (∀ answer ∈ before, ¬ answer.TellsZeroDivisor) →
          ∃ d, (e.withPolicy (.fatal code)).run steps = some (before ++ [⟨.ended d, calls⟩]) ∧
            d.report program = ⟨(code.signed % 256).toNat,
              program ++ ": " ++ (CallError.divisionByZero primitive).message ++ "\n"⟩ ∧
            '\n' ∉ (CallError.divisionByZero primitive).message.toList) ∧
    (∀ name args d, ((e.withPolicy (.fatal code)).call name args).1 = .ended d ↔
      ∃ p : Primitive, p.name = name ∧ args.map Scalar.type = p.signature.params ∧
        DividesByZero p args ∧ d = ⟨code, (CallError.divisionByZero name).message⟩) ∧
    (∀ name args error, error.isMalformed = true →
      ((e.withPolicy .error).call name args).1 = .refused error →
        (e.withPolicy (.fatal code)).call name args =
          (.refused error, e.withPolicy (.fatal code))) ∧
    ∀ calls : List (String × List Scalar), ∃ answers,
      (e.withPolicy .error).run (calls.map fun c => .ofCall c.1 c.2) = some answers ∧
        answers.map Answer.outcome = calls.map fun c => call c.1 c.2 := by
  refine ⟨?_, ?_, ?_, fun calls => Evaluator.run_calls rfl calls⟩
  · intro steps answers hRun
    obtain ⟨s, hSession, rfl⟩ := Option.map_eq_some_iff.mp hRun
    have hStart : Session.Parallel code ⟨e.withPolicy .error, []⟩ ⟨e.withPolicy (.fatal code), []⟩ :=
      ⟨rfl, rfl, rfl, rfl⟩
    obtain ⟨answers, t, hAnswers, hFatal, hAnswers'⟩ := hStart.run steps hSession
    rw [List.nil_append] at hAnswers hAnswers'
    have hRun' : (e.withPolicy (.fatal code)).run steps =
        some (untilZeroDivisor code s.answers) := by
      rw [Evaluator.run, hFatal, Option.map_some, hAnswers', hAnswers]
    rw [hRun']
    constructor
    · intro hNone
      rw [untilZeroDivisor_eq_self code hNone]
    · intro before primitive calls after hSplit hBefore
      obtain ⟨answers', hCalls, hOutcomes⟩ := Session.answers_of_run hSession
      obtain ⟨e', name, args, hCall⟩ := hOutcomes ⟨.refused (.divisionByZero primitive), calls⟩ (by
        rw [List.nil_append] at hCalls
        rw [← hCalls, hSplit]
        simp)
      refine ⟨zeroDivisorEnd code primitive, ?_, ?_, newline_not_mem_message hCall⟩
      · rw [hSplit, untilZeroDivisor_append code hBefore]
      · rw [Diagnostic.report, ← Diagnostic.statusOf_eq]
        rfl
  · intro name args d
    exact Evaluator.call_fatal_eq_ended_iff rfl
  · intro name args error hMalformed hRefused
    rcases Evaluator.call_ends name args with
      ⟨error', -, hCall⟩ | ⟨p, -, -, -, hCall⟩ | ⟨value, hCall⟩
    · rw [hCall] at hRefused
      rw [hCall, Outcome.refused.inj hRefused]
    · rw [hCall] at hRefused
      cases Outcome.refused.inj hRefused
      cases hMalformed
    · rw [hCall] at hRefused
      cases hRefused

/-- A zero in the place of a divisor behind an operand of another type is a difference in type; the
next zero divisor ends the process with `-7` as its code, and the last step is run under the policy of
refusal only. -/
theorem fatal_policy_third_step :
    let first : Step := ⟨"add8", [.literal (.int .w8 120#8), .literal (.int .w8 10#8)]⟩
    let second : Step := ⟨"smod16", [.literal (.bool true), .literal (.int .w16 0#16)]⟩
    let third : Step := ⟨"srem16", [.literal (.int .w16 7#16), .literal (.int .w16 0#16)]⟩
    let fourth : Step := ⟨"add8", [.result 0, .result 0]⟩
    let before : List Answer := [⟨.result (.int .w8 130#8), 1⟩,
      ⟨.refused (.typeMismatch "smod16" 0 (.int .w16) .bool), 1⟩]
    (({} : Evaluator).withPolicy .error).run [first, second, third, fourth] =
        some (before ++ ⟨.refused (.divisionByZero "srem16"), 1⟩ :: [⟨.result (.int .w8 4#8), 2⟩]) ∧
      ∃ d, (({} : Evaluator).withPolicy (.fatal (Word.ofSigned (-7)))).run
          [first, second, third, fourth] = some (before ++ [⟨.ended d, 1⟩]) ∧
        d.report "scalar" = ⟨249, "scalar: Division by zero in srem16\n"⟩ := by
  intro first second third fourth before
  have hRun : (({} : Evaluator).withPolicy .error).run [first, second, third, fourth] =
      some (before ++ ⟨.refused (.divisionByZero "srem16"), 1⟩ :: [⟨.result (.int .w8 4#8), 2⟩]) := by
    decide +kernel
  have hBefore : ∀ answer ∈ before, ¬ answer.TellsZeroDivisor := by
    simp [before, Answer.TellsZeroDivisor]
  obtain ⟨d, hFatal, hReport, -⟩ := ((fatal_policy {} (Word.ofSigned (-7)) "scalar").1 _ _ hRun).2
    _ _ _ _ rfl hBefore
  exact ⟨hRun, d, hFatal, hReport.trans (by decide +kernel)⟩

end WidthExact
