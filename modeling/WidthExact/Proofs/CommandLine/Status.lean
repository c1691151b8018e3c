import WidthExact.Proofs.CommandLine.Call

/-!
# The status of a process that went wrong

A fatal condition is to end the process with a status other than zero. It does so for every exit code
that is no multiple of 256. Nothing keeps a caller from giving another one, and of a multiple of 256
the host keeps nothing: then the process ends like one that succeeded, though on the command line no
result was shown.

## Main results

* `status_eq_zero` — such a code, given to `--fatal-on-zero`.
* `status_ne_zero_iff` — the codes on which the status tells a failure.
-/

namespace WidthExact.CommandLine

/-- The ends of a call with literals: it is malformed, its divisor is zero, or there is a result. -/
theorem callLiterals_ends (e : Evaluator) (name : String) (operands : List String) :
    (∃ error : CallError, error.isMalformed = true ∧
      callLiterals e name operands = .refused error) ∨
    callLiterals e name operands = e.policy.onZeroDivisor name ∨
    ∃ value, callLiterals e name operands = .result value := by
  by_cases hName : ∃ p : Primitive, p.name = name
  · obtain ⟨p, rfl⟩ := hName
    by_cases hLen : operands.length = p.signature.params.length
    · rcases unreadable_or_readsAs hLen with ⟨_, _, _, hFirst⟩ | ⟨args, hArgs⟩
      · exact .inl ⟨_, rfl, callLiterals_of_unreadable e p hLen hFirst⟩
      · rcases callLiterals_of_reads e p hArgs with ⟨-, hCall⟩ | ⟨-, value, -, hCall⟩
        · exact .inr (.inl hCall)
        · exact .inr (.inr ⟨value, hCall⟩)
    · exact .inl ⟨_, rfl, callLiterals_of_length_ne e p hLen⟩
  · exact .inl ⟨_, rfl, callLiterals_of_no_name (fun p hp => hName ⟨p, hp⟩) e operands⟩

/-- The answers to a call on the command line, by status and output. -/
theorem respond_ends (program name : String) (operands : List String) (options : CallOptions) :
    (∃ error, (Command.call name operands options).respond program = refusal program 2 error) ∨
    (Command.call name operands options).respond program =
      refusal program (options.fatalOnZero.elim 1 Diagnostic.statusOf) (.divisionByZero name) ∨
    ∃ value : Scalar,
      (Command.call name operands options).respond program = ⟨0, value.text ++ "\n", none⟩ := by
  rcases callLiterals_ends options.evaluator name operands with
    ⟨error, hMalformed, hCall⟩ | hCall | ⟨value, hCall⟩
  · exact .inl ⟨error, respond_of_malformed hCall hMalformed⟩
  · refine .inr (.inl ?_)
    rw [respond_call, hCall]
    exact ofOutcome_onZeroDivisor program options name
  · refine .inr (.inr ⟨value, ?_⟩)
    rw [respond_call, hCall]
    rfl

/-- Standard output is a result on a line of its own. -/
def Response.ShowsResult (response : Response) : Prop :=
  ∃ value : Scalar, response.stdout = value.text ++ "\n"

theorem not_showsResult_refusal (program : String) (status : Nat) (error : CallError) :
    ¬ (refusal program status error).ShowsResult := by
  rintro ⟨value, hShown⟩
  have hLength := congrArg String.length hShown
  rw [String.length_append] at hLength
  exact absurd hLength.symm (Nat.succ_ne_zero _)

/-- A division by zero with 256 as the code on a zero divisor ends with status 0 and no result, and
so does a diagnostic whose code is 0. -/
theorem status_eq_zero :
    (Command.call "udiv8" ["1", "0"] ⟨some 256#32, false⟩).respond "scalar" =
        ⟨0, "", some "scalar: Division by zero in udiv8"⟩ ∧
      (Diagnostic.report "scalar" ⟨0#32, "boom"⟩) = ⟨0, "scalar: boom\n"⟩ := by
  decide +kernel

/-- **A failure shows in the status, unless its code is a multiple of 256.** That is so of every
diagnostic, and of every zero divisor under the fatal policy. On the command line the status is zero
exactly if a result was shown, but for a zero divisor that is given such a code. -/
theorem status_ne_zero_iff (program : String) (code : Word .w32) (name : String)
    (operands : List String) (options : CallOptions) :
    (∀ message, (Diagnostic.report program ⟨code, message⟩).status ≠ 0 ↔
      ¬ (256 : Int) ∣ code.signed) ∧
    (∀ (e : Evaluator) (p : Primitive) (args : List Scalar) (d : Diagnostic),
      ((e.withPolicy (.fatal code)).apply p args).1 = .ended d →
        ((d.report program).status ≠ 0 ↔ ¬ (256 : Int) ∣ code.signed)) ∧
    ((((Command.call name operands options).respond program).status = 0 ↔
        ((Command.call name operands options).respond program).ShowsResult) ↔
      ¬ ∃ multiple, options.fatalOnZero = some multiple ∧ (256 : Int) ∣ multiple.signed ∧
        (Command.call name operands options).respond program =
          refusal program 0 (.divisionByZero name)) := by
  refine ⟨fun message => not_congr (Diagnostic.statusOf_eq_zero_iff code), ?_, ?_⟩
  · intro e p args d hEnded
    rw [← Evaluator.call_name] at hEnded
    obtain ⟨-, -, -, -, rfl⟩ := (Evaluator.call_fatal_eq_ended_iff rfl).mp hEnded
    exact not_congr (Diagnostic.statusOf_eq_zero_iff code)
  · rcases respond_ends program name operands options with
      ⟨error, hRespond⟩ | hRespond | ⟨value, hRespond⟩
    · rw [hRespond]
      refine iff_of_true
        (iff_of_false (Nat.succ_ne_zero 1) (not_showsResult_refusal program 2 error)) ?_
      rintro ⟨_, _, _, hEq⟩
      exact absurd (congrArg Response.status hEq) (Nat.succ_ne_zero 1)
    · have hNot := not_showsResult_refusal program
        (options.fatalOnZero.elim 1 Diagnostic.statusOf) (.divisionByZero name)
      rw [hRespond, iff_false_right hNot]
      refine not_congr ?_
      cases hFatal : options.fatalOnZero with
      | none =>
          refine iff_of_false Nat.one_ne_zero ?_
          rintro ⟨_, hCode, -⟩
          cases hCode
      | some given =>
          constructor
          · intro hStatus
            have hZero : Diagnostic.statusOf given = 0 := hStatus
            refine ⟨given, rfl, (Diagnostic.statusOf_eq_zero_iff given).mp hZero, ?_⟩
            rw [Option.elim_some, hZero]
          · rintro ⟨_, hCode, hMultiple, -⟩
            obtain rfl := Option.some.inj hCode
            exact (Diagnostic.statusOf_eq_zero_iff given).mpr hMultiple
    · rw [hRespond]
      refine iff_of_true (iff_of_true rfl ⟨value, rfl⟩) ?_
      rintro ⟨_, _, _, hEq⟩
      cases congrArg Response.diagnostic hEq

/-- The code `-1` shows as 255, on a zero divisor of an evaluator and on one of the command line. -/
theorem status_ne_zero_iff_minus_one :
    ((zeroDivisorEnd (Word.ofSigned (-1)) "umod8").report "scalar").status ≠ 0 ∧
      (((Command.call "umod8" ["7", "0x00"]
          ⟨some (Word.ofSigned (-1)), false⟩).respond "scalar").status = 0 ↔
        ((Command.call "umod8" ["7", "0x00"]
          ⟨some (Word.ofSigned (-1)), false⟩).respond "scalar").ShowsResult) := by
  obtain ⟨-, hEvaluator, hCall⟩ := status_ne_zero_iff "scalar" (Word.ofSigned (-1)) "umod8"
    ["7", "0x00"] ⟨some (Word.ofSigned (-1)), false⟩
  refine ⟨?_, hCall.mpr ?_⟩
  · exact (hEvaluator {} (.intBinary .umod .w8) [.int .w8 7#8, .int .w8 0#8] _
      (by decide +kernel)).mpr (by decide)
  · rintro ⟨multiple, hCode, hMultiple, -⟩
    obtain rfl := Option.some.inj hCode
    exact absurd hMultiple (by decide)

end WidthExact.CommandLine
