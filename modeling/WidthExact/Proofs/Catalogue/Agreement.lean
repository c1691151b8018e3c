import WidthExact.Proofs.Catalogue.Entries
import WidthExact.Proofs.Evaluator.Outcome

/-!
# The evaluator and the catalogue are the same functions

On operands of the right types, the unchecked function under a primitive's name and the checked call
of the primitive give the same value, bit for bit, NaNs included. The unchecked function stops on
exactly the calls that the evaluator refuses for their divisor.

## Main results

* `runOn?_entry` — the unchecked function on unwrapped operands.
* `evaluate?_eq_some_iff` — the values of the two sides.
* `apply_eq_catalogue` — the agreement, and that no checked call ends in a trap.
-/

namespace WidthExact

/-- The unchecked function of a primitive runs its operation on the unwrapped operands. -/
theorem Primitive.runOn?_entry (p : Primitive) (operands : Operands p.operationSignature.params) :
    p.entry.runOn? operands.toScalars = some (p.run operands) := by
  have hUnwrap : Operands.ofScalars? p.entry.signature.params operands.toScalars = some operands :=
    operands.ofScalars?_toScalars
  rw [Catalogue.Entry.runOn?, hUnwrap]
  rfl

/-- A call on its own gives a value exactly if the function of that name does, and the same. -/
theorem evaluate?_eq_some_iff {name : String} {args : List Scalar} {value : Scalar} :
    Catalogue.evaluate? name args = some value ↔ call name args = .result value := by
  rcases Evaluator.call_cases name with ⟨p, rfl, hCall⟩ | ⟨hNames, hCall⟩
  · rw [call, hCall, Catalogue.evaluate?, Catalogue.find?_name, Option.bind_some]
    constructor
    · intro hValue
      obtain ⟨run, hRun, -⟩ := Option.bind_eq_some_iff.mp hValue
      obtain ⟨unwrapped, hUnwrapped, -⟩ := Option.map_eq_some_iff.mp hRun
      obtain ⟨operands, rfl⟩ :
          ∃ operands : Operands p.operationSignature.params, operands.toScalars = args :=
        ⟨unwrapped, Operands.toScalars_of_ofScalars? hUnwrapped⟩
      rw [p.runOn?_entry operands, Option.bind_some] at hValue
      cases hOk : p.run operands with
      | error trap =>
          rw [hOk] at hValue
          cases hValue
      | ok value' =>
          rw [hOk] at hValue
          rw [Evaluator.apply_of_run _ p operands hOk, Option.some.inj hValue]
    · intro hValue
      rcases ({} : Evaluator).apply_cases p args with
        ⟨error, -, hApply⟩ | ⟨-, -, hApply⟩ | ⟨operands, value', rfl, -, hRun, hApply⟩
      · rw [hApply] at hValue
        cases hValue
      · rw [hApply] at hValue
        cases hValue
      · rw [hApply] at hValue
        rw [p.runOn?_entry operands, hRun, ← Outcome.result.inj hValue]
        rfl
  · rw [call, hCall, Catalogue.evaluate?, Catalogue.find?_eq_none_iff.mpr hNames]
    simp

/-- **The evaluator and the catalogue agree**, for every primitive and all operands of its types. The
function that the catalogue has under the name of the primitive takes the operands; a value that it
gives is of the signature's type and is the answer of every evaluator, by value and by name; it stops
exactly on a zero divisor, which is exactly where an evaluator under the policy of refusal answers
with the error for it. No call at all, well-typed or not, ends in a trap. -/
theorem apply_eq_catalogue :
    (∀ (p : Primitive) (args : List Scalar), args.map Scalar.type = p.signature.params →
      ∃ entry run, Catalogue.find? p.name = some entry ∧ entry.signature = p.signature ∧
        entry.runOn? args = some run ∧
        (∀ value, run = .ok value → value.type = p.signature.result ∧
          ∀ e : Evaluator, (e.apply p args).1 = .result value ∧
            (e.call p.name args).1 = .result value) ∧
        ((∃ trap, run = .error trap) ↔ DividesByZero p args) ∧
        ∀ e : Evaluator, e.policy = .error →
          ((e.apply p args).1 = .refused (.divisionByZero p.name) ↔ ∃ trap, run = .error trap) ∧
          ((e.call p.name args).1 = .refused (.divisionByZero p.name) ↔
            ∃ trap, run = .error trap)) ∧
    ∀ (e : Evaluator) (args : List Scalar) (trap : Trap),
      (∀ p : Primitive, (e.apply p args).1 ≠ .trapped trap) ∧
        ∀ name : String, (e.call name args).1 ≠ .trapped trap := by
  constructor
  · intro p args hTypes
    obtain ⟨operands, rfl⟩ := p.exists_operands_iff.mpr hTypes
    have hTraps := p.run_traps_iff operands
    refine ⟨p.entry, _, Catalogue.find?_name p, p.operationSignature_eq, p.runOn?_entry operands, ?_,
      hTraps, ?_⟩
    · intro value hValue
      refine ⟨p.type_of_run operands hValue, fun e => ?_⟩
      rw [e.call_name, e.apply_of_run p operands hValue]
      exact ⟨rfl, rfl⟩
    · intro e hPolicy
      rw [e.call_name, hTraps, Evaluator.apply_eq_divisionByZero_iff hPolicy]
      simp only [hTypes, true_and, and_self]
  · intro e args trap
    exact ⟨fun p => e.apply_ne_trapped p args trap, fun name => e.call_ne_trapped name args trap⟩

/-- The least word divided by `-1` is no trap. -/
theorem apply_eq_catalogue_least_by_minus_one :
    ∃ entry, Catalogue.find? "sdiv64" = some entry ∧
      entry.runOn? [.int .w64 (BitVec.intMin 64), .int .w64 (BitVec.allOnes 64)] =
        some (.ok (.int .w64 (BitVec.intMin 64))) ∧
      ∀ e : Evaluator,
        (e.call "sdiv64" [.int .w64 (BitVec.intMin 64), .int .w64 (BitVec.allOnes 64)]).1 =
          .result (.int .w64 (BitVec.intMin 64)) := by
  obtain ⟨entry, run, hFind, -, hRun, hValue, -⟩ :=
    apply_eq_catalogue.1 (.intBinary .sdiv .w64)
      [.int .w64 (BitVec.intMin 64), .int .w64 (BitVec.allOnes 64)] rfl
  obtain rfl := Option.some.inj ((Catalogue.find?_name _).symm.trans hFind)
  have hOk : run = .ok (.int .w64 (BitVec.intMin 64)) := Option.some.inj (hRun.symm.trans (by rfl))
  exact ⟨_, hFind, hOk ▸ hRun, fun e => ((hValue _ hOk).2 e).2⟩

end WidthExact
