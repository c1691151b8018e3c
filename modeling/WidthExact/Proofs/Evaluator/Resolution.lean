import WidthExact.Json.PrimitiveCodec
import WidthExact.Proofs.Evaluator.Outcome

/-!
# Names stand for primitives

The table of names is built from the list of all primitives, and an entry that met another of the same
name would be lost. None is: the list has every primitive once, and each has a name of its own. So a
text is resolved to a primitive exactly if it is its name, letter for letter, and a call by name is a
call of the primitive, with the same answer and the same evaluator after it. That holds of every
primitive there is, however it was come by; one that was read from JSON is no exception.

## Main results

* `name_resolution` — texts, names and calls.
-/

namespace WidthExact

/-- **Names stand for primitives.** A text is resolved to the primitive that has it as its name, and
any other text is refused as it is. No two primitives share a name, all of them are listed, each once,
and a primitive and its name are called alike in every state of an evaluator, also a primitive that
was read from JSON. -/
theorem name_resolution :
    (∀ (text : String) (p : Primitive), Primitive.parse text = .ok p ↔ text = p.name) ∧
    (∀ (text : String) (error : ParseError), Primitive.parse text = .error error ↔
      (∀ p : Primitive, text ≠ p.name) ∧ error = .unknownPrimitive text) ∧
    (∀ p q : Primitive, p.name = q.name → p = q) ∧
    (∀ p : Primitive, Primitive.all.count p = 1) ∧
    (∀ (e : Evaluator) (p : Primitive) (args : List Scalar), e.apply p args = e.call p.name args) ∧
    ∀ (text : String) (p : Primitive), (Json.read? text.toList).bind Primitive.ofJson? = some p →
      Primitive.parse p.name = .ok p ∧
        ∀ (e : Evaluator) (args : List Scalar), e.apply p args = e.call p.name args := by
  refine ⟨?_, ?_, fun p q => Primitive.name_injective, Primitive.count_all, ?_, ?_⟩
  · intro text p
    rw [Primitive.parse_eq_ok_iff, eq_comm]
  · intro text error
    rw [Primitive.parse_eq_error_iff, and_comm]
    exact and_congr_left fun _ => forall_congr' fun p => ne_comm
  · intro e p args
    rw [e.call_name]
  · intro text p _
    refine ⟨Primitive.parse_name p, fun e args => ?_⟩
    rw [e.call_name]

/-- A primitive that was read from JSON with its fields in another order. -/
theorem name_resolution_log2 :
    (Json.read? "\x7b\"FloatUnary\":\x7b\"width\":\"F32\",\"op\":\"Log2\"\x7d\x7d".toList).bind
        Primitive.ofJson? = some (.floatUnary .log2 .f32) ∧
      Primitive.parse "log2_32" = .ok (.floatUnary .log2 .f32) := by
  have hRead :
      (Json.read? "\x7b\"FloatUnary\":\x7b\"width\":\"F32\",\"op\":\"Log2\"\x7d\x7d".toList).bind
        Primitive.ofJson? = some (.floatUnary .log2 .f32) := by
    decide +kernel
  exact ⟨hRead, (name_resolution.2.2.2.2.2 _ _ hRead).1⟩

end WidthExact
