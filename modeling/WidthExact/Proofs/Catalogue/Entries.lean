import WidthExact.Catalogue
import WidthExact.Primitive.Operation
import WidthExact.Proofs.Primitive.Names

/-!
# The catalogue holds the operations of the primitives

The catalogue is written out by name and width; the operation of a primitive is selected by its
family and its widths. Section by section, the one table is the list of the entries that the other
gives: the same names, the same signatures and the same functions.

## Main results

* `entries_eq_map_entry` — the two tables are one.
* `find?_name`, `find?_eq_none_iff` — what the catalogue has under a name.
-/

namespace WidthExact

/-- The entry that a primitive stands for. -/
def Primitive.entry (p : Primitive) : Catalogue.Entry := ⟨p.name, p.operationSignature, p.operation⟩

namespace Catalogue

open Primitive (entry)

/-! ## Families of primitives -/

/-- Operations on words at every width. -/
def atIntWidths {Op : Type} (ops : List Op) (primitive : Op → IntWidth → Primitive) :
    List Primitive :=
  ops.flatMap fun op => IntWidth.all.map (primitive op)

/-- Operations on floating-point values in every format. -/
def atFloatWidths {Op : Type} (ops : List Op) (primitive : Op → FloatWidth → Primitive) :
    List Primitive :=
  ops.flatMap fun op => FloatWidth.all.map (primitive op)

theorem mem_atIntWidths {Op : Type} {ops : List Op} {primitive : Op → IntWidth → Primitive}
    {op : Op} (w : IntWidth) (h : op ∈ ops) : primitive op w ∈ atIntWidths ops primitive :=
  List.mem_flatMap.mpr ⟨op, h, List.mem_map_of_mem w.mem_all⟩

theorem mem_atFloatWidths {Op : Type} {ops : List Op} {primitive : Op → FloatWidth → Primitive}
    {op : Op} (f : FloatWidth) (h : op ∈ ops) : primitive op f ∈ atFloatWidths ops primitive :=
  List.mem_flatMap.mpr ⟨op, h, List.mem_map_of_mem f.mem_all⟩

/-- The primitives in the order of the catalogue, section by section. -/
def sections : List (List Primitive) := [
  atIntWidths [.add, .sub, .mul, .pow] .intBinary,
  atIntWidths [.or, .xor, .and, .shl, .ashr, .lshr] .intBinary,
  BoolCompareOp.all.map .boolCompare,
  atIntWidths [.squot, .srem, .sdiv, .smod, .udiv, .umod] .intBinary,
  atIntWidths IntCompareOp.all .intCompare,
  atIntWidths [.smin, .smax, .umin, .umax] .intBinary
    ++ atFloatWidths [.fmin, .fmax] .floatBinary,
  atIntWidths IntUnaryOp.all .intUnary,
  IntConvertOp.all.flatMap fun op => atIntWidths IntWidth.all (.intConvert op),
  IntToFloatOp.all.flatMap fun op =>
    atIntWidths FloatWidth.all fun target source => .intToFloat op source target,
  FloatToIntOp.all.flatMap fun op => atIntWidths FloatWidth.all (.floatToInt op),
  atFloatWidths FloatWidth.all .fpconv,
  FloatWidth.all.map .toBits ++ FloatWidth.all.map .fromBits,
  atFloatWidths FloatUnaryOp.all .floatUnary ++ atFloatWidths [.atan2, .fpow] .floatBinary,
  atFloatWidths FloatPredicateOp.all .floatPredicate]

theorem sections_eq :
    [arithmetic, bitwise, booleans, divisions, comparisons, extrema, signs, extensions,
      integerToFloat, floatToInteger, formatChanges, bitCasts, elementary, predicates]
      = sections.map (List.map entry) := by rfl

/-- **The two tables are one**: entry by entry, the catalogue has the name, the signature and the
operation of a primitive. -/
theorem entries_eq_map_entry : entries = sections.flatten.map entry := by
  rw [List.map_flatten, ← sections_eq]
  simp only [entries, List.flatten_cons, List.flatten_nil, List.append_nil, List.append_assoc]

theorem mem_flatten_sections {p : Primitive} (k : Nat) {listed : List Primitive}
    (hSection : sections[k]? = some listed) (hMem : p ∈ listed) : p ∈ sections.flatten :=
  List.mem_flatten.mpr ⟨listed, List.mem_of_getElem? hSection, hMem⟩

theorem mem_sections (p : Primitive) : p ∈ sections.flatten := by
  cases p with
  | intBinary op w =>
      cases op with
      | add | sub | mul | pow =>
          exact mem_flatten_sections 0 rfl (mem_atIntWidths w (by decide))
      | or | xor | and | shl | ashr | lshr =>
          exact mem_flatten_sections 1 rfl (mem_atIntWidths w (by decide))
      | squot | srem | sdiv | smod | udiv | umod =>
          exact mem_flatten_sections 3 rfl (mem_atIntWidths w (by decide))
      | smin | smax | umin | umax =>
          exact mem_flatten_sections 5 rfl
            (List.mem_append_left _ (mem_atIntWidths w (by decide)))
  | intCompare op w => exact mem_flatten_sections 4 rfl (mem_atIntWidths w op.mem_all)
  | intUnary op w => exact mem_flatten_sections 6 rfl (mem_atIntWidths w op.mem_all)
  | boolCompare op => exact mem_flatten_sections 2 rfl (List.mem_map_of_mem op.mem_all)
  | intConvert op source target =>
      exact mem_flatten_sections 7 rfl
        (List.mem_flatMap.mpr ⟨op, op.mem_all, mem_atIntWidths target source.mem_all⟩)
  | intToFloat op source target =>
      exact mem_flatten_sections 8 rfl
        (List.mem_flatMap.mpr ⟨op, op.mem_all, mem_atIntWidths source target.mem_all⟩)
  | floatToInt op source target =>
      exact mem_flatten_sections 9 rfl
        (List.mem_flatMap.mpr ⟨op, op.mem_all, mem_atIntWidths target source.mem_all⟩)
  | fpconv source target =>
      exact mem_flatten_sections 10 rfl (mem_atFloatWidths target source.mem_all)
  | toBits f =>
      exact mem_flatten_sections 11 rfl (List.mem_append_left _ (List.mem_map_of_mem f.mem_all))
  | fromBits f =>
      exact mem_flatten_sections 11 rfl (List.mem_append_right _ (List.mem_map_of_mem f.mem_all))
  | floatUnary op f =>
      exact mem_flatten_sections 12 rfl
        (List.mem_append_left _ (mem_atFloatWidths f op.mem_all))
  | floatBinary op f =>
      cases op with
      | atan2 | fpow =>
          exact mem_flatten_sections 12 rfl
            (List.mem_append_right _ (mem_atFloatWidths f (by decide)))
      | fmin | fmax =>
          exact mem_flatten_sections 5 rfl
            (List.mem_append_right _ (mem_atFloatWidths f (by decide)))
  | floatPredicate op f => exact mem_flatten_sections 13 rfl (mem_atFloatWidths f op.mem_all)

/-- Every entry is that of a primitive. -/
theorem mem_entries_iff (entry : Entry) : entry ∈ entries ↔ ∃ p : Primitive, p.entry = entry := by
  rw [entries_eq_map_entry, List.mem_map]
  exact ⟨fun ⟨p, _, h⟩ => ⟨p, h⟩, fun ⟨p, h⟩ => ⟨p, mem_sections p, h⟩⟩

/-- Under the name of a primitive the catalogue has the operation of that primitive. -/
@[simp] theorem find?_name (p : Primitive) : find? p.name = some p.entry := by
  cases hFind : find? p.name with
  | none =>
      have hMiss := List.find?_eq_none.mp hFind p.entry ((mem_entries_iff _).mpr ⟨p, rfl⟩)
      exact absurd (decide_eq_true (Eq.refl p.name)) hMiss
  | some found =>
      obtain ⟨q, rfl⟩ := (mem_entries_iff found).mp (List.mem_of_find?_eq_some hFind)
      have hName := List.find?_some hFind
      rw [Primitive.name_injective (of_decide_eq_true hName)]

/-- Under any other name the catalogue has nothing. -/
theorem find?_eq_none_iff {name : String} :
    find? name = none ↔ ∀ p : Primitive, p.name ≠ name := by
  constructor
  · rintro hNone p rfl
    rw [find?_name] at hNone
    cases hNone
  · intro hNames
    apply List.find?_eq_none.mpr
    intro entry hEntry hName
    obtain ⟨p, rfl⟩ := (mem_entries_iff entry).mp hEntry
    exact hNames p (of_decide_eq_true hName)

end Catalogue

end WidthExact
