import Mathlib.Data.List.Nodup
import WidthExact.Primitive.Name

/-!
# Names determine primitives

Three naming rules share one table: a family and a width with an underscore only behind a digit, a
family with two widths, and a family alone. No two primitives meet in it, so the table resolves
every name to its own primitive, and a text that is nobody's name to nothing.

The names are compared as character lists (`spelling`), each packed into one number (`packed`). One
sweep over a bitmap then settles that all of them differ, where a comparison of each with each would
have the kernel walk through tens of thousands of texts.

## Main results

* `name_injective` — a name belongs to one primitive.
* `named?_eq_some_iff`, `named?_eq_none_iff` — what the table answers to a text.
-/

namespace WidthExact

/-! ## The enumerations are complete -/

theorem IntWidth.mem_all (w : IntWidth) : w ∈ all := by cases w <;> decide

theorem FloatWidth.mem_all (f : FloatWidth) : f ∈ all := by cases f <;> decide

theorem IntBinaryOp.mem_all (op : IntBinaryOp) : op ∈ all := by cases op <;> decide

theorem IntCompareOp.mem_all (op : IntCompareOp) : op ∈ all := by cases op <;> decide

theorem IntUnaryOp.mem_all (op : IntUnaryOp) : op ∈ all := by cases op <;> decide

theorem BoolCompareOp.mem_all (op : BoolCompareOp) : op ∈ all := by cases op <;> decide

theorem IntConvertOp.mem_all (op : IntConvertOp) : op ∈ all := by cases op <;> decide

theorem IntToFloatOp.mem_all (op : IntToFloatOp) : op ∈ all := by cases op <;> decide

theorem FloatToIntOp.mem_all (op : FloatToIntOp) : op ∈ all := by cases op <;> decide

theorem FloatUnaryOp.mem_all (op : FloatUnaryOp) : op ∈ all := by cases op <;> decide

theorem FloatBinaryOp.mem_all (op : FloatBinaryOp) : op ∈ all := by cases op <;> decide

theorem FloatPredicateOp.mem_all (op : FloatPredicateOp) : op ∈ all := by cases op <;> decide

namespace Primitive

/-- Every primitive is listed. -/
theorem mem_all (p : Primitive) : p ∈ all := by
  cases p <;>
    simp [all, IntWidth.mem_all, FloatWidth.mem_all, IntBinaryOp.mem_all, IntCompareOp.mem_all,
      IntUnaryOp.mem_all, BoolCompareOp.mem_all, IntConvertOp.mem_all, IntToFloatOp.mem_all,
      FloatToIntOp.mem_all, FloatUnaryOp.mem_all, FloatBinaryOp.mem_all, FloatPredicateOp.mem_all]

/-! ## Spellings -/

/-- The characters of a family's name and a width in bits. -/
def sizedSpelling (family : String) (bits : Nat) : List Char :=
  family.toList ++ (if family.toList.getLast?.any Char.isDigit then ['_'] else [])
    ++ Text.decimal bits

/-- The characters of a family's name and the two widths of a conversion. -/
def conversionSpelling (family source target : String) : List Char :=
  family.toList ++ '_' :: source.toList ++ '_' :: target.toList

/-- The characters of a primitive's name. -/
def spelling : Primitive → List Char
  | intBinary op width => sizedSpelling op.name width.bits
  | intCompare op width => sizedSpelling op.name width.bits
  | intUnary op width => sizedSpelling op.name width.bits
  | boolCompare op => op.name.toList
  | intConvert op source target => conversionSpelling op.name source.text target.text
  | intToFloat op source target => conversionSpelling op.name source.text target.text
  | floatToInt op source target => conversionSpelling op.name source.text target.text
  | fpconv source target => conversionSpelling "fpconv" source.text target.text
  | toBits width => sizedSpelling "to_bits" width.bits
  | fromBits width => sizedSpelling "from_bits" width.bits
  | floatUnary op width => sizedSpelling op.name width.bits
  | floatBinary op width => sizedSpelling op.name width.bits
  | floatPredicate op width => sizedSpelling op.name width.bits

theorem toList_sizedName (family : String) (bits : Nat) :
    (sizedName family bits).toList = sizedSpelling family bits := by
  unfold sizedName sizedSpelling
  split <;> simp

theorem toList_conversionName (family source target : String) :
    (conversionName family source target).toList = conversionSpelling family source target := by
  simp [conversionName, conversionSpelling]

theorem toList_name (p : Primitive) : p.name.toList = p.spelling := by
  cases p <;> simp only [name, spelling, toList_sizedName, toList_conversionName]

/-- Whether a character stands in names: a letter, a digit or an underscore. -/
def isNameChar (c : Char) : Bool := c.isAlphanum || c = '_'

theorem isNameChar_of_mem_name (p : Primitive) : ∀ c ∈ p.name.toList, isNameChar c = true := by
  have hAll : (all.all fun p => p.spelling.all isNameChar) = true := by decide +kernel
  rw [p.toList_name]
  exact List.all_eq_true.mp (List.all_eq_true.mp hAll p p.mem_all)

theorem not_mem_name (p : Primitive) {c : Char} (hc : isNameChar c = false) : c ∉ p.name.toList := by
  intro hMem
  rw [p.isNameChar_of_mem_name c hMem] at hc
  cases hc

/-- A text as one number, its characters as digits of base 256. -/
def packed (text : List Char) : Nat := text.foldl (fun n c => 256 * n + c.toNat) 0

/-- Whether numbers are distinct and none of them is a bit of `seen`, in one sweep: each number is
marked as a bit when it is passed. -/
def unmarked (seen : Nat) : List Nat → Bool
  | [] => true
  | k :: rest => !seen.testBit k && unmarked (seen ||| twoPow k) rest

theorem nodup_of_unmarked (ks : List Nat) :
    ∀ seen, unmarked seen ks = true → ks.Nodup ∧ ∀ k ∈ ks, seen.testBit k = false := by
  induction ks with
  | nil => simp
  | cons k rest ih =>
      intro seen h
      simp only [unmarked, Bool.and_eq_true, Bool.not_eq_true'] at h
      obtain ⟨hNodup, hRest⟩ := ih _ h.2
      have hMarked : ∀ j ∈ rest, seen.testBit j = false ∧ k ≠ j := by
        intro j hj
        have hMark : (twoPow k).testBit j = decide (k = j) := Nat.testBit_two_pow
        have hBit := hRest j hj
        rw [Nat.testBit_or, hMark, Bool.or_eq_false_iff] at hBit
        exact ⟨hBit.1, of_decide_eq_false hBit.2⟩
      constructor
      · exact List.nodup_cons.mpr ⟨fun hk => (hMarked k hk).2 rfl, hNodup⟩
      · intro j hj
        rcases List.mem_cons.mp hj with rfl | hj
        · exact h.1
        · exact (hMarked j hj).1

/-- The spellings differ, already as numbers modulo 2877. -/
theorem spelling_nodup : (all.map spelling).Nodup := by
  have hSweep : unmarked 0 ((all.map spelling).map fun text => packed text % 2877) = true := by
    decide +kernel
  exact (nodup_of_unmarked _ 0 hSweep).1.of_map _

/-- Every primitive is listed once. -/
theorem count_all (p : Primitive) : all.count p = 1 :=
  List.count_eq_one_of_mem (spelling_nodup.of_map _) (mem_all p)

/-- No two primitives share a name. -/
theorem name_injective {p q : Primitive} (h : p.name = q.name) : p = q := by
  have hSpelling : p.spelling = q.spelling := by rw [← toList_name, ← toList_name, h]
  exact List.inj_on_of_nodup_map spelling_nodup (mem_all p) (mem_all q) hSpelling

/-! ## The table -/

/-- A table of distinct keys resolves the key of each of its values to that value. -/
theorem lookup_map_eq_some {β : Type} {f : β → String} {values : List β} {b : β}
    (hInj : ∀ c ∈ values, f c = f b → c = b) (hMem : b ∈ values) :
    (values.map fun c => (f c, c)).lookup (f b) = some b := by
  induction values with
  | nil => cases hMem
  | cons c rest ih =>
      rw [List.map_cons, List.lookup_cons]
      by_cases hKey : f b = f c
      · have hHead : c = b := hInj c List.mem_cons_self hKey.symm
        simp [hHead]
      · have hTail : b ∈ rest := by
          rcases List.mem_cons.mp hMem with rfl | hTail
          · exact absurd rfl hKey
          · exact hTail
        simp only [beq_false_of_ne hKey]
        exact ih (fun d hd => hInj d (List.mem_cons_of_mem c hd)) hTail

/-- What the table holds under a name is a primitive of that name. -/
theorem name_of_lookup {name : String} {ps : List Primitive} {p : Primitive}
    (h : (ps.map fun q => (q.name, q)).lookup name = some p) : p.name = name := by
  induction ps with
  | nil => cases h
  | cons q rest ih =>
      rw [List.map_cons, List.lookup_cons] at h
      by_cases hKey : name = q.name
      · simp only [hKey, beq_self_eq_true] at h
        rw [hKey, Option.some.inj h]
      · simp only [beq_false_of_ne hKey] at h
        exact ih h

@[simp] theorem named?_name (p : Primitive) : named? p.name = some p :=
  lookup_map_eq_some (fun _ _ h => name_injective h) (mem_all p)

/-- The table resolves a text exactly to the primitive that it names. -/
theorem named?_eq_some_iff {name : String} {p : Primitive} :
    named? name = some p ↔ p.name = name := by
  constructor
  · exact name_of_lookup
  · rintro rfl
    exact named?_name p

/-- The table has nothing for a text that names no primitive. -/
theorem named?_eq_none_iff {name : String} :
    named? name = none ↔ ∀ p : Primitive, p.name ≠ name := by
  rw [Option.eq_none_iff_forall_not_mem]
  simp only [Option.mem_def, named?_eq_some_iff, ne_eq]

@[simp] theorem parse_name (p : Primitive) : parse p.name = .ok p := by
  simp only [parse, named?_name]

/-- A text is resolved to a primitive exactly if it is its name. -/
theorem parse_eq_ok_iff {name : String} {p : Primitive} : parse name = .ok p ↔ p.name = name := by
  rw [← named?_eq_some_iff, parse]
  cases named? name <;> simp

/-- A text that names no primitive is refused as it is. -/
theorem parse_eq_error_iff {name : String} {error : ParseError} :
    parse name = .error error ↔
      error = .unknownPrimitive name ∧ ∀ p : Primitive, p.name ≠ name := by
  rw [← named?_eq_none_iff, parse]
  cases named? name with
  | none => simp [eq_comm]
  | some p => simp

end Primitive

end WidthExact
