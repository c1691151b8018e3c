import Mathlib.Algebra.Group.Nat.Defs
import Mathlib.Data.List.DropRight
import Mathlib.Data.List.TakeDrop
import WidthExact.Text.Numeral

/-!
# Digits and white space

Runs of digits: what they read as, where they end, and which of them are significant. White space
around a text without any is what `trim` takes off.
-/

namespace WidthExact.Text

/-! ## Digits -/

/-- A text of decimal digits only. -/
def AllDigits (text : List Char) : Prop := ∀ c ∈ text, c.isDigit = true

variable {digits digits' rest : List Char}

theorem AllDigits.append (h : AllDigits digits) (h' : AllDigits digits') :
    AllDigits (digits ++ digits') := by
  intro c hc
  exact (List.mem_append.mp hc).elim (h c) (h' c)

theorem allDigits_zeros (n : Nat) : AllDigits (List.replicate n '0') := by
  intro c hc
  rw [List.eq_of_mem_replicate hc]
  rfl

theorem allDigits_decimal (n : Nat) : AllDigits (decimal n) :=
  fun _ hc => Nat.isDigit_of_mem_toDigits (by decide) (by decide) hc

theorem decimal_ne_nil (n : Nat) : decimal n ≠ [] := Nat.toDigits_ne_nil

theorem ofDigitChars_decimal (n : Nat) : Nat.ofDigitChars 10 (decimal n) 0 = n :=
  Nat.ofDigitChars_ten_toDigits

/-- A numeral begins with a zero only if it is `0`. -/
theorem decimal_lead (n : Nat) : decimal n = ['0'] ∨ (decimal n).head? ≠ some '0' := by
  unfold decimal
  induction n using Nat.strongRecOn with
  | ind n ih =>
      by_cases hSmall : n < 10
      · have hDigits : ∀ d < 10, [Nat.digitChar d] = ['0'] ∨ [Nat.digitChar d].head? ≠ some '0' := by
          decide
        rw [Nat.toDigits_of_lt_base hSmall]
        exact hDigits n hSmall
      · have hPos : 0 < n / 10 := Nat.div_pos (Nat.not_lt.mp hSmall) (by decide)
        have hZero : Nat.toDigits 10 (n / 10) ≠ ['0'] := by
          intro h
          have hValue := ofDigitChars_decimal (n / 10)
          rw [decimal, h] at hValue
          exact Nat.ne_of_lt hPos hValue
        have hLead := (ih (n / 10) (by omega)).resolve_left hZero
        obtain ⟨c, rest, hCons⟩ :=
          List.exists_cons_of_ne_nil (Nat.toDigits_ne_nil (b := 10) (n := n / 10))
        rw [Nat.toDigits_of_base_le (by decide) (Nat.not_lt.mp hSmall)]
        rw [hCons] at hLead ⊢
        exact .inr hLead

theorem decimal_head {n : Nat} (hPos : n ≠ 0) : (decimal n).head? ≠ some '0' := by
  refine (decimal_lead n).resolve_left fun h => hPos ?_
  rw [← ofDigitChars_decimal n, h]
  rfl

/-- Digits write less than the power of ten of their number. -/
theorem ofDigitChars_lt (h : AllDigits digits) : Nat.ofDigitChars 10 digits 0 < 10 ^ digits.length := by
  induction digits with
  | nil => exact Nat.one_pos
  | cons digit digits ih =>
      have hRest := ih fun c hc => h c (List.mem_cons_of_mem digit hc)
      have hHigh : digit.toNat ≤ 57 := (Char.isDigit_iff_toNat.mp (h digit List.mem_cons_self)).2
      have hZero : '0'.toNat = 48 := rfl
      have hFirst : 10 ^ digits.length * (10 * 0 + (digit.toNat - '0'.toNat)) ≤
          10 ^ digits.length * 9 := Nat.mul_le_mul_left _ (by omega)
      rw [Nat.ofDigitChars_cons, Nat.ofDigitChars_eq_ofDigitChars_zero, List.length_cons,
        Nat.pow_succ]
      omega

/-- And no less than that of one digit less, if they do not begin with a zero. -/
theorem ten_pow_le_ofDigitChars (h : AllDigits digits) (hNonempty : digits ≠ [])
    (hLead : digits.head? ≠ some '0') : 10 ^ (digits.length - 1) ≤ Nat.ofDigitChars 10 digits 0 := by
  obtain ⟨digit, rest, rfl⟩ := List.exists_cons_of_ne_nil hNonempty
  have hLow : 48 ≤ digit.toNat := (Char.isDigit_iff_toNat.mp (h digit List.mem_cons_self)).1
  have hZero : '0'.toNat = 48 := rfl
  have hNe : digit.toNat ≠ '0'.toNat := fun hSame => hLead (congrArg some (Char.toNat_inj.mp hSame))
  have hFirst : 0 < 10 * 0 + (digit.toNat - '0'.toNat) := by omega
  rw [Nat.ofDigitChars_cons, Nat.ofDigitChars_eq_ofDigitChars_zero, List.length_cons,
    Nat.add_sub_cancel]
  exact Nat.le_trans (Nat.le_mul_of_pos_right _ hFirst) (Nat.le_add_right _ _)

/-- A positive number has no more digits than it needs. -/
theorem ten_pow_le_decimal {n : Nat} (hPos : n ≠ 0) : 10 ^ ((decimal n).length - 1) ≤ n := by
  have hLow := ten_pow_le_ofDigitChars (allDigits_decimal n) (decimal_ne_nil n) (decimal_head hPos)
  rwa [ofDigitChars_decimal] at hLow

/-- The numeral of a digit is the digit. -/
theorem decimal_of_isDigit {c : Char} (h : c.isDigit = true) :
    decimal (c.toNat - '0'.toNat) = [c] := by
  have hChars : ∀ d < 10, Nat.digitChar d = Char.ofNat ('0'.toNat + d) := by decide
  have hZero : '0'.toNat = 48 := rfl
  have hNine : '9'.toNat = 57 := rfl
  obtain ⟨hLow, hHigh⟩ := Char.isDigit_iff_toNat.mp h
  rw [decimal, Nat.toDigits_of_lt_base (by omega), hChars _ (by omega), Nat.add_sub_cancel' hLow,
    Char.ofNat_toNat]

/-- One more digit behind a numeral. -/
theorem decimal_ten_mul_add {n d : Nat} (hPos : n ≠ 0) (hDigit : d < 10) :
    decimal (10 * n + d) = decimal n ++ decimal d := by
  have hDiv : (10 * n + d) / 10 = n := by omega
  have hMod : (10 * n + d) % 10 = d := by omega
  rw [decimal, Nat.toDigits_of_base_le (by decide) (by omega), hDiv, hMod, decimal, decimal,
    Nat.toDigits_of_lt_base hDigit]

/-- Digits are the numeral of their number behind zeros. By induction on the digits from the last one,
which is the last digit of the numeral. -/
theorem exists_eq_zeros_append_decimal (h : AllDigits digits) (hNonempty : digits ≠ []) :
    ∃ zeros, digits = List.replicate zeros '0' ++ decimal (Nat.ofDigitChars 10 digits 0) := by
  induction digits using List.reverseRecOn with
  | nil => exact absurd rfl hNonempty
  | append_singleton front c ih =>
      have hLast := decimal_of_isDigit (h c (by simp))
      have hDigit : c.toNat - '0'.toNat < 10 := by
        have hHigh : c.toNat ≤ 57 := (Char.isDigit_iff_toNat.mp (h c (by simp))).2
        have hZero : '0'.toNat = 48 := rfl
        omega
      rw [Nat.ofDigitChars_append, Nat.ofDigitChars_cons, Nat.ofDigitChars_nil]
      by_cases hFront : front = []
      · subst hFront
        refine ⟨0, ?_⟩
        rw [Nat.ofDigitChars_nil, Nat.mul_zero, Nat.zero_add, hLast]
        rfl
      · obtain ⟨zeros, hZeros⟩ := ih (fun d hd => h d (List.mem_append_left _ hd)) hFront
        by_cases hValue : Nat.ofDigitChars 10 front 0 = 0
        · -- the front is zeros altogether, and the last digit is the numeral
          rw [hValue] at hZeros ⊢
          refine ⟨zeros + 1, ?_⟩
          rw [hZeros, Nat.mul_zero, Nat.zero_add, hLast, List.replicate_succ']
          rfl
        · refine ⟨zeros, ?_⟩
          rw [decimal_ten_mul_add hValue hDigit, hLast, ← List.append_assoc, ← hZeros]

theorem readDecimal?_of_allDigits (h : AllDigits digits) (hNonempty : digits ≠ []) :
    readDecimal? digits = some (Nat.ofDigitChars 10 digits 0) := by
  have hAll : digits.all Char.isDigit = true := List.all_eq_true.mpr h
  rw [readDecimal?, hAll, Bool.and_true, List.isEmpty_eq_false_iff.mpr hNonempty]
  rfl

theorem readDecimal?_eq_some_iff {n : Nat} :
    readDecimal? digits = some n ↔
      AllDigits digits ∧ digits ≠ [] ∧ n = Nat.ofDigitChars 10 digits 0 := by
  constructor
  · intro h
    unfold readDecimal? at h
    split at h
    · next hDigits =>
        rw [Bool.and_eq_true, Bool.not_eq_true', List.isEmpty_eq_false_iff, List.all_eq_true]
          at hDigits
        exact ⟨hDigits.2, hDigits.1, (Option.some.inj h).symm⟩
    · cases h
  · rintro ⟨hDigits, hNonempty, rfl⟩
    exact readDecimal?_of_allDigits hDigits hNonempty

/-- A run of digits ends where something else begins. -/
theorem span_digits (h : AllDigits digits) (hRest : rest.head?.all (!·.isDigit) = true) :
    (digits ++ rest).span Char.isDigit = (digits, rest) := by
  rw [List.span_eq_takeWhile_dropWhile, List.takeWhile_append_of_pos h,
    List.dropWhile_append_of_pos h]
  cases rest with
  | nil => simp
  | cons c rest =>
      have hc : c.isDigit = false := by simpa using hRest
      simp [hc]

theorem span_allDigits (h : AllDigits digits) : digits.span Char.isDigit = (digits, []) := by
  have hSpan : (digits ++ []).span Char.isDigit = (digits, []) := span_digits h rfl
  rw [List.append_nil] at hSpan
  exact hSpan

/-! ## Significant digits -/

/-- A number is a multiple of ten if its last digit is a zero. -/
theorem ofDigitChars_mod_ten_eq_zero_iff (h : AllDigits digits) (hNonempty : digits ≠ []) :
    Nat.ofDigitChars 10 digits 0 % 10 = 0 ↔ digits.getLast? = some '0' := by
  obtain ⟨front, last, rfl⟩ := (List.eq_nil_or_concat digits).resolve_left hNonempty
  obtain ⟨hLow, hHigh⟩ := Char.isDigit_iff_toNat.mp (h last (by simp))
  have hZero : '0'.toNat = 48 := rfl
  have hNine : '9'.toNat = 57 := rfl
  rw [List.concat_eq_append, Nat.ofDigitChars_append, Nat.ofDigitChars_cons, Nat.ofDigitChars_nil,
    List.getLast?_append_cons, List.getLast?_singleton, Option.some_inj, ← Char.toNat_inj]
  omega

/-- The digits without the zeros at both ends. -/
def significant (digits : List Char) : List Char :=
  (digits.dropWhile (· = '0')).rdropWhile (· = '0')

theorem eq_zeros_append_significant (digits : List Char) : ∃ front back,
    digits = List.replicate front '0' ++ (significant digits ++ List.replicate back '0') := by
  have hZeros : ∀ zeros : List Char, (∀ c ∈ zeros, decide (c = '0') = true) →
      zeros = List.replicate zeros.length '0' :=
    fun zeros h => List.eq_replicate_length.mpr fun c hc => of_decide_eq_true (h c hc)
  refine ⟨(digits.takeWhile (· = '0')).length,
    ((digits.dropWhile (· = '0')).rtakeWhile (· = '0')).length, ?_⟩
  rw [← hZeros _ (List.all_eq_true.mp List.all_takeWhile),
    ← hZeros _ fun _ => List.mem_rtakeWhile_imp, significant, List.rdropWhile_append_rtakeWhile,
    List.takeWhile_append_dropWhile]

theorem head?_significant (digits : List Char) : (significant digits).head? ≠ some '0' := by
  intro hHead
  obtain ⟨rest, hCons⟩ := List.head?_eq_some_iff.mp hHead
  obtain ⟨zeros, hDropped⟩ := List.rdropWhile_prefix (fun c => decide (c = '0'))
    (l := digits.dropWhile (· = '0'))
  have hFirst := List.head?_dropWhile_not (fun c => decide (c = '0')) digits
  rw [← hDropped] at hFirst
  rw [significant] at hCons
  rw [hCons] at hFirst
  cases hFirst

theorem getLast?_significant (digits : List Char) : (significant digits).getLast? ≠ some '0' := by
  intro hLast
  have hNonempty : significant digits ≠ [] := by
    intro hNil
    rw [hNil] at hLast
    cases hLast
  rw [List.getLast?_eq_some_getLast hNonempty] at hLast
  exact List.rdropWhile_last_not _ _ hNonempty (decide_eq_true (Option.some.inj hLast))

/-- The zeros in front do not count, and those behind are a power of ten. -/
theorem exists_ofDigitChars_significant (digits : List Char) : ∃ back,
    Nat.ofDigitChars 10 digits 0 = Nat.ofDigitChars 10 (significant digits) 0 * 10 ^ back := by
  obtain ⟨front, back, hSplit⟩ := eq_zeros_append_significant digits
  refine ⟨back, ?_⟩
  conv_lhs => rw [hSplit]
  rw [Nat.ofDigitChars_append, Nat.ofDigitChars_append, Nat.ofDigitChars_replicate_zero,
    Nat.ofDigitChars_replicate_zero, Nat.mul_zero, Nat.mul_comm]

theorem AllDigits.significant (h : AllDigits digits) : AllDigits (significant digits) := by
  obtain ⟨front, back, hSplit⟩ := eq_zeros_append_significant digits
  intro c hc
  rw [hSplit] at h
  exact h c (List.mem_append_right _ (List.mem_append_left _ hc))

/-! ## White space -/

/-- White space only. -/
def AllBlank (text : List Char) : Prop := ∀ c ∈ text, isBlank c = true

/-- No white space. -/
def NoBlank (text : List Char) : Prop := ∀ c ∈ text, isBlank c = false

instance (text : List Char) : Decidable (AllBlank text) :=
  decidable_of_iff (text.all isBlank = true) List.all_eq_true

instance (text : List Char) : Decidable (NoBlank text) :=
  decidable_of_iff (text.any isBlank = false) (by simp [NoBlank])

theorem dropWhile_blank {blanks text : List Char} (hBlanks : AllBlank blanks) (hText : NoBlank text)
    (hNonempty : text ≠ []) : (blanks ++ text ++ rest).dropWhile isBlank = text ++ rest := by
  rw [List.append_assoc, List.dropWhile_append_of_pos hBlanks]
  cases text with
  | nil => exact absurd rfl hNonempty
  | cons c text =>
      rw [List.cons_append, List.dropWhile_cons_of_neg]
      rw [hText c List.mem_cons_self]
      decide

/-- White space around a text is taken off. -/
theorem trim_around {before text after : List Char} (hBefore : AllBlank before)
    (hAfter : AllBlank after) (hText : NoBlank text) (hNonempty : text ≠ []) :
    trim (before ++ text ++ after) = text := by
  have hBack : (after.reverse ++ text.reverse ++ []).dropWhile isBlank = text.reverse ++ [] :=
    dropWhile_blank (fun c hc => hAfter c (List.mem_reverse.mp hc))
      (fun c hc => hText c (List.mem_reverse.mp hc))
      (fun h => hNonempty (List.reverse_eq_nil_iff.mp h))
  rw [List.append_nil, List.append_nil] at hBack
  rw [trim, dropWhile_blank hBefore hText hNonempty, List.reverse_append, hBack,
    List.reverse_reverse]

/-- And nothing else is. -/
theorem exists_around_trim (text : List Char) :
    ∃ before after, AllBlank before ∧ AllBlank after ∧ text = before ++ trim text ++ after := by
  have hFront : text.takeWhile isBlank ++ text.dropWhile isBlank = text :=
    List.takeWhile_append_dropWhile
  generalize hRest : text.dropWhile isBlank = rest at hFront
  have hBack : rest.reverse.takeWhile isBlank ++ rest.reverse.dropWhile isBlank = rest.reverse :=
    List.takeWhile_append_dropWhile
  refine ⟨text.takeWhile isBlank, (rest.reverse.takeWhile isBlank).reverse,
    List.all_eq_true.mp List.all_takeWhile,
    fun c hc => List.all_eq_true.mp List.all_takeWhile c (List.mem_reverse.mp hc), ?_⟩
  have hSplit := congrArg List.reverse hBack
  rw [List.reverse_append, List.reverse_reverse] at hSplit
  rw [trim, hRest, List.append_assoc, hSplit, hFront]

theorem NoBlank.append {text text' : List Char} (h : NoBlank text) (h' : NoBlank text') :
    NoBlank (text ++ text') := by
  intro c hc
  exact (List.mem_append.mp hc).elim (h c) (h' c)

theorem NoBlank.cons {c : Char} {text : List Char} (hc : isBlank c = false) (h : NoBlank text) :
    NoBlank (c :: text) := by
  intro c' hc'
  rcases List.mem_cons.mp hc' with rfl | hMem
  · exact hc
  · exact h c' hMem

theorem isBlank_digit {c : Char} (hDigit : c.isDigit = true) : isBlank c = false := by
  obtain ⟨hLow, hHigh⟩ := Char.isDigit_iff_toNat.mp hDigit
  have hZero : '0'.toNat = 48 := rfl
  have hNine : '9'.toNat = 57 := rfl
  unfold isBlank inRanges blankRanges
  rw [List.any_eq_false]
  intro range hRange
  simp only [List.mem_cons, List.not_mem_nil, or_false] at hRange
  simp only [Bool.and_eq_true, decide_eq_true_eq]
  rcases hRange with rfl | rfl | rfl | rfl | rfl | rfl | rfl | rfl | rfl | rfl <;> omega

theorem AllDigits.noBlank (h : AllDigits digits) : NoBlank digits :=
  fun c hc => isBlank_digit (h c hc)

end WidthExact.Text
