import WidthExact.Proofs.Json.Text

/-!
# JSON in lines is read back

The pretty writer puts white space where the reader passes over it: before each element, before the
closing bracket and behind a colon. So it is read back as what the compact writer writes is.

## Main results

* `prettyItems_eq`, `prettyFields_eq` — the white space around the elements.
* `readValue?_pretty`, `read?_pretty` — values and whole texts.
-/

namespace WidthExact.Json

open Text

/-! ## White space -/

theorem allSpace_newLine (level : Nat) : AllSpace (newLine level) := by
  intro c hc
  rcases List.mem_cons.mp hc with rfl | hc
  · rfl
  · rw [List.eq_of_mem_replicate hc]
    rfl

theorem prettyItems_eq (level : Nat) (item : Json) (items : List Json) :
    prettyItems level (item :: items) = separated ']'
      (spaced (newLine (level + 1)) (newLine level) ((item :: items).map (pretty (level + 1)))) := by
  induction items generalizing item with
  | nil => simp [prettyItems, spaced, separated]
  | cons next items ih =>
      show newLine (level + 1) ++ item.pretty (level + 1) ++
        ',' :: prettyItems level (next :: items) = _
      rw [ih]
      cases items <;> rfl

theorem prettyFields_eq (level : Nat) (field : JsonString × Json) (fields : List (JsonString × Json)) :
    prettyFields level (field :: fields) = separated '\x7d'
      (spaced (newLine (level + 1)) (newLine level)
        ((field :: fields).map (fieldText [' '] (pretty (level + 1))))) := by
  induction fields generalizing field with
  | nil => simp [prettyFields, spaced, separated, fieldText]
  | cons next fields ih =>
      show newLine (level + 1) ++ field.1.written ++ ':' :: ' ' :: field.2.pretty (level + 1)
        ++ ',' :: prettyFields level (next :: fields) = _
      rw [ih]
      cases fields <;> simp [spaced, separated, fieldText]

/-- A value is written in lines from the same character on. -/
theorem exists_cons_pretty {json : Json} (h : json.WellFormed) (level : Nat) :
    ∃ c text, json.pretty level = c :: text ∧ isSpace c = false ∧ c ≠ ']' := by
  cases h with
  | @array items h => cases items <;> exact ⟨'[', _, rfl, rfl, by decide⟩
  | @object fields hNames hValues => cases fields <;> exact ⟨'\x7b', _, rfl, rfl, by decide⟩
  | null => exact exists_cons_compact .null
  | bool value => exact exists_cons_compact (.bool value)
  | number h => exact exists_cons_compact (.number h)
  | string text => exact exists_cons_compact (.string text)

/-! ## Values -/

/-- **A value written in lines is read back**, however deep it is nested. -/
theorem readValue?_pretty {json : Json} (h : json.WellFormed) :
    ∀ (level fuel : Nat) (rest : List Char), (json.pretty level).length ≤ fuel →
      endsNumber rest = true →
        readValue? (fuel + 1) (json.pretty level ++ rest) = some (json, rest) := by
  induction h with
  | null => exact fun _ => readValue?_compact .null
  | bool value => exact fun _ => readValue?_compact (.bool value)
  | number h => exact fun _ => readValue?_compact (.number h)
  | string text => exact fun _ => readValue?_compact (.string text)
  | @array items h ih =>
      intro level fuel rest hFuel hRest
      cases items with
      | nil => exact readValue?_compact (.array h) fuel rest hFuel hRest
      | cons item items =>
          have hText : (Json.array (item :: items)).pretty level = '[' :: separated ']'
              (spaced (newLine (level + 1)) (newLine level)
                ((item :: items).map (pretty (level + 1)))) :=
            congrArg ('[' :: ·) (prettyItems_eq level item items)
          rw [hText] at hFuel ⊢
          exact readValue?_array (allSpace_newLine _) (allSpace_newLine _)
            (fun item hItem => exists_cons_pretty (h item hItem) _)
            (fun item hItem => ih item hItem (level + 1)) rest hFuel
  | @object fields hNames hValues ih =>
      intro level fuel rest hFuel hRest
      cases fields with
      | nil => exact readValue?_compact (.object hNames hValues) fuel rest hFuel hRest
      | cons field fields =>
          have hText : (Json.object (field :: fields)).pretty level = '\x7b' :: separated '\x7d'
              (spaced (newLine (level + 1)) (newLine level)
                ((field :: fields).map (fieldText [' '] (pretty (level + 1))))) :=
            congrArg ('\x7b' :: ·) (prettyFields_eq level field fields)
          rw [hText] at hFuel ⊢
          exact readValue?_object (allSpace_newLine _) (allSpace_newLine _) (by decide) hNames
            (fun field hField => ih field hField (level + 1)) rest hFuel

/-- **A text in lines is read back**, with white space behind it. -/
theorem read?_pretty {json : Json} (h : json.WellFormed) {space : List Char} (hSpace : AllSpace space) :
    read? (json.pretty 0 ++ space) = some json := by
  have hRest : endsNumber space = true := by
    cases space with
    | nil => rfl
    | cons c space => exact endsNumber_space (hSpace c List.mem_cons_self) space
  have hSkip : skipSpace space = [] := by
    rw [← List.append_nil space, skipSpace_append hSpace]
    rfl
  have hRead := readValue?_pretty h 0 (json.pretty 0 ++ space).length space
    (by rw [List.length_append]; exact Nat.le_add_right _ _) hRest
  rw [read?, hRead]
  show (if (skipSpace space).isEmpty = true then some json else none) = some json
  rw [hSkip]
  rfl

end WidthExact.Json
