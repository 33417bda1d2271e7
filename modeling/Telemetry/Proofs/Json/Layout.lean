-- SUMMARY: Arrays and objects as they are laid out, with a part on each line or without blanks: they denote their parts.
import Telemetry.Proofs.Json.Values

/-!
# Containers as they are laid out

In an indented container every part follows a line break and the spaces of its line. These blanks belong
to the text of the part, so that the parts are separated by commas alone, as they are in a compact
container.
-/

namespace Telemetry.Json

/-! ## Parts on lines -/

theorem symbolsOf_intercalate (separator : String) (parts : List String) :
    symbolsOf (String.intercalate separator parts) =
      List.intercalate (symbolsOf separator) (parts.map symbolsOf) := by
  unfold symbolsOf
  rw [String.toList_intercalate]
  induction parts with
  | nil => rfl
  | cons part parts ih =>
    cases parts with
    | nil => simp only [List.map_cons, List.map_nil, List.intercalate_singleton]
    | cons other parts =>
      simp only [List.map_cons, List.intercalate_cons_cons, List.map_append] at ih ⊢
      rw [ih]

theorem length_le_length_intercalate (separator : String) {parts : List String} {part : String}
    (h : part ∈ parts) : part.length ≤ (String.intercalate separator parts).length := by
  rw [← String.length_toList, ← String.length_toList, String.toList_intercalate]
  induction parts with
  | nil => cases h
  | cons first parts ih =>
    cases parts with
    | nil =>
      obtain rfl := List.mem_singleton.mp h
      simp
    | cons other parts =>
      simp only [List.map_cons, List.intercalate_cons_cons, List.length_append] at ih ⊢
      rcases List.mem_cons.mp h with rfl | h
      · omega
      · have := ih h
        omega

/-- What follows every separator may instead stand in front of every part. -/
theorem append_intercalate_append {α : Type} (separator lead : List α) {parts : List (List α)}
    (hne : parts ≠ []) :
    lead ++ List.intercalate (separator ++ lead) parts =
      List.intercalate separator (parts.map (lead ++ ·)) := by
  induction parts with
  | nil => exact absurd rfl hne
  | cons part parts ih =>
    cases parts with
    | nil => simp only [List.map_cons, List.map_nil, List.intercalate_singleton]
    | cons other parts =>
      rw [List.map_cons, List.map_cons, List.intercalate_cons_cons, List.intercalate_cons_cons,
        ← List.map_cons, ← ih (List.cons_ne_nil _ _)]
      simp only [List.append_assoc]

/-- The blanks in front of a part at a depth. -/
def lineStart (depth : Nat) : Symbols :=
  some '\n' :: symbolsOf (indentation depth)

theorem isBlank_of_mem_lineStart (depth : Nat) : ∀ s ∈ lineStart depth, isBlank s = true := by
  intro s hs
  rcases List.mem_cons.mp hs with rfl | hs
  · rfl
  · obtain ⟨c, hc, rfl⟩ := List.mem_map.mp hs
    unfold indentation at hc
    rw [String.toList_ofList] at hc
    rw [List.eq_of_mem_replicate hc]
    rfl

theorem symbolsOf_indentedParts (depth : Nat) (first last : String) {parts : List String}
    (hne : parts ≠ []) :
    symbolsOf (indentedParts depth first last parts) =
      symbolsOf first ++
        (commaSeparated (parts.map fun part => lineStart (depth + 1) ++ symbolsOf part) ++
          (lineStart depth ++ symbolsOf last)) := by
  have hempty : ¬ parts.isEmpty = true := fun h => hne (List.isEmpty_iff.mp h)
  have hbreak : symbolsOf ",\n" = [some ','] ++ symbolsOf "\n" := rfl
  have hlines : symbolsOf "\n" ++ List.intercalate (symbolsOf ",\n")
      ((parts.map fun part => indentation (depth + 1) ++ part).map symbolsOf) =
      commaSeparated (parts.map fun part => lineStart (depth + 1) ++ symbolsOf part) := by
    rw [hbreak, append_intercalate_append _ _ (by simpa using hne), List.map_map, List.map_map]
    unfold commaSeparated
    congr 2
    funext part
    simp only [Function.comp_apply, symbolsOf_append]
    rfl
  unfold indentedParts
  rw [if_neg hempty]
  simp only [symbolsOf_append, symbolsOf_intercalate, List.append_assoc]
  rw [← List.append_assoc (symbolsOf "\n"), hlines]
  rfl

/-! ## Containers -/

/-- An indented array denotes its items. -/
theorem denotes_indentedArray (depth : Nat) {items : List (String × Json)} (hne : items ≠ [])
    (h : ∀ p ∈ items, Denotes (symbolsOf p.1) p.2) :
    Denotes (symbolsOf (indentedArray depth (items.map (·.1)))) (.array (items.map (·.2))) := by
  have hparts : ∀ p ∈ items.map fun p => (lineStart (depth + 1) ++ symbolsOf p.1, p.2),
      Denotes p.1 p.2 := by
    intro p hp
    obtain ⟨item, hitem, rfl⟩ := List.mem_map.mp hp
    exact (h item hitem).of_blank (isBlank_of_mem_lineStart _)
  have harray := denotes_array (by simpa using hne) hparts (isBlank_of_mem_lineStart depth)
  rw [List.map_map, List.map_map] at harray
  unfold indentedArray
  rw [symbolsOf_indentedParts depth _ _ (by simpa using hne), List.map_map]
  exact harray

theorem denotes_emptyArray (depth : Nat) :
    Denotes (symbolsOf (indentedArray depth [])) (.array []) := by
  intro fuel rest hfuel _
  have htext : symbolsOf (indentedArray depth []) = [some '[', some ']'] := symbolsOf_append "[" "]"
  rw [htext] at hfuel ⊢
  obtain ⟨fuel, rfl⟩ : ∃ n, fuel = n + 1 :=
    Nat.exists_eq_succ_of_ne_zero (Nat.ne_of_gt (Nat.lt_of_lt_of_le (by decide) hfuel))
  rfl

/-- An indented object denotes its fields. -/
theorem denotes_indentedObject (depth : Nat) {fields : List (String × String × Json)}
    (hne : fields ≠ []) (h : ∀ f ∈ fields, Denotes (symbolsOf f.2.1) f.2.2) :
    Denotes (symbolsOf (indentedObject depth (fields.map fun f => (f.1, f.2.1))))
      (.object (fields.map fun f => (some f.1, f.2.2))) := by
  have hparts : ∀ p ∈ fields.map fun f =>
        (lineStart (depth + 1) ++ symbolsOf (writeString f.1 ++ ": " ++ f.2.1), f.1, f.2.2),
      DenotesField p.1 p.2.1 p.2.2 := by
    intro p hp
    obtain ⟨f, hf, rfl⟩ := List.mem_map.mp hp
    refine ⟨lineStart (depth + 1), some ' ' :: symbolsOf f.2.1, isBlank_of_mem_lineStart _, ?_, ?_⟩
    · have hspace : ∀ s ∈ [some ' '], isBlank s = true := by decide
      exact (h f hf).of_blank hspace
    · rw [symbolsOf_append, symbolsOf_append, List.append_assoc]
      rfl
  have hobject :=
    denotes_object (by simpa using hne) hparts (isBlank_of_mem_lineStart depth)
  rw [List.map_map, List.map_map] at hobject
  unfold indentedObject
  rw [symbolsOf_indentedParts depth _ _ (by simpa using hne), List.map_map, List.map_map]
  exact hobject

/-! ## Compact containers -/

/-- A compact array denotes its items. -/
theorem denotes_compactArray {items : List (String × Json)}
    (h : ∀ p ∈ items, Denotes (symbolsOf p.1) p.2) :
    Denotes (symbolsOf (compactArray (items.map (·.1)))) (.array (items.map (·.2))) := by
  cases items with
  | nil =>
    -- The text is that of an indented array, which has no line if it has no part.
    exact denotes_emptyArray 0
  | cons first others =>
    have hparts : ∀ p ∈ (first :: others).map fun p => (symbolsOf p.1, p.2), Denotes p.1 p.2 := by
      intro p hp
      obtain ⟨item, hitem, rfl⟩ := List.mem_map.mp hp
      exact h item hitem
    have harray := denotes_array (by simp) hparts (fun s (hs : s ∈ []) => nomatch hs)
    rw [List.map_map, List.map_map] at harray
    unfold compactArray
    rw [symbolsOf_append, symbolsOf_append, symbolsOf_intercalate, List.map_map]
    exact harray

/-- A compact object denotes its fields. -/
theorem denotes_compactObject {fields : List (String × String × Json)} (hne : fields ≠ [])
    (h : ∀ f ∈ fields, Denotes (symbolsOf f.2.1) f.2.2) :
    Denotes (symbolsOf (compactObject (fields.map fun f => (f.1, f.2.1))))
      (.object (fields.map fun f => (some f.1, f.2.2))) := by
  have hparts : ∀ p ∈ fields.map fun f => (symbolsOf (writeField f.1 f.2.1), f.1, f.2.2),
      DenotesField p.1 p.2.1 p.2.2 := by
    intro p hp
    obtain ⟨f, hf, rfl⟩ := List.mem_map.mp hp
    refine ⟨[], symbolsOf f.2.1, fun s hs => (nomatch hs), h f hf, ?_⟩
    unfold writeField
    rw [symbolsOf_append, symbolsOf_append, List.append_assoc]
    rfl
  have hobject := denotes_object (by simpa using hne) hparts (fun s (hs : s ∈ []) => nomatch hs)
  rw [List.map_map, List.map_map] at hobject
  unfold compactObject
  rw [symbolsOf_append, symbolsOf_append, symbolsOf_intercalate, List.map_map, List.map_map]
  exact hobject

/-! ## Whole documents -/

/-- A text of a value is read as this value, blanks behind it being left out. -/
theorem read?_of_denotes {text blanks : Symbols} {v : Json} (h : Denotes text v)
    (hblanks : ∀ s ∈ blanks, isBlank s = true) : read? (text ++ blanks) = some v := by
  have hends : Ends blanks := by
    have := ends_of_blank hblanks ends_nil
    rwa [List.append_nil] at this
  have hskip : skipBlanks blanks = [] := by
    have := skipBlanks_of_blank hblanks []
    rwa [List.append_nil] at this
  unfold read?
  rw [h _ blanks (by rw [List.length_append]; omega) hends]
  simp only [hskip, List.isEmpty_nil, if_true]

end Telemetry.Json
