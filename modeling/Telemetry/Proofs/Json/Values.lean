-- SUMMARY: Texts that denote JSON values: strings, null, and containers of texts that do, with blanks wherever they may stand.
import Telemetry.Proofs.Json.Strings

/-!
# Texts of values

A text denotes a value if the reader takes exactly this value from it, whatever follows. Fuel in
proportion to the length is enough: a container takes two steps for itself and leaves two for each symbol
of its parts.
-/

namespace Telemetry.Json

/-! ## Blanks -/

theorem skipBlanks_of_blank {blanks : Symbols} (h : ∀ s ∈ blanks, isBlank s = true)
    (rest : Symbols) : skipBlanks (blanks ++ rest) = skipBlanks rest :=
  List.dropWhile_append_of_pos h

theorem skipBlanks_of_not_blank {s : Option Char} (h : isBlank s = false) (rest : Symbols) :
    skipBlanks (s :: rest) = s :: rest :=
  List.dropWhile_cons_of_neg (by simp [h])

theorem skipBlanks_of_blank_cons {s : Option Char} (h : isBlank s = true) (rest : Symbols) :
    skipBlanks (s :: rest) = skipBlanks rest :=
  List.dropWhile_cons_of_pos h

theorem skipBlanks_skipBlanks (input : Symbols) : skipBlanks (skipBlanks input) = skipBlanks input := by
  induction input with
  | nil => rfl
  | cons s input ih =>
    cases hs : isBlank s with
    | true => rw [skipBlanks_of_blank_cons hs, ih]
    | false => rw [skipBlanks_of_not_blank hs, skipBlanks_of_not_blank hs]

/-- Leading blanks do not matter to a value. -/
theorem value?_skipBlanks (fuel : Nat) (input : Symbols) :
    value? fuel (skipBlanks input) = value? fuel input := by
  cases fuel with
  | zero => rfl
  | succ fuel =>
    unfold value?
    rw [skipBlanks_skipBlanks]

theorem items?_skipBlanks (fuel : Nat) (acc : List Json) (input : Symbols) :
    items? fuel acc (skipBlanks input) = items? fuel acc input := by
  cases fuel with
  | zero => rfl
  | succ fuel =>
    unfold items?
    rw [value?_skipBlanks]

theorem fields?_skipBlanks (fuel : Nat) (acc : List (Option String × Json)) (input : Symbols) :
    fields? fuel acc (skipBlanks input) = fields? fuel acc input := by
  cases fuel with
  | zero => rfl
  | succ fuel =>
    unfold fields?
    rw [skipBlanks_skipBlanks]

/-! ## Texts of single values -/

/-- What may follow a number without becoming a part of it. -/
def Ends (rest : Symbols) : Prop :=
  ∀ s ∈ rest.head?, isDigit s = false ∧ s ≠ some '.' ∧ s ≠ some 'e' ∧ s ≠ some 'E'

theorem ends_nil : Ends [] := by
  intro s hs
  cases hs

theorem ends_of_blank {blanks : Symbols} (h : ∀ s ∈ blanks, isBlank s = true) {rest : Symbols}
    (hrest : Ends rest) : Ends (blanks ++ rest) := by
  cases blanks with
  | nil => exact hrest
  | cons b blanks =>
    intro s hs
    cases hs
    have hb := h b List.mem_cons_self
    unfold isBlank at hb
    simp only [Bool.or_eq_true, beq_iff_eq] at hb
    rcases hb with ((rfl | rfl) | rfl) | rfl <;> decide

/-- The text is read as the value wherever it stands. -/
def Denotes (text : Symbols) (v : Json) : Prop :=
  ∀ fuel rest, 2 * text.length ≤ fuel → Ends rest → value? fuel (text ++ rest) = some (v, rest)

theorem Denotes.length_pos {text : Symbols} {v : Json} (h : Denotes text v) : 0 < text.length := by
  refine List.length_pos_iff.mpr fun hnil => ?_
  subst hnil
  have hread := h 0 [] (Nat.le_refl 0) ends_nil
  cases hread

/-- Blanks may stand in front of a value. -/
theorem Denotes.of_blank {blanks text : Symbols} {v : Json} (h : Denotes text v)
    (hblanks : ∀ s ∈ blanks, isBlank s = true) : Denotes (blanks ++ text) v := by
  intro fuel rest hfuel hrest
  have hlength : 2 * text.length ≤ fuel := by
    rw [List.length_append] at hfuel
    omega
  rw [List.append_assoc, ← value?_skipBlanks, skipBlanks_of_blank hblanks, value?_skipBlanks]
  exact h fuel rest hlength hrest

theorem denotes_null : Denotes (symbolsOf "null") .null := by
  intro fuel rest hfuel _
  obtain ⟨fuel, rfl⟩ := Nat.exists_eq_succ_of_ne_zero (Nat.ne_of_gt (Nat.lt_of_lt_of_le (by decide) hfuel))
  rfl

theorem denotes_writeString (text : String) :
    Denotes (symbolsOf (writeString text)) (.string (some text)) := by
  intro fuel rest hfuel _
  rw [symbolsOf_writeString] at hfuel ⊢
  rw [List.length_cons, List.length_append, List.length_singleton] at hfuel
  obtain ⟨fuel, rfl⟩ : ∃ n, fuel = n + 1 := ⟨fuel - 1, by omega⟩
  rw [List.cons_append, List.append_assoc, List.singleton_append]
  unfold value?
  rw [skipBlanks_of_not_blank rfl]
  simp only [stringBody?_escaped text fuel (by omega), Option.map_some]

/-! ## Texts of containers -/

/-- Texts with a comma between each two of them. -/
def commaSeparated (texts : List Symbols) : Symbols :=
  List.intercalate [some ','] texts

theorem commaSeparated_singleton (text : Symbols) : commaSeparated [text] = text :=
  List.intercalate_singleton

theorem commaSeparated_cons_cons (text other : Symbols) (texts : List Symbols) :
    commaSeparated (text :: other :: texts) =
      text ++ some ',' :: commaSeparated (other :: texts) := by
  unfold commaSeparated
  rw [List.intercalate_cons_cons, List.append_assoc]
  rfl

theorem ends_comma (rest : Symbols) : Ends (some ',' :: rest) := by
  intro s hs
  cases hs
  decide

theorem ends_bracket (rest : Symbols) : Ends (some ']' :: rest) := by
  intro s hs
  cases hs
  decide

theorem ends_brace (rest : Symbols) : Ends (some '}' :: rest) := by
  intro s hs
  cases hs
  decide

/-- Texts of values are read as the items of an array up to its end. -/
theorem items?_commaSeparated {parts : List (Symbols × Json)} (hne : parts ≠ [])
    (h : ∀ p ∈ parts, Denotes p.1 p.2) {blanks : Symbols} (hblanks : ∀ s ∈ blanks, isBlank s = true)
    (rest : Symbols) (acc : List Json) (fuel : Nat)
    (hfuel : 2 * ((commaSeparated (parts.map (·.1))).length + blanks.length + 1) ≤ fuel) :
    items? fuel acc (commaSeparated (parts.map (·.1)) ++ (blanks ++ some ']' :: rest)) =
      some (.array (acc.reverse ++ parts.map (·.2)), rest) := by
  induction parts generalizing acc fuel with
  | nil => exact absurd rfl hne
  | cons p parts ih =>
    have hp := h p List.mem_cons_self
    have hpos := hp.length_pos
    obtain ⟨fuel, rfl⟩ : ∃ n, fuel = n + 1 := ⟨fuel - 1, by omega⟩
    unfold items?
    cases parts with
    | nil =>
      rw [List.map_singleton, commaSeparated_singleton] at hfuel ⊢
      rw [hp fuel _ (by omega) (ends_of_blank hblanks (ends_bracket rest))]
      simp only [skipBlanks_of_blank hblanks]
      rw [skipBlanks_of_not_blank rfl]
      simp only [List.reverse_cons, List.map_cons, List.map_nil]
    | cons q parts =>
      have htext : commaSeparated ((p :: q :: parts).map (·.1)) =
          p.1 ++ some ',' :: commaSeparated ((q :: parts).map (·.1)) :=
        commaSeparated_cons_cons _ _ _
      rw [htext] at hfuel ⊢
      rw [List.length_append, List.length_cons] at hfuel
      rw [List.append_assoc, List.cons_append, hp fuel _ (by omega) (ends_comma _)]
      simp only
      rw [skipBlanks_of_not_blank rfl]
      simp only
      rw [ih (List.cons_ne_nil q parts) (fun p hp => h p (List.mem_cons_of_mem _ hp)) _ fuel
        (by omega), List.reverse_cons, List.append_assoc]
      rfl

/-- No value begins with a closing bracket. -/
theorem skipBlanks_ne_bracket {fuel : Nat} {input rest : Symbols}
    (h : skipBlanks input = some ']' :: rest) : value? fuel input = none := by
  cases fuel with
  | zero => rfl
  | succ fuel =>
    unfold value?
    rw [h]
    rfl

/-- The text of an array: texts of values, then blanks. -/
theorem denotes_array {parts : List (Symbols × Json)} (hne : parts ≠ [])
    (h : ∀ p ∈ parts, Denotes p.1 p.2) {blanks : Symbols}
    (hblanks : ∀ s ∈ blanks, isBlank s = true) :
    Denotes (some '[' :: (commaSeparated (parts.map (·.1)) ++ (blanks ++ [some ']'])))
      (.array (parts.map (·.2))) := by
  intro fuel rest hfuel _
  rw [List.length_cons, List.length_append, List.length_append, List.length_singleton] at hfuel
  obtain ⟨fuel, rfl⟩ : ∃ n, fuel = n + 2 := ⟨fuel - 2, by omega⟩
  have hitems := items?_commaSeparated hne h hblanks rest [] (fuel + 1) (by omega)
  rw [List.cons_append, List.append_assoc, List.append_assoc, List.singleton_append]
  unfold value?
  rw [skipBlanks_of_not_blank rfl]
  simp only
  split
  · -- The text would have to begin with the closing bracket.
    rename_i heq
    unfold items? at hitems
    rw [skipBlanks_ne_bracket heq] at hitems
    cases hitems
  · rw [items?_skipBlanks]
    exact hitems

/-- The text of a field: blanks, the name, a colon and the text of the value. -/
def DenotesField (text : Symbols) (name : String) (v : Json) : Prop :=
  ∃ blanks value, (∀ s ∈ blanks, isBlank s = true) ∧ Denotes value v ∧
    text = blanks ++ (symbolsOf (writeString name) ++ some ':' :: value)

/-- A field at the head of the fields of an object: the mark behind it decides whether there are more. -/
theorem fields?_of_denotesField {text : Symbols} {name : String} {v : Json}
    (h : DenotesField text name v) (acc : List (Option String × Json)) (fuel : Nat)
    (hfuel : 2 * text.length ≤ fuel) {rest : Symbols} (hrest : Ends rest) {mark : Option Char}
    {others : Symbols} (hmark : skipBlanks rest = mark :: others) :
    fields? (fuel + 1) acc (text ++ rest) =
      if mark = some ',' then fields? fuel ((some name, v) :: acc) others
      else if mark = some '}' then some (.object ((some name, v) :: acc).reverse, others)
      else none := by
  obtain ⟨blanks, value, hblanks, hvalue, rfl⟩ := h
  rw [symbolsOf_writeString] at hfuel ⊢
  simp only [List.length_append, List.length_cons, List.length_nil] at hfuel
  have htext : blanks ++ (some '"' :: (escaped name.toList ++ [some '"']) ++ some ':' :: value) ++
      rest = blanks ++ some '"' :: (escaped name.toList ++ some '"' :: some ':' :: (value ++ rest)) := by
    simp only [List.append_assoc, List.cons_append, List.nil_append]
  rw [htext]
  rw [fields?]
  rw [skipBlanks_of_blank hblanks, skipBlanks_of_not_blank rfl]
  simp only [stringBody?_escaped name fuel (by omega)]
  rw [skipBlanks_of_not_blank rfl]
  simp only [hvalue fuel rest (by omega) hrest, hmark]
  split
  next heq =>
    obtain ⟨rfl, rfl⟩ := List.cons.inj heq
    rw [if_pos rfl]
  next heq =>
    obtain ⟨rfl, rfl⟩ := List.cons.inj heq
    rw [if_neg (by decide), if_pos rfl]
  next hcomma hbrace =>
    rw [if_neg fun hmark => hcomma others (by rw [hmark]), if_neg fun hmark => hbrace others (by rw [hmark])]

/-- Texts of fields are read as the fields of an object up to its end. -/
theorem fields?_commaSeparated {parts : List (Symbols × String × Json)} (hne : parts ≠ [])
    (h : ∀ p ∈ parts, DenotesField p.1 p.2.1 p.2.2) {blanks : Symbols}
    (hblanks : ∀ s ∈ blanks, isBlank s = true) (rest : Symbols)
    (acc : List (Option String × Json)) (fuel : Nat)
    (hfuel : 2 * ((commaSeparated (parts.map (·.1))).length + blanks.length + 1) ≤ fuel) :
    fields? fuel acc (commaSeparated (parts.map (·.1)) ++ (blanks ++ some '}' :: rest)) =
      some (.object (acc.reverse ++ parts.map fun p => (some p.2.1, p.2.2)), rest) := by
  induction parts generalizing acc fuel with
  | nil => exact absurd rfl hne
  | cons p parts ih =>
    have hp := h p List.mem_cons_self
    obtain ⟨fuel, rfl⟩ : ∃ n, fuel = n + 1 := ⟨fuel - 1, by omega⟩
    cases parts with
    | nil =>
      rw [List.map_singleton, commaSeparated_singleton] at hfuel ⊢
      have hmark : skipBlanks (blanks ++ some '}' :: rest) = some '}' :: rest := by
        rw [skipBlanks_of_blank hblanks, skipBlanks_of_not_blank rfl]
      rw [fields?_of_denotesField hp acc fuel (by omega) (ends_of_blank hblanks (ends_brace rest)) hmark,
        if_neg (by decide), if_pos rfl]
      simp only [List.reverse_cons, List.map_cons, List.map_nil]
    | cons q parts =>
      have htext : commaSeparated ((p :: q :: parts).map (·.1)) =
          p.1 ++ some ',' :: commaSeparated ((q :: parts).map (·.1)) :=
        commaSeparated_cons_cons _ _ _
      rw [htext] at hfuel ⊢
      rw [List.length_append, List.length_cons] at hfuel
      rw [List.append_assoc, List.cons_append,
        fields?_of_denotesField hp acc fuel (by omega) (ends_comma _) (skipBlanks_of_not_blank rfl _),
        if_pos rfl]
      rw [ih (List.cons_ne_nil q parts) (fun p hp => h p (List.mem_cons_of_mem _ hp)) _ fuel
        (by omega), List.reverse_cons, List.append_assoc]
      rfl

/-- The text of an object: texts of fields, then blanks. -/
theorem denotes_object {parts : List (Symbols × String × Json)} (hne : parts ≠ [])
    (h : ∀ p ∈ parts, DenotesField p.1 p.2.1 p.2.2) {blanks : Symbols}
    (hblanks : ∀ s ∈ blanks, isBlank s = true) :
    Denotes (some '\x7b' :: (commaSeparated (parts.map (·.1)) ++ (blanks ++ [some '\x7d'])))
      (.object (parts.map fun p => (some p.2.1, p.2.2))) := by
  intro fuel rest hfuel _
  rw [List.length_cons, List.length_append, List.length_append, List.length_singleton] at hfuel
  obtain ⟨fuel, rfl⟩ : ∃ n, fuel = n + 2 := ⟨fuel - 2, by omega⟩
  have hfields := fields?_commaSeparated hne h hblanks rest [] (fuel + 1) (by omega)
  rw [List.cons_append, List.append_assoc, List.append_assoc, List.singleton_append]
  unfold value?
  rw [skipBlanks_of_not_blank rfl]
  simp only
  split
  · rename_i heq
    unfold fields? at hfields
    rw [heq] at hfields
    cases hfields
  · rw [fields?_skipBlanks]
    exact hfields

end Telemetry.Json
