-- SUMMARY: JSON strings: every text is read back from its escaped form.
import Mathlib.Tactic.SplitIfs
import Telemetry.Json.Reader
import Telemetry.Json.Writer

/-!
# JSON strings

Escaping works character by character and so does reading: each escaped character is one item of a
string, and none of them is taken for the closing quote.
-/

namespace Telemetry.Json

/-- The symbols of a text. -/
def symbolsOf (text : String) : Symbols :=
  text.toList.map some

@[simp] theorem symbolsOf_append (a b : String) : symbolsOf (a ++ b) = symbolsOf a ++ symbolsOf b := by
  unfold symbolsOf
  rw [String.toList_append, List.map_append]

@[simp] theorem length_symbolsOf (text : String) : (symbolsOf text).length = text.length := by
  unfold symbolsOf
  rw [List.length_map, String.length_toList]

/-! ## One character -/

/-- The two digits of a control character have its value. -/
theorem hexDigit?_controlDigits : ∀ n : Fin 32,
    (controlDigits n).toList.map hexDigit? = [some (n.val / 16), some (n.val % 16)] := by
  decide

theorem hexQuad?_controlDigits {n : Nat} (hn : n < 0x20) (rest : Symbols) :
    hexQuad? (some '0' :: some '0' :: (symbolsOf (controlDigits n) ++ rest)) = some (n, rest) := by
  obtain ⟨a, others, htext, ha, hothers⟩ :=
    List.map_eq_cons_iff.mp (hexDigit?_controlDigits ⟨n, hn⟩)
  obtain ⟨b, last, hlast, hb, hnil⟩ := List.map_eq_cons_iff.mp hothers
  have hzero : hexDigit? '0' = some 0 := rfl
  have hvalue : ((0 * 16 + 0) * 16 + n / 16) * 16 + n % 16 = n := by omega
  unfold symbolsOf
  rw [htext, hlast, List.map_eq_nil_iff.mp hnil]
  simp only [List.map_cons, List.map_nil, List.cons_append, List.nil_append, hexQuad?, hzero, ha, hb,
    Option.bind_eq_bind, Option.bind_some, hvalue]

theorem unicodeEscape?_controlDigits {n : Nat} (hn : n < 0x20) (rest : Symbols) :
    unicodeEscape? (some '0' :: some '0' :: (symbolsOf (controlDigits n) ++ rest)) =
      some (some (Char.ofNat n), rest) := by
  have hlow : (decide (0xdc00 ≤ n) && decide (n ≤ 0xdfff)) = false := by simp; omega
  have hhigh : (decide (0xd800 ≤ n) && decide (n ≤ 0xdbff)) = false := by simp; omega
  unfold unicodeEscape?
  simp only [hexQuad?_controlDigits hn, hlow, hhigh, Bool.false_eq_true, if_false]

theorem stringItem?_plain {c : Char} (hescape : c ≠ '\\') (hcontrol : ¬ c.toNat < 0x20)
    (rest : Symbols) : stringItem? (some c :: rest) = some (some c, rest) := by
  unfold stringItem?
  split
  all_goals rename_i heq
  · cases heq
  · cases heq
  · cases heq
    exact absurd rfl hescape
  · cases heq
    exact absurd rfl hescape
  · cases heq
    exact absurd rfl hescape
  · cases heq
    exact if_neg hcontrol

theorem stringItem?_short {e c : Char} (hne : e ≠ 'u') (h : shortEscape? e = some c)
    (rest : Symbols) :
    stringItem? (some '\\' :: some e :: rest) = some (some c, rest) := by
  unfold stringItem?
  split
  all_goals rename_i heq
  · cases heq
  · cases heq
  · cases heq
    exact absurd rfl hne
  · cases heq
    rw [h]
    rfl
  · rename_i hletter
    cases heq
    exact (hletter e rest rfl).elim
  · rename_i hescape
    cases heq
    exact (hescape rfl).elim

/-- A character is escaped by a letter or by its number, or stands for itself. -/
theorem escapeChar_cases (c : Char) :
    (∃ e, e ≠ 'u' ∧ shortEscape? e = some c ∧ symbolsOf (escapeChar c) = [some '\\', some e]) ∨
      (c.toNat < 0x20 ∧ symbolsOf (escapeChar c) =
        some '\\' :: some 'u' :: some '0' :: some '0' :: symbolsOf (controlDigits c.toNat)) ∨
      (c ≠ '"' ∧ c ≠ '\\' ∧ ¬ c.toNat < 0x20 ∧ symbolsOf (escapeChar c) = [some c]) := by
  unfold escapeChar
  split_ifs with hquote hescape hb hf hn hr ht hcontrol
  · exact .inl ⟨'"', by decide, by rw [hquote]; rfl, rfl⟩
  · exact .inl ⟨'\\', by decide, by rw [hescape]; rfl, rfl⟩
  · exact .inl ⟨'b', by decide, by rw [hb]; rfl, rfl⟩
  · exact .inl ⟨'f', by decide, by rw [hf]; rfl, rfl⟩
  · exact .inl ⟨'n', by decide, by rw [hn]; rfl, rfl⟩
  · exact .inl ⟨'r', by decide, by rw [hr]; rfl, rfl⟩
  · exact .inl ⟨'t', by decide, by rw [ht]; rfl, rfl⟩
  · exact .inr (.inl ⟨hcontrol, symbolsOf_append _ _⟩)
  · exact .inr (.inr ⟨hquote, hescape, hcontrol, congrArg (List.map some) (String.toList_singleton c)⟩)

/-- An escaped character is one item of a string. -/
theorem stringItem?_escapeChar (c : Char) (rest : Symbols) :
    stringItem? (symbolsOf (escapeChar c) ++ rest) = some (some c, rest) := by
  rcases escapeChar_cases c with ⟨e, hne, hshort, htext⟩ | ⟨hcontrol, htext⟩ |
    ⟨-, hescape, hcontrol, htext⟩
  · rw [htext]
    exact stringItem?_short hne hshort rest
  · rw [htext]
    exact (unicodeEscape?_controlDigits hcontrol rest).trans (by rw [c.ofNat_toNat])
  · rw [htext]
    exact stringItem?_plain hescape hcontrol rest

/-- An escaped character does not begin with the closing quote. -/
theorem escapeChar_ne_quote (c : Char) {rest others : Symbols} :
    symbolsOf (escapeChar c) ++ rest ≠ some '"' :: others := by
  rcases escapeChar_cases c with ⟨e, -, -, htext⟩ | ⟨-, htext⟩ | ⟨hquote, -, -, htext⟩
  · rw [htext]
    exact fun h => by cases h
  · rw [htext]
    exact fun h => by cases h
  · rw [htext]
    exact fun h => hquote (Option.some.inj (List.cons.inj h).1)

theorem escapeChar_ne_nil (c : Char) : symbolsOf (escapeChar c) ≠ [] := by
  intro h
  have hitem := stringItem?_escapeChar c []
  rw [h] at hitem
  cases hitem

/-! ## Whole strings -/

/-- The inside of a written string. -/
def escaped (chars : List Char) : Symbols :=
  chars.flatMap fun c => symbolsOf (escapeChar c)

theorem length_le_escaped (chars : List Char) : chars.length ≤ (escaped chars).length := by
  induction chars with
  | nil => exact Nat.le_refl 0
  | cons c chars ih =>
    have hpos : 0 < (symbolsOf (escapeChar c)).length :=
      List.length_pos_iff.mpr (escapeChar_ne_nil c)
    unfold escaped at ih ⊢
    rw [List.flatMap_cons, List.length_append, List.length_cons]
    omega

theorem stringRest?_escaped (chars : List Char) (acc : List Char) (fuel : Nat)
    (hfuel : chars.length < fuel) (rest : Symbols) :
    stringRest? fuel (some acc) (escaped chars ++ some '"' :: rest) =
      some (some (String.ofList (acc.reverse ++ chars)), rest) := by
  induction chars generalizing acc fuel with
  | nil =>
    obtain ⟨fuel, rfl⟩ := Nat.exists_eq_succ_of_ne_zero (Nat.ne_of_gt hfuel)
    rw [List.append_nil]
    rfl
  | cons c chars ih =>
    obtain ⟨fuel, rfl⟩ := Nat.exists_eq_succ_of_ne_zero (Nat.ne_of_gt (Nat.zero_lt_of_lt hfuel))
    have htext : escaped (c :: chars) ++ some '"' :: rest =
        symbolsOf (escapeChar c) ++ (escaped chars ++ some '"' :: rest) := List.append_assoc _ _ _
    rw [htext]
    unfold stringRest?
    split
    · rename_i heq
      exact absurd heq (escapeChar_ne_quote c)
    · simp only [stringItem?_escapeChar]
      rw [Option.bind_some, Option.map_some, ih _ _ (Nat.lt_of_succ_lt_succ hfuel),
        List.reverse_cons, List.append_assoc, List.singleton_append]

theorem symbolsOf_writeString (text : String) :
    symbolsOf (writeString text) = some '"' :: (escaped text.toList ++ [some '"']) := by
  have hjoin : symbolsOf (String.join (text.toList.map escapeChar)) = escaped text.toList := by
    unfold symbolsOf escaped
    rw [String.toList_join, List.flatMap_map, List.map_flatMap]
    rfl
  unfold writeString
  rw [symbolsOf_append, symbolsOf_append, hjoin]
  rfl

theorem length_lt_length_writeString (text : String) : text.length < (writeString text).length := by
  have h := length_le_escaped text.toList
  rw [← length_symbolsOf (writeString text), symbolsOf_writeString]
  simp only [List.length_cons, List.length_append, String.length_toList] at h ⊢
  omega

/-- A written string is read back, with as much fuel as it has characters. -/
theorem stringBody?_escaped (text : String) (fuel : Nat)
    (hfuel : (escaped text.toList).length < fuel) (rest : Symbols) :
    stringBody? fuel (escaped text.toList ++ some '"' :: rest) = some (some text, rest) := by
  unfold stringBody?
  rw [stringRest?_escaped text.toList [] fuel
    (Nat.lt_of_le_of_lt (length_le_escaped text.toList) hfuel), List.reverse_nil, List.nil_append,
    String.ofList_toList]

end Telemetry.Json
