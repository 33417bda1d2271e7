-- SUMMARY: The routes of encoded paths: every segment is one part of a route, and is decoded to the text it was made of.
import Mathlib
import Telemetry.Collector.Route
import Telemetry.Proofs.Url.Percent

/-!
# Routes of encoded paths

A path is made of encoded segments. The first pass of decoding leaves their percent signs and slashes
escaped, so the slashes that are found are the ones between the segments, and the second pass gives back
what each segment was made of.
-/

namespace Telemetry

/-! ## Splitting at a character -/

namespace Text

open String

theorem get_singleton (c : Char) : Pos.Raw.get (singleton c) 0 = c := by
  simpa using get_of_valid [] [c]

theorem next_singleton (c : Char) : Pos.Raw.next (singleton c) 0 = ⟨c.utf8Size⟩ := by
  simpa using next_of_valid [] c []

theorem atEnd_singleton (c : Char) : Pos.Raw.atEnd (singleton c) ⟨c.utf8Size⟩ = true := by
  simpa using (atEnd_of_valid [c] []).mpr rfl

/-- The pieces of `l ++ m ++ r` where `l` has been split already and `m` begins a piece. -/
theorem splitOnAux_singleton (c : Char) (l m r : List Char) (acc : List String) :
    splitOnAux (ofList (l ++ m ++ r)) (singleton c) ⟨utf8Len l⟩ ⟨utf8Len (l ++ m)⟩ 0 acc =
      acc.reverse ++ (List.splitOnPPrepend (· == c) r m.reverse).map ofList := by
  induction r generalizing l m acc with
  | nil =>
    have hend : Pos.Raw.atEnd (ofList (l ++ m ++ [])) ⟨utf8Len (l ++ m)⟩ = true :=
      (atEnd_of_valid (l ++ m) []).mpr rfl
    have hextract := extract_of_valid l m []
    rw [← utf8Len_append] at hextract
    rw [splitOnAux, if_pos hend, hextract]
    simp
  | cons x r ih =>
    have hend : ¬ Pos.Raw.atEnd (ofList (l ++ m ++ x :: r)) ⟨utf8Len (l ++ m)⟩ = true :=
      mt (atEnd_of_valid (l ++ m) (x :: r)).mp (by simp)
    have hlist : l ++ m ++ x :: r = l ++ m ++ [x] ++ r := by simp
    have hlength : utf8Len (l ++ m) + x.utf8Size = utf8Len (l ++ m ++ [x]) := by
      simp [Nat.add_assoc]
    rw [splitOnAux, if_neg hend, get_of_valid (l ++ m), get_singleton, next_of_valid (l ++ m),
      next_singleton, if_pos (atEnd_singleton c), List.splitOnPPrepend_cons_eq_if]
    by_cases hx : x = c
    · subst hx
      have hextract := extract_of_valid l m (x :: r)
      have hrest := ih (l ++ m ++ [x]) [] (ofList m :: acc)
      have hback : (⟨utf8Len (l ++ m) + x.utf8Size⟩ : Pos.Raw).unoffsetBy ⟨x.utf8Size⟩ =
          ⟨utf8Len (l ++ m)⟩ := by
        simp [Pos.Raw.unoffsetBy]
      rw [← utf8Len_append] at hextract
      rw [List.append_nil, ← hlist, ← hlength] at hrest
      rw [if_pos (by simp), hback, hextract, hrest]
      simp
    · have hrest := ih l (m ++ [x]) acc
      have hsame : (⟨utf8Len (l ++ m)⟩ : Pos.Raw).unoffsetBy 0 = ⟨utf8Len (l ++ m)⟩ := by
        simp [Pos.Raw.unoffsetBy]
      rw [← List.append_assoc, ← hlist, ← hlength] at hrest
      rw [if_neg (by simpa using hx), hsame, next_of_valid (l ++ m), hrest]
      simp [hx]

/-- A text is split at a character as its list of characters is. -/
theorem splitOn_singleton (text : String) (c : Char) :
    text.splitOn (singleton c) = (text.toList.splitOn c).map ofList := by
  have hsplit := splitOnAux_singleton c [] [] text.toList []
  have hne : ¬ (singleton c == "") = true := by simp
  rw [splitOn, if_neg hne]
  simpa [List.splitOn] using hsplit

end Text

namespace Collector.Route

open Url (Part bytes escape encodePart)

/-! ## Two passes of decoding -/

/-- The character is still escaped when the route is chosen. -/
def isLate (c : Char) : Bool :=
  c = '%' || c = '/'

theorem eq_of_byte {c x : Char} {byte : UInt8} (hbyte : byte ∈ String.utf8EncodeChar c)
    (hlt : byte.toNat < 0x80) (hx : byte.toNat = x.toNat) : c = x :=
  Char.toNat_inj.mp ((Url.toNat_of_mem_utf8EncodeChar hbyte hlt).symm.trans hx)

/-- Of an encoded segment, the first pass leaves alone what is decoded in the second. -/
theorem isKept_eq_isLate {c : Char} (hc : Part.segment.encodes c = true) {byte : UInt8}
    (hbyte : byte ∈ String.utf8EncodeChar c) : isKept byte = isLate c := by
  have hpercent : String.utf8EncodeChar '%' = [0x25] := by decide
  have hslash : String.utf8EncodeChar '/' = [0x2f] := by decide
  rw [Bool.eq_iff_iff]
  constructor
  · intro hkept
    simp only [isKept, Bool.or_eq_true, decide_eq_true_eq] at hkept
    obtain (rfl | rfl) | rfl := hkept
    · rw [eq_of_byte (x := '%') hbyte (by decide) rfl]
      rfl
    · -- The plus sign is not escaped in a segment.
      rw [eq_of_byte (x := '+') hbyte (by decide) rfl] at hc
      cases hc
    · rw [eq_of_byte (x := '/') hbyte (by decide) rfl]
      rfl
  · intro hlate
    simp only [isLate, Bool.or_eq_true, decide_eq_true_eq] at hlate
    obtain rfl | rfl := hlate
    · rw [hpercent, List.mem_singleton] at hbyte
      simp [isKept, hbyte]
    · rw [hslash, List.mem_singleton] at hbyte
      simp [isKept, hbyte]

/-- What the first pass makes of a segment is decoded by the second. -/
theorem decodePart_escape (text : List Char) :
    decodePart (String.ofList (escape isLate text)) = String.ofList text := by
  unfold decodePart decodeExcept
  rw [Url.encode_eq_bytes, String.toList_ofList, Url.percentDecode_escape_eq rfl, Url.decodeLossy_bytes]

theorem escape_eq_empty_iff {text : List Char} :
    String.ofList (escape isLate text) = "" ↔ text = [] := by
  constructor
  · intro h
    have hdecode := decodePart_escape text
    rw [h, show decodePart "" = String.ofList [] by decide +kernel] at hdecode
    exact (String.ofList_inj.mp hdecode).symm
  · rintro rfl
    rfl

/-! ## Paths of segments -/

/-- The segments, each behind a slash. -/
def joined (parts : List (List Char)) : List Char :=
  parts.flatMap ('/' :: ·)

theorem joined_cons (part : List Char) (parts : List (List Char)) :
    joined (part :: parts) = '/' :: part ++ joined parts :=
  List.flatMap_cons

theorem intercalate_cons_eq_joined (first : List Char) (parts : List (List Char)) :
    List.intercalate ['/'] (first :: parts) = first ++ joined parts := by
  induction parts generalizing first with
  | nil => simp [joined]
  | cons part parts ih => rw [List.intercalate_cons_cons, ih, joined_cons]; simp

/-- The slashes between the segments are the only ones that are left after the first pass. -/
theorem percentDecode_joined (parts : List (List Char)) :
    Url.percentDecode isKept (bytes (joined (parts.map (escape Part.segment.encodes)))) =
      bytes (joined (parts.map (escape isLate))) := by
  have hslash : String.utf8EncodeChar '/' = [0x2f] := by decide
  have hsub : ∀ c, Part.segment.encodes c = false → isLate c = false := by
    intro c
    contrapose!
    simp only [ne_eq, Bool.not_eq_false, isLate, Bool.or_eq_true, decide_eq_true_eq]
    rintro (rfl | rfl) <;> decide
  induction parts with
  | nil => rfl
  | cons part parts ih =>
    simp only [List.map_cons, joined_cons, List.cons_append, Url.bytes_cons, Url.bytes_append, hslash,
      List.nil_append]
    rw [Url.percentDecode_cons_of_ne (by decide), Url.percentDecode_escape (by decide) hsub
      (fun _ hc _ hbyte => isKept_eq_isLate hc hbyte), ih]

/-- Neither the mark of a query nor the one of a fragment stands in an encoded path. -/
theorem not_mem_joined {x : Char} (hencoded : Part.segment.encodes x = true) (hslash : x ≠ '/')
    (hx : x ≠ '%' ∧ ∀ n : Fin 16, x ≠ (Hex.digit n).toUpper) (parts : List (List Char)) :
    x ∉ joined (parts.map (escape Part.segment.encodes)) := by
  intro hmem
  obtain ⟨part, hpart, hmem⟩ := List.mem_flatMap.mp hmem
  obtain ⟨text, -, rfl⟩ := List.mem_map.mp hpart
  obtain hmem | hmem := List.mem_cons.mp hmem
  · exact hslash hmem
  · exact Url.not_mem_escape hencoded hx text hmem

theorem splitOn_joined {parts : List (List Char)} (h : ∀ part ∈ parts, '/' ∉ part) :
    (joined parts).splitOn '/' = [] :: parts := by
  have hjoined := intercalate_cons_eq_joined [] parts
  rw [List.nil_append] at hjoined
  rw [← hjoined]
  exact List.splitOn_intercalate '/' (by simpa using h) (List.cons_ne_nil _ _)

/-- The segments of an encoded path, as the first pass leaves them. -/
theorem segments_joined (parts : List (List Char)) :
    segments (String.ofList (joined (parts.map (escape Part.segment.encodes)))) =
      "" :: parts.map fun part => String.ofList (escape isLate part) := by
  have hslash : ∀ part ∈ parts.map (escape isLate), '/' ∉ part := by
    intro part hpart
    obtain ⟨text, -, rfl⟩ := List.mem_map.mp hpart
    exact Url.not_mem_escape rfl (by decide) text
  have hsingle : "/" = String.singleton '/' := rfl
  unfold segments decodeExcept
  rw [Url.encode_eq_bytes, String.toList_ofList, percentDecode_joined, Url.decodeLossy_bytes, hsingle,
    Text.splitOn_singleton, String.toList_ofList, splitOn_joined hslash]
  simp

/-! ## Routes -/

/-- The path of a target ends before its query. -/
theorem pathOf_append {path rest : List Char} (hpath : ∀ c ∈ path, c ≠ '?' ∧ c ≠ '#')
    (hrest : rest = [] ∨ rest.head? = some '?') :
    pathOf (String.ofList (path ++ rest)) = String.ofList path := by
  unfold pathOf
  rw [String.toList_ofList, List.takeWhile_append_of_pos (by simpa using hpath)]
  obtain rfl | hrest := hrest
  · simp
  · cases rest with
    | nil => simp
    | cons c rest =>
      cases hrest
      simp

/-- Five segments that name an update, with a part for the name that may be empty. -/
theorem ofPath?_update {path type name value : String}
    (h : segments path = ["", "update", type, name, value]) (htype : type ≠ "") (hvalue : value ≠ "") :
    ofPath? path =
      if name = "" then none
      else some (.updatePath (decodePart type) (decodePart name) (decodePart value)) := by
  have hend : dropFinalSlash (segments path) = segments path := by
    simp [dropFinalSlash, h, hvalue]
  unfold ofPath?
  simp only [hend]
  simp [h, htype, hvalue]

/-- An update without a name is none. -/
theorem ofPath?_update_short {path type value : String}
    (h : segments path = ["", "update", type, value]) (hvalue : value ≠ "") : ofPath? path = none := by
  have hend : dropFinalSlash (segments path) = segments path := by
    simp [dropFinalSlash, h, hvalue]
  unfold ofPath?
  simp only [hend]
  simp [h]

end Collector.Route

end Telemetry
