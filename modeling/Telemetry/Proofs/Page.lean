-- SUMMARY: The metrics page shows every entry of a snapshot, in order and as it is, whatever names and values hold.
import Mathlib
import Telemetry.Page
import Telemetry.Proofs.Snapshot
import Telemetry.Proofs.Text.ByteOrder

/-!
# The metrics page

A line shows the name and the value of an entry as one text, which is escaped as a whole and closed by a
break. An escaped text has no angle bracket, so a page is cut into its lines at its breaks, and undoing the
entities gives back what each line shows.
-/

namespace Telemetry

namespace Snapshot

/-- The order of the bytes of the types, then of the bytes of the names. -/
def Entry.Precedes (e e' : Entry) : Prop :=
  Utf8.encode e.type < Utf8.encode e'.type ∨
    e.type = e'.type ∧ Utf8.encode e.name < Utf8.encode e'.name

/-- The entries are listed in the order of their bytes. -/
theorem pairwise_toEntries (s : Snapshot) : s.toEntries.Pairwise Entry.Precedes := by
  unfold toEntries
  refine List.pairwise_flatMap.mpr ⟨fun p _ => ?_, (SortedMap.ascending s).imp fun hlt e he e' he' => ?_⟩
  · exact List.pairwise_map.mpr
      ((SortedMap.ascending p.2).imp fun hlt => .inr ⟨rfl, Utf8.encode_lt_encode_iff.mpr hlt⟩)
  · obtain ⟨-, -, rfl⟩ := List.mem_map.mp he
    obtain ⟨-, -, rfl⟩ := List.mem_map.mp he'
    exact .inl (Utf8.encode_lt_encode_iff.mpr hlt)

end Snapshot

namespace Page

-- ---------------------------------------------------------------------------
-- Escaped texts
-- ---------------------------------------------------------------------------

/-- Undo the entities of a text, each of them once. -/
def unescapeChars : List Char → List Char
  | [] => []
  | '&' :: 'l' :: 't' :: ';' :: rest => '<' :: unescapeChars rest
  | '&' :: 'g' :: 't' :: ';' :: rest => '>' :: unescapeChars rest
  | '&' :: 'a' :: 'm' :: 'p' :: ';' :: rest => '&' :: unescapeChars rest
  | c :: rest => c :: unescapeChars rest

/-- The text that a browser shows for an escaped one. -/
def unescape (text : String) : String :=
  .ofList (unescapeChars text.toList)

theorem toList_escape (text : String) :
    (escape text).toList = text.toList.flatMap fun c => (escapeChar c).toList := by
  rw [escape, String.toList_join, List.flatMap_map]

theorem escape_append (a b : String) : escape (a ++ b) = escape a ++ escape b := by
  refine String.ext ?_
  rw [String.toList_append, toList_escape, toList_escape, toList_escape, String.toList_append,
    List.flatMap_append]

/-- The entities of escaped texts. -/
def entities : List String := ["&lt;", "&gt;", "&amp;"]

/-- A character becomes an entity, or it is not special and stays. -/
theorem escapeChar_cases (c : Char) :
    escapeChar c ∈ entities ∨ c ≠ '<' ∧ c ≠ '>' ∧ c ≠ '&' ∧ (escapeChar c).toList = [c] := by
  unfold escapeChar
  split_ifs with hlt hgt hamp
  · exact .inl (by decide)
  · exact .inl (by decide)
  · exact .inl (by decide)
  · exact .inr ⟨hlt, hgt, hamp, String.toList_singleton c⟩

/-- An escaped text has no angle brackets. -/
theorem not_mem_escape {bracket : Char} (hbracket : bracket ∈ ['<', '>']) (text : String) :
    bracket ∉ (escape text).toList := by
  have hentities : ∀ bracket ∈ ['<', '>'], ∀ entity ∈ entities, bracket ∉ entity.toList := by
    simp [entities]
  rw [toList_escape]
  intro hmem
  obtain ⟨c, -, hc⟩ := List.mem_flatMap.mp hmem
  rcases escapeChar_cases c with hentity | ⟨hlt, hgt, -, hplain⟩
  · exact hentities _ hbracket _ hentity hc
  · rw [hplain, List.mem_singleton] at hc
    subst hc
    simp [hlt, hgt] at hbracket

theorem unescapeChars_cons_of_ne {c : Char} (h : c ≠ '&') (rest : List Char) :
    unescapeChars (c :: rest) = c :: unescapeChars rest := by
  rw [unescapeChars.eq_5] <;> intros <;> contradiction

theorem unescapeChars_escapeChar (c : Char) (rest : List Char) :
    unescapeChars ((escapeChar c).toList ++ rest) = c :: unescapeChars rest := by
  unfold escapeChar
  split_ifs with hlt hgt hamp
  · exact hlt ▸ rfl
  · exact hgt ▸ rfl
  · exact hamp ▸ rfl
  · rw [Char.toString_eq_singleton, String.toList_singleton]
    exact unescapeChars_cons_of_ne hamp rest

/-- Undoing the entities gives back what was escaped. -/
theorem unescape_escape (text : String) : unescape (escape text) = text := by
  have hchars : ∀ chars : List Char,
      unescapeChars (chars.flatMap fun c => (escapeChar c).toList) = chars := by
    intro chars
    induction chars with
    | nil => rfl
    | cons c chars ih => rw [List.flatMap_cons, unescapeChars_escapeChar, ih]
  rw [unescape, toList_escape, hchars, String.ofList_toList]

-- ---------------------------------------------------------------------------
-- Words in a text
-- ---------------------------------------------------------------------------

/-- Wherever the character stands in the text, it stands in one of the words. -/
def StandsIn (c : Char) (words : List String) (text : String) : Prop :=
  ∀ before after, text.toList = before ++ c :: after →
    ∃ word ∈ words, ∃ left right, word.toList = left ++ c :: right ∧ left <:+ before ∧ right <+: after

section StandsIn

variable {c : Char} {words : List String} {text : String}

theorem standsIn_of_not_mem (h : c ∉ text.toList) : StandsIn c words text :=
  fun _ _ htext => absurd (htext ▸ List.mem_append_right _ List.mem_cons_self) h

theorem standsIn_of_mem {word : String} (h : word ∈ words) : StandsIn c words word :=
  fun before after hword => ⟨word, h, before, after, hword, List.suffix_rfl, List.prefix_rfl⟩

theorem StandsIn.append {a b : String} (ha : StandsIn c words a) (hb : StandsIn c words b) :
    StandsIn c words (a ++ b) := by
  intro before after htext
  rw [String.toList_append, List.append_eq_append_iff] at htext
  -- The character stands in the first text, unless that text ends before it.
  rcases htext with ⟨inside, rfl, hinside⟩ | ⟨rest, hrest, htail⟩
  · obtain ⟨word, hmem, left, right, hword, hleft, hright⟩ := hb inside after hinside
    exact ⟨word, hmem, left, right, hword, hleft.trans (List.suffix_append _ _), hright⟩
  · cases rest with
    | nil =>
      obtain ⟨word, hmem, left, right, hword, hleft, hright⟩ := hb [] after htail.symm
      obtain rfl := List.suffix_nil.mp hleft
      exact ⟨word, hmem, [], right, hword, List.nil_suffix, hright⟩
    | cons d rest =>
      obtain ⟨rfl, rfl⟩ := List.cons_eq_cons.mp htail
      obtain ⟨word, hmem, left, right, hword, hleft, hright⟩ := ha before rest hrest
      exact ⟨word, hmem, left, right, hword, hleft, hright.trans (List.prefix_append _ _)⟩

theorem standsIn_join {texts : List String} (h : ∀ text ∈ texts, StandsIn c words text) :
    StandsIn c words (String.join texts) := by
  induction texts with
  | nil => exact standsIn_of_not_mem List.not_mem_nil
  | cons text texts ih =>
    obtain ⟨htext, htexts⟩ := List.forall_mem_cons.mp h
    rw [String.join_cons]
    exact htext.append (ih htexts)

theorem StandsIn.mono {others : List String} (h : StandsIn c words text) (hsub : words ⊆ others) :
    StandsIn c others text := by
  intro before after htext
  obtain ⟨word, hmem, hword⟩ := h before after htext
  exact ⟨word, hsub hmem, hword⟩

/-- A character that words have in front only begins one of them. -/
theorem StandsIn.begins (h : StandsIn c words text) (hfront : ∀ word ∈ words, c ∉ word.toList.tail)
    {before after : List Char} (htext : text.toList = before ++ c :: after) :
    ∃ word ∈ words, word.toList <+: c :: after := by
  obtain ⟨word, hmem, left, right, hword, -, hright⟩ := h before after htext
  refine ⟨word, hmem, ?_⟩
  cases left with
  | nil => exact hword ▸ (List.prefix_cons_inj c).mpr hright
  | cons d left =>
    refine absurd ?_ (hfront word hmem)
    rw [hword]
    exact List.mem_append_right _ List.mem_cons_self

end StandsIn

/-- In an escaped text every ampersand belongs to an entity. -/
theorem standsIn_escape (text : String) : StandsIn '&' entities (escape text) := by
  refine standsIn_join fun part hpart => ?_
  obtain ⟨c, -, rfl⟩ := List.mem_map.mp hpart
  rcases escapeChar_cases c with hentity | ⟨-, -, hamp, hplain⟩
  · exact standsIn_of_mem hentity
  · exact standsIn_of_not_mem fun hmem => hamp (List.mem_singleton.mp (hplain ▸ hmem)).symm

-- ---------------------------------------------------------------------------
-- Lines
-- ---------------------------------------------------------------------------

/-- What the line of an entry shows. -/
def shown (e : Snapshot.Entry) : String :=
  e.name ++ ": " ++ e.value

/-- The lines of some entries. -/
def lines (entries : List Snapshot.Entry) : String :=
  String.join (entries.map line)

theorem line_eq (e : Snapshot.Entry) : line e = escape (shown e) ++ "<br>" := by
  rw [line, shown, escape_append, escape_append, show escape ": " = ": " by decide]

theorem standsIn_lines {c : Char} {words : List String}
    (hescape : ∀ text, StandsIn c words (escape text)) (hbreak : StandsIn c words "<br>")
    (entries : List Snapshot.Entry) : StandsIn c words (lines entries) := by
  refine standsIn_join fun part hpart => ?_
  obtain ⟨e, -, rfl⟩ := List.mem_map.mp hpart
  rw [line_eq]
  exact (hescape _).append hbreak

/-- Cut a text at its breaks. -/
def cutChars : List Char → List (List Char)
  | [] => [[]]
  | '<' :: 'b' :: 'r' :: '>' :: rest => [] :: cutChars rest
  | c :: rest => (cutChars rest).modifyHead (c :: ·)

/-- The parts of a text between its breaks, with what stands before the first and after the last one. -/
def cut (text : String) : List String :=
  (cutChars text.toList).map .ofList

theorem cutChars_append {part : List Char} (h : '<' ∉ part) (rest : List Char) :
    cutChars (part ++ "<br>".toList ++ rest) = part :: cutChars rest := by
  induction part with
  | nil => rfl
  | cons c part ih =>
    obtain ⟨hc, hpart⟩ := not_or.mp (mt List.mem_cons.mpr h)
    have hstep : ∀ others, cutChars (c :: others) = (cutChars others).modifyHead (c :: ·) := by
      intro others
      rw [cutChars.eq_3]
      rintro _ rfl
      exact absurd rfl hc
    rw [List.cons_append, List.cons_append, hstep, ih hpart, List.modifyHead_cons]

/-- The lines are cut apart where they end, and nothing follows the last one. -/
theorem cut_lines (entries : List Snapshot.Entry) :
    cut (lines entries) = entries.map (fun e => escape (shown e)) ++ [""] := by
  unfold cut lines
  induction entries with
  | nil => rfl
  | cons e entries ih =>
    rw [List.map_cons, String.join_cons, line_eq, String.toList_append, String.toList_append,
      cutChars_append (not_mem_escape List.mem_cons_self _), List.map_cons, ih, String.ofList_toList]
    rfl

theorem unescape_cut_lines (entries : List Snapshot.Entry) :
    (cut (lines entries)).map unescape = entries.map shown ++ [""] := by
  rw [cut_lines, List.map_append, List.map_map]
  exact congrArg (· ++ [""]) (List.map_congr_left fun e _ => unescape_escape (shown e))

-- ---------------------------------------------------------------------------
-- Pages
-- ---------------------------------------------------------------------------

/-- Two pages are the same exactly if their lines show the same texts in the same order. -/
theorem write_eq_write_iff {s s' : Snapshot} :
    write s = write s' ↔ s.toEntries.map shown = s'.toEntries.map shown := by
  constructor
  · intro h
    have hlines : lines s.toEntries = lines s'.toEntries := by
      refine String.ext ?_
      have hlist := congrArg String.toList h
      simpa [write, lines] using hlist
    have hcut := congrArg (fun body => (cut body).map unescape) hlines
    simp only [unescape_cut_lines] at hcut
    exact List.append_cancel_right hcut
  · intro h
    have hline : line = (fun text => escape text ++ "<br>") ∘ shown := funext line_eq
    unfold write
    rw [hline, ← List.map_map, ← List.map_map, h]

/-- The tags of a page. -/
def tags : List String := ["<html>", "<br>", "</html>"]

/-- The page of a snapshot has a line for each entry and nothing else, in the order of the bytes of the types
    and then of the names. Every angle bracket belongs to a tag, between the outer ones to a break, and
    every ampersand begins an entity. Cut at the breaks and with the entities undone, the lines are the names
    and values of the entries, whatever these hold. -/
theorem page_shows_entries (s : Snapshot) :
    (∀ e, e ∈ s.toEntries ↔ s.value? e.type e.name = some e.value) ∧
    s.toEntries.Pairwise Snapshot.Entry.Precedes ∧
    ∃ body, write s = "<html>" ++ body ++ "</html>" ∧
      body = String.join
        (s.toEntries.map fun e => escape e.name ++ ": " ++ escape e.value ++ "<br>") ∧
      (∀ bracket ∈ ['<', '>'], StandsIn bracket ["<br>"] body ∧ StandsIn bracket tags (write s)) ∧
      (∀ before after, (write s).toList = before ++ '&' :: after →
        ∃ entity ∈ entities, entity.toList <+: '&' :: after) ∧
      (cut body).map unescape = s.toEntries.map (fun e => e.name ++ ": " ++ e.value) ++ [""] := by
  refine ⟨fun e => Snapshot.mem_toEntries_iff, s.pairwise_toEntries, lines s.toEntries, rfl, rfl,
    fun bracket hbracket => ?_, fun before after htext => ?_, unescape_cut_lines _⟩
  · have hlines : StandsIn bracket ["<br>"] (lines s.toEntries) :=
      standsIn_lines (fun _ => standsIn_of_not_mem (not_mem_escape hbracket _))
        (standsIn_of_mem (by decide)) _
    have hopen : StandsIn bracket tags "<html>" := standsIn_of_mem (by decide)
    have hclose : StandsIn bracket tags "</html>" := standsIn_of_mem (by decide)
    exact ⟨hlines, (hopen.append (hlines.mono (by decide))).append hclose⟩
  · have hlines : StandsIn '&' entities (lines s.toEntries) :=
      standsIn_lines standsIn_escape (standsIn_of_not_mem (by decide)) _
    have hopen : StandsIn '&' entities "<html>" := standsIn_of_not_mem (by decide)
    have hclose : StandsIn '&' entities "</html>" := standsIn_of_not_mem (by decide)
    exact ((hopen.append hlines).append hclose).begins (by decide) htext

/-- A name that is a break, and a value that is an entity. -/
example : write (.ofEntries [⟨"gauge", "<br>", "&lt;"⟩]) = "<html>&lt;br&gt;: &amp;lt;<br></html>" := by
  decide +kernel

end Page

end Telemetry
