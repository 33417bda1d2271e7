-- SUMMARY: Metrics named in paths: what an agent appends to an address, and the metric that a collector finds there.
import Mathlib
import Telemetry.Agent.Pusher
import Telemetry.Collector.Basic
import Telemetry.Proofs.Collector.Routing
import Telemetry.Proofs.Metric.Text
import Telemetry.Proofs.Wire.Conversion

/-!
# Metrics named in paths

An agent may send a metric without a body, as four segments behind its address. A segment is encoded as a
whole and a collector decodes it as a whole, so every character that gets into the path comes back. But
tabs and line breaks do not get there, and dot segments are resolved before the request is sent: a name
with such a character arrives as another one, and a name of dots alone leads to no route.
-/

namespace Telemetry

namespace Url

/-! ## Adding segments -/

/-- The character is dropped from every address. -/
def isBreak (c : Char) : Bool :=
  c = '\t' || c = '\n' || c = '\r'

/-- What a segment is made of. -/
def withoutBreaks (text : String) : List Char :=
  text.toList.filter fun c => !isBreak c

theorem withoutBreaks_of_forall {text : String} (h : ∀ c ∈ text.toList, isBreak c = false) :
    withoutBreaks text = text.toList :=
  List.filter_eq_self.mpr (by simpa using h)

theorem ofList_withoutBreaks_eq_iff {text : String} :
    String.ofList (withoutBreaks text) = text ↔ ∀ c ∈ text.toList, isBreak c = false := by
  simp [← String.toList_inj, withoutBreaks, List.filter_eq_self]

/-- An encoded segment is told by what it decodes to. -/
theorem eq_of_encodePart_mem {text plain : List Char} {spellings : List String}
    (hspellings : ∀ s ∈ spellings, percentDecode (fun _ => false) (Utf8.encode s) = bytes plain)
    (h : encodePart .segment text ∈ spellings) : text = plain := by
  have hsame := hspellings _ h
  rw [encodePart_eq, encode_eq_bytes, String.toList_ofList, percentDecode_escape_eq rfl] at hsame
  exact bytes_injective hsame

theorem isSingleDot_encodePart {text : List Char} :
    isSingleDot (encodePart .segment text) = true ↔ text = ['.'] := by
  constructor
  · intro h
    exact eq_of_encodePart_mem (by decide +kernel) (List.contains_iff_mem.mp h)
  · rintro rfl
    decide

theorem isDoubleDot_encodePart {text : List Char} :
    isDoubleDot (encodePart .segment text) = true ↔ text = ['.', '.'] := by
  constructor
  · intro h
    exact eq_of_encodePart_mem (by decide +kernel) (List.contains_iff_mem.mp h)
  · rintro rfl
    decide

/-- A segment behind others; the ones that are resolved leave an empty segment, or nothing at all. -/
theorem addSegment_eq {path : List String} (hpath : path ≠ [""]) (raw : String) :
    addSegment path raw =
      if raw = "." ∨ raw = ".." then path
      else if withoutBreaks raw = ['.', '.'] then (removeLast path.reverse).reverse ++ [""]
      else if withoutBreaks raw = ['.'] then path ++ [""]
      else path ++ [encodePart .segment (withoutBreaks raw)] := by
  have hkept : (raw.toList.filter fun c => c ≠ '\t' && c ≠ '\n' && c ≠ '\r') = withoutBreaks raw := by
    simp [withoutBreaks, isBreak, Bool.and_assoc]
  unfold addSegment
  simp only [hpath, hkept, if_false, resolveSegment, isDoubleDot_encodePart, isSingleDot_encodePart,
    Bool.or_eq_true, decide_eq_true_eq, if_true]
  split_ifs <;> simp

/-- Most segments are put behind the others as they are encoded. -/
theorem addSegment_of_plain {path : List String} (hpath : path ≠ [""]) {raw : String}
    (hdot : raw ≠ ".") (hdots : raw ≠ "..") (hraw : ∀ c ∈ raw.toList, isBreak c = false) :
    addSegment path raw = path ++ [encodePart .segment raw.toList] := by
  have hkept := withoutBreaks_of_forall hraw
  have hdot' : raw.toList ≠ ['.'] := fun h => hdot (String.toList_inj.mp h)
  have hdots' : raw.toList ≠ ['.', '.'] := fun h => hdots (String.toList_inj.mp h)
  rw [addSegment_eq hpath, hkept]
  simp [hdot, hdots, hdot', hdots']

/-! ## The path of an update -/

/-- What the segments before the value are made of, if a metric is named in a path. -/
def namedParts (k : Kind) (name : String) : List (List Char) :=
  if name = "." ∨ name = ".." then ["update".toList, k.name.toList]
  else if withoutBreaks name = ['.', '.'] then ["update".toList, []]
  else if withoutBreaks name = ['.'] then ["update".toList, k.name.toList, []]
  else ["update".toList, k.name.toList, withoutBreaks name]

theorem encodePart_update : encodePart .segment ['u', 'p', 'd', 'a', 't', 'e'] = "update" := by
  decide

theorem encodePart_name (k : Kind) : encodePart .segment k.name.toList = k.name := by
  cases k <;> decide

theorem addSegment_name (k : Kind) (name : String) :
    addSegment ["update", k.name] name = (namedParts k name).map (encodePart .segment) := by
  have hletter : isDriveLetter k.name = false := by cases k <;> decide
  have hempty : encodePart .segment [] = "" := by decide
  rw [addSegment_eq (by simp)]
  unfold namedParts
  split_ifs <;> simp [encodePart_update, encodePart_name, hempty, removeLast, hletter]

theorem text_ne_dots (v : Value) : v.text ≠ "." ∧ v.text ≠ ".." := by
  have hread := v.read_text
  constructor <;> intro h <;> rw [h] at hread
  · exact Value.read_dots.1 hread
  · exact Value.read_dots.2 hread

theorem isBreak_of_isTextChar {c : Char} (h : Value.isTextChar c = true) : isBreak c = false := by
  by_contra hbreak
  simp only [isBreak, Bool.not_eq_false, Bool.or_eq_true, decide_eq_true_eq] at hbreak
  obtain (rfl | rfl) | rfl := hbreak <;> cases h

/-- An address without a path gets the segments of the update and no others. -/
theorem path_addSegments {base : Url} (hbase : base.path = [""]) (k : Kind) (name : String)
    (v : Value) :
    (base.addSegments ["update", k.name, name, v.text]).path =
      (namedParts k name ++ [v.text.toList]).map (encodePart .segment) := by
  have hupdate : addSegment [""] "update" = ["update"] := by decide
  have hkind : addSegment ["update"] k.name = ["update", k.name] := by cases k <;> decide
  have hdrop : dropEmptyEnd [""] = [""] := by decide
  have hparts : (namedParts k name).map (encodePart .segment) ≠ [""] := by
    unfold namedParts
    split_ifs <;> simp
  have hvalue : ∀ c ∈ v.text.toList, isBreak c = false :=
    fun c hc => isBreak_of_isTextChar (v.isTextChar_text c hc)
  unfold addSegments
  simp only [hbase, hdrop, List.foldl_cons, List.foldl_nil, hupdate, hkind, addSegment_name]
  rw [addSegment_of_plain hparts (text_ne_dots v).1 (text_ne_dots v).2 hvalue]
  simp

end Url

namespace Collector.Route

open Url (Part bytes escape encodePart namedParts withoutBreaks)

/-! ## The route of an update -/

/-- The path that is asked for consists of the encoded segments; a query is no part of it. -/
theorem pathOf_requestTarget {u : Url} {first : List Char} {parts : List (List Char)}
    (hpath : u.path = (first :: parts).map (encodePart .segment)) :
    pathOf u.requestTarget =
      String.ofList (joined ((first :: parts).map (escape Part.segment.encodes))) := by
  have hwritten : u.writePath.toList = joined ((first :: parts).map (escape Part.segment.encodes)) := by
    unfold Url.writePath
    rw [hpath, String.toList_append, String.toList_intercalate]
    simp [Url.encodePart_eq, intercalate_cons_eq_joined, joined_cons, Function.comp_def]
  have hplain : ∀ c ∈ u.writePath.toList, c ≠ '?' ∧ c ≠ '#' := by
    rw [hwritten]
    refine fun c hc => ⟨?_, ?_⟩ <;> rintro rfl
    · exact not_mem_joined (by decide) (by decide) (by decide) _ hc
    · exact not_mem_joined (by decide) (by decide) (by decide) _ hc
  unfold Url.requestTarget
  have htarget : u.writePath ++ (u.query.map ("?" ++ ·)).getD "" =
      String.ofList (u.writePath.toList ++ ((u.query.map ("?" ++ ·)).getD "").toList) := by
    simp
  rw [htarget, pathOf_append hplain, hwritten]
  cases u.query with
  | none => exact .inl rfl
  | some query => exact .inr (by simp)

theorem segments_requestTarget {u : Url} {first : List Char} {parts : List (List Char)}
    (hpath : u.path = (first :: parts).map (encodePart .segment)) :
    segments (pathOf u.requestTarget) =
      "" :: (first :: parts).map fun part => String.ofList (escape isLate part) := by
  rw [pathOf_requestTarget hpath, segments_joined]

/-- Most names are found in the path as they are without breaks; of the others nothing is found. -/
theorem ofPath?_addSegments {base : Url} (hbase : base.path = [""]) (k : Kind) (name : String)
    (v : Value) :
    let kept := String.ofList (withoutBreaks name)
    ofPath? (pathOf (base.addSegments ["update", k.name, name, v.text]).requestTarget) =
      if kept ∈ ["", ".", ".."] then none else some (.updatePath k.name kept v.text) := by
  intro kept
  have hpath := Url.path_addSegments hbase k name v
  have hupdate : escape isLate ['u', 'p', 'd', 'a', 't', 'e'] = "update".toList := by decide
  have hkind : escape isLate k.name.toList = k.name.toList := by cases k <;> decide
  have hvalue : String.ofList (escape isLate v.text.toList) ≠ "" := by
    rw [ne_eq, escape_eq_empty_iff, String.toList_eq_nil_iff]
    exact v.text_ne_empty
  have hdecode := decodePart_escape v.text.toList
  unfold namedParts at hpath
  split_ifs at hpath with hdots hdouble hsingle
  all_goals
    have hsegments := segments_requestTarget hpath
    simp [hupdate, hkind] at hsegments
  · rw [ofPath?_update_short hsegments hvalue, if_pos]
    obtain rfl | rfl := hdots <;> decide
  · rw [ofPath?_update_short hsegments hvalue, if_pos]
    simp [kept, hdouble]
  · rw [ofPath?_update hsegments (Kind.name_ne_empty k) hvalue, if_pos (escape_eq_empty_iff.mpr rfl),
      if_pos]
    simp [kept, hsingle]
  · have hkindDecode : decodePart k.name = k.name := by
      simpa [hkind] using decodePart_escape k.name.toList
    have hkept : kept ∈ ["", ".", ".."] ↔ withoutBreaks name = [] := by
      simp [kept, ← String.toList_inj, hdouble, hsingle]
    rw [ofPath?_update hsegments (Kind.name_ne_empty k) hvalue, hkindDecode, decodePart_escape, hdecode]
    simp only [escape_eq_empty_iff, hkept, String.ofList_toList]
    rfl

end Collector.Route

/-! ## What a collector makes of it -/

namespace Collector

open Http (Request)
open Wire.Converter (plainRecord)

/-- The parts of a path are read as the record of a metric. -/
theorem pathRecord_text (m : Metric) :
    pathRecord m.kind.name m.name m.value.text = .ok (plainRecord m) := by
  obtain ⟨name, value⟩ := m
  have hread := value.read_text
  unfold pathRecord Metric.kind
  rw [Kind.read_name, ok_bind, hread, ok_bind]
  cases value <;> rfl

/-- A record without a signature is accepted under every key. -/
theorem decode_plainRecord (c : Wire.Converter) {m : Metric} (hname : m.name ≠ "") :
    c.decode (plainRecord m) = .ok m := by
  have hstands := Wire.Converter.standsFor_plainRecord m (plainRecord m).hash
  have hunsigned : (plainRecord m).signature? = none := by
    simp [Wire.Record.signature?, Wire.Converter.hash_plainRecord]
  refine Wire.Converter.decode_eq_ok_iff.mpr ⟨?_, by simp [hunsigned]⟩
  exact Wire.Converter.readMetric_eq_ok_iff.mpr ⟨hstands.id ▸ hname, hstands⟩

/-- A metric that is named in a path is stored. -/
theorem updatePath_text (c : Collector) {m : Metric} (hname : m.name ≠ "") :
    c.updatePath m.kind.name m.name m.value.text =
      ((c.addMetrics [m]).1.map fun _ => (), (c.addMetrics [m]).2) := by
  unfold updatePath
  rw [pathRecord_text, ok_bind, decode_plainRecord c.converter hname]

theorem respond_of_updatePath (c : Collector) {r : Request} {m : Metric} (hmethod : r.method = "POST")
    (hroute : Route.ofPath? (Route.pathOf r.target) =
      some (.updatePath m.kind.name m.name m.value.text)) (hname : m.name ≠ "") :
    c.respond r = (response (fun _ => .text 200 "ok") (c.addMetrics [m]).1, (c.addMetrics [m]).2) := by
  unfold respond
  simp only [hroute, Route.method, hmethod, if_true, respondAt, updatePath_text c hname]
  cases (c.addMetrics [m]).1 <;> rfl

theorem respond_of_no_route (c : Collector) {r : Request}
    (hroute : Route.ofPath? (Route.pathOf r.target) = none) : c.respond r = (.empty 404, c) := by
  unfold respond
  rw [hroute]

end Collector

namespace Agent.Pusher

open Collector (Route pathRecord response)
open Wire.Converter (plainRecord)

theorem exists_pathDelivery {p : Pusher} {base : Url}
    (hread : Url.readWeb? p.toAscii? p.baseUrl = some (.ok base)) (m : Metric) :
    ∃ d, p.pathDelivery m = .ok d ∧
      d.url = base.addSegments ["update", m.kind.name, m.name, m.value.text] := by
  unfold pathDelivery
  rw [hread]
  exact ⟨_, rfl, rfl⟩

/-- A metric that is sent in a path is found by a collector under its name without tabs and line breaks,
    with its type and its value, and is stored as this metric. If nothing of the name is left, or nothing
    but one point or two, there is no route and nothing is stored. So a metric arrives under its own name
    exactly if this has none of these characters and is no dot segment. -/
theorem named_metric_arrives_without_breaks {p : Pusher} {base : Url}
    (hread : Url.readWeb? p.toAscii? p.baseUrl = some (.ok base)) (hbase : base.path = [""]) (m : Metric)
    (hname : m.name ≠ "") :
    let kept : Metric := ⟨String.ofList (Url.withoutBreaks m.name), m.value⟩
    ∃ d, p.pathDelivery m = .ok d ∧
      (Route.ofPath? (Route.pathOf d.url.requestTarget) =
        if kept.name ∈ ["", ".", ".."] then none
        else some (.updatePath m.kind.name kept.name m.value.text)) ∧
      (Route.ofPath? (Route.pathOf d.url.requestTarget) =
          some (.updatePath m.kind.name m.name m.value.text) ↔
        (∀ c ∈ m.name.toList, Url.isBreak c = false) ∧ m.name ≠ "." ∧ m.name ≠ "..") ∧
      pathRecord m.kind.name kept.name m.value.text = .ok (plainRecord kept) ∧
      ∀ (c : Collector) (r : Http.Request), r.method = "POST" → r.target = d.url.requestTarget →
        c.respond r =
          if kept.name ∈ ["", ".", ".."] then (.empty 404, c)
          else
            (response (fun _ => .text 200 "ok") (c.addMetrics [kept]).1, (c.addMetrics [kept]).2) := by
  intro kept
  obtain ⟨d, hdelivery, hurl⟩ := exists_pathDelivery hread m
  have hroute : Route.ofPath? (Route.pathOf d.url.requestTarget) =
      if kept.name ∈ ["", ".", ".."] then none
      else some (.updatePath m.kind.name kept.name m.value.text) :=
    hurl ▸ Route.ofPath?_addSegments hbase m.kind m.name m.value
  have hsame : kept.name = m.name ↔ ∀ c ∈ m.name.toList, Url.isBreak c = false :=
    Url.ofList_withoutBreaks_eq_iff
  refine ⟨d, hdelivery, hroute, ?_, Collector.pathRecord_text kept, fun c r hmethod htarget => ?_⟩
  · rw [hroute, ← hsame]
    clear_value kept
    split_ifs with hdots
    · refine iff_of_false nofun ?_
      rintro ⟨heq, hdot, hdots'⟩
      simp [heq, hname, hdot, hdots'] at hdots
    · simp only [Option.some.injEq, Route.updatePath.injEq, true_and, and_true]
      refine ⟨fun heq => ⟨heq, ?_, ?_⟩, fun h => h.1⟩ <;> intro hdot
      · exact hdots (by simp [heq, hdot])
      · exact hdots (by simp [heq, hdot])
  · rw [← htarget] at hroute
    by_cases hdots : kept.name ∈ ["", ".", ".."]
    · rw [if_pos hdots] at hroute ⊢
      exact c.respond_of_no_route hroute
    · rw [if_neg hdots] at hroute ⊢
      refine c.respond_of_updatePath (m := kept) hmethod hroute fun hempty => hdots ?_
      rw [hempty]
      exact List.mem_cons_self

/-- The address of a collector on the same machine. -/
def localUrl : Url :=
  ⟨"http", "", none, "[::1]", some 8080, [""], none, none⟩

/-- A pusher with this address. -/
def localPusher : Pusher :=
  ⟨Url.Domain.toAscii?, "http://[::1]:8080", .ofKey "", .url, 1, Nat.one_pos, 1, Nat.one_pos, .ofSeconds 1,
    false⟩

theorem readWeb?_local : Url.readWeb? localPusher.toAscii? localPusher.baseUrl = some (.ok localUrl) := by
  decide

/-- A gauge that is not a number arrives under a name with a letter beyond ASCII, a blank, a percent sign,
    a slash and a control character. -/
theorem named_metric_arrives_with_slash :
    let m : Metric := ⟨"50%/ü +\x01", .gauge .nan⟩
    normalizeUrl localPusher.toAscii? "[::1]:8080" = .ok localPusher.baseUrl ∧
      Url.readWeb? localPusher.toAscii? localPusher.baseUrl = some (.ok localUrl) ∧
      localUrl.path = [""] ∧ m.name ≠ "" ∧
      ∃ d, localPusher.pathDelivery m = .ok d ∧
        Route.ofPath? (Route.pathOf d.url.requestTarget) =
          some (.updatePath m.kind.name m.name m.value.text) := by
  intro m
  have hname : m.name ≠ "" := by simp [m]
  have hplain : (∀ c ∈ m.name.toList, Url.isBreak c = false) ∧ m.name ≠ "." ∧ m.name ≠ ".." := by
    simp [m, Url.isBreak]
  have haddress : normalizeUrl localPusher.toAscii? "[::1]:8080" = .ok localPusher.baseUrl := by
    decide
  obtain ⟨d, hdelivery, -, hroute, -⟩ :=
    named_metric_arrives_without_breaks readWeb?_local rfl m hname
  exact ⟨haddress, readWeb?_local, rfl, hname, d, hdelivery, hroute.mpr hplain⟩

/-- A name with a tab arrives as the one without it, and a name of one point leads nowhere. -/
theorem named_metric_arrives_under_other_name :
    let tab : Metric := ⟨"a\tb", .counter 5⟩
    let point : Metric := ⟨".", .counter 5⟩
    (∃ d, localPusher.pathDelivery tab = .ok d ∧
      Route.ofPath? (Route.pathOf d.url.requestTarget) = some (.updatePath "counter" "ab" "5")) ∧
    ∃ d, localPusher.pathDelivery point = .ok d ∧
      Route.ofPath? (Route.pathOf d.url.requestTarget) = none := by
  intro tab point
  have htab : String.ofList (Url.withoutBreaks "a\tb") = "ab" := by
    simp [Url.withoutBreaks, Url.isBreak]
  have hpoint : String.ofList (Url.withoutBreaks ".") = "." := by
    simp [Url.withoutBreaks, Url.isBreak]
  obtain ⟨d, hdelivery, hurl⟩ := exists_pathDelivery readWeb?_local tab
  obtain ⟨d', hdelivery', hurl'⟩ := exists_pathDelivery readWeb?_local point
  have hbase : localUrl.path = [""] := rfl
  have hroute := Route.ofPath?_addSegments hbase tab.kind tab.name tab.value
  have hroute' := Route.ofPath?_addSegments hbase point.kind point.name point.value
  refine ⟨⟨d, hdelivery, ?_⟩, d', hdelivery', ?_⟩
  · rw [hurl, hroute, htab]
    rfl
  · rw [hurl', hroute', hpoint]
    rfl

end Agent.Pusher

end Telemetry
