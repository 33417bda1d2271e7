-- SUMMARY: Paths, queries and fragments in their canonical form, which a reader leaves alone.
import Mathlib
import Telemetry.Proofs.Number.Digits
import Telemetry.Proofs.Url.Name
import Telemetry.Proofs.Url.Percent
import Telemetry.Url.Basic

/-!
# Paths, queries and fragments

What follows the host of an address is encoded part by part, and the dot segments of the path are resolved.
Both are done once: nothing is left to encode in an encoded part, no segment of a resolved path is a dot
segment, and the marks between the parts stand in no part before them. So what was written of a path, a
query and a fragment is cut into the same parts again.
-/

namespace Telemetry

theorem splitOnP_congr {α : Type} {p q : α → Bool} {xs : List α} (h : ∀ x ∈ xs, p x = q x) :
    xs.splitOnP p = xs.splitOnP q := by
  induction xs with
  | nil => rfl
  | cons x xs ih =>
    obtain ⟨hx, hxs⟩ := List.forall_mem_cons.mp h
    rw [List.splitOnP_cons_eq_if_modifyHead, List.splitOnP_cons_eq_if_modifyHead, hx, ih hxs]

theorem intercalate_concat {α : Type} {separator : α} {pieces : List (List α)} (hne : pieces ≠ [])
    (last : List α) :
    List.intercalate [separator] (pieces ++ [last]) =
      List.intercalate [separator] pieces ++ separator :: last := by
  induction pieces with
  | nil => exact absurd rfl hne
  | cons piece pieces ih =>
    by_cases hpieces : pieces = []
    · subst hpieces
      rw [List.singleton_append, List.intercalate_cons_cons, List.intercalate_singleton,
        List.intercalate_singleton]
      simp
    · rw [List.cons_append, List.intercalate_cons_of_ne_nil (by simp),
        List.intercalate_cons_of_ne_nil hpieces, ih hpieces]
      simp

namespace Url

/-! ## Segments -/

/-- The text is a segment of a path that is resolved. -/
structure IsSegment (segment : String) : Prop where
  encoded : IsEncoded .path segment
  whole : ∀ c ∈ segment.toList, c ≠ '/' ∧ c ≠ '\\'
  noDot : isSingleDot segment = false
  noDots : isDoubleDot segment = false

theorem isSegment_empty : IsSegment "" :=
  ⟨isEncoded_empty _, by simp, rfl, rfl⟩

theorem IsSegment.resolveSegment_eq {segment : String} (h : IsSegment segment) (path : List String)
    (isLast : Bool) : resolveSegment path segment isLast = segment :: path := by
  unfold resolveSegment
  simp [h.noDot, h.noDots]

theorem mem_of_mem_removeLast {path : List String} {segment : String} (h : segment ∈ removeLast path) :
    segment ∈ path := by
  unfold removeLast at h
  split at h
  · exact h
  · split at h
    · exact h
    · exact List.mem_cons_of_mem _ h

theorem whole_encodePart {raw : List Char} (h : ∀ c ∈ raw, c ≠ '/' ∧ c ≠ '\\') :
    ∀ c ∈ (encodePart .path raw).toList, c ≠ '/' ∧ c ≠ '\\' := by
  have hdigit : ∀ n : Fin 16, (Hex.digit n).toUpper ≠ '/' ∧ (Hex.digit n).toUpper ≠ '\\' := by decide
  intro c hc
  rw [encodePart_eq, String.toList_ofList] at hc
  obtain ⟨hraw, -⟩ | rfl | ⟨n, rfl⟩ := of_mem_escape hc
  · exact h c hraw
  · decide
  · exact hdigit n

/-- A segment that is put behind others, whatever it is, leaves only segments that are resolved. -/
theorem isSegment_of_mem_resolveSegment {path : List String} (hpath : ∀ s ∈ path, IsSegment s)
    {raw : List Char} (hraw : ∀ c ∈ raw, c ≠ '/' ∧ c ≠ '\\') (isLast : Bool) :
    ∀ s ∈ resolveSegment path (encodePart .path raw) isLast, IsSegment s := by
  have hremoved : ∀ s ∈ removeLast path, IsSegment s := fun s hs => hpath s (mem_of_mem_removeLast hs)
  unfold resolveSegment
  split
  · split
    · exact List.forall_mem_cons.mpr ⟨isSegment_empty, hremoved⟩
    · exact hremoved
  next hdots =>
    split
    · split
      · exact List.forall_mem_cons.mpr ⟨isSegment_empty, hpath⟩
      · exact hpath
    next hdot =>
      have hencoded : IsEncoded .path (encodePart .path raw) := isEncoded_encodePart (by decide) raw
      have hsegment : IsSegment (encodePart .path raw) :=
        ⟨hencoded, whole_encodePart hraw, by simpa using hdot, by simpa using hdots⟩
      exact List.forall_mem_cons.mpr ⟨hsegment, hpath⟩

theorem isSegment_of_mem_resolveSegments {path : List String} (hpath : ∀ s ∈ path, IsSegment s)
    {pieces : List (List Char)} (hpieces : ∀ raw ∈ pieces, ∀ c ∈ raw, c ≠ '/' ∧ c ≠ '\\') :
    ∀ s ∈ resolveSegments path pieces, IsSegment s := by
  induction path, pieces using resolveSegments.induct with
  | case1 path => exact hpath
  | case2 path last =>
    rw [resolveSegments]
    exact isSegment_of_mem_resolveSegment hpath (hpieces last List.mem_cons_self) true
  | case3 path raw rest hrest ih =>
    obtain ⟨hraw, hothers⟩ := List.forall_mem_cons.mp hpieces
    rw [resolveSegments]
    · exact ih (isSegment_of_mem_resolveSegment hpath hraw false) hothers
    · exact hrest

theorem resolveSegments_ne_nil (path : List String) {pieces : List (List Char)} (hpieces : pieces ≠ []) :
    resolveSegments path pieces ≠ [] := by
  induction path, pieces using resolveSegments.induct with
  | case1 path => exact absurd rfl hpieces
  | case2 path last =>
    rw [resolveSegments]
    unfold resolveSegment
    repeat' split
    all_goals simp_all
  | case3 path raw rest hrest ih =>
    rw [resolveSegments]
    · exact ih hrest
    · exact hrest

theorem isSegment_of_mem_readPath (text : List Char) : ∀ s ∈ readPath text, IsSegment s := by
  intro s hs
  refine isSegment_of_mem_resolveSegments (by simp) (fun raw hraw c hc => ?_) s (List.mem_reverse.mp hs)
  have := (of_mem_splitOnP hraw c hc).2
  simpa using this

theorem readPath_ne_nil (text : List Char) : readPath text ≠ [] := by
  unfold readPath
  rw [ne_eq, List.reverse_eq_nil_iff]
  exact resolveSegments_ne_nil [] (List.splitOnP_ne_nil _ _)

theorem resolveSegments_of_isSegment {path segments : List String} (h : ∀ s ∈ segments, IsSegment s) :
    resolveSegments path (segments.map String.toList) = segments.reverse ++ path := by
  induction segments generalizing path with
  | nil => rfl
  | cons segment segments ih =>
    obtain ⟨hsegment, hsegments⟩ := List.forall_mem_cons.mp h
    cases segments with
    | nil =>
      rw [List.map_singleton, resolveSegments, hsegment.encoded.encodePart_eq, hsegment.resolveSegment_eq]
      rfl
    | cons next segments =>
      rw [List.map_cons, List.map_cons, resolveSegments, ← List.map_cons, hsegment.encoded.encodePart_eq,
        hsegment.resolveSegment_eq, ih hsegments]
      · simp
      · simp

/-- The text of a path. -/
def pathText (path : List String) : List Char :=
  '/' :: List.intercalate ['/'] (path.map String.toList)

theorem toList_writePath (u : Url) : u.writePath.toList = pathText u.path := by
  unfold writePath pathText
  rw [String.toList_append, String.toList_intercalate]
  rfl

theorem pathText_concat {path : List String} (hne : path ≠ []) (segment : String) :
    pathText (path ++ [segment]) = pathText path ++ '/' :: segment.toList := by
  unfold pathText
  rw [List.map_append, List.map_singleton, intercalate_concat (by simpa using hne)]
  rfl

/-- A resolved path is read as it was written. -/
theorem readPath_pathText {path : List String} (hne : path ≠ []) (h : ∀ s ∈ path, IsSegment s) :
    readPath (pathText path) = path := by
  have hmem : ∀ c ∈ List.intercalate ['/'] (path.map String.toList), c ≠ '\\' := by
    intro c hc
    obtain rfl | ⟨segment, hsegment, hc⟩ := of_mem_intercalate hc
    · decide
    · obtain ⟨s, hs, rfl⟩ := List.mem_map.mp hsegment
      exact ((h s hs).whole c hc).2
  have hsplit : splitPath (List.intercalate ['/'] (path.map String.toList)) = path.map String.toList := by
    unfold splitPath
    have hslash : ∀ c ∈ List.intercalate ['/'] (path.map String.toList),
        (decide (c = '/') || decide (c = '\\')) = (c == '/') := by
      intro c hc
      rw [decide_eq_false (hmem c hc), Bool.or_false]
      rfl
    rw [splitOnP_congr hslash]
    refine List.splitOn_intercalate '/' ?_ (by simpa using hne)
    simpa using fun s hs hslash => ((h s hs).whole '/' hslash).1 rfl
  unfold readPath pathText
  rw [List.drop_one, List.tail_cons, hsplit, resolveSegments_of_isSegment h, List.append_nil,
    List.reverse_reverse]

/-! ## Marks -/

theorem splitMark_of_not_mem {mark : Char} {text : List Char} (h : mark ∉ text) :
    splitMark mark text = (text, none) := by
  have hspan : text.span (· ≠ mark) = (text, []) :=
    span_of_forall fun c hc => decide_eq_true fun hmark => h (hmark ▸ hc)
  unfold splitMark
  rw [hspan]

theorem splitMark_append {mark : Char} {text : List Char} (h : mark ∉ text) (after : List Char) :
    splitMark mark (text ++ mark :: after) = (text, some after) := by
  have hspan : (text ++ mark :: after).span (· ≠ mark) = (text, mark :: after) :=
    span_append (fun c hc => decide_eq_true fun hmark => h (hmark ▸ hc)) (by simp)
  unfold splitMark
  rw [hspan]

/-- Path, query and fragment of the text behind a host. -/
def readTail (text : List Char) : List String × Option String × Option String :=
  let (beforeFragment, fragment) := splitMark '#' text
  let (path, query) := splitMark '?' beforeFragment
  (readPath path, query.map (encodePart .query), fragment.map (encodePart .fragment))

/-- A part that may be absent, behind its mark. -/
def marked (mark : Char) (part : Option String) : List Char :=
  match part with
  | some text => mark :: text.toList
  | none => []

/-- The text behind the host of an address. -/
def tailText (path : List String) (query fragment : Option String) : List Char :=
  pathText path ++ marked '?' query ++ marked '#' fragment

theorem splitMark_marked {mark : Char} {text : List Char} (h : mark ∉ text) (part : Option String) :
    splitMark mark (text ++ marked mark part) = (text, part.map String.toList) := by
  cases part with
  | none =>
    rw [marked, List.append_nil]
    exact splitMark_of_not_mem h
  | some after => exact splitMark_append h after.toList

theorem map_encodePart {part : Part} {text : Option String} (h : ∀ t ∈ text, IsEncoded part t) :
    (text.map String.toList).map (encodePart part) = text := by
  cases text with
  | none => rfl
  | some t => exact congrArg some (h t rfl).encodePart_eq

theorem not_mem_pathText {path : List String} (h : ∀ s ∈ path, IsSegment s) {mark : Char}
    (hmark : Part.path.encodes mark = true) (hslash : mark ≠ '/') : mark ∉ pathText path := by
  intro hmem
  obtain heq | hmem := List.mem_cons.mp hmem
  · exact hslash heq
  obtain heq | ⟨segment, hsegment, hmem⟩ := of_mem_intercalate hmem
  · exact hslash heq
  · obtain ⟨s, hs, rfl⟩ := List.mem_map.mp hsegment
    exact ne_of_encodes ((h s hs).encoded mark hmem) hmark rfl

/-- The parts are found again in the text that was written of them. -/
theorem readTail_tailText {path : List String} {query fragment : Option String} (hne : path ≠ [])
    (hpath : ∀ s ∈ path, IsSegment s) (hquery : ∀ q ∈ query, IsEncoded .query q)
    (hfragment : ∀ f ∈ fragment, IsEncoded .fragment f) :
    readTail (tailText path query fragment) = (path, query, fragment) := by
  have hhash : '#' ∉ pathText path ++ marked '?' query := by
    intro hmem
    obtain hmem | hmem := List.mem_append.mp hmem
    · exact not_mem_pathText hpath (by decide) (by decide) hmem
    · cases query with
      | none => cases hmem
      | some q =>
        obtain heq | hmem := List.mem_cons.mp hmem
        · exact absurd heq (by decide)
        · exact ne_of_encodes (hquery q rfl '#' hmem) (by decide) rfl
  unfold readTail tailText
  rw [splitMark_marked hhash]
  dsimp only
  rw [splitMark_marked (not_mem_pathText hpath (by decide) (by decide))]
  dsimp only
  rw [readPath_pathText hne hpath, map_encodePart hquery, map_encodePart hfragment]

end Url
end Telemetry
