-- SUMMARY: The canonical form of a collector address is its own canonical form.
import Mathlib
import Telemetry.Agent.Address
import Telemetry.Proofs.Outcome
import Telemetry.Proofs.Url.Domain
import Telemetry.Proofs.Url.RoundTrip

/-!
# The canonical form of a collector address

An agent may keep the canonical form of an address in place of the address: taking the canonical form of it
once more changes nothing. The slashes that are dropped at the end may belong to the path, to the query or to
the fragment. In a query or a fragment they are ordinary characters, and in a path they stand for empty
segments; if no segment is left, the text ends at the host or the port, and the path is a single slash again
when it is read.
-/

namespace Telemetry

/-! ## Dropping at the end -/

theorem rdropWhile_append {α : Type} {p : α → Bool} {xs : List α}
    (h : ∀ x ∈ xs.getLast?, p x = false) (ys : List α) :
    (xs ++ ys).rdropWhile p = xs ++ ys.rdropWhile p := by
  induction ys using List.reverseRecOn with
  | nil =>
    rw [List.append_nil, List.rdropWhile_nil, List.append_nil, List.rdropWhile_eq_self_iff]
    intro hne
    simpa using h _ (List.getLast?_eq_some_getLast hne)
  | append_singleton ys y ih =>
    rw [← List.append_assoc, List.rdropWhile_concat, List.rdropWhile_concat, ih]
    split
    · rfl
    · rw [List.append_assoc]

namespace Url

variable {toAscii? : ToAscii}

/-- The text without the slashes at its end. -/
def unslashed (text : List Char) : List Char :=
  text.rdropWhile (· = '/')

theorem unslashed_unslashed (text : List Char) : unslashed (unslashed text) = unslashed text :=
  List.rdropWhile_idempotent _ _

theorem unslashed_append {xs : List Char} (h : xs.getLast? ≠ some '/') (ys : List Char) :
    unslashed (xs ++ ys) = xs ++ unslashed ys :=
  rdropWhile_append (fun x hx => decide_eq_false fun hslash => h (by rw [← hslash]; exact hx)) ys

theorem unslashed_of_getLast? {text : List Char} (h : text.getLast? ≠ some '/') :
    unslashed text = text := by
  have happend := unslashed_append h []
  rw [List.append_nil] at happend
  exact happend.trans (List.append_nil text)

theorem unslashed_concat (text : List Char) : unslashed (text ++ ['/']) = unslashed text := by
  unfold unslashed
  rw [List.rdropWhile_concat, if_pos (by decide)]

theorem getLast?_unslashed (text : List Char) : (unslashed text).getLast? ≠ some '/' := by
  intro hlast
  have hne : unslashed text ≠ [] := by
    intro hempty
    rw [hempty] at hlast
    cases hlast
  have hnot := List.rdropWhile_last_not (fun c : Char => decide (c = '/')) text hne
  rw [List.getLast?_eq_some_getLast hne] at hlast
  exact hnot (decide_eq_true (Option.some.inj hlast))

theorem mem_of_mem_unslashed {text : List Char} {c : Char} (h : c ∈ unslashed text) : c ∈ text :=
  (List.rdropWhile_prefix _ _).subset h

theorem head?_unslashed {text : List Char} : ∀ c ∈ (unslashed text).head?, text.head? = some c := by
  intro c hc
  obtain ⟨rest, hrest⟩ : unslashed text <+: text := List.rdropWhile_prefix _ _
  rw [← hrest, List.head?_append, hc]
  rfl

/-! ## What is left behind the host -/

/-- Behind another mark, a slash is dropped from the part that the mark begins. -/
theorem unslashed_marked (before : List Char) {mark : Char} (hmark : mark ≠ '/') (text : String) :
    unslashed (before ++ marked mark (some text)) =
      before ++ marked mark (some (String.ofList (unslashed text.toList))) := by
  have hsplit : ∀ t : String, before ++ marked mark (some t) = before ++ [mark] ++ t.toList := by
    simp [marked]
  rw [hsplit, hsplit, unslashed_append (by simpa using hmark), String.toList_ofList]

theorem isEncoded_unslashed {part : Part} {text : String} (h : IsEncoded part text) :
    IsEncoded part (String.ofList (unslashed text.toList)) := by
  intro c hc
  rw [String.toList_ofList] at hc
  exact h c (mem_of_mem_unslashed hc)

/-- The last segment stands at the end of a path. -/
theorem getLast?_pathText_concat (path : List String) {segment : String} (h : IsSegment segment)
    (hne : segment ≠ "") : (pathText (path ++ [segment])).getLast? ≠ some '/' := by
  obtain ⟨before, hbefore⟩ : ∃ before, pathText (path ++ [segment]) = before ++ segment.toList := by
    by_cases hpath : path = []
    · exact ⟨['/'], by simp [hpath, pathText]⟩
    · exact ⟨pathText path ++ ['/'], by simp [pathText_concat hpath]⟩
  have hchars : segment.toList ≠ [] := by simpa using hne
  rw [hbefore, List.getLast?_append, List.getLast?_eq_some_getLast hchars, Option.some_or]
  intro hslash
  exact (h.whole _ (List.getLast_mem hchars)).1 (Option.some.inj hslash)

/-- What is written of the parts that a text behind a host is read as. -/
def rewritten (text : List Char) : List Char :=
  tailText (readTail text).1 (readTail text).2.1 (readTail text).2.2

theorem tailText_withTail (u : Url) (text : List Char) :
    tailText (u.withTail text).path (u.withTail text).query (u.withTail text).fragment = rewritten text :=
  rfl

/-- The text of canonical parts that does not end in a slash is written again as it is. -/
theorem unslashed_rewritten {text : List Char} {path : List String} {query fragment : Option String}
    (htext : tailText path query fragment = unslashed text) (hne : path ≠ [])
    (hpath : ∀ s ∈ path, IsSegment s) (hquery : ∀ q ∈ query, IsEncoded .query q)
    (hfragment : ∀ f ∈ fragment, IsEncoded .fragment f) :
    unslashed (rewritten (unslashed text)) = unslashed text := by
  unfold rewritten
  rw [← htext, readTail_tailText hne hpath hquery hfragment, htext]
  exact unslashed_unslashed text

/-- Empty segments at the end of a path are dropped one after the other. If none is left, the text is empty,
    and what is read is the path that is a single slash. -/
theorem unslashed_rewritten_path {path : List String} (hne : path ≠ [])
    (hpath : ∀ s ∈ path, IsSegment s) :
    unslashed (rewritten (unslashed (tailText path none none))) = unslashed (tailText path none none) := by
  have htail : ∀ p : List String, tailText p none none = pathText p := by simp [tailText, marked]
  induction path using List.reverseRecOn with
  | nil => exact absurd rfl hne
  | append_singleton path segment ih =>
    obtain ⟨hbefore, hsegment⟩ := List.forall_mem_append.mp hpath
    by_cases hempty : segment = ""
    · subst hempty
      by_cases hlast : path = []
      · subst hlast
        decide
      · have hdrop : unslashed (tailText (path ++ [""]) none none) =
            unslashed (tailText path none none) := by
          rw [htail, htail, pathText_concat hlast]
          exact unslashed_concat _
        rw [hdrop]
        exact ih hlast hbefore
    · have hkept : unslashed (tailText (path ++ [segment]) none none) =
          tailText (path ++ [segment]) none none := by
        rw [htail]
        exact unslashed_of_getLast? (getLast?_pathText_concat path (hsegment segment (by simp)) hempty)
      exact unslashed_rewritten hkept.symm hne hpath (by simp) (by simp)

/-- The text behind a host, without the slashes at its end, is read as parts with the same text, but for the
    slashes at its end. -/
theorem unslashed_rewritten_tailText {path : List String} {query fragment : Option String} (hne : path ≠ [])
    (hpath : ∀ s ∈ path, IsSegment s) (hquery : ∀ q ∈ query, IsEncoded .query q)
    (hfragment : ∀ f ∈ fragment, IsEncoded .fragment f) :
    unslashed (rewritten (unslashed (tailText path query fragment))) =
      unslashed (tailText path query fragment) := by
  cases fragment with
  | some f =>
    have htext : unslashed (tailText path query (some f)) =
        tailText path query (some (String.ofList (unslashed f.toList))) :=
      unslashed_marked _ (by decide) f
    exact unslashed_rewritten htext.symm hne hpath hquery
      (by simpa using isEncoded_unslashed (hfragment f rfl))
  | none =>
    cases query with
    | some q =>
      have htext : unslashed (tailText path (some q) none) =
          tailText path (some (String.ofList (unslashed q.toList))) none := by
        have hnone : marked '#' none = [] := rfl
        unfold tailText
        rw [hnone, List.append_nil, List.append_nil]
        exact unslashed_marked _ (by decide) q
      exact unslashed_rewritten htext.symm hne hpath
        (by simpa using isEncoded_unslashed (hquery q rfl)) (by simp)
    | none => exact unslashed_rewritten_path hne hpath

/-! ## The whole address -/

theorem getLast?_frontText {u : Url} (h : u.IsCanonical toAscii?) : u.frontText.getLast? ≠ some '/' := by
  have hne := authorityText_ne_nil h
  have hsplit : u.frontText = u.scheme.toList ++ [':', '/', '/'] ++ u.authorityText := by simp [frontText]
  rw [hsplit, List.getLast?_append, List.getLast?_eq_some_getLast hne, Option.some_or]
  intro hslash
  have hlast := isInFront_of_mem_authorityText h _ (List.getLast_mem hne)
  rw [Option.some.inj hslash] at hlast
  cases hlast.2

theorem unslashed_write {u : Url} (h : u.IsCanonical toAscii?) :
    unslashed u.write.toList = u.frontText ++ unslashed (tailText u.path u.query u.fragment) := by
  rw [toList_write, unslashed_append (getLast?_frontText h)]

theorem isPrinted_of_mem_unslashed_write {u : Url} (h : u.IsCanonical toAscii?) :
    ∀ c ∈ unslashed u.write.toList, IsPrinted c := by
  intro c hc
  have hc := mem_of_mem_unslashed hc
  rw [toList_write] at hc
  exact (List.mem_append.mp hc).elim (isPrinted_of_mem_frontText h c) (isPrinted_of_mem_tailText h c)

/-- An address without the slashes at its end is read as an address with the same text, but for these. -/
theorem exists_readWeb?_unslashed {u : Url} (h : u.IsCanonical toAscii?) :
    ∃ v, readWeb? toAscii? (String.ofList (unslashed u.write.toList)) = some (.ok v) ∧
      unslashed v.write.toList = unslashed u.write.toList := by
  refine ⟨u.withTail (unslashed (tailText u.path u.query u.fragment)), ?_, ?_⟩
  · rw [unslashed_write h]
    refine readWeb?_frontText h
      (fun c hc => isPrinted_of_mem_tailText h c (mem_of_mem_unslashed hc)) fun c hc => ?_
    obtain rfl := Option.some.inj (head?_unslashed c hc)
    rfl
  · rw [unslashed_write h, toList_write, frontText_withTail, tailText_withTail,
      unslashed_append (getLast?_frontText h),
      unslashed_rewritten_tailText h.rooted h.path h.query h.fragment]

end Url

namespace Agent

open Url (unslashed)

variable {toAscii? : Url.ToAscii}

theorem dropSlashes_eq (text : String) : dropSlashes text = String.ofList (unslashed text.toList) :=
  rfl

theorem trim_of_isPrinted {text : String} (h : ∀ c ∈ text.toList, Url.IsPrinted c) :
    Text.trim text = text := by
  have hblank : ∀ c ∈ text.toList, Text.isBlank c = false := by
    intro c hc
    obtain ⟨hlow, hhigh⟩ := h c hc
    simp only [Text.isBlank, Bool.or_eq_false_iff, Bool.and_eq_false_iff, decide_eq_false_iff_not]
    omega
  unfold Text.trim
  rw [Text.trimChars_of_forall hblank, String.ofList_toList]

/-- Whichever way an address is read, its parts are canonical. -/
theorem isCanonical_of_readAddress (hnames : Url.Domain.Lawful toAscii?) {address : String} {url : Url}
    (h : readAddress toAscii? address = .ok url) : url.IsCanonical toAscii? := by
  unfold readAddress at h
  split at h
  next hread =>
    obtain rfl := Except.ok.inj h
    exact Url.isCanonical_of_readWeb? hnames hread
  · split at h
    next hread =>
      obtain rfl := Except.ok.inj h
      cases hweb : Url.readWeb? toAscii? ("http://" ++ address) with
      | none =>
        rw [hweb] at hread
        cases hread
      | some outcome =>
        rw [hweb] at hread
        obtain rfl : outcome = _ := hread
        exact Url.isCanonical_of_readWeb? hnames hweb
    · cases h

theorem exists_of_normalizeUrl (hnames : Url.Domain.Lawful toAscii?) {address result : String}
    (h : normalizeUrl toAscii? address = .ok result) :
    ∃ url : Url, url.IsCanonical toAscii? ∧ result = dropSlashes url.write := by
  unfold normalizeUrl at h
  dsimp only at h
  split at h
  · cases h
  obtain ⟨url, hurl, h⟩ := bind_eq_ok_iff.mp h
  exact ⟨url, isCanonical_of_readAddress hnames hurl, (Except.ok.inj h).symm⟩

theorem normalizeUrl_of_readWeb? {address : String} {url : Url} (htrim : Text.trim address = address)
    (hne : address ≠ "") (h : Url.readWeb? toAscii? address = some (.ok url)) :
    normalizeUrl toAscii? address = .ok (dropSlashes url.write) := by
  have hread : readAddress toAscii? address = .ok url := by
    unfold readAddress
    rw [h]
  have hfull : address.isEmpty = false := by simpa using hne
  unfold normalizeUrl
  simp only [htrim, hfull, hread]
  rfl

/-- Whatever conversion the names of hosts are brought to ASCII by, as long as it keeps the rules: the
    canonical form of an address is a web address with a host, it has no slash at its end, and it is its own
    canonical form. -/
theorem canonical_form_is_its_own (hnames : Url.Domain.Lawful toAscii?) {address result : String}
    (h : normalizeUrl toAscii? address = .ok result) :
    (∃ url, Url.readWeb? toAscii? result = some (.ok url) ∧
        (url.scheme = "http" ∨ url.scheme = "https") ∧ url.host ≠ "") ∧
      result.toList.getLast? ≠ some '/' ∧ normalizeUrl toAscii? result = .ok result := by
  obtain ⟨u, hu, rfl⟩ := exists_of_normalizeUrl hnames h
  obtain ⟨v, hread, htext⟩ := Url.exists_readWeb?_unslashed hu
  have hv := Url.isCanonical_of_readWeb? hnames hread
  have htoList : (dropSlashes u.write).toList = unslashed u.write.toList := String.toList_ofList
  have htrim : Text.trim (dropSlashes u.write) = dropSlashes u.write :=
    trim_of_isPrinted (by rw [htoList]; exact Url.isPrinted_of_mem_unslashed_write hu)
  refine ⟨⟨v, hread, ?_, ?_⟩, ?_, ?_⟩
  · simpa [Url.isWebScheme] using hv.web
  · intro hempty
    exact hv.host.ne_nil (by rw [hempty]; rfl)
  · rw [htoList]
    exact Url.getLast?_unslashed _
  · have hne : dropSlashes u.write ≠ "" := by
      intro hempty
      rw [dropSlashes_eq] at hempty
      rw [hempty] at hread
      cases hread
    have hsame : dropSlashes v.write = dropSlashes u.write := congrArg String.ofList htext
    rw [normalizeUrl_of_readWeb? htrim hne hread, hsame]

/-- Blanks, capitals, an empty password, a name beyond ASCII, the port of the scheme, dots and slashes. -/
theorem canonical_form_is_its_own_beyond_ascii :
    Url.Domain.Lawful Url.Domain.toAscii? ∧
      normalizeUrl Url.Domain.toAscii? " HTTPS://us er:@B\u00dcCHER.example:443/a/./b/..// " =
        .ok "https://us%20er@xn--bcher-kva.example/a" ∧
      normalizeUrl Url.Domain.toAscii? "https://us%20er@xn--bcher-kva.example/a" =
        .ok "https://us%20er@xn--bcher-kva.example/a" := by
  have haccepted : normalizeUrl Url.Domain.toAscii? " HTTPS://us er:@B\u00dcCHER.example:443/a/./b/..// " =
      .ok "https://us%20er@xn--bcher-kva.example/a" := by decide +kernel
  exact ⟨Url.Domain.lawful_toAscii?, haccepted,
    (canonical_form_is_its_own Url.Domain.lawful_toAscii? haccepted).2.2⟩

end Agent

end Telemetry
