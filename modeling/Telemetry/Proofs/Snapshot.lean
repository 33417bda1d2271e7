-- SUMMARY: Laws of snapshots: values after insertion, the last entry for a key, and what the listed entries keep.
import Mathlib.Data.List.Nodup
import Telemetry.Proofs.SortedMap
import Telemetry.Snapshot

/-!
# Laws of snapshots

The view of a snapshot is the value under a type and a name. A snapshot made of entries has under every
key the value of the last entry for it, and it lists no type without names. Two such snapshots with the
same values are equal.
-/

namespace Telemetry.Snapshot

/-! ## Values -/

@[simp] theorem value?_empty (type name : String) :
    value? SortedMap.empty type name = none := rfl

/-- An insertion changes the value under its own key alone. -/
@[simp] theorem value?_put (s : Snapshot) (e : Entry) (type name : String) :
    (s.put e).value? type name =
      if type = e.type ∧ name = e.name then some e.value else s.value? type name := by
  unfold value? put
  rw [SortedMap.find?_insert]
  by_cases htype : type = e.type
  · subst htype
    rw [if_pos rfl, Option.bind_some, SortedMap.find?_insert]
    by_cases hname : name = e.name
    · rw [if_pos hname, if_pos ⟨rfl, hname⟩]
    · rw [if_neg hname, if_neg (fun h => hname h.2)]
      cases SortedMap.find? s e.type with
      | none => rfl
      | some names => rfl
  · rw [if_neg htype, if_neg (fun h => htype h.1)]

/-! ## The last entry for a key -/

/-- The entry is about this type and name. -/
def Entry.isFor (e : Entry) (type name : String) : Bool :=
  e.type == type && e.name == name

theorem Entry.isFor_iff {e : Entry} {type name : String} :
    e.isFor type name = true ↔ type = e.type ∧ name = e.name := by
  unfold Entry.isFor
  rw [Bool.and_eq_true, beq_iff_eq, beq_iff_eq]
  exact ⟨fun h => ⟨h.1.symm, h.2.symm⟩, fun h => ⟨h.1.symm, h.2.symm⟩⟩

/-- The value of the last entry for a key. -/
def last? (entries : List Entry) (type name : String) : Option String :=
  (entries.reverse.find? (·.isFor type name)).map (·.value)

@[simp] theorem last?_nil (type name : String) : last? [] type name = none := rfl

theorem last?_append (xs ys : List Entry) (type name : String) :
    last? (xs ++ ys) type name = (last? ys type name).or (last? xs type name) := by
  unfold last?
  rw [List.reverse_append, List.find?_append]
  cases ys.reverse.find? (·.isFor type name) with
  | none => rfl
  | some e => rfl

theorem last?_singleton (e : Entry) (type name : String) :
    last? [e] type name = if type = e.type ∧ name = e.name then some e.value else none := by
  unfold last?
  rw [List.reverse_singleton, List.find?_singleton]
  by_cases h : type = e.type ∧ name = e.name
  · rw [if_pos h, if_pos (Entry.isFor_iff.mpr h)]
    rfl
  · rw [if_neg h, if_neg (fun hfor => h (Entry.isFor_iff.mp hfor))]
    rfl

theorem last?_cons (e : Entry) (entries : List Entry) (type name : String) :
    last? (e :: entries) type name =
      (last? entries type name).or
        (if type = e.type ∧ name = e.name then some e.value else none) := by
  rw [← List.singleton_append, last?_append, last?_singleton]

theorem mem_of_last?_eq_some {entries : List Entry} {type name value : String}
    (h : last? entries type name = some value) : ⟨type, name, value⟩ ∈ entries := by
  obtain ⟨e, hfind, hvalue⟩ := Option.map_eq_some_iff.mp h
  have hfor := List.find?_some hfind
  obtain ⟨htype, hname⟩ := Entry.isFor_iff.mp hfor
  have hmem : e ∈ entries := List.mem_reverse.mp (List.mem_of_find?_eq_some hfind)
  subst htype hname hvalue
  exact hmem

theorem last?_eq_none_iff {entries : List Entry} {type name : String} :
    last? entries type name = none ↔ ∀ e ∈ entries, ¬ (type = e.type ∧ name = e.name) := by
  unfold last?
  rw [Option.map_eq_none_iff, List.find?_eq_none]
  constructor
  · intro h e he hkey
    exact h e (List.mem_reverse.mpr he) (Entry.isFor_iff.mpr hkey)
  · intro h e he hfor
    exact h e (List.mem_reverse.mp he) (Entry.isFor_iff.mp hfor)

theorem value?_foldl_put (entries : List Entry) (s : Snapshot) (type name : String) :
    (entries.foldl put s).value? type name =
      (last? entries type name).or (s.value? type name) := by
  induction entries generalizing s with
  | nil => rfl
  | cons e entries ih =>
    rw [List.foldl_cons, ih, value?_put, last?_cons, Option.or_assoc]
    split
    · rfl
    · rfl

/-- A snapshot of entries has under every key the value of the last entry for it. -/
@[simp] theorem value?_ofEntries (entries : List Entry) (type name : String) :
    (ofEntries entries).value? type name = last? entries type name := by
  unfold ofEntries
  rw [value?_foldl_put, value?_empty, Option.or_none]

/-! ## Snapshots without bare types -/

/-- Every type has at least one name. -/
def Populated (s : Snapshot) : Prop :=
  ∀ type names, SortedMap.find? s type = some names → names ≠ SortedMap.empty

theorem populated_empty : Populated SortedMap.empty := by
  intro type names h
  cases h

theorem Populated.put {s : Snapshot} (h : s.Populated) (e : Entry) : (s.put e).Populated := by
  intro type names hfind
  unfold Snapshot.put at hfind
  rw [SortedMap.find?_insert] at hfind
  split at hfind
  · cases hfind
    exact SortedMap.insert_ne_empty _ _ _
  · exact h type names hfind

theorem populated_foldl_put (entries : List Entry) {s : Snapshot} (h : s.Populated) :
    (entries.foldl Snapshot.put s).Populated := by
  induction entries generalizing s with
  | nil => exact h
  | cons e entries ih => exact ih (h.put e)

theorem populated_ofEntries (entries : List Entry) : (ofEntries entries).Populated :=
  populated_foldl_put entries populated_empty

theorem find?_isSome_iff {s : Snapshot} (h : s.Populated) (type : String) :
    (SortedMap.find? s type).isSome ↔ ∃ name, (s.value? type name).isSome := by
  unfold value?
  cases hfind : SortedMap.find? s type with
  | none => exact ⟨(nomatch ·), fun ⟨_, h⟩ => nomatch h⟩
  | some names =>
    refine ⟨fun _ => ?_, fun _ => rfl⟩
    cases hentries : names.entries with
    | nil => exact absurd (SortedMap.empty_of_entries_eq_nil hentries) (h type names hfind)
    | cons entry rest =>
      have hmem : (entry.1, entry.2) ∈ names.entries := hentries ▸ List.mem_cons_self
      refine ⟨entry.1, ?_⟩
      rw [Option.bind_some, SortedMap.mem_entries_iff.mp hmem]
      rfl

/-- Two snapshots without bare types are equal if they have the same values. -/
theorem ext_value? {s u : Snapshot} (hs : s.Populated) (hu : u.Populated)
    (h : ∀ type name, s.value? type name = u.value? type name) : s = u := by
  refine SortedMap.ext_find? fun type => ?_
  have hsome : (SortedMap.find? s type).isSome ↔ (SortedMap.find? u type).isSome := by
    rw [find?_isSome_iff hs, find?_isSome_iff hu]
    exact exists_congr fun name => by rw [h]
  unfold value? at h
  cases hns : SortedMap.find? s type with
  | none =>
    cases hnu : SortedMap.find? u type with
    | none => rfl
    | some names => rw [hns, hnu] at hsome; exact nomatch hsome.mpr rfl
  | some names =>
    cases hnu : SortedMap.find? u type with
    | none => rw [hns, hnu] at hsome; exact nomatch hsome.mp rfl
    | some names' =>
      congr 1
      refine SortedMap.ext_find? fun name => ?_
      have hvalue := h type name
      rwa [hns, hnu] at hvalue

/-- Snapshots of entries are equal if the last entries for every key agree. -/
theorem ofEntries_congr {xs ys : List Entry}
    (h : ∀ type name, last? xs type name = last? ys type name) : ofEntries xs = ofEntries ys := by
  refine ext_value? (populated_ofEntries xs) (populated_ofEntries ys) fun type name => ?_
  rw [value?_ofEntries, value?_ofEntries, h]

/-! ## Listing -/

/-- The listed entries are the values of the snapshot. -/
theorem mem_toEntries_iff {s : Snapshot} {e : Entry} :
    e ∈ s.toEntries ↔ s.value? e.type e.name = some e.value := by
  obtain ⟨type, name, value⟩ := e
  unfold toEntries value?
  rw [List.mem_flatMap, Option.bind_eq_some_iff]
  constructor
  · rintro ⟨⟨t, names⟩, htype, hentry⟩
    obtain ⟨⟨n, v⟩, hname, heq⟩ := List.mem_map.mp hentry
    cases heq
    exact ⟨names, SortedMap.mem_entries_iff.mp htype, SortedMap.mem_entries_iff.mp hname⟩
  · rintro ⟨names, htype, hname⟩
    refine ⟨(type, names), SortedMap.mem_entries_iff.mpr htype, ?_⟩
    exact List.mem_map.mpr ⟨(name, value), SortedMap.mem_entries_iff.mpr hname, rfl⟩

theorem nodup_toEntries (s : Snapshot) : s.toEntries.Nodup := by
  unfold toEntries
  refine List.nodup_flatMap.mpr ⟨fun p _ => ?_, ?_⟩
  · refine List.Pairwise.map _ ?_ p.2.ascending
    intro a b hlt heq
    exact absurd (congrArg Entry.name heq) (String.ne_of_lt hlt)
  · refine (SortedMap.ascending s).imp ?_
    intro p q hlt e hp hq
    obtain ⟨_, -, rfl⟩ := List.mem_map.mp hp
    obtain ⟨_, -, heq⟩ := List.mem_map.mp hq
    exact absurd (congrArg Entry.type heq).symm (String.ne_of_lt hlt)

theorem last?_toEntries (s : Snapshot) (type name : String) :
    last? s.toEntries type name = s.value? type name := by
  cases hlast : last? s.toEntries type name with
  | some value => exact (mem_toEntries_iff.mp (mem_of_last?_eq_some hlast)).symm
  | none =>
    cases hvalue : s.value? type name with
    | none => rfl
    | some value =>
      have hmem : (⟨type, name, value⟩ : Entry) ∈ s.toEntries := mem_toEntries_iff.mpr hvalue
      exact absurd ⟨rfl, rfl⟩ (last?_eq_none_iff.mp hlast _ hmem)

/-! ## Bare types left out -/

/-- The snapshot without the types that have no names. -/
def withoutBareTypes (s : Snapshot) : Snapshot :=
  ⟨(SortedMap.entries s).filter fun (_, names) => !names.isEmpty, (SortedMap.ascending s).filter _⟩

theorem find?_withoutBareTypes_eq_some_iff {s : Snapshot} {type : String}
    {names : SortedMap String} :
    SortedMap.find? s.withoutBareTypes type = some names ↔
      SortedMap.find? s type = some names ∧ names ≠ SortedMap.empty := by
  simp [← SortedMap.mem_entries_iff, withoutBareTypes, ← SortedMap.isEmpty_iff]

theorem populated_withoutBareTypes (s : Snapshot) : s.withoutBareTypes.Populated :=
  fun _ _ hfind => (find?_withoutBareTypes_eq_some_iff.mp hfind).2

/-- No value is lost with the types that have no names. -/
@[simp] theorem value?_withoutBareTypes (s : Snapshot) (type name : String) :
    s.withoutBareTypes.value? type name = s.value? type name := by
  apply Option.ext
  intro value
  simp only [value?, Option.bind_eq_some_iff, find?_withoutBareTypes_eq_some_iff]
  constructor
  · rintro ⟨names, ⟨hnames, -⟩, hvalue⟩
    exact ⟨names, hnames, hvalue⟩
  · rintro ⟨names, hnames, hvalue⟩
    refine ⟨names, ⟨hnames, ?_⟩, hvalue⟩
    rintro rfl
    simp at hvalue

theorem withoutBareTypes_of_populated {s : Snapshot} (h : s.Populated) : s.withoutBareTypes = s :=
  ext_value? (populated_withoutBareTypes s) h (by simp)

/-- Listing the entries of a snapshot loses nothing but types without names. -/
theorem ofEntries_toEntries (s : Snapshot) : ofEntries s.toEntries = s.withoutBareTypes := by
  apply ext_value? (populated_ofEntries _) (populated_withoutBareTypes s)
  simp [last?_toEntries]

theorem ofEntries_toEntries_of_populated {s : Snapshot} (h : s.Populated) :
    ofEntries s.toEntries = s := by
  rw [ofEntries_toEntries, withoutBareTypes_of_populated h]

/-! ## Entries laid over snapshots -/

/-- Laying the same entries over a snapshot again changes nothing. -/
theorem foldl_put_foldl_put (entries : List Entry) {s : Snapshot} (h : s.Populated) :
    entries.foldl put (entries.foldl put s) = entries.foldl put s := by
  have hpopulated := populated_foldl_put entries h
  refine ext_value? (populated_foldl_put entries hpopulated) hpopulated fun type name => ?_
  rw [value?_foldl_put, value?_foldl_put, ← Option.or_assoc, Option.or_self]

/-- Entries that make the same of two snapshots make it of one laid over the other. -/
theorem foldl_put_overlay {entries : List Entry} {p b s : Snapshot} (hb : b.Populated)
    (hp : entries.foldl put p = s) (hbs : entries.foldl put b = s) :
    entries.foldl put (p.toEntries.foldl put b) = s := by
  have hpopulated := populated_foldl_put entries hb
  rw [hbs] at hpopulated
  refine ext_value? (populated_foldl_put entries (populated_foldl_put _ hb)) hpopulated
    fun type name => ?_
  have hpvalue := congrArg (value? · type name) hp
  have hbvalue := congrArg (value? · type name) hbs
  simp only [value?_foldl_put] at hpvalue hbvalue
  rw [value?_foldl_put, value?_foldl_put, last?_toEntries]
  cases hlast : last? entries type name with
  | some text => rwa [hlast, Option.some_or] at hbvalue
  | none =>
    rw [hlast, Option.none_or] at hpvalue hbvalue
    rw [Option.none_or, hpvalue, hbvalue, Option.or_self]

end Telemetry.Snapshot
