-- SUMMARY: Laws of sorted maps: look-ups after insertion, entries as look-ups, and equality by look-ups.
import Telemetry.SortedMap

/-!
# Laws of sorted maps

The look-up is the view of a sorted map: every operation is described by what it does to look-ups, and
two maps with the same look-ups are equal.
-/

namespace Telemetry.SortedMap

variable {β : Type}

/-! ## Look-ups and entries -/

@[simp] theorem find?_empty (key : String) : (empty : SortedMap β).find? key = none := rfl

theorem lookup_cons_eq_ite (key k : String) (v : β) (rest : List (String × β)) :
    ((k, v) :: rest).lookup key = if key = k then some v else rest.lookup key := by
  rw [List.lookup_cons]
  split <;> rename_i h
  · rw [if_pos (eq_of_beq h)]
  · rw [if_neg (ne_of_beq_false h)]

theorem lookup_eq_some_of_mem {entries : List (String × β)}
    (h : entries.Pairwise fun a b => a.1 < b.1) {key : String} {value : β}
    (hmem : (key, value) ∈ entries) : entries.lookup key = some value := by
  induction entries with
  | nil => cases hmem
  | cons head rest ih =>
    obtain ⟨k, v⟩ := head
    obtain ⟨hhead, hrest⟩ := List.pairwise_cons.mp h
    rw [lookup_cons_eq_ite]
    rcases List.mem_cons.mp hmem with hmem | hmem
    · cases hmem
      rw [if_pos rfl]
    · have hlt : k < key := hhead _ hmem
      rw [if_neg (fun heq => String.lt_irrefl _ (heq ▸ hlt))]
      exact ih hrest hmem

theorem mem_of_lookup_eq_some {entries : List (String × β)} {key : String} {value : β}
    (h : entries.lookup key = some value) : (key, value) ∈ entries := by
  induction entries with
  | nil => cases h
  | cons head rest ih =>
    obtain ⟨k, v⟩ := head
    rw [lookup_cons_eq_ite] at h
    split at h <;> rename_i hk
    · cases h
      rw [hk]
      exact List.mem_cons_self
    · exact List.mem_cons_of_mem _ (ih h)

/-- The entries are the pairs that a look-up finds. -/
theorem mem_entries_iff {m : SortedMap β} {key : String} {value : β} :
    (key, value) ∈ m.entries ↔ m.find? key = some value :=
  ⟨lookup_eq_some_of_mem m.ascending, mem_of_lookup_eq_some⟩

/-! ## Insertion -/

theorem lookup_insertEntry (key : String) (value : β) (entries : List (String × β))
    (other : String) :
    (insertEntry key value entries).lookup other =
      if other = key then some value else entries.lookup other := by
  induction entries with
  | nil => exact lookup_cons_eq_ite other key value []
  | cons head rest ih =>
    obtain ⟨k, v⟩ := head
    unfold insertEntry
    split
    · rw [lookup_cons_eq_ite]
    · split <;> rename_i hkey
      · subst hkey
        rw [lookup_cons_eq_ite, lookup_cons_eq_ite]
        split
        · rfl
        · rfl
      · rw [lookup_cons_eq_ite, lookup_cons_eq_ite, ih]
        by_cases hk : other = k
        · rw [if_pos hk, if_neg (fun h : other = key => hkey (h.symm.trans hk)), if_pos hk]
        · rw [if_neg hk, if_neg hk]

/-- An insertion changes the look-up of its own key alone. -/
@[simp] theorem find?_insert (m : SortedMap β) (key : String) (value : β) (other : String) :
    (m.insert key value).find? other = if other = key then some value else m.find? other :=
  lookup_insertEntry key value m.entries other

/-! ## Equality -/

theorem entries_injective {m n : SortedMap β} (h : m.entries = n.entries) : m = n := by
  cases m
  cases n
  cases h
  rfl

instance [DecidableEq β] : DecidableEq (SortedMap β) := fun m n =>
  decidable_of_iff (m.entries = n.entries) ⟨entries_injective, congrArg entries⟩

/-- A list in ascending order is decided by its members. -/
theorem eq_of_mem_iff {xs ys : List (String × β)}
    (hx : xs.Pairwise fun a b => a.1 < b.1) (hy : ys.Pairwise fun a b => a.1 < b.1)
    (h : ∀ e, e ∈ xs ↔ e ∈ ys) : xs = ys := by
  induction xs generalizing ys with
  | nil =>
    cases ys with
    | nil => rfl
    | cons b ys => exact absurd ((h b).mpr List.mem_cons_self) List.not_mem_nil
  | cons a xs ih =>
    cases ys with
    | nil => exact absurd ((h a).mp List.mem_cons_self) List.not_mem_nil
    | cons b ys =>
      obtain ⟨hax, hxs⟩ := List.pairwise_cons.mp hx
      obtain ⟨hby, hys⟩ := List.pairwise_cons.mp hy
      -- Each head is a member of the other list, and nothing stands before a head.
      have hab : a = b := by
        rcases List.mem_cons.mp ((h a).mp List.mem_cons_self) with hab | ha
        · exact hab
        · rcases List.mem_cons.mp ((h b).mpr List.mem_cons_self) with hba | hb
          · exact hba.symm
          · exact absurd (String.lt_trans (hax _ hb) (hby _ ha)) (String.lt_irrefl _)
      subst hab
      have hnotin : ∀ {zs : List (String × β)}, (∀ e ∈ zs, a.1 < e.1) → a ∉ zs :=
        fun hz ha => String.lt_irrefl _ (hz _ ha)
      congr 1
      refine ih hxs hys fun e => ⟨fun he => ?_, fun he => ?_⟩
      · rcases List.mem_cons.mp ((h e).mp (List.mem_cons_of_mem _ he)) with rfl | he'
        · exact absurd he (hnotin hax)
        · exact he'
      · rcases List.mem_cons.mp ((h e).mpr (List.mem_cons_of_mem _ he)) with rfl | he'
        · exact absurd he (hnotin hby)
        · exact he'

/-- Two maps with the same look-ups are equal. -/
theorem ext_find? {m n : SortedMap β} (h : ∀ key, m.find? key = n.find? key) : m = n := by
  refine entries_injective (eq_of_mem_iff m.ascending n.ascending ?_)
  rintro ⟨key, value⟩
  rw [mem_entries_iff, mem_entries_iff, h key]

/-- Putting the value back that stands under a key changes nothing. -/
theorem insert_eq_self {m : SortedMap β} {key : String} {value : β}
    (h : m.find? key = some value) : m.insert key value = m := by
  refine ext_find? fun other => ?_
  rw [find?_insert]
  split
  · rename_i heq
    rw [heq, h]
  · rfl

theorem empty_of_entries_eq_nil {m : SortedMap β} (h : m.entries = []) : m = empty :=
  entries_injective h

theorem isEmpty_iff {m : SortedMap β} : m.isEmpty = true ↔ m = empty :=
  ⟨fun h => empty_of_entries_eq_nil (List.isEmpty_iff.mp h), fun h => h ▸ rfl⟩

theorem lookup_filter_ne (key other : String) (entries : List (String × β)) :
    (entries.filter fun e => e.1 ≠ key).lookup other =
      if other = key then none else entries.lookup other := by
  induction entries with
  | nil =>
    rw [List.filter_nil, List.lookup_nil, ite_self]
  | cons entry rest ih =>
    obtain ⟨k, v⟩ := entry
    rw [List.filter_cons, lookup_cons_eq_ite]
    by_cases hk : k = key
    · rw [if_neg (by simpa using hk), ih]
      split
      · rfl
      · rename_i hne
        rw [if_neg (fun h => hne (h.trans hk))]
    · rw [if_pos (by simpa using hk), lookup_cons_eq_ite, ih]
      split
      · rename_i heq
        rw [if_neg (fun h => hk (heq.symm.trans h))]
      · rfl

/-- A removal changes the look-up of its own key alone. -/
@[simp] theorem find?_erase (m : SortedMap β) (key other : String) :
    (m.erase key).find? other = if other = key then none else m.find? other :=
  lookup_filter_ne key other m.entries

/-- An insertion leaves no empty map. -/
theorem insert_ne_empty (m : SortedMap β) (key : String) (value : β) :
    m.insert key value ≠ empty := by
  intro h
  have hfind : (m.insert key value).find? key = none := by rw [h, find?_empty]
  rw [find?_insert, if_pos rfl] at hfind
  cases hfind

end Telemetry.SortedMap
