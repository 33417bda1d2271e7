-- SUMMARY: Finite maps with text keys whose entries stand in ascending order of the keys.

/-!
# Sorted maps

A sorted map lists each key once, in ascending order of the characters of the keys, which is also the
order of their UTF-8 bytes. The order is part of the type, so two maps with the same look-ups are
equal.
-/

namespace Telemetry

/-- Entries in strictly ascending order of the keys. -/
structure SortedMap (β : Type) where
  entries : List (String × β)
  ascending : entries.Pairwise fun a b => a.1 < b.1

namespace SortedMap

variable {β γ : Type}

/-- The map without entries. -/
def empty : SortedMap β := ⟨[], .nil⟩

instance : Inhabited (SortedMap β) := ⟨empty⟩

/-- The value of a key. -/
def find? (m : SortedMap β) (key : String) : Option β :=
  m.entries.lookup key

/-- The keys in ascending order. -/
def keys (m : SortedMap β) : List String :=
  m.entries.map (·.1)

/-- The number of entries. -/
def size (m : SortedMap β) : Nat :=
  m.entries.length

def isEmpty (m : SortedMap β) : Bool :=
  m.entries.isEmpty

-- ---------------------------------------------------------------------------
-- Insertion
-- ---------------------------------------------------------------------------

/-- Put a value under a key at its place in an ascending list. -/
def insertEntry (key : String) (value : β) : List (String × β) → List (String × β)
  | [] => [(key, value)]
  | (k, v) :: rest =>
    if key < k then (key, value) :: (k, v) :: rest
    else if key = k then (key, value) :: rest
    else (k, v) :: insertEntry key value rest

theorem mem_insertEntry {key : String} {value : β} {entries : List (String × β)}
    {e : String × β} (h : e ∈ insertEntry key value entries) :
    e = (key, value) ∨ e ∈ entries := by
  induction entries with
  | nil => simpa [insertEntry] using h
  | cons head rest ih =>
    obtain ⟨k, v⟩ := head
    unfold insertEntry at h
    split at h
    · simpa using h
    · split at h
      · rcases List.mem_cons.mp h with h | h
        · exact .inl h
        · exact .inr (List.mem_cons_of_mem _ h)
      · rcases List.mem_cons.mp h with h | h
        · exact .inr (h ▸ List.mem_cons_self)
        · rcases ih h with h | h
          · exact .inl h
          · exact .inr (List.mem_cons_of_mem _ h)

theorem ascending_insertEntry (key : String) (value : β) {entries : List (String × β)}
    (h : entries.Pairwise fun a b => a.1 < b.1) :
    (insertEntry key value entries).Pairwise fun a b => a.1 < b.1 := by
  induction entries with
  | nil => simp [insertEntry]
  | cons head rest ih =>
    obtain ⟨k, v⟩ := head
    obtain ⟨hhead, hrest⟩ := List.pairwise_cons.mp h
    unfold insertEntry
    split
    · rename_i hlt
      refine List.pairwise_cons.mpr ⟨?_, h⟩
      intro e he
      rcases List.mem_cons.mp he with rfl | he
      · exact hlt
      · exact String.lt_trans hlt (hhead e he)
    · split
      · rename_i heq
        subst heq
        exact List.pairwise_cons.mpr ⟨hhead, hrest⟩
      · rename_i hnlt hne
        refine List.pairwise_cons.mpr ⟨?_, ih hrest⟩
        intro e he
        rcases mem_insertEntry he with rfl | he
        · have hle : k ≤ key := String.not_lt.mp hnlt
          rcases Decidable.em (k < key) with hlt | hnlt'
          · exact hlt
          · exact absurd (String.le_antisymm hle (String.not_lt.mp hnlt')).symm hne
        · exact hhead e he

/-- The map with a value under a key, in place of the one that may have been there. -/
def insert (m : SortedMap β) (key : String) (value : β) : SortedMap β :=
  ⟨insertEntry key value m.entries, ascending_insertEntry key value m.ascending⟩

/-- The map of a list of entries; of several for one key the last counts. -/
def ofList (entries : List (String × β)) : SortedMap β :=
  entries.foldl (fun m e => m.insert e.1 e.2) empty

-- ---------------------------------------------------------------------------
-- Removal
-- ---------------------------------------------------------------------------

/-- The map without a key. -/
def erase (m : SortedMap β) (key : String) : SortedMap β :=
  ⟨m.entries.filter fun e => e.1 ≠ key, m.ascending.filter _⟩

-- ---------------------------------------------------------------------------
-- Mapping
-- ---------------------------------------------------------------------------

/-- The map with every value replaced. -/
def map (f : β → γ) (m : SortedMap β) : SortedMap γ :=
  ⟨m.entries.map fun e => (e.1, f e.2), by
    have h := m.ascending
    rw [List.pairwise_map]
    exact h⟩

end SortedMap

end Telemetry
