-- SUMMARY: What a database lists after any updates: every key once, in the order of the first writes, with the value written last.
import Mathlib
import Telemetry.Proofs.Database.Connection

/-!
# Listings

The rows that are read are a map in order of insertion, and writing a row is its insertion: the row takes
the place of the one with its key, or comes last. So what is listed after any updates is decided by the log
of the rows that were written, where an update that fails has written none.
-/

namespace Telemetry.Database

/-! ## Logs -/

/-- Type and name of a row. -/
def FullRow.key (r : FullRow) : String × String :=
  (r.type, r.name)

/-- The row as it is read once it has been written. -/
def FullRow.stored (r : FullRow) : Row :=
  ⟨some r.type, some r.name, storedReal r.value⟩

/-- The row is about this type and name. -/
def Row.isFor (row : Row) (key : String × String) : Bool :=
  row.type == some key.1 && row.name == some key.2

/-- Write a row into a list: in place of those with its key, or at the end. -/
def insertRow (rows : List Row) (r : FullRow) : List Row :=
  if rows.any (·.isFor r.key) then rows.map fun row => if row.isFor r.key then r.stored else row
  else rows ++ [r.stored]

/-- The number that a log brings for a key last. -/
def lastWritten? (log : List FullRow) (key : String × String) : Option Binary64 :=
  (log.reverse.find? (·.key == key)).map (·.value)

/-- The row of a key after a log. -/
def loggedRow (log : List FullRow) (key : String × String) : Row :=
  ⟨some key.1, some key.2, (lastWritten? log key).bind storedReal⟩

/-- The rows of all keys of a log, by the first write of each. -/
def listing (log : List FullRow) : List Row :=
  (log.map (·.key)).eraseDups.map (loggedRow log)

@[simp] theorem lastWritten?_nil (key : String × String) : lastWritten? [] key = none := rfl

theorem lastWritten?_append (xs ys : List FullRow) (key : String × String) :
    lastWritten? (xs ++ ys) key = (lastWritten? ys key).or (lastWritten? xs key) := by
  unfold lastWritten?
  rw [List.reverse_append, List.find?_append]
  cases ys.reverse.find? (·.key == key) with
  | none => rfl
  | some r => rfl

theorem lastWritten?_singleton (r : FullRow) (key : String × String) :
    lastWritten? [r] key = if key = r.key then some r.value else none := by
  unfold lastWritten?
  rw [List.reverse_singleton, List.find?_singleton]
  by_cases h : key = r.key
  · rw [if_pos h, if_pos (beq_iff_eq.mpr h.symm)]
    rfl
  · rw [if_neg h, if_neg fun heq => h (beq_iff_eq.mp heq).symm]
    rfl

theorem lastWritten?_cons (r : FullRow) (log : List FullRow) (key : String × String) :
    lastWritten? (r :: log) key =
      (lastWritten? log key).or (if key = r.key then some r.value else none) := by
  rw [← List.singleton_append, lastWritten?_append, lastWritten?_singleton]

theorem lastWritten?_concat (log : List FullRow) (r : FullRow) (key : String × String) :
    lastWritten? (log ++ [r]) key =
      if key = r.key then some r.value else lastWritten? log key := by
  rw [lastWritten?_append, lastWritten?_singleton]
  split <;> rfl

theorem isFor_loggedRow {log : List FullRow} {key other : String × String} :
    (loggedRow log key).isFor other = true ↔ key = other := by
  unfold Row.isFor loggedRow
  rw [Bool.and_eq_true, beq_iff_eq, beq_iff_eq, Option.some_inj, Option.some_inj, Prod.ext_iff]

theorem loggedRow_concat (log : List FullRow) (r : FullRow) (key : String × String) :
    loggedRow (log ++ [r]) key =
      if (loggedRow log key).isFor r.key then r.stored else loggedRow log key := by
  simp only [isFor_loggedRow]
  by_cases h : key = r.key
  · rw [if_pos h]
    unfold loggedRow
    rw [lastWritten?_concat, if_pos h, Option.bind_some, h]
    rfl
  · rw [if_neg h]
    unfold loggedRow
    rw [lastWritten?_concat, if_neg h]

/-- One more row in a log is an insertion into its listing. -/
theorem listing_concat (log : List FullRow) (r : FullRow) :
    listing (log ++ [r]) = insertRow (listing log) r := by
  have hkeys : (listing log).any (·.isFor r.key) = true ↔ r.key ∈ log.map (·.key) := by
    unfold listing
    rw [List.any_map, List.any_eq_true]
    simp only [Function.comp_apply, isFor_loggedRow, List.mem_eraseDups]
    exact ⟨fun ⟨key, hkey, heq⟩ => heq ▸ hkey, fun h => ⟨_, h, rfl⟩⟩
  have hold : (log.map (·.key)).eraseDups.map (loggedRow (log ++ [r])) =
      (listing log).map fun row => if row.isFor r.key then r.stored else row := by
    unfold listing
    rw [List.map_map]
    exact List.map_congr_left fun key _ => loggedRow_concat log r key
  have hlisting : listing (log ++ [r]) =
      ((listing log).map fun row => if row.isFor r.key then r.stored else row) ++
        ([r.key].removeAll (log.map (·.key))).eraseDups.map (loggedRow (log ++ [r])) := by
    rw [← hold, ← List.map_append, ← List.eraseDups_append]
    unfold listing
    rw [List.map_append, List.map_singleton]
  -- What is left is that the last row is new exactly if its key is.
  rw [hlisting]
  unfold insertRow
  split
  · rename_i hany
    have hnone : [r.key].removeAll (log.map (·.key)) = [] := by
      simpa [List.removeAll] using hkeys.mp hany
    rw [hnone, List.eraseDups_nil, List.map_nil, List.append_nil]
  · rename_i hany
    have hone : [r.key].removeAll (log.map (·.key)) = [r.key] := by
      simpa [List.removeAll] using mt hkeys.mpr hany
    have hrow : loggedRow (log ++ [r]) r.key = r.stored := by
      rw [loggedRow_concat, if_pos (isFor_loggedRow.mpr rfl)]
    have hsame : ∀ row ∈ listing log, (if row.isFor r.key then r.stored else row) = row :=
      fun row hrow => if_neg fun hkey => hany (List.any_eq_true.mpr ⟨row, hrow, hkey⟩)
    rw [hone, List.eraseDups_cons, List.filter_nil, List.eraseDups_nil, List.map_singleton, hrow,
      List.map_congr_left hsame, List.map_id']

namespace Tables

/-! ## Rows after a write -/

/-- Numbering a type changes no row. -/
theorem rows_typeId {t : Tables} (h : t.Sound) (type : String) :
    (t.typeId type).2.rows = t.rows := by
  have hsound := h.typeId type
  cases hfind : t.findType? type with
  | some id => rw [typeId_of_some hfind]
  | none =>
    rw [typeId_of_none hfind] at hsound ⊢
    unfold rows
    refine List.map_congr_left fun m hm => ?_
    obtain ⟨e, he, hid⟩ := h.typed m hm
    have htype : (⟨m.typeId, e.name⟩ : TypeEntry) ∈ t.types := hid ▸ he
    unfold join
    rw [(typeName?_eq_some_iff h).mpr htype,
      (typeName?_eq_some_iff hsound).mpr (List.mem_append_left _ htype)]

theorem join_writeValue (t : Tables) (name : String) (typeId : Nat) (value : Binary64) :
    (t.writeValue name typeId value).join = t.join := by
  funext m
  unfold join typeName?
  rw [types_writeValue]

/-- Writing a value inserts its row. -/
theorem rows_writeValue {t : Tables} (h : t.Sound) {r : FullRow} {typeId : Nat}
    (htype : ⟨typeId, r.type⟩ ∈ t.types) :
    (t.writeValue r.name typeId r.value).rows = insertRow t.rows r := by
  have hname := (typeName?_eq_some_iff h).mpr htype
  have hkey : ∀ m, (t.join m).isFor r.key = isRow r.name typeId m := by
    intro m
    rw [Bool.eq_iff_iff, isRow_iff, Prod.mk.injEq]
    unfold Row.isFor FullRow.key join
    rw [Bool.and_eq_true, beq_iff_eq, beq_iff_eq, Option.some_inj, and_comm]
    refine and_congr_right fun _ => ⟨fun hsame => ?_, fun hsame => hsame ▸ hname⟩
    have hmem := (typeName?_eq_some_iff h).mp hsame
    exact congrArg TypeEntry.id (List.inj_on_of_nodup_map h.typeNames hmem htype rfl)
  have hany : t.rows.any (·.isFor r.key) = t.metrics.any (isRow r.name typeId) := by
    unfold rows
    rw [List.any_map]
    exact congrArg t.metrics.any (funext hkey)
  unfold insertRow rows
  rw [join_writeValue, ← rows, hany]
  by_cases hrow : t.metrics.any (isRow r.name typeId) = true
  · rw [writeValue_of_row r.value hrow, if_pos hrow, rows, List.map_map, List.map_map]
    refine List.map_congr_left fun m _ => ?_
    rw [Function.comp_apply, Function.comp_apply, hkey, rewrite]
    split
    · rename_i hisRow
      obtain ⟨hsame, hid⟩ := Prod.mk.inj (isRow_iff.mp hisRow)
      unfold join FullRow.stored
      rw [hid, hname, hsame]
    · rfl
  · rw [writeValue_of_no_row r.value hrow, if_neg hrow, List.map_append, List.map_singleton, ← rows]
    unfold join FullRow.stored
    rw [hname]

theorem rows_upsert {t : Tables} (h : t.Sound) (r : FullRow) :
    (t.upsert r).rows = insertRow t.rows r := by
  have hsound := h.typeId r.type
  have hfind : (t.typeId r.type).2.findType? r.type = some (t.typeId r.type).1 := by
    rw [findType?_typeId, if_pos rfl]
  rw [upsert_eq, rows_writeValue hsound ((findType?_eq_some_iff hsound).mp hfind), rows_typeId h]

/-- Tables that were empty list their log. -/
theorem rows_foldl_upsert (log : List FullRow) : (log.foldl upsert empty).rows = listing log := by
  induction log using List.reverseRecOn with
  | nil => rfl
  | append_singleton log r ih =>
    rw [List.foldl_append, List.foldl_cons, List.foldl_nil, listing_concat,
      rows_upsert (sound_empty.foldl_upsert log), ih]

/-- A look-up finds the row of a key if the key is in the log. -/
theorem row?_of_rows_eq_listing {t : Tables} {log : List FullRow} (h : t.rows = listing log)
    (type name : String) :
    t.row? type name =
      if (type, name) ∈ log.map (·.key) then some (loggedRow log (type, name)) else none := by
  have hfor : (·.isFor (type, name)) ∘ loggedRow log = (· == (type, name)) := by
    funext key
    rw [Bool.eq_iff_iff, Function.comp_apply, isFor_loggedRow, beq_iff_eq]
  change t.rows.find? (·.isFor (type, name)) = _
  rw [h, listing, List.find?_map, hfor]
  split
  · rename_i hmem
    have hsome : ((log.map (·.key)).eraseDups.find? (· == (type, name))).isSome :=
      List.find?_isSome.mpr ⟨_, List.mem_eraseDups.mpr hmem, beq_self_eq_true _⟩
    obtain ⟨key, hfind⟩ := Option.isSome_iff_exists.mp hsome
    have hkey : (key == (type, name)) = true := List.find?_some (p := (· == (type, name))) hfind
    rw [hfind, eq_of_beq hkey]
    rfl
  · rename_i hmem
    rw [Option.map_eq_none_iff, List.find?_eq_none]
    intro key hkey heq
    exact hmem (beq_iff_eq.mp heq ▸ List.mem_eraseDups.mp hkey)

/-- Under a key of the log stands what is kept of the number written last, and all other contents stay. -/
theorem value?_foldl_upsert {t : Tables} (h : t.Sound) (log : List FullRow) (type name : String) :
    (log.foldl upsert t).value? type name =
      ((lastWritten? log (type, name)).map storedReal).or (t.value? type name) := by
  induction log using List.reverseRecOn with
  | nil => rfl
  | append_singleton log r ih =>
    rw [List.foldl_append, List.foldl_cons, List.foldl_nil, value?_upsert (h.foldl_upsert log), ih,
      lastWritten?_concat]
    simp only [FullRow.key, Prod.mk.injEq]
    split <;> rfl

/-! ## Numbers -/

/-- The rows of both tables stand in ascending order of their numbers, up to the last ones given. -/
structure Numbered (t : Tables) : Prop where
  types : t.types.Pairwise (·.id < ·.id)
  types_le : ∀ e ∈ t.types, e.id ≤ t.lastType
  metrics : t.metrics.Pairwise (·.id < ·.id)
  metrics_le : ∀ m ∈ t.metrics, m.id ≤ t.lastMetric

theorem numbered_empty : empty.Numbered :=
  ⟨.nil, List.forall_mem_nil _, .nil, List.forall_mem_nil _⟩

/-- A number that was never given goes to the end. -/
theorem pairwise_concat_of_le {α : Type} {number : α → Nat} {xs : List α} {last : Nat} {x : α}
    (h : xs.Pairwise (number · < number ·)) (hle : ∀ y ∈ xs, number y ≤ last)
    (hx : number x = last + 1) :
    (xs ++ [x]).Pairwise (number · < number ·) ∧ ∀ y ∈ xs ++ [x], number y ≤ last + 1 := by
  constructor
  · refine List.pairwise_append.mpr ⟨h, List.pairwise_singleton _ _, fun y hy z hz => ?_⟩
    obtain rfl := List.mem_singleton.mp hz
    rw [hx]
    exact Nat.lt_succ_of_le (hle y hy)
  · intro y hy
    rcases List.mem_append.mp hy with hy | hy
    · exact Nat.le_succ_of_le (hle y hy)
    · rw [List.mem_singleton.mp hy, hx]

theorem Numbered.typeId {t : Tables} (h : t.Numbered) (type : String) :
    (t.typeId type).2.Numbered := by
  cases hfind : t.findType? type with
  | some id =>
    rw [typeId_of_some hfind]
    exact h
  | none =>
    rw [typeId_of_none hfind]
    obtain ⟨htypes, hle⟩ := pairwise_concat_of_le (x := (⟨t.lastType + 1, type⟩ : TypeEntry))
      h.types h.types_le rfl
    exact ⟨htypes, hle, h.metrics, h.metrics_le⟩

theorem Numbered.writeValue {t : Tables} (h : t.Numbered) (name : String) (typeId : Nat)
    (value : Binary64) : (t.writeValue name typeId value).Numbered := by
  by_cases hrow : t.metrics.any (isRow name typeId) = true
  · have hid : ∀ m, (rewrite name typeId value m).id = m.id := by
      intro m
      unfold rewrite
      split <;> rfl
    rw [writeValue_of_row value hrow]
    refine ⟨h.types, h.types_le, List.pairwise_map.mpr ?_, ?_⟩
    · simpa only [hid] using h.metrics
    · intro m hm
      obtain ⟨m', hm', rfl⟩ := List.mem_map.mp hm
      rw [hid]
      exact h.metrics_le m' hm'
  · rw [writeValue_of_no_row value hrow]
    obtain ⟨hmetrics, hle⟩ := pairwise_concat_of_le
      (x := (⟨t.lastMetric + 1, name, typeId, storedReal value⟩ : MetricEntry))
      h.metrics h.metrics_le rfl
    exact ⟨h.types, h.types_le, hmetrics, hle⟩

theorem Numbered.foldl_upsert {t : Tables} (h : t.Numbered) (rows : List FullRow) :
    (rows.foldl Tables.upsert t).Numbered := by
  induction rows generalizing t with
  | nil => exact h
  | cons r rows ih => exact ih ((h.typeId r.type).writeValue r.name _ r.value)

end Tables

namespace Connection

/-- The site after updates, whatever came of each. -/
def updates (c : Connection) (calls : List (List Row)) (site : Site) : Site :=
  calls.foldl (fun site rows => (c.update rows site).2) site

theorem Ready.updates {c : Connection} {site : Site} {t : Tables} (h : c.Ready site t)
    (calls : List (List Row)) :
    c.Ready (c.updates calls site) ((calls.flatMap Tables.writtenRows).foldl Tables.upsert t) := by
  induction calls generalizing site t with
  | nil => exact h
  | cons rows calls ih =>
    rw [List.flatMap_cons, List.foldl_append]
    exact ih (h.updateAny rows).2

theorem Ready.query {α : Type} {c : Connection} {site : Site} {t : Tables} (h : c.Ready site t)
    (f : Tables → α) : c.query site f = .ok (f t) := by
  unfold Connection.query
  rw [h.isOpen, h.tables]
  rfl

/-- After any updates of tables that were just made, the types and the rows have numbers and keys of their
    own and every row is of a known type. What is read are the keys of the complete updates in the order
    in which they were first written, each once, with what the column keeps of the number written last,
    and a look-up finds the row of its key or nothing. An update fails exactly for a row that is not
    complete, and then it has written nothing. -/
theorem updates_keep_insertion_order {c : Connection} {before site : Site}
    (hfresh : c.tables? before = none) (hmigrate : c.migrate before = (.ok (), site))
    (calls : List (List Row)) :
    let after := c.updates calls site
    let log := calls.flatMap Tables.writtenRows
    (∃ t, c.tables? after = some t ∧ t.Sound ∧ t.Numbered) ∧
      (c.relational.readAll after).1 = .ok (listing log) ∧
      (∀ type name, (c.relational.readOne type name after).1 =
        .ok (if (type, name) ∈ log.map (·.key) then some (loggedRow log (type, name)) else none)) ∧
      ∀ rows, (c.update rows after).1 = (rows.mapM Row.complete).map fun _ => () := by
  intro after log
  have h : c.Ready after (log.foldl Tables.upsert .empty) :=
    (ready_of_migrate hfresh hmigrate).updates calls
  have hrows := Tables.rows_foldl_upsert log
  refine ⟨⟨_, h.tables, ?_, ?_⟩, ?_, fun type name => ?_, fun rows => (h.updateAny rows).1⟩
  · exact Tables.sound_empty.foldl_upsert log
  · exact Tables.numbered_empty.foldl_upsert log
  · exact (h.query (·.rows)).trans (congrArg Except.ok hrows)
  · exact (h.query (·.row? type name)).trans
      (congrArg Except.ok (Tables.row?_of_rows_eq_listing hrows type name))

/-- Between two updates of a counter one fails over an absent number and leaves nothing, and a gauge of the
    same name that is not a number is listed with an absent one. -/
theorem updates_keep_insertion_order_around_failure :
    let c := (openMemory .empty).1
    let before := (openMemory .empty).2
    let site := (c.migrate before).2
    let calls : List (List Row) :=
      [[.ofFull ⟨"counter", "a", .ofNat 1⟩, .ofFull ⟨"gauge", "a", .nan⟩],
        [.ofFull ⟨"gauge", "b", .ofNat 2⟩, ⟨some "gauge", some "c", none⟩],
        [.ofFull ⟨"gauge", "d", .ofNat 4⟩, .ofFull ⟨"counter", "a", .ofNat 3⟩]]
    c.tables? before = none ∧ c.migrate before = (.ok (), site) ∧
      (c.relational.readAll (c.updates calls site)).1 =
        .ok [.ofFull ⟨"counter", "a", .ofNat 3⟩, ⟨some "gauge", some "a", none⟩,
          .ofFull ⟨"gauge", "d", .ofNat 4⟩] ∧
      (c.relational.readOne "gauge" "b" (c.updates calls site)).1 = .ok none := by
  intro c before site calls
  have hfresh : c.tables? before = none := rfl
  have hmigrate : c.migrate before = (.ok (), site) := rfl
  obtain ⟨-, hall, hone, -⟩ := updates_keep_insertion_order hfresh hmigrate calls
  refine ⟨hfresh, hmigrate, hall.trans ?_, (hone "gauge" "b").trans ?_⟩
  · decide +kernel
  · decide +kernel

end Connection

end Telemetry.Database
