-- SUMMARY: Recovering a storage from its backup file: which files are taken over, as which values, and that all others change nothing.
import Mathlib
import Telemetry.Proofs.Backup.Changes
import Telemetry.Proofs.Store.Flushing
import Telemetry.Proofs.Store.RoundTrip
import Telemetry.Proofs.Text.Hex

/-!
# Recovery

A storage takes over its backup file as a whole or not at all. The file is checked in three layers: its text
has to denote a list of records, every record has to be complete, and of the last record for each key the
type has to be known and the value has to be read. So a value that is none does no harm in front of
another record of its key, while an empty part does.
-/

namespace Telemetry

-- ---------------------------------------------------------------------------
-- Files of white space
-- ---------------------------------------------------------------------------

namespace Json

/-- The symbol is white space in a file: a blank of the format, or a form feed, which is none. -/
def IsSpace (symbol : Option Char) : Prop :=
  isBlank symbol = true ∨ symbol = some '\x0c'

/-- Of white space nothing is left but what begins with a form feed. -/
theorem skipBlanks_of_forall_isSpace {input : Symbols} (h : ∀ symbol ∈ input, IsSpace symbol) :
    skipBlanks input = [] ∨ ∃ rest, skipBlanks input = some '\x0c' :: rest := by
  unfold skipBlanks
  induction input with
  | nil => exact .inl rfl
  | cons symbol input ih =>
    obtain ⟨hsymbol, hinput⟩ := List.forall_mem_cons.mp h
    rw [List.dropWhile_cons]
    rcases hsymbol with hblank | rfl
    · rw [if_pos hblank]
      exact ih hinput
    · exact .inr ⟨input, rfl⟩

/-- White space denotes no value. -/
theorem read?_of_forall_isSpace {input : Symbols} (h : ∀ symbol ∈ input, IsSpace symbol) :
    read? input = none := by
  have hvalue : value? (2 * input.length + 2) input = none := by
    rw [value?]
    rcases skipBlanks_of_forall_isSpace h with hnil | ⟨rest, hcons⟩
    · rw [hnil]
      rfl
    · rw [hcons]
      rfl
  rw [read?, hvalue]

end Json

namespace Backup

namespace Record

theorem isSpace_of_isBlankByte {byte : UInt8} (h : isBlankByte byte = true) :
    Json.IsSpace (some (Char.ofNat byte.toNat)) ∧ byte.toNat < 0x80 := by
  have hspace : ∀ byte, isBlankByte byte = true →
      (Json.isBlank (some (Char.ofNat byte.toNat)) = true ∨ Char.ofNat byte.toNat = '\x0c') ∧
        byte.toNat < 0x80 :=
    Hex.forall_byte (by decide +kernel)
  exact ⟨(hspace byte h).1.imp_right (congrArg some), (hspace byte h).2⟩

/-- A blank file denotes no value. -/
theorem readBytes?_of_blank {content : List UInt8} (h : content.all isBlankByte = true) :
    Json.readBytes? content = none := by
  have hspace : ∀ byte ∈ content, Json.IsSpace (some (Char.ofNat byte.toNat)) ∧ byte.toNat < 0x80 :=
    fun byte hbyte => isSpace_of_isBlankByte (List.all_eq_true.mp h byte hbyte)
  unfold Json.readBytes?
  rw [Hex.symbols_of_lt fun byte hbyte => (hspace byte hbyte).2]
  refine Json.read?_of_forall_isSpace fun symbol hsymbol => ?_
  obtain ⟨byte, hbyte, rfl⟩ := List.mem_map.mp hsymbol
  exact (hspace byte hbyte).1

end Record

-- ---------------------------------------------------------------------------
-- Files of entries
-- ---------------------------------------------------------------------------

namespace FileBackup

/-- What stands at a path lists entries: none if there is no file or a blank one, otherwise those of the
    records that the text of the file denotes, no part of which is missing or empty. -/
inductive Lists (path : String) (d : Disk) : List Snapshot.Entry → Prop where
  | missing (read : d.read path = .error .notFound) : Lists path d []
  | blank {content : List UInt8} (read : d.read path = .ok content)
      (blank : content.all Record.isBlankByte = true) : Lists path d []
  | records {content : List UInt8} {entries : List Snapshot.Entry} (read : d.read path = .ok content)
      (denotes : (Json.readBytes? content).bind Record.listOfJson? = some (entries.map .ofEntry))
      (complete : ∀ e ∈ entries, e.Complete) : Lists path d entries

variable {path : String} {d : Disk} {entries : List Snapshot.Entry}

theorem records_eq_ok_iff {records : List Record} :
    (⟨some path⟩ : FileBackup).records d = .ok records ↔
      d.read path = .error .notFound ∧ records = [] ∨
        ∃ content, d.read path = .ok content ∧ Record.readFile? content = some records := by
  unfold FileBackup.records
  dsimp only
  cases d.read path with
  | error fault => cases fault <;> simp [fail, eq_comm]
  | ok content =>
    cases hfile : Record.readFile? content <;> simp [hfile, fail]

/-- The entries are listed that the backup reads complete records of. -/
theorem lists_iff :
    Lists path d entries ↔
      (⟨some path⟩ : FileBackup).records d = .ok (entries.map .ofEntry) ∧ ∀ e ∈ entries, e.Complete := by
  rw [records_eq_ok_iff]
  constructor
  · rintro (hread | ⟨hread, hblank⟩ | ⟨hread, hdenotes, hcomplete⟩)
    · exact ⟨.inl ⟨hread, rfl⟩, List.forall_mem_nil _⟩
    · exact ⟨.inr ⟨_, hread, if_pos hblank⟩, List.forall_mem_nil _⟩
    · refine ⟨.inr ⟨_, hread, (if_neg fun hblank => ?_).trans hdenotes⟩, hcomplete⟩
      rw [Record.readBytes?_of_blank hblank] at hdenotes
      cases hdenotes
  · rintro ⟨⟨hread, hnil⟩ | ⟨content, hread, hfile⟩, hcomplete⟩
    · obtain rfl := List.map_eq_nil_iff.mp hnil
      exact .missing hread
    · unfold Record.readFile? at hfile
      split at hfile <;> rename_i hblank
      · obtain rfl := List.map_eq_nil_iff.mp (Option.some.inj hfile).symm
        exact .blank hread hblank
      · exact .records hread hfile hcomplete

theorem Lists.unique {others : List Snapshot.Entry} (h : Lists path d entries) (h' : Lists path d others) :
    entries = others := by
  have hrecords := (lists_iff.mp h).1
  rw [(lists_iff.mp h').1, Except.ok.injEq] at hrecords
  exact (List.map_injective_iff.mpr Record.ofEntry_injective hrecords).symm

/-- A snapshot is read of the entries that are listed. -/
theorem snapshot_eq_ok_iff_lists {s : Snapshot} :
    (⟨some path⟩ : FileBackup).snapshot d = .ok s ↔
      ∃ entries, Lists path d entries ∧ Snapshot.ofEntries entries = s := by
  simp only [snapshot_eq_ok_iff, lists_iff, and_assoc]

end FileBackup

end Backup

-- ---------------------------------------------------------------------------
-- Entries that are read
-- ---------------------------------------------------------------------------

namespace Snapshot

theorem mem_keys_iff {s : Snapshot} (h : s.Populated) {type : String} :
    type ∈ SortedMap.keys s ↔ ∃ name raw, s.value? type name = some raw := by
  have hkeys : type ∈ SortedMap.keys s ↔ (SortedMap.find? s type).isSome := by
    simp [SortedMap.keys, Option.isSome_iff_exists, SortedMap.mem_entries_iff]
  simp only [hkeys, find?_isSome_iff h, Option.isSome_iff_exists]

/-- Of the last entry for each key the type is known and the value is read. -/
def Legible (entries : List Entry) : Prop :=
  ∀ type name raw, last? entries type name = some raw →
    ∃ kind v, type = Kind.name kind ∧ Value.read kind raw = .ok v

/-- A snapshot of entries is inoffensive if the entries are legible. -/
theorem forall_not_offends_ofEntries_iff {entries : List Entry} :
    (∀ o, ¬ (ofEntries entries).Offends o) ↔ Legible entries := by
  simp only [forall_not_offends_iff, mem_keys_iff (populated_ofEntries entries), value?_ofEntries]
  constructor
  · rintro ⟨htypes, hvalues⟩ type name raw hlast
    rcases htypes type ⟨name, raw, hlast⟩ with rfl | rfl
    · obtain ⟨v, hv⟩ := hvalues .counter name raw hlast
      exact ⟨.counter, v, rfl, hv⟩
    · obtain ⟨v, hv⟩ := hvalues .gauge name raw hlast
      exact ⟨.gauge, v, rfl, hv⟩
  · intro h
    refine ⟨?_, fun kind name raw hlast => ?_⟩
    · rintro type ⟨name, raw, hlast⟩
      obtain ⟨kind, -, rfl, -⟩ := h type name raw hlast
      cases kind with
      | counter => exact .inl rfl
      | gauge => exact .inr rfl
    · obtain ⟨kind', v, hname, hv⟩ := h _ name raw hlast
      obtain rfl := Kind.name_injective hname
      exact ⟨v, hv⟩

end Snapshot

namespace Storage

open Backup.FileBackup (Lists)

-- ---------------------------------------------------------------------------
-- Recovery
-- ---------------------------------------------------------------------------

variable {path : String} {s : Storage} {entries : List Snapshot.Entry}

theorem readBackup_of_file (hbackup : s.backup = .file ⟨some path⟩) :
    s.readBackup = within "get metrics from backup storage"
      ((⟨some path⟩ : Backup.FileBackup).snapshot s.site.disk) := by
  unfold readBackup
  rw [hbackup]
  rfl

/-- The entries that a file lists are restored as their snapshot. -/
theorem restoreFromBackup_of_lists (hbackup : s.backup = .file ⟨some path⟩)
    (hlists : Lists path s.site.disk entries) :
    s.restoreFromBackup = s.restore (.ofEntries entries) := by
  refine restoreFromBackup_of_ok ?_
  rw [readBackup_of_file hbackup, within_eq_ok_iff]
  exact Backup.FileBackup.snapshot_eq_ok_iff_lists.mpr ⟨entries, hlists, rfl⟩

/-- Whatever else stands at the path is an error, and nothing changes. -/
theorem restoreFromBackup_of_not_lists (hbackup : s.backup = .file ⟨some path⟩)
    (hlists : ∀ entries, ¬ Lists path s.site.disk entries) :
    ∃ e, s.restoreFromBackup = (.error e, s) := by
  cases hread : s.readBackup with
  | error e => exact ⟨e, restoreFromBackup_of_error hread⟩
  | ok snapshot =>
    rw [readBackup_of_file hbackup, within_eq_ok_iff] at hread
    obtain ⟨entries, hentries, -⟩ := Backup.FileBackup.snapshot_eq_ok_iff_lists.mp hread
    exact absurd hentries (hlists entries)

/-- Legible entries that the file lists are taken over, and with all other files nothing changes. -/
theorem restoreFromBackup_cases (hbackup : s.backup = .file ⟨some path⟩) :
    (∃ entries, Lists path s.site.disk entries ∧ Snapshot.Legible entries ∧
      s.restoreFromBackup.1 = .ok () ∧
      s.restoreFromBackup.2.snapshot = (Snapshot.ofEntries entries).canonical) ∨
    (∀ entries, Lists path s.site.disk entries → ¬ Snapshot.Legible entries) ∧
      ∃ e, s.restoreFromBackup = (.error e, s) := by
  by_cases hlists : ∃ entries, Lists path s.site.disk entries
  · obtain ⟨entries, hlists⟩ := hlists
    have hrestore : s.restoreFromBackup = s.restore (.ofEntries entries) :=
      restoreFromBackup_of_lists hbackup hlists
    rcases MemoryStore.restore_cases s.instances (.ofEntries entries) with ⟨hnone, p, hp⟩ |
      ⟨o, ho, -, herror⟩
    · have hresult : s.restoreFromBackup.1 = .ok () :=
        congrArg Prod.fst (hrestore.trans (restore_of_ok hp))
      refine .inl ⟨entries, hlists, Snapshot.forall_not_offends_ofEntries_iff.mp hnone, hresult, ?_⟩
      rw [snapshot_of_restore (hrestore.symm.trans (Prod.ext hresult rfl))]
      exact Snapshot.withoutBareTypes_of_populated
        (Snapshot.populated_canonical (Snapshot.populated_ofEntries entries))
    · refine .inr ⟨fun others hothers hlegible => ?_, _, hrestore.trans (restore_of_error herror)⟩
      obtain rfl := hlists.unique hothers
      exact Snapshot.forall_not_offends_ofEntries_iff.mpr hlegible o ho
  · have hnone := not_exists.mp hlists
    exact .inr ⟨fun entries h => absurd h (hnone entries), restoreFromBackup_of_not_lists hbackup hnone⟩

/-- From whatever state a storage recovers, and whatever stands at the path of its backup file: it succeeds
    exactly if there is no file, or a blank one, or one that denotes records none of whose parts is missing
    or empty, and if of the last record for each key the type is known and the value is read. What is in
    memory then are the last values of these records in canonical spelling. If it fails, nothing has changed,
    and the file stays as it is in any case. -/
theorem recovery_takes_file_or_nothing {path : String} {s : Storage}
    (hbackup : s.backup = .file ⟨some path⟩) :
    let result := s.restoreFromBackup.1
    let after := s.restoreFromBackup.2
    (result = .ok () ↔ ∃ entries, Lists path s.site.disk entries ∧
      ∀ type name raw, Snapshot.last? entries type name = some raw →
        ∃ kind v, type = Kind.name kind ∧ Value.read kind raw = .ok v) ∧
    (∀ entries, Lists path s.site.disk entries → result = .ok () →
      after.snapshot = (Snapshot.ofEntries entries).canonical ∧
      ∀ type name, after.snapshot.value? type name =
        (Snapshot.last? entries type name).map (Snapshot.canonicalValue type)) ∧
    (∀ e, result = .error e → after = s) ∧
    after.site = s.site := by
  intro result after
  have hsite : after.site = s.site := (restoreFromBackup_frame s).2.2
  rcases restoreFromBackup_cases hbackup with ⟨entries, hlists, hlegible, hresult, hsnapshot⟩ |
    ⟨hnone, e, hrestore⟩
  · refine ⟨iff_of_true hresult ⟨entries, hlists, hlegible⟩, fun others hothers _ => ?_,
      fun e he => (nomatch hresult.symm.trans he), hsite⟩
    obtain rfl := hlists.unique hothers
    refine ⟨hsnapshot, fun type name => ?_⟩
    rw [hsnapshot, Snapshot.value?_canonical, Snapshot.value?_ofEntries]
  · have hne : result ≠ .ok () := fun h => nomatch (congrArg Prod.fst hrestore).symm.trans h
    exact ⟨iff_of_false hne fun ⟨entries, hlists, hlegible⟩ => hnone entries hlists hlegible,
      fun _ _ h => absurd h hne, fun _ _ => congrArg Prod.snd hrestore, hsite⟩

/-- The only metric in memory is a counter at one, and the backup file holds the given records. -/
def besideFile (records : List Backup.Record) : Storage :=
  { oneCounter with
    backup := .file ⟨some "b"⟩
    site := { Site.empty with
      disk := Disk.empty.put "b" (.file (Backup.Record.writeFile records).toUTF8.toList) } }

/-- A value that is none does no harm in front of a seven for the same key, but an empty value does. -/
theorem recovery_takes_file_or_nothing_hiddenFaults :
    let hidden := besideFile [⟨some "counter", some "a", some "x"⟩, ⟨some "counter", some "a", some "+007"⟩]
    let empty := besideFile [⟨some "counter", some "a", some ""⟩, ⟨some "counter", some "a", some "7"⟩]
    hidden.backup = .file ⟨some "b"⟩ ∧ hidden.restoreFromBackup.1 = .ok () ∧
      hidden.restoreFromBackup.2.snapshot.value? "counter" "a" = some "7" ∧
      empty.backup = .file ⟨some "b"⟩ ∧ (∃ e, empty.restoreFromBackup.1 = .error e) ∧
      empty.restoreFromBackup.2 = empty := by
  intro hidden empty
  have hhidden : Lists "b" hidden.site.disk [⟨"counter", "a", "x"⟩, ⟨"counter", "a", "+007"⟩] :=
    Backup.FileBackup.lists_iff.mpr
      ⟨Backup.FileBackup.records_put_writeFile _, by simp [Snapshot.Entry.Complete]⟩
  have hempty : ∀ entries, ¬ Lists "b" empty.site.disk entries := by
    intro entries hlists
    obtain ⟨hrecords, hcomplete⟩ := Backup.FileBackup.lists_iff.mp hlists
    have hwritten := Backup.FileBackup.records_put_writeFile
      (List.map .ofEntry [⟨"counter", "a", ""⟩, ⟨"counter", "a", "7"⟩])
    obtain rfl := List.map_injective_iff.mpr Backup.Record.ofEntry_injective
      (Except.ok.inj (hrecords.symm.trans hwritten))
    exact (hcomplete _ List.mem_cons_self).2.2 rfl
  obtain ⟨hok, hvalue, -, -⟩ := recovery_takes_file_or_nothing (s := hidden) rfl
  obtain ⟨hok', -, herror, -⟩ := recovery_takes_file_or_nothing (s := empty) rfl
  have hresult : hidden.restoreFromBackup.1 = .ok () := by
    refine hok.mpr ⟨_, hhidden, fun type name raw hlast => ⟨.counter, .counter 7, ?_⟩⟩
    rw [Snapshot.last?_cons, Snapshot.last?_singleton] at hlast
    split at hlast <;> rename_i hkey
    · cases hlast
      exact ⟨hkey.1, by decide +kernel⟩
    · cases hlast
  have hresult' : empty.restoreFromBackup.1 ≠ .ok () := by
    intro h
    obtain ⟨entries, hlists, -⟩ := hok'.mp h
    exact hempty entries hlists
  refine ⟨rfl, hresult, ((hvalue _ hhidden hresult).2 _ _).trans (by decide +kernel), rfl, ?_⟩
  cases hrestore : empty.restoreFromBackup.1 with
  | ok _ => exact absurd hrestore hresult'
  | error e => exact ⟨⟨e, rfl⟩, herror e hrestore⟩

end Storage

end Telemetry
