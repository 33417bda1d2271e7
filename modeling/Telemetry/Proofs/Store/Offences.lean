-- SUMMARY: What keeps a snapshot from being restored, and which of several offences is reported.
import Mathlib
import Telemetry.Proofs.Outcome
import Telemetry.Proofs.Snapshot
import Telemetry.Proofs.Text.ByteOrder
import Telemetry.Store.Memory

/-!
# Offences

A snapshot offends by a type that is none, and by a value that its type does not read. Reading goes through
the types and the names in the order of their bytes and stops at the first offence, so the offences are
listed in this order, and reading comes to the first of the list.
-/

namespace Telemetry

namespace Snapshot

/-- A part of a snapshot that is not read: a type, or the value under a name of a type. -/
structure Offence where
  type : String
  name : Option String
  error : Error

/-- A type is not read. -/
def Offence.ofType (type : String) (e : Error) : Offence :=
  ⟨type, none, e.within ("handle backup metric with type '" ++ type ++ "'")⟩

/-- The value under a name of a type is not read. -/
def Offence.ofValue (type name : String) (e : Error) : Offence :=
  ⟨type, some name, e.within ("parse value of " ++ type ++ "/" ++ name)⟩

/-- What a snapshot is not restored for. -/
inductive Offends (s : Snapshot) : Offence → Prop where
  | type {type : String} {e : Error} (mem : type ∈ SortedMap.keys s) (unknown : Kind.read type = .error e) :
    s.Offends (.ofType type e)
  | value {kind : Kind} {name raw : String} {e : Error} (stored : s.value? kind.name name = some raw)
      (malformed : Value.read kind raw = .error e) :
    s.Offends (.ofValue kind.name name e)

/-- The order of the bytes of the types, then of the bytes of the names. A type comes before its values. -/
def Offence.Precedes (o o' : Offence) : Prop :=
  Utf8.encode o.type < Utf8.encode o'.type ∨ o.type = o'.type ∧
    match o.name, o'.name with
    | none, some _ => True
    | some name, some name' => Utf8.encode name < Utf8.encode name'
    | _, none => False

-- ---------------------------------------------------------------------------
-- Lists of offences
-- ---------------------------------------------------------------------------

/-- The value under a name, if its type does not read it. -/
def offence? (type : String) (kind : Kind) (name raw : String) : Option Offence :=
  match Value.read kind raw with
  | .ok _ => none
  | .error e => some (.ofValue type name e)

/-- The offences of one type, in the order of the names. -/
def typeOffences (type : String) (names : SortedMap String) : List Offence :=
  match Kind.read type with
  | .ok kind => names.entries.filterMap fun p => offence? type kind p.1 p.2
  | .error e => [.ofType type e]

/-- The offences of a snapshot, type by type. -/
def offences (s : Snapshot) : List Offence :=
  (SortedMap.entries s).flatMap fun p => typeOffences p.1 p.2

theorem offence?_eq_some_iff {type : String} {kind : Kind} {name raw : String} {o : Offence} :
    offence? type kind name raw = some o ↔
      ∃ e, Value.read kind raw = .error e ∧ o = .ofValue type name e := by
  unfold offence?
  cases Value.read kind raw with
  | ok v => simp
  | error e => simp [eq_comm]

theorem mem_typeOffences_of_ok {kind : Kind} {names : SortedMap String} {o : Offence} :
    o ∈ typeOffences kind.name names ↔ ∃ name raw e, names.find? name = some raw ∧
      Value.read kind raw = .error e ∧ o = .ofValue kind.name name e := by
  unfold typeOffences
  simp only [Kind.read_name, List.mem_filterMap, Prod.exists, offence?_eq_some_iff,
    SortedMap.mem_entries_iff]
  constructor
  · rintro ⟨name, raw, hfind, e, hread, rfl⟩
    exact ⟨name, raw, e, hfind, hread, rfl⟩
  · rintro ⟨name, raw, e, hfind, hread, rfl⟩
    exact ⟨name, raw, hfind, e, hread, rfl⟩

theorem mem_typeOffences_of_error {type : String} {e : Error} (h : Kind.read type = .error e)
    {names : SortedMap String} {o : Offence} :
    o ∈ typeOffences type names ↔ o = .ofType type e := by
  unfold typeOffences
  rw [h, List.mem_singleton]

/-- The list has all offences and nothing else. -/
theorem mem_offences_iff {s : Snapshot} {o : Offence} : o ∈ s.offences ↔ s.Offends o := by
  unfold offences
  rw [List.mem_flatMap]
  constructor
  · rintro ⟨⟨type, names⟩, hmem, ho⟩
    dsimp only at ho
    cases hkind : Kind.read type with
    | ok kind =>
      obtain rfl := Kind.read_eq_ok_iff.mp hkind
      obtain ⟨name, raw, e, hfind, hread, rfl⟩ := mem_typeOffences_of_ok.mp ho
      refine .value ?_ hread
      rw [value?, SortedMap.mem_entries_iff.mp hmem, Option.bind_some, hfind]
    | error e =>
      obtain rfl := (mem_typeOffences_of_error hkind).mp ho
      exact .type (List.mem_map_of_mem hmem) hkind
  · rintro (⟨hmem, hkind⟩ | ⟨hstored, hread⟩)
    · obtain ⟨p, hp, rfl⟩ := List.mem_map.mp hmem
      exact ⟨p, hp, (mem_typeOffences_of_error hkind).mpr rfl⟩
    · obtain ⟨names, hnames, hfind⟩ := Option.bind_eq_some_iff.mp hstored
      refine ⟨(_, names), SortedMap.mem_entries_iff.mpr hnames, ?_⟩
      exact mem_typeOffences_of_ok.mpr ⟨_, _, _, hfind, hread, rfl⟩

-- ---------------------------------------------------------------------------
-- The order of offences
-- ---------------------------------------------------------------------------

theorem type_of_mem_typeOffences {type : String} {names : SortedMap String} {o : Offence}
    (h : o ∈ typeOffences type names) : o.type = type := by
  cases hkind : Kind.read type with
  | ok kind =>
    obtain rfl := Kind.read_eq_ok_iff.mp hkind
    obtain ⟨name, raw, e, -, -, rfl⟩ := mem_typeOffences_of_ok.mp h
    rfl
  | error e =>
    obtain rfl := (mem_typeOffences_of_error hkind).mp h
    rfl

theorem pairwise_typeOffences (type : String) (names : SortedMap String) :
    (typeOffences type names).Pairwise Offence.Precedes := by
  unfold typeOffences
  split
  · refine List.Pairwise.filterMap _ ?_ names.ascending
    intro p q hlt o ho o' ho'
    obtain ⟨e, -, rfl⟩ := offence?_eq_some_iff.mp ho
    obtain ⟨e', -, rfl⟩ := offence?_eq_some_iff.mp ho'
    exact .inr ⟨rfl, Utf8.encode_lt_encode_iff.mpr hlt⟩
  · exact List.pairwise_singleton _ _

/-- The offences are listed in the order of their bytes. -/
theorem pairwise_offences (s : Snapshot) : s.offences.Pairwise Offence.Precedes := by
  unfold offences
  refine List.pairwise_flatMap.mpr ⟨fun p _ => pairwise_typeOffences p.1 p.2, ?_⟩
  refine (SortedMap.ascending s).imp ?_
  intro p q hlt o ho o' ho'
  rw [Offence.Precedes, type_of_mem_typeOffences ho, type_of_mem_typeOffences ho']
  exact .inl (Utf8.encode_lt_encode_iff.mpr hlt)

/-! ## Snapshots without offences -/

/-- Nothing is offensive in a snapshot whose types are kinds that read all of their values. -/
theorem forall_not_offends_iff {s : Snapshot} :
    (∀ o, ¬ s.Offends o) ↔
      (∀ type ∈ SortedMap.keys s, type = "counter" ∨ type = "gauge") ∧
        ∀ kind name raw, s.value? (Kind.name kind) name = some raw →
          ∃ v, Value.read kind raw = .ok v := by
  constructor
  · intro h
    refine ⟨fun type hmem => ?_, fun kind name raw hstored => ?_⟩
    · cases hkind : Kind.read type with
      | error e => exact absurd (.type hmem hkind) (h _)
      | ok kind =>
        obtain rfl := Kind.read_eq_ok_iff.mp hkind
        cases kind with
        | counter => exact .inl rfl
        | gauge => exact .inr rfl
    · cases hread : Value.read kind raw with
      | ok v => exact ⟨v, rfl⟩
      | error e => exact absurd (.value hstored hread) (h _)
  · rintro ⟨htypes, hvalues⟩ o (⟨hmem, hkind⟩ | ⟨hstored, hread⟩)
    · rcases htypes _ hmem with rfl | rfl
      · cases hkind
      · cases hkind
    · obtain ⟨v, hv⟩ := hvalues _ _ _ hstored
      rw [hv] at hread
      cases hread

end Snapshot

namespace MemoryStore

open Snapshot

/-! ## Reading stops at the first offence -/

theorem readType_cases (type : String) (kind : Kind) (names : List (String × String)) :
    ((names.filterMap fun p => offence? type kind p.1 p.2) = [] ∧
        ∃ metrics, readType type kind names = .ok metrics) ∨
      ∃ o later, (names.filterMap fun p => offence? type kind p.1 p.2) = o :: later ∧
        readType type kind names = .error o.error := by
  induction names with
  | nil => exact .inl ⟨rfl, [], rfl⟩
  | cons p names ih =>
    obtain ⟨name, raw⟩ := p
    cases hread : Value.read kind raw with
    | error e =>
      have hsome : offence? type kind name raw = some (.ofValue type name e) :=
        offence?_eq_some_iff.mpr ⟨e, hread, rfl⟩
      refine .inr ⟨_, _, by rw [List.filterMap_cons, hsome], ?_⟩
      rw [readType, hread, within_error, error_bind]
      rfl
    | ok v =>
      have hnone : offence? type kind name raw = none := by
        rw [offence?, hread]
      rw [List.filterMap_cons, hnone, readType, hread, within_ok, ok_bind]
      rcases ih with ⟨hnil, metrics, hmetrics⟩ | ⟨o, later, hcons, herror⟩
      · exact .inl ⟨hnil, ⟨name, v⟩ :: metrics, by rw [hmetrics, ok_bind]⟩
      · exact .inr ⟨o, later, hcons, by rw [herror, error_bind]⟩

/-- A snapshot is read if nothing in it is offensive, and otherwise its first offence is reported. -/
theorem readSnapshot_cases (types : List (String × SortedMap String)) :
    ((types.flatMap fun p => typeOffences p.1 p.2) = [] ∧
        ∃ metrics, readSnapshot types = .ok metrics) ∨
      ∃ o later, (types.flatMap fun p => typeOffences p.1 p.2) = o :: later ∧
        readSnapshot types = .error o.error := by
  induction types with
  | nil => exact .inl ⟨rfl, [], rfl⟩
  | cons p types ih =>
    obtain ⟨type, names⟩ := p
    rw [List.flatMap_cons, readSnapshot]
    cases hkind : Kind.read type with
    | error e =>
      -- Reading stops here, ahead of the values of the type.
      have hlist : typeOffences type names = [.ofType type e] := by
        rw [typeOffences, hkind]
      refine .inr ⟨_, _, by rw [hlist, List.singleton_append], ?_⟩
      rw [within_error, error_bind]
      rfl
    | ok kind =>
      simp only [typeOffences, hkind, within_ok, ok_bind]
      rcases readType_cases type kind names.entries with ⟨hnil, metrics, hmetrics⟩ |
        ⟨o, later, hcons, herror⟩
      · rw [hnil, hmetrics, List.nil_append]
        rcases ih with ⟨hrest, others, hothers⟩ | ⟨o, later, hcons, herror⟩
        · exact .inl ⟨hrest, metrics ++ others, by rw [ok_bind, hothers, ok_bind]⟩
        · exact .inr ⟨o, later, hcons, by rw [ok_bind, herror, error_bind]⟩
      · exact .inr ⟨o, _, by rw [hcons, List.cons_append], by rw [herror, error_bind]⟩

/-- Restoring fails for the first offence in the order of the bytes, and for nothing else. -/
theorem restore_cases (t : Instances) (s : Snapshot) :
    ((∀ o, ¬ s.Offends o) ∧ ∃ p, restore t s = .ok p) ∨
      ∃ o, s.Offends o ∧ (∀ o', s.Offends o' → o' = o ∨ o.Precedes o') ∧
        restore t s = .error o.error := by
  unfold restore
  rcases readSnapshot_cases (SortedMap.entries s) with ⟨hnil, metrics, hmetrics⟩ |
    ⟨o, later, hcons, herror⟩
  · refine .inl ⟨fun o ho => ?_, ofMetrics t metrics, by rw [hmetrics, ok_bind]⟩
    have hmem : o ∈ s.offences := mem_offences_iff.mpr ho
    rw [offences, hnil] at hmem
    cases hmem
  · have hlist : s.offences = o :: later := hcons
    refine .inr ⟨o, mem_offences_iff.mp (hlist ▸ List.mem_cons_self), fun o' ho' => ?_, ?_⟩
    · have hmem := mem_offences_iff.mpr ho'
      rw [hlist] at hmem
      have hfirst := pairwise_offences s
      rw [hlist] at hfirst
      rcases List.mem_cons.mp hmem with hsame | hlater
      · exact .inl hsame
      · exact .inr ((List.pairwise_cons.mp hfirst).1 o' hlater)
    · rw [herror, error_bind]

end MemoryStore

end Telemetry
