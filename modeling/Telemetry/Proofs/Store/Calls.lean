-- SUMMARY: Several calls on one storage at a time: their single steps, the lock between them, and what one step can do.
import Mathlib
import Telemetry.Proofs.Store.Accumulation
import Telemetry.Proofs.Store.Adding
import Telemetry.Store.Storage

/-!
# Calls at the same time

An addition takes the lock, goes to memory, goes to the backup in sync mode, and gives the lock back.
Making a backup takes two steps, one that reads the memory and one that writes what was read over the
backup, and no lock. Restoring reads the backup, then takes the lock and replaces what is in memory.
Between two steps of a call other calls may take any of theirs, as far as the lock lets them. A call that
is alone does in its steps what the operation does as a whole.
-/

namespace Telemetry

namespace Storage

/-! ## Halves of the operations -/

/-- Write a snapshot over the backup. -/
def overwrite (s : Storage) (snapshot : Snapshot) : Outcome Unit × Storage :=
  let (result, site) := s.backup.restore snapshot s.site
  (result, { s with site })

/-- Read the backup in order to restore it. -/
def readBackup (s : Storage) : Outcome Snapshot :=
  within "get metrics from backup storage" (s.backup.snapshot s.site)

theorem restoreFromBackup_of_ok {s : Storage} {snapshot : Snapshot}
    (h : s.readBackup = .ok snapshot) : s.restoreFromBackup = s.restore snapshot := by
  unfold restoreFromBackup
  rw [show within _ _ = _ from h]

theorem restoreFromBackup_of_error {s : Storage} {e : Error} (h : s.readBackup = .error e) :
    s.restoreFromBackup = (.error e, s) := by
  unfold restoreFromBackup
  rw [show within _ _ = _ from h]

end Storage

namespace MemoryStore

/-- The metrics that a store takes from given instances, each as it is when its turn comes. -/
def taken (s : MemoryStore) (t : Instances) : List Handle → List Metric
  | [] => []
  | h :: rest => (t.get? h).toList ++ (s.addOne t h).2.1.taken (s.addOne t h).2.2 rest

theorem taken_cons (s : MemoryStore) (t : Instances) (h : Handle) (handles : List Handle) :
    s.taken t (h :: handles) =
      (t.get? h).toList ++ (s.addOne t h).2.1.taken (s.addOne t h).2.2 handles := rfl

/-- An addition leaves under a key what the metrics that were taken make of the value before. -/
theorem value?_add {s : MemoryStore} {t : Instances} (hfiled : s.Filed t) (handles : List Handle)
    (k : Kind) (n : String) :
    (s.add t handles).2.1.value? (s.add t handles).2.2 k n =
      (updates (s.taken t handles) k n).foldl (fun before v => some (absorb v before))
        (s.value? t k n) := by
  induction handles generalizing s t with
  | nil => rfl
  | cons h handles ih =>
    rw [add_cons, taken_cons, ih (filed_addOne hfiled h)]
    cases hm : t.get? h with
    | none =>
      unfold addOne
      rw [hm]
      rfl
    | some m =>
      rw [value?_addOne hfiled hm, Option.toList_some, List.singleton_append, updates_cons]
      split
      · rw [List.foldl_cons]
      · rfl

end MemoryStore

/-! ## Calls and the lock -/

namespace Concurrent

/-- What a storage is asked for. -/
inductive Request where
  | add (handles : List Handle)
  | backup
  | restore

/-- A call that does not hold the lock, by the step that it takes next. -/
inductive Call where
  /-- Take the lock for an addition. -/
  | add (handles : List Handle)
  /-- Read the memory. -/
  | backup
  /-- Write what was read from memory over the backup. -/
  | overwrite (snapshot : Snapshot)
  /-- Read the backup. -/
  | restore
  /-- Take the lock to replace the memory by what was read from the backup. -/
  | replace (snapshot : Snapshot)

/-- The call that holds the lock, by the step that it takes next. -/
inductive Holder where
  /-- Add to memory. -/
  | add (handles : List Handle)
  /-- Write stored instances through to the backup. -/
  | writeThrough (stored : List Handle)
  /-- Replace the memory. -/
  | replace (snapshot : Snapshot)

end Concurrent

/-- A storage, the calls in progress, and what those that have returned gave. -/
structure Concurrent where
  storage : Storage
  calls : List Concurrent.Call
  holder : Option Concurrent.Holder
  results : List (Outcome Unit)
  /-- All metrics that the memory has taken, in this order. -/
  taken : List Metric

namespace Concurrent

/-- A call begins, a call without the lock takes a step, or the one with the lock does. -/
inductive Event where
  | begin (r : Request)
  | advance (n : Nat)
  | proceed

def Request.call : Request → Call
  | add handles => .add handles
  | backup => .backup
  | restore => .restore

/-- The instances that a request names are there. -/
def Request.isKnown (t : Instances) : Request → Bool
  | .add handles => handles.all fun h => (t.get? h).isSome
  | _ => true

/-- A storage without calls. -/
def idle (storage : Storage) : Concurrent :=
  ⟨storage, [], none, [], []⟩

/-- No call is in progress. -/
def isIdle (w : Concurrent) : Bool :=
  w.calls.isEmpty && w.holder.isNone

/-! ## Steps -/

/-- A call takes the lock if it is free. -/
def lock (w : Concurrent) (n : Nat) (holder : Holder) : Concurrent :=
  match w.holder with
  | none => { w with calls := w.calls.eraseIdx n, holder := some holder }
  | some _ => w

/-- A call that does not hold the lock returns. -/
def finish (w : Concurrent) (n : Nat) (result : Outcome Unit) (storage : Storage) : Concurrent :=
  { w with storage, calls := w.calls.eraseIdx n, results := w.results ++ [result] }

/-- The call that holds the lock gives it back and returns. -/
def release (w : Concurrent) (result : Outcome Unit) (storage : Storage) : Concurrent :=
  { w with storage, holder := none, results := w.results ++ [result] }

/-- The next step of a call that does not hold the lock. -/
def advance (w : Concurrent) (n : Nat) : Concurrent :=
  match w.calls[n]? with
  | none => w
  | some (.add handles) => w.lock n (.add handles)
  | some .backup => { w with calls := w.calls.set n (.overwrite w.storage.snapshot) }
  | some (.overwrite snapshot) =>
    let (result, storage) := w.storage.overwrite snapshot
    w.finish n result storage
  | some .restore =>
    match w.storage.readBackup with
    | .ok snapshot => { w with calls := w.calls.set n (.replace snapshot) }
    | .error e => w.finish n (.error e) w.storage
  | some (.replace snapshot) => w.lock n (.replace snapshot)

/-- The next step of the call that holds the lock. -/
def proceed (w : Concurrent) : Concurrent :=
  match w.holder with
  | none => w
  | some (.add handles) =>
    let (stored, storage) := w.storage.addToMemory handles
    let taken := w.taken ++ w.storage.memory.taken w.storage.instances handles
    if storage.sync then { w with storage, taken, holder := some (.writeThrough stored) }
    else { w with taken }.release (.ok ()) storage
  | some (.writeThrough stored) =>
    let (result, storage) := w.storage.writeThrough stored
    w.release result storage
  | some (.replace snapshot) =>
    let (result, storage) := w.storage.restore snapshot
    w.release result storage

/-- What is left after an event. An event that cannot happen changes nothing. -/
def step (w : Concurrent) : Event → Concurrent
  | .begin r =>
    if r.isKnown w.storage.instances then { w with calls := w.calls ++ [r.call] } else w
  | .advance n => w.advance n
  | .proceed => w.proceed

def run (w : Concurrent) (events : List Event) : Concurrent :=
  events.foldl step w

/-! ## Calls that are alone -/

/-- Alone, an addition does step by step what it does as a whole. -/
theorem run_add_alone {s : Storage} {handles : List Handle}
    (hknown : (Request.add handles).isKnown s.instances = true) :
    (idle s).run ([.begin (.add handles), .advance 0, .proceed] ++
        if s.sync then [.proceed] else []) =
      ⟨(s.add handles).2, [], none, [(s.add handles).1.map fun _ => ()],
        s.memory.taken s.instances handles⟩ := by
  unfold Storage.add Storage.addToMemory
  cases hsync : s.sync with
  | false =>
    simp [run, step, idle, hknown, Request.call, advance, lock, proceed, release,
      Storage.addToMemory, hsync]
    rfl
  | true =>
    simp only [run, step, idle, hknown, Request.call, advance, lock, proceed, release, Storage.addToMemory,
      hsync, if_true, Storage.writeThrough, List.foldl_cons, List.foldl_nil, List.cons_append,
      List.nil_append, List.getElem?_cons_zero, List.eraseIdx_cons_zero]
    generalize within _ _ = result
    cases result <;> rfl

/-- Alone, making a backup is the same in two steps as in one. -/
theorem run_backup_alone (s : Storage) :
    (idle s).run [.begin .backup, .advance 0, .advance 0] =
      ⟨s.createBackup.2, [], none, [s.createBackup.1], []⟩ := rfl

/-- Alone, restoring does step by step what it does as a whole. -/
theorem run_restore_alone (s : Storage) :
    (idle s).run [.begin .restore, .advance 0, .advance 0, .proceed] =
      ⟨s.restoreFromBackup.2, [], none, [s.restoreFromBackup.1], []⟩ := by
  cases hread : s.readBackup with
  | ok snapshot =>
    rw [Storage.restoreFromBackup_of_ok hread]
    simp [run, step, idle, Request.isKnown, Request.call, advance, lock, proceed, release, hread]
  | error e =>
    rw [Storage.restoreFromBackup_of_error hread]
    simp [run, step, idle, Request.isKnown, Request.call, advance, proceed, finish, hread]

end Concurrent

end Telemetry
