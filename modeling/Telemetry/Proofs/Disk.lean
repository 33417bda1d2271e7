-- SUMMARY: Laws of the disk: what a path holds after changes, steps that succeed, steps that leave a path alone, and interruptions.
import Telemetry.Disk
import Telemetry.Proofs.SortedMap

/-!
# Laws of the disk

The view of a disk is what stands at each path. Changes are seen at their own paths alone, and a folder
stays one as long as no step touches its path. Steps may be interrupted between any two of them, and while
a file is written to.
-/

namespace Telemetry.Disk

@[simp] theorem entry?_empty (path : String) : empty.entry? path = none := rfl

@[simp] theorem entry?_put (d : Disk) (path : String) (e : Entry) (p : String) :
    entry? (d.put path e) p = if p = path then some e else d.entry? p :=
  SortedMap.find?_insert _ _ _ _

@[simp] theorem entry?_remove (d : Disk) (path p : String) :
    entry? (d.remove path) p = if p = path then none else d.entry? p :=
  SortedMap.find?_erase _ _ _

theorem folderFault?_eq_none_iff {d : Disk} {path : String} :
    d.folderFault? path = none ↔
      ∀ folder ∈ Path.ancestors path, d.entry? folder = some .directory := by
  unfold folderFault?
  rw [List.findSome?_eq_none_iff]
  refine forall₂_congr fun folder _ => ?_
  cases d.entry? folder with
  | none => exact ⟨(nomatch ·), (nomatch ·)⟩
  | some e =>
    cases e with
    | file content => exact ⟨(nomatch ·), (nomatch ·)⟩
    | directory => exact ⟨fun _ => rfl, fun _ => rfl⟩

theorem read_of_file {d : Disk} {path : String} {content : List UInt8}
    (h : d.entry? path = some (.file content)) : d.read path = .ok content := by
  unfold read
  rw [h]

/-! ## Steps that succeed -/

theorem run_create {d : Disk} {path : String} (hfolder : d.folderFault? path = none)
    (hpath : d.entry? path ≠ some .directory) :
    Step.run d (.create path) = .ok (d.put path (.file [])) := by
  unfold Step.run
  cases hentry : d.entry? path with
  | none => simp only [hfolder]
  | some e =>
    cases e with
    | file content => simp only [hfolder]
    | directory => exact absurd hentry hpath

theorem run_append {d : Disk} {path : String} {before : List UInt8} (content : List UInt8)
    (h : d.entry? path = some (.file before)) :
    Step.run d (.append path content) = .ok (d.put path (.file (before ++ content))) := by
  unfold Step.run
  simp only [read_of_file h]

theorem run_rename {d : Disk} {source target : String} {content : List UInt8}
    (hsource : d.entry? source = some (.file content))
    (htarget : d.entry? target ≠ some .directory) :
    Step.run d (.rename source target) =
      .ok ((d.remove source).put target (.file content)) := by
  unfold Step.run
  cases hentry : d.entry? target with
  | none => simp only [read_of_file hsource]
  | some e =>
    cases e with
    | file before => simp only [read_of_file hsource]
    | directory => exact absurd hentry htarget

theorem runSteps_cons_of_ok {d d' : Disk} {step : Step} (h : step.run d = .ok d')
    (rest : List Step) : d.runSteps (step :: rest) = d'.runSteps rest := by
  rw [runSteps, h]

/-! ## Steps that leave a path alone -/

/-- The step does not touch what stands at the path. -/
def Step.Spares (path : String) : Step → Prop
  | create p => p ≠ path
  | append p _ => p ≠ path
  | sync _ => True
  | rename source target => source ≠ path ∧ target ≠ path

theorem entry?_run_of_spares {d d' : Disk} {step : Step} {path : String} (h : step.Spares path)
    (hrun : step.run d = .ok d') : d'.entry? path = d.entry? path := by
  unfold Step.run at hrun
  cases step with
  | create p =>
    dsimp only at hrun
    split at hrun
    · cases hrun
    · cases hrun
    · cases hrun
      rw [entry?_put, if_neg (Ne.symm h)]
  | append p content =>
    dsimp only at hrun
    split at hrun
    · cases hrun
      rw [entry?_put, if_neg (Ne.symm h)]
    · cases hrun
  | sync p =>
    cases hrun
    rfl
  | rename source target =>
    dsimp only at hrun
    split at hrun
    · cases hrun
    · cases hrun
    · cases hrun
      rw [entry?_put, entry?_remove, if_neg (Ne.symm h.1), if_neg (Ne.symm h.2)]

/-- Steps that spare a path leave it alone, whether they succeed or one of them fails. -/
theorem entry?_runSteps_of_spares {d : Disk} {steps : List Step} {path : String}
    (h : ∀ step ∈ steps, step.Spares path) : entry? (d.runSteps steps).2 path = d.entry? path := by
  induction steps generalizing d with
  | nil => rfl
  | cons step rest ih =>
    rw [runSteps]
    cases hrun : step.run d with
    | error fault => rfl
    | ok d' =>
      have hrest := ih (d := d') fun step hstep => h step (List.mem_cons_of_mem _ hstep)
      exact hrest.trans (entry?_run_of_spares (h step List.mem_cons_self) hrun)

/-- No step makes a directory. -/
theorem entry?_of_run_eq_directory {d d' : Disk} {step : Step} {p : String}
    (hrun : step.run d = .ok d') (h : d'.entry? p = some .directory) :
    d.entry? p = some .directory := by
  have hfile : ∀ (d : Disk) path content, entry? (d.put path (.file content)) p = some .directory →
      d.entry? p = some .directory := by
    intro d path content hput
    rw [entry?_put] at hput
    split at hput
    · cases hput
    · exact hput
  unfold Step.run at hrun
  cases step with
  | create path =>
    dsimp only at hrun
    split at hrun
    · cases hrun
    · cases hrun
    · cases hrun
      exact hfile d path [] h
  | append path content =>
    dsimp only at hrun
    split at hrun
    · cases hrun
      exact hfile d path _ h
    · cases hrun
  | sync path =>
    cases hrun
    exact h
  | rename source target =>
    dsimp only at hrun
    split at hrun
    · cases hrun
    · cases hrun
    · cases hrun
      have hremove := hfile (d.remove source) target _ h
      rw [entry?_remove] at hremove
      split at hremove
      · cases hremove
      · exact hremove

theorem runSteps_cons_eq_ok_iff {d d' : Disk} {step : Step} {rest : List Step} :
    d.runSteps (step :: rest) = (.ok (), d') ↔
      ∃ d₁, step.run d = .ok d₁ ∧ d₁.runSteps rest = (.ok (), d') := by
  rw [runSteps]
  cases step.run d with
  | ok d₁ => simp
  | error fault => simp

theorem runSteps_concat_eq_ok_iff {d d' : Disk} {front : List Step} {last : Step} :
    d.runSteps (front ++ [last]) = (.ok (), d') ↔
      ∃ d₁, d.runSteps front = (.ok (), d₁) ∧ last.run d₁ = .ok d' := by
  induction front generalizing d with
  | nil =>
    simp only [List.nil_append, runSteps]
    cases hlast : last.run d <;> simp [hlast]
  | cons step rest ih =>
    simp only [List.cons_append, runSteps_cons_eq_ok_iff, ih]
    constructor
    · rintro ⟨d₁, hstep, d₂, hrest, hlast⟩
      exact ⟨d₂, ⟨d₁, hstep, hrest⟩, hlast⟩
    · rintro ⟨d₂, ⟨d₁, hstep, hrest⟩, hlast⟩
      exact ⟨d₁, hstep, d₂, hrest, hlast⟩

/-! ## Folders -/

/-- Folders are made exactly if none of them is a file. -/
theorem exists_makeFolders_eq_ok_iff {d : Disk} {folders : List String} :
    (∃ d', d.makeFolders folders = (.ok (), d')) ↔
      ∀ folder ∈ folders, ∀ content, d.entry? folder ≠ some (.file content) := by
  induction folders generalizing d with
  | nil => simp [makeFolders]
  | cons folder rest ih =>
    rw [makeFolders, List.forall_mem_cons]
    cases hentry : d.entry? folder with
    | none =>
      have hsame : ∀ p content, entry? (d.put folder .directory) p = some (.file content) ↔
          d.entry? p = some (.file content) := by
        intro p content
        rw [entry?_put]
        split
        · rename_i hp
          simp [hp, hentry]
        · rfl
      simp only [ih, ne_eq, hsame]
      exact (and_iff_right fun content hfile => nomatch hfile).symm
    | some e =>
      cases e with
      | directory => simp [ih]
      | file content => simp

/-- Nothing changes but that the folders are there. -/
theorem entry?_of_makeFolders {d d' : Disk} {folders : List String}
    (h : d.makeFolders folders = (.ok (), d')) (p : String) :
    d'.entry? p = if p ∈ folders then some .directory else d.entry? p := by
  induction folders generalizing d with
  | nil =>
    cases h
    rfl
  | cons folder rest ih =>
    rw [makeFolders] at h
    simp only [List.mem_cons]
    cases hentry : d.entry? folder with
    | none =>
      rw [hentry] at h
      rw [ih h, entry?_put]
      by_cases hp : p = folder <;> simp [hp]
    | some e =>
      cases e with
      | directory =>
        rw [hentry] at h
        rw [ih h]
        by_cases hp : p = folder <;> simp [hp, hentry]
      | file content =>
        rw [hentry] at h
        cases h

/-! ## Interruptions -/

/-- The disks that are left when steps stop before their end: before a step, within one that has written
    some bytes, or in the same way after the first step. -/
inductive Interrupted : Disk → List Step → Disk → Prop
  | before (d : Disk) (step : Step) (rest : List Step) : Interrupted d (step :: rest) d
  | within {d : Disk} {path : String} {old : List UInt8} (content : List UInt8) (n : Nat)
      (rest : List Step) (hread : d.read path = .ok old) :
      Interrupted d (.append path content :: rest) (d.put path (.file (old ++ content.take n)))
  | after {d d₁ d' : Disk} {step : Step} {rest : List Step} (hstep : step.run d = .ok d₁)
      (hrest : Interrupted d₁ rest d') : Interrupted d (step :: rest) d'

/-- Steps of which one fails are interrupted. -/
theorem interrupted_of_runSteps {d d' : Disk} {steps : List Step} {fault : DiskFault}
    (h : d.runSteps steps = (.error fault, d')) : d.Interrupted steps d' := by
  induction steps generalizing d with
  | nil => cases h
  | cons step rest ih =>
    rw [runSteps] at h
    cases hstep : step.run d with
    | ok d₁ =>
      rw [hstep] at h
      exact .after hstep (ih h)
    | error fault' =>
      rw [hstep] at h
      cases h
      exact .before _ step rest

/-- What all steps but a last one spare is left alone if that one is a move and was not reached. -/
theorem Interrupted.entry?_of_spares {d d' : Disk} {front : List Step} {source target p : String}
    (h : d.Interrupted (front ++ [.rename source target]) d')
    (hspares : ∀ step ∈ front, step.Spares p) : d'.entry? p = d.entry? p := by
  induction front generalizing d with
  | nil =>
    cases h with
    | before => rfl
    | after _ hrest => cases hrest
  | cons step rest ih =>
    have hstep := hspares step List.mem_cons_self
    have hrest := fun step hmem => hspares step (List.mem_cons_of_mem _ hmem)
    cases h with
    | before => rfl
    | within => rw [entry?_put, if_neg (Ne.symm hstep)]
    | after hrun hafter => exact (ih hafter hrest).trans (entry?_run_of_spares hstep hrun)

/-- An interruption makes no directory. -/
theorem Interrupted.entry?_eq_directory {d d' : Disk} {steps : List Step} {p : String}
    (h : d.Interrupted steps d') (hp : d'.entry? p = some .directory) :
    d.entry? p = some .directory := by
  induction h with
  | before d step rest => exact hp
  | within content n rest hread =>
    rw [entry?_put] at hp
    split at hp
    · cases hp
    · exact hp
  | after hstep _ ih => exact entry?_of_run_eq_directory hstep (ih hp)

end Telemetry.Disk
