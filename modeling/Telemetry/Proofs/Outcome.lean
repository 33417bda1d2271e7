-- SUMMARY: Laws of outcomes: sequencing after a success or a failure, and contexts around an outcome.
import Telemetry.Error

/-!
# Laws of outcomes

A context changes only failures, so success is the same with and without it.
-/

namespace Telemetry

variable {α β : Type}

@[simp] theorem ok_bind (a : α) (f : α → Outcome β) : (Except.ok a : Outcome α) >>= f = f a := rfl

@[simp] theorem error_bind (e : Error) (f : α → Outcome β) :
    (Except.error e : Outcome α) >>= f = .error e := rfl

@[simp] theorem within_ok (context : String) (a : α) : within context (.ok a) = .ok a := rfl

@[simp] theorem within_error (context : String) (e : Error) :
    within context (.error e : Outcome α) = .error (e.within context) := rfl

theorem bind_eq_ok_iff {outcome : Outcome α} {f : α → Outcome β} {b : β} :
    outcome >>= f = .ok b ↔ ∃ a, outcome = .ok a ∧ f a = .ok b := by
  cases outcome with
  | ok a =>
    constructor
    · intro h
      exact ⟨a, rfl, h⟩
    · rintro ⟨a', ha, h⟩
      cases ha
      exact h
  | error e =>
    constructor
    · intro h
      cases h
    · rintro ⟨_, h, -⟩
      cases h

theorem mapM_cons_eq_ok_iff {f : α → Outcome β} {a : α} {rest : List α} {bs : List β} :
    (a :: rest).mapM f = .ok bs ↔
      ∃ b others, f a = .ok b ∧ rest.mapM f = .ok others ∧ bs = b :: others := by
  rw [List.mapM_cons, bind_eq_ok_iff]
  refine exists_congr fun b => ?_
  rw [bind_eq_ok_iff]
  constructor
  · rintro ⟨hb, others, hothers, hbs⟩
    cases hbs
    exact ⟨others, hb, hothers, rfl⟩
  · rintro ⟨others, hb, hothers, rfl⟩
    exact ⟨hb, others, hothers, rfl⟩

/-- Where every element succeeds, so does the list. -/
theorem exists_mapM_eq_ok {f : α → Outcome β} {xs : List α} (h : ∀ x ∈ xs, ∃ y, f x = .ok y) :
    ∃ ys, xs.mapM f = .ok ys := by
  induction xs with
  | nil => exact ⟨[], rfl⟩
  | cons x xs ih =>
    obtain ⟨y, hy⟩ := h x List.mem_cons_self
    obtain ⟨ys, hys⟩ := ih fun x hx => h x (List.mem_cons_of_mem _ hx)
    exact ⟨y :: ys, mapM_cons_eq_ok_iff.mpr ⟨y, ys, hy, hys, rfl⟩⟩

/-- The results of a list that succeeds are those of its elements. -/
theorem mem_iff_of_mapM_eq_ok {f : α → Outcome β} {xs : List α} {ys : List β}
    (h : xs.mapM f = .ok ys) {y : β} : y ∈ ys ↔ ∃ x ∈ xs, f x = .ok y := by
  induction xs generalizing ys with
  | nil =>
    cases h
    simp
  | cons x xs ih =>
    obtain ⟨z, zs, hz, hzs, rfl⟩ := mapM_cons_eq_ok_iff.mp h
    simp only [List.mem_cons, ih hzs, exists_eq_or_imp, hz, Except.ok.injEq, @eq_comm _ y z]

/-- Where a list succeeds, so does every element. -/
theorem exists_of_mapM_eq_ok {f : α → Outcome β} {xs : List α} {ys : List β}
    (h : xs.mapM f = .ok ys) {x : α} (hx : x ∈ xs) : ∃ y ∈ ys, f x = .ok y := by
  induction xs generalizing ys with
  | nil => cases hx
  | cons x' xs ih =>
    obtain ⟨z, zs, hz, hzs, rfl⟩ := mapM_cons_eq_ok_iff.mp h
    rcases List.mem_cons.mp hx with rfl | hx
    · exact ⟨z, List.mem_cons_self, hz⟩
    · obtain ⟨y, hy, hfy⟩ := ih hzs hx
      exact ⟨y, List.mem_cons_of_mem _ hy, hfy⟩

/-- The first element that fails decides what comes of the list. -/
theorem mapM_eq_error_of_first {f : α → Outcome β} {before : List α} {x : α} {e : Error}
    (hbefore : ∀ y ∈ before, ∃ z, f y = .ok z) (hx : f x = .error e) (after : List α) :
    (before ++ x :: after).mapM f = .error e := by
  obtain ⟨zs, hzs⟩ := exists_mapM_eq_ok hbefore
  rw [List.mapM_append, hzs, ok_bind, List.mapM_cons, hx]
  rfl

/-- Where an element fails, one is the first that does. -/
theorem exists_first_error {f : α → Outcome β} {xs : List α} (h : ∃ x ∈ xs, ∃ e, f x = .error e) :
    ∃ before x after e, xs = before ++ x :: after ∧ (∀ y ∈ before, ∃ z, f y = .ok z) ∧
      f x = .error e := by
  induction xs with
  | nil => simp at h
  | cons x xs ih =>
    cases hx : f x with
    | error e => exact ⟨[], x, xs, e, rfl, by simp, hx⟩
    | ok z =>
      obtain ⟨before, y, after, e, rfl, hbefore, hy⟩ := ih (by simpa [hx] using h)
      exact ⟨x :: before, y, after, e, rfl, by simpa [hx] using hbefore, hy⟩

theorem within_eq_ok_iff {context : String} {outcome : Outcome α} {a : α} :
    within context outcome = .ok a ↔ outcome = .ok a := by
  cases outcome with
  | ok b => exact Iff.rfl
  | error e => exact ⟨(nomatch ·), (nomatch ·)⟩

end Telemetry
