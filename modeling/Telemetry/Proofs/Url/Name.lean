-- SUMMARY: What is relied on in a conversion of domain names to ASCII, and the names that it leaves alone.
import Mathlib
import Telemetry.Url.Domain

/-!
# Names that are read as themselves

The conversion of domain names to ASCII follows tables that grow with every version of Unicode. What is said
about addresses holds for every conversion that keeps three rules. Its results are in ASCII and hold no
character that would end a name; a result is a name again, and is its own result; and a name that is in ASCII
to begin with, without Punycode, is brought to lower case and is otherwise left alone.
-/

namespace Telemetry

/-- What holds of the character of every number below 128 holds of every character in ASCII. -/
theorem forall_ascii {P : Char → Prop} (h : ∀ n : Fin 128, P (Char.ofNat n)) :
    ∀ c : Char, c.toNat < 0x80 → P c :=
  fun c hc => c.ofNat_toNat ▸ h ⟨c.toNat, hc⟩

theorem mapM_eq_some_iff {α β : Type} {f : α → Option β} {xs : List α} {ys : List β} :
    xs.mapM f = some ys ↔ List.Forall₂ (fun x y => f x = some y) xs ys := by
  induction xs generalizing ys with
  | nil => simp [eq_comm]
  | cons x xs ih =>
    simp only [List.mapM_cons, List.forall₂_cons_left_iff, Option.bind_eq_bind, Option.bind_eq_some_iff,
      Option.pure_def, Option.some.injEq, ih]
    constructor
    · rintro ⟨y, hy, ys, hys, rfl⟩
      exact ⟨y, ys, hy, hys, rfl⟩
    · rintro ⟨y, ys, hy, hys, rfl⟩
      exact ⟨y, hy, ys, hys, rfl⟩

theorem exists_of_mapM_eq_some {α β : Type} {f : α → Option β} {xs : List α} {ys : List β}
    (h : xs.mapM f = some ys) : ∀ y ∈ ys, ∃ x ∈ xs, f x = some y := by
  induction mapM_eq_some_iff.mp h with
  | nil => simp
  | cons hxy hrest ih =>
    have ih := ih (mapM_eq_some_iff.mpr hrest)
    intro z hz
    obtain rfl | hz := List.mem_cons.mp hz
    · exact ⟨_, List.mem_cons_self, hxy⟩
    · obtain ⟨x, hx, hxz⟩ := ih z hz
      exact ⟨x, List.mem_cons_of_mem _ hx, hxz⟩

/-- What stands in joined pieces is the separator or stands in a piece. -/
theorem of_mem_intercalate {α : Type} {separator x : α} {pieces : List (List α)}
    (h : x ∈ List.intercalate [separator] pieces) : x = separator ∨ ∃ piece ∈ pieces, x ∈ piece := by
  induction pieces with
  | nil => simp at h
  | cons piece pieces ih =>
    by_cases hlast : pieces = []
    · subst hlast
      rw [List.intercalate_singleton] at h
      exact .inr ⟨piece, List.mem_cons_self, h⟩
    · rw [List.intercalate_cons_of_ne_nil hlast, List.append_assoc] at h
      obtain h | h := List.mem_append.mp h
      · exact .inr ⟨piece, List.mem_cons_self, h⟩
      obtain h | h := List.mem_append.mp h
      · exact .inl (List.mem_singleton.mp h)
      · exact (ih h).imp_right fun ⟨other, hother, hx⟩ => ⟨other, List.mem_cons_of_mem _ hother, hx⟩

/-- The pieces of a list hold what it holds, except for the separators. -/
theorem of_mem_splitOnP {α : Type} {p : α → Bool} {xs piece : List α} (h : piece ∈ xs.splitOnP p) :
    ∀ x ∈ piece, x ∈ xs ∧ p x = false := by
  induction xs generalizing piece with
  | nil =>
    rw [List.splitOnP_nil, List.mem_singleton] at h
    simp [h]
  | cons x xs ih =>
    rw [List.splitOnP_cons_eq_if_modifyHead] at h
    split at h
    next hp =>
      obtain rfl | h := List.mem_cons.mp h
      · simp
      · exact fun y hy => ⟨List.mem_cons_of_mem _ (ih h y hy).1, (ih h y hy).2⟩
    next hp =>
      obtain ⟨first, others, hpieces⟩ := List.exists_cons_of_ne_nil (List.splitOnP_ne_nil p xs)
      rw [hpieces, List.modifyHead_cons] at h
      rw [hpieces] at ih
      obtain rfl | h := List.mem_cons.mp h
      · intro y hy
        obtain rfl | hy := List.mem_cons.mp hy
        · exact ⟨List.mem_cons_self, by simpa using hp⟩
        · have := ih List.mem_cons_self y hy
          exact ⟨List.mem_cons_of_mem _ this.1, this.2⟩
      · have := ih (List.mem_cons_of_mem _ h)
        exact fun y hy => ⟨List.mem_cons_of_mem _ (this y hy).1, (this y hy).2⟩

namespace Url.Domain

/-! ## Conversions -/

/-- The character may stand in a name in ASCII. -/
def IsPlain (c : Char) : Prop :=
  c.toNat < 0x80 ∧ isForbidden c = false

instance : DecidablePred IsPlain :=
  fun _ => instDecidableAnd

/-- The rules that a conversion of domain names to ASCII keeps. -/
structure Lawful (toAscii? : ToAscii) : Prop where
  /-- A result is in ASCII, and no character of it is forbidden. -/
  plain : ∀ {name ascii : List Char}, toAscii? name = some ascii → ∀ c ∈ ascii, IsPlain c
  /-- A result is its own result. -/
  stays : ∀ {name ascii : List Char}, toAscii? name = some ascii → toAscii? ascii = some ascii
  /-- A name that is in ASCII already, with no label in Punycode, is brought to lower case. -/
  lower : ∀ {name : List Char}, name ≠ [] → (∀ c ∈ name, IsPlain c) →
    (∀ label ∈ labels (name.map Char.toLower), label.take 4 ≠ punycodeMark) →
    toAscii? name = some (name.map Char.toLower)

/-! ## Names -/

/-- A name in ASCII that is read as itself. -/
structure IsName (toAscii? : ToAscii) (name : List Char) : Prop where
  plain : ∀ c ∈ name, IsPlain c
  stays : toAscii? name = some name

variable {toAscii? : ToAscii}

/-- The result of bringing a name to ASCII is read as itself. -/
theorem Lawful.isName (h : Lawful toAscii?) {text name : List Char} (hname : toAscii? text = some name) :
    IsName toAscii? name :=
  ⟨h.plain hname, h.stays hname⟩

theorem plain_of_isDigit {c : Char} (h : c.isDigit = true) : IsPlain c ∧ c.toLower = c ∧ c ≠ '.' := by
  have hall : ∀ c : Char, c.toNat < 0x80 → c.isDigit = true → IsPlain c ∧ c.toLower = c ∧ c ≠ '.' :=
    forall_ascii (by decide +kernel)
  exact hall c (Nat.lt_of_le_of_lt (Char.isDigit_iff_toNat.mp h).2 (by decide)) h

/-- Numerals with full stops between them are read as themselves. -/
theorem Lawful.isName_intercalate (h : Lawful toAscii?) {parts : List (List Char)} (hparts : parts ≠ [])
    (hdigits : ∀ part ∈ parts, ∀ c ∈ part, c.isDigit = true)
    (hname : List.intercalate ['.'] parts ≠ []) : IsName toAscii? (List.intercalate ['.'] parts) := by
  have hchars : ∀ c ∈ List.intercalate ['.'] parts, IsPlain c ∧ c.toLower = c := by
    intro c hc
    obtain rfl | ⟨part, hpart, hc⟩ := of_mem_intercalate hc
    · decide
    · have hdigit := plain_of_isDigit (hdigits part hpart c hc)
      exact ⟨hdigit.1, hdigit.2.1⟩
  have hlower : (List.intercalate ['.'] parts).map Char.toLower = List.intercalate ['.'] parts :=
    (List.map_congr_left fun c hc => (hchars c hc).2).trans (List.map_id' _)
  have hlabels : labels (List.intercalate ['.'] parts) = parts :=
    List.splitOn_intercalate '.'
      (fun part hpart hdot => (plain_of_isDigit (hdigits part hpart '.' hdot)).2.2 rfl) hparts
  refine ⟨fun c hc => (hchars c hc).1, ?_⟩
  have hstays := h.lower hname (fun c hc => (hchars c hc).1) fun label hlabel hmark => by
    rw [hlower, hlabels] at hlabel
    -- The mark of Punycode begins with a letter.
    have hx : 'x' ∈ label := List.mem_of_mem_take (hmark ▸ (by decide : 'x' ∈ punycodeMark))
    cases hdigits label hlabel 'x' hx
  rwa [hlower] at hstays

end Url.Domain

end Telemetry
