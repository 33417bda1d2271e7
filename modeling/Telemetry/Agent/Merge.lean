-- SUMMARY: Several sequences merged into one through a channel of limited size.

/-!
# Merged sequences

Each source puts its elements in order into a channel as long as there is room. What comes out of the
channel is the merged sequence. It ends when all sources are exhausted and the channel is empty.
-/

namespace Telemetry.Agent

/-- What the sources have left, and what is in the channel, the oldest first. -/
structure Merge (α : Type) where
  sources : List (List α)
  channel : List α
  deriving DecidableEq

namespace Merge

variable {α : Type}

/-- The greatest number of elements in the channel. -/
def capacity : Nat := 64

/-- The merge before anything has been put into the channel. -/
def start (sources : List (List α)) : Merge α :=
  ⟨sources, []⟩

/-- There is room in the channel. -/
def hasRoom (m : Merge α) : Bool :=
  m.channel.length < capacity

/-- Put the next element of a source into the channel. -/
def produce? (m : Merge α) (n : Nat) : Option (Merge α) :=
  match m.hasRoom, m.sources[n]? with
  | true, some (x :: rest) => some ⟨m.sources.set n rest, m.channel ++ [x]⟩
  | _, _ => none

/-- Take the oldest element out of the channel. -/
def consume? (m : Merge α) : Option (α × Merge α) :=
  match m.channel with
  | x :: rest => some (x, { m with channel := rest })
  | [] => none

-- ---------------------------------------------------------------------------
-- A schedule
-- ---------------------------------------------------------------------------

/-- The first element that any source has left, and the sources without it. -/
def nextOf? : List (List α) → Option (α × List (List α))
  | [] => none
  | [] :: others => (nextOf? others).map fun (x, others) => (x, [] :: others)
  | (x :: rest) :: others => some (x, rest :: others)

/-- The number of elements that the sources have left. -/
def left : List (List α) → Nat
  | [] => 0
  | source :: others => source.length + left others

theorem left_of_nextOf? {sources rest : List (List α)} {x : α} (h : nextOf? sources = some (x, rest)) :
    left sources = left rest + 1 := by
  induction sources generalizing rest with
  | nil => simp [nextOf?] at h
  | cons source others ih =>
    cases source with
    | nil =>
      simp only [nextOf?, Option.map_eq_some_iff] at h
      obtain ⟨⟨y, next⟩, hn, hp⟩ := h
      simp only [Prod.mk.injEq] at hp
      obtain ⟨rfl, rfl⟩ := hp
      simpa [left] using ih hn
    | cons y ys =>
      simp only [nextOf?, Option.some.injEq, Prod.mk.injEq] at h
      obtain ⟨rfl, rfl⟩ := h
      simp [left]
      omega

/-- The merged sequence if the sources put in what they can before anything is taken out, the first source
    that has something left before the others. -/
def drain (m : Merge α) : List α :=
  match _hn : nextOf? m.sources with
  | none => m.channel
  | some (x, rest) =>
    if m.channel.length < capacity then drain ⟨rest, m.channel ++ [x]⟩
    else
      match _hc : m.channel with
      | y :: channel => y :: drain { m with channel }
      | [] => []
termination_by 2 * left m.sources + m.channel.length
decreasing_by
  · have := left_of_nextOf? _hn
    simp only [List.length_append, List.length_cons, List.length_nil]
    omega
  · simp only [_hc, List.length_cons]
    omega

end Merge

/-- Sequences merged into one. -/
def mergeAll {α : Type} (sources : List (List α)) : List α :=
  (Merge.start sources).drain

end Telemetry.Agent
