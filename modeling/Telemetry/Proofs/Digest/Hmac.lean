-- SUMMARY: Keyed digests: they have 32 bytes, and finishing one leaves the instance at its start; what a collision is.
import Telemetry.Digest.Hmac

/-!
# Keyed digests

The state of the digest is eight words before and after every block, which makes 32 bytes in the end.
That two messages have the same digest under a key cannot be excluded for all messages, for there are
more messages than digests. So it is a property of two messages.
-/

namespace Telemetry

namespace Sha256

theorem size_mixRound (s : Array UInt32) (k w : UInt32) : (mixRound s k w).size = 8 := rfl

theorem size_foldl_mixRound (ks ws : Nat → UInt32) (rounds : List Nat) (s : Array UInt32)
    (hs : s.size = 8) : (rounds.foldl (fun s i => mixRound s (ks i) (ws i)) s).size = 8 := by
  induction rounds generalizing s with
  | nil => exact hs
  | cons i rounds ih => exact ih _ (size_mixRound s (ks i) (ws i))

theorem size_mixBlock {state : Array UInt32} (hstate : state.size = 8) (block : List UInt32) :
    (mixBlock state block).size = 8 := by
  unfold mixBlock
  dsimp only
  rw [Array.size_zipWith, size_foldl_mixRound (fun i => roundConstants.getD i 0) _ _ _ hstate, hstate]
  rfl

theorem size_mixBlocks (count : Nat) {state : Array UInt32} (hstate : state.size = 8)
    (ws : List UInt32) : (mixBlocks count state ws).size = 8 := by
  induction count generalizing state ws with
  | zero => exact hstate
  | succ count ih => exact ih (size_mixBlock hstate (ws.take 16)) (ws.drop 16)

theorem length_bigEndian (count n : Nat) : (bigEndian count n).length = count := by
  unfold bigEndian
  rw [List.length_map, List.length_range]

theorem length_flatMap_bigEndian (count : Nat) (words : List UInt32) :
    (words.flatMap fun w => bigEndian count w.toNat).length = words.length * count := by
  induction words with
  | nil => exact (Nat.zero_mul count).symm
  | cons w words ih =>
    rw [List.flatMap_cons, List.length_append, length_bigEndian, ih, List.length_cons, Nat.succ_mul,
      Nat.add_comm]

end Sha256

theorem length_sha256 (message : List UInt8) : (sha256 message).length = 32 := by
  unfold sha256
  dsimp only
  rw [Sha256.length_flatMap_bigEndian, Array.length_toList, Sha256.size_mixBlocks _ rfl]

namespace Hmac

theorem length_digest (key message : List UInt8) : (digest key message).length = 32 :=
  length_sha256 _

/-- Different messages with the same digest under a key. -/
def Collide (key a b : List UInt8) : Prop :=
  a ≠ b ∧ digest key a = digest key b

theorem not_collide_iff {key a b : List UInt8} :
    ¬ Collide key a b ↔ (digest key a = digest key b ↔ a = b) := by
  unfold Collide
  constructor
  · intro h
    exact ⟨fun hdigest => Classical.byContradiction fun hne => h ⟨hne, hdigest⟩, fun heq => heq ▸ rfl⟩
  · intro h hcollide
    exact hcollide.1 (h.mp hcollide.2)

end Hmac

/-- A whole message gives its digest, and the instance is back at its start. -/
theorem Mac.finish_absorb_start (key message : List UInt8) :
    ((start key).absorb message).finish = (Hmac.digest key message, start key) := rfl

end Telemetry
