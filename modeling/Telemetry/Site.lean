-- SUMMARY: What outlives a process: the disk and the databases.
import Telemetry.Database.Tables
import Telemetry.Disk

/-!
# The site

A program that stops leaves its site behind: the files on the disk and the databases. A database has its
tables only once they have been made.
-/

namespace Telemetry

/-- The disk, and the databases by the name under which they are opened. -/
structure Site where
  disk : Disk
  databases : SortedMap (Option Database.Tables)

namespace Site

/-- A site with nothing on it. -/
def empty : Site := ⟨.empty, .empty⟩

instance : Inhabited Site := ⟨empty⟩

end Site

end Telemetry
