-- SUMMARY: The page that shows all metrics of a collector.
import Telemetry.Snapshot

/-!
# The metrics page

One line for each entry of a snapshot, by type and then by name. Names and values are escaped, so
whatever they hold, no entry can change the page around it.
-/

namespace Telemetry.Page

/-- A character in the text of a page. -/
def escapeChar (c : Char) : String :=
  if c = '<' then "&lt;"
  else if c = '>' then "&gt;"
  else if c = '&' then "&amp;"
  else c.toString

/-- A text in a page. -/
def escape (text : String) : String :=
  String.join (text.toList.map escapeChar)

/-- The line of an entry. -/
def line (e : Snapshot.Entry) : String :=
  escape e.name ++ ": " ++ escape e.value ++ "<br>"

/-- The page of a snapshot. -/
def write (s : Snapshot) : String :=
  "<html>" ++ String.join (s.toEntries.map line) ++ "</html>"

end Telemetry.Page
