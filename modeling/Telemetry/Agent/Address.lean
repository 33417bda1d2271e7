-- SUMMARY: The address of the collector as the agent is told it, and its canonical form.
import Telemetry.Error
import Telemetry.Text.Blank
import Telemetry.Url.Basic

/-!
# Collector addresses

The agent is given `host:port` or a whole web address. An address without a web scheme is taken with
`http` in front. The canonical form has no slash at its end.
-/

namespace Telemetry.Agent

/-- The web address that a text without blanks at its ends stands for. -/
def readAddress (toAscii? : Url.ToAscii) (address : String) : Outcome Url :=
  match Url.readWeb? toAscii? address with
  | some (.ok url) => .ok url
  | _ =>
    match (Url.readWeb? toAscii? ("http://" ++ address)).getD (.error .noScheme) with
    | .ok url => .ok url
    | .error fault =>
      fail (.config ("parse collector url " ++ address ++ ": " ++ fault.message))

/-- The text without slashes at its end. -/
def dropSlashes (text : String) : String :=
  String.ofList (text.toList.reverse.dropWhile (· = '/')).reverse

/-- The canonical form of a collector address. -/
def normalizeUrl (toAscii? : Url.ToAscii) (address : String) : Outcome String := do
  let address := Text.trim address
  if address.isEmpty then fail (.config "collector address is empty")
  let url ← readAddress toAscii? address
  .ok (dropSlashes url.write)

end Telemetry.Agent
