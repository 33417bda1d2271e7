-- SUMMARY: The command line: both programs over real files, with their traffic on the standard streams.
import Telemetry.Program

/-!
# The command line

The first argument names the program. The collector answers the requests that come in on standard input,
one behind the other, and stops when the input ends. The agent polls and pushes once; its deliveries are
written to standard output and count as accepted. A database lives as long as the process.
-/

namespace Telemetry.Main

-- ---------------------------------------------------------------------------
-- Files
-- ---------------------------------------------------------------------------

/-- Take a file into the disk, if there is one, with the directories above it. -/
def loadFile (path : String) (disk : Disk) : IO Disk := do
  let path := Path.canonical path
  try
    let content ← IO.FS.readBinFile path
    let (_, disk) := disk.makeFolders (Path.ancestors path)
    return disk.put path (.file content.toList)
  catch _ => return disk

/-- Write a file of the disk to its place. -/
def saveFile (path : String) (disk : Disk) : IO Unit := do
  match disk.read (Path.canonical path) with
  | .ok content => IO.FS.writeBinFile path (ByteArray.mk content.toArray)
  | .error _ => return

/-- The variables of the environment that a program looks at. -/
def environment (flags : List Settings.Flag) : IO Settings.Environment :=
  flags.filterMapM fun flag => do
    return (← IO.getEnv flag.variableName).map (flag.variableName, ·)

/-- The files that a program needs before it has its settings. -/
def loadSettings (flags : List Settings.Flag) (launch : Launch) : IO Disk := do
  let disk ← loadFile Program.environmentPath .empty
  match Settings.readGiven flags launch.arguments (Program.environment launch disk) with
  | .ok given =>
    match given.value? "config" with
    | some path => loadFile path disk
    | none => return disk
  | .error _ => return disk

-- ---------------------------------------------------------------------------
-- Requests
-- ---------------------------------------------------------------------------

/-- A line of a message without its end. -/
def readLine (input : IO.FS.Stream) : IO String := do
  return (← input.getLine).trimAsciiEnd.toString

/-- The headers of a message, up to the empty line. -/
partial def readHeaders (input : IO.FS.Stream) (headers : List (String × String)) :
    IO (List (String × String)) := do
  let line ← readLine input
  match line.splitOn ":" with
  | name :: value@(_ :: _) =>
    readHeaders input ((name, Text.trim (String.intercalate ":" value)) :: headers)
  | _ => return headers.reverse

/-- The next request, if the input has not ended. -/
def readRequest (input : IO.FS.Stream) : IO (Option Http.Request) := do
  let line ← input.getLine
  match (Text.trim line).splitOn " " with
  | method :: target :: _ =>
    let headers ← readHeaders input []
    let r : Http.Request := ⟨method, target, headers, []⟩
    let length := ((r.header? "content-length").bind (·.toNat?)).getD 0
    let body ← input.read (USize.ofNat length)
    return some { r with body := body.toList }
  | _ => return none

/-- Write a response. -/
def writeResponse (output : IO.FS.Stream) (response : Http.Response) : IO Unit := do
  output.putStr ("HTTP/1.1 " ++ toString response.status ++ "\r\n")
  output.putStr ("server: " ++ Collector.serverName ++ "\r\n")
  match response.contentType with
  | some type => output.putStr ("content-type: " ++ type ++ "\r\n")
  | none => pure ()
  output.putStr ("content-length: " ++ toString response.body.utf8ByteSize ++ "\r\n\r\n")
  output.putStr response.body
  output.flush

/-- Answer requests until the input ends. -/
partial def serve (input output : IO.FS.Stream) (c : Collector) : IO Collector := do
  match ← readRequest input with
  | none => return c
  | some r =>
    let (response, c) := c.respond r
    writeResponse output response
    serve input output c

-- ---------------------------------------------------------------------------
-- Programs
-- ---------------------------------------------------------------------------

/-- Report how a program has ended. -/
def report (ending : Ending) : IO UInt32 := do
  match ending with
  | .help => IO.println "Every option is a flag with a value; see the settings."
  | .version text => IO.print text
  | .usage _ => IO.eprintln "The command line is not understood."
  | .failed e => IO.eprintln ("Error: " ++ e.message)
  | .finished | .killed => pure ()
  return UInt32.ofNat (ending.code?.getD 1)

/-- Run a collector. -/
def runCollector (launch : Launch) : IO UInt32 := do
  let disk ← loadSettings CollectorSettings.flags launch
  match Program.configureCollector launch disk with
  | .error ending => report ending
  | .ok settings =>
    let disk ← loadFile settings.storeFile disk
    match Collector.Service.start settings launch.network { Site.empty with disk } with
    | (.error e, _) => report (.failed e)
    | (.ok service, _) =>
      let collector ← serve (← IO.getStdin) (← IO.getStdout) service.collector
      let (result, site) := { service with collector }.stop
      saveFile settings.storeFile site.disk
      report (Program.endingOf result)

/-- What can be read of a machine without asking it. -/
def reading : Agent.Reading :=
  ⟨.zero, ⟨0, 0, .zero, 0, 0, 0, 0⟩, ⟨0, 0, []⟩⟩

/-- Accept deliveries in the order in which they are sent, and keep them. -/
def accepting : Agent.Endpoint (List Agent.Delivery) where
  next _ _ := 0
  answer d s := (.response 200 "", s.1, d :: s.2)

/-- Run an agent. -/
def runAgent (launch : Launch) : IO UInt32 := do
  let disk ← loadSettings AgentSettings.flags launch
  match Program.configureAgent launch disk with
  | .error ending => report ending
  | .ok settings =>
    match Agent.Parts.ofSettings Url.Domain.toAscii? settings 1 with
    | .error e => report (.failed e)
    | .ok parts =>
      let agent := parts.assemble (fun _ => reading) accepting
      let (_, s) := agent.poll 0 (parts.instances, [])
      let (result, s) := agent.push 0 s
      for d in s.2.reverse do
        IO.println ("POST " ++ d.url.write)
        IO.println (Utf8.decodeLossy d.body)
      report (Program.endingOf result)

end Telemetry.Main

open Telemetry in
/-- The first argument names the program, the others are its command line. -/
def main (arguments : List String) : IO UInt32 := do
  let launch (flags : List Settings.Flag) (rest : List String) : IO Launch := do
    return ⟨rest, ← Main.environment flags, ⟨[]⟩, .interrupt⟩
  match arguments with
  | "collector" :: rest => Main.runCollector (← launch CollectorSettings.flags rest)
  | "agent" :: rest => Main.runAgent (← launch AgentSettings.flags rest)
  | _ =>
    IO.eprintln "The first argument is collector or agent."
    return 2
