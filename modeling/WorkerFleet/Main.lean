import Std.Time.DateTime.Timestamp
import WorkerFleet.CommandLine
import WorkerFleet.Daemon
import WorkerFleet.Json

/-!
# Program

Reads and writes the files of a daemon, and tells the time.
-/

namespace WorkerFleet.Program

def readFile? (path : String) : IO (Option String) := do
  try
    return some (← IO.FS.readFile path)
  catch _ =>
    return none

def currentTime : IO Millis := do
  let now ← Std.Time.Timestamp.now
  return UInt64.ofNat now.toMillisecondsSinceUnixEpoch.val.toNat

def announce (logJson : Bool) (line : String) : IO Unit :=
  IO.eprintln <|
    if logJson then Json.oneLine.print (.object [("message", .string line)]) else line

def loadConfig (invocation : Invocation) : IO (Except Failure (Config Float)) := do
  match invocation.config with
  | none => return .ok Config.default
  | some path => return Config.ofFile (← readFile? path)

/-- Announces the calls of a cycle and writes the discovery. -/
def conclude (invocation : Invocation) (report : Report Float) : IO Unit := do
  report.announcements.forM (announce invocation.logJson)
  match invocation.discovery with
  | none => return
  | some path =>
    try
      IO.FS.writeFile path (report.discoveryText Json.severalLines)
    catch e =>
      announce invocation.logJson ("failed to publish discovery snapshot: " ++ toString e)

def fail (failure : Failure) : IO UInt32 := do
  IO.eprintln ("Error: " ++ failure.message)
  return failure.exitCode.toUInt32

def runOnce (invocation : Invocation) : IO UInt32 := do
  match ← loadConfig invocation with
  | .error failure => fail failure
  | .ok config =>
    let snapshot ← readFile? invocation.snapshot
    match Daemon.once Json.severalLines config snapshot (← currentTime) with
    | .error failure => fail failure
    | .ok report =>
      conclude invocation report
      IO.println (report.outcomesText Json.severalLines)
      return 0

/-- Sleeps for the interval, or for as long as one sleep may last. -/
def pause (interval : Millis) : IO Unit :=
  IO.sleep (UInt32.ofNat (min interval.toNat (Nat.pow 2 32 - 1)))

partial def cycleForever (invocation : Invocation) (daemon : Daemon Float) : IO UInt32 := do
  pause daemon.reconciler.config.interval
  match Snapshot.ofFile Json.severalLines (← readFile? invocation.snapshot) with
  | .error failure =>
    announce invocation.logJson ("skipping cycle: " ++ failure.message)
    cycleForever invocation daemon
  | .ok input =>
    let (report, daemon) := daemon.step input (← currentTime)
    conclude invocation report
    cycleForever invocation daemon

def runForever (invocation : Invocation) : IO UInt32 := do
  match ← loadConfig invocation with
  | .error failure => fail failure
  | .ok config =>
    match Daemon.start config with
    | .error failure => fail failure
    | .ok daemon => cycleForever invocation daemon

end WorkerFleet.Program

def main (args : List String) : IO UInt32 := do
  match WorkerFleet.Invocation.ofArgs? args with
  | none =>
    IO.eprintln WorkerFleet.Invocation.usage
    return 2
  | some invocation =>
    match invocation.mode with
    | .run => WorkerFleet.Program.runForever invocation
    | .once => WorkerFleet.Program.runOnce invocation
