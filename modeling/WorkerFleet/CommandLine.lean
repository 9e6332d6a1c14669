/-!
# Command line

Either a single cycle or cycles without end, then options with the files to use.
-/

namespace WorkerFleet

inductive Mode where
  /-- Cycles until the program is interrupted. -/
  | run
  /-- A single cycle, whose outcomes are printed. -/
  | once
deriving DecidableEq, Repr

structure Invocation where
  mode : Mode
  /-- The configuration; the defaults apply without one. -/
  config : Option String
  snapshot : String
  /-- Where the discovery is written after each cycle. -/
  discovery : Option String
  /-- Announcements are made as JSON. -/
  logJson : Bool
deriving DecidableEq, Repr

namespace Invocation

def fileOptions : List String := ["--config", "--snapshot", "--discovery-out"]

structure Parts where
  mode : Option Mode
  files : List (String × String)
  logJson : Bool

def Parts.addFile? (p : Parts) (option file : String) : Option Parts :=
  if fileOptions.contains option && !p.files.any (·.1 == option) then
    some { p with files := (option, file) :: p.files }
  else none

def Parts.file? (p : Parts) (option : String) : Option String :=
  (p.files.find? (·.1 == option)).map (·.2)

def splitEquals? (arg : String) : Option (String × String) :=
  match arg.toList.dropWhile (· != '=') with
  | _ :: file => some (String.ofList (arg.toList.takeWhile (· != '=')), String.ofList file)
  | [] => none

def isOption (arg : String) : Bool := arg.startsWith "-" && arg != "-"

/-- Reads the arguments in any order, save that options with files follow the mode. -/
def parts? : Parts → List String → Option Parts
  | p, [] => some p
  | p, arg :: rest =>
    if arg = "--log-json" then
      if p.logJson then none else parts? { p with logJson := true } rest
    else
      match p.mode with
      | none =>
        if arg = "run" then parts? { p with mode := some .run } rest
        else if arg = "once" then parts? { p with mode := some .once } rest
        else none
      | some _ =>
        match splitEquals? arg, rest with
        | some (option, file), rest => (p.addFile? option file).bind (parts? · rest)
        | none, file :: rest =>
          if isOption file then none else (p.addFile? arg file).bind (parts? · rest)
        | none, [] => none

/-- Reads a command line. A mode and a snapshot have to be given. -/
def ofArgs? (args : List String) : Option Invocation :=
  (parts? ⟨none, [], false⟩ args).bind fun p =>
    p.mode.bind fun mode =>
      (p.file? "--snapshot").map fun snapshot =>
        { mode, snapshot, config := p.file? "--config"
          discovery := p.file? "--discovery-out", logJson := p.logJson }

def usage : String :=
  "usage: [--log-json] run|once --snapshot FILE [--config FILE] [--discovery-out FILE]"

end Invocation

end WorkerFleet
