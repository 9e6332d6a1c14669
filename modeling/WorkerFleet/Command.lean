import WorkerFleet.Roster

/-!
# Outbound items

What a cycle sends out: jobs to create, and commands to workers.
-/

namespace WorkerFleet

inductive Command where
  | stopProcessing
  | startProcessing
  | coolDown
  | warmUp
  | exit
deriving DecidableEq, Repr

namespace Command

def all : List Command := [stopProcessing, startProcessing, coolDown, warmUp, exit]

def name : Command → String
  | stopProcessing => "stopProcessing"
  | startProcessing => "startProcessing"
  | coolDown => "coolDown"
  | warmUp => "warmUp"
  | exit => "exit"

def ofName? (name : String) : Option Command := all.find? (·.name = name)

end Command

structure WorkerCommand where
  workerId : String
  algorithm : String
  podName : Option String
  command : Command
  message : Option String
deriving DecidableEq, Repr

namespace WorkerCommand

def ofWorker (command : Command) (w : Worker) : WorkerCommand :=
  ⟨w.id, w.algorithm, w.podName, command, none⟩

def withMessage (c : WorkerCommand) (message : String) : WorkerCommand :=
  { c with message := some message }

def ofExit (e : ExitOrder) : WorkerCommand :=
  (ofWorker .exit e.worker).withMessage e.reason.message

end WorkerCommand

inductive Outbound (K : Type) where
  | createJob (spec : JobSpec K)
  | command (c : WorkerCommand)
deriving DecidableEq

namespace Outbound
variable {K : Type}

def algorithm : Outbound K → String
  | createJob spec => spec.algorithm
  | command c => c.algorithm

/-- What is sent, in a few words. -/
def describe : Outbound K → String
  | createJob spec => "createJob " ++ spec.name
  | command c => c.command.name ++ " " ++ c.workerId

end Outbound

end WorkerFleet
