import WorkerFleet.Worker

/-!
# Hot workers

A template may ask for workers that are kept warm without requests. Workers are warmed up
or cooled down to reach that number, and requests that stand for them go in front of the
backlog.
-/

namespace WorkerFleet

namespace HotWorkers
variable {K : Type}

/-- Requests for the hot workers of all templates, in name order. Of templates with one name
under several keys the last key decides; in a map whose keys have no order any of them may. -/
def requests (templates : Templates K) : List Request :=
  let wanted := templates.values.filter fun t => 0 < t.minHotWorkers
  let byName := NameMap.ofList (wanted.map fun t => (t.name, t.minHotWorkers.toNat))
  byName.entries.flatMap fun e => List.replicate e.2 (Request.forHot e.1)

def wanted (templates : Templates K) (algorithm : String) : Nat :=
  ((templates.get? algorithm).map (·.minHotWorkers.toNat)).getD 0

def warmUp (templates : Templates K) (workers : List Worker) : List Worker :=
  (groupByAlgorithm workers).entries.flatMap fun e =>
    let missing := wanted templates e.1 - e.2.countP (·.hot)
    (e.2.filter fun w => !w.hot).take missing

def coolDown (templates : Templates K) (workers : List Worker) : List Worker :=
  (groupByAlgorithm workers).entries.flatMap fun e =>
    let excess := e.2.countP (·.hot) - wanted templates e.1
    (e.2.filter (·.hot)).take excess

/-- The workers as they will be once warmed up and cooled down, told apart by id. -/
def apply (warm cool : List Worker) (workers : List Worker) : List Worker :=
  workers.map fun w =>
    if warm.any (·.id = w.id) then { w with hot := true }
    else if cool.any (·.id = w.id) then { w with hot := false }
    else w

end HotWorkers

end WorkerFleet
