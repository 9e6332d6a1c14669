import WorkerFleet.Json.Printer
import WorkerFleet.Json.Reader

/-!
# JSON

Two layouts of one format: texts of either are read alike.
-/

namespace WorkerFleet.Json

def oneLine : TextFormat Float := ⟨compact realText, read?⟩

def severalLines : TextFormat Float := ⟨write, read?⟩

end WorkerFleet.Json
