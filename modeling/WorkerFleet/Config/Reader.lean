import WorkerFleet.Codec.Config
import WorkerFleet.Toml.Reader

/-!
# Reading a configuration

A configuration is a TOML text. An array that stands for a table may have more items than
the table has settings.
-/

namespace WorkerFleet.Config

variable {K : Type} [Quantity K]

def ofToml? (text : String) : Option (Config K) :=
  (Toml.read? text).bind (Codec.config true).read?

end WorkerFleet.Config
