import Gauge.Text.Lower

/-!
# Report formats

A report is written for people or as JSON.

## Main definitions

* `OutputFormat` — the two formats.
* `OutputFormat.parse` — the format of a name, in any case of letters.
-/

namespace Gauge

/-- The formats of a report. -/
inductive OutputFormat where
  | human
  | json
  deriving DecidableEq

namespace OutputFormat

/-- The format of a name; an unknown name is answered in lower case. -/
def parse (name : String) : Except String OutputFormat :=
  let small := Text.toLower name
  if small = "human" ∨ small = "text" then .ok human
  else if small = "json" then .ok json
  else .error small

/-- The message for an unknown name in lower case. -/
def unknownMessage (small : String) : String := s!"Unknown output format: {small}"

end OutputFormat

end Gauge
