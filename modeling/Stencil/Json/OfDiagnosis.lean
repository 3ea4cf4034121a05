import Stencil.Diagnosis
import Stencil.Json.Basic

namespace Stencil
open Json (required optional)

/-- A count of 32 bits. -/
def Json.count? (j : Json) : Option UInt32 :=
  (j.int? 0 0xFFFFFFFF).map fun n => UInt32.ofNat n.toNat

def Position.toJson (p : Position) : Json :=
  .object [("line", .ofInt p.line.toNat), ("character", .ofInt p.character.toNat)]

def Position.ofJson? (j : Json) : Option Position := do
  let fields ← j.fields? ["line", "character"]
  return ⟨← (← required "line" fields).count?, ← (← required "character" fields).count?⟩

def Range.toJson (r : Range) : Json :=
  .object [("start", r.start.toJson), ("end", r.stop.toJson)]

def Range.ofJson? (j : Json) : Option Range := do
  let fields ← j.fields? ["start", "end"]
  return ⟨← Position.ofJson? (← required "start" fields), ← Position.ofJson? (← required "end" fields)⟩

namespace Diagnosis

/-- A severity that is not there is not written. -/
def toJson (d : Diagnosis) : Json :=
  .object (("range", d.range.toJson) ::
    (match d.severity with
      | some n => [("severity", .ofInt n.toInt)]
      | none => []) ++ [("message", .string d.message)])

def severity? (j : Json) : Option Int32 :=
  (j.int? Int32.minValue.toInt Int32.maxValue.toInt).map Int32.ofInt

def ofJson? (j : Json) : Option Diagnosis := do
  let fields ← j.fields? ["range", "severity", "message"]
  let range ← Range.ofJson? (← required "range" fields)
  let severity ← match ← optional "severity" fields with
    | none | some .null => pure none
    | some j => (severity? j).map some
  return ⟨range, severity, ← (← required "message" fields).string?⟩

end Diagnosis
end Stencil
