import SoliditySynth.Bundle
import SoliditySynth.Json.Value

namespace SoliditySynth

/-- The compiler input that holds the given units and asks for the interface of every contract. -/
def Bundle.standardJson (bundle : Bundle) : Json.Value :=
  .object
    [("language", .text "Solidity"),
      ("sources", .object <| bundle.entries.map fun (path, content) =>
        (path, .object [("content", .text content)])),
      ("settings", .object [("outputSelection",
        .object [("*", .object [("*", .array [.text "abi"])])])])]

inductive Format where
  | solidity
  | standardJson
deriving DecidableEq

def Format.render (format : Format) (program : String) : Except SplitFault String :=
  match format with
  | .solidity => .ok program
  | .standardJson => do
    let bundle ← Bundle.ofProgram program
    return bundle.standardJson.pretty ++ "\n"

end SoliditySynth
