import SoliditySynth.CommandLine.Run

namespace SoliditySynth.CommandLine

def Effect.carryOut : Effect → IO Unit
  | .print text => IO.print text
  | .warn text => IO.eprint text
  | .file (.makeDirectories path) => IO.FS.createDirAll path.text
  | .file (.write path content) => IO.FS.writeFile path.text content
  | .abort failure => throw (IO.userError failure.message)

def spareSeed : IO Int := do
  let bytes ← IO.getRandomBytes 8
  return bytes.toList.foldl (fun seed byte => 256 * seed + byte.toNat) 0

end SoliditySynth.CommandLine

def main (arguments : List String) : IO UInt32 := do
  let run := SoliditySynth.CommandLine.run arguments (← SoliditySynth.CommandLine.spareSeed)
  try
    run.effects.forM fun effect => effect.carryOut
    return run.exitCode
  catch error =>
    IO.eprintln error
    return 1
