import SoliditySynth.Log
import SoliditySynth.Output

namespace SoliditySynth.CommandLine

inductive Effect where
  | print (text : String)
  /-- Text on the error stream. -/
  | warn (text : String)
  | file (action : FileAction)
  /-- Ends the run. -/
  | abort (failure : Failure)
deriving DecidableEq

def Effect.log (verbose : Bool) (entry : Log.Entry) : List Effect :=
  if entry.isShown verbose then [.warn (entry.render ++ "\n")] else []

structure World where
  files : FileTree
  output : String := ""
  errors : String := ""

namespace World

def perform (world : World) : Effect → Except Failure Unit × World
  | .print text => (.ok (), { world with output := world.output ++ text })
  | .warn text => (.ok (), { world with errors := world.errors ++ text })
  | .file action =>
    let (result, files) := world.files.perform action
    (result.mapError .writing, { world with files })
  | .abort failure => (.error failure, world)

def performAll (world : World) : List Effect → Except Failure Unit × World
  | [] => (.ok (), world)
  | effect :: effects =>
    match world.perform effect with
    | (.ok (), world') => world'.performAll effects
    | (.error failure, world') => (.error failure, world')

end World

end SoliditySynth.CommandLine
