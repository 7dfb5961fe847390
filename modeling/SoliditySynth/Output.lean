import SoliditySynth.Failure
import SoliditySynth.StandardJson

namespace SoliditySynth

inductive Layout where
  | single (format : Format)
  | perUnit
deriving DecidableEq

inductive FileAction where
  | makeDirectories (path : Path)
  | write (path : Path) (content : String)
deriving DecidableEq

/-- What to do to the file system, and the file or directory that will hold the program. -/
structure Plan where
  target : Path
  actions : List FileAction

def Format.extension : Format → String
  | .solidity => ".sol"
  | .standardJson => ".json"

def Plan.unitActions (directory : Path) (unit : String × String) : List FileAction :=
  let target := directory.join (Path.ofText unit.1)
  [.makeDirectories target.parent, .write target unit.2]

def Plan.ofProgram (layout : Layout) (directory : Path) (seed : Int) (program : String) :
    Except SplitFault Plan :=
  match layout with
  | .perUnit => do
    let bundle ← Bundle.ofProgram program
    let target := directory.join (Path.ofText s!"seed_{seed}")
    return ⟨target, bundle.entries.flatMap (unitActions target)⟩
  | .single format => do
    let content ← format.render program
    let target := directory.join (Path.ofText s!"seed_{seed}{format.extension}")
    return ⟨target, [.write target content]⟩

namespace FileTree

def perform (tree : FileTree) : FileAction → Except FileFault Unit × FileTree
  | .makeDirectories path => tree.makeDirectories path
  | .write path content =>
    match tree.write path content with
    | .ok tree' => (.ok (), tree')
    | .error fault => (.error fault, tree)

def performAll (tree : FileTree) : List FileAction → Except FileFault Unit × FileTree
  | [] => (.ok (), tree)
  | action :: actions =>
    match tree.perform action with
    | (.ok (), tree') => tree'.performAll actions
    | (.error fault, tree') => (.error fault, tree')

end FileTree

def FileTree.writeProgram (tree : FileTree) (layout : Layout) (directory : Path) (seed : Int)
    (program : String) : Except Failure Path × FileTree :=
  match Plan.ofProgram layout directory seed program with
  | .error fault => (.error (.splitting fault), tree)
  | .ok plan =>
    match tree.performAll plan.actions with
    | (.ok (), tree') => (.ok plan.target, tree')
    | (.error fault, tree') => (.error (.writing fault), tree')

end SoliditySynth
