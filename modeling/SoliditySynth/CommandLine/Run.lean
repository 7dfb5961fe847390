import SoliditySynth.CommandLine.Effect
import SoliditySynth.CommandLine.Settings
import SoliditySynth.Generation

namespace SoliditySynth.CommandLine

/-- Seeds go up by one and start again from zero after the largest one. -/
def seedAt (first : Int) (i : Nat) : Int := (first + i) % Settings.seedCount

namespace Settings

def format (settings : Settings) : Format :=
  if settings.json then .standardJson else .solidity

def layout (settings : Settings) : Layout :=
  if settings.split then .perUnit else .single settings.format

/-- Where programs are written. An empty name stands for none. -/
def target (settings : Settings) : Option Path :=
  match settings.directory with
  | none => none
  | some name => if name = "" then none else some (Path.ofText name)

/-- Shows a program. In its own language it comes under a comment with its seed. -/
def printProgram (settings : Settings) (seed : Int) (program : String) : List Effect :=
  let heading := match settings.format with
    | .solidity => [Effect.print s!"// seed={seed}\n"]
    | .standardJson => []
  heading ++ match settings.format.render program with
    | .ok text => [.print text]
    | .error fault => [.abort (.splitting fault)]

def writeProgram (settings : Settings) (directory : Path) (seed : Int) (program : String) :
    List Effect :=
  match Plan.ofProgram settings.layout directory seed program with
  | .ok plan =>
    plan.actions.map .file ++
      Effect.log settings.verbose ⟨.info, s!"seed={seed} -> {plan.target.text}"⟩
  | .error fault => [.abort (.splitting fault)]

def emit (settings : Settings) (seed : Int) : List Effect :=
  match Workbench.ofSeed seed .standard with
  | .error fault => [.abort (.generation fault)]
  | .ok bench =>
    let (result, bench') := Synth.program.run bench
    let log := bench'.log.toList.flatMap (Effect.log settings.verbose)
    log ++ match result, settings.target with
      | .error fault, _ => [.abort (.generation fault)]
      | .ok program, none => settings.printProgram seed program
      | .ok program, some directory => settings.writeProgram directory seed program

def prepare (settings : Settings) : List Effect :=
  match settings.target with
  | none => []
  | some path => [.file (.makeDirectories path)]

def effects (settings : Settings) (first : Int) : List Effect :=
  settings.prepare ++
    match settings.count with
    | .value n => (List.range n.toNat).flatMap fun i => settings.emit (seedAt first i)
    | .absent | .blank => [.abort (.noNumber Flag.count.name)]

/-- The first seed: the one that was asked for, or else the spare one. -/
def firstSeed (settings : Settings) (spare : Int) : Int :=
  match settings.seed with
  | .value seed => seed
  | .absent | .blank => spare

end Settings

/-- What a run does, and its exit code if nothing fails on the way. -/
structure Run where
  effects : List Effect
  exitCode : UInt32

/-- The run for a list of arguments; `spare` is the first seed where the arguments give none. -/
def run (arguments : List String) (spare : Int) (dialect : Dialect := .early) : Run :=
  match Settings.ofArguments dialect arguments with
  | .ok settings => ⟨settings.effects (settings.firstSeed spare), 0⟩
  | .error .help => ⟨[.print help], 0⟩
  | .error (.fault fault) => ⟨[.warn fault.report], 2⟩
  | .error (.failure failure) => ⟨[.abort failure], 1⟩

end SoliditySynth.CommandLine
