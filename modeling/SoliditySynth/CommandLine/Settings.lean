import SoliditySynth.CommandLine.Request
import SoliditySynth.Failure
import SoliditySynth.Text.Integer

namespace SoliditySynth.CommandLine

inductive Number where
  | absent
  /-- The flag came with a value that has been dropped. -/
  | blank
  | value (n : Int)
deriving DecidableEq

structure Settings where
  seed : Number := .absent
  count : Number := .value 1
  directory : Option String := none
  split : Bool := false
  json : Bool := false
  verbose : Bool := false
deriving DecidableEq

inductive Stop where
  | help
  | fault (fault : UsageFault)
  | failure (failure : Failure)
deriving DecidableEq

namespace Settings

def readNumber (dialect : Dialect) (flag : Flag) (value : String) : Except Stop Number :=
  if dialect.drops value then .ok .blank
  else match Text.readInt? value with
  | some n => .ok (.value n)
  | none => .error (.fault (.invalidInteger flag value))

def readName (dialect : Dialect) (value : String) : String :=
  if dialect.drops value then "" else value

def apply (dialect : Dialect) (settings : Settings) (flag : Flag) (value : Option String) :
    Except Stop Settings :=
  let value := value.getD ""
  match flag with
  | .help => .error .help
  | .seed => return { settings with seed := ← readNumber dialect flag value }
  | .count => return { settings with count := ← readNumber dialect flag value }
  | .directory => return { settings with directory := some (readName dialect value) }
  | .split => return { settings with split := true }
  | .json => return { settings with json := true }
  | .verbose => return { settings with verbose := true }

def applyAll (dialect : Dialect) (settings : Settings) (flags : List (Flag × Option String)) :
    Except Stop Settings :=
  flags.foldlM (fun settings (flag, value) => settings.apply dialect flag value) settings

end Settings

structure Reading where
  settings : Settings := {}
  /-- What was not understood. -/
  others : List String := []

def Reading.add (dialect : Dialect) (reading : Reading) (request : Except UsageFault Request) :
    Except Stop Reading := do
  let request ← request.mapError .fault
  let settings ← reading.settings.applyAll dialect request.flags
  return { settings, others := reading.others ++ request.other.toList }

namespace Settings

/-- The number of seeds: they have 64 bits. -/
def seedCount : Int := 0x10000000000000000

def checkSplit (settings : Settings) : Except Stop Settings :=
  if settings.split && settings.directory.isNone then .error (.fault .splitWithoutDirectory)
  else .ok settings

/-- The seed must fit into 64 bits, and separate files need a directory. -/
def check (settings : Settings) : Except Stop Settings :=
  match settings.seed with
  | .blank => .error (.failure (.noNumber Flag.seed.name))
  | .value seed =>
    if seed < 0 || seedCount ≤ seed then .error (.fault .seedOutOfRange)
    else settings.checkSplit
  | .absent => settings.checkSplit

/-- Reads a command line in which every argument must be understood. -/
def parse (dialect : Dialect) (arguments : List String) : Except Stop Settings := do
  let tokens ← (Token.ofArguments arguments).mapError .fault
  let reading ← (Request.ofTokens dialect tokens).foldlM (Reading.add dialect) {}
  if reading.others = [] then return reading.settings
  else throw (.fault (.unrecognized reading.others))

def ofArguments (dialect : Dialect) (arguments : List String) : Except Stop Settings := do
  (← parse dialect arguments).check

end Settings

end SoliditySynth.CommandLine
