import SoliditySynth.CommandLine.Flag
import SoliditySynth.Text.Quoted

namespace SoliditySynth.CommandLine

inductive UsageFault where
  /-- A shortened flag that fits several spellings. -/
  | ambiguous (argument : String) (spellings : List String)
  | missingValue (flag : Flag)
  /-- A value attached to a flag that takes none. -/
  | unexpectedValue (flag : Flag) (value : String)
  | invalidInteger (flag : Flag) (value : String)
  | unrecognized (arguments : List String)
  | seedOutOfRange
  | splitWithoutDirectory
deriving DecidableEq

def UsageFault.message : UsageFault → String
  | ambiguous argument spellings =>
    s!"ambiguous option: {argument} could match " ++ ", ".intercalate spellings
  | missingValue flag => s!"argument {flag.name}: expected one argument"
  | unexpectedValue flag value =>
    s!"argument {flag.name}: ignored explicit argument {Text.quoted value}"
  | invalidInteger flag value =>
    s!"argument {flag.name}: invalid int value: {Text.quoted value}"
  | unrecognized arguments => "unrecognized arguments: " ++ " ".intercalate arguments
  | seedOutOfRange => "--seed must be an unsigned 64-bit integer"
  | splitWithoutDirectory => "--split requires --output-dir"

def usage : String :=
  "usage: solfuzz [-h] [--seed SEED] [-n NUM_PROGRAMS] [-o DIR] [--split]\n" ++
  "               [--json] [-v]\n"

def help : String :=
  usage ++
  "\n" ++
  "Generate seeded Solidity test programs\n" ++
  "\n" ++
  "options:\n" ++
  "  -h, --help            show this help message and exit\n" ++
  "  --seed SEED           Seed of the first program (default: random 64-bit)\n" ++
  "  -n NUM_PROGRAMS, --num-programs NUM_PROGRAMS\n" ++
  "                        Number of programs, seeded seed, seed+1, ... (default:\n" ++
  "                        1)\n" ++
  "  -o DIR, --output-dir DIR\n" ++
  "                        Write programs to DIR instead of stdout\n" ++
  "  --split               With --output-dir, write one file per source unit\n" ++
  "  --json                Emit standard JSON compiler input\n" ++
  "  -v, --verbose\n"

def UsageFault.report (fault : UsageFault) : String := s!"{usage}solfuzz: error: {fault.message}\n"

end SoliditySynth.CommandLine
