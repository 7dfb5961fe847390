namespace SoliditySynth.CommandLine

inductive Flag where
  | help
  | seed
  | count
  | directory
  | split
  | json
  | verbose
deriving DecidableEq

namespace Flag

/-- All spellings, in the order in which they are listed in messages. -/
def spellings : List (String × Flag) :=
  [("-h", help), ("--help", help), ("--seed", seed), ("-n", count), ("--num-programs", count),
    ("-o", directory), ("--output-dir", directory), ("--split", split), ("--json", json),
    ("-v", verbose), ("--verbose", verbose)]

def ofSpelling? (s : String) : Option Flag := spellings.lookup s

def withStart (start : String) : List (String × Flag) :=
  spellings.filter fun (spelling, _) => start.toList.isPrefixOf spelling.toList

def ofLetter? (c : Char) : Option Flag := ofSpelling? (String.ofList ['-', c])

def takesValue : Flag → Bool
  | seed | count | directory => true
  | help | split | json | verbose => false

def name (flag : Flag) : String :=
  "/".intercalate ((spellings.filter fun (_, f) => f = flag).map Prod.fst)

end Flag

end SoliditySynth.CommandLine
