import SoliditySynth.Header
import SoliditySynth.OrderedMap

namespace SoliditySynth

inductive SplitFault where
  | noHeader
  | duplicate (path : String)
deriving DecidableEq

def SplitFault.message : SplitFault → String
  | noHeader => "program has no source unit headers"
  | duplicate path => s!"duplicate source unit {path}"

abbrev Bundle := OrderedMap String String

namespace Bundle

/-- The lines under each header, with the path of the header. -/
structure Sections where
  /-- The lines before the first header. -/
  preamble : List String
  units : List (String × List String)

/-- Puts a line in front. A header takes the lines that stood before the first header. -/
def Sections.cons (line : String) (s : Sections) : Sections :=
  match Header.path? line with
  | some path => ⟨[], (path, s.preamble) :: s.units⟩
  | none => ⟨line :: s.preamble, s.units⟩

def sections (lines : List String) : Sections := lines.foldr Sections.cons ⟨[], []⟩

/-- A unit's text without newlines at its ends, but for a last one. -/
def content (lines : List String) : String := Text.trimNewlines (Text.joinLines lines) ++ "\n"

/-- Adds units one by one; no path may come twice. -/
def addUnits (bundle : Bundle) : List (String × List String) → Except SplitFault Bundle
  | [] => .ok bundle
  | (path, lines) :: rest =>
    if bundle.contains path then .error (.duplicate path)
    else addUnits (bundle.insert path (content lines)) rest

def ofProgram (program : String) : Except SplitFault Bundle :=
  match (sections (Text.lines program)).units with
  | [] => .error .noHeader
  | units => addUnits .empty units

end Bundle

end SoliditySynth
