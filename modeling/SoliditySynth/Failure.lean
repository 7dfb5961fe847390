import SoliditySynth.Bundle
import SoliditySynth.Fault
import SoliditySynth.FileTree

namespace SoliditySynth

/-- Why no program came out: it could not be generated, taken apart or written, or a number that was
needed for it had been left blank. -/
inductive Failure where
  | generation (fault : Fault)
  | splitting (fault : SplitFault)
  | writing (fault : FileFault)
  | noNumber (flag : String)
deriving DecidableEq

def Failure.message : Failure → String
  | generation fault => fault.message
  | splitting fault => fault.message
  | writing fault => fault.message
  | noNumber flag => s!"{flag} was left blank"

end SoliditySynth
