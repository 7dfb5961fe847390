namespace SoliditySynth.Log

inductive Level where
  | debug
  | info
deriving DecidableEq

def Level.label : Level → String
  | .debug => "DEBUG"
  | .info => "INFO"

structure Entry where
  level : Level
  text : String
deriving DecidableEq

def Entry.render (e : Entry) : String := s!"{e.level.label}: {e.text}"

def Entry.isShown (e : Entry) (verbose : Bool) : Bool := verbose || e.level = .info

end SoliditySynth.Log
