import SoliditySynth.Kind

namespace SoliditySynth

inductive Fault where
  /-- A seed below zero. -/
  | negativeSeed (seed : Int)
  /-- A choice among the numbers from one to `n`, where `n` is not positive. -/
  | emptyRange (n : Int)
  /-- Odds of one in `n`, where `n` is at most one. -/
  | degenerateOdds (n : Int)
  /-- Odds of all but one in `n`, where `n` is at most one. -/
  | degenerateOddsAgainst (n : Int)
  /-- A subset of fewer than two elements. -/
  | tooFewElements (size : Nat)
  /-- The random source never comes to an acceptable number. -/
  | stalled
  | selfImport (path : String)
  | repeatedImport (imported importer : String)
  | noUnitYet
  | unknownUnit (path : String)
  | noPath
  | noOtherUnit
  | importNeedsSibling
  | nothingToImport (path : String)
  | unregistered (kind : Kind)
  /-- A test case that has not planned its units. -/
  | unitsNotPlanned
  /-- A number that a message would show is too long to be written. -/
  | tooManyDigits
  /-- A kind has been given more or fewer children while its children were visited. -/
  | childrenChanged
  /-- A condition that did not hold, with a description that may be empty. -/
  | violated (detail : String)
deriving DecidableEq

namespace Fault

def message : Fault → String
  | negativeSeed seed => s!"seed must be unsigned, got {seed}"
  | emptyRange n => s!"sample range [1, {n}] is empty"
  | degenerateOdds n => s!"probable() needs n > 1, got {n}"
  | degenerateOddsAgainst n => s!"likely() needs n > 1, got {n}"
  | tooFewElements size => s!"subset() needs more than one element, got {size}"
  | stalled => "the random source is stuck"
  | selfImport path => s!"{path} cannot import itself"
  | repeatedImport imported importer => s!"{imported} already imported into {importer}"
  | noUnitYet => "no source unit has been declared yet"
  | unknownUnit path => s!"no source unit {path}"
  | noPath => "no source unit path to choose from"
  | noOtherUnit => "need at least two source units"
  | importNeedsSibling => "imports need at least two source units"
  | nothingToImport path => s!"no importable source unit left for {path}"
  | unregistered kind => s!"no generator registered for {kind.label}"
  | unitsNotPlanned => "the units of the test case have not been planned"
  | tooManyDigits => "a number has too many digits to be written"
  | childrenChanged => "the number of children changed while they were visited"
  | violated detail => if detail = "" then "Generator invariant violated" else detail

/-- Holds where a look-up found nothing. -/
def isMissingEntry : Fault → Bool
  | unknownUnit _ | unitsNotPlanned => true
  | _ => false

/-- Holds where generation itself has found a precondition to be broken. -/
def isViolation : Fault → Bool
  | unknownUnit _ | unitsNotPlanned | tooManyDigits | childrenChanged => false
  | _ => true

end Fault

def ensure (condition : Bool) (detail : String) : Except Fault Unit :=
  if condition then .ok () else .error (.violated detail)

end SoliditySynth
