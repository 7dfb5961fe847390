import SoliditySynth.Text.Blank
import SoliditySynth.Text.Digit

namespace SoliditySynth.Text

/-- White space that may surround an integer: all but the information separators. -/
def isMargin (c : Char) : Bool := isBlank c && !(0x1c ≤ c.toNat && c.toNat ≤ 0x1f)

/-- The values of the digits that follow a digit, where an underscore must be followed by one. -/
def readDigits? : List Char → Option (List Nat)
  | [] => some []
  | '_' :: c :: cs => do
    let d ← digitValue? c
    return d :: (← readDigits? cs)
  | c :: cs => do
    let d ← digitValue? c
    return d :: (← readDigits? cs)

/-- Longer integers are refused. -/
def maxDigits : Nat := 4300

def readNat? : List Char → Option Nat
  | [] => none
  | c :: cs => do
    let d ← digitValue? c
    let ds ← readDigits? cs
    if ds.length < maxDigits then some (ds.foldl (fun n d => 10 * n + d) d) else none

def readSigned? : List Char → Option Int
  | '-' :: cs => (readNat? cs).map fun n => -(n : Int)
  | '+' :: cs => (readNat? cs).map Int.ofNat
  | cs => (readNat? cs).map Int.ofNat

def readInt? (s : String) : Option Int :=
  let cs := s.toList.dropWhile isMargin
  readSigned? (cs.reverse.dropWhile isMargin).reverse

end SoliditySynth.Text
