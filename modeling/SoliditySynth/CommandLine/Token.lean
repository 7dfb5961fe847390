import SoliditySynth.CommandLine.UsageFault
import SoliditySynth.Text.Digit

namespace SoliditySynth.CommandLine

inductive Attached where
  | nothing
  | long (value : String)
  /-- What came after one dash and a letter, or after an equals sign that followed these. -/
  | short (equals : Bool) (rest : List Char)
deriving DecidableEq

inductive Token where
  | word (text : String)
  | separator
  | flag (flag : Flag) (attached : Attached)
  /-- An argument that looks like a flag and is none. -/
  | unknown (text : String)
deriving DecidableEq

namespace Token

def isDigit (c : Char) : Bool := (Text.digitValue? c).isSome

def dropFinalNewline (cs : List Char) : List Char :=
  if cs.getLast? = some '\n' then cs.dropLast else cs

/-- Holds for digits, and for digits after a point that more digits may precede. -/
def isUnsignedNumber (cs : List Char) : Bool :=
  match cs.dropWhile isDigit with
  | [] => !cs.isEmpty
  | c :: fraction => c = '.' && !fraction.isEmpty && fraction.all isDigit

/-- Negative numbers are words, though they begin with a dash. -/
def isNegativeNumber : List Char → Bool
  | '-' :: cs => isUnsignedNumber cs || isUnsignedNumber (dropFinalNewline cs)
  | _ => false

def cutValue (cs : List Char) : List Char × Option (List Char) :=
  match cs.dropWhile (· ≠ '=') with
  | [] => (cs, none)
  | _ :: value => (cs.takeWhile (· ≠ '='), some value)

def isLong : List Char → Bool
  | '-' :: '-' :: _ => true
  | _ => false

def spelled (f : Flag) (spelling : List Char) (value : Option (List Char)) : Token :=
  match value with
  | none => .flag f .nothing
  | some value =>
    .flag f (if isLong spelling then .long (String.ofList value) else .short true value)

/-- The flags that an argument may shorten or, after one dash, run together with its value. -/
def candidates (cs : List Char) : List (String × Token) :=
  match cs with
  | '-' :: '-' :: _ =>
    let (start, value) := cutValue cs
    (Flag.withStart (String.ofList start)).map fun (spelling, f) =>
      (spelling, spelled f spelling.toList value)
  | '-' :: c :: rest =>
    match Flag.ofLetter? c with
    | some f => [(String.ofList ['-', c], .flag f (.short false rest))]
    | none => []
  | _ => []

/-- An argument that begins with a dash but is no flag. -/
def ofOther (text : String) : Token :=
  if isNegativeNumber text.toList || text.toList.contains ' ' then .word text else .unknown text

def ofArgument (text : String) : Except UsageFault Token :=
  let cs := text.toList
  let (start, value) := cutValue cs
  if cs.head? ≠ some '-' then .ok (.word text)
  else match Flag.ofSpelling? text with
  | some f => .ok (spelled f cs none)
  | none =>
    if cs.length = 1 then .ok (.word text)
    else match value, Flag.ofSpelling? (String.ofList start) with
    | some _, some f => .ok (spelled f start value)
    | _, _ =>
      match candidates cs with
      | [] => .ok (ofOther text)
      | [(_, token)] => .ok token
      | several => .error (.ambiguous text (several.map Prod.fst))

def ofArguments : List String → Except UsageFault (List Token)
  | [] => .ok []
  | "--" :: texts => .ok (.separator :: texts.map .word)
  | text :: texts => do
    let token ← ofArgument text
    return token :: (← ofArguments texts)

end Token

end SoliditySynth.CommandLine
