import SoliditySynth.Json.Value

namespace SoliditySynth.Json

/-- What a text says, with its numbers as they are written and all members in their order. -/
inductive Tree where
  | null
  | boolean (b : Bool)
  | number (literal : String)
  | text (s : String)
  | array (items : List Tree)
  | object (members : List (String × Tree))

inductive Token where
  | beginArray
  | endArray
  | beginObject
  | endObject
  | nameSeparator
  | valueSeparator
  | null
  | boolean (b : Bool)
  | number (literal : String)
  | text (s : String)
deriving DecidableEq

def isSpace (c : Char) : Bool := c = ' ' || c = '\t' || c = '\n' || c = '\r'

def structural? : Char → Option Token
  | '[' => some .beginArray
  | ']' => some .endArray
  | '\x7b' => some .beginObject
  | '\x7d' => some .endObject
  | ':' => some .nameSeparator
  | ',' => some .valueSeparator
  | _ => none

def endsWord (c : Char) : Bool := isSpace c || c = '"' || (structural? c).isSome

def isDigits (cs : List Char) : Bool := !cs.isEmpty && cs.all Char.isDigit

def isExponent : List Char → Bool
  | [] => true
  | e :: sign :: ds =>
    (e = 'e' || e = 'E') && isDigits (if sign = '+' ∨ sign = '-' then ds else sign :: ds)
  | _ => false

def isFraction : List Char → Bool
  | '.' :: cs => isDigits (cs.takeWhile Char.isDigit) && isExponent (cs.dropWhile Char.isDigit)
  | cs => isExponent cs

def isUnsigned (cs : List Char) : Bool :=
  let whole := cs.takeWhile Char.isDigit
  isDigits whole && (whole.head? ≠ some '0' || whole.length = 1) &&
    isFraction (cs.dropWhile Char.isDigit)

def isNumber : List Char → Bool
  | '-' :: cs => isUnsigned cs
  | cs => isUnsigned cs

/-- The token that a word stands for: one of the three names or a number. -/
def word? (cs : List Char) : Option Token :=
  if cs = "null".toList then some .null
  else if cs = "true".toList then some (.boolean true)
  else if cs = "false".toList then some (.boolean false)
  else if isNumber cs then some (.number (String.ofList cs))
  else none

def shortEscape? : Char → Option Char
  | '"' => some '"'
  | '\\' => some '\\'
  | '/' => some '/'
  | 'b' => some '\x08'
  | 'f' => some '\x0c'
  | 'n' => some '\n'
  | 'r' => some '\r'
  | 't' => some '\t'
  | _ => none

def hexValue? (c : Char) : Option Nat :=
  if '0' ≤ c ∧ c ≤ '9' then some (c.toNat - 48)
  else if 'a' ≤ c ∧ c ≤ 'f' then some (c.toNat - 87)
  else if 'A' ≤ c ∧ c ≤ 'F' then some (c.toNat - 55)
  else none

def isHighSurrogate (u : Nat) : Bool := 0xd800 ≤ u && u < 0xdc00

def isLowSurrogate (u : Nat) : Bool := 0xdc00 ≤ u && u < 0xe000

/-- The characters whose UTF-16 units are given. A high surrogate goes with the low one behind
it. -/
def joinUnits : List Nat → Option (List Char)
  | [] => some []
  | [u] => if isHighSurrogate u || isLowSurrogate u then none else some [Char.ofNat u]
  | u :: v :: us =>
    if isHighSurrogate u then
      if isLowSurrogate v then do
        let c := Char.ofNat (0x10000 + (u - 0xd800) * 0x400 + (v - 0xdc00))
        return c :: (← joinUnits us)
      else none
    else if isLowSurrogate u then none
    else return Char.ofNat u :: (← joinUnits (v :: us))

/-- Where in a token a text stands. -/
inductive Mode where
  | between
  /-- Inside a word, behind the given characters. -/
  | word (cs : List Char)
  /-- Inside a string, behind the given units. -/
  | text (units : List Nat)
  /-- Behind a backslash in a string. -/
  | escaped (units : List Nat)
  /-- Inside an escaped unit, with the value so far and the number of digits after the next. -/
  | unit (units : List Nat) (value more : Nat)
deriving DecidableEq

namespace Mode

def start (c : Char) : Mode × List Token :=
  if isSpace c then (.between, [])
  else if c = '"' then (.text [], [])
  else match structural? c with
    | some token => (.between, [token])
    | none => (.word [c], [])

/-- Takes one character, and gives the tokens that it completes. -/
def step : Mode → Char → Option (Mode × List Token)
  | .between, c => some (start c)
  | .word cs, c =>
    if endsWord c then do
      let token ← word? cs
      return ((start c).1, token :: (start c).2)
    else some (.word (cs ++ [c]), [])
  | .text units, c =>
    if c = '"' then do
      let cs ← joinUnits units
      return (.between, [.text (String.ofList cs)])
    else if c = '\\' then some (.escaped units, [])
    else if c < ' ' then none
    else some (.text (units ++ units16 c), [])
  | .escaped units, c =>
    if c = 'u' then some (.unit units 0 3, [])
    else do
      let meant ← shortEscape? c
      return (.text (units ++ units16 meant), [])
  | .unit units value more, c => do
    let digit ← hexValue? c
    match more with
    | 0 => return (.text (units ++ [value * 16 + digit]), [])
    | more + 1 => return (.unit units (value * 16 + digit) more, [])

def run : Mode → List Char → Option (Mode × List Token)
  | mode, [] => some (mode, [])
  | mode, c :: cs => do
    let (mode', ts) ← mode.step c
    let (last, us) ← run mode' cs
    return (last, ts ++ us)

/-- What the end of the text completes. -/
def finish : Mode → Option (List Token)
  | .between => some []
  | .word cs => return [← word? cs]
  | _ => none

end Mode

def tokens? (cs : List Char) : Option (List Token) := do
  let (mode, ts) ← Mode.between.run cs
  return ts ++ (← mode.finish)

/-- An array or object that is still open: what it holds before the value that is being read. -/
inductive Frame where
  | array (items : List Tree)
  | object (members : List (String × Tree)) (key : String)

inductive Stage where
  | value
  /-- The first item of an array, or its end. -/
  | firstItem
  /-- The first name in an object, or its end. -/
  | firstName
  /-- A name behind the given members. -/
  | name (members : List (String × Tree))
  /-- The colon behind a name. -/
  | separator (members : List (String × Tree)) (key : String)
  /-- The end of the text, or whatever the innermost frame has behind a value. -/
  | done (tree : Tree)

namespace Stage

/-- The stage behind the first token of a value. -/
def enter? : Token → Option Stage
  | .null => some (.done .null)
  | .boolean b => some (.done (.boolean b))
  | .number literal => some (.done (.number literal))
  | .text s => some (.done (.text s))
  | .beginArray => some .firstItem
  | .beginObject => some .firstName
  | _ => none

def step : Stage × List Frame → Token → Option (Stage × List Frame)
  | (.value, frames), token => return (← enter? token, frames)
  | (.firstItem, frames), .endArray => some (.done (.array []), frames)
  | (.firstItem, frames), token => return (← enter? token, .array [] :: frames)
  | (.firstName, frames), .endObject => some (.done (.object []), frames)
  | (.firstName, frames), .text key => some (.separator [] key, frames)
  | (.name members, frames), .text key => some (.separator members key, frames)
  | (.separator members key, frames), .nameSeparator =>
    some (.value, .object members key :: frames)
  | (.done tree, .array items :: frames), .valueSeparator =>
    some (.value, .array (items ++ [tree]) :: frames)
  | (.done tree, .array items :: frames), .endArray =>
    some (.done (.array (items ++ [tree])), frames)
  | (.done tree, .object members key :: frames), .valueSeparator =>
    some (.name (members ++ [(key, tree)]), frames)
  | (.done tree, .object members key :: frames), .endObject =>
    some (.done (.object (members ++ [(key, tree)])), frames)
  | _, _ => none

end Stage

def build? (tokens : List Token) : Option Tree := do
  match ← tokens.foldlM Stage.step (.value, []) with
  | (.done tree, []) => return tree
  | _ => none

def read (s : String) : Option Tree := do
  build? (← tokens? s.toList)

example : read " [ -1.50e+3,true , \"\\ud83d\\ude00/\\u00e9\" ]\n" =
    some (.array [.number "-1.50e+3", .boolean true, .text "😀/é"]) := by
  rfl

example : ["[1,]", "[01]", "\"\\ud83d\"", "\"\n\"", "\x7b\"a\" 1\x7d", "[] []", "nul", "1.", ""].map
    (fun s => (read s).isSome) = List.replicate 9 false := by
  decide +kernel

end SoliditySynth.Json
