import SoliditySynth.Text.Hex

namespace SoliditySynth.Json

/-- The UTF-16 units of a character. -/
def units16 (c : Char) : List Nat :=
  let n := c.toNat
  if n < 0x10000 then [n]
  else [0xd800 + (n - 0x10000) / 0x400, 0xdc00 + (n - 0x10000) % 0x400]

def escapeUnit (u : Nat) : List Char := '\\' :: 'u' :: Text.hexDigits 4 u

def escape (c : Char) : List Char :=
  if c = '"' then ['\\', '"']
  else if c = '\\' then ['\\', '\\']
  else if c = '\n' then ['\\', 'n']
  else if c = '\r' then ['\\', 'r']
  else if c = '\t' then ['\\', 't']
  else if c = '\x0c' then ['\\', 'f']
  else if c = '\x08' then ['\\', 'b']
  else if ' ' ≤ c ∧ c ≤ '~' then [c]
  else (units16 c).flatMap escapeUnit

def quote (s : String) : List Char := '"' :: s.toList.flatMap escape ++ ['"']

end SoliditySynth.Json
