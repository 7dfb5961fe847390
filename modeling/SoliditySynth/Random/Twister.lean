import SoliditySynth.Random.Words

namespace SoliditySynth.Random

/-- The words of the generator and the place of the one that is renewed next. -/
structure Twister where
  words : Vector UInt32 624
  place : Fin 624

namespace Twister

/-- The upper bit of one word joined to the lower 31 bits of the next, shifted and folded. -/
def twist (x y : UInt32) : UInt32 :=
  let z := (x &&& 0x80000000) ||| (y &&& 0x7fffffff)
  (z >>> 1) ^^^ (if z &&& 1 = 1 then 0x9908b0df else 0)

def temper (x : UInt32) : UInt32 :=
  let x := x ^^^ (x >>> 11)
  let x := x ^^^ ((x <<< 7) &&& 0x9d2c5680)
  let x := x ^^^ ((x <<< 15) &&& 0xefc60000)
  x ^^^ (x >>> 18)

def next (t : Twister) : UInt32 × Twister :=
  let k := t.place
  let x := t.words[k + 397] ^^^ twist t.words[k] t.words[k + 1]
  (temper x, ⟨t.words.set k x, k + 1⟩)

instance : WordSource Twister where
  next := Twister.next

def growStep (words : Vector UInt32 624) (i : Nat) : Vector UInt32 624 :=
  let x := words[Fin.ofNat 624 i]
  words.set (Fin.ofNat 624 (i + 1))
    ((x ^^^ (x >>> 30)) * 1812433253 + (i + 1).toUInt32)

/-- The words that a single 32-bit number grows into. Every key is mixed into such words. -/
def grow (s : UInt32) : Vector UInt32 624 :=
  (List.range 623).foldl growStep (Vector.replicate 624 s)

/-- A pass over the words while a key is mixed in: the place to be written lies in 1 to 623. -/
structure Mixing where
  words : Vector UInt32 624
  place : Fin 624

/-- Writes the word at the current place, computed from its old value and from the word before it.
After the last place the pass goes on at place 1, with a copy of the last word at place 0. -/
def Mixing.step (m : Mixing) (f : UInt32 → UInt32 → UInt32) : Mixing :=
  let before := m.words[m.place - 1]
  let x := f m.words[m.place] (before ^^^ (before >>> 30))
  let words := m.words.set m.place x
  if m.place = 623 then ⟨words.set 0 x, 1⟩ else ⟨words, m.place + 1⟩

def Mixing.addKey (key : Array UInt32) (m : Mixing) (i : Nat) : Mixing :=
  let j := i % key.size
  m.step fun x y => (x ^^^ (y * 1664525)) + key.getD j 0 + j.toUInt32

def Mixing.settle (m : Mixing) (_ : Nat) : Mixing :=
  m.step fun x y => (x ^^^ (y * 1566083941)) - m.place.val.toUInt32

def ofKey (key : Array UInt32) : Twister :=
  let mixed := (List.range (max 624 key.size)).foldl (Mixing.addKey key) ⟨grow 19650218, 1⟩
  let settled := (List.range 623).foldl Mixing.settle mixed
  ⟨settled.words.set 0 0x80000000, 0⟩

/-- The 32-bit digits of a number, least significant first. Zero has none. -/
def digits (n : Nat) : List UInt32 :=
  if h : n = 0 then [] else n.toUInt32 :: digits (n / 0x100000000)
termination_by n
decreasing_by omega

/-- Starts the generator from a seed of any size; the seed zero counts as one word. -/
def ofSeed (seed : Nat) : Twister :=
  ofKey (if seed = 0 then #[0] else (digits seed).toArray)

end Twister

end SoliditySynth.Random
