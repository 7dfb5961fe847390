namespace SoliditySynth.Random

class WordSource (σ : Type) where
  next : σ → UInt32 × σ

def takeWords {σ : Type} [WordSource σ] : Nat → σ → List UInt32 × σ
  | 0, s => ([], s)
  | w + 1, s =>
    let (x, s) := WordSource.next s
    let (xs, s) := takeWords w s
    (x :: xs, s)

def wordCount (k : Nat) : Nat := (k + 31) / 32

/-- The number made of `k` bits: the least significant word comes first, and the last word gives
only its upper bits when fewer than 32 are wanted of it. -/
def blockValue : Nat → List UInt32 → Nat
  | _, [] => 0
  | k, [x] => x.toNat >>> (32 - k)
  | k, x :: xs => x.toNat + UInt32.size * blockValue (k - 32) xs

end SoliditySynth.Random
