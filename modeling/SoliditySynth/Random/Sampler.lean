import SoliditySynth.Random.Words

namespace SoliditySynth.Random

def bitLength (n : Nat) : Nat := if n = 0 then 0 else n.log2 + 1

theorem bitLength_pos {n : Nat} (h : 0 < n) : 0 < bitLength n := by
  rw [bitLength, if_neg (Nat.ne_of_gt h)]
  exact Nat.succ_pos _

/-- Reads blocks until one makes a number below `n`. `none` stands for a source all of whose blocks
are rejected, for which the search never ends. -/
def below? {σ : Type} [WordSource σ] (n : Nat) (s : σ) : Option (Fin n × σ) :=
  let (block, s) := takeWords (wordCount (bitLength n)) s
  let v := blockValue (bitLength n) block
  if h : v < n then some (⟨v, h⟩, s) else by
    -- a call that is written out would be stored with its place in the file
    apply below?
    exact s
partial_fixpoint

/-- A state from which numbers below any bound can be drawn. `none` says that the source never
comes to an acceptable number. -/
class Sampler (σ : Type) where
  draw? : (n : Nat) → σ → Option (Fin n × σ)

instance {σ : Type} [WordSource σ] : Sampler σ where
  draw? := below?

end SoliditySynth.Random
