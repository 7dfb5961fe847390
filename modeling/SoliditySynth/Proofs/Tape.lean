import Mathlib.Algebra.Group.Nat.Defs
import SoliditySynth.Proofs.Sampling

namespace SoliditySynth

namespace Random

/-- Words that are read one after the other, with zeros after the last. -/
structure Tape where
  words : List UInt32

instance : WordSource Tape where
  next tape :=
    match tape.words with
    | [] => (0, tape)
    | word :: words => (word, ⟨words⟩)

theorem takeWords_tape (block words : List UInt32) :
    takeWords block.length (Tape.mk (block ++ words)) = (block, ⟨words⟩) := by
  induction block with
  | nil => rfl
  | cons word block ih =>
    have hnext : WordSource.next (Tape.mk (word :: block ++ words)) = (word, ⟨block ++ words⟩) :=
      rfl
    rw [List.length_cons, takeWords, hnext]
    simp only [ih]

theorem blockValue_cons {k : Nat} (word : UInt32) {block : List UInt32} (h : block ≠ []) :
    blockValue k (word :: block) = word.toNat + UInt32.size * blockValue (k - 32) block := by
  cases block with
  | nil => exact absurd rfl h
  | cons word' block => rfl

theorem exists_block {k v : Nat} (hk : 0 < k) (hv : v < 2 ^ k) :
    ∃ block, block.length = wordCount k ∧ blockValue k block = v := by
  induction k using Nat.strongRecOn generalizing v with
  | ind k ih =>
    by_cases hlast : k ≤ 32
    -- The bits of the last word are its upper ones.
    · have hcount : wordCount k = 1 := by
        rw [wordCount]
        omega
      have hpow : 2 ^ k * 2 ^ (32 - k) = 2 ^ 32 := by
        rw [← Nat.pow_add, Nat.add_sub_cancel' hlast]
      have hword : v * 2 ^ (32 - k) < 2 ^ 32 := by
        rw [← hpow]
        exact Nat.mul_lt_mul_of_pos_right hv (Nat.two_pow_pos _)
      refine ⟨[UInt32.ofNat (v * 2 ^ (32 - k))], hcount.symm, ?_⟩
      rw [blockValue, UInt32.toNat_ofNat_of_lt' hword, Nat.shiftRight_eq_div_pow,
        Nat.mul_div_cancel _ (Nat.two_pow_pos _)]
    -- Before it stands the word with the lowest bits.
    · have hsplit : k = 32 + (k - 32) := by omega
      have hpow : 2 ^ k = UInt32.size * 2 ^ (k - 32) := by
        calc 2 ^ k = 2 ^ (32 + (k - 32)) := by rw [← hsplit]
          _ = UInt32.size * 2 ^ (k - 32) := Nat.pow_add 2 32 (k - 32)
      obtain ⟨block, hlen, hvalue⟩ := @ih (k - 32) (by omega) (v / UInt32.size) (by omega)
        (Nat.div_lt_of_lt_mul (by rwa [← hpow]))
      refine ⟨UInt32.ofNat (v % UInt32.size) :: block, ?_, ?_⟩
      · rw [List.length_cons, hlen, wordCount, wordCount]
        omega
      · have hne : block ≠ [] := by
          rintro rfl
          rw [wordCount] at hlen
          simp only [List.length_nil] at hlen
          omega
        have hword : (UInt32.ofNat (v % UInt32.size)).toNat = v % UInt32.size :=
          UInt32.toNat_ofNat_of_lt' (Nat.mod_lt v (by decide))
        rw [blockValue_cons _ hne, hvalue, hword, Nat.mod_add_div]

theorem lt_two_pow_bitLength {n v : Nat} (h : v < n) : v < 2 ^ bitLength n := by
  rw [bitLength, if_neg (by omega)]
  exact Nat.lt_trans h Nat.lt_log2_self

theorem exists_draw {n : Nat} (i : Fin n) :
    ∃ block, ∀ words, Sampler.draw? n (Tape.mk (block ++ words)) = some (i, ⟨words⟩) := by
  have hpos : 0 < bitLength n := bitLength_pos i.pos
  obtain ⟨block, hlen, hvalue⟩ := exists_block hpos (lt_two_pow_bitLength i.isLt)
  refine ⟨block, fun words => ?_⟩
  change below? n _ = _
  rw [below?, ← hlen, takeWords_tape]
  simp only [hvalue, i.isLt, ↓reduceDIte]

end Random

/-- Every result that can be reached is the result for some words. -/
theorem Sampling.Reaches.exists_tape {α : Type} {d : Sampling α} {a : α} (h : d.Reaches a) :
    ∃ block, ∀ words, d.run (Random.Tape.mk (block ++ words)) = some (a, ⟨words⟩) := by
  induction d with
  | done b =>
    obtain rfl : b = a := h
    exact ⟨[], fun _ => rfl⟩
  | ask n next ih =>
    obtain ⟨i, hi⟩ := h
    obtain ⟨block, hdraw⟩ := Random.exists_draw i
    obtain ⟨rest, hrest⟩ := ih i hi
    refine ⟨block ++ rest, fun words => ?_⟩
    rw [List.append_assoc, run, hdraw]
    exact hrest words

end SoliditySynth
