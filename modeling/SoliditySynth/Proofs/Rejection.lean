import SoliditySynth.Proofs.PureDraws
import SoliditySynth.Proofs.WordBlocks

namespace SoliditySynth.Random

variable {σ : Type} [WordSource σ] {n m : Nat} {s s' : σ}

theorem takeWords_add (w w' : Nat) (s : σ) :
    takeWords (w + w') s =
      ((takeWords w s).1 ++ (takeWords w' (takeWords w s).2).1,
        (takeWords w' (takeWords w s).2).2) := by
  induction w generalizing s with
  | zero => simp [takeWords]
  | succ w ih => simp [Nat.succ_add, takeWords, ih]

/-- The number of words that are read at once for a number below `n`. -/
def blockLength (n : Nat) : Nat := wordCount (bitLength n)

/-- The block of words that is read after `m` others. -/
def blockAt (n : Nat) (s : σ) (m : Nat) : List UInt32 :=
  (takeWords (blockLength n) (takeWords (m * blockLength n) s).2).1

/-- The number that a block makes for the bound `n`. -/
def candidate (n : Nat) (s : σ) (m : Nat) : Nat := blockValue (bitLength n) (blockAt n s m)

/-- The first `m` blocks make numbers that are too large, and the next makes one that is not. -/
structure AcceptsAt (n : Nat) (s : σ) (m : Nat) : Prop where
  rejected (j : Nat) (h : j < m) : n ≤ candidate n s j
  accepted : candidate n s m < n

theorem candidate_zero (n : Nat) (s : σ) :
    candidate n s 0 = blockValue (bitLength n) (takeWords (blockLength n) s).1 := by
  rw [candidate, blockAt, Nat.zero_mul]
  rfl

theorem candidate_succ (n : Nat) (s : σ) (m : Nat) :
    candidate n s (m + 1) = candidate n (takeWords (blockLength n) s).2 m := by
  rw [candidate, candidate, blockAt, blockAt, Nat.succ_mul, Nat.add_comm, takeWords_add]

theorem takeWords_succ_mul (n : Nat) (s : σ) (m : Nat) :
    (takeWords ((m + 1) * blockLength n) s).2 =
      (takeWords (m * blockLength n) (takeWords (blockLength n) s).2).2 := by
  rw [Nat.succ_mul, Nat.add_comm, takeWords_add]

theorem below?_step (n : Nat) (s : σ) :
    below? n s =
      if h : candidate n s 0 < n then some (⟨_, h⟩, (takeWords (blockLength n) s).2)
      else below? n (takeWords (blockLength n) s).2 := by
  rw [below?]
  simp only [candidate_zero]
  rfl

theorem AcceptsAt.below?_eq (h : AcceptsAt n s m) :
    below? n s = some (⟨_, h.accepted⟩, (takeWords ((m + 1) * blockLength n) s).2) := by
  induction m generalizing s with
  | zero =>
    rw [below?_step, dif_pos h.accepted, Nat.zero_add, Nat.one_mul]
  | succ m ih =>
    have hlarge := h.rejected 0 (Nat.succ_pos m)
    have hrest : AcceptsAt n (takeWords (blockLength n) s).2 m := by
      refine ⟨fun j hj => ?_, ?_⟩
      · rw [← candidate_succ]
        exact h.rejected (j + 1) (Nat.succ_lt_succ hj)
      · rw [← candidate_succ]
        exact h.accepted
    rw [below?_step, dif_neg (Nat.not_lt.2 hlarge), ih hrest, takeWords_succ_mul n s (m + 1)]
    simp only [candidate_succ]

/-- A search that ends has come upon a block that it accepts. -/
theorem exists_acceptsAt {ending : Fin n × σ} (h : below? n s = some ending) :
    ∃ m, AcceptsAt n s m := by
  revert h
  apply below?.partial_correctness n fun s _ => ∃ m, AcceptsAt n s m
  intro search ih s ending hsearch
  by_cases hsmall : candidate n s 0 < n
  · exact ⟨0, fun j hj => absurd hj (Nat.not_lt_zero j), hsmall⟩
  · have hrest : search (takeWords (blockLength n) s).2 = some ending := by
      rw [candidate_zero, blockLength] at hsmall
      simp only at hsearch
      rwa [dif_neg hsmall] at hsearch
    obtain ⟨m, hm⟩ := ih _ _ hrest
    refine ⟨m + 1, fun j hj => ?_, ?_⟩
    · cases j with
      | zero => exact Nat.not_lt.1 hsmall
      | succ j =>
        rw [candidate_succ]
        exact hm.rejected j (Nat.lt_of_succ_lt_succ hj)
    · rw [candidate_succ]
      exact hm.accepted

theorem below?_eq_some_iff {i : Fin n} :
    below? n s = some (i, s') ↔ ∃ m, AcceptsAt n s m ∧ candidate n s m = i ∧
      (takeWords ((m + 1) * blockLength n) s).2 = s' := by
  constructor
  · intro h
    obtain ⟨m, hm⟩ := exists_acceptsAt h
    rw [hm.below?_eq] at h
    obtain ⟨rfl, rfl⟩ := Prod.mk.inj (Option.some.inj h)
    exact ⟨m, hm, rfl, rfl⟩
  · rintro ⟨m, hm, hi, rfl⟩
    rw [hm.below?_eq]
    simp only [hi]

theorem below?_eq_none_iff : below? n s = none ↔ ∀ m, n ≤ candidate n s m := by
  constructor
  · intro hnone m
    by_contra hsmall
    have hexists : ∃ m, candidate n s m < n := ⟨m, Nat.not_le.1 hsmall⟩
    have hfirst : AcceptsAt n s (Nat.find hexists) :=
      ⟨fun j hj => Nat.not_lt.1 (Nat.find_min hexists hj), Nat.find_spec hexists⟩
    rw [hfirst.below?_eq] at hnone
    cases hnone
  · intro hlarge
    cases h : below? n s with
    | none => rfl
    | some ending =>
      obtain ⟨m, hm⟩ := exists_acceptsAt h
      exact absurd hm.accepted (Nat.not_lt.2 (hlarge m))

/-- The blocks that are read for a number up to `n` are no longer than they have to be. Each of the
numbers is made by equally many of them, and at most half of them make none. -/
structure EvenBlocks (n : Nat) : Prop where
  bits : 2 ^ (bitLength n - 1) ≤ n ∧ n < 2 ^ bitLength n
  words : 32 * (blockLength n - 1) < bitLength n ∧ bitLength n ≤ 32 * blockLength n
  all : {block : List UInt32 | block.length = blockLength n}.ncard = 2 ^ (32 * blockLength n)
  each (v : Nat) (hpos : 1 ≤ v) (hle : v ≤ n) :
    {block | block.length = blockLength n ∧ blockValue (bitLength n) block + 1 = v}.ncard =
      2 ^ (32 * blockLength n - bitLength n)
  none : 2 * {block | block.length = blockLength n ∧ n ≤ blockValue (bitLength n) block}.ncard ≤
    2 ^ (32 * blockLength n)

theorem evenBlocks (h : 0 < n) : EvenBlocks n := by
  have hk := bitLength_pos h
  have hlt := self_lt_two_pow_bitLength h
  have hblock (block : List UInt32) : block.length = blockLength n ↔ IsBlock (bitLength n) block :=
    (isBlock_iff hk).symm
  refine ⟨⟨two_pow_le_of_bitLength h, hlt⟩, ⟨wordCount_sub_one_lt hk, le_wordCount _⟩, ?_, ?_, ?_⟩
  · simp only [hblock]
    exact ncard_blocks hk
  · intro v hpos hle
    have hset : {block | block.length = blockLength n ∧ blockValue (bitLength n) block + 1 = v} =
        blocksOf (bitLength n) (v - 1) := by
      ext block
      simp only [blocksOf, hblock, Set.mem_ofPred_eq]
      exact and_congr_right fun _ => by omega
    rw [hset]
    exact ncard_blocksOf hk (by omega)
  · simp only [hblock]
    exact ncard_blocks_ge h

end SoliditySynth.Random

namespace SoliditySynth

open SoliditySynth.Random

section

variable {σ : Type} [WordSource σ] {bound : Nat} {bench : Workbench σ}

theorem Synth.run_oneTo_of_some (hwrite : bench.config.CanWrite bound) (h : 0 < bound)
    {i : Fin bound} {random : σ} (hdraw : below? bound bench.random = some (i, random)) :
    (Synth.oneTo bound).run bench = (.ok (i.val + 1), { bench with random }) := by
  have hpick : (Sampling.pick bound).run bench.random = some (i, random) :=
    (Sampling.run_pick bound bench.random).trans hdraw
  have hdraws := Synth.draws_upTo h bench
  rw [Synth.run_oneTo_of_pos hwrite h]
  rwa [Sampling.oneTo, Sampling.run_bind_pure_eq_some.2 ⟨i, hpick, rfl⟩] at hdraws

theorem Synth.run_oneTo_of_none (hwrite : bench.config.CanWrite bound) (h : 0 < bound)
    (hdraw : below? bound bench.random = none) :
    ((Synth.oneTo bound).run bench).1 = .error .stalled := by
  have hpick : (Sampling.pick bound).run bench.random = none :=
    (Sampling.run_pick bound bench.random).trans hdraw
  have hdraws := Synth.draws_upTo h bench
  rw [Synth.run_oneTo_of_pos hwrite h]
  rwa [Sampling.oneTo, Sampling.run_bind, hpick] at hdraws

theorem Synth.run_oneTo_eq_ok (hwrite : bench.config.CanWrite bound) (h : 0 < bound) {answer : Nat}
    {final : Workbench σ} :
    (Synth.oneTo bound).run bench = (.ok answer, final) ↔
      ∃ i random, below? bound bench.random = some (i, random) ∧ i.val + 1 = answer ∧
        { bench with random } = final := by
  constructor
  · intro hrun
    cases hdraw : below? bound bench.random with
    | none =>
      have hstalled := run_oneTo_of_none hwrite h hdraw
      rw [hrun] at hstalled
      cases hstalled
    | some ending =>
      obtain ⟨i, random⟩ := ending
      rw [run_oneTo_of_some hwrite h hdraw] at hrun
      obtain ⟨hanswer, hfinal⟩ := Prod.mk.inj hrun
      exact ⟨i, random, rfl, Except.ok.inj hanswer, hfinal⟩
  · rintro ⟨i, random, hdraw, rfl, rfl⟩
    exact run_oneTo_of_some hwrite h hdraw

theorem Synth.run_oneTo_eq_stalled (hwrite : bench.config.CanWrite bound) (h : 0 < bound) :
    ((Synth.oneTo bound).run bench).1 = .error .stalled ↔ below? bound bench.random = none := by
  constructor
  · intro hstalled
    cases hdraw : below? bound bench.random with
    | none => rfl
    | some ending =>
      obtain ⟨i, random⟩ := ending
      rw [run_oneTo_of_some hwrite h hdraw] at hstalled
      cases hstalled
  · exact run_oneTo_of_none hwrite h

end

def secondAccepted : Workbench Tape :=
  Workbench.start 0 .standard ⟨[0xffffffff, 0xffffffff, 5, 0x40000001, 7]⟩

/-- A process in which integers of every length can be written. -/
def unlimited : Workbench Tape := Workbench.start 0 { Config.standard with maxDigits := none } ⟨[]⟩

end SoliditySynth
