import Mathlib.Data.Set.Card
import Mathlib.Data.Set.Finite.List
import Mathlib.Order.Interval.Set.Nat
import SoliditySynth.Proofs.Tape

namespace SoliditySynth.Random

section Bits

variable {k n : Nat}

theorem two_pow_le_of_bitLength (h : 0 < n) : 2 ^ (bitLength n - 1) ≤ n := by
  rw [bitLength, if_neg (Nat.ne_of_gt h), Nat.add_sub_cancel]
  exact Nat.log2_self_le (Nat.ne_of_gt h)

theorem self_lt_two_pow_bitLength (h : 0 < n) : n < 2 ^ bitLength n := by
  rw [bitLength, if_neg (Nat.ne_of_gt h)]
  exact Nat.lt_log2_self

theorem le_wordCount (k : Nat) : k ≤ 32 * wordCount k := by
  rw [wordCount]
  omega

theorem wordCount_sub_one_lt (h : 0 < k) : 32 * (wordCount k - 1) < k := by
  rw [wordCount]
  omega

theorem wordCount_of_le (hk : 0 < k) (h : k ≤ 32) : wordCount k = 1 := by
  rw [wordCount]
  omega

theorem wordCount_of_lt (h : 32 < k) : wordCount k = wordCount (k - 32) + 1 := by
  rw [wordCount, wordCount]
  omega

theorem two_pow_mul_of_le (h : k ≤ 32) : 2 ^ k * 2 ^ (32 - k) = 2 ^ 32 := by
  rw [← Nat.pow_add, Nat.add_sub_cancel' h]

theorem two_pow_of_lt (h : 32 < k) : 2 ^ k = UInt32.size * 2 ^ (k - 32) := by
  calc 2 ^ k = 2 ^ (32 + (k - 32)) := by rw [Nat.add_sub_cancel' (Nat.le_of_lt h)]
    _ = UInt32.size * 2 ^ (k - 32) := Nat.pow_add 2 32 (k - 32)

end Bits

/-- The words off which `k` bits are read: one, or one and the words off which the other bits are
read. -/
inductive IsBlock : Nat → List UInt32 → Prop
  | last {k : Nat} (hk : 0 < k) (h : k ≤ 32) (word : UInt32) : IsBlock k [word]
  | cons {k : Nat} (h : 32 < k) (word : UInt32) {block : List UInt32}
      (hblock : IsBlock (k - 32) block) : IsBlock k (word :: block)

section Blocks

variable {k n v : Nat} {block : List UInt32}

theorem IsBlock.ne_nil (h : IsBlock k block) : block ≠ [] := by
  cases h <;> simp

theorem isBlock_iff (hk : 0 < k) : IsBlock k block ↔ block.length = wordCount k := by
  constructor
  · intro h
    induction h with
    | last hk h word => rw [wordCount_of_le hk h, List.length_singleton]
    | cons h word hblock ih => rw [wordCount_of_lt h, List.length_cons, ih (by omega)]
  · intro h
    induction block generalizing k with
    | nil =>
      have hpos := le_wordCount k
      rw [List.length_nil] at h
      omega
    | cons word block ih =>
      by_cases hlast : k ≤ 32
      · rw [wordCount_of_le hk hlast, List.length_cons, Nat.add_eq_right,
          List.length_eq_zero_iff] at h
        rw [h]
        exact .last hk hlast word
      · have hlast : 32 < k := Nat.lt_of_not_le hlast
        rw [wordCount_of_lt hlast, List.length_cons, Nat.add_right_cancel_iff] at h
        exact .cons hlast word (ih (by omega) h)

theorem IsBlock.blockValue_lt (h : IsBlock k block) : blockValue k block < 2 ^ k := by
  induction h with
  | @last k hk h word =>
    rw [blockValue, Nat.shiftRight_eq_div_pow]
    apply Nat.div_lt_of_lt_mul
    rw [Nat.mul_comm, two_pow_mul_of_le h]
    exact word.toNat_lt
  | @cons k h word block hblock ih =>
    rw [blockValue_cons word hblock.ne_nil, two_pow_of_lt h]
    calc word.toNat + UInt32.size * blockValue (k - 32) block
        < UInt32.size * (blockValue (k - 32) block + 1) := by
          rw [Nat.mul_succ, Nat.add_comm]
          exact Nat.add_lt_add_left word.toNat_lt _
      _ ≤ UInt32.size * 2 ^ (k - 32) := Nat.mul_le_mul_left _ ih

def blocksOf (k v : Nat) : Set (List UInt32) := {block | IsBlock k block ∧ blockValue k block = v}

theorem ncard_words_shiftRight (hk : k ≤ 32) (hv : v < 2 ^ k) :
    {word : UInt32 | word.toNat >>> (32 - k) = v}.ncard = 2 ^ (32 - k) := by
  have hpos : 0 < 2 ^ (32 - k) := Nat.two_pow_pos _
  have hle : (v + 1) * 2 ^ (32 - k) ≤ 2 ^ 32 := by
    rw [← two_pow_mul_of_le hk]
    exact Nat.mul_le_mul_right _ hv
  have hsucc : (v + 1) * 2 ^ (32 - k) = v * 2 ^ (32 - k) + 2 ^ (32 - k) := Nat.succ_mul ..
  have himage : UInt32.toNat '' {word | word.toNat >>> (32 - k) = v} =
      Set.Ico (v * 2 ^ (32 - k)) ((v + 1) * 2 ^ (32 - k)) := by
    ext m
    rw [Set.mem_Ico]
    constructor
    · rintro ⟨word, hword, rfl⟩
      rw [Set.mem_ofPred_eq, Nat.shiftRight_eq_div_pow, Nat.div_eq_iff hpos] at hword
      omega
    · rintro ⟨hge, hlt⟩
      have hword : (UInt32.ofNat m).toNat = m :=
        UInt32.toNat_ofNat_of_lt' (Nat.lt_of_lt_of_le hlt hle)
      refine ⟨UInt32.ofNat m, ?_, hword⟩
      rw [Set.mem_ofPred_eq, hword, Nat.shiftRight_eq_div_pow, Nat.div_eq_iff hpos]
      omega
  rw [← Set.ncard_image_of_injective _ fun _ _ => UInt32.toNat_inj.1, himage,
    Set.ncard_Ico_nat, hsucc, Nat.add_sub_cancel_left]

theorem blocksOf_of_le (hk : 0 < k) (h : k ≤ 32) (v : Nat) :
    blocksOf k v = (fun word => [word]) '' {word : UInt32 | word.toNat >>> (32 - k) = v} := by
  ext block
  constructor
  · rintro ⟨hblock, hvalue⟩
    cases hblock with
    | last _ _ word => exact ⟨word, hvalue, rfl⟩
    | cons hlt => omega
  · rintro ⟨word, hword, rfl⟩
    exact ⟨.last hk h word, hword⟩

theorem blocksOf_of_lt (h : 32 < k) (v : Nat) :
    blocksOf k v =
      (UInt32.ofNat (v % UInt32.size) :: ·) '' blocksOf (k - 32) (v / UInt32.size) := by
  have hsize : 0 < UInt32.size := by decide
  have hlow : (UInt32.ofNat (v % UInt32.size)).toNat = v % UInt32.size :=
    UInt32.toNat_ofNat_of_lt' (Nat.mod_lt v hsize)
  ext block
  constructor
  · rintro ⟨hblock, rfl⟩
    cases hblock with
    | last _ hle => omega
    | @cons _ _ word rest hrest =>
      rw [blockValue_cons word hrest.ne_nil, Nat.add_mul_mod_self_left,
        Nat.mod_eq_of_lt word.toNat_lt, UInt32.ofNat_toNat, Nat.add_mul_div_left _ _ hsize,
        Nat.div_eq_of_lt word.toNat_lt, Nat.zero_add]
      exact ⟨rest, ⟨hrest, rfl⟩, rfl⟩
  · rintro ⟨rest, ⟨hrest, hvalue⟩, rfl⟩
    refine ⟨.cons h _ hrest, ?_⟩
    rw [blockValue_cons _ hrest.ne_nil, hvalue, hlow, Nat.mod_add_div]

/-- Each number of `k` bits is made by as many blocks as there are ways to fill the bits that are
not read. -/
theorem ncard_blocksOf (hk : 0 < k) (hv : v < 2 ^ k) :
    (blocksOf k v).ncard = 2 ^ (32 * wordCount k - k) := by
  induction k using Nat.strongRecOn generalizing v with
  | ind k ih =>
    by_cases h : k ≤ 32
    · rw [blocksOf_of_le hk h, Set.ncard_image_of_injective _ fun _ _ => List.singleton_inj.1,
        ncard_words_shiftRight h hv, wordCount_of_le hk h]
    · have h : 32 < k := Nat.lt_of_not_le h
      have hhigh : v / UInt32.size < 2 ^ (k - 32) :=
        Nat.div_lt_of_lt_mul (by rwa [← two_pow_of_lt h])
      rw [blocksOf_of_lt h, Set.ncard_image_of_injective _ List.cons_injective,
        ih (k - 32) (by omega) (by omega) hhigh, wordCount_of_lt h]
      congr 1
      omega

theorem finite_isBlock (k : Nat) (hk : 0 < k) : {block | IsBlock k block}.Finite := by
  have hwords : Finite UInt32 := Finite.of_injective UInt32.toFin fun _ _ => UInt32.toFin_inj.1
  simp only [isBlock_iff hk]
  exact List.finite_length_eq UInt32 (wordCount k)

theorem ncard_blocks_lt (hk : 0 < k) (hn : n ≤ 2 ^ k) :
    {block | IsBlock k block ∧ blockValue k block < n}.ncard = n * 2 ^ (32 * wordCount k - k) := by
  induction n with
  | zero => simp
  | succ n ih =>
    have hunion : {block | IsBlock k block ∧ blockValue k block < n + 1} =
        {block | IsBlock k block ∧ blockValue k block < n} ∪ blocksOf k n := by
      ext block
      simp only [blocksOf, Set.mem_union, Set.mem_ofPred_eq, ← and_or_left,
        Nat.lt_succ_iff_lt_or_eq]
    have hdisjoint :
        Disjoint {block | IsBlock k block ∧ blockValue k block < n} (blocksOf k n) := by
      rw [Set.disjoint_left]
      rintro block ⟨-, hlt⟩ ⟨-, heq⟩
      omega
    have hfinite := finite_isBlock k hk
    rw [hunion, Set.ncard_union_eq hdisjoint (hfinite.subset fun _ h => h.1)
      (hfinite.subset fun _ h => h.1), ih (by omega), ncard_blocksOf hk (by omega), Nat.succ_mul n]

theorem two_pow_mul_unread (k : Nat) :
    2 ^ k * 2 ^ (32 * wordCount k - k) = 2 ^ (32 * wordCount k) := by
  rw [← Nat.pow_add, Nat.add_sub_cancel' (le_wordCount k)]

theorem ncard_blocks (hk : 0 < k) : {block | IsBlock k block}.ncard = 2 ^ (32 * wordCount k) := by
  have hall :
      {block | IsBlock k block} = {block | IsBlock k block ∧ blockValue k block < 2 ^ k} := by
    ext block
    exact ⟨fun h => ⟨h, h.blockValue_lt⟩, fun h => h.1⟩
  rw [hall, ncard_blocks_lt hk (Nat.le_refl _), two_pow_mul_unread]

/-- A bound of `k` bits is at least half of what `k` bits can hold, so at most half of the blocks
make a number that is not below it. -/
theorem ncard_blocks_ge (hn : 0 < n) :
    2 * {block | IsBlock (bitLength n) block ∧ n ≤ blockValue (bitLength n) block}.ncard ≤
      2 ^ (32 * wordCount (bitLength n)) := by
  have hk := bitLength_pos hn
  have hlt := self_lt_two_pow_bitLength hn
  have hdiff : {block | IsBlock (bitLength n) block ∧ n ≤ blockValue (bitLength n) block} =
      {block | IsBlock (bitLength n) block} \
        {block | IsBlock (bitLength n) block ∧ blockValue (bitLength n) block < n} := by
    ext block
    simp only [Set.mem_sdiff, Set.mem_ofPred_eq, not_and, Nat.not_lt]
    exact ⟨fun h => ⟨h.1, fun _ => h.2⟩, fun h => ⟨h.1, h.2 h.1⟩⟩
  have hsubset : {block | IsBlock (bitLength n) block ∧ blockValue (bitLength n) block < n} ⊆
      {block | IsBlock (bitLength n) block} := fun _ h => h.1
  have hfinite := (finite_isBlock (bitLength n) hk).subset hsubset
  have hhalf : 2 ^ bitLength n ≤ 2 * n := by
    calc 2 ^ bitLength n = 2 * 2 ^ (bitLength n - 1) := by
          rw [← Nat.pow_succ', Nat.succ_eq_add_one, Nat.sub_add_cancel hk]
      _ ≤ 2 * n := Nat.mul_le_mul_left 2 (two_pow_le_of_bitLength hn)
  have hmul := Nat.mul_le_mul_right (2 ^ (32 * wordCount (bitLength n) - bitLength n)) hhalf
  rw [two_pow_mul_unread, Nat.mul_assoc] at hmul
  rw [hdiff, Set.ncard_sdiff hsubset hfinite, ncard_blocks hk,
    ncard_blocks_lt hk (Nat.le_of_lt hlt)]
  generalize 2 ^ (32 * wordCount (bitLength n)) = all at hmul ⊢
  omega

end Blocks

end SoliditySynth.Random
