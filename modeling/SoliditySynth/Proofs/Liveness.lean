import Mathlib.Data.Finite.Prod
import Mathlib.Dynamics.PeriodicPts.Lemmas
import SoliditySynth.Random.Sampler
import SoliditySynth.Random.Twister

namespace SoliditySynth.Random

/-- A function of words that respects exclusive or. -/
def XorLinear (f : UInt32 → UInt32) : Prop := ∀ x y, f (x ^^^ y) = f x ^^^ f y

theorem xor_xor_xor_comm (x y z w : UInt32) :
    (x ^^^ y) ^^^ (z ^^^ w) = (x ^^^ z) ^^^ (y ^^^ w) := by
  ac_rfl

namespace XorLinear

variable {f g : UInt32 → UInt32}

theorem id : XorLinear fun x => x := fun _ _ => rfl

theorem shiftRight (hf : XorLinear f) (n : UInt32) : XorLinear fun x => f x >>> n := by
  intro x y
  simp only [hf x y, UInt32.shiftRight_xor]

theorem shiftLeft (hf : XorLinear f) (n : UInt32) : XorLinear fun x => f x <<< n := by
  intro x y
  simp only [hf x y, UInt32.shiftLeft_xor]

theorem and (hf : XorLinear f) (mask : UInt32) : XorLinear fun x => f x &&& mask := by
  intro x y
  apply UInt32.toBitVec_inj.1
  simp only [hf x y, UInt32.toBitVec_and, UInt32.toBitVec_xor]
  ext i
  simp only [BitVec.getElem_and, BitVec.getElem_xor, Bool.and_xor_distrib_right]

theorem xor (hf : XorLinear f) (hg : XorLinear g) : XorLinear fun x => f x ^^^ g x := by
  intro x y
  simp only [hf x y, hg x y]
  exact xor_xor_xor_comm ..

theorem comp (hf : XorLinear f) (hg : XorLinear g) : XorLinear fun x => f (g x) := by
  intro x y
  simp only [hg x y, hf (g x) (g y)]

end XorLinear

theorem and_one_eq_zero_or_one (x : UInt32) : x &&& 1 = 0 ∨ x &&& 1 = 1 := by
  have hnat : (x &&& 1).toNat = x.toNat % 2 := by
    rw [UInt32.toNat_and]
    exact Nat.and_one_is_mod _
  rcases Nat.mod_two_eq_zero_or_one x.toNat with hzero | hone
  · exact .inl (UInt32.toNat_inj.1 (hnat.trans hzero))
  · exact .inr (UInt32.toNat_inj.1 (hnat.trans hone))

theorem xorLinear_ite (a : UInt32) : XorLinear fun x => if x &&& 1 = 1 then a else 0 := by
  intro x y
  have hxor : (x ^^^ y) &&& 1 = (x &&& 1) ^^^ (y &&& 1) := XorLinear.id.and 1 x y
  simp only [hxor]
  rcases and_one_eq_zero_or_one x with hx | hx <;> rcases and_one_eq_zero_or_one y with hy | hy <;>
    simp [hx, hy]

namespace Twister

theorem temper_xorLinear : XorLinear temper := by
  have hfirst : XorLinear fun x => x ^^^ (x >>> 11) := .xor .id (.shiftRight .id 11)
  have hsecond : XorLinear fun x => x ^^^ ((x <<< 7) &&& 0x9d2c5680) :=
    .xor .id (.and (.shiftLeft .id 7) _)
  have hthird : XorLinear fun x => x ^^^ ((x <<< 15) &&& 0xefc60000) :=
    .xor .id (.and (.shiftLeft .id 15) _)
  have hlast : XorLinear fun x => x ^^^ (x >>> 18) := .xor .id (.shiftRight .id 18)
  exact hlast.comp (hthird.comp (hsecond.comp hfirst))

def joined (x y : UInt32) : UInt32 := (x &&& 0x80000000) ||| (y &&& 0x7fffffff)

theorem joined_eq_xor (x y : UInt32) : joined x y = (x &&& 0x80000000) ^^^ (y &&& 0x7fffffff) := by
  have hmask : (0x7fffffff : UInt32) = ~~~0x80000000 := by decide
  rw [joined, hmask]
  generalize (0x80000000 : UInt32) = mask
  apply UInt32.toBitVec_inj.1
  simp only [UInt32.toBitVec_or, UInt32.toBitVec_xor, UInt32.toBitVec_and, UInt32.toBitVec_not]
  ext i
  simp only [BitVec.getElem_or, BitVec.getElem_xor, BitVec.getElem_and, BitVec.getElem_not]
  cases mask.toBitVec[i] <;> simp

theorem joined_xor (x y x' y' : UInt32) :
    joined (x ^^^ x') (y ^^^ y') = joined x y ^^^ joined x' y' := by
  simp only [joined_eq_xor, XorLinear.id.and _ x x', XorLinear.id.and _ y y']
  exact xor_xor_xor_comm ..

theorem joined_self (x : UInt32) : joined x x = x := by
  have hmask : (0x7fffffff : UInt32) = ~~~0x80000000 := by decide
  rw [joined, hmask]
  generalize (0x80000000 : UInt32) = mask
  apply UInt32.toBitVec_inj.1
  simp only [UInt32.toBitVec_or, UInt32.toBitVec_and, UInt32.toBitVec_not]
  ext i
  simp only [BitVec.getElem_or, BitVec.getElem_and, BitVec.getElem_not]
  cases mask.toBitVec[i] <;> simp

/-- A word shifted, and folded back where a bit falls off. -/
def folded (z : UInt32) : UInt32 := (z >>> 1) ^^^ (if z &&& 1 = 1 then 0x9908b0df else 0)

theorem folded_xorLinear : XorLinear folded := (XorLinear.shiftRight .id 1).xor (xorLinear_ite _)

theorem twist_xor (x y x' y' : UInt32) :
    twist (x ^^^ x') (y ^^^ y') = twist x y ^^^ twist x' y' := by
  change folded (joined (x ^^^ x') (y ^^^ y')) = _
  rw [joined_xor, folded_xorLinear]
  rfl

/-- Only zero is folded to zero: what is folded back has a bit that no shift sets. -/
theorem eq_zero_of_folded {z : UInt32} (h : folded z = 0) : z = 0 := by
  have hshift : (z >>> 1).toNat = z.toNat / 2 := by
    rw [UInt32.toNat_shiftRight]
    exact Nat.shiftRight_eq_div_pow ..
  have hbound := z.toNat_lt
  rw [folded, UInt32.xor_eq_zero_iff] at h
  rcases and_one_eq_zero_or_one z with hz | hz
  · have hmod : z.toNat % 2 = 0 := by
      rw [← Nat.and_one_is_mod]
      exact congrArg UInt32.toNat hz
    rw [hz, if_neg (by decide)] at h
    rw [h] at hshift
    apply UInt32.toNat_inj.1
    change z.toNat = 0
    change 0 = z.toNat / 2 at hshift
    omega
  · rw [if_pos hz] at h
    rw [h] at hshift
    change 0x9908b0df = z.toNat / 2 at hshift
    omega

end Twister

instance neZero_places : NeZero 624 := ⟨by decide⟩

/-- The words of a twister, the one that is renewed next in the first place. -/
abbrev Window := Fin 624 → UInt32

namespace Window

def xor (w w' : Window) : Window := fun i => w i ^^^ w' i

def fresh (w : Window) : UInt32 := w 397 ^^^ Twister.twist (w 0) (w 1)

def shift (w : Window) : Window := fun i => if i = 623 then w.fresh else w (i + 1)

def delta (w : Window) : Window := w.shift.xor w

theorem fresh_xor (w w' : Window) : (w.xor w').fresh = w.fresh ^^^ w'.fresh := by
  simp only [fresh, xor, Twister.twist_xor]
  exact xor_xor_xor_comm ..

theorem shift_xor (w w' : Window) : (w.xor w').shift = w.shift.xor w'.shift := by
  funext i
  simp only [shift, xor]
  split
  · exact fresh_xor w w'
  · rfl

theorem iterate_shift_xor (w w' : Window) (n : Nat) :
    shift^[n] (w.xor w') = (shift^[n] w).xor (shift^[n] w') := by
  induction n generalizing w w' with
  | zero => rfl
  | succ n ih => rw [Function.iterate_succ_apply, shift_xor, ih]; rfl

theorem eq_zero_of_shift_eq {w : Window} (h : w.shift = w) : w = fun _ => 0 := by
  have hnext (i : Fin 624) (hi : i ≠ 623) : w (i + 1) = w i := by
    have hw := congrFun h i
    rwa [shift, if_neg hi] at hw
  have hall (n : Nat) (hn : n < 624) : w ⟨n, hn⟩ = w 0 := by
    induction n with
    | zero => rfl
    | succ n ih =>
      have hlt : n < 624 := by omega
      have hne : (⟨n, hlt⟩ : Fin 624) ≠ 623 := by
        intro he
        have := congrArg Fin.val he
        simp only at this
        change n = 623 at this
        omega
      have hsucc : (⟨n + 1, hn⟩ : Fin 624) = ⟨n, hlt⟩ + 1 := by
        apply Fin.ext
        rw [Fin.val_add]
        exact (Nat.mod_eq_of_lt hn).symm
      rw [hsucc, hnext _ hne, ih hlt]
  have hlast : w.fresh = w 623 := by
    have hw := congrFun h 623
    rwa [shift, if_pos rfl] at hw
  have hconst (i : Fin 624) : w i = w 0 := hall i.val i.isLt
  rw [fresh, hconst 397, hconst 1, hconst 623] at hlast
  have hfold : Twister.folded (Twister.joined (w 0) (w 0)) = 0 := by
    have hself := congrArg (w 0 ^^^ ·) hlast
    simp only [← UInt32.xor_assoc, UInt32.xor_self, UInt32.zero_xor] at hself
    exact hself
  have hzero := Twister.eq_zero_of_folded hfold
  rw [Twister.joined_self] at hzero
  funext i
  rw [hconst i, hzero]

theorem delta_injective : Function.Injective delta := by
  intro w w' h
  have hshift : (w.xor w').shift = w.xor w' := by
    rw [shift_xor]
    funext i
    have hi := congrFun h i
    simp only [delta, xor] at hi ⊢
    apply UInt32.xor_eq_zero_iff.1
    rw [xor_xor_xor_comm, hi, UInt32.xor_self]
  funext i
  exact UInt32.xor_eq_zero_iff.1 (congrFun (eq_zero_of_shift_eq hshift) i)

/-- The upper bit of the word that is handed out next. -/
def high (w : Window) : Bool := (Twister.temper w.fresh).toBitVec.msb

theorem high_xor (w w' : Window) : (w.xor w').high = (w.high ^^ w'.high) := by
  rw [high, fresh_xor, Twister.temper_xorLinear, UInt32.toBitVec_xor, BitVec.msb_xor]
  rfl

/-- At some time the upper bit is zero. -/
theorem exists_high_eq_false (w : Window) : ∃ n, (shift^[n] w).high = false := by
  by_contra hnever
  have hset (n : Nat) : (shift^[n] w).high = true := by
    rw [← Bool.not_eq_false]
    exact fun h => hnever ⟨n, h⟩
  -- differences of words with the bit set, and of words without it, do not have it
  have hdelta (v : Window) (b : Bool) (hv : ∀ n, (shift^[n] v).high = b) (n : Nat) :
      (shift^[n] v.delta).high = false := by
    have hnext := hv (n + 1)
    rw [Function.iterate_succ_apply] at hnext
    rw [delta, iterate_shift_xor, high_xor, hnext, hv n, Bool.xor_self]
  have hiterate (m : Nat) : ∀ n, (shift^[n] (delta^[m + 1] w)).high = false := by
    induction m with
    | zero => exact hdelta w true hset
    | succ m ih =>
      rw [Function.iterate_succ_apply']
      exact hdelta _ false ih
  have hfinite : Finite UInt32 := Finite.of_injective UInt32.toFin fun _ _ => UInt32.toFin_inj.1
  obtain ⟨m, hm, hperiod⟩ := delta_injective.mem_periodicPts w
  obtain ⟨k, rfl⟩ : ∃ k, m = k + 1 := ⟨m - 1, by omega⟩
  have hlow := hiterate k 0
  rw [hperiod] at hlow
  exact absurd (hset 0) (by rw [hlow]; decide)

end Window

namespace Twister

def window (t : Twister) : Window := fun i => t.words[t.place + i]

theorem next_fst (t : Twister) : t.next.1 = temper t.window.fresh := by
  simp only [next, Window.fresh, window, Fin.add_zero]

theorem window_next (t : Twister) : t.next.2.window = t.window.shift := by
  funext i
  simp only [Window.shift, window, next, Window.fresh, Fin.add_zero]
  split
  · next hi =>
    have hplace : t.place + 1 + i = t.place := by
      subst hi
      omega
    simp [hplace]
  · next hi =>
    have hplace : t.place + 1 + i ≠ t.place := by omega
    have hnext : t.place + 1 + i = t.place + (i + 1) := by omega
    have hval : (t.place : Nat) ≠ (t.place + 1 + i : Fin 624) := fun h => hplace (Fin.ext h.symm)
    change (t.words.set t.place _)[((t.place + 1 + i : Fin 624) : Nat)] = _
    rw [Vector.getElem_set_ne _ _ hval]
    simp only [hnext]
    rfl

theorem shiftRight_lt_of_msb {n : Nat} (hpos : 0 < n) (hn : n < 2 ^ 32) {x : UInt32}
    (hx : x.toBitVec.msb = false) : x.toNat >>> (32 - bitLength n) < n := by
  have hhalf : x.toNat < 2 ^ 31 := by
    have htwice := BitVec.msb_eq_false_iff_two_mul_lt.1 hx
    change 2 * x.toNat < 2 ^ 32 at htwice
    omega
  have hlog : n.log2 < 32 := (Nat.log2_lt (Nat.ne_of_gt hpos)).2 hn
  have hbits : 32 - bitLength n = 31 - n.log2 := by
    rw [bitLength, if_neg (Nat.ne_of_gt hpos)]
    omega
  have hpow : 2 ^ 31 = 2 ^ n.log2 * 2 ^ (31 - n.log2) := by
    rw [← Nat.pow_add]
    congr 1
    omega
  have hlt : x.toNat / 2 ^ (31 - n.log2) < 2 ^ n.log2 := by
    apply Nat.div_lt_of_lt_mul
    rwa [Nat.mul_comm, ← hpow]
  rw [hbits, Nat.shiftRight_eq_div_pow]
  exact Nat.lt_of_lt_of_le hlt (Nat.log2_self_le (Nat.ne_of_gt hpos))

theorem wordCount_bitLength {n : Nat} (hpos : 0 < n) (hn : n < 2 ^ 32) :
    wordCount (bitLength n) = 1 := by
  have hlog : n.log2 < 32 := (Nat.log2_lt (Nat.ne_of_gt hpos)).2 hn
  rw [wordCount, bitLength, if_neg (Nat.ne_of_gt hpos)]
  omega

theorem below?_eq {n : Nat} (hpos : 0 < n) (hn : n < 2 ^ 32) (t : Twister) :
    below? n t =
      if h : t.next.1.toNat >>> (32 - bitLength n) < n then some (⟨_, h⟩, t.next.2)
      else below? n t.next.2 := by
  rw [below?, wordCount_bitLength hpos hn]
  rfl

/-- Numbers below any bound of at most 32 bits can be drawn from every twister. -/
theorem exists_draw_of_lt {n : Nat} (hpos : 0 < n) (hn : n < 2 ^ 32) (t : Twister) :
    ∃ i t', Sampler.draw? n t = some (i, t') := by
  change ∃ i t', below? n t = some (i, t')
  obtain ⟨m, hm⟩ := t.window.exists_high_eq_false
  induction m generalizing t with
  | zero =>
    have hx : t.next.1.toBitVec.msb = false := by
      rw [next_fst]
      exact hm
    rw [below?_eq hpos hn, dif_pos (shiftRight_lt_of_msb hpos hn hx)]
    exact ⟨_, _, rfl⟩
  | succ m ih =>
    rw [below?_eq hpos hn]
    split
    · exact ⟨_, _, rfl⟩
    · apply ih
      rwa [window_next]

end Twister

end SoliditySynth.Random
