import Mathlib.Algebra.BigOperators.Group.List.Basic
import Mathlib.Data.Set.Card
import Mathlib.Order.Interval.Set.Nat
import SoliditySynth.Proofs.ImportSampling
import SoliditySynth.Proofs.PureDraws

namespace SoliditySynth

section Counts

variable {α : Type} {n : Nat} {items : List α}

theorem ncard_image2_cons (as : Set α) (ass : Set (List α)) :
    (Set.image2 List.cons as ass).ncard = as.ncard * ass.ncard := by
  have hinjective : Function.Injective fun p : α × List α => p.1 :: p.2 := by
    rintro ⟨a, as⟩ ⟨a', as'⟩ h
    exact Prod.ext (List.cons.inj h).1 (List.cons.inj h).2
  rw [← Set.image_prod, Set.ncard_image_of_injective _ hinjective, Set.ncard_prod]

theorem drawsWithin_cons (bound : Nat) (bounds : List Nat) :
    {draws | DrawsWithin (bound :: bounds) draws} =
      Set.image2 List.cons (Set.Icc 1 bound) {draws | DrawsWithin bounds draws} := by
  ext draws
  constructor
  · rintro (_ | ⟨hdraw, hdraws⟩)
    exact ⟨_, hdraw, _, hdraws, rfl⟩
  · rintro ⟨draw, hdraw, rest, hrest, rfl⟩
    exact .cons hdraw hrest

theorem ncard_drawsWithin (bounds : List Nat) :
    {draws | DrawsWithin bounds draws}.ncard = bounds.prod := by
  induction bounds with
  | nil =>
    have hnil : {draws | DrawsWithin [] draws} = {[]} := by
      ext draws
      exact List.forall₂_nil_left_iff
    rw [hnil, Set.ncard_singleton, List.prod_nil]
  | cons bound bounds ih =>
    rw [drawsWithin_cons, ncard_image2_cons, Set.ncard_Icc_nat, ih, List.prod_cons,
      Nat.add_sub_cancel]

theorem mem_of_mem_keptBy {a : α} {draws : List Nat} (h : a ∈ Synth.keptBy items draws) :
    a ∈ items := by
  induction items generalizing draws with
  | nil => cases h
  | cons x xs ih =>
    cases draws with
    | nil => cases h
    | cons draw draws =>
      rw [Synth.keptBy] at h
      split at h
      · rcases List.mem_cons.1 h with rfl | h
        · exact List.mem_cons_self
        · exact List.mem_cons_of_mem _ (ih h)
      · exact List.mem_cons_of_mem _ (ih h)

/-- The draws by which exactly the elements with the property are kept. -/
def keepingDraws (n : Nat) (items : List α) (p : α → Bool) : Set (List Nat) :=
  {draws | DrawsWithin (List.replicate items.length n) draws ∧
    Synth.keptBy items draws = items.filter p}

theorem keepingDraws_cons (hn : 1 ≤ n) {x : α} {xs : List α} (hx : x ∉ xs) (p : α → Bool) :
    keepingDraws n (x :: xs) p =
      Set.image2 List.cons (if p x then {1} else Set.Icc 2 n) (keepingDraws n xs p) := by
  ext draws
  constructor
  · rintro ⟨hdraws, hkept⟩
    rw [List.length_cons, List.replicate_succ] at hdraws
    rcases hdraws with _ | ⟨⟨hpos, hle⟩, hdraws⟩
    rename_i draw draws
    rw [Synth.keptBy, List.filter_cons] at hkept
    split
    · next hp =>
      rw [if_pos hp] at hkept
      split at hkept
      · next hone => exact ⟨draw, hone, draws, ⟨hdraws, (List.cons.inj hkept).2⟩, rfl⟩
      · exact absurd (mem_of_mem_keptBy (hkept ▸ List.mem_cons_self)) hx
    · next hp =>
      rw [if_neg hp] at hkept
      split at hkept
      · next hone =>
        have hmem : x ∈ xs.filter p := hkept ▸ List.mem_cons_self
        exact absurd (List.mem_filter.1 hmem).1 hx
      · next hone => exact ⟨draw, ⟨by omega, hle⟩, draws, ⟨hdraws, hkept⟩, rfl⟩
  · rintro ⟨draw, hdraw, draws, ⟨hdraws, hkept⟩, rfl⟩
    split at hdraw
    · next hp =>
      obtain rfl : draw = 1 := hdraw
      refine ⟨.cons ⟨Nat.le_refl 1, hn⟩ hdraws, ?_⟩
      rw [Synth.keptBy, if_pos rfl, hkept, List.filter_cons_of_pos hp]
    · next hp =>
      obtain ⟨htwo, hle⟩ := hdraw
      refine ⟨.cons ⟨by omega, hle⟩ hdraws, ?_⟩
      rw [Synth.keptBy, if_neg (by omega), hkept, List.filter_cons_of_neg hp]

/-- An element is kept by one draw, and left out by all others. -/
theorem ncard_keepingDraws (hn : 1 ≤ n) (hitems : items.Nodup) (p : α → Bool) :
    (keepingDraws n items p).ncard = (n - 1) ^ (items.length - (items.filter p).length) := by
  induction items with
  | nil =>
    have hnil : keepingDraws n [] p = {[]} := by
      ext draws
      simp [keepingDraws, DrawsWithin, Synth.keptBy]
    rw [hnil, Set.ncard_singleton]
    rfl
  | cons x xs ih =>
    obtain ⟨hx, hxs⟩ := List.nodup_cons.1 hitems
    have hle := List.length_filter_le p xs
    rw [keepingDraws_cons hn hx, ncard_image2_cons, ih hxs, List.length_cons]
    by_cases hp : p x = true
    · rw [if_pos hp, Set.ncard_singleton, Nat.one_mul, List.filter_cons_of_pos hp,
        List.length_cons, Nat.add_sub_add_right]
    · rw [if_neg hp, Set.ncard_Icc_nat, List.filter_cons_of_neg hp, Nat.succ_sub hle, Nat.pow_succ']
      congr 1

end Counts

variable {α : Type} [LE α] [DecidableLE α] [DecidableEq α] {items : List α}

theorem toFinset_distinct (items : List α) :
    (Synth.distinct items).toFinset = items.toFinset := by
  ext a
  rw [List.mem_toFinset, List.mem_toFinset, Synth.mem_distinct]

theorem length_distinct (items : List α) :
    (Synth.distinct items).length = items.toFinset.card := by
  rw [← toFinset_distinct, List.toFinset_card_of_nodup (Synth.nodup_distinct items)]

theorem length_filter_distinct {part : Finset α} (h : part ⊆ items.toFinset) :
    ((Synth.distinct items).filter (· ∈ part)).length = part.card := by
  have hnodup := (Synth.nodup_distinct items).filter fun a => decide (a ∈ part)
  rw [← List.toFinset_card_of_nodup hnodup]
  congr 1
  ext a
  rw [List.mem_toFinset, List.mem_filter, Synth.mem_distinct, decide_eq_true_eq]
  exact ⟨fun ha => ha.2, fun ha => ⟨List.mem_toFinset.1 (h ha), ha⟩⟩

/-- Of `n` distinct elements, `n` draws decide which are kept, and every subset comes about by as
many draws as there are ways to leave out the other elements, each by one draw out of `n - 1`. Of
fewer than two elements no subset is drawn. -/
theorem subset_odds {σ : Type} [Random.Sampler σ] [Std.IsLinearOrder α] (items : List α) :
    let pool := Synth.distinct items
    let n := items.toFinset.card
    (pool.Nodup ∧ pool.Pairwise (· ≤ ·) ∧ pool.toFinset = items.toFinset) ∧
    (n < 2 → ∀ bench : Workbench σ,
      (Synth.subset items).run bench = (.error (.tooFewElements n), bench)) ∧
    (2 ≤ n →
      Synth.Draws (Synth.subset items : Synth σ (List α))
        ((List.replicate n n).mapM Sampling.oneTo >>= fun draws =>
          pure (Synth.keptBy pool draws)) ∧
      {draws | DrawsWithin (List.replicate n n) draws}.ncard = n ^ n ∧
      ∀ part ⊆ items.toFinset,
        {draws | DrawsWithin (List.replicate n n) draws ∧
          Synth.keptBy pool draws = pool.filter (· ∈ part)}.ncard = (n - 1) ^ (n - part.card)) := by
  intro pool n
  have hlength : pool.length = n := length_distinct items
  refine ⟨⟨Synth.nodup_distinct items, pairwise_sorted _, toFinset_distinct items⟩,
    fun hn bench => ?_, fun hn => ⟨?_, ?_, fun part hpart => ?_⟩⟩
  · have hfew : pool.length ≤ 1 := by omega
    rw [Synth.subset, if_pos hfew, hlength]
    rfl
  · have hmany : ¬pool.length ≤ 1 := by omega
    have hthin := Synth.draws_thin (σ := σ) (Nat.zero_lt_of_lt hn) pool
    rw [hlength] at hthin
    rw [Synth.subset, if_neg hmany, length_distinct]
    exact hthin
  · rw [ncard_drawsWithin, List.prod_replicate]
  · have hcount := ncard_keepingDraws (n := n) (by omega) (Synth.nodup_distinct items)
      fun a => decide (a ∈ part)
    rwa [keepingDraws, length_distinct, length_filter_distinct hpart] at hcount

theorem subset_odds_repeated :
    (Synth.subset [3, 1, 2, 3]).run (Workbench.start 0 .standard (Sampling.Script.mk [0, 1, 0])) =
        (.ok [1, 3], Workbench.start 0 .standard (Sampling.Script.mk [])) ∧
      {draws | DrawsWithin [3, 3, 3] draws ∧ Synth.keptBy [1, 2, 3] draws = [1, 3]}.ncard = 2 ∧
      (Synth.subset [5, 5]).run (Workbench.start 0 .standard (Sampling.Script.mk [0])) =
        (.error (.tooFewElements 1), Workbench.start 0 .standard (Sampling.Script.mk [0])) := by
  obtain ⟨-, -, hdraws⟩ := subset_odds (σ := Sampling.Script) [3, 1, 2, 3]
  obtain ⟨-, hfew, -⟩ := subset_odds (σ := Sampling.Script) [5, 5]
  have hpool : Synth.distinct [3, 1, 2, 3] = [1, 2, 3] := by decide +kernel
  have hthree : [3, 1, 2, 3].toFinset.card = 3 := rfl
  rw [hpool, hthree] at hdraws
  obtain ⟨hruns, -, hcount⟩ := hdraws (by decide)
  have hpart : [1, 2, 3].filter (· ∈ ({1, 3} : Finset Nat)) = [1, 3] := by decide
  have hsparse := hcount {1, 3} (by decide)
  rw [hpart] at hsparse
  exact ⟨hruns (Workbench.start 0 .standard (Sampling.Script.mk [0, 1, 0])), hsparse,
    hfew (by decide) _⟩

end SoliditySynth
