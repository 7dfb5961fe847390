import SoliditySynth.Draw
import SoliditySynth.Proofs.Sampling

namespace SoliditySynth.Synth

variable {σ α β : Type} [Random.Sampler σ]

/-- The step answers as the sampling does and leaves everything but the random state as it is. -/
def Draws (m : Synth σ α) (d : Sampling α) : Prop :=
  ∀ bench : Workbench σ,
    match d.run bench.random with
    | some (a, random) => m.run bench = (.ok a, { bench with random })
    | none => (m.run bench).1 = .error .stalled

theorem draws_pure (a : α) : Draws (pure a : Synth σ α) (pure a) := fun _ => rfl

theorem Draws.bind {m : Synth σ α} {d : Sampling α} {k : α → Synth σ β} {f : α → Sampling β}
    (hm : Draws m d) (hk : ∀ a, Draws (k a) (f a)) : Draws (m >>= k) (d >>= f) := by
  intro bench
  have hfirst := hm bench
  rw [Sampling.run_bind, run_bind]
  cases hd : d.run bench.random with
  | none =>
    rw [hd] at hfirst
    obtain ⟨bench', hrun⟩ : ∃ bench', m.run bench = (.error .stalled, bench') :=
      ⟨_, Prod.ext hfirst rfl⟩
    rw [hrun]
    rfl
  | some ending =>
    obtain ⟨a, random⟩ := ending
    rw [hd] at hfirst
    rw [hfirst]
    exact hk a { bench with random }

theorem draws_pick {n : Nat} (h : 0 < n) : Draws (pick n : Synth σ (Fin n)) (.pick n) := by
  intro bench
  simp only [pick, if_neg (Nat.ne_of_gt h), run_bind, run_get, Sampling.pick, Sampling.run]
  cases Random.Sampler.draw? n bench.random with
  | none => rfl
  | some ending => rfl

theorem run_oneTo_of_not_canWrite {n : Int} {bench : Workbench σ} (h : ¬bench.config.CanWrite n) :
    (oneTo n).run bench = (.error .tooManyDigits, bench) := by
  rw [oneTo, run_bind, run_requireWritable, if_neg h]

theorem run_oneTo_of_le {n : Int} {bench : Workbench σ} (hwrite : bench.config.CanWrite n)
    (h : n ≤ 0) : (oneTo n).run bench = (.error (.emptyRange n), bench) := by
  rw [oneTo, run_bind, run_requireWritable, if_pos hwrite, if_pos h]
  rfl

theorem run_oneTo_of_pos {n : Nat} {bench : Workbench σ} (hwrite : bench.config.CanWrite n)
    (h : 0 < n) :
    (oneTo n).run bench = (pick n >>= fun i => pure (i.val + 1)).run bench := by
  have hpos : ¬(n : Int) ≤ 0 := by omega
  rw [oneTo, run_bind, run_requireWritable, if_pos hwrite, if_neg hpos, Int.toNat_natCast]

theorem draws_upTo {n : Nat} (h : 0 < n) :
    Draws (pick n >>= fun i => pure (i.val + 1) : Synth σ Nat) (.oneTo n) :=
  (draws_pick h).bind fun _ => draws_pure _

/-- The elements for which a one has been drawn. -/
def keptBy : List α → List Nat → List α
  | x :: xs, draw :: draws => if draw = 1 then x :: keptBy xs draws else keptBy xs draws
  | _, _ => []

theorem draws_thin {n : Nat} (h : 0 < n) (items : List α) :
    Draws (thin n items : Synth σ (List α))
      ((List.replicate items.length n).mapM Sampling.oneTo >>= fun draws =>
        pure (keptBy items draws)) := by
  induction items with
  | nil => exact draws_pure []
  | cons x xs ih =>
    have hall := (draws_pick (σ := σ) h).bind fun i : Fin n => ih.bind fun rest =>
      draws_pure (if i.val = 0 then x :: rest else rest)
    rw [List.length_cons, List.replicate_succ, List.mapM_cons]
    simp only [bind_assoc, pure_bind, keptBy, Sampling.oneTo, Nat.add_eq_right] at hall ⊢
    exact hall

end SoliditySynth.Synth
