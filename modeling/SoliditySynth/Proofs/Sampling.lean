import SoliditySynth.Random.Sampler

namespace SoliditySynth

/-- A result, or a question for a number below a bound and what follows each answer. -/
inductive Sampling (α : Type) where
  | done (a : α)
  | ask (n : Nat) (next : Fin n → Sampling α)

namespace Sampling

variable {α β : Type}

def bind : Sampling α → (α → Sampling β) → Sampling β
  | done a, f => f a
  | ask n next, f => ask n fun i => (next i).bind f

instance : Monad Sampling where
  pure := done
  bind := Sampling.bind

theorem bind_done (d : Sampling α) : d.bind done = d := by
  induction d with
  | done a => rfl
  | ask n next ih =>
    simp only [Sampling.bind]
    congr 1
    funext i
    exact ih i

theorem bind_bind {γ : Type} (d : Sampling α) (f : α → Sampling β) (g : β → Sampling γ) :
    (d.bind f).bind g = d.bind fun a => (f a).bind g := by
  induction d with
  | done a => rfl
  | ask n next ih =>
    simp only [Sampling.bind]
    congr 1
    funext i
    exact ih i

instance : LawfulMonad Sampling := LawfulMonad.mk' Sampling
  (fun d => bind_done d)
  (fun _ _ => rfl)
  (fun d f g => bind_bind d f g)

def pick (n : Nat) : Sampling (Fin n) := ask n done

def oneTo (n : Nat) : Sampling Nat := return (← pick n) + 1

def choose (items : List α) : Sampling α := return items.get (← pick items.length)

/-- A list of `m` elements of a list, no two of them equal, in the order in which they are drawn. -/
def chooseDistinct [DecidableEq α] : Nat → List α → Sampling (List α)
  | 0, _ => return []
  | m + 1, items => do
    let a ← choose items
    let rest ← chooseDistinct m (items.filter (· != a))
    return a :: rest

section Run

variable {σ : Type} [Random.Sampler σ]

/-- Answers the questions from a random source. There is no result where the source gets stuck. -/
def run : Sampling α → σ → Option (α × σ)
  | done a, s => some (a, s)
  | ask n next, s =>
    match Random.Sampler.draw? n s with
    | some (i, s) => (next i).run s
    | none => none

@[simp] theorem run_pure (a : α) (s : σ) : (pure a : Sampling α).run s = some (a, s) := rfl

theorem run_pick (n : Nat) (s : σ) : (pick n).run s = Random.Sampler.draw? n s := by
  rw [pick, run]
  cases Random.Sampler.draw? n s with
  | none => rfl
  | some ending => rfl

theorem run_bind (d : Sampling α) (f : α → Sampling β) (s : σ) :
    (d >>= f).run s = (d.run s).bind fun (a, s) => (f a).run s := by
  change (d.bind f).run s = _
  induction d generalizing s with
  | done a => rfl
  | ask n next ih =>
    simp only [Sampling.bind, run]
    split
    · exact ih _ _
    · rfl

theorem run_bind_pure_eq_some {d : Sampling α} {f : α → β} {s s' : σ} {b : β} :
    (d >>= fun a => pure (f a)).run s = some (b, s') ↔ ∃ a, d.run s = some (a, s') ∧ f a = b := by
  rw [run_bind, Option.bind_eq_some_iff]
  constructor
  · rintro ⟨⟨a, s''⟩, ha, hb⟩
    obtain ⟨rfl, rfl⟩ := Prod.mk.inj (Option.some.inj hb)
    exact ⟨a, ha, rfl⟩
  · rintro ⟨a, ha, rfl⟩
    exact ⟨(a, s'), ha, rfl⟩

end Run

def Reaches : Sampling α → α → Prop
  | done a, b => a = b
  | ask _ next, b => ∃ i, (next i).Reaches b

@[simp] theorem reaches_pure {a b : α} : (pure a : Sampling α).Reaches b ↔ a = b := Iff.rfl

@[simp] theorem reaches_bind {d : Sampling α} {f : α → Sampling β} {b : β} :
    (d >>= f).Reaches b ↔ ∃ a, d.Reaches a ∧ (f a).Reaches b := by
  change (d.bind f).Reaches b ↔ _
  induction d with
  | done a => simp [Sampling.bind, Reaches]
  | ask n next ih =>
    simp only [Sampling.bind, Reaches, ih]
    constructor
    · rintro ⟨i, a, ha, hb⟩
      exact ⟨a, ⟨i, ha⟩, hb⟩
    · rintro ⟨a, ⟨i, ha⟩, hb⟩
      exact ⟨i, a, ha, hb⟩

@[simp] theorem reaches_oneTo {n k : Nat} : (oneTo n).Reaches k ↔ 1 ≤ k ∧ k ≤ n := by
  constructor
  · rintro ⟨i, rfl⟩
    exact ⟨Nat.succ_pos _, i.isLt⟩
  · rintro ⟨h, hn⟩
    exact ⟨⟨k - 1, by omega⟩, Nat.sub_add_cancel h⟩

@[simp] theorem reaches_choose {items : List α} {a : α} : (choose items).Reaches a ↔ a ∈ items := by
  constructor
  · rintro ⟨i, rfl⟩
    exact List.getElem_mem _
  · intro h
    obtain ⟨i, hi, rfl⟩ := List.getElem_of_mem h
    exact ⟨⟨i, hi⟩, rfl⟩

theorem reaches_chooseDistinct [DecidableEq α] {m : Nat} {items as : List α} :
    (chooseDistinct m items).Reaches as ↔ as.length = m ∧ as.Nodup ∧ ∀ a ∈ as, a ∈ items := by
  -- What is chosen first is out of the list, so the claim is about all lists at once.
  induction m generalizing items as with
  | zero =>
    constructor
    · rintro rfl
      simp
    · rintro ⟨h, -, -⟩
      exact (List.eq_nil_of_length_eq_zero h).symm
  | succ m ih =>
    simp only [chooseDistinct, reaches_bind, reaches_choose, reaches_pure, ih]
    constructor
    · rintro ⟨a, ha, rest, ⟨hlen, hnodup, hmem⟩, rfl⟩
      simp only [List.mem_filter, bne_iff_ne] at hmem
      refine ⟨by simp [hlen], List.nodup_cons.2 ⟨fun h => (hmem a h).2 rfl, hnodup⟩, ?_⟩
      rintro b (_ | ⟨_, hb⟩)
      · exact ha
      · exact (hmem b hb).1
    · rintro ⟨hlen, hnodup, hmem⟩
      cases as with
      | nil => cases hlen
      | cons a rest =>
        obtain ⟨ha, hrest⟩ := List.nodup_cons.1 hnodup
        refine ⟨a, hmem a (by simp), rest, ⟨by simpa using hlen, hrest, ?_⟩, rfl⟩
        intro b hb
        simp only [List.mem_filter, bne_iff_ne]
        exact ⟨hmem b (by simp [hb]), fun h => ha (h ▸ hb)⟩

theorem bind_congr {d : Sampling α} {f g : α → Sampling β}
    (h : ∀ a, d.Reaches a → f a = g a) : d >>= f = d >>= g := by
  change d.bind f = d.bind g
  induction d with
  | done a => exact h a rfl
  | ask n next ih =>
    simp only [Sampling.bind]
    congr 1
    funext i
    exact ih i fun a ha => h a ⟨i, ha⟩

theorem Reaches.of_run {σ : Type} [Random.Sampler σ] {d : Sampling α} {s s' : σ} {a : α}
    (h : d.run s = some (a, s')) : d.Reaches a := by
  induction d generalizing s with
  | done b =>
    cases h
    rfl
  | ask n next ih =>
    simp only [run] at h
    split at h
    · exact ⟨_, ih _ h⟩
    · cases h

/-- A random source whose numbers are written down beforehand. It gets stuck where a number is
missing or does not lie below the bound that it is asked for. -/
structure Script where
  numbers : List Nat
deriving DecidableEq

instance : Random.Sampler Script where
  draw? n s :=
    match s.numbers with
    | [] => none
    | k :: ks => if h : k < n then some (⟨k, h⟩, ⟨ks⟩) else none

end Sampling

end SoliditySynth
