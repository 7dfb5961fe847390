import SoliditySynth.Workbench

namespace SoliditySynth.Synth

variable {σ : Type} [Random.Sampler σ] {α : Type}

def pick (n : Nat) : Synth σ (Fin n) := do
  if n = 0 then throw (.emptyRange 0)
  let bench ← get
  match Random.Sampler.draw? n bench.random with
  | some (i, random) =>
    set { bench with random }
    return i
  | none => throw .stalled

/-- A number between one and `n`. The message for a bound that is too small shows the bound, and it
is made before the bound is looked at. -/
def oneTo (n : Int) : Synth σ Nat := do
  requireWritable n
  if n ≤ 0 then throw (.emptyRange n)
  let i ← pick n.toNat
  return i + 1

def oneIn (n : Int) : Synth σ Bool := do
  requireWritable n
  if n ≤ 1 then throw (.degenerateOdds n)
  return (← oneTo n) = 1

def allButOneIn (n : Int) : Synth σ Bool := do
  requireWritable n
  if n ≤ 1 then throw (.degenerateOddsAgainst n)
  return !(← oneIn n)

def choose (items : List α) : Synth σ α := do
  return items.get (← pick items.length)

theorem mem_of_choose {items : List α} {a : α} {bench bench' : Workbench σ}
    (h : (choose items).run bench = (.ok a, bench')) : a ∈ items := by
  obtain ⟨i, middle, -, h⟩ := run_bind_eq_ok.1 h
  obtain ⟨rfl, -⟩ := run_pure_eq_ok.1 h
  exact List.get_mem ..

/-- Keeps each element in one case out of `n`, deciding from left to right. As `n` is the size of a
list, it can always be written. -/
def thin (n : Nat) : List α → Synth σ (List α)
  | [] => return []
  | x :: xs => do
    let i ← pick n
    let rest ← thin n xs
    return if i.val = 0 then x :: rest else rest

def distinct [LE α] [DecidableLE α] [DecidableEq α] (items : List α) : List α :=
  sorted items.eraseDups

section Distinct

variable [DecidableEq α]

theorem nodup_eraseDups (items : List α) : items.eraseDups.Nodup := by
  match items with
  | [] => simp
  | x :: xs =>
    rw [List.eraseDups_cons, List.nodup_cons, List.mem_eraseDups]
    exact ⟨by simp, nodup_eraseDups (xs.filter fun y => !y == x)⟩
termination_by items.length
decreasing_by exact Nat.lt_succ_of_le (List.length_filter_le ..)

variable [LE α] [DecidableLE α]

@[simp] theorem mem_distinct {a : α} {items : List α} : a ∈ distinct items ↔ a ∈ items :=
  mem_sorted.trans List.mem_eraseDups

theorem nodup_distinct (items : List α) : (distinct items).Nodup :=
  (sorted_perm _).nodup_iff.2 (nodup_eraseDups items)

theorem distinct_congr [Std.IsLinearOrder α] {items items' : List α}
    (h : ∀ a, a ∈ items ↔ a ∈ items') : distinct items = distinct items' := by
  apply sorted_eq_of_perm
  refine (List.perm_ext_iff_of_nodup (nodup_eraseDups items) (nodup_eraseDups items')).2 fun a => ?_
  rw [List.mem_eraseDups, List.mem_eraseDups, h]

end Distinct

/-- A part of the distinct elements, in order; each of the `n` elements is kept in one case out of
`n`. -/
def subset [LE α] [DecidableLE α] [DecidableEq α] (items : List α) : Synth σ (List α) := do
  let pool := distinct items
  if pool.length ≤ 1 then throw (.tooFewElements pool.length)
  thin pool.length pool

/-- One of the given paths. Which one depends on the draw and on their sorted order only. -/
def choosePath (paths : List String) : Synth σ String := do
  if paths = [] then throw .noPath
  choose (sorted paths)

theorem mem_of_choosePath {paths : List String} {path : String} {bench bench' : Workbench σ}
    (h : (choosePath paths).run bench = (.ok path, bench')) : path ∈ paths := by
  rw [choosePath] at h
  split at h
  · cases h
  · exact mem_sorted.1 (mem_of_choose h)

def chooseUnit : Synth σ String := do
  choosePath (← draft).paths

def chooseOtherUnit : Synth σ String := do
  let draft ← draft
  if draft.size ≤ 1 then throw .noOtherUnit
  let current ← ofExcept draft.currentPath
  choosePath (draft.paths.filter (· ≠ current))

end SoliditySynth.Synth
