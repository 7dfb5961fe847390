namespace SoliditySynth

variable {α : Type} [LE α] [DecidableLE α]

def insertSorted (a : α) : List α → List α
  | [] => [a]
  | b :: bs => if a ≤ b then a :: b :: bs else b :: insertSorted a bs

/-- The elements in order. This goes by recursion on the list, so that it can be computed where a
proof needs it. -/
def sorted : List α → List α
  | [] => []
  | a :: as => insertSorted a (sorted as)

theorem insertSorted_perm (a : α) (bs : List α) : (insertSorted a bs).Perm (a :: bs) := by
  induction bs with
  | nil => rfl
  | cons b bs ih =>
    rw [insertSorted]
    split
    · rfl
    · exact (ih.cons b).trans (.swap a b bs)

theorem sorted_perm (as : List α) : (sorted as).Perm as := by
  induction as with
  | nil => rfl
  | cons a as ih => exact (insertSorted_perm a _).trans (ih.cons a)

@[simp] theorem mem_sorted {a : α} {as : List α} : a ∈ sorted as ↔ a ∈ as :=
  (sorted_perm as).mem_iff

@[simp] theorem length_sorted (as : List α) : (sorted as).length = as.length :=
  (sorted_perm as).length_eq

theorem sorted_of_pairwise {as : List α} (h : as.Pairwise (· ≤ ·)) : sorted as = as := by
  induction as with
  | nil => rfl
  | cons a as ih =>
    obtain ⟨hfirst, hrest⟩ := List.pairwise_cons.1 h
    rw [sorted, ih hrest]
    cases as with
    | nil => rfl
    | cons b bs => exact if_pos (hfirst b List.mem_cons_self)

variable [Std.IsLinearOrder α]

theorem pairwise_insertSorted {a : α} {bs : List α} (h : bs.Pairwise (· ≤ ·)) :
    (insertSorted a bs).Pairwise (· ≤ ·) := by
  induction bs with
  | nil => exact List.pairwise_singleton _ a
  | cons b bs ih =>
    obtain ⟨hfirst, hrest⟩ := List.pairwise_cons.1 h
    rw [insertSorted]
    split
    · next hle =>
      refine List.pairwise_cons.2 ⟨fun c hc => ?_, h⟩
      rcases List.mem_cons.1 hc with rfl | hc
      · exact hle
      · exact Std.le_trans hle (hfirst c hc)
    · next hle =>
      refine List.pairwise_cons.2 ⟨fun c hc => ?_, ih hrest⟩
      rcases List.mem_cons.1 ((insertSorted_perm a bs).mem_iff.1 hc) with rfl | hc
      · exact (Std.le_total (a := b) (b := c)).resolve_right hle
      · exact hfirst c hc

theorem pairwise_sorted (as : List α) : (sorted as).Pairwise (· ≤ ·) := by
  induction as with
  | nil => exact .nil
  | cons a as ih => exact pairwise_insertSorted ih

theorem sorted_eq_of_perm {as bs : List α} (h : as.Perm bs) : sorted as = sorted bs :=
  ((sorted_perm as).trans (h.trans (sorted_perm bs).symm)).eq_of_pairwise
    (fun _ _ _ _ => Std.le_antisymm) (pairwise_sorted as) (pairwise_sorted bs)

end SoliditySynth
