import SoliditySynth.Proofs.ImportSampling

namespace SoliditySynth

/-- The drafts agree in all but the record of one unit. -/
structure Draft.SameBut (path : String) (draft draft' : Draft) : Prop where
  keys : draft'.units.keys = draft.units.keys
  current : draft'.current = draft.current
  added : draft'.added = draft.added
  others : ∀ other ≠ path, draft'.units.find? other = draft.units.find? other

theorem Draft.IsWriting.sameBut_put {draft : Draft} {unit unit' : SourceUnit}
    (h : draft.IsWriting unit) (hp : unit'.path = unit.path) :
    draft.SameBut unit.path (draft.put unit') where
  keys := h.keys_put hp
  current := rfl
  added := rfl
  others other hother := by rw [find?_put, if_neg (hp ▸ hother.symm)]

/-- Draws the plan of a unit, and how many imports it asks for. The imports that it plans are that
many of the paths on offer, or all of them where there are fewer. -/
def UnitPlan.decodeAmong (config : Config) (siblings : Nat) (offers : List String) :
    Sampling (Nat × UnitPlan) := do
  let count ← decodeCount config siblings
  let generic ← Sampling.choose config.genericPragmas
  let abi ← Sampling.choose config.abiPragmas
  let imports ← Sampling.chooseDistinct (min count offers.length) offers
  return (count, ⟨generic, abi, imports⟩)

theorem UnitPlan.reaches_decodeAmong {config : Config} {siblings count : Nat}
    {offers : List String} {plan : UnitPlan} :
    (decodeAmong config siblings offers).Reaches (count, plan) ↔
      (decodeCount config siblings).Reaches count ∧ plan.generic ∈ config.genericPragmas ∧
        plan.abi ∈ config.abiPragmas ∧ plan.imports.length = min count offers.length ∧
        plan.imports.Nodup ∧ ∀ path ∈ plan.imports, path ∈ offers := by
  simp only [decodeAmong, Sampling.reaches_bind, Sampling.reaches_choose,
    Sampling.reaches_chooseDistinct, Sampling.reaches_pure, Prod.mk.injEq]
  constructor
  · rintro ⟨count, hcount, generic, hgeneric, abi, habi, imports, himports, rfl, rfl⟩
    exact ⟨hcount, hgeneric, habi, himports⟩
  · rintro ⟨hcount, hgeneric, habi, himports⟩
    exact ⟨count, hcount, _, hgeneric, _, habi, _, himports, rfl, rfl⟩

/-- The lines of a unit that is written in full: pragmas, imports and the next contract. -/
def SourceUnit.text (unit : SourceUnit) (plan : UnitPlan) : String :=
  Text.joinLines (Text.joinLines [plan.generic, plan.abi] ::
    (plan.imports.map importDirective ++ [contractDirective unit]))

namespace Recipe

variable {setting : Setting} {draft : Draft} {unit : SourceUnit}

theorem collect_add (r : Recipe String) (m n : Nat) :
    collect r (m + n) = collect r m >>= fun texts => collect r n >>= fun rest =>
      pure (texts ++ rest) := by
  induction m with
  | zero => simp [collect]
  | succ m ih =>
    rw [Nat.succ_add, collect, collect, ih]
    simp only [bind_assoc, pure_bind, List.cons_append]

theorem run_collect_importLine_capped {n : Nat} (h : draft.IsWriting unit)
    (hn : n ≤ draft.size - 1) :
    (collect importLine n).run draft =
      Sampling.chooseDistinct (min n (draft.importable unit).length) (draft.importable unit) >>=
        fun paths => pure (if n ≤ (draft.importable unit).length then
            .ok (paths.map importDirective) else .error (.nothingToImport unit.path),
          draft.put (unit.importing paths)) := by
  by_cases hle : n ≤ (draft.importable unit).length
  · simp only [if_pos hle, Nat.min_eq_left hle]
    cases n with
    | zero => simp [collect, Sampling.chooseDistinct, SourceUnit.importing_nil, h.put_self]
    | succ n => exact run_collect_importLine h (by omega) hle
  · obtain ⟨k, rfl⟩ : ∃ k, n = (draft.importable unit).length + (k + 1) :=
      ⟨n - (draft.importable unit).length - 1, by omega⟩
    simp only [if_neg hle, Nat.min_eq_right (Nat.le_of_not_le hle)]
    rw [collect_add, run_bind, run_collect_importLine h (by omega) (Nat.le_refl _), bind_assoc]
    apply Sampling.bind_congr
    intro paths hpaths
    obtain ⟨hlen, hnodup, hmem⟩ := Sampling.reaches_chooseDistinct.1 hpaths
    have h' := h.put (unit.path_importing paths)
    have hsize := h.size_put (unit.path_importing paths)
    have hfault : (draft.put (unit.importing paths)).importFault (unit.importing paths) =
        .nothingToImport unit.path := by
      rw [Draft.importFault, if_neg (by omega), SourceUnit.path_importing]
    simp only [pure_bind, andThen_ok, collect, run_bind, andThen_error,
      run_importLine_exhausted h' (h.importable_put_eq_nil hlen hnodup hmem), hfault]

theorem run_imports_capped {n : Nat} (himports : 1 < draft.size → setting.ImportsReady)
    (h : draft.IsWriting unit) (hn : n ≤ draft.size - 1) :
    (imports setting (if draft.size - 1 = 0 then none else some n)).run draft =
      Sampling.chooseDistinct (min n (draft.importable unit).length) (draft.importable unit) >>=
        fun paths => pure (if n ≤ (draft.importable unit).length then
            .ok (paths.map importDirective) else .error (.nothingToImport unit.path),
          draft.put (unit.importing paths)) := by
  rw [← run_collect_importLine_capped h hn]
  split
  · next hsize =>
    obtain rfl : n = 0 := by omega
    rfl
  · rw [imports, parts_eq_collect (himports (by omega)).registered]

/-- A unit ends in its contract or, where it asks for more imports than are left, in a refusal
after the last of them. -/
theorem run_sourceUnit_capped (hparts : setting.PartsReady)
    (himports : 1 < draft.size → setting.ImportsReady) (h : draft.IsWriting unit) :
    (sourceUnit setting).run draft =
      UnitPlan.decodeAmong setting.config (draft.size - 1) (draft.importable unit) >>=
        fun (count, plan) => pure (if count ≤ (draft.importable unit).length then
            (.ok (unit.text plan), draft.put (unit.importing plan.imports).addContract)
          else (.error (.nothingToImport unit.path), draft.put (unit.importing plan.imports))) := by
  simp only [sourceUnit, unitParts, run_bind, run_importCount fun hsize => (himports hsize).bound,
    run_pragmas hparts.pragma hparts.generic hparts.abi, bind_assoc, pure_bind, andThen_ok,
    UnitPlan.decodeAmong]
  apply Sampling.bind_congr
  intro count hcount
  have hle := UnitPlan.le_of_reaches_decodeCount hcount
  simp only [run_imports_capped himports h hle, bind_assoc, pure_bind]
  apply Sampling.bind_congr
  intro generic _
  apply Sampling.bind_congr
  intro abi _
  apply Sampling.bind_congr
  intro paths _
  have h' := h.put (unit.path_importing paths)
  split
  · rw [andThen_ok, run_bind, run_contractPart hparts h', pure_bind, andThen_ok, run_pure,
      Draft.put_put _ (SourceUnit.path_addContract _)]
    rfl
  · rfl

theorem run_sourceUnit_noUnit (hparts : setting.PartsReady)
    (himports : 1 < draft.size → setting.ImportsReady) (hadded : draft.added = 0) :
    (sourceUnit setting).run draft =
      UnitPlan.decodeAmong setting.config (draft.size - 1) [] >>= fun _ =>
        pure (.error .noUnitYet, draft) := by
  have hcurrent : draft.currentUnit = .error .noUnitYet := by
    rw [Draft.currentUnit, Draft.currentPath]
    cases draft.current with
    | none => rfl
    | some path => simp only [if_pos hadded]; rfl
  simp only [sourceUnit, unitParts, run_bind, run_importCount fun hsize => (himports hsize).bound,
    run_pragmas hparts.pragma hparts.generic hparts.abi, bind_assoc, pure_bind, andThen_ok,
    UnitPlan.decodeAmong]
  apply Sampling.bind_congr
  intro count hcount
  apply Sampling.bind_congr
  intro generic _
  apply Sampling.bind_congr
  intro abi _
  rw [UnitPlan.reaches_decodeCount] at hcount
  rw [List.length_nil, Nat.min_zero, Sampling.chooseDistinct, pure_bind]
  split at hcount
  · next hsize =>
    simp only [if_pos hsize, imports, run_pure, pure_bind, andThen_ok, run_bind,
      parts_eq_collect hparts.contract, run_collect_one, contract, run_get, hcurrent, ofExcept,
      run_throw, andThen_error]
  · next hsize =>
    obtain ⟨n, rfl⟩ : ∃ n, count = n + 1 := ⟨count - 1, by omega⟩
    have hmany : ¬draft.size ≤ 1 := by omega
    simp only [if_neg hsize, imports, parts_eq_collect (himports (by omega)).registered, collect,
      importLine, run_bind, run_get, pure_bind, andThen_ok, if_neg hmany, hcurrent, ofExcept,
      run_throw, andThen_error]

end Recipe

theorem Follows.run_of_draws {σ α β : Type} [Random.Sampler σ] {I J : Children → Prop}
    {m : Synth σ α} {r : Recipe α} {bench : Workbench σ} {d : Sampling β}
    {f : β → Except Fault α × Draft} (h : Follows bench.setting I m r (Same J))
    (hI : I bench.children) (hr : r.run bench.draft = d >>= fun b => pure (f b)) :
    match d.run bench.random with
    | some (b, rest) => (m.run bench).1 = (f b).1 ∧ (m.run bench).2.draft = (f b).2 ∧
        (m.run bench).2.random = rest
    | none => (m.run bench).1 = .error .stalled := by
  cases hd : d.run bench.random with
  | none =>
    apply h.run_of_none hI
    rw [hr, Sampling.run_bind, hd]
    rfl
  | some ending =>
    obtain ⟨b, rest⟩ := ending
    have hrecipe : (r.run bench.draft).run bench.random = some (((f b).1, (f b).2), rest) := by
      rw [hr, Sampling.run_bind, hd]
      rfl
    obtain ⟨final, hrun, hdraft, hrandom⟩ := h.run_of_some hI hrecipe
    rw [hrun]
    exact ⟨rfl, hdraft, hrandom⟩

theorem Workbench.exists_isWriting {σ : Type} [Random.Sampler σ] (seed : Nat) (config : Config)
    (random : σ) (commands : List Command) {bench : Workbench σ}
    (hbench : ((start seed config random).steps commands).2 = bench)
    (hadded : bench.draft.added ≠ 0) : ∃ unit, bench.draft.IsWriting unit := by
  have hconsistent : bench.draft.Consistent :=
    hbench ▸ consistent_steps seed config random commands
  obtain ⟨changes, hcourse⟩ := exists_course seed config random commands
  rw [hbench] at hcourse
  exact hconsistent.exists_isWriting hadded (hcourse.current_ne_none hadded)

def repeatingSteps : List Command :=
  [.draft .addUnit, .draft .addUnit, .draft .addUnit, .kind .sourceUnit .generate]

def repeatingDraws : Sampling.Script := ⟨[0, 0, 0, 1, 1, 0, 0, 0]⟩

def repeatingBench : Workbench Sampling.Script :=
  ((Workbench.start 0 .standard repeatingDraws).steps repeatingSteps).2

end SoliditySynth
