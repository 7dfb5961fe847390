import SoliditySynth.Proofs.Atomicity
import SoliditySynth.Proofs.ImportChoice

namespace SoliditySynth

namespace Draft

variable {draft draft' : Draft}

theorem Edited.current_ne_none {edit : Edit} (h : draft.Edited edit draft')
    (hdraft : draft.added ≠ 0 → draft.current ≠ none) :
    draft'.added ≠ 0 → draft'.current ≠ none := by
  cases h with
  | reset => exact fun hadded => absurd rfl hadded
  | declare path => exact fun _ => Option.some_ne_none path
  | add path => exact fun _ => Option.some_ne_none path
  | unit command hfind => exact hdraft

theorem Course.current_ne_none {changes : List Change} (h : Draft.empty.Course changes draft) :
    draft.added ≠ 0 → draft.current ≠ none := by
  have hkeeps := h.keeps (I := fun draft => draft.added ≠ 0 → draft.current ≠ none)
    (fun hadded => absurd rfl hadded) fun change _ => change.edited.current_ne_none
  exact hkeeps.1 draft h.last_mem

theorem currentPath_eq_ok {path : String} :
    draft.currentPath = .ok path ↔ draft.current = some path ∧ draft.added ≠ 0 := by
  rw [currentPath]
  cases draft.current with
  | none => simp
  | some path' =>
    by_cases h : draft.added = 0
    · simp [h]
    · simp [h]

theorem exists_currentPath_iff (h : draft.added ≠ 0 → draft.current ≠ none) :
    (∃ path, draft.currentPath = .ok path) ↔ draft.added ≠ 0 := by
  constructor
  · rintro ⟨path, hpath⟩
    exact (currentPath_eq_ok.1 hpath).2
  · intro hadded
    obtain ⟨path, hpath⟩ := Option.ne_none_iff_exists'.1 (h hadded)
    exact ⟨path, currentPath_eq_ok.2 ⟨hpath, hadded⟩⟩

theorem Consistent.exists_currentUnit_iff (h : draft.Consistent) :
    (∃ unit, draft.currentUnit = .ok unit) ↔ ∃ path, draft.currentPath = .ok path := by
  constructor
  · rintro ⟨unit, hunit⟩
    cases hpath : draft.currentPath with
    | ok path => exact ⟨path, rfl⟩
    | error fault =>
      rw [currentUnit, hpath] at hunit
      cases hunit
  · rintro ⟨path, hpath⟩
    obtain ⟨unit, hunit⟩ := OrderedMap.mem_keys_iff.1 (h.current_mem (currentPath_eq_ok.1 hpath).1)
    refine ⟨unit, ?_⟩
    rw [currentUnit, hpath]
    exact unit_eq_ok.2 hunit

theorem isEmpty_units_eq_false_iff : draft.units.isEmpty = false ↔ draft.size ≠ 0 := by
  rw [OrderedMap.isEmpty, List.isEmpty_eq_false_iff, size, OrderedMap.size, ne_eq, ne_eq,
    List.length_eq_zero_iff]

theorem filter_paths_ne_nil (h : 2 ≤ draft.size) (current : String) :
    draft.paths.filter (· ≠ current) ≠ [] := by
  have herase : draft.paths.filter (· ≠ current) = draft.paths.erase current := by
    rw [draft.nodup_paths.erase_eq_filter]
    exact List.filter_congr fun path _ => decide_not
  have hle : draft.paths.length - 1 ≤ (draft.paths.erase current).length := List.le_length_erase
  rw [length_paths] at hle
  rw [herase]
  exact List.ne_nil_of_length_pos (by omega)

end Draft

namespace Synth

variable {σ : Type} [Random.Sampler σ] {bench : Workbench σ}

theorem chooseOtherUnit_eq_ok {path : String} (h : (chooseOtherUnit.run bench).1 = .ok path) :
    2 ≤ bench.draft.size ∧ ∃ current, bench.draft.currentPath = .ok current ∧
      path ∈ bench.draft.units.keys ∧ path ≠ current := by
  obtain ⟨final, hrun⟩ : ∃ final, chooseOtherUnit.run bench = (.ok path, final) :=
    ⟨_, Prod.ext h rfl⟩
  obtain ⟨draft, next, hdraft, hrun⟩ := run_bind_eq_ok.1 hrun
  cases hdraft
  split at hrun
  · cases hrun
  · next hsize =>
    obtain ⟨current, next, hcurrent, hrun⟩ := run_bind_eq_ok.1 hrun
    obtain ⟨hcurrent, -⟩ := run_ofExcept_eq_ok.1 hcurrent
    obtain ⟨hmem, hne⟩ := List.mem_filter.1 (mem_of_choosePath hrun)
    exact ⟨by omega, current, hcurrent, Draft.mem_paths.1 hmem, of_decide_eq_true hne⟩

theorem onlyStalls_chooseOtherUnit (hsize : 2 ≤ bench.draft.size) {current : String}
    (hcurrent : bench.draft.currentPath = .ok current) : OnlyStalls chooseOtherUnit bench := by
  apply onlyStalls_draft.bind
  rintro draft bench' ⟨⟩
  apply OnlyStalls.skip_guard (by omega)
  apply (onlyStalls_ofExcept hcurrent).bind
  intro current' next _
  exact onlyStalls_choosePath (Draft.filter_paths_ne_nil hsize current')

end Synth

namespace Workbench

variable {σ : Type} [Random.Sampler σ]

/-- A current unit is there exactly where there are units, and a unit other than the current one
exactly where there are two. -/
structure AccessorsAgree (bench : Workbench σ) : Prop where
  currentPath : (∃ path, bench.draft.currentPath = .ok path) ↔ bench.draft.units.isEmpty = false
  currentUnit : (∃ unit, bench.draft.currentUnit = .ok unit) ↔ bench.draft.units.isEmpty = false
  otherUnit (hends : (Synth.chooseOtherUnit.run bench).1 ≠ .error .stalled) :
    (∃ path, (Synth.chooseOtherUnit.run bench).1 = .ok path) ↔ 2 ≤ bench.draft.size
  other_ne {path : String} (h : (Synth.chooseOtherUnit.run bench).1 = .ok path) :
    path ∈ bench.draft.units.keys ∧ bench.draft.current ≠ some path

end Workbench

/-- Wherever a session stands, units are given out once some have been counted since the last reset,
and not before. So the accessors agree unless all the units there are have been declared without
being counted. -/
theorem accessorsAgree_iff {σ : Type} [Random.Sampler σ] (seed : Nat) (config : Config) (random : σ)
    (commands : List Command) :
    let bench := ((Workbench.start seed config random).steps commands).2
    ((∃ path, bench.draft.currentPath = .ok path) ↔ bench.draft.added ≠ 0) ∧
    ((∃ unit, bench.draft.currentUnit = .ok unit) ↔ bench.draft.added ≠ 0) ∧
    ((Synth.chooseOtherUnit.run bench).1 ≠ .error .stalled →
      ((∃ path, (Synth.chooseOtherUnit.run bench).1 = .ok path) ↔
        2 ≤ bench.draft.size ∧ bench.draft.added ≠ 0)) ∧
    (bench.AccessorsAgree ↔ (bench.draft.units.isEmpty = false → bench.draft.added ≠ 0)) := by
  intro bench
  have hconsistent : bench.draft.Consistent :=
    Workbench.consistent_steps seed config random commands
  obtain ⟨changes, hcourse⟩ := Workbench.exists_course seed config random commands
  have hcounted : bench.draft.added ≠ 0 → bench.draft.current ≠ none := hcourse.current_ne_none
  have hpath := Draft.exists_currentPath_iff hcounted
  have hunit := hconsistent.exists_currentUnit_iff.trans hpath
  have hother (hends : (Synth.chooseOtherUnit.run bench).1 ≠ .error .stalled) :
      (∃ path, (Synth.chooseOtherUnit.run bench).1 = .ok path) ↔
        2 ≤ bench.draft.size ∧ bench.draft.added ≠ 0 := by
    constructor
    · rintro ⟨path, hok⟩
      obtain ⟨hsize, current, hcurrent, -⟩ := Synth.chooseOtherUnit_eq_ok hok
      exact ⟨hsize, hpath.1 ⟨current, hcurrent⟩⟩
    · rintro ⟨hsize, hadded⟩
      obtain ⟨current, hcurrent⟩ := hpath.2 hadded
      exact (Synth.onlyStalls_chooseOtherUnit hsize hcurrent).exists_ok hends
  refine ⟨hpath, hunit, hother, ?_⟩
  constructor
  · intro hagree hfilled
    exact hpath.1 (hagree.currentPath.2 hfilled)
  · intro hfilled
    have hadded : bench.draft.added ≠ 0 ↔ bench.draft.units.isEmpty = false := by
      refine ⟨fun hadded => ?_, hfilled⟩
      exact Draft.isEmpty_units_eq_false_iff.2
        (mt hconsistent.current_eq_none_iff.2 (hcounted hadded))
    constructor
    case currentPath => exact hpath.trans hadded
    case currentUnit => exact hunit.trans hadded
    case otherUnit =>
      intro hends
      have hfilled' (hsize : 2 ≤ bench.draft.size) : bench.draft.added ≠ 0 :=
        hadded.2 (Draft.isEmpty_units_eq_false_iff.2 (by omega))
      exact (hother hends).trans ⟨And.left, fun hsize => ⟨hsize, hfilled' hsize⟩⟩
    case other_ne =>
      intro path hok
      obtain ⟨-, current, hcurrent, hmem, hne⟩ := Synth.chooseOtherUnit_eq_ok hok
      rw [(Draft.currentPath_eq_ok.1 hcurrent).1]
      exact ⟨hmem, fun he => hne (Option.some.inj he).symm⟩

/-- After one declaration there is a unit, but no current one is given out. -/
theorem not_accessorsAgree_declared :
    ¬((Workbench.start 0 .standard (Sampling.Script.mk [])).steps
      [.draft (.declare "a.sol")]).2.AccessorsAgree := by
  intro h
  obtain ⟨path, hpath⟩ := h.currentPath.2 rfl
  cases hpath

end SoliditySynth
