import Mathlib.Data.List.Basic
import SoliditySynth.Session

namespace SoliditySynth

/-- Two answers in the relation `Q`, or the same fault twice. -/
inductive SameAnswer {α β : Type} (Q : α → β → Prop) : Except Fault α → Except Fault β → Prop
  | ok {a : α} {b : β} (h : Q a b) : SameAnswer Q (.ok a) (.ok b)
  | error (fault : Fault) : SameAnswer Q (.error fault) (.error fault)

theorem SameAnswer.eq {α : Type} {a b : Except Fault α} (h : SameAnswer (· = ·) a b) : a = b := by
  cases h with
  | ok h => rw [h]
  | error fault => rfl

theorem SameAnswer.refl {α : Type} (a : Except Fault α) : SameAnswer (· = ·) a a := by
  cases a with
  | ok a => exact .ok rfl
  | error fault => exact .error fault

namespace SourceUnit

structure Alike (unit unit' : SourceUnit) : Prop where
  path : unit.path = unit'.path
  imports : unit.imports.Perm unit'.imports
  contracts : unit.contracts = unit'.contracts

variable {unit unit' : SourceUnit}

theorem Alike.refl (unit : SourceUnit) : unit.Alike unit := ⟨rfl, .refl _, rfl⟩

theorem Alike.contractName (h : unit.Alike unit') : unit.contractName = unit'.contractName := by
  rw [SourceUnit.contractName, SourceUnit.contractName, h.path, h.contracts]

theorem Alike.addContract (h : unit.Alike unit') : unit.addContract.Alike unit'.addContract :=
  ⟨h.path, h.imports, congrArg (· + 1) h.contracts⟩

theorem Alike.describe (h : unit.Alike unit') : unit.describe = unit'.describe := by
  have hlist : unit.importList = unit'.importList := by
    rw [importList, importList, sorted_eq_of_perm h.imports]
  rw [SourceUnit.describe, SourceUnit.describe, h.path, h.contracts, hlist]

theorem Alike.addImport (h : unit.Alike unit') (path : String) :
    SameAnswer Alike (unit.addImport path) (unit'.addImport path) := by
  rw [SourceUnit.addImport, SourceUnit.addImport, h.path]
  split
  · exact .error _
  · by_cases hmem : path ∈ unit.imports
    · rw [if_pos hmem, if_pos (h.imports.mem_iff.1 hmem)]
      exact .error _
    · rw [if_neg hmem, if_neg (mt h.imports.mem_iff.2 hmem)]
      exact .ok ⟨rfl, h.imports.append_right [path], h.contracts⟩

theorem Alike.perform (h : unit.Alike unit') (command : UnitCommand) :
    (unit.perform command).1 = (unit'.perform command).1 ∧
      (unit.perform command).2.Alike (unit'.perform command).2 := by
  cases command with
  | addImport path =>
    have hadd := h.addImport path
    rw [SourceUnit.perform, SourceUnit.perform]
    revert hadd
    generalize unit.addImport path = result
    generalize unit'.addImport path = result'
    intro hadd
    cases hadd with
    | ok hadded => exact ⟨rfl, hadded⟩
    | error fault => exact ⟨rfl, h⟩
  | isImported path =>
    have hmem : path ∈ unit.imports ↔ path ∈ unit'.imports := h.imports.mem_iff
    refine ⟨?_, h⟩
    simp only [SourceUnit.perform, hmem]
  | imports =>
    refine ⟨?_, h⟩
    rw [SourceUnit.perform, SourceUnit.perform, sorted_eq_of_perm h.imports]
  | nameContract =>
    refine ⟨?_, h.addContract⟩
    rw [SourceUnit.perform, SourceUnit.perform, h.contractName]
  | describe =>
    refine ⟨?_, h⟩
    rw [SourceUnit.perform, SourceUnit.perform, h.describe]

end SourceUnit

namespace Draft

structure Alike (draft draft' : Draft) : Prop where
  units (path : String) :
    Option.Rel SourceUnit.Alike (draft.units.find? path) (draft'.units.find? path)
  current : draft.current = draft'.current
  added : draft.added = draft'.added

variable {draft draft' : Draft}

theorem Alike.find?_cases (h : draft.Alike draft') (path : String) :
    (draft.units.find? path = none ∧ draft'.units.find? path = none) ∨
      ∃ unit unit', draft.units.find? path = some unit ∧ draft'.units.find? path = some unit' ∧
        unit.Alike unit' := by
  have hunits := h.units path
  revert hunits
  generalize draft.units.find? path = found
  generalize draft'.units.find? path = found'
  intro hunits
  cases hunits with
  | some hunit => exact .inr ⟨_, _, rfl, rfl, hunit⟩
  | none => exact .inl ⟨rfl, rfl⟩

theorem Alike.empty : Draft.empty.Alike .empty := ⟨fun _ => .none, rfl, rfl⟩

theorem Alike.put {unit unit' : SourceUnit} (h : draft.Alike draft') (hunit : unit.Alike unit') :
    (draft.put unit).Alike (draft'.put unit') where
  units path := by
    rw [find?_put, find?_put, hunit.path]
    split
    · exact .some hunit
    · exact h.units path
  current := h.current
  added := h.added

theorem Alike.declare (h : draft.Alike draft') (path : String) :
    (draft.declare path).Alike (draft'.declare path) :=
  ⟨(h.put (.refl { path })).units, rfl, h.added⟩

theorem Alike.add (h : draft.Alike draft') (path : String) :
    (draft.add path).Alike (draft'.add path) :=
  ⟨(h.declare path).units, rfl, congrArg (· + 1) h.added⟩

theorem Alike.mem_keys_iff (h : draft.Alike draft') {path : String} :
    path ∈ draft.units.keys ↔ path ∈ draft'.units.keys := by
  rw [OrderedMap.mem_keys_iff, OrderedMap.mem_keys_iff]
  obtain ⟨hnone, hnone'⟩ | ⟨unit, unit', hfind, hfind', -⟩ := h.find?_cases path
  · simp [hnone, hnone']
  · simp [hfind, hfind']

theorem Alike.keys_perm (h : draft.Alike draft') : draft.units.keys.Perm draft'.units.keys :=
  (List.perm_ext_iff_of_nodup draft.units.nodup_keys draft'.units.nodup_keys).2
    fun _ => h.mem_keys_iff

theorem Alike.paths (h : draft.Alike draft') : draft.paths = draft'.paths :=
  sorted_eq_of_perm h.keys_perm

theorem Alike.size (h : draft.Alike draft') : draft.size = draft'.size := by
  rw [← length_paths, h.paths, length_paths]

theorem Alike.isEmpty (h : draft.Alike draft') : draft.units.isEmpty = draft'.units.isEmpty := by
  have hsize : draft.units.entries.length = draft'.units.entries.length := h.size
  rw [OrderedMap.isEmpty, OrderedMap.isEmpty, Bool.eq_iff_iff, List.isEmpty_iff_length_eq_zero,
    List.isEmpty_iff_length_eq_zero, hsize]

theorem Alike.nextPath (h : draft.Alike draft') (config : Config) :
    draft.nextPath config = draft'.nextPath config := by
  rw [Draft.nextPath, Draft.nextPath, h.added]

theorem Alike.currentPath (h : draft.Alike draft') : draft.currentPath = draft'.currentPath := by
  rw [Draft.currentPath, Draft.currentPath, h.current, h.added]

theorem Alike.unit (h : draft.Alike draft') (path : String) :
    SameAnswer SourceUnit.Alike (draft.unit path) (draft'.unit path) := by
  rw [Draft.unit, Draft.unit]
  obtain ⟨hnone, hnone'⟩ | ⟨unit, unit', hfind, hfind', hunit⟩ := h.find?_cases path
  · rw [hnone, hnone']
    exact .error _
  · rw [hfind, hfind']
    exact .ok hunit

theorem Alike.currentUnit (h : draft.Alike draft') :
    SameAnswer SourceUnit.Alike draft.currentUnit draft'.currentUnit := by
  rw [Draft.currentUnit, Draft.currentUnit, h.currentPath]
  cases draft'.currentPath with
  | ok path => exact h.unit path
  | error fault => exact .error fault

theorem Alike.importable {unit unit' : SourceUnit} (h : draft.Alike draft')
    (hunit : unit.Alike unit') : draft.importable unit = draft'.importable unit' := by
  rw [Draft.importable, Draft.importable, h.paths]
  apply List.filter_congr
  intro path _
  have hmem : path ∈ unit.imports ↔ path ∈ unit'.imports := hunit.imports.mem_iff
  simp only [hunit.path, hmem]

theorem Alike.describe (h : draft.Alike draft') : draft.describe = draft'.describe := by
  have hunits : (draft.paths.filterMap draft.units.find?).map SourceUnit.describe =
      (draft'.paths.filterMap draft'.units.find?).map SourceUnit.describe := by
    rw [List.map_filterMap, List.map_filterMap, h.paths]
    apply List.filterMap_congr
    intro path _
    obtain ⟨hnone, hnone'⟩ | ⟨unit, unit', hfind, hfind', hunit⟩ := h.find?_cases path
    · rw [hnone, hnone']
    · rw [hfind, hfind', Option.map_some, Option.map_some, hunit.describe]
  have hlines := congrArg (List.map ("  " ++ ·)) hunits
  rw [List.map_map, List.map_map] at hlines
  rw [Draft.describe, Draft.describe, h.size, h.current]
  exact congrArg (fun lines => Text.joinLines (_ :: lines)) hlines

end Draft

/-- Generators that agree in all that generation reads, but for the order in their drafts. Seeds and
logs are never read. -/
structure Workbench.Alike {σ : Type} (bench bench' : Workbench σ) : Prop where
  config : bench.config = bench'.config
  random : bench.random = bench'.random
  draft : bench.draft.Alike bench'.draft
  registered : bench.registered = bench'.registered
  children : bench.children = bench'.children

end SoliditySynth
