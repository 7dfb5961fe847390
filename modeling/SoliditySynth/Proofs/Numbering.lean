import SoliditySynth.Proofs.Blueprint
import SoliditySynth.Proofs.Consistency

namespace SoliditySynth

theorem UnitPlan.earlierPaths_succ (config : Config) (number : Nat) :
    earlierPaths config (number + 1) = earlierPaths config number ++ [config.unitPath number] := by
  rw [earlierPaths, List.range_succ, List.map_append, List.map_singleton, earlierPaths]

namespace Draft

/-- The units are those with the first numbers, and the newest is the current one. -/
structure Numbered (config : Config) (draft : Draft) : Prop where
  keys : draft.units.keys = UnitPlan.earlierPaths config draft.added
  current : draft.current =
    if draft.added = 0 then none else some (config.unitPath (draft.added - 1))
  imports {number : Nat} {unit : SourceUnit} {path : String}
    (h : draft.units.find? (config.unitPath number) = some unit) (hpath : path ∈ unit.imports) :
    path ∈ UnitPlan.earlierPaths config number

def Imports (draft : Draft) (importer imported : String) : Prop :=
  ∃ unit, draft.units.find? importer = some unit ∧ imported ∈ unit.imports

def Acyclic (draft : Draft) : Prop := ∀ path, ¬Relation.TransGen draft.Imports path path

variable {config : Config} {draft : Draft}

theorem Numbered.empty : Draft.empty.Numbered config where
  keys := rfl
  current := rfl
  imports h := by cases h

theorem next_notMem (h : draft.units.keys = UnitPlan.earlierPaths config draft.added) :
    config.unitPath draft.added ∉ draft.units.keys := by
  rw [h]
  exact Blueprint.unitPath_notMem_earlierPaths config draft.added

theorem keys_add_next (h : draft.units.keys = UnitPlan.earlierPaths config draft.added) :
    (draft.add (config.unitPath draft.added)).units.keys =
      UnitPlan.earlierPaths config (draft.added + 1) := by
  rw [keys_add, if_neg (next_notMem h), h, UnitPlan.earlierPaths_succ]

theorem Numbered.size_eq (h : draft.Numbered config) : draft.size = draft.added := by
  rw [size, ← OrderedMap.length_keys, h.keys, UnitPlan.earlierPaths, List.length_map,
    List.length_range]

theorem Numbered.add (h : draft.Numbered config) :
    (draft.add (config.unitPath draft.added)).Numbered config := by
  constructor
  case keys => exact keys_add_next h.keys
  case current => rfl
  case imports =>
    intro number unit path hfind hpath
    change (draft.declare _).units.find? _ = _ at hfind
    rw [find?_declare] at hfind
    split at hfind
    · cases hfind
      cases hpath
    · exact h.imports hfind hpath

/-- An import is recorded in the newest unit, so what it imports comes before it. -/
theorem Numbered.mem_earlierPaths_of_current (h : draft.Numbered config) {number : Nat}
    (hcurrent : draft.current = some (config.unitPath number)) {path : String}
    (hpath : path ∈ draft.units.keys) (hne : path ≠ config.unitPath number) :
    path ∈ UnitPlan.earlierPaths config number := by
  rw [h.current] at hcurrent
  split at hcurrent
  · cases hcurrent
  · have hnumber := config.unitPath_injective (Option.some.inj hcurrent)
    rw [h.keys] at hpath
    obtain ⟨k, hk, rfl⟩ := UnitPlan.mem_earlierPaths.1 hpath
    have hk' : k ≠ number := fun he => hne (by rw [he])
    exact UnitPlan.mem_earlierPaths.2 ⟨k, by omega, rfl⟩

theorem Numbered.put (h : draft.Numbered config) {path : String} {unit : SourceUnit}
    (hfind : draft.units.find? path = some unit) (hpath : unit.path = path) {command : UnitCommand}
    (himport : ∀ imported, command = .addImport imported →
      draft.current = some path ∧ imported ∈ draft.units.keys) :
    (draft.put (unit.perform command).2).Numbered config := by
  subst hpath
  constructor
  case keys =>
    rw [keys_put_of_mem, h.keys]
    · rfl
    · rw [SourceUnit.path_perform]
      exact OrderedMap.mem_keys_of_find? hfind
  case current => exact h.current
  case imports =>
    intro number unit' imported hfind' himported
    rw [find?_put] at hfind'
    split at hfind'
    · next he =>
      cases hfind'
      rw [SourceUnit.path_perform] at he
      rcases SourceUnit.mem_imports_perform himported with hold | ⟨hcommand, hne⟩
      · exact h.imports (he ▸ hfind) hold
      · obtain ⟨hcurrent, hmem⟩ := himport imported hcommand
        rw [he] at hcurrent hne
        exact h.mem_earlierPaths_of_current hcurrent hmem hne
    · exact h.imports hfind' himported

end Draft

theorem Change.numbered {config : Config} {change : Change} (hgenerated : change.IsGenerated config)
    (hconsistent : change.before.Consistent) (h : change.before.Numbered config) :
    change.after.Numbered config := by
  obtain ⟨before, edit, after, edited⟩ := change
  cases edited with
  | reset => exact .empty
  | declare path => cases hgenerated
  | add path =>
    obtain rfl : path = config.unitPath before.added := hgenerated
    exact h.add
  | unit command hfind =>
    apply h.put hfind (hconsistent.path_eq hfind)
    rintro imported rfl
    exact hgenerated

namespace Draft

variable {config : Config} {draft : Draft}

theorem Numbered.exists_of_imports (h : draft.Numbered config) {number : Nat} {path : String}
    (himports : draft.Imports (config.unitPath number) path) :
    ∃ k < number, path = config.unitPath k := by
  obtain ⟨unit, hfind, hpath⟩ := himports
  exact UnitPlan.mem_earlierPaths.1 (h.imports hfind hpath)

theorem Numbered.exists_of_transGen (h : draft.Numbered config) {path path' : String}
    (hpaths : Relation.TransGen draft.Imports path path') :
    ∃ m k, path = config.unitPath m ∧ path' = config.unitPath k ∧ k < m := by
  induction hpaths with
  | single himports =>
    obtain ⟨unit, hfind, -⟩ := id himports
    have hmem := OrderedMap.mem_keys_of_find? hfind
    rw [h.keys] at hmem
    obtain ⟨m, -, rfl⟩ := UnitPlan.mem_earlierPaths.1 hmem
    obtain ⟨k, hk, rfl⟩ := h.exists_of_imports himports
    exact ⟨m, k, rfl, rfl, hk⟩
  | tail _ himports ih =>
    obtain ⟨m, k, rfl, rfl, hk⟩ := ih
    obtain ⟨j, hj, rfl⟩ := h.exists_of_imports himports
    exact ⟨m, j, rfl, rfl, Nat.lt_trans hj hk⟩

theorem Numbered.acyclic (h : draft.Numbered config) : draft.Acyclic := by
  intro path hcycle
  obtain ⟨m, k, rfl, he, hk⟩ := h.exists_of_transGen hcycle
  exact absurd (config.unitPath_injective he) (Nat.ne_of_gt hk)

end Draft

theorem Change.adds_next {config : Config} {change : Change} {path : String}
    (hgenerated : change.IsGenerated config) (h : change.before.Numbered config)
    (hedit : change.edit = .add path) :
    path = config.unitPath change.before.added ∧ path ∉ change.before.units.keys ∧
      ∀ other ≠ path, change.after.units.find? other = change.before.units.find? other := by
  obtain ⟨before, edit, after, edited⟩ := change
  obtain rfl : edit = .add path := hedit
  obtain rfl : path = config.unitPath before.added := hgenerated
  cases edited
  refine ⟨rfl, Draft.next_notMem h.keys, fun other hother => ?_⟩
  change (before.declare _).units.find? other = _
  rw [Draft.find?_declare, if_neg (Ne.symm hother)]

/-- Where nothing is done by hand, units are numbered all along a session and imports never run in a
circle. A unit that is added is the next one, is new, and leaves the others as they are. -/
theorem session_numbered {σ : Type} [Random.Sampler σ] (seed : Nat) (config : Config) (random : σ)
    (commands : List Command) (hcommands : ∀ command ∈ commands, command.isByHand = false) :
    let start := Workbench.start seed config random
    ∃ changes, start.History commands changes ∧
      (start.steps commands).2.draft ∈ Draft.empty.along changes ∧
      (∀ draft ∈ Draft.empty.along changes,
        draft.Numbered config ∧ draft.size = draft.added ∧ draft.Acyclic) ∧
      ∀ change ∈ changes, ∀ path, change.edit = .add path →
        path = config.unitPath change.before.added ∧ path ∉ change.before.units.keys ∧
          ∀ other ≠ path, change.after.units.find? other = change.before.units.find? other := by
  intro start
  have hgenerated (command : Command) (hmem : command ∈ commands) :
      Synth.MakesOnly config (Change.IsGenerated config) (Synth.perform (σ := σ) command) :=
    Synth.perform_makesOnly (hcommands command hmem)
  obtain ⟨changes, hchanges, hall⟩ := start.exists_history hgenerated rfl
  have hcourse : Draft.empty.Course changes (start.steps commands).2.draft := hchanges.course
  obtain ⟨halong, hbefore⟩ := hcourse.keeps
    (I := fun draft => draft.Consistent ∧ draft.Numbered config) ⟨.empty, .empty⟩
    fun change hmem h => ⟨change.edited.consistent h.1, Change.numbered (hall change hmem) h.1 h.2⟩
  refine ⟨changes, hchanges, hcourse.last_mem, ?_, ?_⟩
  · intro draft hdraft
    have hnumbered := (halong draft hdraft).2
    exact ⟨hnumbered, hnumbered.size_eq, hnumbered.acyclic⟩
  · intro change hmem path hedit
    exact Change.adds_next (hall change hmem) (hbefore change hmem).2 hedit

def pairingSteps : List Command :=
  [.draft .addUnit, .draft .addUnit, .kind .importDirective .generate,
    .kind .importDirective .generate, .draft (.unit none .nameContract)]

def pairingDraft : Draft :=
  ((Workbench.start 0 .standard (Sampling.Script.mk [0])).steps pairingSteps).2.draft

theorem session_numbered_pair :
    (∀ command ∈ pairingSteps, command.isByHand = false) ∧
      pairingDraft.Imports "su1.sol" "su0.sol" ∧ pairingDraft.Numbered .standard ∧
      pairingDraft.Acyclic := by
  have hsteps : ∀ command ∈ pairingSteps, command.isByHand = false := by decide
  have hunit : pairingDraft.units.find? "su1.sol" = some ⟨"su1.sol", ["su0.sol"], 1⟩ := by
    decide +kernel
  obtain ⟨changes, -, hlast, halong, -⟩ := session_numbered 0 .standard (Sampling.Script.mk [0])
    pairingSteps hsteps
  obtain ⟨hnumbered, -, hacyclic⟩ := halong pairingDraft hlast
  exact ⟨hsteps, ⟨_, hunit, List.mem_cons_self⟩, hnumbered, hacyclic⟩

end SoliditySynth
