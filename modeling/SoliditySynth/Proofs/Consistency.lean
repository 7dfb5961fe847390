import SoliditySynth.Proofs.Histories

namespace SoliditySynth

namespace Draft

/-- The units and the current unit belong together. -/
structure Consistent (draft : Draft) : Prop where
  path_eq {path : String} {unit : SourceUnit} (h : draft.units.find? path = some unit) :
    unit.path = path
  current_eq_none_iff : draft.current = none ↔ draft.size = 0
  current_mem {path : String} (h : draft.current = some path) : path ∈ draft.units.keys
  not_self_import {path : String} {unit : SourceUnit} (h : draft.units.find? path = some unit) :
    path ∉ unit.imports

theorem size_ne_zero_of_mem {draft : Draft} {path : String} (h : path ∈ draft.units.keys) :
    draft.size ≠ 0 := by
  rw [size, ← OrderedMap.length_keys]
  exact Nat.ne_of_gt (List.length_pos_of_mem h)

theorem Consistent.empty : Draft.empty.Consistent where
  path_eq h := by cases h
  current_eq_none_iff := ⟨fun _ => rfl, fun _ => rfl⟩
  current_mem h := by cases h
  not_self_import h := by cases h

theorem Consistent.declare {draft : Draft} (h : draft.Consistent) (path : String) :
    (draft.declare path).Consistent where
  path_eq hfind := by
    rw [find?_declare] at hfind
    split at hfind
    · next he =>
      cases hfind
      exact he
    · exact h.path_eq hfind
  current_eq_none_iff := by
    have hsize := size_ne_zero_of_mem (mem_keys_declare draft path)
    constructor
    · intro hcurrent
      cases hcurrent
    · intro hzero
      exact absurd hzero hsize
  current_mem hcurrent := by
    cases hcurrent
    exact mem_keys_declare draft path
  not_self_import hfind := by
    rw [find?_declare] at hfind
    split at hfind
    · cases hfind
      exact List.not_mem_nil
    · exact h.not_self_import hfind

theorem Consistent.put {draft : Draft} {path : String} {unit : SourceUnit} (h : draft.Consistent)
    (hfind : draft.units.find? path = some unit) (command : UnitCommand) :
    (draft.put (unit.perform command).2).Consistent := by
  have hpath : (unit.perform command).2.path = path :=
    (unit.path_perform command).trans (h.path_eq hfind)
  have hkeys : (draft.put (unit.perform command).2).units.keys = draft.units.keys := by
    apply keys_put_of_mem
    rw [hpath]
    exact OrderedMap.mem_keys_of_find? hfind
  have hsize : (draft.put (unit.perform command).2).size = draft.size := by
    rw [size, ← OrderedMap.length_keys, hkeys, OrderedMap.length_keys, size]
  constructor
  case path_eq =>
    intro path' unit' hfind'
    rw [find?_put] at hfind'
    split at hfind'
    · next he =>
      cases hfind'
      exact he
    · exact h.path_eq hfind'
  case current_eq_none_iff =>
    rw [hsize]
    exact h.current_eq_none_iff
  case current_mem =>
    intro path' hcurrent
    rw [hkeys]
    exact h.current_mem hcurrent
  case not_self_import =>
    intro path' unit' hfind' hself
    rw [find?_put] at hfind'
    split at hfind'
    · next he =>
      cases hfind'
      rcases SourceUnit.mem_imports_perform hself with hold | ⟨-, hne⟩
      · rw [← he, hpath] at hold
        exact h.not_self_import hfind hold
      · exact hne (by rw [← he, SourceUnit.path_perform])
    · exact h.not_self_import hfind' hself

theorem Edited.consistent {draft draft' : Draft} {edit : Edit} (h : draft.Edited edit draft')
    (hdraft : draft.Consistent) : draft'.Consistent := by
  cases h with
  | reset => exact .empty
  | declare path => exact hdraft.declare path
  | add path =>
    have hdeclared := hdraft.declare path
    exact ⟨hdeclared.path_eq, hdeclared.current_eq_none_iff, hdeclared.current_mem,
      hdeclared.not_self_import⟩
  | unit command hfind => exact hdraft.put hfind command

theorem Course.consistent {last : Draft} {changes : List Change}
    (h : Draft.empty.Course changes last) : ∀ draft ∈ along .empty changes, draft.Consistent :=
  (h.keeps .empty fun change _ => change.edited.consistent).1

end Draft

def Edit.isAdd : Edit → Bool
  | .add _ => true
  | _ => false

/-- How many units have been added since the last reset. -/
def addedSinceReset (edits : List Edit) : Nat :=
  (edits.reverse.takeWhile (· ≠ .reset)).countP Edit.isAdd

theorem addedSinceReset_concat (edits : List Edit) (edit : Edit) :
    addedSinceReset (edits ++ [edit]) =
      if edit = .reset then 0 else addedSinceReset edits + if edit.isAdd then 1 else 0 := by
  cases edit <;> simp [addedSinceReset, Edit.isAdd, List.countP_cons]

namespace Draft

theorem Edited.added_eq {draft draft' : Draft} {edit : Edit} (h : draft.Edited edit draft') :
    draft'.added = if edit = .reset then 0 else draft.added + if edit.isAdd then 1 else 0 := by
  cases h <;> rfl

theorem Course.added_eq {last : Draft} {changes : List Change}
    (h : Draft.empty.Course changes last) :
    last.added = addedSinceReset (changes.map Change.edit) := by
  induction h with
  | nil => rfl
  | concat change _ ih =>
    rw [List.map_append, List.map_singleton, addedSinceReset_concat, ← ih]
    exact change.edited.added_eq

end Draft

namespace Synth

variable {σ α β : Type}

/-- Where the step fails, it is not for a look-up that finds nothing. -/
def Finds (m : Synth σ α) (bench : Workbench σ) : Prop :=
  ∀ fault, (m.run bench).1 = .error fault → fault.isMissingEntry = false

section

variable {m : Synth σ α} {k : α → Synth σ β} {bench : Workbench σ}

theorem finds_pure (a : α) : Finds (pure a : Synth σ α) bench := by
  intro fault h
  cases h

theorem finds_throw {fault : Fault} (h : fault.isMissingEntry = false) :
    Finds (throw fault : Synth σ α) bench := by
  intro fault' h'
  cases h'
  exact h

theorem finds_ofExcept {a : Except Fault α}
    (h : ∀ fault, a = .error fault → fault.isMissingEntry = false) : Finds (ofExcept a) bench := by
  intro fault hrun
  rw [run_ofExcept] at hrun
  exact h fault hrun

theorem Finds.bind (hm : Finds m bench)
    (hk : ∀ a next, m.run bench = (.ok a, next) → Finds (k a) next) : Finds (m >>= k) bench := by
  intro fault h
  rw [run_bind] at h
  cases hrun : m.run bench with
  | mk result next =>
    rw [hrun] at h
    cases result with
    | ok a => exact hk a next hrun fault h
    | error fault' =>
      obtain rfl : fault' = fault := Except.error.inj h
      exact hm fault' (by rw [hrun])

theorem Finds.guard {c : Prop} [Decidable c] {fault : Fault} {k : Unit → Synth σ α}
    (hfault : fault.isMissingEntry = false) (h : ¬c → Finds (k ()) bench) :
    Finds (if c then throw fault >>= k else k ()) bench := by
  split
  · apply (finds_throw hfault).bind
    intro a next hrun
    rw [run_throw] at hrun
    cases hrun
  · next hc => exact h hc

end

variable [Random.Sampler σ] {bench : Workbench σ}

theorem finds_pick (n : Nat) : Finds (pick n) bench := by
  apply Finds.guard rfl
  intro _ fault h
  simp only [run_bind, run_get] at h
  cases hdraw : Random.Sampler.draw? n bench.random with
  | none =>
    rw [hdraw] at h
    cases h
    rfl
  | some p =>
    rw [hdraw] at h
    cases h

theorem finds_choose {α : Type} (items : List α) : Finds (choose items) bench :=
  (finds_pick _).bind fun _ _ _ => finds_pure _

theorem finds_choosePath (paths : List String) : Finds (choosePath paths) bench :=
  Finds.guard rfl fun _ => finds_choose _

end Synth

theorem Draft.Consistent.currentUnit_eq_error {draft : Draft} (h : draft.Consistent) {fault : Fault}
    (hfault : draft.currentUnit = .error fault) : fault.isMissingEntry = false := by
  cases hcurrent : draft.current with
  | none =>
    simp only [currentUnit, currentPath, hcurrent] at hfault
    cases hfault
    rfl
  | some path =>
    by_cases hadded : draft.added = 0
    · simp only [currentUnit, currentPath, hcurrent, if_pos hadded] at hfault
      cases hfault
      rfl
    · obtain ⟨unit, hunit⟩ := OrderedMap.mem_keys_iff.1 (h.current_mem hcurrent)
      simp only [currentUnit, currentPath, hcurrent, if_neg hadded] at hfault
      change draft.unit path = .error fault at hfault
      rw [unit_eq_ok.2 hunit] at hfault
      cases hfault

namespace Synth

variable {σ : Type} {bench : Workbench σ}

theorem finds_draft : Finds draft bench := by
  intro fault h
  cases h

theorem finds_updateUnit (unit : SourceUnit) (text : String) :
    Finds (updateUnit unit >>= fun _ => pure text) bench := by
  intro fault h
  cases h

theorem finds_writeContract (h : bench.draft.Consistent) : Finds writeContract bench := by
  apply finds_draft.bind
  rintro draft bench' ⟨⟩
  apply (finds_ofExcept fun _ => h.currentUnit_eq_error).bind
  intro unit next _
  exact finds_updateUnit _ _

variable [Random.Sampler σ]

theorem finds_writeImport (h : bench.draft.Consistent) : Finds writeImport bench := by
  apply finds_draft.bind
  rintro draft bench' ⟨⟩
  apply Finds.guard rfl
  intro _
  apply (finds_ofExcept fun _ => h.currentUnit_eq_error).bind
  intro unit next _
  apply Finds.guard rfl
  intro _
  apply (finds_choosePath _).bind
  intro path next _
  apply (finds_ofExcept fun _ => SourceUnit.addImport_eq_error).bind
  intro unit' next _
  exact finds_updateUnit _ _

theorem finds_visit (h : bench.draft.Consistent) (gen : Kind → Synth σ String) {kind : Kind}
    (hkind : kind = .importDirective ∨ kind = .contract) : Finds (visit gen kind) bench := by
  rcases hkind with rfl | rfl
  · exact finds_writeImport h
  · exact finds_writeContract h

theorem finds_setUp {kind : Kind} (hkind : kind = .importDirective ∨ kind = .contract) :
    Finds (setUp kind) bench := by
  rcases hkind with rfl | rfl
  · intro fault h
    cases h
  · intro fault h
    cases h

theorem finds_generate (h : bench.draft.Consistent) {kind : Kind}
    (hkind : kind = .importDirective ∨ kind = .contract) : Finds (generate kind) bench := by
  apply (finds_setUp hkind).bind
  intro _ planned hplanned
  have hdraft := (quiet_setUp kind bench).1
  rw [hplanned] at hdraft
  rw [← hdraft] at h
  apply (finds_visit h _ hkind).bind
  intro text written _ fault hnote
  cases hnote

end Synth

theorem Workbench.consistent_steps {σ : Type} [Random.Sampler σ] (seed : Nat) (config : Config)
    (random : σ) (commands : List Command) :
    ((start seed config random).steps commands).2.draft.Consistent := by
  obtain ⟨changes, hcourse⟩ := exists_course seed config random commands
  exact hcourse.consistent _ hcourse.last_mem

end SoliditySynth
