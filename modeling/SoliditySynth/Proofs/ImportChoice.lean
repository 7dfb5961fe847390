import SoliditySynth.Proofs.Recipe

namespace SoliditySynth

def SourceUnit.importing (unit : SourceUnit) (paths : List String) : SourceUnit :=
  { unit with imports := unit.imports ++ paths }

@[simp] theorem SourceUnit.path_importing (unit : SourceUnit) (paths : List String) :
    (unit.importing paths).path = unit.path := rfl

theorem SourceUnit.importing_nil (unit : SourceUnit) : unit.importing [] = unit := by
  simp [importing]

theorem SourceUnit.importing_importing (unit : SourceUnit) (paths paths' : List String) :
    (unit.importing paths).importing paths' = unit.importing (paths ++ paths') := by
  simp [importing]

namespace Draft

/-- The unit is the current one, and it is stored under its own path. -/
structure IsWriting (draft : Draft) (unit : SourceUnit) : Prop where
  current : draft.current = some unit.path
  counted : draft.added ≠ 0
  stored : draft.units.find? unit.path = some unit

variable {draft : Draft} {unit unit' : SourceUnit}

theorem IsWriting.currentUnit (h : draft.IsWriting unit) : draft.currentUnit = .ok unit := by
  simp only [Draft.currentUnit, currentPath, h.current, if_neg h.counted]
  change draft.unit unit.path = .ok unit
  rw [Draft.unit, h.stored]

theorem isWriting_add (draft : Draft) (path : String) : (draft.add path).IsWriting { path } where
  current := rfl
  counted := Nat.succ_ne_zero _
  stored := OrderedMap.find?_insert_self ..

theorem IsWriting.put (h : draft.IsWriting unit) (hp : unit'.path = unit.path) :
    (draft.put unit').IsWriting unit' where
  current := by rw [hp]; exact h.current
  counted := h.counted
  stored := by rw [find?_put, if_pos rfl]

theorem IsWriting.put_self (h : draft.IsWriting unit) : draft.put unit = draft := by
  rw [Draft.put, OrderedMap.insert_of_find? h.stored]

theorem put_put (draft : Draft) (hp : unit'.path = unit.path) :
    (draft.put unit).put unit' = draft.put unit' := by
  simp only [Draft.put, hp, OrderedMap.insert_insert]

theorem put_importing (draft : Draft) (unit : SourceUnit) (paths paths' : List String) :
    (draft.put (unit.importing paths)).put ((unit.importing paths).importing paths') =
      draft.put (unit.importing (paths ++ paths')) := by
  rw [SourceUnit.importing_importing, put_put]
  rfl

theorem IsWriting.keys_put (h : draft.IsWriting unit) (hp : unit'.path = unit.path) :
    (draft.put unit').units.keys = draft.units.keys := by
  apply keys_put_of_mem
  rw [hp]
  exact OrderedMap.mem_keys_of_find? h.stored

theorem IsWriting.size_put (h : draft.IsWriting unit) (hp : unit'.path = unit.path) :
    (draft.put unit').size = draft.size := by
  have hk := congrArg List.length (h.keys_put hp)
  rwa [OrderedMap.length_keys, OrderedMap.length_keys] at hk

theorem sorted_importable (draft : Draft) (unit : SourceUnit) :
    sorted (draft.importable unit) = draft.importable unit :=
  sorted_of_pairwise ((pairwise_sorted _).filter _)

theorem nodup_paths (draft : Draft) : draft.paths.Nodup := by
  have hp : draft.paths.Perm draft.units.keys := sorted_perm _
  exact hp.nodup_iff.2 draft.units.nodup_keys

theorem nodup_importable (draft : Draft) (unit : SourceUnit) : (draft.importable unit).Nodup :=
  draft.nodup_paths.filter _

theorem IsWriting.length_importable (h : draft.IsWriting unit) (hfresh : unit.imports = []) :
    (draft.importable unit).length = draft.size - 1 := by
  have hmem : unit.path ∈ draft.paths := mem_paths.2 (OrderedMap.mem_keys_of_find? h.stored)
  have herase : draft.importable unit = draft.paths.erase unit.path := by
    rw [draft.nodup_paths.erase_eq_filter, importable, hfresh]
    apply List.filter_congr
    intro path _
    grind
  rw [herase, List.length_erase_of_mem hmem, length_paths]

theorem IsWriting.importable_put (h : draft.IsWriting unit) (path : String) :
    (draft.put (unit.importing [path])).importable (unit.importing [path]) =
      (draft.importable unit).filter (· != path) := by
  have hpaths : (draft.put (unit.importing [path])).paths = draft.paths := by
    rw [paths, h.keys_put (unit.path_importing [path]), paths]
  simp only [importable, hpaths, List.filter_filter]
  apply List.filter_congr
  intro other _
  simp only [SourceUnit.importing, List.mem_append, List.mem_singleton]
  grind

theorem IsWriting.length_importable_put (h : draft.IsWriting unit) {path : String}
    (hmem : path ∈ draft.importable unit) :
    ((draft.put (unit.importing [path])).importable (unit.importing [path])).length =
      (draft.importable unit).length - 1 := by
  rw [h.importable_put, ← (nodup_importable draft unit).erase_eq_filter,
    List.length_erase_of_mem hmem]

theorem addImport_of_mem_importable {path : String} (h : path ∈ draft.importable unit) :
    unit.addImport path = .ok (unit.importing [path]) := by
  simp only [importable, List.mem_filter, decide_eq_true_eq] at h
  rw [SourceUnit.addImport, if_neg h.2.1, if_neg h.2.2]
  rfl

end Draft

def importDirective (path : String) : String := "import \"" ++ path ++ "\";"

namespace Recipe

variable {draft : Draft} {unit : SourceUnit}

theorem run_importLine (h : draft.IsWriting unit) (hsize : 1 < draft.size)
    (hne : draft.importable unit ≠ []) :
    importLine.run draft = Sampling.choose (draft.importable unit) >>= fun path =>
      pure (.ok (importDirective path), draft.put (unit.importing [path])) := by
  have hsize' : ¬draft.size ≤ 1 := by omega
  simp only [importLine, run_bind, run_get, pure_bind, andThen_ok, if_neg hsize', h.currentUnit,
    ofExcept, if_neg hne, choosePath_eq_draw hne, run_draw,
    Draft.sorted_importable, bind_assoc]
  apply Sampling.bind_congr
  intro path hpath
  rw [Draft.addImport_of_mem_importable (Sampling.reaches_choose.1 hpath)]
  rfl

/-- Several imports in a row choose distinct units, none of which was imported before. -/
theorem run_collect_importLine {n : Nat} (h : draft.IsWriting unit) (hsize : 1 < draft.size)
    (hn : n ≤ (draft.importable unit).length) :
    (collect importLine n).run draft =
      Sampling.chooseDistinct n (draft.importable unit) >>= fun paths =>
        pure (.ok (paths.map importDirective), draft.put (unit.importing paths)) := by
  -- The draft and the unit change with each import, what can be imported loses what was chosen.
  induction n generalizing draft unit with
  | zero => simp [collect, Sampling.chooseDistinct, SourceUnit.importing_nil, h.put_self]
  | succ n ih =>
    have hne : draft.importable unit ≠ [] := List.ne_nil_of_length_pos (by omega)
    simp only [collect, Sampling.chooseDistinct, run_bind, run_importLine h hsize hne, bind_assoc,
      pure_bind, andThen_ok]
    apply Sampling.bind_congr
    intro path hpath
    have h' := h.put (unit.path_importing [path])
    have hsize' := h.size_put (unit.path_importing [path])
    have hlen := h.length_importable_put (Sampling.reaches_choose.1 hpath)
    rw [ih h' (by omega) (by omega), h.importable_put]
    simp only [bind_assoc, pure_bind, andThen_ok, run_pure, Draft.put_importing, List.map_cons,
      List.singleton_append]

end Recipe

end SoliditySynth
