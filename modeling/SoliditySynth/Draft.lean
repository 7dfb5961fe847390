import SoliditySynth.Config
import SoliditySynth.OrderedMap
import SoliditySynth.SourceUnit

namespace SoliditySynth

structure Draft where
  units : OrderedMap String SourceUnit := .empty
  current : Option String := none
  /-- The number of the next unit. -/
  added : Nat := 0
deriving DecidableEq

namespace Draft

def empty : Draft := {}

def size (draft : Draft) : Nat := draft.units.size

def paths (draft : Draft) : List String := sorted draft.units.keys

def put (draft : Draft) (unit : SourceUnit) : Draft :=
  { draft with units := draft.units.insert unit.path unit }

@[simp] theorem find?_put (draft : Draft) (unit : SourceUnit) (path : String) :
    (draft.put unit).units.find? path =
      if unit.path = path then some unit else draft.units.find? path :=
  OrderedMap.find?_insert ..

theorem keys_put_of_mem {draft : Draft} {unit : SourceUnit} (h : unit.path ∈ draft.units.keys) :
    (draft.put unit).units.keys = draft.units.keys := by
  rw [put, OrderedMap.keys_insert, if_pos h]

@[simp] theorem mem_paths {draft : Draft} {path : String} :
    path ∈ draft.paths ↔ path ∈ draft.units.keys :=
  mem_sorted

@[simp] theorem length_paths (draft : Draft) : draft.paths.length = draft.size := by
  simp [paths, size]

def declare (draft : Draft) (path : String) : Draft :=
  { draft.put { path } with current := some path }

def add (draft : Draft) (path : String) : Draft :=
  { draft.declare path with added := draft.added + 1 }

theorem find?_declare (draft : Draft) (path path' : String) :
    (draft.declare path).units.find? path' =
      if path = path' then some { path } else draft.units.find? path' :=
  find?_put draft { path } path'

theorem mem_keys_declare (draft : Draft) (path : String) :
    path ∈ (draft.declare path).units.keys :=
  OrderedMap.mem_keys_of_find? (OrderedMap.find?_insert_self ..)

theorem keys_add (draft : Draft) (path : String) :
    (draft.add path).units.keys =
      if path ∈ draft.units.keys then draft.units.keys else draft.units.keys ++ [path] :=
  OrderedMap.keys_insert ..

def nextPath (draft : Draft) (config : Config) : String := config.unitPath draft.added

def unit (draft : Draft) (path : String) : Except Fault SourceUnit :=
  match draft.units.find? path with
  | some unit => .ok unit
  | none => .error (.unknownUnit path)

theorem unit_eq_ok {draft : Draft} {path : String} {unit : SourceUnit} :
    draft.unit path = .ok unit ↔ draft.units.find? path = some unit := by
  rw [Draft.unit]
  cases draft.units.find? path with
  | none => simp
  | some unit' => simp

/-- The unit that is being written. There is none before the first unit has been counted. -/
def currentPath (draft : Draft) : Except Fault String :=
  match draft.current with
  | some path => if draft.added = 0 then .error .noUnitYet else .ok path
  | none => .error .noUnitYet

def currentUnit (draft : Draft) : Except Fault SourceUnit := do
  draft.unit (← draft.currentPath)

theorem currentUnit_eq_ok {draft : Draft} {unit : SourceUnit} (h : draft.currentUnit = .ok unit) :
    ∃ path, draft.current = some path ∧ draft.units.find? path = some unit := by
  cases hcurrent : draft.current with
  | none =>
    simp only [currentUnit, currentPath, hcurrent] at h
    cases h
  | some path =>
    by_cases hadded : draft.added = 0
    · simp only [currentUnit, currentPath, hcurrent, if_pos hadded] at h
      cases h
    · simp only [currentUnit, currentPath, hcurrent, if_neg hadded] at h
      exact ⟨path, rfl, unit_eq_ok.1 h⟩

def importable (draft : Draft) (unit : SourceUnit) : List String :=
  draft.paths.filter fun path => path ≠ unit.path ∧ path ∉ unit.imports

theorem mem_keys_of_mem_importable {draft : Draft} {unit : SourceUnit} {path : String}
    (h : path ∈ draft.importable unit) : path ∈ draft.units.keys :=
  mem_paths.1 (List.mem_filter.1 h).1

def describe (draft : Draft) : String :=
  let current := draft.current.getD "None"
  let units := draft.paths.filterMap draft.units.find?
  Text.joinLines (s!"{draft.size} source unit(s), current: {current}" ::
    units.map fun unit => "  " ++ unit.describe)

end Draft

end SoliditySynth
