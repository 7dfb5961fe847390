import SoliditySynth.Fault
import SoliditySynth.Path
import SoliditySynth.Sorting

namespace SoliditySynth

/-- What a unit has imported, in the order in which it did, and how many contracts it holds. -/
structure SourceUnit where
  path : String
  imports : List String := []
  contracts : Nat := 0
deriving DecidableEq

namespace SourceUnit

/-- A unit imports neither itself nor any unit twice. -/
def addImport (unit : SourceUnit) (path : String) : Except Fault SourceUnit :=
  if path = unit.path then .error (.selfImport unit.path)
  else if path ∈ unit.imports then .error (.repeatedImport path unit.path)
  else .ok { unit with imports := unit.imports ++ [path] }

theorem addImport_eq_ok {unit unit' : SourceUnit} {path : String} :
    unit.addImport path = .ok unit' ↔
      path ≠ unit.path ∧ path ∉ unit.imports ∧
        { unit with imports := unit.imports ++ [path] } = unit' := by
  rw [addImport]
  split
  · next h => simp [h]
  · next h =>
    split
    · next h' => simp [h']
    · next h' => simp [h, h']

theorem addImport_eq_error {unit : SourceUnit} {path : String} {fault : Fault}
    (h : unit.addImport path = .error fault) : fault.isMissingEntry = false := by
  rw [addImport] at h
  split at h
  · cases h
    rfl
  · split at h
    · cases h
      rfl
    · cases h

/-- The name of the next contract: the stem of the unit's path and a number that counts up. -/
def contractName (unit : SourceUnit) : String :=
  "C_" ++ (Path.ofText unit.path).stem ++ "_" ++ toString unit.contracts

def addContract (unit : SourceUnit) : SourceUnit := { unit with contracts := unit.contracts + 1 }

@[simp] theorem path_addContract (unit : SourceUnit) : unit.addContract.path = unit.path := rfl

/-- The imports in sorted order; a dash stands for an empty list. -/
def importList (unit : SourceUnit) : String :=
  let list := ", ".intercalate (sorted unit.imports)
  if list = "" then "-" else list

def describe (unit : SourceUnit) : String :=
  s!"{unit.path}: imports [{unit.importList}], contracts {unit.contracts}"

end SourceUnit

end SoliditySynth
