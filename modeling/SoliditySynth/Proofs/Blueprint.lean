import Mathlib.Data.List.Nodup
import SoliditySynth.Proofs.ImportChoice

namespace SoliditySynth

structure UnitPlan where
  generic : String
  abi : String
  imports : List String
deriving DecidableEq

namespace UnitPlan

/-- What a unit holds below its header. -/
def body (config : Config) (number : Nat) (plan : UnitPlan) : String :=
  plan.generic ++ "\n" ++ plan.abi ++ "\n" ++
    String.join (plan.imports.map fun path => "import \"" ++ path ++ "\";\n") ++
    "contract C_" ++ (Path.ofText (config.unitPath number)).stem ++ "_0 \x7b\x7d"

def text (config : Config) (number : Nat) (plan : UnitPlan) : String :=
  "==== Source: " ++ config.unitPath number ++ " ====\n" ++ plan.body config number ++ "\n"

def unit (config : Config) (number : Nat) (plan : UnitPlan) : SourceUnit :=
  ⟨config.unitPath number, plan.imports, 1⟩

def earlierPaths (config : Config) (number : Nat) : List String :=
  (List.range number).map config.unitPath

theorem mem_earlierPaths {config : Config} {number : Nat} {path : String} :
    path ∈ earlierPaths config number ↔ ∃ k < number, path = config.unitPath k := by
  simp only [earlierPaths, List.mem_map, List.mem_range, eq_comm]

theorem map_fst_mapIdx {α β : Type} (config : Config) (f : Nat → α → β) (as : List α) :
    (as.mapIdx fun i a => (config.unitPath i, f i a)).map Prod.fst =
      earlierPaths config as.length := by
  apply List.ext_getElem
  · simp [earlierPaths]
  · intro i _ _
    simp [earlierPaths]

/-- Draws imports for a unit, each from those earlier units, in sorted order, that it has not yet
imported. -/
def decodeImports (config : Config) (number : Nat) : Nat → List String → Sampling (List String)
  | 0, imported => return imported
  | count + 1, imported => do
    let place ← Sampling.oneTo (number - imported.length)
    let left := (sorted (earlierPaths config number)).filter (· ∉ imported)
    decodeImports config number count (imported ++ [left.getD (place - 1) ""])

/-- Draws how many imports a unit has that has the given number of other units beside it. -/
def decodeCount (config : Config) (number : Nat) : Sampling Nat :=
  if number = 0 then return 0 else return min (← Sampling.oneTo config.maxImports.toNat) number

theorem reaches_decodeCount {config : Config} {number n : Nat} :
    (decodeCount config number).Reaches n ↔
      if number = 0 then n = 0 else 1 ≤ n ∧ n ≤ min config.maxImports.toNat number := by
  rw [decodeCount]
  split
  · exact eq_comm
  · simp only [Sampling.reaches_bind, Sampling.reaches_oneTo, Sampling.reaches_pure]
    constructor
    · rintro ⟨k, hk, rfl⟩
      omega
    · intro hn
      exact ⟨n, by omega, by omega⟩

theorem le_of_reaches_decodeCount {config : Config} {number n : Nat}
    (h : (decodeCount config number).Reaches n) : n ≤ number := by
  rw [reaches_decodeCount] at h
  split at h <;> omega

/-- Draws the plan of a unit: how many imports, the two pragmas, and then the imports. -/
def decode (config : Config) (number : Nat) : Sampling UnitPlan := do
  let count ← decodeCount config number
  let generic ← Sampling.choose config.genericPragmas
  let abi ← Sampling.choose config.abiPragmas
  let imports ← decodeImports config number count []
  return ⟨generic, abi, imports⟩

end UnitPlan

abbrev Blueprint := List UnitPlan

namespace Blueprint

def text (config : Config) (blueprint : Blueprint) : String :=
  "\n".intercalate (blueprint.mapIdx (UnitPlan.text config))

def entries (config : Config) (blueprint : Blueprint) : List (String × SourceUnit) :=
  blueprint.mapIdx fun number plan => (config.unitPath number, plan.unit config number)

/-- Draws a blueprint: how many units, and then their plans. -/
def decode (config : Config) : Sampling Blueprint := do
  let count ← Sampling.oneTo config.maxUnits.toNat
  (List.range count).mapM (UnitPlan.decode config)

def pair : Blueprint :=
  [⟨"// SPDX-License-Identifier: GPL-3.0", "pragma abicoder v2;", []⟩,
    ⟨"pragma solidity >= 0.0.0;", "pragma abicoder v1;", ["su0.sol"]⟩]

theorem run_decode_pair :
    (decode .standard).run (Sampling.Script.mk [1, 0, 1, 1, 1, 0, 0]) = some (pair, ⟨[]⟩) := by
  decide +kernel

example : pair.text .standard =
    "==== Source: su0.sol ====\n// SPDX-License-Identifier: GPL-3.0\npragma abicoder v2;\n" ++
    "contract C_su0_0 \x7b\x7d\n\n==== Source: su1.sol ====\npragma solidity >= 0.0.0;\n" ++
    "pragma abicoder v1;\nimport \"su0.sol\";\ncontract C_su1_0 \x7b\x7d\n" := by
  decide +kernel

theorem map_fst_entries (config : Config) (blueprint : Blueprint) :
    (entries config blueprint).map Prod.fst = UnitPlan.earlierPaths config blueprint.length :=
  UnitPlan.map_fst_mapIdx config (UnitPlan.unit config) blueprint

theorem nodup_earlierPaths (config : Config) (number : Nat) :
    (UnitPlan.earlierPaths config number).Nodup := by
  apply List.Nodup.map _ List.nodup_range
  intro m n h
  exact config.unitPath_injective h

theorem unitPath_notMem_earlierPaths (config : Config) (number : Nat) :
    config.unitPath number ∉ UnitPlan.earlierPaths config number := by
  intro h
  obtain ⟨k, hk, he⟩ := UnitPlan.mem_earlierPaths.1 h
  have := config.unitPath_injective he
  omega

/-- The draft in which exactly the planned units have been written. -/
def draft (config : Config) (blueprint : Blueprint) : Draft where
  units := ⟨entries config blueprint, by
    rw [map_fst_entries]
    exact nodup_earlierPaths config _⟩
  current := if blueprint = [] then none else some (config.unitPath (blueprint.length - 1))
  added := blueprint.length

theorem draft_nil (config : Config) : draft config [] = Draft.empty := rfl

theorem keys_draft (config : Config) (blueprint : Blueprint) :
    (draft config blueprint).units.keys = UnitPlan.earlierPaths config blueprint.length :=
  map_fst_entries config blueprint

theorem keys_add (config : Config) (blueprint : Blueprint) :
    ((draft config blueprint).add (config.unitPath blueprint.length)).units.keys =
      UnitPlan.earlierPaths config blueprint.length ++ [config.unitPath blueprint.length] := by
  rw [Draft.keys_add, keys_draft, if_neg (unitPath_notMem_earlierPaths config _)]

theorem size_add (config : Config) (blueprint : Blueprint) :
    ((draft config blueprint).add (config.unitPath blueprint.length)).size =
      blueprint.length + 1 := by
  rw [Draft.size, ← OrderedMap.length_keys, keys_add]
  simp [UnitPlan.earlierPaths]

theorem importable_add (config : Config) (blueprint : Blueprint) :
    ((draft config blueprint).add (config.unitPath blueprint.length)).importable
        { path := config.unitPath blueprint.length } =
      sorted (UnitPlan.earlierPaths config blueprint.length) := by
  rw [← Draft.sorted_importable]
  apply sorted_eq_of_perm
  rw [Draft.importable, Draft.paths, keys_add]
  apply ((sorted_perm _).filter _).trans
  have hne (path : String) (h : path ∈ UnitPlan.earlierPaths config blueprint.length) :
      path ≠ config.unitPath blueprint.length := by
    rintro rfl
    exact unitPath_notMem_earlierPaths config _ h
  rw [List.filter_append, List.filter_eq_self.2]
  · simp
  · simpa using hne

/-- Writing the next unit adds its plan to the blueprint. -/
theorem draft_concat (config : Config) (blueprint : Blueprint) (plan : UnitPlan) :
    ((draft config blueprint).add (config.unitPath blueprint.length)).put
        (plan.unit config blueprint.length) =
      draft config (blueprint ++ [plan]) := by
  have hnew : config.unitPath blueprint.length ∉ (draft config blueprint).units.keys := by
    rw [keys_draft]
    exact unitPath_notMem_earlierPaths config _
  have hunits : ((draft config blueprint).units.insert (config.unitPath blueprint.length)
      { path := config.unitPath blueprint.length }).insert (config.unitPath blueprint.length)
        (plan.unit config blueprint.length) = (draft config (blueprint ++ [plan])).units := by
    apply OrderedMap.ext
    rw [OrderedMap.insert_insert, OrderedMap.entries_insert_of_notMem hnew]
    simp [draft, entries]
  change Draft.mk _ _ _ = Draft.mk _ _ _
  rw [Draft.mk.injEq]
  refine ⟨hunits, ?_, ?_⟩
  · simp [draft, Draft.add, Draft.declare]
  · simp [draft, Draft.add]

end Blueprint

end SoliditySynth
