import SoliditySynth.Proofs.Numbering
import SoliditySynth.Proofs.PossibleTexts
import SoliditySynth.Proofs.Stems

namespace SoliditySynth

namespace SourceUnit

theorem toList_contractName (unit : SourceUnit) :
    unit.contractName.toList =
      'C' :: '_' :: (Path.ofText unit.path).stem.toList ++
        '_' :: Nat.toDigits 10 unit.contracts := by
  simp [contractName, String.toList_append]

theorem contractName_inj {unit unit' : SourceUnit} (h : unit.contractName = unit'.contractName) :
    (Path.ofText unit.path).stem = (Path.ofText unit'.path).stem ∧
      unit.contracts = unit'.contracts := by
  have hl := congrArg String.toList h
  rw [toList_contractName, toList_contractName] at hl
  obtain ⟨hstem, hnumber⟩ := Text.append_sep_inj (Config.notMem_toDigits (by decide) _)
    (Config.notMem_toDigits (by decide) _) hl
  simp only [List.cons.injEq, true_and] at hstem
  exact ⟨String.toList_injective hstem, Config.toDigits_injective hnumber⟩

theorem contracts_perform (unit : SourceUnit) (command : UnitCommand) :
    (unit.perform command).2.contracts =
      unit.contracts + if command = .nameContract then 1 else 0 := by
  cases command with
  | addImport path =>
    rw [perform]
    split
    · next h =>
      obtain ⟨-, -, rfl⟩ := addImport_eq_ok.1 h
      rfl
    · rfl
  | isImported path => rfl
  | imports => rfl
  | nameContract => rfl
  | describe => rfl

end SourceUnit

namespace Change

/-- The name that is given to a contract, where the change names one. -/
def contractName? (change : Change) : Option String :=
  match change.edit with
  | .unit path .nameContract => (change.before.units.find? path).map SourceUnit.contractName
  | _ => none

/-- Nothing is reset, and a unit is created only as the next one by number. -/
def AddsInOrder (config : Config) (change : Change) : Prop :=
  match change.edit with
  | .reset | .declare _ => False
  | .add path => path = config.unitPath change.before.added
  | .unit _ _ => True

theorem addsInOrder_of_isGenerated {config : Config} {change : Change}
    (h : change.IsGenerated config) : change.edit = .reset ∨ change.AddsInOrder config := by
  rw [IsGenerated] at h
  rw [AddsInOrder]
  cases hedit : change.edit with
  | reset => exact .inl rfl
  | declare path =>
    rw [hedit] at h
    cases h
  | add path =>
    rw [hedit] at h
    exact .inr h
  | unit path command => exact .inr trivial

end Change

namespace Draft

def contracts (draft : Draft) (path : String) : Nat :=
  match draft.units.find? path with
  | some unit => unit.contracts
  | none => 0

variable {config : Config} {draft : Draft}

theorem mem_keys_of_lt_contracts {path : String} {number : Nat}
    (h : number < draft.contracts path) : path ∈ draft.units.keys := by
  rw [contracts] at h
  split at h
  · next hfind => exact OrderedMap.mem_keys_of_find? hfind
  · cases h

theorem contracts_of_notMem {path : String} (h : path ∉ draft.units.keys) :
    draft.contracts path = 0 := by
  by_contra hne
  exact h (mem_keys_of_lt_contracts (Nat.pos_of_ne_zero hne))

theorem contracts_add {path : String} (h : path ∉ draft.units.keys) (path' : String) :
    (draft.add path).contracts path' = draft.contracts path' := by
  have hfind : (draft.add path).units.find? path' = _ := find?_declare draft path path'
  rw [contracts, hfind]
  by_cases he : path = path'
  · subst he
    rw [if_pos rfl, contracts_of_notMem h]
  · rw [if_neg he, contracts]

theorem contracts_put {path : String} {unit : SourceUnit}
    (hfind : draft.units.find? path = some unit) (hpath : unit.path = path)
    (command : UnitCommand) (path' : String) :
    (draft.put (unit.perform command).2).contracts path' =
      draft.contracts path' + if path = path' ∧ command = .nameContract then 1 else 0 := by
  rw [contracts, find?_put, SourceUnit.path_perform, hpath]
  by_cases he : path = path'
  · subst he
    simp only [contracts, hfind, SourceUnit.contracts_perform, if_true, true_and]
  · simp only [contracts, he, if_false, false_and, Nat.add_zero]

/-- The names that have been given are those that the counters of the units account for, and none of
them has been given twice. -/
structure Accounts (config : Config) (draft : Draft) (names : List String) : Prop where
  consistent : draft.Consistent
  keys : draft.units.keys = UnitPlan.earlierPaths config draft.added
  nodup : names.Nodup
  mem_iff {name : String} : name ∈ names ↔ ∃ path number, number < draft.contracts path ∧
    name = ({ path, contracts := number } : SourceUnit).contractName

theorem Accounts.empty : Draft.empty.Accounts config [] where
  consistent := .empty
  keys := rfl
  nodup := .nil
  mem_iff := by
    intro name
    refine iff_of_false List.not_mem_nil ?_
    rintro ⟨path, number, hnumber, -⟩
    exact Nat.not_lt_zero number hnumber

variable {names : List String}

theorem Accounts.add (h : draft.Accounts config names) :
    (draft.add (config.unitPath draft.added)).Accounts config names := by
  have hnew := next_notMem h.keys
  constructor
  case consistent => exact (Edited.add draft _).consistent h.consistent
  case keys => exact keys_add_next h.keys
  case nodup => exact h.nodup
  case mem_iff =>
    intro name
    simp only [contracts_add hnew, h.mem_iff]

theorem Accounts.contractName_notMem (h : draft.Accounts config names)
    (hkeeps : config.KeepsNumbers) (hslash : '/' ∉ config.unitSuffix.toList) {path : String}
    (hpath : path ∈ draft.units.keys) :
    ({ path, contracts := draft.contracts path } : SourceUnit).contractName ∉ names := by
  rw [h.mem_iff]
  rintro ⟨path', number, hnumber, he⟩
  have hpath' := mem_keys_of_lt_contracts hnumber
  rw [h.keys] at hpath hpath'
  obtain ⟨k, -, rfl⟩ := UnitPlan.mem_earlierPaths.1 hpath
  obtain ⟨k', -, rfl⟩ := UnitPlan.mem_earlierPaths.1 hpath'
  obtain ⟨hstem, hcount⟩ := SourceUnit.contractName_inj he
  obtain rfl := hkeeps.stem_injective hslash hstem
  exact absurd hcount (Nat.ne_of_gt hnumber)

theorem Accounts.put (h : draft.Accounts config names) (hkeeps : config.KeepsNumbers)
    (hslash : '/' ∉ config.unitSuffix.toList) {path : String} {unit : SourceUnit}
    (hfind : draft.units.find? path = some unit) (command : UnitCommand) :
    (draft.put (unit.perform command).2).Accounts config
      (names ++ if command = .nameContract then [unit.contractName] else []) := by
  have hpath := h.consistent.path_eq hfind
  have hname : unit.contractName =
      ({ path, contracts := draft.contracts path } : SourceUnit).contractName := by
    rw [SourceUnit.contractName, SourceUnit.contractName, hpath, contracts, hfind]
  constructor
  case consistent => exact (Edited.unit command hfind).consistent h.consistent
  case keys =>
    rw [keys_put_of_mem, h.keys]
    · rfl
    · rw [SourceUnit.path_perform, hpath]
      exact OrderedMap.mem_keys_of_find? hfind
  case nodup =>
    split
    · have hnew := h.contractName_notMem hkeeps hslash (OrderedMap.mem_keys_of_find? hfind)
      rw [hname, ← List.concat_eq_append]
      exact h.nodup.concat hnew
    · rw [List.append_nil]
      exact h.nodup
  case mem_iff =>
    intro name
    simp only [contracts_put hfind hpath, List.mem_append, h.mem_iff]
    constructor
    · rintro (⟨path', number, hnumber, rfl⟩ | hmem)
      · exact ⟨path', number, Nat.lt_of_lt_of_le hnumber (Nat.le_add_right ..), rfl⟩
      · split at hmem
        · next hcommand =>
          refine ⟨path, draft.contracts path, ?_, (List.mem_singleton.1 hmem).trans hname⟩
          rw [if_pos ⟨rfl, hcommand⟩]
          exact Nat.lt_succ_self _
        · cases hmem
    · rintro ⟨path', number, hnumber, rfl⟩
      by_cases hold : number < draft.contracts path'
      · exact .inl ⟨path', number, hold, rfl⟩
      · split at hnumber
        · next hnew =>
          obtain ⟨rfl, hcommand⟩ := hnew
          obtain rfl : number = draft.contracts path := by omega
          rw [if_pos hcommand, hname]
          exact .inr List.mem_cons_self
        · exact absurd hnumber hold

end Draft

variable {config : Config}

theorem Change.accounts {change : Change} {names : List String} (hkeeps : config.KeepsNumbers)
    (hslash : '/' ∉ config.unitSuffix.toList) (horder : change.AddsInOrder config)
    (h : change.before.Accounts config names) :
    change.after.Accounts config (names ++ change.contractName?.toList) := by
  obtain ⟨before, edit, after, edited⟩ := change
  cases edited with
  | reset => cases horder
  | declare path => cases horder
  | add path =>
    obtain rfl : path = config.unitPath before.added := horder
    rw [contractName?, Option.toList_none, List.append_nil]
    exact h.add
  | @unit path unit command hfind =>
    have hnames : (contractName? ⟨before, .unit path command, _, .unit command hfind⟩).toList =
        if command = .nameContract then [unit.contractName] else [] := by
      cases command <;> simp [contractName?, hfind]
    rw [hnames]
    exact h.put hkeeps hslash hfind command

theorem Draft.Course.accounts (hkeeps : config.KeepsNumbers)
    (hslash : '/' ∉ config.unitSuffix.toList) {run : List Change} {last : Draft}
    (h : Draft.empty.Course run last) (horder : ∀ change ∈ run, change.AddsInOrder config) :
    last.Accounts config (run.filterMap Change.contractName?) := by
  induction h with
  | nil => exact .empty
  | @concat run change h ih =>
    have hbefore := ih fun change' hmem => horder change' (List.mem_append_left _ hmem)
    have hafter := Change.accounts hkeeps hslash (horder change (by simp)) hbefore
    rw [List.filterMap_append]
    cases hname : change.contractName? with
    | none => simpa [hname] using hafter
    | some name => simpa [hname] using hafter

/-- The command creates a unit whose path the caller chooses. -/
def Command.createsByHand : Command → Bool
  | .draft (.declare _) | .draft (.add _) => true
  | _ => false

section

variable {σ : Type} [Random.Sampler σ]

theorem Synth.perform_makesOnly_addsInOrder {command : Command}
    (h : command.createsByHand = false) :
    MakesOnly config (fun change => change.edit = .reset ∨ change.AddsInOrder config)
      (perform (σ := σ) command) := by
  intro bench hconfig
  cases hhand : command.isByHand with
  | false =>
    exact (perform_makesOnly hhand bench hconfig).mono fun _ => Change.addsInOrder_of_isGenerated
  | true =>
    -- What is left are imports by hand, which create no unit.
    cases command with
    | draft command =>
      cases command with
      | declare path => cases h
      | add path => cases h
      | unit path command =>
        apply performUnit_within
        intro change path' hedit
        rw [Change.AddsInOrder, hedit]
        exact .inr trivial
      | _ => cases hhand
    | _ => cases hhand

theorem Workbench.exists_history_addsInOrder (bench : Workbench σ) (commands : List Command) :
    ∃ changes, bench.History commands changes ∧
      ((∀ command ∈ commands, command.createsByHand = false) →
        ∀ change ∈ changes, change.edit = .reset ∨ change.AddsInOrder bench.config) := by
  by_cases hcommands : ∀ command ∈ commands, command.createsByHand = false
  · obtain ⟨changes, hchanges, hall⟩ := bench.exists_history
      (fun command hmem => Synth.perform_makesOnly_addsInOrder (hcommands command hmem)) rfl
    exact ⟨changes, hchanges, fun _ => hall⟩
  · obtain ⟨changes, hchanges, -⟩ := bench.exists_history
      (fun command _ => Synth.perform_makesOnly_edits command) (Eq.refl bench.config)
    exact ⟨changes, hchanges, fun h => absurd h hcommands⟩

end

theorem UnitPlan.exists_text_eq (config : Config) (number : Nat) (plan : UnitPlan) :
    ∃ front, plan.text config number = front ++ "\ncontract C_" ++
      (Path.ofText (config.unitPath number)).stem ++ "_0 \x7b\x7d\n" := by
  have hopening : "\ncontract C_" = "\n" ++ "contract C_" := by decide
  have hclosing : "_0 \x7b\x7d\n" = "_0 \x7b\x7d" ++ "\n" := by decide
  have hbody := plan.joinLines_eq_body config number
  rw [← List.cons_append, Text.joinLines_append (List.cons_ne_nil _ _) (List.cons_ne_nil _ _),
    Text.joinLines_singleton, contractDirective_fresh] at hbody
  refine ⟨"==== Source: " ++ config.unitPath number ++ " ====\n" ++ Text.joinLines
    (Text.joinLines [plan.generic, plan.abi] :: plan.imports.map importDirective), ?_⟩
  unfold text
  rw [← hbody, hopening, hclosing]
  simp only [String.append_assoc]

def namingSteps : List Command :=
  [.draft .addUnit, .kind .contract .generate, .draft .addUnit, .draft (.unit none .nameContract),
    .draft (.unit (some "su0.sol") .nameContract)]

def namingStart : Workbench Sampling.Script := .start 0 .standard ⟨[]⟩

def Config.dotted : Config := { Config.standard with unitPrefix := "unit.", unitSuffix := "" }

end SoliditySynth
