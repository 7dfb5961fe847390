import SoliditySynth.Proofs.Blueprint

namespace SoliditySynth

structure Setting.PartsReady (setting : Setting) : Prop where
  pragma : setting.registered.get .pragma = true
  contract : setting.registered.get .contract = true
  generic : setting.config.genericPragmas ≠ []
  abi : setting.config.abiPragmas ≠ []

structure Setting.ImportsReady (setting : Setting) : Prop where
  registered : setting.registered.get .importDirective = true
  bound : setting.config.CanDraw setting.config.maxImports

def contractDirective (unit : SourceUnit) : String := "contract " ++ unit.contractName ++ " \x7b\x7d"

namespace Recipe

variable {setting : Setting} {draft : Draft} {unit : SourceUnit}

theorem requireKind_of_registered {kind : Kind} (h : setting.registered.get kind = true) :
    requireKind setting kind = pure () := by
  rw [requireKind, if_pos h]

theorem parts_eq_collect {kind : Kind} (h : setting.registered.get kind = true) (r : Recipe String)
    (n : Nat) : parts setting kind r n = collect r n := by
  rw [parts, requireKind_of_registered h, pure_bind]

theorem run_collect_one (r : Recipe String) :
    (collect r 1).run draft = r.run draft >>= andThen fun text => pure [text] := by
  rw [← run_bind]
  rfl

theorem run_pragmas (hpragma : setting.registered.get .pragma = true)
    (hgeneric : setting.config.genericPragmas ≠ []) (habi : setting.config.abiPragmas ≠ []) :
    (parts setting .pragma (pragmas setting.config) 1).run draft =
      Sampling.choose setting.config.genericPragmas >>= fun generic =>
        Sampling.choose setting.config.abiPragmas >>= fun abi =>
          pure (.ok [Text.joinLines [generic, abi]], draft) := by
  rw [parts_eq_collect hpragma, run_collect_one, pragmas, choose_eq_draw hgeneric, run_draw_bind]
  simp only [choose_eq_draw habi, run_draw_bind, bind_assoc, run_pure, pure_bind, andThen_ok]

theorem run_contract (hunit : draft.IsWriting unit) :
    contract.run draft = pure (.ok (contractDirective unit), draft.put unit.addContract) := by
  simp only [contract, run_bind, run_get, pure_bind, andThen_ok, hunit.currentUnit, ofExcept]
  rfl

theorem run_contractPart (h : setting.PartsReady) (hunit : draft.IsWriting unit) :
    (parts setting .contract contract 1).run draft =
      pure (.ok [contractDirective unit], draft.put unit.addContract) := by
  rw [parts_eq_collect h.contract, run_collect_one, run_contract hunit, pure_bind, andThen_ok,
    run_pure]

theorem run_importCount
    (h : 1 < draft.size → setting.config.CanDraw setting.config.maxImports) :
    (importCount setting.config).run draft =
      UnitPlan.decodeCount setting.config (draft.size - 1) >>= fun n =>
        pure (.ok (if draft.size - 1 = 0 then none else some n), draft) := by
  by_cases hs : draft.size - 1 = 0
  · have hnone : ¬draft.size - 1 > 0 := by omega
    simp only [importCount, UnitPlan.decodeCount, run_bind, run_get, pure_bind, andThen_ok,
      if_neg hnone, if_pos hs, run_pure]
  · have hbound := h (by omega)
    have hpos : draft.size - 1 > 0 := by omega
    simp only [importCount, UnitPlan.decodeCount, run_bind, run_get, pure_bind, andThen_ok,
      if_pos hpos, if_neg hs, oneTo_eq_draw hbound, run_draw, bind_assoc, run_pure]

theorem run_imports {n : Nat} (h : 1 < draft.size → setting.ImportsReady)
    (hunit : draft.IsWriting unit) (hn : n ≤ draft.size - 1)
    (hlen : draft.size - 1 ≤ (draft.importable unit).length) :
    (imports setting (if draft.size - 1 = 0 then none else some n)).run draft =
      Sampling.chooseDistinct n (draft.importable unit) >>= fun paths =>
        pure (.ok (paths.map importDirective), draft.put (unit.importing paths)) := by
  split
  · next hs =>
    obtain rfl : n = 0 := by omega
    simp [imports, Sampling.chooseDistinct, SourceUnit.importing_nil, hunit.put_self]
  · next hs =>
    rw [imports, parts_eq_collect (h (by omega)).registered]
    exact run_collect_importLine hunit (by omega) (by omega)

/-- The draws of a unit and what it makes of them: the number of its imports, its two pragmas, and
its imports. -/
theorem run_sourceUnit (hparts : setting.PartsReady)
    (himports : 1 < draft.size → setting.ImportsReady) (hunit : draft.IsWriting unit)
    (hlen : draft.size - 1 ≤ (draft.importable unit).length) :
    (sourceUnit setting).run draft =
      UnitPlan.decodeCount setting.config (draft.size - 1) >>= fun n =>
        Sampling.choose setting.config.genericPragmas >>= fun generic =>
          Sampling.choose setting.config.abiPragmas >>= fun abi =>
            Sampling.chooseDistinct n (draft.importable unit) >>= fun paths =>
              pure (.ok (Text.joinLines (Text.joinLines [generic, abi] ::
                (paths.map importDirective ++ [contractDirective unit]))),
                draft.put (unit.importing paths).addContract) := by
  simp only [sourceUnit, unitParts, run_bind, run_importCount fun h => (himports h).bound,
    run_pragmas hparts.pragma hparts.generic hparts.abi, bind_assoc, pure_bind, andThen_ok]
  apply Sampling.bind_congr
  intro n hn
  have hle := UnitPlan.le_of_reaches_decodeCount hn
  simp only [run_imports himports hunit hle hlen, bind_assoc, pure_bind, andThen_ok]
  apply Sampling.bind_congr
  intro generic _
  apply Sampling.bind_congr
  intro abi _
  apply Sampling.bind_congr
  intro paths _
  have hunit' := hunit.put (unit.path_importing paths)
  rw [run_bind, run_contractPart hparts hunit', pure_bind, andThen_ok, run_pure,
    Draft.put_put _ (SourceUnit.path_addContract _)]
  rfl

end Recipe

end SoliditySynth
