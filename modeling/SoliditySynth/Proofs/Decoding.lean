import SoliditySynth.Proofs.Refinement
import SoliditySynth.Proofs.UnitText

namespace SoliditySynth

theorem Sampling.choose_eq_oneTo (items : List String) :
    choose items = oneTo items.length >>= fun place => pure (items.getD (place - 1) "") := by
  simp only [choose, oneTo, bind_assoc, pure_bind]
  congr 1
  funext i
  simp

theorem UnitPlan.length_sorted_earlierPaths (config : Config) (number : Nat) :
    (sorted (earlierPaths config number)).length = number := by
  simp [earlierPaths]

theorem UnitPlan.nodup_sorted_earlierPaths (config : Config) (number : Nat) :
    (sorted (earlierPaths config number)).Nodup := by
  have hp : (sorted (earlierPaths config number)).Perm (earlierPaths config number) :=
    sorted_perm _
  exact hp.nodup_iff.2 (Blueprint.nodup_earlierPaths config number)

theorem filter_notMem_concat (items excluded : List String) (item : String) :
    items.filter (· ∉ excluded ++ [item]) = (items.filter (· ∉ excluded)).filter (· != item) := by
  rw [List.filter_filter]
  apply List.filter_congr
  intro other _
  simp only [List.mem_append, List.mem_singleton]
  grind

theorem UnitPlan.decodeImports_eq {config : Config} {number count : Nat} {imported : List String}
    (hleft : ((sorted (earlierPaths config number)).filter (· ∉ imported)).length +
      imported.length = number)
    (hcount : imported.length + count ≤ number) :
    decodeImports config number count imported =
      Sampling.chooseDistinct count
        ((sorted (earlierPaths config number)).filter (· ∉ imported)) >>= fun paths =>
          pure (imported ++ paths) := by
  -- `hleft` carries the induction: the bound of each draw is the number of units that are left.
  induction count generalizing imported with
  | zero => simp [decodeImports, Sampling.chooseDistinct]
  | succ count ih =>
    have hbound : number - imported.length =
      ((sorted (earlierPaths config number)).filter (· ∉ imported)).length := by omega
    rw [decodeImports, Sampling.chooseDistinct, hbound, Sampling.choose_eq_oneTo]
    simp only [bind_assoc, pure_bind]
    apply Sampling.bind_congr
    intro place hplace
    obtain ⟨hpos, hle⟩ := Sampling.reaches_oneTo.1 hplace
    have hnodup := (nodup_sorted_earlierPaths config number).filter (· ∉ imported)
    have hfilter := filter_notMem_concat (sorted (earlierPaths config number)) imported
    generalize (sorted (earlierPaths config number)).filter (· ∉ imported) = left at *
    have hmem : left.getD (place - 1) "" ∈ left := by
      rw [List.getD_eq_getElem?_getD, List.getElem?_eq_getElem (by omega)]
      exact List.getElem_mem _
    have hlen := List.length_erase_of_mem hmem
    rw [hnodup.erase_eq_filter, ← hfilter] at hlen
    rw [ih, hfilter]
    · simp
    · rw [hlen]
      simp only [List.length_append, List.length_singleton]
      omega
    · simp only [List.length_append, List.length_singleton]
      omega

theorem UnitPlan.decodeImports_nil {config : Config} {number count : Nat} (h : count ≤ number) :
    decodeImports config number count [] =
      Sampling.chooseDistinct count (sorted (earlierPaths config number)) := by
  have hall : (sorted (earlierPaths config number)).filter (· ∉ []) =
      sorted (earlierPaths config number) := by
    simp
  rw [decodeImports_eq, hall]
  · simp
  · rw [hall, length_sorted_earlierPaths]
    rfl
  · simpa using h

theorem UnitPlan.addContract_importing (config : Config) (number : Nat) (generic abi : String)
    (imports : List String) :
    (SourceUnit.importing { path := config.unitPath number } imports).addContract =
      UnitPlan.unit config number ⟨generic, abi, imports⟩ := rfl

theorem contractDirective_fresh (path : String) :
    contractDirective { path } = "contract C_" ++ (Path.ofText path).stem ++ "_0 \x7b\x7d" := by
  have hopening : "contract C_" = "contract " ++ "C_" := by decide
  have hclosing : "_0 \x7b\x7d" = "_" ++ toString 0 ++ " \x7b\x7d" := by decide
  rw [contractDirective, SourceUnit.contractName, hopening, hclosing]
  simp only [String.append_assoc]

theorem UnitPlan.joinLines_eq_body (config : Config) (number : Nat) (plan : UnitPlan) :
    Text.joinLines (Text.joinLines [plan.generic, plan.abi] ::
        (plan.imports.map importDirective ++
          [contractDirective { path := config.unitPath number }])) =
      plan.body config number := by
  have hjoin : Text.joinLines [plan.generic, plan.abi] = plan.generic ++ "\n" ++ plan.abi := by
    rw [Text.joinLines_eq_intercalate]
    simp
  have himports : (plan.imports.map importDirective).map (· ++ "\n") =
      plan.imports.map fun path => "import \"" ++ path ++ "\";\n" := by
    rw [List.map_map]
    apply List.map_congr_left
    intro path _
    simp [importDirective, String.append_assoc]
  unfold body
  rw [← List.cons_append, Text.joinLines_concat, List.map_cons, himports, hjoin, String.join_cons,
    contractDirective_fresh]
  simp only [String.append_assoc]

theorem UnitPlan.joinLines_eq_text (config : Config) (number : Nat) (plan : UnitPlan) :
    Text.joinLines [Header.line (config.unitPath number), plan.body config number, ""] =
      plan.text config number := by
  have hmark : " ====\n" = " ====" ++ "\n" := by decide
  have hjoin (line body : String) :
      Text.joinLines [line, body, ""] = line ++ ("\n" ++ (body ++ "\n")) := by
    rw [Text.joinLines_eq_intercalate]
    simp [String.append_assoc]
  unfold text
  rw [hjoin, Header.line_eq, hmark]
  simp only [String.append_assoc]

namespace Recipe

variable {setting : Setting}

theorem run_addUnit (blueprint : Blueprint) :
    (addUnit setting.config).run (blueprint.draft setting.config) =
      pure (.ok (setting.config.unitPath blueprint.length),
        (blueprint.draft setting.config).add (setting.config.unitPath blueprint.length)) := rfl

theorem run_sourceUnit_add (hparts : setting.PartsReady) {blueprint : Blueprint}
    (himports : blueprint ≠ [] → setting.ImportsReady) :
    (sourceUnit setting).run ((blueprint.draft setting.config).add
        (setting.config.unitPath blueprint.length)) =
      UnitPlan.decode setting.config blueprint.length >>= fun plan =>
        pure (.ok (plan.body setting.config blueprint.length),
          Blueprint.draft setting.config (blueprint ++ [plan])) := by
  have hsize := blueprint.size_add setting.config
  have himportable := blueprint.importable_add setting.config
  have hwriting := (blueprint.draft setting.config).isWriting_add
    (setting.config.unitPath blueprint.length)
  have hready : 1 < ((blueprint.draft setting.config).add
      (setting.config.unitPath blueprint.length)).size → setting.ImportsReady := by
    intro h
    apply himports
    rintro rfl
    rw [hsize] at h
    exact absurd h (by simp)
  have hrun := run_sourceUnit hparts hready hwriting
    (by rw [himportable, hsize, UnitPlan.length_sorted_earlierPaths]; exact Nat.le_refl _)
  rw [hsize, himportable, Nat.add_sub_cancel] at hrun
  rw [hrun, UnitPlan.decode]
  simp only [bind_assoc, pure_bind]
  apply Sampling.bind_congr
  intro count hcount
  rw [UnitPlan.decodeImports_nil (UnitPlan.le_of_reaches_decodeCount hcount)]
  apply Sampling.bind_congr
  intro generic _
  apply Sampling.bind_congr
  intro abi _
  apply Sampling.bind_congr
  intro imports _
  rw [← Blueprint.draft_concat, ← UnitPlan.joinLines_eq_body, UnitPlan.addContract_importing]

theorem run_unit (hparts : setting.PartsReady) {blueprint : Blueprint}
    (himports : blueprint ≠ [] → setting.ImportsReady) :
    (unit setting).run (blueprint.draft setting.config) =
      UnitPlan.decode setting.config blueprint.length >>= fun plan =>
        pure (.ok (plan.text setting.config blueprint.length),
          Blueprint.draft setting.config (blueprint ++ [plan])) := by
  rw [unit, run_bind, run_addUnit, pure_bind, andThen_ok, run_bind,
    run_sourceUnit_add hparts himports]
  simp only [bind_assoc, pure_bind, andThen_ok, run_pure, UnitPlan.joinLines_eq_text]

def unitTexts (config : Config) (first : Nat) (plans : List UnitPlan) : List String :=
  plans.mapIdx fun i plan => plan.text config (first + i)

theorem unitTexts_cons (config : Config) (first : Nat) (plan : UnitPlan) (plans : List UnitPlan) :
    unitTexts config first (plan :: plans) =
      plan.text config first :: unitTexts config (first + 1) plans := by
  simp [unitTexts, List.mapIdx_cons, Nat.add_assoc, Nat.add_comm 1]

theorem run_collect_unit (hparts : setting.PartsReady) {blueprint : Blueprint} {n : Nat}
    (himports : 1 < blueprint.length + n → setting.ImportsReady) :
    (collect (unit setting) n).run (blueprint.draft setting.config) =
      (List.range' blueprint.length n).mapM (UnitPlan.decode setting.config) >>= fun plans =>
        pure (.ok (unitTexts setting.config blueprint.length plans),
          Blueprint.draft setting.config (blueprint ++ plans)) := by
  -- After each unit the draft is that of a longer blueprint, and the rest starts from there.
  induction n generalizing blueprint with
  | zero => simp [collect, unitTexts]
  | succ n ih =>
    have hready : blueprint ≠ [] → setting.ImportsReady := by
      intro hne
      have := List.length_pos_iff.2 hne
      exact himports (by omega)
    simp only [collect, run_bind, run_unit hparts hready, bind_assoc, pure_bind, andThen_ok,
      List.range'_succ, List.mapM_cons]
    apply Sampling.bind_congr
    intro plan _
    have hlen : (blueprint ++ [plan]).length = blueprint.length + 1 := List.length_append
    have hrest := @ih (blueprint ++ [plan]) fun h => himports (by omega)
    rw [hlen] at hrest
    simp only [hrest, bind_assoc, pure_bind, andThen_ok, run_pure, unitTexts_cons,
      List.append_assoc, List.singleton_append]

def units (setting : Setting) (n : Nat) : Recipe String := do
  return Text.joinLines (← collect (unit setting) n)

theorem run_units (hparts : setting.PartsReady) {n : Nat}
    (himports : 1 < n → setting.ImportsReady) :
    (units setting n).run .empty =
      (List.range n).mapM (UnitPlan.decode setting.config) >>= fun blueprint =>
        pure (.ok (Blueprint.text setting.config blueprint),
          Blueprint.draft setting.config blueprint) := by
  have hrun := @run_collect_unit _ hparts [] n (by simpa using himports)
  have htext (blueprint : Blueprint) : Text.joinLines (unitTexts setting.config 0 blueprint) =
      Blueprint.text setting.config blueprint := by
    simp [Text.joinLines_eq_intercalate, unitTexts, Blueprint.text]
  rw [Blueprint.draft_nil, List.length_nil, ← List.range_eq_range'] at hrun
  simp only [units, run_bind, hrun, bind_assoc, pure_bind, andThen_ok, run_pure, htext,
    List.nil_append]

/-- The draft in which the first unit is finished and the second has been started. -/
def secondStarted (config : Config) : Draft :=
  ((Draft.empty.add (config.unitPath 0)).put { path := config.unitPath 0, contracts := 1 }).add
    (config.unitPath 1)

theorem draft_first {config : Config} {plan : UnitPlan}
    (h : (UnitPlan.decode config 0).Reaches plan) :
    (Blueprint.draft config [plan]).add (config.unitPath 1) = secondStarted config := by
  have himports : plan.imports = [] := by
    simp only [UnitPlan.decode, Sampling.reaches_bind, Sampling.reaches_pure,
      UnitPlan.reaches_decodeCount, ↓reduceIte] at h
    obtain ⟨_, rfl, generic, -, abi, -, imports, rfl, rfl⟩ := h
    rfl
  have hput := Blueprint.draft_concat config [] plan
  rw [secondStarted, ← List.nil_append [plan], ← hput, UnitPlan.unit, himports]
  rfl

theorem run_oneTo_unwritten {config : Config} {n : Int} (h : ¬config.CanWrite n) (draft : Draft) :
    (oneTo config n).run draft = pure (.error .tooManyDigits, draft) := by
  rw [oneTo, requireWritable_of_not_canWrite h, run_bind, run_throw, pure_bind, andThen_error]

theorem run_sourceUnit_unwritten (h : ¬setting.config.CanWrite setting.config.maxImports)
    {draft : Draft} (hsize : 1 < draft.size) :
    (sourceUnit setting).run draft = pure (.error .tooManyDigits, draft) := by
  have hpos : draft.size - 1 > 0 := by omega
  simp only [sourceUnit, importCount, run_bind, run_get, pure_bind, andThen_ok, if_pos hpos,
    run_oneTo_unwritten h, andThen_error]

/-- Where the bound for imports cannot be written, the first unit is finished, as it has nothing to
import, and the second is only started. -/
theorem run_units_unwritten (hparts : setting.PartsReady)
    (h : ¬setting.config.CanWrite setting.config.maxImports) {n : Nat} (hn : 2 ≤ n) :
    (units setting n).run .empty = UnitPlan.decode setting.config 0 >>= fun _ =>
      pure (.error .tooManyDigits, secondStarted setting.config) := by
  obtain ⟨n, rfl⟩ := Nat.exists_eq_add_of_le' hn
  have hfirst := @run_unit _ hparts [] (absurd rfl)
  rw [Blueprint.draft_nil] at hfirst
  simp only [units, collect, run_bind, hfirst, bind_assoc, pure_bind, andThen_ok]
  apply Sampling.bind_congr
  intro plan hplan
  have hsecond : (unit setting).run (Blueprint.draft setting.config ([] ++ [plan])) =
      pure (.error .tooManyDigits, secondStarted setting.config) := by
    have hsize := Blueprint.size_add setting.config [plan]
    rw [List.nil_append, unit, run_bind, run_addUnit [plan], pure_bind, andThen_ok, run_bind,
      run_sourceUnit_unwritten h (Nat.lt_of_lt_of_eq Nat.one_lt_two hsize.symm), pure_bind,
      andThen_error]
    exact congrArg _ (congrArg _ (draft_first hplan))
  rw [hsecond]
  simp only [pure_bind, andThen_error]

theorem testCase_eq (hmax : setting.config.CanDraw setting.config.maxUnits)
    (hunit : setting.registered.get .sourceUnit = true) :
    testCase setting = draw (.oneTo setting.config.maxUnits.toNat) >>= units setting := by
  rw [testCase, oneTo_eq_draw hmax, requireKind_of_registered hunit]
  rfl

theorem program_eq (hcase : setting.registered.get .testCase = true) :
    program setting = set Draft.empty >>= fun _ => testCase setting := by
  rw [program, requireKind_of_registered hcase]
  rfl

theorem run_program (hcase : setting.registered.get .testCase = true)
    (hmax : setting.config.CanDraw setting.config.maxUnits)
    (hunit : setting.registered.get .sourceUnit = true)
    (draft : Draft) :
    (program setting).run draft =
      Sampling.oneTo setting.config.maxUnits.toNat >>= fun n => (units setting n).run .empty := by
  rw [program_eq hcase, testCase_eq hmax hunit, run_bind, run_set, pure_bind, andThen_ok,
    run_draw_bind]

theorem run_program_unwritten (hcase : setting.registered.get .testCase = true)
    (h : ¬setting.config.CanWrite setting.config.maxUnits) (draft : Draft) :
    (program setting).run draft = pure (.error .tooManyDigits, .empty) := by
  simp only [program_eq hcase, testCase, run_bind, run_set, pure_bind, andThen_ok,
    run_oneTo_unwritten h, andThen_error]

end Recipe

/-- Every kind is registered, and for every choice there is something to choose from. -/
structure Setting.Provided (setting : Setting) : Prop where
  registered (kind : Kind) : setting.registered.get kind = true
  maxUnits : 0 < setting.config.maxUnits
  maxImports : 0 < setting.config.maxImports
  generic : setting.config.genericPragmas ≠ []
  abi : setting.config.abiPragmas ≠ []

/-- The bounds that come up when so many units are written can be written themselves. -/
def Config.WritesBounds (config : Config) (count : Nat) : Prop :=
  config.CanWrite config.maxUnits ∧ (1 < count → config.CanWrite config.maxImports)

/-- Nothing is missing, however many units are written. -/
structure Setting.Ready (setting : Setting) : Prop extends setting.Provided where
  written (count : Nat) : setting.config.WritesBounds count

theorem Setting.ready_standard {σ : Type} (seed : Nat) (random : σ) :
    (Workbench.start seed .standard random).setting.Ready where
  registered kind := by cases kind <;> rfl
  maxUnits := show 0 < Config.standard.maxUnits by decide
  maxImports := show 0 < Config.standard.maxImports by decide
  generic := show Config.standard.genericPragmas ≠ [] by decide
  abi := show Config.standard.abiPragmas ≠ [] by decide
  written _ := show Config.standard.CanWrite Config.standard.maxUnits ∧
    (_ → Config.standard.CanWrite Config.standard.maxImports) from ⟨by decide, fun _ => by decide⟩

namespace Setting.Provided

variable {setting : Setting} (h : setting.Provided)
include h

theorem partsReady : setting.PartsReady :=
  ⟨h.registered _, h.registered _, h.generic, h.abi⟩

theorem importsReady (hwrite : setting.config.CanWrite setting.config.maxImports) :
    setting.ImportsReady :=
  ⟨h.registered _, hwrite, h.maxImports⟩

theorem run_program (hwrite : setting.config.CanWrite setting.config.maxUnits) (draft : Draft) :
    (Recipe.program setting).run draft =
      Sampling.oneTo setting.config.maxUnits.toNat >>= fun n =>
        (Recipe.units setting n).run .empty :=
  Recipe.run_program (h.registered _) ⟨hwrite, h.maxUnits⟩ (h.registered _) draft

variable {σ : Type} [Random.Sampler σ] {random : σ}

/-- A program is a blueprint, written out. -/
theorem run_program_eq_decode (hwrite : setting.config.CanWrite setting.config.maxUnits)
    (hwrite' : ∀ count rest, (Sampling.oneTo setting.config.maxUnits.toNat).run random =
      some (count, rest) → 1 < count → setting.config.CanWrite setting.config.maxImports)
    (draft : Draft) :
    ((Recipe.program setting).run draft).run random =
      (Blueprint.decode setting.config >>= fun blueprint =>
        pure (.ok (blueprint.text setting.config), blueprint.draft setting.config)).run random := by
  rw [h.run_program hwrite, Blueprint.decode, bind_assoc, Sampling.run_bind, Sampling.run_bind]
  cases hcount : (Sampling.oneTo setting.config.maxUnits.toNat).run random with
  | none => rfl
  | some ending =>
    obtain ⟨count, rest⟩ := ending
    have himports (htwo : 1 < count) := h.importsReady (hwrite' count rest hcount htwo)
    simp only [Option.bind_some, Recipe.run_units h.partsReady himports]

end Setting.Provided

section

variable {σ : Type} [Random.Sampler σ] {bench : Workbench σ} (h : bench.setting.Provided)
  (hwrite : bench.config.CanWrite bench.config.maxUnits)
  (hwrite' : ∀ count rest, (Sampling.oneTo bench.config.maxUnits.toNat).run bench.random =
    some (count, rest) → 1 < count → bench.config.CanWrite bench.config.maxImports)
include h hwrite hwrite'

theorem run_program_of_decode {blueprint : Blueprint} {random : σ}
    (hd : (Blueprint.decode bench.config).run bench.random = some (blueprint, random)) :
    ∃ bench', Synth.program.run bench = (.ok (blueprint.text bench.config), bench') ∧
      bench'.draft = blueprint.draft bench.config ∧ bench'.random = random := by
  apply program_follows.run_of_some trivial
  rw [h.run_program_eq_decode hwrite hwrite', Sampling.run_bind]
  change ((Blueprint.decode bench.config).run bench.random).bind _ = _
  rw [hd]
  rfl

theorem run_program_of_decode_none (hd : (Blueprint.decode bench.config).run bench.random = none) :
    (Synth.program.run bench).1 = .error .stalled := by
  apply program_follows.run_of_none trivial
  rw [h.run_program_eq_decode hwrite hwrite', Sampling.run_bind]
  change ((Blueprint.decode bench.config).run bench.random).bind _ = _
  rw [hd]
  rfl

end

theorem Setting.Ready.run_program_of_decode {σ : Type} [Random.Sampler σ] {bench : Workbench σ}
    (h : bench.setting.Ready) {blueprint : Blueprint} {random : σ}
    (hd : (Blueprint.decode bench.config).run bench.random = some (blueprint, random)) :
    ∃ bench', Synth.program.run bench = (.ok (blueprint.text bench.config), bench') ∧
      bench'.draft = blueprint.draft bench.config ∧ bench'.random = random :=
  SoliditySynth.run_program_of_decode h.toProvided (h.written 0).1
    (fun count _ _ => (h.written count).2) hd

end SoliditySynth
