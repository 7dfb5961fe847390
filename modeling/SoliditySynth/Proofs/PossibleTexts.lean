import Mathlib.Data.List.Forall2
import SoliditySynth.Proofs.Endings
import SoliditySynth.Proofs.Tape

namespace SoliditySynth

theorem Sampling.reaches_mapM {α β : Type} {f : α → Sampling β} {as : List α} {bs : List β} :
    (as.mapM f).Reaches bs ↔ List.Forall₂ (fun a b => (f a).Reaches b) as bs := by
  induction as generalizing bs with
  | nil =>
    rw [List.mapM_nil, reaches_pure, List.forall₂_nil_left_iff]
    exact eq_comm
  | cons a as ih =>
    rw [List.mapM_cons]
    simp only [reaches_bind, reaches_pure, ih]
    constructor
    · rintro ⟨b, hb, bs, hbs, rfl⟩
      exact .cons hb hbs
    · rintro (_ | ⟨hb, hbs⟩)
      exact ⟨_, hb, _, hbs, rfl⟩

/-- The pragmas are among those of the configuration, and the imports are distinct earlier units, as
many as the unit may have. The first unit has none, all others have at least one. -/
structure UnitPlan.IsPossible (config : Config) (number : Nat) (plan : UnitPlan) : Prop where
  generic : plan.generic ∈ config.genericPragmas
  abi : plan.abi ∈ config.abiPragmas
  nodup : plan.imports.Nodup
  earlier : ∀ path ∈ plan.imports, ∃ k < number, path = config.unitPath k
  first : number = 0 → plan.imports = []
  later : 0 < number → 1 ≤ plan.imports.length ∧
    (plan.imports.length : Int) ≤ config.maxImports ∧ plan.imports.length ≤ number

/-- There are between one and `maxUnits` units, and all of them are possible. -/
structure Blueprint.IsPossible (config : Config) (blueprint : Blueprint) : Prop where
  nonempty : 1 ≤ blueprint.length
  length : (blueprint.length : Int) ≤ config.maxUnits
  units (number : Nat) (plan : UnitPlan) :
    blueprint[number]? = some plan → plan.IsPossible config number

namespace UnitPlan

variable {config : Config} {number : Nat} {plan : UnitPlan}

theorem reaches_decode_iff :
    (decode config number).Reaches plan ↔
      (decodeCount config number).Reaches plan.imports.length ∧
        plan.generic ∈ config.genericPragmas ∧ plan.abi ∈ config.abiPragmas ∧
          plan.imports.Nodup ∧ ∀ path ∈ plan.imports, ∃ k < number, path = config.unitPath k := by
  simp only [decode, Sampling.reaches_bind, Sampling.reaches_choose, Sampling.reaches_pure]
  constructor
  · rintro ⟨count, hcount, generic, hgeneric, abi, habi, imports, himports, rfl⟩
    rw [decodeImports_nil (le_of_reaches_decodeCount hcount),
      Sampling.reaches_chooseDistinct] at himports
    obtain ⟨rfl, hnodup, hmem⟩ := himports
    refine ⟨hcount, hgeneric, habi, hnodup, fun path hpath => ?_⟩
    exact mem_earlierPaths.1 (mem_sorted.1 (hmem path hpath))
  · rintro ⟨hcount, hgeneric, habi, hnodup, hmem⟩
    refine ⟨_, hcount, _, hgeneric, _, habi, plan.imports, ?_, rfl⟩
    rw [decodeImports_nil (le_of_reaches_decodeCount hcount), Sampling.reaches_chooseDistinct]
    refine ⟨rfl, hnodup, fun path hpath => ?_⟩
    exact mem_sorted.2 (mem_earlierPaths.2 (hmem path hpath))

theorem reaches_decode : (decode config number).Reaches plan ↔ plan.IsPossible config number := by
  rw [reaches_decode_iff, reaches_decodeCount]
  constructor
  · rintro ⟨hcount, hgeneric, habi, hnodup, hmem⟩
    refine ⟨hgeneric, habi, hnodup, hmem, fun hfirst => ?_, fun hlater => ?_⟩
    · rw [if_pos hfirst] at hcount
      exact List.eq_nil_of_length_eq_zero hcount
    · rw [if_neg (by omega)] at hcount
      omega
  · intro h
    refine ⟨?_, h.generic, h.abi, h.nodup, h.earlier⟩
    split
    · next hfirst =>
      rw [h.first hfirst]
      rfl
    · next hlater =>
      have := h.later (by omega)
      omega

end UnitPlan

theorem Blueprint.reaches_decode {config : Config} {blueprint : Blueprint} :
    (decode config).Reaches blueprint ↔ blueprint.IsPossible config := by
  simp only [decode, Sampling.reaches_bind, Sampling.reaches_oneTo, Sampling.reaches_mapM,
    List.forall₂_iff_get, UnitPlan.reaches_decode, List.length_range]
  constructor
  · rintro ⟨n, ⟨hpos, hle⟩, rfl, hunits⟩
    refine ⟨hpos, by omega, fun number plan hplan => ?_⟩
    obtain ⟨hnumber, rfl⟩ := List.getElem?_eq_some_iff.1 hplan
    simpa using hunits number (by simpa using hnumber) hnumber
  · intro h
    have hnonempty := h.nonempty
    have hlength := h.length
    refine ⟨blueprint.length, by omega, rfl, fun number _ hnumber => ?_⟩
    simpa using h.units number _ (List.getElem?_eq_getElem hnumber)

section

variable {σ : Type} [Random.Sampler σ]

theorem Blueprint.exists_count_of_decode {config : Config} {blueprint : Blueprint}
    {random random' : σ} (h : (decode config).run random = some (blueprint, random')) :
    ∃ rest, (Sampling.oneTo config.maxUnits.toNat).run random = some (blueprint.length, rest) := by
  rw [decode, Sampling.run_bind, Option.bind_eq_some_iff] at h
  obtain ⟨⟨count, rest⟩, hcount, hplans⟩ := h
  have hlen := (Sampling.reaches_mapM.1 (.of_run hplans)).length_eq
  rw [List.length_range] at hlen
  exact ⟨rest, by rw [hcount, hlen]⟩

/-- Whatever is registered and whatever is drawn, a text that comes out is that of the blueprint
that its draws decode to. -/
theorem decode_of_returned {bench bench' : Workbench σ} {text : String}
    (h : Synth.program.run bench = (.ok text, bench')) :
    ∃ blueprint : Blueprint,
      (Blueprint.decode bench.config).run bench.random = some (blueprint, bench'.random) ∧
      text = blueprint.text bench.config ∧ bench'.draft = blueprint.draft bench.config := by
  obtain ⟨hrun, -⟩ := program_follows.run_of_ok trivial h
  obtain ⟨hunits, hparts, n, hn, himports⟩ := (Recipe.program_ends hrun).ready
  obtain ⟨hcase, hmax, hunit⟩ := Setting.canDraw_of_not_lacksUnits hunits
  rw [Recipe.run_program hcase hmax hunit, Sampling.run_bind, Option.bind_eq_some_iff] at hrun
  obtain ⟨⟨n', random⟩, hdraw, hrun⟩ := hrun
  obtain rfl : n' = n := by
    rw [Setting.unitCount?, hdraw] at hn
    exact Option.some.inj hn
  simp only at hrun
  rw [Recipe.run_units (Setting.partsReady_of_not_lacksParts hparts) fun htwo =>
    Setting.importsReady_of_not_lacksImports (himports htwo)] at hrun
  obtain ⟨blueprint, hplans, hwritten⟩ := Sampling.run_bind_pure_eq_some.1 hrun
  obtain ⟨htext, hdraft⟩ := Prod.mk.inj hwritten
  refine ⟨blueprint, ?_, (Except.ok.inj htext).symm, hdraft.symm⟩
  change (Sampling.oneTo bench.config.maxUnits.toNat).run bench.random = _ at hdraw
  rw [Blueprint.decode, Sampling.run_bind, hdraw]
  exact hplans

theorem isPossible_of_returned {bench bench' : Workbench σ} {text : String}
    (h : Synth.program.run bench = (.ok text, bench')) :
    ∃ blueprint : Blueprint, blueprint.IsPossible bench.config ∧
      text = blueprint.text bench.config ∧ bench'.draft = blueprint.draft bench.config := by
  obtain ⟨blueprint, hdecode, htext, hdraft⟩ := decode_of_returned h
  exact ⟨blueprint, Blueprint.reaches_decode.1 (.of_run hdecode), htext, hdraft⟩

theorem writesBounds_of_returned {bench bench' : Workbench σ} {text : String}
    {blueprint : Blueprint} {random : σ} (h : Synth.program.run bench = (.ok text, bench'))
    (hdecode : (Blueprint.decode bench.config).run bench.random = some (blueprint, random)) :
    bench.config.WritesBounds blueprint.length := by
  obtain ⟨hrun, -⟩ := program_follows.run_of_ok trivial h
  obtain ⟨hunits, -, n, hn, himports⟩ := (Recipe.program_ends hrun).ready
  obtain ⟨-, hmax, -⟩ := Setting.canDraw_of_not_lacksUnits hunits
  obtain ⟨rest, hcount⟩ := Blueprint.exists_count_of_decode hdecode
  obtain rfl : blueprint.length = n := by
    change ((Sampling.oneTo bench.config.maxUnits.toNat).run bench.random).map Prod.fst = _ at hn
    rw [hcount] at hn
    exact Option.some.inj hn
  exact ⟨hmax.written, fun htwo =>
    (Setting.importsReady_of_not_lacksImports (himports htwo)).bound.written⟩

end

/-- A possible text comes out for some words, whatever was generated before. -/
theorem exists_words_of_isPossible {bench : Workbench Random.Tape} {blueprint : Blueprint}
    (h : bench.setting.Provided) (hwrites : bench.config.WritesBounds blueprint.length)
    (hpossible : blueprint.IsPossible bench.config) :
    ∃ words, (Synth.program.run { bench with random := Random.Tape.mk words }).1 =
      .ok (blueprint.text bench.config) := by
  obtain ⟨block, hrun⟩ := (Blueprint.reaches_decode.2 hpossible).exists_tape
  have hblock := hrun []
  rw [List.append_nil] at hblock
  obtain ⟨rest, hlength⟩ := Blueprint.exists_count_of_decode hblock
  obtain ⟨bench', hbench, -⟩ :=
    @run_program_of_decode _ _ { bench with random := Random.Tape.mk block } h hwrites.1
      (fun count rest' hcount => by
        obtain ⟨rfl, -⟩ := Prod.mk.inj (Option.some.inj (hlength.symm.trans hcount))
        exact hwrites.2) _ _ hblock
  exact ⟨block, by rw [hbench]⟩

end SoliditySynth
