import SoliditySynth.Proofs.PossibleTexts
import SoliditySynth.Proofs.Splitting

namespace SoliditySynth

variable {σ : Type} [Random.Sampler σ]

theorem mem_keys_unitChildren {count : Option Nat} {kind : Kind}
    (h : kind ∈ (unitChildren count).keys) : kind ≠ .testCase ∧ kind ≠ .sourceUnit := by
  cases count with
  | none =>
    change kind ∈ [Kind.pragma, .contract] at h
    cases kind <;> simp_all
  | some n =>
    change kind ∈ [Kind.pragma, .importDirective, .contract] at h
    cases kind <;> simp_all

section

variable {gen gen' : Kind → Synth σ String} {count : Option Nat}

theorem PartsFollow.children_of_visitPlace {bench next : Workbench σ} {size place : Nat}
    {texts : List String} (hgen : PartsFollow bench.setting gen count)
    (hc : bench.children.get .sourceUnit = unitChildren count)
    (h : (Synth.visitPlace gen .sourceUnit size place).run bench = (.ok texts, next)) :
    next.children.get .sourceUnit = unitChildren count ∧ next.setting = bench.setting := by
  rw [Synth.run_visitPlace, hc] at h
  split at h
  · split at h
    · next kind hkind =>
      obtain ⟨ht, hu⟩ := mem_keys_unitChildren (List.mem_of_getElem? hkind)
      obtain ⟨-, hs, hc'⟩ := (hgen.visitChild kind _ ht hu rfl).run_of_ok hc h
      exact ⟨hc', hs⟩
    · cases h
      exact ⟨hc, rfl⟩
  · cases h

theorem visitPlaces_congr (h : ∀ kind, kind ≠ .testCase → kind ≠ .sourceUnit → gen kind = gen' kind)
    {bench : Workbench σ} (hgen : PartsFollow bench.setting gen count)
    (hc : bench.children.get .sourceUnit = unitChildren count) (size : Nat) (places : List Nat) :
    (Synth.visitPlaces gen .sourceUnit size places).run bench =
      (Synth.visitPlaces gen' .sourceUnit size places).run bench := by
  induction places generalizing bench with
  | nil => rfl
  | cons place places ih =>
    have hplace : (Synth.visitPlace gen .sourceUnit size place).run bench =
        (Synth.visitPlace gen' .sourceUnit size place).run bench := by
      simp only [Synth.run_visitPlace, hc]
      split
      · split
        · next kind hkind =>
          obtain ⟨ht, hu⟩ := mem_keys_unitChildren (List.mem_of_getElem? hkind)
          rw [Synth.visitChild, Synth.visitChild, h kind ht hu]
        · rfl
      · rfl
    rw [Synth.visitPlaces, Synth.visitPlaces, Synth.run_bind, Synth.run_bind, ← hplace]
    cases hrun : (Synth.visitPlace gen .sourceUnit size place).run bench with
    | mk result next =>
      cases result with
      | error fault => rfl
      | ok texts =>
        obtain ⟨hc', hs⟩ := hgen.children_of_visitPlace hc hrun
        have hrest := ih (hs ▸ hgen) hc'
        simp only [Synth.run_bind, hrest]

theorem Synth.generateWith_sourceUnit_congr
    (h : ∀ kind, kind ≠ .testCase → kind ≠ .sourceUnit → gen kind = gen' kind)
    (hgen : ∀ setting count, PartsFollow setting gen count) :
    generateWith gen .sourceUnit = generateWith gen' .sourceUnit := by
  apply Synth.ext
  intro bench
  have hfollows : Follows bench.setting (fun _ => True) (Synth.setUp (σ := σ) .sourceUnit) _ _ :=
    setUp_sourceUnit_follows
  have htracks := hfollows bench rfl trivial
  simp only [generateWith, run_bind]
  generalize (Synth.setUp .sourceUnit).run bench = outcome at htracks ⊢
  generalize Sampling.run _ bench.random = expected at htracks
  cases htracks with
  | returned bench' hs hchildren =>
    have hplaces := visitPlaces_congr h (hgen _ _) hchildren
    simp only [visit, visitChildren, run_bind, run_get, hplaces]
  | failed bench' hs => rfl
  | stalled bench' hs => rfl

end

theorem Synth.generateAt_part (depth : Nat) {kind : Kind} (ht : kind ≠ .testCase)
    (hu : kind ≠ .sourceUnit) : generateAt (σ := σ) (depth + 1) kind = generate kind := by
  cases kind with
  | testCase => exact absurd rfl ht
  | sourceUnit => exact absurd rfl hu
  | pragma => rfl
  | importDirective => rfl
  | contract => rfl

/-- How deep a source unit is nested makes no difference to it. -/
theorem Synth.generateAt_sourceUnit (depth : Nat) :
    generateAt (σ := σ) (depth + 2) .sourceUnit = generate .sourceUnit := by
  apply generateWith_sourceUnit_congr
  · intro kind ht hu
    rw [generateAt_part depth ht hu, generateAt_part 1 ht hu]
  · exact fun setting count => partsFollow_generateAt depth count

theorem exists_count_of_setUp_testCase {bench planned : Workbench σ}
    (h : (Synth.setUp .testCase).run bench = (.ok (), planned)) :
    ∃ n : Nat, (Sampling.oneTo bench.config.maxUnits.toNat).run bench.random =
        some (n, planned.random) ∧
      planned.setting = bench.setting ∧ planned.draft = bench.draft ∧
      (planned.children.get .testCase).find? .sourceUnit = some (n : Int) := by
  obtain ⟨n, hrun, hsetting, hchildren⟩ :=
    (setUp_testCase_follows (I := fun _ => True)).exists_of_ok trivial h
  have hmax := Recipe.canDraw_of_reaches_oneTo (.of_run hrun)
  simp only [Recipe.oneTo_eq_draw hmax, Recipe.run_draw, Sampling.run_bind_pure_eq_some,
    Prod.mk.injEq, Except.ok.injEq] at hrun
  obtain ⟨n, hdraw, rfl, hdraft⟩ := hrun
  exact ⟨n, hdraw, hsetting, hdraft.symm, hchildren⟩

/-- Units that are written one after the other, each with its path and with the body that the
generator of source units has returned for it. -/
inductive UnitRuns : Workbench σ → List (String × String) → Workbench σ → Prop
  | nil (bench : Workbench σ) : UnitRuns bench [] bench
  | cons {bench added written final : Workbench σ} {path body : String}
      {units : List (String × String)} (hadd : Synth.addUnit.run bench = (.ok path, added))
      (hbody : (Synth.generate .sourceUnit).run added = (.ok body, written))
      (hrest : UnitRuns written units final) : UnitRuns bench ((path, body) :: units) final

theorem UnitRuns.of_collect {depth n : Nat} {bench final : Workbench σ} {texts : List String}
    (h : (Synth.collect (Synth.writeUnit (Synth.generateAt (depth + 2))) n).run bench =
      (.ok texts, final)) :
    ∃ units, UnitRuns bench units final ∧ units.length = n ∧ texts = units.map unitText := by
  induction n generalizing bench texts with
  | zero =>
    obtain ⟨rfl, rfl⟩ := Synth.run_pure_eq_ok.1 h
    exact ⟨[], .nil _, rfl, rfl⟩
  | succ n ih =>
    obtain ⟨text, written, hunit, h⟩ := Synth.run_bind_eq_ok.1 h
    obtain ⟨rest, final', hrest, h⟩ := Synth.run_bind_eq_ok.1 h
    obtain ⟨rfl, rfl⟩ := Synth.run_pure_eq_ok.1 h
    obtain ⟨path, added, hadd, hunit⟩ := Synth.run_bind_eq_ok.1 hunit
    obtain ⟨body, written', hbody, hunit⟩ := Synth.run_bind_eq_ok.1 hunit
    obtain ⟨rfl, rfl⟩ := Synth.run_pure_eq_ok.1 hunit
    rw [Synth.generateAt_sourceUnit] at hbody
    obtain ⟨units, hunits, rfl, rfl⟩ := ih hrest
    exact ⟨(path, body) :: units, .cons hadd hbody hunits, rfl, rfl⟩

theorem UnitRuns.of_writeTestCase {depth : Nat} {bench final : Workbench σ} {text : String}
    (h : (Synth.writeTestCase (Synth.generateAt (depth + 2))).run bench = (.ok text, final)) :
    ∃ n units, (bench.children.get .testCase).find? .sourceUnit = some n ∧
      UnitRuns bench units final ∧ units.length = n.toNat ∧
      text = Text.joinLines (units.map unitText) := by
  obtain ⟨_, bench, hrequire, h⟩ := Synth.run_bind_eq_ok.1 h
  obtain rfl := Synth.requireKind_eq_ok hrequire
  obtain ⟨_, _, hget, h⟩ := Synth.run_bind_eq_ok.1 h
  obtain ⟨rfl, rfl⟩ := Synth.run_get_eq_ok.1 hget
  split at h
  · next n hn =>
    obtain ⟨texts, written, hcollect, h⟩ := Synth.run_bind_eq_ok.1 h
    obtain ⟨rfl, rfl⟩ := Synth.run_pure_eq_ok.1 h
    obtain ⟨units, hunits, hlen, rfl⟩ := of_collect hcollect
    exact ⟨n, units, hn, hunits, hlen, rfl⟩
  · cases h

theorem UnitRuns.of_program {bench bench' : Workbench σ} {text : String}
    (h : Synth.program.run bench = (.ok text, bench')) :
    ∃ planned units written,
      (Synth.setUp .testCase).run { bench with draft := .empty } = (.ok (), planned) ∧
      UnitRuns planned units written ∧ text = Text.joinLines (units.map unitText) ∧
      bench'.draft = written.draft := by
  obtain ⟨_, emptied, hempty, h⟩ := Synth.run_bind_eq_ok.1 h
  obtain rfl : { bench with draft := .empty } = emptied := congrArg Prod.snd hempty
  obtain ⟨_, required, hrequire, h⟩ := Synth.run_bind_eq_ok.1 h
  obtain rfl := Synth.requireKind_eq_ok hrequire
  obtain ⟨text', generated, hgenerate, h⟩ := Synth.run_bind_eq_ok.1 h
  obtain ⟨planned, written, hplanned, hwrite, hgenerated⟩ := Synth.generateWith_eq_ok hgenerate
  obtain ⟨-, units, -, hunits, -, rfl⟩ := of_writeTestCase hwrite
  obtain ⟨_, _, hget, h⟩ := Synth.run_bind_eq_ok.1 h
  obtain ⟨rfl, rfl⟩ := Synth.run_get_eq_ok.1 hget
  obtain ⟨_, described, hdescribe, h⟩ := Synth.run_bind_eq_ok.1 h
  obtain ⟨rfl, rfl⟩ := Synth.run_pure_eq_ok.1 h
  refine ⟨planned, units, written, hplanned, hunits, rfl, ?_⟩
  rw [← Synth.note_eq_ok hdescribe, hgenerated]

theorem Recipe.exists_plan_of_reaches {setting : Setting} {blueprint : Blueprint} {body : String}
    {out : Draft} (hparts : blueprint ≠ [] → setting.PartsReady)
    (h : ((sourceUnit setting).run ((blueprint.draft setting.config).add
      (setting.config.unitPath blueprint.length))).Reaches (.ok body, out)) :
    setting.PartsReady ∧ ∃ plan : UnitPlan, plan.IsPossible setting.config blueprint.length ∧
      body = plan.body setting.config blueprint.length ∧
      out = Blueprint.draft setting.config (blueprint ++ [plan]) := by
  have hsize := blueprint.size_add setting.config
  have hready : setting.PartsReady := by
    by_cases hfirst : blueprint = []
    · apply Setting.partsReady_of_not_lacksParts
      intro hlacks
      refine (stops_sourceUnit_of_lacksParts hlacks ?_).not_reaches_ok h
      rw [hsize, hfirst]
      exact Nat.le_refl 1
    · exact hparts hfirst
  have himports : blueprint ≠ [] → setting.ImportsReady := by
    intro hlater
    apply Setting.importsReady_of_not_lacksImports
    intro hlacks
    refine not_reaches_ok_of_lacksImports hready hlacks ?_ h
    rw [hsize]
    exact Nat.succ_lt_succ (List.length_pos_iff.2 hlater)
  rw [run_sourceUnit_add hready himports] at h
  simp only [Sampling.reaches_bind, Sampling.reaches_pure, Prod.mk.injEq, Except.ok.injEq] at h
  obtain ⟨plan, hplan, rfl, rfl⟩ := h
  exact ⟨hready, plan, UnitPlan.reaches_decode.1 hplan, rfl, rfl⟩

/-- Units that are written one after the other carry on a blueprint. -/
theorem UnitRuns.exists_plans {bench final : Workbench σ} {units : List (String × String)}
    (h : UnitRuns bench units final) {config : Config} (blueprint : Blueprint)
    (hconfig : bench.config = config) (hdraft : bench.draft = blueprint.draft config)
    (hparts : blueprint ≠ [] → bench.setting.PartsReady) :
    ∃ plans : Blueprint,
      (∀ (i : Nat) (plan : UnitPlan), plans[i]? = some plan →
        plan.IsPossible config (blueprint.length + i)) ∧
      units = plans.mapIdx (fun i plan =>
        (config.unitPath (blueprint.length + i), plan.body config (blueprint.length + i))) ∧
      final.draft = Blueprint.draft config (blueprint ++ plans) := by
  -- The draft is that of a blueprint throughout, and its length is the number of the next unit.
  induction h generalizing blueprint with
  | nil bench => exact ⟨[], nofun, rfl, by rw [List.append_nil, hdraft]⟩
  | @cons bench added written final path body units hadd hbody hrest ih =>
    obtain ⟨rfl, rfl⟩ := Synth.addUnit_eq_ok hadd
    obtain ⟨hreach, hsetting⟩ := (generate_follows .sourceUnit).reaches_of_ok trivial hbody
    subst hconfig
    have hpath : bench.draft.added = blueprint.length := by
      rw [hdraft]
      rfl
    rw [hpath] at hreach ⊢
    simp only [hdraft] at hreach
    obtain ⟨hready, plan, hplan, rfl, hwritten⟩ := Recipe.exists_plan_of_reaches hparts hreach
    have hlen : (blueprint ++ [plan]).length = blueprint.length + 1 := List.length_append
    have hconfig : written.config = bench.config := congrArg Setting.config hsetting
    obtain ⟨plans, hplans, rfl, hfinal⟩ := ih (blueprint ++ [plan]) hconfig hwritten
      (by rw [hsetting]; exact fun _ => hready)
    refine ⟨plan :: plans, ?_, ?_, ?_⟩
    · intro i plan' hplan'
      cases i with
      | zero =>
        cases hplan'
        exact hplan
      | succ i =>
        have hlater := hplans i plan' hplan'
        rwa [hlen, Nat.add_assoc, Nat.add_comm 1 i] at hlater
    · simp only [List.mapIdx_cons, hlen, Nat.add_assoc, Nat.add_comm 1, Nat.add_zero]
      rfl
    · rw [hfinal, List.append_assoc]
      rfl

end SoliditySynth
