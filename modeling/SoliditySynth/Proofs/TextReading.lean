import Mathlib.Logic.Function.Basic
import SoliditySynth.Proofs.Roundtrip

namespace SoliditySynth

structure Config.OneLine (config : Config) : Prop where
  unitPrefix : '\n' ∉ config.unitPrefix.toList
  unitSuffix : '\n' ∉ config.unitSuffix.toList
  pragmas : ∀ pragma ∈ config.genericPragmas ++ config.abiPragmas, '\n' ∉ pragma.toList

theorem Config.OneLine.newline_notMem_unitPath {config : Config} (h : config.OneLine)
    (number : Nat) : '\n' ∉ (config.unitPath number).toList := by
  rw [toList_unitPath, List.mem_append, List.mem_append]
  rintro ((hmem | hmem) | hmem)
  · exact h.unitPrefix hmem
  · exact notMem_toDigits (by decide) number hmem
  · exact h.unitSuffix hmem

theorem map_append_cons_inj {α β : Type} {f : α → β} {mark : β} (hf : Function.Injective f)
    (hmark : ∀ a, f a ≠ mark) {as bs : List α} {rest rest' : List β}
    (h : as.map f ++ mark :: rest = bs.map f ++ mark :: rest') : as = bs ∧ rest = rest' := by
  induction as generalizing bs with
  | nil =>
    cases bs with
    | nil => exact ⟨rfl, (List.cons.inj h).2⟩
    | cons b bs => exact absurd (List.cons.inj h).1.symm (hmark b)
  | cons a as ih =>
    cases bs with
    | nil => exact absurd (List.cons.inj h).1 (hmark a)
    | cons b bs =>
      obtain ⟨hhead, htail⟩ := List.cons.inj h
      obtain ⟨rfl, hrest⟩ := ih htail
      exact ⟨by rw [hf hhead], hrest⟩

theorem importDirective_injective : Function.Injective importDirective := by
  intro path path' h
  have hl := congrArg String.toList h
  simp only [importDirective, String.toList_append, List.append_cancel_right_eq,
    List.append_cancel_left_eq] at hl
  exact String.toList_injective hl

theorem importDirective_ne_contractDirective (path : String) (unit : SourceUnit) :
    importDirective path ≠ contractDirective unit := by
  intro h
  have hhead := congrArg (fun l => l.toList.head?) h
  simp [importDirective, contractDirective] at hhead

namespace UnitPlan

variable {config : Config} {number : Nat} {plan : UnitPlan}

def sourceLines (config : Config) (number : Nat) (plan : UnitPlan) : List String :=
  Header.line (config.unitPath number) :: plan.generic :: plan.abi ::
    (plan.imports.map importDirective ++ [contractDirective { path := config.unitPath number }, ""])

theorem lines_body (hline : config.OneLine) (hplan : plan.IsPossible config number) :
    Text.lines (plan.body config number) =
      plan.generic :: plan.abi ::
        (plan.imports.map importDirective ++
          [contractDirective { path := config.unitPath number }]) := by
  have hgeneric : Text.lines plan.generic = [plan.generic] :=
    Text.lines_of_notMem (hline.pragmas _ (List.mem_append_left _ hplan.generic))
  have habi : Text.lines plan.abi = [plan.abi] :=
    Text.lines_of_notMem (hline.pragmas _ (List.mem_append_right _ hplan.abi))
  have himports : (plan.imports.flatMap fun path => Text.lines (importDirective path)) =
      plan.imports.map importDirective := by
    rw [List.map_eq_flatMap]
    apply List.flatMap_congr
    intro path himport
    obtain ⟨k, -, rfl⟩ := hplan.earlier path himport
    exact lines_importDirective (hline.newline_notMem_unitPath k)
  rw [← joinLines_eq_body, Text.lines_joinLines (by simp), List.flatMap_cons, List.flatMap_append,
    Text.lines_joinLines (by simp), List.flatMap_map, himports, List.flatMap_singleton,
    lines_contractDirective (hline.newline_notMem_unitPath number)]
  simp [hgeneric, habi]

theorem lines_text (hline : config.OneLine) (hplan : plan.IsPossible config number) :
    Text.lines (plan.text config number) = plan.sourceLines config number := by
  have htext : plan.text config number =
      unitText (config.unitPath number, plan.body config number) :=
    (joinLines_eq_text config number plan).symm
  have hunit := Bundle.lines_unitText (hline.newline_notMem_unitPath number)
    (plan.body config number)
  rw [htext, hunit, lines_body hline hplan, sourceLines]
  simp

/-- The lines of a unit end where its contract ends, and so they can be told from what follows. -/
theorem sourceLines_append_inj {plan' : UnitPlan} {rest rest' : List String}
    (h : plan.sourceLines config number ++ rest = plan'.sourceLines config number ++ rest') :
    plan = plan' ∧ rest = rest' := by
  obtain ⟨generic, abi, imports⟩ := plan
  obtain ⟨generic', abi', imports'⟩ := plan'
  simp only [sourceLines, List.cons_append, List.append_assoc, List.cons.injEq, true_and] at h
  obtain ⟨rfl, rfl, himports⟩ := h
  obtain ⟨rfl, hrest⟩ := map_append_cons_inj importDirective_injective
    (fun path => importDirective_ne_contractDirective path _) himports
  exact ⟨rfl, (List.cons.inj hrest).2⟩

end UnitPlan

namespace Blueprint

variable {config : Config}

def sourceLines (config : Config) : Nat → Blueprint → List String
  | _, [] => []
  | number, plan :: plans => plan.sourceLines config number ++ sourceLines config (number + 1) plans

theorem sourceLines_injective {number : Nat} {plans plans' : Blueprint}
    (h : sourceLines config number plans = sourceLines config number plans') : plans = plans' := by
  -- The units on both sides have the same numbers, so their headers agree and can be passed over.
  induction plans generalizing number plans' with
  | nil =>
    cases plans' with
    | nil => rfl
    | cons plan' plans' => cases h
  | cons plan plans ih =>
    cases plans' with
    | nil => cases h
    | cons plan' plans' =>
      obtain ⟨rfl, hrest⟩ := UnitPlan.sourceLines_append_inj h
      rw [ih hrest]

theorem flatMap_lines (hline : config.OneLine) {number : Nat} {plans : Blueprint}
    (hplans : ∀ i (plan : UnitPlan), plans[i]? = some plan → plan.IsPossible config (number + i)) :
    (plans.mapIdx fun i => UnitPlan.text config (number + i)).flatMap Text.lines =
      sourceLines config number plans := by
  induction plans generalizing number with
  | nil => rfl
  | cons plan plans ih =>
    have hnext (i : Nat) : number + (i + 1) = number + 1 + i := by omega
    have hrest := @ih (number + 1) fun i plan' hplan' => by
      rw [← hnext]
      exact hplans (i + 1) plan' hplan'
    have hfirst : plan.IsPossible config number := hplans 0 plan rfl
    have hshift : (fun i => UnitPlan.text config (number + (i + 1))) =
        fun i => UnitPlan.text config (number + 1 + i) := by
      funext i
      rw [hnext]
    rw [List.mapIdx_cons, List.flatMap_cons, sourceLines, Nat.add_zero,
      UnitPlan.lines_text hline hfirst, hshift, hrest]

theorem lines_text (hline : config.OneLine) {blueprint : Blueprint}
    (h : blueprint.IsPossible config) :
    Text.lines (blueprint.text config) = sourceLines config 0 blueprint := by
  have hne : blueprint.mapIdx (UnitPlan.text config) ≠ [] := by
    intro hnil
    have hnonempty := h.nonempty
    rw [List.mapIdx_eq_nil_iff.1 hnil] at hnonempty
    exact absurd hnonempty (by decide)
  have hplans := @flatMap_lines _ hline 0 blueprint fun i plan hplan => by
    rw [Nat.zero_add]
    exact h.units i plan hplan
  simp only [Nat.zero_add] at hplans
  unfold text
  rw [← Text.joinLines_eq_intercalate, Text.lines_joinLines hne, hplans]

/-- The text of a possible blueprint is that of no other. -/
theorem text_injective (hline : config.OneLine) {blueprint blueprint' : Blueprint}
    (h : blueprint.IsPossible config) (h' : blueprint'.IsPossible config)
    (heq : blueprint.text config = blueprint'.text config) : blueprint = blueprint' := by
  have hlines : sourceLines config 0 blueprint = sourceLines config 0 blueprint' := by
    rw [← lines_text hline h, heq, lines_text hline h']
  exact sourceLines_injective hlines

end Blueprint

/-- The text of a program determines what was chosen for it. Programs of one configuration and one
text, whatever else was set and drawn, were decoded from their draws to the same blueprint and end
in the same draft. -/
theorem program_text_determines {σ σ' : Type} [Random.Sampler σ] [Random.Sampler σ']
    (bench : Workbench σ) (other : Workbench σ') {bench' : Workbench σ} {other' : Workbench σ'}
    {text : String} (hconfig : other.config = bench.config) (hline : bench.config.OneLine)
    (hbench : Synth.program.run bench = (.ok text, bench'))
    (hother : Synth.program.run other = (.ok text, other')) :
    bench'.draft = other'.draft ∧
    ∃ blueprint : Blueprint,
      (Blueprint.decode bench.config).run bench.random = some (blueprint, bench'.random) ∧
      (Blueprint.decode bench.config).run other.random = some (blueprint, other'.random) ∧
      text = blueprint.text bench.config ∧ bench'.draft = blueprint.draft bench.config := by
  obtain ⟨blueprint, hdecode, htext, hdraft⟩ := decode_of_returned hbench
  obtain ⟨blueprint', hdecode', htext', hdraft'⟩ := decode_of_returned hother
  rw [hconfig] at hdecode' htext' hdraft'
  obtain rfl : blueprint = blueprint' :=
    Blueprint.text_injective hline (Blueprint.reaches_decode.1 (.of_run hdecode))
      (Blueprint.reaches_decode.1 (.of_run hdecode')) (htext.symm.trans htext')
  exact ⟨hdraft.trans hdraft'.symm, blueprint, hdecode, hdecode', htext, hdraft⟩

theorem program_text_determines_pair :
    ∃ bench' other' : Workbench Sampling.Script,
      Synth.program.run (Workbench.start 0 .standard (Sampling.Script.mk [1, 0, 1, 1, 1, 0, 0])) =
        (.ok (Blueprint.pair.text .standard), bench') ∧
      Synth.program.run
          (Workbench.start 7 .standard (Sampling.Script.mk [1, 0, 1, 1, 1, 0, 0, 2])) =
        (.ok (Blueprint.pair.text .standard), other') ∧
      bench'.draft = other'.draft := by
  have hlonger : (Blueprint.decode .standard).run (Sampling.Script.mk [1, 0, 1, 1, 1, 0, 0, 2]) =
      some (.pair, ⟨[2]⟩) := by
    decide +kernel
  have hline : Config.standard.OneLine := ⟨by decide, by decide, by decide⟩
  obtain ⟨bench', hbench, -⟩ :=
    (Setting.ready_standard 0 _).run_program_of_decode Blueprint.run_decode_pair
  obtain ⟨other', hother, -⟩ := (Setting.ready_standard 7 _).run_program_of_decode hlonger
  obtain ⟨hdraft, -⟩ := program_text_determines
    (Workbench.start 0 .standard (Sampling.Script.mk [1, 0, 1, 1, 1, 0, 0]))
    (Workbench.start 7 .standard (Sampling.Script.mk [1, 0, 1, 1, 1, 0, 0, 2]))
    rfl hline hbench hother
  exact ⟨bench', other', hbench, hother, hdraft⟩

end SoliditySynth
