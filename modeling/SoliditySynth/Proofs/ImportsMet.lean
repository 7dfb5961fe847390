import SoliditySynth.Proofs.ImportRuns

namespace SoliditySynth

namespace Recipe

variable {α β : Type} {setting : Setting} {draft : Draft}

/-- However the draws fall, the recipe returns, or it comes upon a bound that cannot be written. -/
def Returns (setting : Setting) (r : Recipe α) (draft : Draft) : Prop :=
  ∀ outcome, (r.run draft).Reaches outcome →
    (∃ a out, outcome = (.ok a, out)) ∨
      (∃ out, outcome = (.error .tooManyDigits, out)) ∧
        ¬(setting.config.CanWrite setting.config.maxUnits ∧
          setting.config.CanWrite setting.config.maxImports)

theorem returns_pure (a : α) : Returns setting (pure a : Recipe α) draft := by
  rintro _ rfl
  exact .inl ⟨a, draft, rfl⟩

theorem Returns.bind {r : Recipe α} {k : α → Recipe β} (h : Returns setting r draft)
    (hk : ∀ a out, (r.run draft).Reaches (.ok a, out) → Returns setting (k a) out) :
    Returns setting (r >>= k) draft := by
  intro outcome hreach
  rw [run_bind, Sampling.reaches_bind] at hreach
  obtain ⟨middle, hmiddle, houtcome⟩ := hreach
  rcases h middle hmiddle with ⟨a, out, rfl⟩ | ⟨⟨out, rfl⟩, hlong⟩
  · exact hk a out hmiddle outcome houtcome
  · exact .inr ⟨⟨out, houtcome.symm⟩, hlong⟩

theorem returns_draw (d : Sampling α) : Returns setting (draw d) draft := by
  intro outcome hreach
  rw [run_draw, Sampling.reaches_bind] at hreach
  obtain ⟨a, -, rfl⟩ := hreach
  exact .inl ⟨a, draft, rfl⟩

theorem returns_collect {r : Recipe String} (h : ∀ draft, Returns setting r draft) (n : Nat)
    (draft : Draft) : Returns setting (collect r n) draft := by
  induction n generalizing draft with
  | zero => exact returns_pure _
  | succ n ih =>
    apply (h draft).bind
    intro text out _
    apply (ih out).bind
    intro texts out' _
    exact returns_pure _

variable (h : setting.Provided)
include h

theorem returns_sourceUnit (draft : Draft) (path : String) :
    Returns setting (sourceUnit setting) (draft.add path) := by
  have hwriting := draft.isWriting_add path
  -- A unit that has imported nothing can import all others, however many it asks for.
  have hoffer := hwriting.length_importable rfl
  intro outcome hreach
  by_cases hlong : 1 < (draft.add path).size ∧
      ¬setting.config.CanWrite setting.config.maxImports
  · rw [run_sourceUnit_unwritten hlong.2 hlong.1, Sampling.reaches_pure] at hreach
    exact .inr ⟨⟨_, hreach.symm⟩, fun hwrite => hlong.2 hwrite.2⟩
  · have himports (hsize : 1 < (draft.add path).size) : setting.ImportsReady := by
      apply h.importsReady
      by_contra hwrite
      exact hlong ⟨hsize, hwrite⟩
    rw [run_sourceUnit h.partsReady himports hwriting (Nat.le_of_eq hoffer.symm)] at hreach
    simp only [Sampling.reaches_bind, Sampling.reaches_pure] at hreach
    obtain ⟨_, -, _, -, _, -, _, -, rfl⟩ := hreach
    exact .inl ⟨_, _, rfl⟩

theorem returns_unit (draft : Draft) : Returns setting (unit setting) draft := by
  intro outcome hreach
  rw [unit, run_bind, Sampling.reaches_bind] at hreach
  obtain ⟨_, rfl, hreach⟩ := hreach
  have hunit := (returns_sourceUnit h draft (draft.nextPath setting.config)).bind
    (k := fun body => pure (Text.joinLines [Header.line (draft.nextPath setting.config), body, ""]))
    fun _ _ _ => returns_pure _
  exact hunit outcome hreach

theorem returns_testCase (draft : Draft) : Returns setting (testCase setting) draft := by
  by_cases hwrite : setting.config.CanWrite setting.config.maxUnits
  · rw [testCase_eq ⟨hwrite, h.maxUnits⟩ (h.registered _)]
    apply (returns_draw _).bind
    intro n out _
    apply (returns_collect (returns_unit h) n out).bind
    intro texts out' _
    exact returns_pure _
  · intro outcome hreach
    rw [testCase, run_bind, run_oneTo_unwritten hwrite, pure_bind, andThen_error,
      Sampling.reaches_pure] at hreach
    exact .inr ⟨⟨draft, hreach.symm⟩, fun hwrites => hwrite hwrites.1⟩

end Recipe

variable {σ : Type} [Random.Sampler σ]

theorem Follows.returns {α : Type} {I J : Children → Prop} {m : Synth σ α} {r : Recipe α}
    {bench : Workbench σ} (h : Follows bench.setting I m r (Same J)) (hI : I bench.children)
    (hreturns : r.Returns bench.setting bench.draft)
    (hends : (m.run bench).1 ≠ .error .stalled) {fault : Fault}
    (hfault : (m.run bench).1 = .error fault) :
    fault = .tooManyDigits ∧ ¬(bench.config.CanWrite bench.config.maxUnits ∧
      bench.config.CanWrite bench.config.maxImports) := by
  cases hrun : (r.run bench.draft).run bench.random with
  | none => exact absurd (h.run_of_none hI hrun) hends
  | some ending =>
    obtain ⟨⟨result, out⟩, random⟩ := ending
    obtain ⟨final, hfinal, -⟩ := h.run_of_some hI hrun
    rw [hfinal] at hfault
    rcases hreturns _ (.of_run hrun) with ⟨a, out', hok⟩ | ⟨⟨out', herror⟩, hlong⟩
    · rw [(Prod.mk.inj hok).1] at hfault
      cases hfault
    · rw [(Prod.mk.inj herror).1] at hfault
      exact ⟨(Except.error.inj hfault).symm, hlong⟩

/-- Units that are started and generated one after the other, with the bodies that are returned. -/
inductive UnitsServed : Workbench σ → List (SourceUnit × String) → Workbench σ → Prop
  | nil (bench : Workbench σ) : UnitsServed bench [] bench
  | cons {bench started written final : Workbench σ} {unit : SourceUnit} {body : String}
      {units : List (SourceUnit × String)}
      (hadd : Synth.addUnit.run bench = (.ok unit.path, started))
      (hunit : UnitServed started unit body written) (hrest : UnitsServed written units final) :
      UnitsServed bench ((unit, body) :: units) final

section Units

variable {bench started written final : Workbench σ} {unit : SourceUnit} {body : String}
  {units : List (SourceUnit × String)}

theorem UnitServed.of_addUnit (h : UnitServed started unit body written)
    (hadd : Synth.addUnit.run bench = (.ok unit.path, started)) :
    written.config = bench.config ∧ unit.path = bench.config.unitPath bench.draft.added ∧
      written.draft = (bench.draft.add unit.path).put unit := by
  obtain ⟨hname, rfl⟩ := Synth.addUnit_eq_ok hadd
  cases h with
  | mk _ _ _ _ _ _ hwritten hdraft =>
    obtain ⟨-, hsetting, -⟩ := (generate_follows .sourceUnit).run_of_ok trivial hwritten
    exact ⟨congrArg Setting.config hsetting, hname.symm, hdraft⟩

theorem UnitsServed.of_unitRuns {texts : List (String × String)} (h : UnitRuns bench texts final) :
    ∃ units, UnitsServed bench units final ∧
      texts = units.map fun unit => (unit.1.path, unit.2) := by
  induction h with
  | nil bench => exact ⟨[], .nil bench, rfl⟩
  | @cons bench started written final path body texts hadd hbody hrest ih =>
    obtain ⟨-, hstarted⟩ := Synth.addUnit_eq_ok hadd
    have hwriting : started.draft.IsWriting { path } := by
      rw [← hstarted]
      exact bench.draft.isWriting_add path
    obtain ⟨unit, rfl, hunit⟩ := UnitServed.of_generate hwriting hbody
    obtain ⟨units, hunits, rfl⟩ := ih
    exact ⟨(unit, body) :: units, .cons hadd hunit hunits, rfl⟩

theorem UnitsServed.find?_of_ne (h : UnitsServed bench units final) {path : String}
    (hpath : ∀ k, bench.draft.added ≤ k → path ≠ bench.config.unitPath k) :
    final.draft.units.find? path = bench.draft.units.find? path := by
  induction h with
  | nil bench => rfl
  | @cons bench started written final unit body units hadd hunit hrest ih =>
    obtain ⟨hconfig, hname, hdraft⟩ := hunit.of_addUnit hadd
    have hadded : written.draft.added = bench.draft.added + 1 := by rw [hdraft]; rfl
    have hne : unit.path ≠ path := by
      rw [hname]
      exact (hpath _ (Nat.le_refl _)).symm
    rw [ih, hdraft, Draft.find?_put, if_neg hne]
    · change (bench.draft.declare unit.path).units.find? path = _
      rw [Draft.find?_declare, if_neg hne]
    · intro k hk
      rw [hconfig]
      exact hpath k (by omega)

theorem UnitsServed.stored (h : UnitsServed bench units final) :
    ∀ unit ∈ units, final.draft.units.find? unit.1.path = some unit.1 := by
  induction h with
  | nil bench => nofun
  | @cons bench started written final unit body units hadd hunit hrest ih =>
    obtain ⟨hconfig, hname, hdraft⟩ := hunit.of_addUnit hadd
    have hadded : written.draft.added = bench.draft.added + 1 := by rw [hdraft]; rfl
    rintro _ (_ | ⟨_, hmem⟩)
    -- The units that follow have later numbers, so none of them takes the place of this one.
    · rw [hrest.find?_of_ne, hdraft, Draft.find?_put, if_pos rfl]
      intro k hk hpath
      rw [hconfig, hname] at hpath
      have := bench.config.unitPath_injective hpath
      omega
    · exact ih _ hmem

end Units

def collidingSteps : List Command :=
  [.draft .addUnit, .draft (.declare "su1.sol"),
    .draft (.unit (some "su1.sol") (.addImport "su0.sol"))]

def collidingBench : Workbench Sampling.Script :=
  ((Workbench.start 0 .standard (Sampling.Script.mk [0, 1, 0, 0, 0])).steps collidingSteps).2

def collidingText : String :=
  "==== Source: su1.sol ====\n// SPDX-License-Identifier: GPL-3.0\npragma abicoder v1;\n" ++
    "import \"su0.sol\";\ncontract C_su1_0 \x7b\x7d\n"

end SoliditySynth
