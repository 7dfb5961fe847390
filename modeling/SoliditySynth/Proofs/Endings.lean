import SoliditySynth.Proofs.Stopping

namespace SoliditySynth

namespace Setting

/-- What stands in the way of the program first is a bound that cannot be written. -/
def MeetsLongBound (setting : Setting) : Prop :=
  setting.registered.get .testCase = true ∧ ¬setting.config.CanWrite setting.config.maxUnits ∨
    ¬setting.LacksUnits ∧ ¬setting.LacksParts ∧ ¬setting.config.CanWrite setting.config.maxImports

/-- The fault with which the program fails, if it fails. All that is missing is a precondition that
does not hold, unless a bound that cannot be written comes first. -/
def FailsWith (setting : Setting) (fault : Fault) : Prop :=
  (setting.MeetsLongBound → fault = .tooManyDigits) ∧
    (¬setting.MeetsLongBound → fault.isViolation = true)

variable {setting : Setting}

theorem meetsLongBound_of_units (h : setting.LacksUnits) :
    setting.MeetsLongBound ↔ setting.registered.get .testCase = true ∧
      ¬setting.config.CanWrite setting.config.maxUnits :=
  ⟨fun hlong => hlong.resolve_right fun h' => h'.1 h, .inl⟩

theorem not_meetsLongBound_of_parts (hunits : ¬setting.LacksUnits) (h : setting.LacksParts) :
    ¬setting.MeetsLongBound := by
  rintro (⟨-, hwrite⟩ | ⟨-, hparts, -⟩)
  · exact hwrite (canDraw_of_not_lacksUnits hunits).2.1.written
  · exact hparts h

theorem meetsLongBound_iff (hunits : ¬setting.LacksUnits) (hparts : ¬setting.LacksParts) :
    setting.MeetsLongBound ↔ ¬setting.config.CanWrite setting.config.maxImports := by
  constructor
  · rintro (⟨-, hwrite⟩ | ⟨-, -, hwrite⟩)
    · exact absurd (canDraw_of_not_lacksUnits hunits).2.1.written hwrite
    · exact hwrite
  · exact fun hwrite => .inr ⟨hunits, hparts, hwrite⟩

end Setting

/-- The outcome and the draft of a program that has drawn the given number of units first. -/
inductive Setting.Ends (setting : Setting) (count? : Option Nat) :
    Except Fault String × Draft → Prop
  | noUnit (h : setting.LacksUnits) {fault : Fault} (hfault : setting.FailsWith fault) :
      Ends setting count? (.error fault, .empty)
  | noParts (hunits : ¬setting.LacksUnits) (h : setting.LacksParts) {fault : Fault}
      (hfault : setting.FailsWith fault) :
      Ends setting count? (.error fault, Draft.empty.add (setting.config.unitPath 0))
  | noImports (hunits : ¬setting.LacksUnits) (hparts : ¬setting.LacksParts)
      (h : setting.LacksImports) {n : Nat} (hn : count? = some n) (htwo : 2 ≤ n) {fault : Fault}
      (hfault : setting.FailsWith fault) :
      Ends setting count? (.error fault, Recipe.secondStarted setting.config)
  | written (hunits : ¬setting.LacksUnits) (hparts : ¬setting.LacksParts) {n : Nat}
      (hn : count? = some n) (himports : 2 ≤ n → ¬setting.LacksImports) {blueprint : Blueprint}
      (h : (Blueprint.decode setting.config).Reaches blueprint) :
      Ends setting count? (.ok (blueprint.text setting.config), blueprint.draft setting.config)

section

variable {σ : Type} [Random.Sampler σ]

/-- The number of units that a program asks for, which is the first number that it draws. -/
def Setting.unitCount? (setting : Setting) (random : σ) : Option Nat :=
  ((Sampling.oneTo setting.config.maxUnits.toNat).run random).map Prod.fst

variable {setting : Setting} {draft : Draft} {random random' : σ}

theorem Recipe.exists_fault_of_lacksUnits (h : setting.LacksUnits)
    {outcome : Except Fault String × Draft}
    (hreach : ((program setting).run draft).Reaches outcome) :
    ∃ fault, outcome = (.error fault, .empty) ∧ setting.FailsWith fault := by
  by_cases hlong : setting.MeetsLongBound
  · obtain ⟨hcase, hwrite⟩ := (Setting.meetsLongBound_of_units h).1 hlong
    rw [run_program_unwritten hcase hwrite, Sampling.reaches_pure] at hreach
    exact ⟨_, hreach.symm, fun _ => rfl, absurd hlong⟩
  · have hwrite : setting.registered.get .testCase = true →
        setting.config.CanWrite setting.config.maxUnits := by
      intro hcase
      by_contra hwrite
      exact hlong ((Setting.meetsLongBound_of_units h).2 ⟨hcase, hwrite⟩)
    obtain ⟨fault, rfl, hfault⟩ := stops_program h hwrite outcome hreach
    exact ⟨fault, rfl, fun hlong' => absurd hlong' hlong, fun _ => hfault⟩

theorem Recipe.exists_fault_of_lacksImports (hunits : ¬setting.LacksUnits)
    (hparts : ¬setting.LacksParts) (h : setting.LacksImports) {n : Nat} (hn : 2 ≤ n)
    {outcome : Except Fault String × Draft}
    (hreach : ((units setting n).run .empty).Reaches outcome) :
    ∃ fault, outcome = (.error fault, secondStarted setting.config) ∧ setting.FailsWith fault := by
  have hready := Setting.partsReady_of_not_lacksParts hparts
  have hlong := Setting.meetsLongBound_iff hunits hparts
  by_cases hwrite : setting.config.CanWrite setting.config.maxImports
  · obtain ⟨fault, rfl, hfault⟩ := stops_units_of_lacksImports hready h hwrite hn outcome hreach
    exact ⟨fault, rfl, fun hlong' => absurd hwrite (hlong.1 hlong'), fun _ => hfault⟩
  · rw [run_units_unwritten hready hwrite hn] at hreach
    simp only [Sampling.reaches_bind, Sampling.reaches_pure] at hreach
    obtain ⟨-, -, rfl⟩ := hreach
    exact ⟨_, rfl, fun _ => rfl, fun hlong' => absurd (hlong.2 hwrite) hlong'⟩

theorem Recipe.program_ends {outcome : Except Fault String × Draft}
    (h : ((program setting).run draft).run random = some (outcome, random')) :
    setting.Ends (setting.unitCount? random) outcome := by
  -- What is missing is looked for in the order in which generation would come upon it.
  by_cases hlacks : setting.LacksUnits
  · obtain ⟨fault, rfl, hfault⟩ := exists_fault_of_lacksUnits hlacks (.of_run h)
    exact .noUnit hlacks hfault
  obtain ⟨hcase, hmax, hunit⟩ := Setting.canDraw_of_not_lacksUnits hlacks
  rw [run_program hcase hmax hunit, Sampling.run_bind, Option.bind_eq_some_iff] at h
  obtain ⟨⟨n, random''⟩, hdraw, hunits⟩ := h
  have hn : setting.unitCount? random = some n := by
    rw [Setting.unitCount?, hdraw]
    rfl
  have hcount := Sampling.Reaches.of_run hdraw
  have hpos := Sampling.reaches_oneTo.1 hcount
  have hreach := Sampling.Reaches.of_run hunits
  by_cases hparts : setting.LacksParts
  · obtain ⟨fault, rfl, hfault⟩ := stops_units_of_lacksParts hparts hpos.1 outcome hreach
    have hlong := Setting.not_meetsLongBound_of_parts hlacks hparts
    exact .noParts hlacks hparts ⟨fun hlong' => absurd hlong' hlong, fun _ => hfault⟩
  have hpartsReady := Setting.partsReady_of_not_lacksParts hparts
  by_cases himports : 2 ≤ n ∧ setting.LacksImports
  · obtain ⟨htwo, himports⟩ := himports
    obtain ⟨fault, rfl, hfault⟩ := exists_fault_of_lacksImports hlacks hparts himports htwo hreach
    exact .noImports hlacks hparts himports hn htwo hfault
  · rw [not_and] at himports
    rw [run_units hpartsReady fun htwo =>
      Setting.importsReady_of_not_lacksImports (himports htwo)] at hreach
    simp only [Sampling.reaches_bind, Sampling.reaches_pure] at hreach
    obtain ⟨blueprint, hblueprint, rfl⟩ := hreach
    exact .written hlacks hparts hn himports (Sampling.reaches_bind.2 ⟨n, hcount, hblueprint⟩)

variable {bench : Workbench σ}

theorem Workbench.program_ends (h : (Synth.program.run bench).1 ≠ .error .stalled) :
    bench.setting.Ends (bench.setting.unitCount? bench.random)
      ((Synth.program.run bench).1, (Synth.program.run bench).2.draft) := by
  cases hrun : ((Recipe.program bench.setting).run bench.draft).run bench.random with
  | none => exact absurd (program_follows.run_of_none trivial hrun) h
  | some ending =>
    obtain ⟨⟨result, draft⟩, random⟩ := ending
    obtain ⟨bench', hbench, rfl, -⟩ := program_follows.run_of_some trivial hrun
    rw [hbench]
    exact Recipe.program_ends hrun

end

theorem Recipe.entries_secondStarted (config : Config) :
    (secondStarted config).units.entries =
      [(config.unitPath 0, { path := config.unitPath 0, contracts := 1 }),
        (config.unitPath 1, { path := config.unitPath 1 })] := by
  have hne : config.unitPath 0 ≠ config.unitPath 1 := by
    intro h
    exact absurd (config.unitPath_injective h) Nat.zero_ne_one
  have hfirst : ((Draft.empty.add (config.unitPath 0)).put
      { path := config.unitPath 0, contracts := 1 }).units.entries =
        [(config.unitPath 0, { path := config.unitPath 0, contracts := 1 })] := by
    simp [Draft.empty, Draft.add, Draft.declare, Draft.put, OrderedMap.insert, OrderedMap.empty,
      OrderedMap.write]
  change OrderedMap.write _ _ _ = _
  rw [hfirst]
  simp [OrderedMap.write, hne]

namespace Setting.Ends

variable {setting : Setting} {count? : Option Nat} {result : Except Fault String} {fault : Fault}
  {draft : Draft}

theorem ready {text : String} (h : setting.Ends count? (.ok text, draft)) :
    ¬setting.LacksUnits ∧ ¬setting.LacksParts ∧
      ∃ n, count? = some n ∧ (2 ≤ n → ¬setting.LacksImports) := by
  cases h with
  | written hunits hparts hn himports h => exact ⟨hunits, hparts, _, hn, himports⟩

theorem fails_iff (h : setting.Ends count? (result, draft)) :
    (∃ fault, result = .error fault) ↔
      setting.LacksUnits ∨ setting.LacksParts ∨
        (∃ n, count? = some n ∧ 2 ≤ n) ∧ setting.LacksImports := by
  cases h with
  | noUnit h hfault => exact ⟨fun _ => .inl h, fun _ => ⟨_, rfl⟩⟩
  | noParts hunits h hfault => exact ⟨fun _ => .inr (.inl h), fun _ => ⟨_, rfl⟩⟩
  | noImports hunits hparts h hn htwo hfault =>
    exact ⟨fun _ => .inr (.inr ⟨⟨_, hn, htwo⟩, h⟩), fun _ => ⟨_, rfl⟩⟩
  | written hunits hparts hn himports h =>
    constructor
    · rintro ⟨fault, hfault⟩
      cases hfault
    · rintro (h' | h' | ⟨⟨n, hn', htwo⟩, h'⟩)
      · exact absurd h' hunits
      · exact absurd h' hparts
      · rw [hn] at hn'
        cases hn'
        exact absurd h' (himports htwo)

theorem failsWith (h : setting.Ends count? (.error fault, draft)) : setting.FailsWith fault := by
  cases h with
  | noUnit h hfault => exact hfault
  | noParts hunits h hfault => exact hfault
  | noImports hunits hparts h hn htwo hfault => exact hfault

theorem entries (h : setting.Ends count? (.error fault, draft)) :
    (setting.LacksUnits → draft.units.entries = []) ∧
    (¬setting.LacksUnits → setting.LacksParts →
      draft.units.entries = [(setting.config.unitPath 0, { path := setting.config.unitPath 0 })]) ∧
    (¬setting.LacksUnits → ¬setting.LacksParts →
      draft.units.entries =
        [(setting.config.unitPath 0, { path := setting.config.unitPath 0, contracts := 1 }),
          (setting.config.unitPath 1, { path := setting.config.unitPath 1 })]) := by
  cases h with
  | noUnit h hfault => exact ⟨fun _ => rfl, fun h' => absurd h h', fun h' => absurd h h'⟩
  | noParts hunits h hfault =>
    exact ⟨fun h' => absurd h' hunits, fun _ _ => rfl, fun _ h' => absurd h h'⟩
  | noImports hunits hparts h hn htwo hfault =>
    exact ⟨fun h' => absurd h' hunits, fun _ h' => absurd h' hparts,
      fun _ _ => Recipe.entries_secondStarted _⟩

end Setting.Ends

end SoliditySynth
