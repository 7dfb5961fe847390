import SoliditySynth.Proofs.Decoding

namespace SoliditySynth

namespace Setting

/-- No unit can be started. -/
def LacksUnits (setting : Setting) : Prop :=
  setting.registered.get .testCase = false ∨ ¬setting.config.CanWrite setting.config.maxUnits ∨
    setting.config.maxUnits ≤ 0 ∨ setting.registered.get .sourceUnit = false

/-- No unit can be finished. -/
def LacksParts (setting : Setting) : Prop :=
  setting.registered.get .pragma = false ∨ setting.registered.get .contract = false ∨
    setting.config.genericPragmas = [] ∨ setting.config.abiPragmas = []

/-- No unit with siblings can be finished. -/
def LacksImports (setting : Setting) : Prop :=
  ¬setting.config.CanWrite setting.config.maxImports ∨ setting.config.maxImports ≤ 0 ∨
    setting.registered.get .importDirective = false

variable {setting : Setting}

theorem canDraw_of_not_lacksUnits (h : ¬setting.LacksUnits) :
    setting.registered.get .testCase = true ∧ setting.config.CanDraw setting.config.maxUnits ∧
      setting.registered.get .sourceUnit = true := by
  simp only [LacksUnits, not_or, Decidable.not_not, Bool.not_eq_false, Int.not_le] at h
  exact ⟨h.1, ⟨h.2.1, h.2.2.1⟩, h.2.2.2⟩

theorem partsReady_of_not_lacksParts (h : ¬setting.LacksParts) : setting.PartsReady := by
  simp only [LacksParts, not_or, Bool.not_eq_false] at h
  exact ⟨h.1, h.2.1, h.2.2.1, h.2.2.2⟩

theorem importsReady_of_not_lacksImports (h : ¬setting.LacksImports) : setting.ImportsReady := by
  simp only [LacksImports, not_or, Decidable.not_not, Bool.not_eq_false, Int.not_le] at h
  exact ⟨h.2.2, h.1, h.2.1⟩

end Setting

namespace Recipe

variable {α β : Type} {setting : Setting} {draft draft' : Draft}

/-- However the draws fall, the recipe fails for a precondition and leaves `draft'`. -/
def Stops (r : Recipe α) (draft draft' : Draft) : Prop :=
  ∀ outcome, (r.run draft).Reaches outcome →
    ∃ fault, outcome = (.error fault, draft') ∧ fault.isViolation = true

theorem Stops.not_reaches_ok {r : Recipe α} (h : Stops r draft draft') {a : α} {out : Draft} :
    ¬(r.run draft).Reaches (.ok a, out) := by
  intro hreach
  obtain ⟨fault, hfault, -⟩ := h _ hreach
  cases hfault

theorem stops_throw {fault : Fault} (h : fault.isViolation = true) :
    Stops (throw fault : Recipe α) draft draft := by
  rintro _ rfl
  exact ⟨fault, rfl, h⟩

theorem Stops.bind {r : Recipe α} (h : Stops r draft draft') (k : α → Recipe β) :
    Stops (r >>= k) draft draft' := by
  intro outcome hreach
  rw [run_bind, Sampling.reaches_bind] at hreach
  obtain ⟨middle, hmiddle, houtcome⟩ := hreach
  obtain ⟨fault, rfl, hfault⟩ := h middle hmiddle
  exact ⟨fault, houtcome.symm, hfault⟩

/-- A recipe that returns leaves it to what follows to stop. -/
theorem stops_bind {r : Recipe α} {k : α → Recipe β}
    (h : ∀ outcome, (r.run draft).Reaches outcome →
      ∃ a out, outcome = (.ok a, out) ∧ Stops (k a) out draft') :
    Stops (r >>= k) draft draft' := by
  intro outcome hreach
  rw [run_bind, Sampling.reaches_bind] at hreach
  obtain ⟨middle, hmiddle, houtcome⟩ := hreach
  obtain ⟨a, out, rfl, hk⟩ := h middle hmiddle
  exact hk outcome houtcome

theorem stops_draw_bind {d : Sampling α} {k : α → Recipe β} (h : ∀ a, Stops (k a) draft draft') :
    Stops (draw d >>= k) draft draft' := by
  apply stops_bind
  intro outcome houtcome
  rw [run_draw, Sampling.reaches_bind] at houtcome
  obtain ⟨a, -, rfl⟩ := houtcome
  exact ⟨a, draft, rfl, h a⟩

theorem stops_oneTo {config : Config} {n : Int} (hwrite : config.CanWrite n) (h : n ≤ 0) :
    Stops (oneTo config n) draft draft := by
  rw [oneTo, requireWritable_of_canWrite hwrite, pure_bind, if_pos h]
  exact (stops_throw rfl).bind _

theorem canDraw_of_reaches_oneTo {config : Config} {n : Int} {answer : Nat} {out : Draft}
    (h : ((oneTo config n).run draft).Reaches (.ok answer, out)) : config.CanDraw n := by
  have hwrite : config.CanWrite n := by
    by_contra hwrite
    rw [run_oneTo_unwritten hwrite, Sampling.reaches_pure] at h
    cases h
  have hpos : 0 < n := by
    by_contra hpos
    exact (stops_oneTo hwrite (Int.not_lt.1 hpos)).not_reaches_ok h
  exact ⟨hwrite, hpos⟩

theorem stops_choose_nil : Stops (choose ([] : List α)) draft draft :=
  ((stops_throw rfl).bind _).bind _

theorem stops_requireKind {kind : Kind} (h : setting.registered.get kind = false) :
    Stops (requireKind setting kind) draft draft := by
  rw [requireKind, if_neg (by simp [h])]
  exact stops_throw rfl

theorem stops_parts {kind : Kind} (h : setting.registered.get kind = false) (r : Recipe String)
    (n : Nat) : Stops (parts setting kind r n) draft draft :=
  (stops_requireKind h).bind _

theorem stops_pragmas (h : setting.config.genericPragmas = [] ∨ setting.config.abiPragmas = []) :
    Stops (pragmas setting.config) draft draft := by
  by_cases hgeneric : setting.config.genericPragmas = []
  · rw [pragmas, hgeneric]
    exact stops_choose_nil.bind _
  · have habi := h.resolve_left hgeneric
    rw [pragmas, habi, choose_eq_draw hgeneric]
    apply stops_draw_bind
    intro generic
    exact stops_choose_nil.bind _

theorem exists_of_reaches_pragmas (hpragma : setting.registered.get .pragma = true)
    (hgeneric : setting.config.genericPragmas ≠ []) (habi : setting.config.abiPragmas ≠ [])
    {outcome : Except Fault (List String) × Draft}
    (h : ((parts setting .pragma (pragmas setting.config) 1).run draft).Reaches outcome) :
    ∃ texts, outcome = (.ok texts, draft) := by
  rw [run_pragmas hpragma hgeneric habi] at h
  simp only [Sampling.reaches_bind, Sampling.reaches_pure] at h
  obtain ⟨generic, -, abi, -, rfl⟩ := h
  exact ⟨_, rfl⟩

theorem canDraw_of_reaches_importCount {count : Option Nat} {out : Draft}
    (h : ((importCount setting.config).run draft).Reaches (.ok count, out))
    (hsize : 1 < draft.size) : setting.config.CanDraw setting.config.maxImports := by
  have hpos : draft.size - 1 > 0 := by omega
  simp only [importCount, run_bind, run_get, pure_bind, andThen_ok, if_pos hpos,
    Sampling.reaches_bind] at h
  obtain ⟨⟨result, middle⟩, hdraw, h⟩ := h
  cases result with
  | ok answer => exact canDraw_of_reaches_oneTo hdraw
  | error fault => cases h

theorem exists_of_reaches_importCount
    (hbound : 1 < draft.size → setting.config.CanDraw setting.config.maxImports)
    {outcome : Except Fault (Option Nat) × Draft}
    (h : ((importCount setting.config).run draft).Reaches outcome) :
    ∃ n, outcome = (.ok (if draft.size - 1 = 0 then none else some n), draft) := by
  rw [run_importCount hbound] at h
  simp only [Sampling.reaches_bind, Sampling.reaches_pure] at h
  obtain ⟨n, -, rfl⟩ := h
  exact ⟨n, rfl⟩

theorem stops_unitParts_of_lacksParts (h : setting.LacksParts) :
    Stops (unitParts setting none) draft draft := by
  by_cases hpragma : setting.registered.get .pragma = false
  · exact (stops_parts hpragma _ _).bind _
  rw [Bool.not_eq_false] at hpragma
  by_cases hempty : setting.config.genericPragmas = [] ∨ setting.config.abiPragmas = []
  · apply Stops.bind
    rw [parts_eq_collect hpragma]
    exact (stops_pragmas hempty).bind _
  · have hcontract : setting.registered.get .contract = false := by
      rcases h with h | h | h
      · rw [hpragma] at h
        cases h
      · exact h
      · exact absurd h hempty
    rw [not_or] at hempty
    apply stops_bind
    intro outcome houtcome
    obtain ⟨texts, rfl⟩ := exists_of_reaches_pragmas hpragma hempty.1 hempty.2 houtcome
    exact ⟨texts, draft, rfl, (stops_parts hcontract _ _).bind _⟩

theorem stops_sourceUnit_of_lacksParts (h : setting.LacksParts) (hsize : draft.size ≤ 1) :
    Stops (sourceUnit setting) draft draft := by
  have hfirst : draft.size - 1 = 0 := by omega
  apply stops_bind
  intro outcome houtcome
  obtain ⟨n, rfl⟩ := exists_of_reaches_importCount (fun h' => absurd h' (by omega)) houtcome
  rw [if_pos hfirst]
  exact ⟨none, draft, rfl, (stops_unitParts_of_lacksParts h).bind _⟩

theorem stops_unitParts_of_unregistered (hparts : setting.PartsReady)
    (h : setting.registered.get .importDirective = false) (n : Nat) :
    Stops (unitParts setting (some n)) draft draft := by
  apply stops_bind
  intro outcome houtcome
  obtain ⟨texts, rfl⟩ := exists_of_reaches_pragmas hparts.pragma hparts.generic hparts.abi houtcome
  exact ⟨texts, draft, rfl, (stops_parts h _ _).bind _⟩

theorem stops_importCount (hwrite : setting.config.CanWrite setting.config.maxImports)
    (h : setting.config.maxImports ≤ 0) (hsize : 1 < draft.size) :
    Stops (importCount setting.config) draft draft := by
  apply stops_bind
  rintro _ rfl
  have hpos : draft.size - 1 > 0 := by omega
  refine ⟨draft, draft, rfl, ?_⟩
  rw [if_pos hpos]
  exact (stops_oneTo hwrite h).bind _

theorem stops_sourceUnit_of_lacksImports (hparts : setting.PartsReady) (h : setting.LacksImports)
    (hwrite : setting.config.CanWrite setting.config.maxImports) (hsize : 1 < draft.size) :
    Stops (sourceUnit setting) draft draft := by
  by_cases hbound : setting.config.maxImports ≤ 0
  · exact (stops_importCount hwrite hbound hsize).bind _
  · have hunregistered := (h.resolve_left (not_not_intro hwrite)).resolve_left hbound
    have hlater : ¬draft.size - 1 = 0 := by omega
    apply stops_bind
    intro outcome houtcome
    obtain ⟨n, rfl⟩ := exists_of_reaches_importCount
      (fun _ => ⟨hwrite, Int.not_le.1 hbound⟩) houtcome
    rw [if_neg hlater]
    exact ⟨some n, draft, rfl, (stops_unitParts_of_unregistered hparts hunregistered n).bind _⟩

theorem not_reaches_ok_of_lacksImports (hparts : setting.PartsReady) (h : setting.LacksImports)
    (hsize : 1 < draft.size) {body : String} {out : Draft} :
    ¬((sourceUnit setting).run draft).Reaches (.ok body, out) := by
  by_cases hwrite : setting.config.CanWrite setting.config.maxImports
  · exact (stops_sourceUnit_of_lacksImports hparts h hwrite hsize).not_reaches_ok
  · rw [run_sourceUnit_unwritten hwrite hsize, Sampling.reaches_pure]
    exact fun hok => by cases hok

theorem stops_unit {blueprint : Blueprint}
    (h : Stops (sourceUnit setting)
      ((blueprint.draft setting.config).add (setting.config.unitPath blueprint.length)) draft') :
    Stops (unit setting) (blueprint.draft setting.config) draft' := by
  apply stops_bind
  rintro _ rfl
  exact ⟨_, _, rfl, h.bind _⟩

theorem stops_units_of_lacksParts (h : setting.LacksParts) {n : Nat} (hn : 1 ≤ n) :
    Stops (units setting n) .empty (Draft.empty.add (setting.config.unitPath 0)) := by
  obtain ⟨n, rfl⟩ := Nat.exists_eq_add_of_le' hn
  have hsize : (Draft.empty.add (setting.config.unitPath 0)).size ≤ 1 := by
    rw [← Blueprint.draft_nil setting.config]
    exact Nat.le_of_eq (Blueprint.size_add setting.config [])
  have hunit : Stops (unit setting) .empty (Draft.empty.add (setting.config.unitPath 0)) :=
    @stops_unit _ _ [] (stops_sourceUnit_of_lacksParts h hsize)
  exact (hunit.bind _).bind _

theorem stops_units_of_lacksImports (hparts : setting.PartsReady) (h : setting.LacksImports)
    (hwrite : setting.config.CanWrite setting.config.maxImports) {n : Nat} (hn : 2 ≤ n) :
    Stops (units setting n) .empty (secondStarted setting.config) := by
  obtain ⟨n, rfl⟩ := Nat.exists_eq_add_of_le' hn
  apply Stops.bind
  apply stops_bind
  intro outcome houtcome
  have hfirst := @run_unit _ hparts [] (absurd rfl)
  rw [Blueprint.draft_nil] at hfirst
  simp only [hfirst, Sampling.reaches_bind, Sampling.reaches_pure] at houtcome
  obtain ⟨plan, hplan, rfl⟩ := houtcome
  refine ⟨_, _, rfl, (Stops.bind ?_ _).bind _⟩
  apply stops_unit
  change Stops _ ((Blueprint.draft setting.config [plan]).add (setting.config.unitPath 1)) _
  rw [draft_first hplan]
  apply stops_sourceUnit_of_lacksImports hparts h hwrite
  rw [← draft_first hplan]
  exact Nat.lt_of_lt_of_eq Nat.one_lt_two (Blueprint.size_add setting.config [plan]).symm

theorem stops_program (h : setting.LacksUnits)
    (hwrite : setting.registered.get .testCase = true →
      setting.config.CanWrite setting.config.maxUnits) :
    Stops (program setting) draft .empty := by
  apply stops_bind
  rintro _ rfl
  refine ⟨_, _, rfl, ?_⟩
  by_cases hcase : setting.registered.get .testCase = false
  · exact (stops_requireKind hcase).bind _
  rw [Bool.not_eq_false] at hcase
  have hwrite := hwrite hcase
  rw [requireKind_of_registered hcase, pure_bind, testCase]
  by_cases hmax : setting.config.maxUnits ≤ 0
  · exact (stops_oneTo hwrite hmax).bind _
  · have hunit := ((h.resolve_left (by simp [hcase])).resolve_left
      (not_not_intro hwrite)).resolve_left hmax
    rw [oneTo_eq_draw ⟨hwrite, Int.not_le.1 hmax⟩]
    apply stops_draw_bind
    intro n
    exact (stops_requireKind hunit).bind _

end Recipe

end SoliditySynth
