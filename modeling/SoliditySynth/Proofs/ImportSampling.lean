import Mathlib.Data.List.Perm.Subperm
import Mathlib.Data.Set.Function
import SoliditySynth.Proofs.Accessors
import SoliditySynth.Proofs.PossibleTexts

namespace SoliditySynth

/-- The items at the given places, counted from one, where what is taken is out of the list for the
places that follow. -/
def takenAt : List String → List Nat → List String
  | _, [] => []
  | items, place :: places =>
    let item := items.getD (place - 1) ""
    item :: takenAt (items.erase item) places

/-- The bounds of `m` draws, each of which leaves one less to choose from. -/
def shrinkingBounds (n m : Nat) : List Nat := (List.range m).map (n - ·)

theorem shrinkingBounds_succ (n m : Nat) :
    shrinkingBounds n (m + 1) = n :: shrinkingBounds (n - 1) m := by
  rw [shrinkingBounds, shrinkingBounds, List.range_succ_eq_map, List.map_cons, List.map_map]
  congr 1
  apply List.map_congr_left
  intro i _
  simp only [Function.comp_apply]
  omega

def DrawsWithin (bounds draws : List Nat) : Prop :=
  List.Forall₂ (fun bound draw => 1 ≤ draw ∧ draw ≤ bound) bounds draws

namespace Sampling

variable {items : List String} {m : Nat}

theorem reaches_draws {bounds draws : List Nat} :
    (bounds.mapM oneTo).Reaches draws ↔ DrawsWithin bounds draws := by
  rw [reaches_mapM]
  simp only [reaches_oneTo]
  rfl

theorem getD_mem {place : Nat} (hpos : 1 ≤ place) (hle : place ≤ items.length) :
    items.getD (place - 1) "" ∈ items := by
  rw [List.getD_eq_getElem?_getD, List.getElem?_eq_getElem (by omega)]
  exact List.getElem_mem _

theorem chooseDistinct_eq_draws (hnodup : items.Nodup) (hm : m ≤ items.length) :
    chooseDistinct m items =
      (shrinkingBounds items.length m).mapM oneTo >>= fun draws => pure (takenAt items draws) := by
  induction m generalizing items with
  | zero => rfl
  | succ m ih =>
    rw [chooseDistinct, choose_eq_oneTo, shrinkingBounds_succ, List.mapM_cons]
    simp only [bind_assoc, pure_bind]
    apply bind_congr
    intro place hplace
    obtain ⟨hpos, hle⟩ := reaches_oneTo.1 hplace
    have hmem := getD_mem hpos hle
    have hlen := List.length_erase_of_mem hmem
    rw [← hnodup.erase_eq_filter, ih (hnodup.erase _) (by omega), hlen]
    simp only [bind_assoc, pure_bind]
    rfl

theorem takenAt_injOn (hnodup : items.Nodup) (hm : m ≤ items.length) :
    Set.InjOn (takenAt items) {draws | DrawsWithin (shrinkingBounds items.length m) draws} := by
  induction m generalizing items with
  | zero =>
    rintro _ (_ | _) _ (_ | _) _
    rfl
  | succ m ih =>
    rw [shrinkingBounds_succ]
    rintro _ (_ | ⟨⟨hpos, hle⟩, hdraws⟩) _ (_ | ⟨⟨hpos', hle'⟩, hdraws'⟩) heq
    rename_i place draws place' draws'
    obtain ⟨hitem, hrest⟩ := List.cons.inj heq
    have hplace : place = place' := by
      rw [List.getD_eq_getElem?_getD, List.getD_eq_getElem?_getD,
        List.getElem?_eq_getElem (by omega), List.getElem?_eq_getElem (by omega)] at hitem
      have := (hnodup.getElem_inj_iff).1 hitem
      omega
    subst hplace
    have hlen := List.length_erase_of_mem (getD_mem hpos hle)
    rw [← hlen] at hdraws hdraws'
    rw [ih (hnodup.erase _) (by omega) hdraws hdraws' hrest]

/-- Places and items determine each other: the vectors of draws are in one-to-one correspondence
with the lists of distinct items. -/
theorem takenAt_bijOn (hnodup : items.Nodup) (hm : m ≤ items.length) :
    Set.BijOn (takenAt items) {draws | DrawsWithin (shrinkingBounds items.length m) draws}
      {paths | paths.length = m ∧ paths.Nodup ∧ ∀ path ∈ paths, path ∈ items} := by
  have himage (paths : List String) :
      (∃ draws, DrawsWithin (shrinkingBounds items.length m) draws ∧ takenAt items draws = paths) ↔
        paths.length = m ∧ paths.Nodup ∧ ∀ path ∈ paths, path ∈ items := by
    rw [← reaches_chooseDistinct, chooseDistinct_eq_draws hnodup hm]
    simp only [reaches_bind, reaches_draws, reaches_pure]
  refine ⟨fun draws hdraws => ?_, takenAt_injOn hnodup hm, fun paths hpaths => ?_⟩
  · exact (himage _).1 ⟨draws, hdraws, rfl⟩
  · exact (himage paths).2 hpaths

end Sampling

namespace Draft

variable {draft : Draft} {unit : SourceUnit}

theorem mem_importable {path : String} :
    path ∈ draft.importable unit ↔
      path ∈ draft.units.keys ∧ path ≠ unit.path ∧ path ∉ unit.imports := by
  simp [importable]

theorem IsWriting.mem_importable_put (h : draft.IsWriting unit) {paths : List String}
    {path : String} :
    path ∈ (draft.put (unit.importing paths)).importable (unit.importing paths) ↔
      path ∈ draft.importable unit ∧ path ∉ paths := by
  rw [mem_importable, mem_importable, h.keys_put (unit.path_importing paths)]
  simp only [SourceUnit.importing, List.mem_append, not_or]
  constructor
  · rintro ⟨hmem, hne, hold, hnew⟩
    exact ⟨⟨hmem, hne, hold⟩, hnew⟩
  · rintro ⟨⟨hmem, hne, hold⟩, hnew⟩
    exact ⟨hmem, hne, hold, hnew⟩

theorem IsWriting.importable_put_eq_nil (h : draft.IsWriting unit) {paths : List String}
    (hlen : paths.length = (draft.importable unit).length) (hnodup : paths.Nodup)
    (hmem : ∀ path ∈ paths, path ∈ draft.importable unit) :
    (draft.put (unit.importing paths)).importable (unit.importing paths) = [] := by
  have hperm : paths.Perm (draft.importable unit) :=
    (List.subperm_of_subset hnodup hmem).perm_of_length_le (Nat.le_of_eq hlen.symm)
  apply List.eq_nil_iff_forall_not_mem.2
  intro path hpath
  obtain ⟨hoffer, hnew⟩ := h.mem_importable_put.1 hpath
  exact hnew (hperm.mem_iff.2 hoffer)

theorem Consistent.exists_isWriting (h : draft.Consistent) (hadded : draft.added ≠ 0)
    (hcurrent : draft.current ≠ none) : ∃ unit, draft.IsWriting unit := by
  obtain ⟨path, hpath⟩ := Option.ne_none_iff_exists'.1 hcurrent
  obtain ⟨unit, hunit⟩ := OrderedMap.mem_keys_iff.1 (h.current_mem hpath)
  obtain rfl := h.path_eq hunit
  exact ⟨unit, hpath, hadded, hunit⟩

theorem IsWriting.one_lt_size (h : draft.IsWriting unit) (hoffer : draft.importable unit ≠ []) :
    1 < draft.size := by
  obtain ⟨path, hpath⟩ := List.exists_mem_of_ne_nil _ hoffer
  obtain ⟨hmem, hne, -⟩ := mem_importable.1 hpath
  have hboth : [path, unit.path].Subperm draft.units.keys := by
    apply List.subperm_of_subset (by simpa using hne)
    simpa using ⟨hmem, OrderedMap.mem_keys_of_find? h.stored⟩
  have hle := hboth.length_le
  rw [OrderedMap.length_keys] at hle
  exact hle

end Draft

def Draft.importFault (draft : Draft) (unit : SourceUnit) : Fault :=
  if draft.size ≤ 1 then .importNeedsSibling else .nothingToImport unit.path

theorem Draft.isMissingEntry_importFault (draft : Draft) (unit : SourceUnit) :
    (draft.importFault unit).isMissingEntry = false := by
  rw [importFault]
  split
  · rfl
  · rfl

theorem Recipe.run_importLine_exhausted {draft : Draft} {unit : SourceUnit}
    (h : draft.IsWriting unit) (hempty : draft.importable unit = []) :
    importLine.run draft = pure (.error (draft.importFault unit), draft) := by
  rw [Draft.importFault]
  by_cases hsize : draft.size ≤ 1
  · simp only [importLine, run_bind, run_get, pure_bind, andThen_ok, if_pos hsize, run_throw,
      andThen_error]
  · simp only [importLine, run_bind, run_get, pure_bind, andThen_ok, if_neg hsize, h.currentUnit,
      ofExcept, if_pos hempty, run_throw, andThen_error]

theorem Recipe.run_collect_importLine_eq_draws {draft : Draft} {unit : SourceUnit} {m : Nat}
    (h : draft.IsWriting unit) (hm : m ≤ (draft.importable unit).length) :
    (collect importLine m).run draft =
      (shrinkingBounds (draft.importable unit).length m).mapM Sampling.oneTo >>= fun draws =>
        pure (.ok ((takenAt (draft.importable unit) draws).map importDirective),
          draft.put (unit.importing (takenAt (draft.importable unit) draws))) := by
  cases m with
  | zero => simp [collect, shrinkingBounds, takenAt, SourceUnit.importing_nil, h.put_self]
  | succ m =>
    have hsize := h.one_lt_size (List.ne_nil_of_length_pos (by omega))
    rw [run_collect_importLine h hsize hm,
      Sampling.chooseDistinct_eq_draws (Draft.nodup_importable _ _) hm]
    simp only [bind_assoc, pure_bind]

section

variable {σ : Type} [Random.Sampler σ]

theorem imports_follow {setting : Setting} (m : Nat) :
    Follows setting (fun _ => True)
      (Synth.collect (Synth.generate (σ := σ) .importDirective) m)
      (Recipe.collect Recipe.importLine m) (Same fun _ => True) :=
  (generate_follows .importDirective).collect m

variable {bench : Workbench σ} {unit : SourceUnit}

/-- No more imports than there are units on offer: they all succeed, and draws are all they need. -/
theorem imports_of_draws {m : Nat} (h : bench.draft.IsWriting unit)
    (hm : m ≤ (bench.draft.importable unit).length) {draws : List Nat} {random : σ}
    (hdraws : ((shrinkingBounds (bench.draft.importable unit).length m).mapM Sampling.oneTo).run
      bench.random = some (draws, random)) :
    ∃ final, (Synth.collect (Synth.generate .importDirective) m).run bench =
        (.ok ((takenAt (bench.draft.importable unit) draws).map importDirective), final) ∧
      final.draft =
        bench.draft.put (unit.importing (takenAt (bench.draft.importable unit) draws)) ∧
      final.random = random := by
  apply (imports_follow m).run_of_some trivial
  rw [Recipe.run_collect_importLine_eq_draws h hm, Sampling.run_bind, hdraws]
  rfl

theorem imports_stalled {m : Nat} (h : bench.draft.IsWriting unit)
    (hm : m ≤ (bench.draft.importable unit).length)
    (hdraws : ((shrinkingBounds (bench.draft.importable unit).length m).mapM Sampling.oneTo).run
      bench.random = none) :
    ((Synth.collect (Synth.generate .importDirective) m).run bench).1 = .error .stalled := by
  apply (imports_follow m).run_of_none trivial
  rw [Recipe.run_collect_importLine_eq_draws h hm, Sampling.run_bind, hdraws]
  rfl

theorem import_refused (h : bench.draft.IsWriting unit)
    (hempty : bench.draft.importable unit = []) :
    ∃ final, (Synth.generate .importDirective).run bench =
        (.error (bench.draft.importFault unit), final) ∧
      final.draft = bench.draft ∧ final.random = bench.random := by
  apply (generate_follows .importDirective).run_of_some trivial
  change (Recipe.importLine.run bench.draft).run bench.random = _
  rw [Recipe.run_importLine_exhausted h hempty]
  rfl

end

/-- Wherever a session stands that has a current unit, the units on offer are those that it could
import. That many imports succeed, each by one draw over the number of units that are left; the
draws are in one-to-one correspondence with the lists of distinct offers; and the imports are
recorded and change nothing else. After that every import is refused, which changes nothing and
draws nothing. -/
theorem imports_exhaust_offers {σ : Type} [Random.Sampler σ] (seed : Nat) (config : Config)
    (random : σ) (commands : List Command) {bench : Workbench σ}
    (hbench : ((Workbench.start seed config random).steps commands).2 = bench)
    (hadded : bench.draft.added ≠ 0) :
    ∃ unit offers, bench.draft.currentUnit = .ok unit ∧ bench.draft.current = some unit.path ∧
      offers = bench.draft.importable unit ∧ offers.Nodup ∧
      (∀ path, path ∈ offers ↔
        path ∈ bench.draft.units.keys ∧ path ≠ unit.path ∧ path ∉ unit.imports) ∧
      (∀ m ≤ offers.length,
        Set.BijOn (takenAt offers) {draws | DrawsWithin (shrinkingBounds offers.length m) draws}
          {paths | paths.length = m ∧ paths.Nodup ∧ ∀ path ∈ paths, path ∈ offers} ∧
        ∀ source : σ,
          let calls := (Synth.collect (Synth.generate .importDirective) m).run
            { bench with random := source }
          match ((shrinkingBounds offers.length m).mapM Sampling.oneTo).run source with
          | some (draws, rest) =>
            calls.1 = .ok ((takenAt offers draws).map importDirective) ∧
              calls.2.draft = bench.draft.put (unit.importing (takenAt offers draws)) ∧
              calls.2.random = rest
          | none => calls.1 = .error .stalled) ∧
      ∀ draws, DrawsWithin (shrinkingBounds offers.length offers.length) draws →
        ∀ later : Workbench σ,
          later.draft = bench.draft.put (unit.importing (takenAt offers draws)) →
          ∃ fault final, (Synth.generate .importDirective).run later = (.error fault, final) ∧
            fault = later.draft.importFault unit ∧ fault.isMissingEntry = false ∧
            final.draft = later.draft ∧ final.random = later.random := by
  have hconsistent : bench.draft.Consistent :=
    hbench ▸ Workbench.consistent_steps seed config random commands
  obtain ⟨changes, hcourse⟩ := Workbench.exists_course seed config random commands
  rw [hbench] at hcourse
  obtain ⟨unit, hwriting⟩ :=
    hconsistent.exists_isWriting hadded (hcourse.current_ne_none hadded)
  have hnodup := Draft.nodup_importable bench.draft unit
  refine ⟨unit, bench.draft.importable unit, hwriting.currentUnit, hwriting.current, rfl, hnodup,
    fun path => Draft.mem_importable, fun m hm => ⟨Sampling.takenAt_bijOn hnodup hm, ?_⟩, ?_⟩
  · intro source calls
    cases hrun : ((shrinkingBounds (bench.draft.importable unit).length m).mapM
        Sampling.oneTo).run source with
    | none => exact @imports_stalled σ _ { bench with random := source } unit m hwriting hm hrun
    | some ending =>
      obtain ⟨draws, rest⟩ := ending
      obtain ⟨final, hcalls, hdraft, hrest⟩ :=
        @imports_of_draws σ _ { bench with random := source } unit m hwriting hm draws rest hrun
      refine ⟨congrArg Prod.fst hcalls, ?_, ?_⟩
      · rw [← hdraft]
        exact congrArg (fun outcome => outcome.2.draft) hcalls
      · rw [← hrest]
        exact congrArg (fun outcome => outcome.2.random) hcalls
  · intro draws hdraws later hlater
    obtain ⟨hlen, hdistinct, hmem⟩ :=
      (Sampling.takenAt_bijOn hnodup (Nat.le_refl _)).mapsTo hdraws
    have hwriting' := hwriting.put (unit.path_importing
      (takenAt (bench.draft.importable unit) draws))
    have hempty := hwriting.importable_put_eq_nil hlen hdistinct hmem
    rw [← hlater] at hwriting' hempty
    obtain ⟨final, hrun, hdraft, hrandom⟩ := import_refused hwriting' hempty
    exact ⟨_, final, hrun, rfl, Draft.isMissingEntry_importFault later.draft unit, hdraft, hrandom⟩

def offeringSteps : List Command :=
  [.draft .addUnit, .draft .addUnit, .draft .addUnit, .draft (.declare "x.sol"),
    .draft (.unit none (.addImport "missing.sol")), .draft (.unit none (.addImport "su1.sol"))]

def offeringBench : Workbench Sampling.Script :=
  ((Workbench.start 0 .standard (Sampling.Script.mk [1, 0])).steps offeringSteps).2

theorem imports_exhaust_offers_declared :
    offeringBench.draft.added ≠ 0 ∧
    offeringBench.draft.importable ⟨"x.sol", ["missing.sol", "su1.sol"], 0⟩ =
      ["su0.sol", "su2.sol"] ∧
    ∃ final, (Synth.collect (Synth.generate .importDirective) 2).run offeringBench =
        (.ok ["import \"su2.sol\";", "import \"su0.sol\";"], final) ∧
      ∃ last, (Synth.generate .importDirective).run final =
        (.error (.nothingToImport "x.sol"), last) := by
  have hadded : offeringBench.draft.added ≠ 0 := by decide +kernel
  have hoffers : offeringBench.draft.importable ⟨"x.sol", ["missing.sol", "su1.sol"], 0⟩ =
      ["su0.sol", "su2.sol"] := by
    have hkeys : offeringBench.draft.units.keys = ["su0.sol", "su1.sol", "su2.sol", "x.sol"] := by
      decide +kernel
    rw [Draft.importable, Draft.paths, hkeys, sorted_of_pairwise (by decide +kernel)]
    decide +kernel
  have hcurrent : offeringBench.draft.currentUnit =
      .ok ⟨"x.sol", ["missing.sol", "su1.sol"], 0⟩ := by
    decide +kernel
  have hbench : ((Workbench.start 0 .standard (Sampling.Script.mk [1, 0])).steps offeringSteps).2 =
      offeringBench := rfl
  obtain ⟨unit, offers, hunit, -, rfl, -, -, htakes, hrefused⟩ :=
    imports_exhaust_offers 0 .standard (Sampling.Script.mk [1, 0]) offeringSteps hbench hadded
  obtain rfl := Except.ok.inj (hunit.symm.trans hcurrent)
  rw [hoffers] at htakes hrefused
  have hruns := (htakes 2 (by decide)).2 (Sampling.Script.mk [1, 0])
  have hdraws : ((shrinkingBounds ["su0.sol", "su2.sol"].length 2).mapM Sampling.oneTo).run
      (Sampling.Script.mk [1, 0]) = some ([2, 1], ⟨[]⟩) := by
    decide +kernel
  rw [hdraws] at hruns
  obtain ⟨hok, hdraft, -⟩ := hruns
  have hwithin : DrawsWithin (shrinkingBounds 2 2) [2, 1] :=
    .cons (by decide) (.cons (by decide) .nil)
  obtain ⟨fault, last, hlast, hfault, -⟩ := hrefused [2, 1] hwithin _ hdraft
  have hleft : fault = .nothingToImport "x.sol" := by
    rw [hfault, hdraft]
    decide +kernel
  rw [hleft] at hlast
  exact ⟨hadded, hoffers, _, Prod.ext hok rfl, last, hlast⟩

end SoliditySynth
