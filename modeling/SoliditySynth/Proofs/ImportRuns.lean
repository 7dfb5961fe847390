import SoliditySynth.Proofs.Histories
import SoliditySynth.Proofs.UnitRuns

namespace SoliditySynth

namespace Synth

variable {σ : Type} {bench final : Workbench σ} {texts : List String}

theorem collect_one_eq_ok {m : Synth σ String} (h : (collect m 1).run bench = (.ok texts, final)) :
    ∃ text, m.run bench = (.ok text, final) ∧ texts = [text] := by
  obtain ⟨text, middle, hm, h⟩ := run_bind_eq_ok.1 h
  obtain ⟨rest, final', hrest, h⟩ := run_bind_eq_ok.1 h
  obtain ⟨rfl, rfl⟩ := run_pure_eq_ok.1 h
  obtain ⟨rfl, rfl⟩ := run_pure_eq_ok.1 hrest
  exact ⟨text, hm, rfl⟩

theorem visitPlaces_cons_eq_ok {gen : Kind → Synth σ String} {parent : Kind} {size place : Nat}
    {places : List Nat}
    (h : (visitPlaces gen parent size (place :: places)).run bench = (.ok texts, final)) :
    ∃ first rest middle, (visitPlace gen parent size place).run bench = (.ok first, middle) ∧
      (visitPlaces gen parent size places).run middle = (.ok rest, final) ∧
        texts = first ++ rest := by
  obtain ⟨first, middle, hfirst, h⟩ := run_bind_eq_ok.1 h
  obtain ⟨rest, final', hrest, h⟩ := run_bind_eq_ok.1 h
  obtain ⟨rfl, rfl⟩ := run_pure_eq_ok.1 h
  exact ⟨first, rest, middle, hfirst, hrest, rfl⟩

end Synth

variable {σ : Type} [Random.Sampler σ]

inductive ImportRuns : Workbench σ → SourceUnit → List String → Workbench σ → Prop
  | nil (bench : Workbench σ) (unit : SourceUnit) : ImportRuns bench unit [] bench
  | cons {bench next final : Workbench σ} {unit : SourceUnit} {path : String} {paths : List String}
      (hcurrent : bench.draft.currentUnit = .ok unit)
      (hoffer : bench.draft.importable unit ≠ [])
      (hdraw : (Sampling.choose (bench.draft.importable unit)).run bench.random =
        some (path, next.random))
      (haccept : unit.addImport path = .ok (unit.importing [path]))
      (hline : (Synth.generate .importDirective).run bench = (.ok (importDirective path), next))
      (hrest : ImportRuns next (unit.importing [path]) paths final) :
      ImportRuns bench unit (path :: paths) final

theorem ImportRuns.nodup {bench final : Workbench σ} {unit : SourceUnit} {paths : List String}
    (h : ImportRuns bench unit paths final) :
    paths.Nodup ∧ ∀ path ∈ paths, path ∉ unit.imports := by
  induction h with
  | nil bench unit => exact ⟨.nil, nofun⟩
  | @cons _ _ _ unit path paths _ _ _ haccept _ _ ih =>
    obtain ⟨-, hnew, -⟩ := SourceUnit.addImport_eq_ok.1 haccept
    obtain ⟨hnodup, hdisjoint⟩ := ih
    simp only [SourceUnit.importing, List.mem_append, List.mem_singleton, not_or] at hdisjoint
    refine ⟨List.nodup_cons.2 ⟨fun hmem => (hdisjoint path hmem).2 rfl, hnodup⟩, ?_⟩
    rintro other (_ | ⟨_, hmem⟩)
    · exact hnew
    · exact (hdisjoint other hmem).1

section Import

variable {bench next final : Workbench σ} {unit : SourceUnit}

theorem exists_of_import (hwriting : bench.draft.IsWriting unit) (hsize : 1 < bench.draft.size)
    (hoffer : bench.draft.importable unit ≠ []) {text : String}
    (h : (Synth.generate .importDirective).run bench = (.ok text, next)) :
    ∃ path, (Sampling.choose (bench.draft.importable unit)).run bench.random =
        some (path, next.random) ∧
      text = importDirective path ∧ next.draft = bench.draft.put (unit.importing [path]) := by
  obtain ⟨hrun, -, -⟩ := (generate_follows .importDirective).run_of_ok trivial h
  change (Recipe.importLine.run bench.draft).run bench.random = _ at hrun
  simp only [Recipe.run_importLine hwriting hsize hoffer, Sampling.run_bind_pure_eq_some,
    Prod.mk.injEq, Except.ok.injEq] at hrun
  obtain ⟨path, hdraw, rfl, hdraft⟩ := hrun
  exact ⟨path, hdraw, rfl, hdraft.symm⟩

/-- As long as no more imports are asked for than there are units on offer, each of them is met. -/
theorem ImportRuns.of_collect {n : Nat} {texts : List String}
    (hwriting : bench.draft.IsWriting unit) (hsize : n ≤ bench.draft.size - 1)
    (hoffer : n ≤ (bench.draft.importable unit).length)
    (h : (Synth.collect (Synth.generate .importDirective) n).run bench = (.ok texts, final)) :
    ∃ paths, ImportRuns bench unit paths final ∧ paths.length = n ∧
      texts = paths.map importDirective ∧ final.draft = bench.draft.put (unit.importing paths) := by
  -- Each import takes one unit off the offers, while the number of siblings stays the same.
  induction n generalizing bench unit texts with
  | zero =>
    obtain ⟨rfl, rfl⟩ := Synth.run_pure_eq_ok.1 h
    refine ⟨[], .nil bench unit, rfl, rfl, ?_⟩
    rw [SourceUnit.importing_nil, hwriting.put_self]
  | succ n ih =>
    obtain ⟨text, next, hline, h⟩ := Synth.run_bind_eq_ok.1 h
    obtain ⟨rest, final', hrest, h⟩ := Synth.run_bind_eq_ok.1 h
    obtain ⟨rfl, rfl⟩ := Synth.run_pure_eq_ok.1 h
    have hne : bench.draft.importable unit ≠ [] := List.ne_nil_of_length_pos (by omega)
    obtain ⟨path, hdraw, rfl, hnext⟩ := exists_of_import hwriting (by omega) hne hline
    have hmem : path ∈ bench.draft.importable unit := Sampling.reaches_choose.1 (.of_run hdraw)
    have hwriting' := hwriting.put (unit.path_importing [path])
    have hsize' := hwriting.size_put (unit.path_importing [path])
    have hoffer' := hwriting.length_importable_put hmem
    rw [← hnext] at hwriting' hsize' hoffer'
    obtain ⟨paths, hpaths, rfl, rfl, hfinal⟩ := ih hwriting' (by omega) (by omega) hrest
    refine ⟨path :: paths, ?_, rfl, rfl, ?_⟩
    · have haccept := Draft.addImport_of_mem_importable hmem
      exact .cons hwriting.currentUnit hne hdraw haccept hline hpaths
    · rw [hfinal, hnext, Draft.put_importing]
      rfl

end Import

namespace Synth

section Parts

variable {bench final : Workbench σ} {texts : List String} {count : Option Nat}

theorem visitPart_eq_ok (kind : Kind) (n : Nat) (ht : kind ≠ .testCase) (hu : kind ≠ .sourceUnit)
    (hn : ((unitChildren count).find? kind).getD 0 = (n : Int)) {size place : Nat}
    (hplace : (unitChildren count).keys[place]? = some kind)
    (hc : bench.children.get .sourceUnit = unitChildren count)
    (h : (visitPlace (generateAt 2) .sourceUnit size place).run bench = (.ok texts, final)) :
    (collect (generate kind) n).run bench = (.ok texts, final) ∧
      final.children.get .sourceUnit = unitChildren count := by
  have hparts : PartsFollow bench.setting (generateAt (σ := σ) 2) count :=
    partsFollow_generateAt 1 count
  obtain ⟨hc', -⟩ := hparts.children_of_visitPlace hc h
  refine ⟨?_, hc'⟩
  rw [run_visitPlace, hc, hplace] at h
  split at h
  · obtain ⟨_, _, hrequire, h⟩ := run_bind_eq_ok.1 h
    obtain rfl := requireKind_eq_ok hrequire
    obtain ⟨_, _, hweight, h⟩ := run_bind_eq_ok.1 h
    obtain ⟨rfl, rfl⟩ := run_pure_eq_ok.1 hweight
    rwa [hc, hn, generateAt_part 1 ht hu] at h
  · cases h

theorem visitEnd_eq_ok {size place : Nat} (hplace : (unitChildren count).keys[place]? = none)
    (hc : bench.children.get .sourceUnit = unitChildren count)
    (h : (visitPlaces (generateAt 2) .sourceUnit size [place]).run bench = (.ok texts, final)) :
    bench = final ∧ texts = [] := by
  obtain ⟨_, _, middle, hend, hrest, rfl⟩ := visitPlaces_cons_eq_ok h
  obtain ⟨rfl, rfl⟩ := run_pure_eq_ok.1 hrest
  rw [run_visitPlace, hc, hplace] at hend
  split at hend
  · cases hend
    exact ⟨rfl, rfl⟩
  · cases hend

theorem visitPlaces_unit_eq_ok (hc : bench.children.get .sourceUnit = unitChildren count)
    (hunit : (visitPlaces (generateAt 2) .sourceUnit (unitChildren count).keys.length
      (List.range ((unitChildren count).keys.length + 1))).run bench = (.ok texts, final)) :
    ∃ pragmas opened lines imported contract, (generate .pragma).run bench = (.ok pragmas, opened) ∧
      (collect (generate .importDirective) (count.getD 0)).run opened = (.ok lines, imported) ∧
      (generate .contract).run imported = (.ok contract, final) ∧
      texts = pragmas :: (lines ++ [contract]) := by
  cases count with
  | none =>
    change (visitPlaces _ _ _ [0, 1, 2]).run bench = _ at hunit
    obtain ⟨_, _, opened, hopening, hrest, rfl⟩ := visitPlaces_cons_eq_ok hunit
    obtain ⟨_, _, closed, hclosing, hend, rfl⟩ := visitPlaces_cons_eq_ok hrest
    obtain ⟨hopening, hc⟩ := visitPart_eq_ok .pragma 1 nofun nofun rfl rfl hc hopening
    obtain ⟨hclosing, hc⟩ := visitPart_eq_ok .contract 1 nofun nofun rfl rfl hc hclosing
    obtain ⟨rfl, rfl⟩ := visitEnd_eq_ok rfl hc hend
    obtain ⟨pragmas, hpragmas, rfl⟩ := collect_one_eq_ok hopening
    obtain ⟨contract, hcontract, rfl⟩ := collect_one_eq_ok hclosing
    exact ⟨pragmas, opened, [], opened, contract, hpragmas, rfl, hcontract, rfl⟩
  | some n =>
    change (visitPlaces _ _ _ [0, 1, 2, 3]).run bench = _ at hunit
    obtain ⟨_, _, opened, hopening, hrest, rfl⟩ := visitPlaces_cons_eq_ok hunit
    obtain ⟨lines, _, imported, himports, hlast, rfl⟩ := visitPlaces_cons_eq_ok hrest
    obtain ⟨_, _, closed, hclosing, hend, rfl⟩ := visitPlaces_cons_eq_ok hlast
    obtain ⟨hopening, hc⟩ := visitPart_eq_ok .pragma 1 nofun nofun rfl rfl hc hopening
    obtain ⟨himports, hc⟩ := visitPart_eq_ok .importDirective n nofun nofun rfl rfl hc himports
    obtain ⟨hclosing, hc⟩ := visitPart_eq_ok .contract 1 nofun nofun rfl rfl hc hclosing
    obtain ⟨rfl, rfl⟩ := visitEnd_eq_ok rfl hc hend
    obtain ⟨pragmas, hpragmas, rfl⟩ := collect_one_eq_ok hopening
    obtain ⟨contract, hcontract, rfl⟩ := collect_one_eq_ok hclosing
    exact ⟨pragmas, opened, lines, imported, contract, hpragmas, himports, hcontract, rfl⟩

theorem visitUnit_eq_ok {body : String} (hc : bench.children.get .sourceUnit = unitChildren count)
    (h : (visit (generateAt 2) .sourceUnit).run bench = (.ok body, final)) :
    ∃ pragmas opened lines imported contract, (generate .pragma).run bench = (.ok pragmas, opened) ∧
      (collect (generate .importDirective) (count.getD 0)).run opened = (.ok lines, imported) ∧
      (generate .contract).run imported = (.ok contract, final) ∧
      body = Text.joinLines (pragmas :: (lines ++ [contract])) := by
  obtain ⟨_, _, hget, hvisit⟩ := run_bind_eq_ok.1 h
  obtain ⟨rfl, rfl⟩ := run_get_eq_ok.1 hget
  obtain ⟨texts, closed, hplaces, hjoin⟩ := run_bind_eq_ok.1 hvisit
  obtain ⟨rfl, rfl⟩ := run_pure_eq_ok.1 hjoin
  rw [hc] at hplaces
  obtain ⟨pragmas, opened, lines, imported, contract, hopening, himports, hclosing, rfl⟩ :=
    visitPlaces_unit_eq_ok hc hplaces
  exact ⟨pragmas, opened, lines, imported, contract, hopening, himports, hclosing, rfl⟩

end Parts

end Synth

/-- A source unit as it is generated once it has been started. It draws how many imports it asks for
and gets them all, or all other units where it asks for more. -/
inductive UnitServed : Workbench σ → SourceUnit → String → Workbench σ → Prop
  | mk {started planned opened imported closed written : Workbench σ} {unit : SourceUnit}
      {pragmas contract : String}
      (hplan : (Synth.setUp .sourceUnit).run started = (.ok (), planned))
      (hcount : (UnitPlan.decodeCount started.config (started.draft.size - 1)).run started.random =
        some (unit.imports.length, planned.random))
      (hopening : (Synth.generate .pragma).run planned = (.ok pragmas, opened))
      (himports : ImportRuns opened { path := unit.path } unit.imports imported)
      (hdistinct : unit.imports.Nodup)
      (hclosing : (Synth.generate .contract).run imported = (.ok contract, closed))
      (hwritten : (Synth.generate .sourceUnit).run started =
        (.ok (Text.joinLines (pragmas :: (unit.imports.map importDirective ++ [contract]))),
          written))
      (hdraft : written.draft = started.draft.put unit) :
      UnitServed started unit
        (Text.joinLines (pragmas :: (unit.imports.map importDirective ++ [contract]))) written

section Unit

variable {started planned written bench final : Workbench σ}

theorem exists_count_of_setUp (h : (Synth.setUp .sourceUnit).run started = (.ok (), planned)) :
    ∃ n, (UnitPlan.decodeCount started.config (started.draft.size - 1)).run started.random =
        some (n, planned.random) ∧
      planned.draft = started.draft ∧
      planned.children.get .sourceUnit =
        unitChildren (if started.draft.size - 1 = 0 then none else some n) := by
  obtain ⟨count, hrun, -, hchildren⟩ :=
    (setUp_sourceUnit_follows (I := fun _ => True)).exists_of_ok trivial h
  rw [Recipe.run_importCount (Recipe.canDraw_of_reaches_importCount (.of_run hrun))] at hrun
  simp only [Sampling.run_bind_pure_eq_some, Prod.mk.injEq, Except.ok.injEq] at hrun
  obtain ⟨n, hdraw, rfl, hdraft⟩ := hrun
  exact ⟨n, hdraw, hdraft.symm, hchildren⟩

theorem draft_of_contract {unit : SourceUnit} {text : String}
    (hwriting : bench.draft.IsWriting unit)
    (h : (Synth.generate .contract).run bench = (.ok text, final)) :
    final.draft = bench.draft.put unit.addContract := by
  obtain ⟨hrun, -, -⟩ := (generate_follows .contract).run_of_ok trivial h
  change (Recipe.contract.run bench.draft).run bench.random = _ at hrun
  simp only [Recipe.run_contract hwriting, Sampling.run_pure, Option.some.injEq,
    Prod.mk.injEq] at hrun
  exact hrun.1.2.symm

theorem draft_of_pragma {text : String}
    (h : (Synth.generate .pragma).run bench = (.ok text, final)) : final.draft = bench.draft := by
  have hquiet : Synth.Quiet (Synth.generate (σ := σ) .pragma) :=
    (Synth.quiet_setUp .pragma).bind fun _ => Synth.quiet_writePragmas.bind fun _ =>
      (Synth.quiet_note _ _).bind fun _ => Synth.quiet_pure _
  have hdraft := (hquiet bench).1
  rwa [h] at hdraft

theorem UnitServed.of_generate {path body : String} (hwriting : started.draft.IsWriting { path })
    (h : (Synth.generate .sourceUnit).run started = (.ok body, written)) :
    ∃ unit : SourceUnit, unit.path = path ∧ UnitServed started unit body written := by
  obtain ⟨planned, closed, hplan, hvisit, hclosed⟩ := Synth.generateWith_eq_ok h
  obtain ⟨n, hcount, hplanned, hchildren⟩ := exists_count_of_setUp hplan
  obtain ⟨pragmas, opened, lines, imported, contract, hopening, himports, hclosing, rfl⟩ :=
    Synth.visitUnit_eq_ok hchildren hvisit
  -- When the imports are written, there are as many other units as when they were planned, and none
  -- of them has been imported.
  have hle := UnitPlan.le_of_reaches_decodeCount (.of_run hcount)
  have hn : (if started.draft.size - 1 = 0 then none else some n).getD 0 = n := by
    split
    · next hfirst => exact (Nat.eq_zero_of_le_zero (hfirst ▸ hle)).symm
    · rfl
  rw [hn] at himports
  have hopened : opened.draft = started.draft := by rw [draft_of_pragma hopening, hplanned]
  have hoffer := hwriting.length_importable rfl
  rw [← hopened] at hwriting hoffer hle
  obtain ⟨paths, hruns, rfl, rfl, himported⟩ :=
    ImportRuns.of_collect hwriting hle (Nat.le_trans hle (Nat.le_of_eq hoffer.symm)) himports
  have hwriting' := hwriting.put (SourceUnit.path_importing { path } paths)
  rw [← himported] at hwriting'
  have hdraft : written.draft = started.draft.put ⟨path, paths, 1⟩ := by
    rw [hclosed, draft_of_contract hwriting' hclosing, himported, hopened,
      Draft.put_put _ (SourceUnit.path_addContract _)]
    rfl
  exact ⟨⟨path, paths, 1⟩, rfl, .mk hplan hcount hopening hruns hruns.nodup.1 hclosing h hdraft⟩

end Unit

end SoliditySynth
