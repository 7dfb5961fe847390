import SoliditySynth.Proofs.UnitRuns

namespace SoliditySynth

/-- Names without white space, and pragmas without header lines. -/
structure Config.IsPlain (config : Config) : Prop where
  unitPrefix : ∀ c ∈ config.unitPrefix.toList, Text.isBlank c = false
  unitSuffix : ∀ c ∈ config.unitSuffix.toList, Text.isBlank c = false
  pragmas : ∀ pragma ∈ config.genericPragmas ++ config.abiPragmas,
    ∀ line ∈ Text.lines pragma, ¬Header.IsHeader line

theorem isBlank_of_isDigit {c : Char} (h : c.isDigit = true) : Text.isBlank c = false := by
  have hbounds : 48 ≤ c.toNat ∧ c.toNat ≤ 57 := by
    simpa [Char.isDigit, UInt32.le_iff_toNat_le] using h
  obtain ⟨hlow, hhigh⟩ := hbounds
  simp only [Text.isBlank, Bool.or_eq_false_iff, Bool.and_eq_false_iff, decide_eq_false_iff_not,
    beq_eq_false_iff_ne]
  omega

theorem Config.IsPlain.isPath {config : Config} (h : config.IsPlain) (number : Nat) :
    Header.IsPath (config.unitPath number) := by
  constructor
  · intro hempty
    have hl := congrArg String.toList hempty
    rw [toList_unitPath] at hl
    simp at hl
  · intro c hc
    rw [toList_unitPath, List.mem_append, List.mem_append] at hc
    rcases hc with (hc | hc) | hc
    · exact h.unitPrefix c hc
    · exact isBlank_of_isDigit (Nat.isDigit_of_mem_toDigits (by decide) (by decide) hc)
    · exact h.unitSuffix c hc

theorem lines_importDirective {path : String} (h : '\n' ∉ path.toList) :
    Text.lines (importDirective path) = [importDirective path] := by
  apply Text.lines_of_notMem
  simp [importDirective, h]

theorem path?_importDirective (path : String) : Header.path? (importDirective path) = none := by
  apply Header.path?_of_head
  simp [importDirective]

theorem lines_contractDirective {path : String} (h : '\n' ∉ path.toList) :
    Text.lines (contractDirective { path }) = [contractDirective { path }] := by
  apply Text.lines_of_notMem
  have hstem : '\n' ∉ (Path.ofText path).stem.toList := fun hmem => h (Path.mem_of_mem_stem hmem)
  rw [contractDirective_fresh]
  simp [hstem]

theorem path?_contractDirective (unit : SourceUnit) :
    Header.path? (contractDirective unit) = none := by
  apply Header.path?_of_head
  simp [contractDirective]

namespace UnitPlan

variable {config : Config} {number : Nat} {plan : UnitPlan}

theorem path?_of_mem_lines_body (hplain : config.IsPlain) (hplan : plan.IsPossible config number)
    {l : String} (hl : l ∈ Text.lines (plan.body config number)) : Header.path? l = none := by
  have hpragma (pragma : String) (hp : pragma ∈ config.genericPragmas ++ config.abiPragmas)
      (hlp : l ∈ Text.lines pragma) : Header.path? l = none :=
    Header.path?_eq_none_iff.2 (hplain.pragmas pragma hp l hlp)
  have hpath (k : Nat) := Header.newline_notMem_path (hplain.isPath k)
  rw [← joinLines_eq_body, Text.lines_joinLines (by simp), List.flatMap_cons, List.flatMap_append,
    Text.lines_joinLines (by simp)] at hl
  -- A line belongs to a pragma, to an import or to the contract; the last two are one line each.
  rcases List.mem_append.1 hl with hl | hl
  · simp only [List.flatMap_cons, List.flatMap_nil, List.append_nil, List.mem_append] at hl
    rcases hl with hl | hl
    · exact hpragma _ (List.mem_append_left _ hplan.generic) hl
    · exact hpragma _ (List.mem_append_right _ hplan.abi) hl
  rcases List.mem_append.1 hl with hl | hl
  · rw [List.flatMap_map, List.mem_flatMap] at hl
    obtain ⟨path, himport, hl⟩ := hl
    obtain ⟨k, -, rfl⟩ := hplan.earlier path himport
    rw [lines_importDirective (hpath k), List.mem_singleton] at hl
    rw [hl]
    exact path?_importDirective _
  · rw [List.flatMap_singleton, lines_contractDirective (hpath number), List.mem_singleton] at hl
    rw [hl]
    exact path?_contractDirective _

theorem body_last (config : Config) (number : Nat) (plan : UnitPlan) :
    ∃ cs, (plan.body config number).toList = cs ++ ['\x7d'] := by
  have hclosing : ("_0 \x7b\x7d" : String).toList = "_0 \x7b".toList ++ ['\x7d'] := by decide
  rw [body, String.toList_append, hclosing, ← List.append_assoc]
  exact ⟨_, rfl⟩

end UnitPlan

section

variable {σ : Type} [Random.Sampler σ]

theorem setUp_testCase_eq_ok {bench planned : Workbench σ}
    (h : (Synth.setUp .testCase).run bench = (.ok (), planned)) :
    planned.setting = bench.setting ∧ planned.draft = bench.draft := by
  obtain ⟨-, -, hsetting, hdraft, -⟩ := exists_count_of_setUp_testCase h
  exact ⟨hsetting, hdraft⟩

end

theorem path?_of_mem_lines_comment (seed : Int) {l : String}
    (hl : l ∈ Text.lines ("// seed=" ++ toString seed)) : Header.path? l = none := by
  have hnewline : '\n' ∉ ("// seed=" ++ toString seed).toList := by
    rw [String.toList_append, List.mem_append]
    rintro (hmem | hmem)
    · exact absurd hmem (by decide)
    · exact Config.notMem_toString (by decide) (by decide) seed hmem
  rw [Text.lines_of_notMem hnewline, List.mem_singleton] at hl
  rw [hl]
  apply Header.path?_of_head
  simp

namespace Blueprint

def bodies (config : Config) (blueprint : Blueprint) : List (String × String) :=
  blueprint.mapIdx fun i plan => (config.unitPath i, plan.body config i)

theorem map_fst_bodies (config : Config) (blueprint : Blueprint) :
    (bodies config blueprint).map Prod.fst = UnitPlan.earlierPaths config blueprint.length :=
  UnitPlan.map_fst_mapIdx config (UnitPlan.body config) blueprint

theorem bodies_ne_nil {config : Config} {blueprint : Blueprint} (h : blueprint.IsPossible config) :
    bodies config blueprint ≠ [] := by
  have hnonempty := h.nonempty
  intro hnil
  rw [bodies, List.mapIdx_eq_nil_iff] at hnil
  rw [hnil] at hnonempty
  exact absurd hnonempty (by decide)

theorem map_trimNewlines_bodies (config : Config) (blueprint : Blueprint) :
    ((bodies config blueprint).map fun unit => (unit.1, Text.trimNewlines unit.2 ++ "\n")) =
      (bodies config blueprint).mapIdx fun k unit =>
        (config.unitPath k, Text.dropNewlines unit.2 ++ "\n") := by
  apply List.ext_getElem
  · simp
  · intro i _ hi
    rw [List.length_mapIdx, bodies, List.length_mapIdx] at hi
    obtain ⟨cs, hlast⟩ := UnitPlan.body_last config i blueprint[i]
    simp only [bodies, List.getElem_map, List.getElem_mapIdx,
      Text.trimNewlines_of_last hlast (by decide)]

theorem ofProgram_bodies {config : Config} (hplain : config.IsPlain) {blueprint : Blueprint}
    (hpossible : blueprint.IsPossible config) {parts : List String}
    (hparts : ∀ part ∈ parts, ∀ l ∈ Text.lines part, Header.path? l = none) :
    ∃ bundle, Bundle.ofProgram (Text.joinLines (parts ++ (bodies config blueprint).map unitText)) =
        .ok bundle ∧
      bundle.entries = (bodies config blueprint).mapIdx fun k unit =>
        (config.unitPath k, Text.dropNewlines unit.2 ++ "\n") := by
  rw [← map_trimNewlines_bodies]
  apply Bundle.ofProgram_unitTexts hparts
  · intro unit hunit
    obtain ⟨i, hi, rfl⟩ := List.mem_mapIdx.1 hunit
    refine ⟨hplain.isPath i, fun l hl => ?_⟩
    exact UnitPlan.path?_of_mem_lines_body hplain
      (hpossible.units i _ (List.getElem?_eq_getElem hi)) hl
  · exact bodies_ne_nil hpossible
  · rw [map_fst_bodies]
    exact nodup_earlierPaths config _

end Blueprint

/-- A program of plain names and pragmas comes apart into its units: under the path of each stands
the body that was generated for it, but for newlines at its start. A comment with the seed in front
of the program makes no difference. -/
theorem program_splits {σ : Type} [Random.Sampler σ] (bench : Workbench σ) {bench' : Workbench σ}
    {text : String} (hplain : bench.config.IsPlain)
    (hrun : Synth.program.run bench = (.ok text, bench')) :
    ∃ planned units written bundle,
      (Synth.setUp .testCase).run { bench with draft := .empty } = (.ok (), planned) ∧
      UnitRuns planned units written ∧ bench'.draft = written.draft ∧
      bench'.draft.size = units.length ∧
      Bundle.ofProgram text = .ok bundle ∧
      (∀ seed : Int, Bundle.ofProgram (s!"// seed={seed}\n" ++ text) = .ok bundle) ∧
      bundle.entries = units.mapIdx fun k unit =>
        (bench.config.unitPath k, Text.dropNewlines unit.2 ++ "\n") := by
  obtain ⟨planned, units, written, hplanned, hunits, rfl, hdraft⟩ := UnitRuns.of_program hrun
  obtain ⟨hsetting, hempty⟩ := setUp_testCase_eq_ok hplanned
  have hconfig : planned.config = bench.config := congrArg Setting.config hsetting
  obtain ⟨plans, hplans, rfl, hwritten⟩ := hunits.exists_plans [] hconfig
    (by rw [hempty]; rfl) (absurd rfl)
  simp only [List.length_nil, Nat.zero_add, List.nil_append] at hplans hunits hwritten hrun ⊢
  obtain ⟨blueprint, hblueprint, -, hleft⟩ := isPossible_of_returned hrun
  have hlen : plans.length = blueprint.length := by
    rw [hdraft, hwritten] at hleft
    exact congrArg Draft.added hleft
  have hpossible : Blueprint.IsPossible bench.config plans := by
    refine ⟨?_, ?_, hplans⟩
    · rw [hlen]
      exact hblueprint.nonempty
    · rw [hlen]
      exact hblueprint.length
  have hsize : bench'.draft.size = (Blueprint.bodies bench.config plans).length := by
    rw [hdraft, hwritten, Draft.size, ← OrderedMap.length_keys, Blueprint.keys_draft]
    simp [Blueprint.bodies, UnitPlan.earlierPaths]
  have hnone : ∀ part ∈ ([] : List String), ∀ l ∈ Text.lines part, Header.path? l = none := by
    simp
  obtain ⟨bundle, hbundle, hentries⟩ := Blueprint.ofProgram_bodies hplain hpossible hnone
  refine ⟨planned, Blueprint.bodies bench.config plans, written, bundle, hplanned, hunits, hdraft,
    hsize, hbundle, fun seed => ?_, hentries⟩
  have hcomment : ∀ part ∈ ["// seed=" ++ toString seed], ∀ l ∈ Text.lines part,
      Header.path? l = none := by
    intro part hpart
    rw [List.mem_singleton.1 hpart]
    exact fun l => path?_of_mem_lines_comment seed
  obtain ⟨bundle', hbundle', hentries'⟩ := Blueprint.ofProgram_bodies hplain hpossible hcomment
  have hsame : bundle' = bundle := OrderedMap.ext (hentries'.trans hentries.symm)
  have hne : (Blueprint.bodies bench.config plans).map unitText ≠ [] := by
    simpa using Blueprint.bodies_ne_nil hpossible
  rw [List.singleton_append, Text.joinLines_cons _ hne, hsame] at hbundle'
  exact hbundle'

theorem Config.isPlain_standard : standard.IsPlain where
  unitPrefix := by
    have hall : standard.unitPrefix.toList.all (!Text.isBlank ·) = true := by decide +kernel
    simpa using hall
  unitSuffix := by
    have hall : standard.unitSuffix.toList.all (!Text.isBlank ·) = true := by decide +kernel
    simpa using hall
  pragmas := by
    have hlines : ∀ pragma ∈ standard.genericPragmas ++ standard.abiPragmas,
        ∀ line ∈ Text.lines pragma, Header.path? line = none := by
      decide +kernel
    exact fun pragma hp line hl => Header.path?_eq_none_iff.1 (hlines pragma hp line hl)

theorem program_splits_pair :
    ∃ (units : List (String × String)) (bundle : Bundle),
      Bundle.ofProgram (Blueprint.pair.text .standard) = .ok bundle ∧ units.length = 2 ∧
      bundle.entries = units.mapIdx fun k unit =>
        (Config.standard.unitPath k, Text.dropNewlines unit.2 ++ "\n") := by
  have hready := Setting.ready_standard 0 (Sampling.Script.mk [1, 0, 1, 1, 1, 0, 0])
  obtain ⟨bench', hrun, hdraft, -⟩ := hready.run_program_of_decode Blueprint.run_decode_pair
  obtain ⟨planned, units, written, bundle, -, -, -, hsize, hbundle, -, hentries⟩ :=
    program_splits _ Config.isPlain_standard hrun
  refine ⟨units, bundle, hbundle, ?_, hentries⟩
  rw [← hsize, hdraft]
  rfl

end SoliditySynth
