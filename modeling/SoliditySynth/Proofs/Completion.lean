import Mathlib.Data.Nat.Digits.Defs
import SoliditySynth.Proofs.Liveness
import SoliditySynth.Proofs.Roundtrip
import SoliditySynth.StandardJson

namespace SoliditySynth

namespace Sampling

variable {α β : Type}

def IsBounded : Sampling α → Prop
  | done _ => True
  | ask n next => 0 < n ∧ n < 2 ^ 32 ∧ ∀ i, (next i).IsBounded

theorem isBounded_pure (a : α) : (pure a : Sampling α).IsBounded := trivial

theorem IsBounded.bind {d : Sampling α} {f : α → Sampling β} (h : d.IsBounded)
    (hf : ∀ a, d.Reaches a → (f a).IsBounded) : (d >>= f).IsBounded := by
  change (d.bind f).IsBounded
  induction d with
  | done a => exact hf a rfl
  | ask n next ih =>
    obtain ⟨hpos, hn, hnext⟩ := h
    exact ⟨hpos, hn, fun i => ih i (hnext i) fun a ha => hf a ⟨i, ha⟩⟩

theorem isBounded_pick {n : Nat} (hpos : 0 < n) (hn : n < 2 ^ 32) : (pick n).IsBounded :=
  ⟨hpos, hn, fun _ => trivial⟩

theorem isBounded_oneTo {n : Nat} (hpos : 0 < n) (hn : n < 2 ^ 32) : (oneTo n).IsBounded :=
  (isBounded_pick hpos hn).bind fun _ _ => isBounded_pure _

theorem isBounded_choose {items : List α} (hne : items ≠ []) (hlen : items.length < 2 ^ 32) :
    (choose items).IsBounded :=
  (isBounded_pick (List.length_pos_of_ne_nil hne) hlen).bind fun _ _ => isBounded_pure _

theorem isBounded_mapM {f : α → Sampling β} {as : List α} (h : ∀ a ∈ as, (f a).IsBounded) :
    (as.mapM f).IsBounded := by
  induction as with
  | nil => exact isBounded_pure _
  | cons a as ih =>
    rw [List.mapM_cons]
    apply (h a List.mem_cons_self).bind
    intro b _
    apply (ih fun a' ha' => h a' (List.mem_cons_of_mem _ ha')).bind
    exact fun _ _ => isBounded_pure _

theorem IsBounded.exists_run {d : Sampling α} (h : d.IsBounded) (t : Random.Twister) :
    ∃ a t', d.run t = some (a, t') := by
  induction d generalizing t with
  | done a => exact ⟨a, t, rfl⟩
  | ask n next ih =>
    obtain ⟨hpos, hn, hnext⟩ := h
    obtain ⟨i, t', hdraw⟩ := Random.Twister.exists_draw_of_lt hpos hn t
    obtain ⟨a, t'', hrun⟩ := ih i (hnext i) t'
    refine ⟨a, t'', ?_⟩
    rw [run, hdraw]
    exact hrun

end Sampling

/-- For every choice there is something to choose from, and the number of possibilities has at most
32 bits. -/
structure Config.IsModest (config : Config) : Prop where
  maxUnits : 1 ≤ config.maxUnits ∧ config.maxUnits < 2 ^ 32
  maxImports : 1 ≤ config.maxImports ∧ config.maxImports < 2 ^ 32
  generic : config.genericPragmas ≠ [] ∧ config.genericPragmas.length < 2 ^ 32
  abi : config.abiPragmas ≠ [] ∧ config.abiPragmas.length < 2 ^ 32
  written (count : Nat) : config.WritesBounds count

theorem Config.isModest_standard : standard.IsModest where
  maxUnits := by decide
  maxImports := by decide
  generic := by decide
  abi := by decide
  written _ := ⟨by decide, fun _ => by decide⟩

namespace UnitPlan

variable {config : Config} {number : Nat}

theorem isBounded_decodeImports (hnumber : number < 2 ^ 32) {count : Nat} {imported : List String}
    (h : imported.length + count ≤ number) :
    (decodeImports config number count imported).IsBounded := by
  induction count generalizing imported with
  | zero => exact Sampling.isBounded_pure _
  | succ count ih =>
    apply (Sampling.isBounded_oneTo (by omega) (by omega)).bind
    intro place _
    apply ih
    rw [List.length_append, List.length_singleton]
    omega

theorem isBounded_decodeCount (h : config.IsModest) (number : Nat) :
    (decodeCount config number).IsBounded := by
  obtain ⟨hpos, hlt⟩ := h.maxImports
  rw [decodeCount]
  split
  · exact Sampling.isBounded_pure _
  · apply (Sampling.isBounded_oneTo (by omega) (by omega)).bind
    exact fun _ _ => Sampling.isBounded_pure _

theorem isBounded_decode (h : config.IsModest) (hnumber : number < 2 ^ 32) :
    (decode config number).IsBounded := by
  apply (isBounded_decodeCount h number).bind
  intro count hcount
  apply (Sampling.isBounded_choose h.generic.1 h.generic.2).bind
  intro generic _
  apply (Sampling.isBounded_choose h.abi.1 h.abi.2).bind
  intro abi _
  have hle : ([] : List String).length + count ≤ number := by
    rw [List.length_nil, Nat.zero_add]
    exact le_of_reaches_decodeCount hcount
  exact (isBounded_decodeImports hnumber hle).bind fun _ _ => Sampling.isBounded_pure _

end UnitPlan

theorem Blueprint.isBounded_decode {config : Config} (h : config.IsModest) :
    (decode config).IsBounded := by
  obtain ⟨hpos, hlt⟩ := h.maxUnits
  apply (Sampling.isBounded_oneTo (by omega) (by omega)).bind
  intro count hcount
  have hle := (Sampling.reaches_oneTo.1 hcount).2
  apply Sampling.isBounded_mapM
  intro number hnumber
  have hcount := List.mem_range.1 hnumber
  exact UnitPlan.isBounded_decode h (by omega)

/-- From every twister a modest generator comes to the end of a program. -/
theorem exists_program {bench : Workbench Random.Twister} (hmodest : bench.config.IsModest)
    (hregistered : ∀ kind, bench.registered.get kind = true) :
    ∃ (blueprint : Blueprint) (bench' : Workbench Random.Twister),
      blueprint.IsPossible bench.config ∧
        Synth.program.run bench = (.ok (blueprint.text bench.config), bench') := by
  have hready : bench.setting.Ready :=
    { registered := hregistered
      maxUnits := hmodest.maxUnits.1
      maxImports := hmodest.maxImports.1
      generic := hmodest.generic.1
      abi := hmodest.abi.1
      written := hmodest.written }
  obtain ⟨blueprint, random, hd⟩ := (Blueprint.isBounded_decode hmodest).exists_run bench.random
  obtain ⟨bench', hrun, -⟩ := hready.run_program_of_decode hd
  exact ⟨blueprint, bench', Blueprint.reaches_decode.1 (.of_run hd), hrun⟩

namespace Blueprint

theorem text_eq_joinLines (config : Config) (blueprint : Blueprint) :
    blueprint.text config = Text.joinLines ((bodies config blueprint).map unitText) := by
  have hunits : (bodies config blueprint).map unitText =
      blueprint.mapIdx (UnitPlan.text config) := by
    apply List.ext_getElem
    · simp [bodies]
    · intro i _ _
      simp only [bodies, List.getElem_map, List.getElem_mapIdx, unitText,
        UnitPlan.joinLines_eq_text]
  rw [hunits, text, Text.joinLines_eq_intercalate]

theorem exists_ofProgram_text {config : Config} (hplain : config.IsPlain) {blueprint : Blueprint}
    (hpossible : blueprint.IsPossible config) :
    ∃ bundle, Bundle.ofProgram (blueprint.text config) = .ok bundle ∧
      bundle.keys = UnitPlan.earlierPaths config blueprint.length := by
  have hnone : ∀ part ∈ ([] : List String), ∀ l ∈ Text.lines part, Header.path? l = none := by
    simp
  obtain ⟨bundle, hbundle, hentries⟩ := ofProgram_bodies hplain hpossible hnone
  rw [List.nil_append, ← text_eq_joinLines] at hbundle
  refine ⟨bundle, hbundle, ?_⟩
  rw [OrderedMap.keys, hentries, UnitPlan.map_fst_mapIdx, bodies, List.length_mapIdx]

end Blueprint

def firstProgram (seed : Int) : Except Fault String := do
  let bench ← Workbench.ofSeed seed .standard
  (Synth.program.run bench).1

/-- A program in the three forms in which it can be handed out. -/
structure Edition where
  program : String
  json : String
  units : Bundle

/-- The program is the first one for the seed. Its units are named by their numbers. -/
structure Edition.IsOf (edition : Edition) (seed : Int) : Prop where
  program : firstProgram seed = .ok edition.program
  json : Format.standardJson.render edition.program = .ok edition.json
  units : Bundle.ofProgram edition.program = .ok edition.units
  paths : ∃ n ≤ 3, edition.units.keys = UnitPlan.earlierPaths .standard n

theorem Config.canWrite_standard {n : Int} (h : n.natAbs < 2 ^ 64) : standard.CanWrite n := by
  rintro limit ⟨⟩
  have hlength : (Nat.toDigits 10 n.natAbs).length ≤ 20 :=
    Nat.toDigits_length 10 _ 20 (by decide) (Nat.lt_trans h (by decide))
  exact Nat.le_trans hlength (by decide)

/-- Each seed of at most 64 bits has a program, and the program comes apart. -/
theorem exists_edition {seed : Int} (h : 0 ≤ seed) (hlt : seed < 2 ^ 64) :
    ∃ edition : Edition, edition.IsOf seed := by
  let bench := Workbench.start seed.toNat .standard (Random.Twister.ofSeed seed.toNat)
  have hseed : Workbench.ofSeed seed .standard = .ok bench :=
    Workbench.ofSeed_of_nonneg (Config.canWrite_standard (by omega)) h
  obtain ⟨blueprint, bench', hpossible, hrun⟩ := @exists_program bench Config.isModest_standard
    (by intro kind; cases kind <;> rfl)
  obtain ⟨bundle, hbundle, hkeys⟩ :=
    Blueprint.exists_ofProgram_text Config.isPlain_standard hpossible
  have hlength : (blueprint.length : Int) ≤ 3 := hpossible.length
  refine ⟨⟨blueprint.text .standard, bundle.standardJson.pretty ++ "\n", bundle⟩,
    ?program, ?json, hbundle, blueprint.length, by omega, hkeys⟩
  case program =>
    rw [firstProgram, hseed]
    change (Synth.program.run bench).1 = _
    rw [hrun]
    rfl
  case json =>
    rw [Format.render, hbundle]
    rfl

end SoliditySynth
