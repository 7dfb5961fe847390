import SoliditySynth.Proofs.ArgumentReaders
import SoliditySynth.Proofs.Batches

namespace SoliditySynth.CommandLine

/-- The run must be refused: the seed does not have 64 bits, or separate files are asked for and
there is no directory to write them to. -/
def Settings.MustRefuse (settings : Settings) (seed : Int) : Prop :=
  ¬(0 ≤ seed ∧ seed < 2 ^ 64) ∨
    settings.split = true ∧ (settings.directory = none ∨ settings.directory = some "")

/-- A run is refused without any trace but for the explanation, or it succeeds. If it succeeds, no
option is ignored: nothing is shown where a directory is named, and each unit has a file of its own
where separate files are asked for. -/
structure Heeds (settings : Settings) (seed count : Int) (world : World)
    (outcome : UInt32 × World) : Prop where
  refused : settings.MustRefuse seed →
    outcome.1 = 2 ∧ outcome.2.output = world.output ∧ outcome.2.files = world.files
  returned : ¬settings.MustRefuse seed → outcome.1 = 0
  silent : ¬settings.MustRefuse seed → settings.directory ≠ none →
    outcome.2.output = world.output
  split : ¬settings.MustRefuse seed → settings.split = true →
    ∃ name, settings.directory = some name ∧ ∀ i : Nat, i < count →
      ∃ edition : Edition, edition.IsOf (seedAt seed i) ∧
        ∀ unit ∈ edition.units.entries, outcome.2.files.fileAt?
          (world.files.place (Path.ofText name) ++ [s!"seed_{seedAt seed i}", unit.1]) = some unit.2

variable {dialect : Dialect} {arguments : List String} {settings : Settings} {seed count : Int}
  {world : World}

/-- What the late reader accepts asks for a number of programs, and if it names a first seed, from
that seed on. -/
theorem exists_asks (h : Settings.parse .late arguments = .ok settings)
    (hseed : settings.seed ≠ .absent) : ∃ seed count, Asks .late arguments settings seed count := by
  obtain ⟨hnumber, count, hcount⟩ := Settings.hasNumbers_of_parse h
  obtain ⟨seed, hseed⟩ := hnumber.resolve_left hseed
  exact ⟨seed, count, h, hseed, hcount⟩

theorem Asks.finish_refused (h : Asks dialect arguments settings seed count)
    (hbad : ¬(0 ≤ seed ∧ seed < 2 ^ 64) ∨ settings.split = true ∧ settings.directory = none)
    (spare : Int) (world : World) :
    ∃ errors, world.finish (run arguments spare dialect) =
      (2, ⟨world.files, world.output, errors⟩) := by
  have hrange : (decide (seed < 0) || decide (Settings.seedCount ≤ seed)) = true ↔
      ¬(0 ≤ seed ∧ seed < 2 ^ 64) := by
    rw [Settings.seedCount, Bool.or_eq_true, decide_eq_true_iff, decide_eq_true_iff]
    omega
  have hrefused : ∃ fault, Settings.ofArguments dialect arguments = .error (.fault fault) := by
    rw [Settings.ofArguments, h.parse]
    change ∃ fault, settings.check = .error (.fault fault)
    rw [Settings.check, h.seed]
    dsimp only
    split
    · exact ⟨_, rfl⟩
    · next hin =>
      rw [hrange] at hin
      obtain ⟨hsplit, hdirectory⟩ := hbad.resolve_left hin
      rw [Settings.checkSplit, hsplit, hdirectory]
      exact ⟨_, rfl⟩
  obtain ⟨fault, hrefused⟩ := hrefused
  rw [run, hrefused]
  exact ⟨_, rfl⟩

theorem target_eq_none_iff :
    settings.target = none ↔ settings.directory = none ∨ settings.directory = some "" := by
  rw [Settings.target]
  cases settings.directory with
  | none => simp
  | some name =>
    by_cases hname : name = "" <;> simp [hname]

theorem shown_ne_empty {edition : Edition} {seed : Int} (he : edition.IsOf seed)
    (format : Format) : shown edition format seed ≠ "" := by
  cases format with
  | solidity =>
    intro hempty
    have hl := congrArg String.toList hempty
    simp only [shown, String.toList_append, List.append_eq_nil_iff, String.toList_empty] at hl
    exact absurd hl.1.1.1 (by decide)
  | standardJson =>
    have hjson := he.json
    rw [Format.render, he.units] at hjson
    intro hempty
    have hnewline : edition.units.standardJson.pretty ++ "\n" = "" :=
      (Except.ok.inj hjson).trans hempty
    have hl := congrArg String.toList hnewline
    simp at hl

theorem join_shown_eq_empty_iff {first : Int → Edition} (hfirst : IsFirst first) (format : Format)
    (seed count : Int) :
    String.join ((seeds seed count.toNat).map fun seed => shown (first seed) format seed) = "" ↔
      count ≤ 0 := by
  have hnone : seeds seed count.toNat = [] ↔ count ≤ 0 := by
    rw [seeds, List.map_eq_nil_iff, List.range_eq_nil, Int.toNat_eq_zero]
  rw [← hnone, ← String.toList_inj, String.toList_join, String.toList_empty,
    List.flatMap_eq_nil_iff]
  constructor
  · intro hall
    rw [List.eq_nil_iff_forall_not_mem]
    intro s hmem
    have hrange := range_of_mem_seeds seed hmem
    have hempty := hall _ (List.mem_map_of_mem hmem)
    exact shown_ne_empty (hfirst s hrange.1 hrange.2) format (String.toList_eq_nil_iff.1 hempty)
  · intro hnil
    rw [hnil]
    simp

section Outcomes

variable (h : Asks dialect arguments settings seed count) (spare : Int)
include h

theorem Asks.heeds_refused
    (hbad : ¬(0 ≤ seed ∧ seed < 2 ^ 64) ∨ settings.split = true ∧ settings.directory = none) :
    Heeds settings seed count world (world.finish (run arguments spare dialect)) := by
  have hmust : settings.MustRefuse seed := hbad.imp_right fun hbad => ⟨hbad.1, .inl hbad.2⟩
  obtain ⟨errors, hfinish⟩ := h.finish_refused hbad spare world
  rw [hfinish]
  exact ⟨fun _ => ⟨rfl, rfl, rfl⟩, fun hnot => absurd hmust hnot, fun hnot => absurd hmust hnot,
    fun hnot => absurd hmust hnot⟩

theorem Asks.heeds_written (hseed : 0 ≤ seed) (hlt : seed < 2 ^ 64) {name : String}
    (hname : settings.directory = some name) (hne : name ≠ "") {made : FileTree}
    (haccepts : world.files.Accepts (Path.ofText name) made) :
    Heeds settings seed count world (world.finish (run arguments spare dialect)) := by
  have htarget : settings.target = some (Path.ofText name) := by
    rw [Settings.target, hname]
    exact if_neg hne
  obtain ⟨first, hfirst⟩ := exists_isFirst
  obtain ⟨files, errors, hfinish, hadds⟩ := h.finish_written hseed hlt htarget hfirst spare haccepts
  have hnot : ¬settings.MustRefuse seed := by
    rintro (hbad | ⟨-, hnone | hblank⟩)
    · exact hbad ⟨hseed, hlt⟩
    · rw [hname] at hnone
      cases hnone
    · exact hne (Option.some.inj (hname.symm.trans hblank))
  rw [hfinish]
  refine ⟨fun hmust => absurd hmust hnot, fun _ => rfl, fun _ _ => rfl, fun _ hsplit => ?_⟩
  refine ⟨name, hname, fun i hi => ⟨first (seedAt seed i),
    hfirst _ (seedAt_nonneg seed i) (seedAt_lt seed i), fun unit hunit => ?_⟩⟩
  have hlayout : settings.layout = .perUnit := by rw [Settings.layout, if_pos hsplit]
  have hmem : seedAt seed i ∈ seeds seed count.toNat :=
    List.mem_map_of_mem (List.mem_range.2 (by omega))
  have hfile : (world.files.place (Path.ofText name) ++ [s!"seed_{seedAt seed i}", unit.1],
      unit.2) ∈ batchFiles first settings.layout (world.files.place (Path.ofText name))
        (seeds seed count.toNat) := by
    rw [batchFiles, List.mem_flatMap, hlayout]
    exact ⟨_, hmem, List.mem_map_of_mem hunit⟩
  exact hadds.added hfile

theorem Asks.heeds_shown_iff (hseed : 0 ≤ seed) (hlt : seed < 2 ^ 64)
    (hblank : settings.directory = none ∨ settings.directory = some "")
    (hsplit : settings.split = true → settings.directory ≠ none) :
    Heeds settings seed count world (world.finish (run arguments spare dialect)) ↔
      settings.split = false ∧ (settings.directory = none ∨ count ≤ 0) := by
  have htarget : settings.target = none := target_eq_none_iff.2 hblank
  obtain ⟨first, hfirst⟩ := exists_isFirst
  obtain ⟨errors, hfinish⟩ := h.finish_shown hseed hlt hsplit htarget hfirst spare world
  have hmust : settings.MustRefuse seed ↔ settings.split = true :=
    ⟨fun hbad => (hbad.resolve_left (not_not.2 ⟨hseed, hlt⟩)).1, fun hyes => .inr ⟨hyes, hblank⟩⟩
  rw [hfinish, ← join_shown_eq_empty_iff hfirst settings.format seed count]
  constructor
  · intro hheeds
    have hnosplit : settings.split = false := by
      rw [← Bool.not_eq_true]
      intro hyes
      have hcode : (0 : UInt32) = 2 := (hheeds.refused (hmust.2 hyes)).1
      exact absurd hcode (by decide)
    refine ⟨hnosplit, ?_⟩
    by_cases hdirectory : settings.directory = none
    · exact .inl hdirectory
    · have hsilent := hheeds.silent (by rw [hmust, hnosplit]; decide) hdirectory
      exact .inr (by simpa using hsilent)
  · rintro ⟨hnosplit, hquiet⟩
    have hnot : ¬settings.MustRefuse seed := by
      rw [hmust, hnosplit]
      decide
    refine ⟨fun hyes => absurd hyes hnot, fun _ => rfl, fun _ hdirectory => ?_, fun _ hyes => ?_⟩
    · change world.output ++ _ = world.output
      rw [hquiet.resolve_left hdirectory, String.append_empty]
    · rw [hnosplit] at hyes
      cases hyes

end Outcomes

/-- A run heeds its options unless a directory with an empty name is given to a run that is not
refused for its seed, and there is something to split or to show. In that case it does what it would
do without a directory and without separate files. -/
theorem options_heeded_iff (h : Asks dialect arguments settings seed count) (spare : Int)
    (world : World) (haccepts : ∀ name, settings.directory = some name → name ≠ "" →
      ∃ made, world.files.Accepts (Path.ofText name) made) :
    (Heeds settings seed count world (world.finish (run arguments spare dialect)) ↔
      ¬(0 ≤ seed ∧ seed < 2 ^ 64) ∨ settings.directory ≠ some "" ∨
        settings.split = false ∧ count ≤ 0) ∧
    (0 ≤ seed → seed < 2 ^ 64 → settings.directory = some "" →
      ∃ first : Int → Edition, (∀ seed, 0 ≤ seed → seed < 2 ^ 64 → (first seed).IsOf seed) ∧
        ∃ errors, world.finish (run arguments spare dialect) = (0, ⟨world.files, world.output ++
          String.join ((List.range count.toNat).map fun i =>
            shown (first (seedAt seed i)) settings.format (seedAt seed i)), errors⟩)) := by
  constructor
  case left =>
    by_cases hrange : 0 ≤ seed ∧ seed < 2 ^ 64
    case neg => exact iff_of_true (h.heeds_refused spare (.inl hrange)) (.inl hrange)
    obtain ⟨hseed, hlt⟩ := hrange
    cases hdirectory : settings.directory with
    | none =>
      refine iff_of_true ?_ (.inr (.inl (by simp)))
      by_cases hsplit : settings.split = true
      · exact h.heeds_refused spare (.inr ⟨hsplit, hdirectory⟩)
      · rw [h.heeds_shown_iff spare hseed hlt (.inl hdirectory) fun hyes => absurd hyes hsplit]
        exact ⟨by simpa using hsplit, .inl hdirectory⟩
    | some name =>
      by_cases hne : name = ""
      · subst hne
        have hgiven : settings.directory ≠ none := by simp [hdirectory]
        rw [h.heeds_shown_iff spare hseed hlt (.inr hdirectory) fun _ => hgiven]
        constructor
        · rintro ⟨hsplit, hquiet⟩
          exact .inr (.inr ⟨hsplit, hquiet.resolve_left hgiven⟩)
        · rintro (hbad | hnamed | ⟨hsplit, hcount⟩)
          · exact absurd ⟨hseed, hlt⟩ hbad
          · exact absurd rfl hnamed
          · exact ⟨hsplit, .inr hcount⟩
      · obtain ⟨made, haccepts⟩ := haccepts name hdirectory hne
        exact iff_of_true (h.heeds_written spare hseed hlt hdirectory hne haccepts)
          (.inr (.inl fun hblank => hne (Option.some.inj hblank)))
  case right =>
    intro hseed hlt hblank
    obtain ⟨first, hfirst⟩ := exists_isFirst
    obtain ⟨errors, hfinish⟩ := h.finish_shown hseed hlt (fun _ => by simp [hblank])
      (target_eq_none_iff.2 (.inr hblank)) hfirst spare world
    rw [seeds, List.map_map] at hfinish
    exact ⟨first, hfirst, errors, hfinish⟩

theorem options_heeded_split :
    Heeds { seed := .value 7, directory := some "out", split := true, verbose := true } 7 1 bareWorld
      (bareWorld.finish (run ["--seed", "7", "-vo=out", "--split"] 0 .late)) := by
  have hasks : Asks .late ["--seed", "7", "-vo=out", "--split"]
      { seed := .value 7, directory := some "out", split := true, verbose := true } 7 1 :=
    ⟨by decide +kernel, rfl, rfl⟩
  refine (options_heeded_iff hasks 0 bareWorld ?_).1.2 (.inr (.inl (by decide)))
  intro name hname _
  obtain rfl : "out" = name := Option.some.inj hname
  exact ⟨scratch, isFresh_bareWorld.accepts⟩

theorem asks_blank (dialect : Dialect) :
    Asks dialect ["--seed", "7", "--split", "-o", ""]
      { seed := .value 7, directory := some "", split := true } 7 1 where
  parse := by cases dialect <;> decide +kernel
  seed := rfl
  count := rfl

/-- A directory with an empty name hides that there is none for the separate files. -/
theorem not_options_heeded_blank :
    Settings.parse .early ["--seed", "7", "--split", "-o", ""] =
        .ok { seed := .value 7, directory := some "", split := true } ∧
      Settings.parse .late ["--seed", "7", "--split", "-o", ""] =
        .ok { seed := .value 7, directory := some "", split := true } ∧
      ¬Heeds { seed := .value 7, directory := some "", split := true } 7 1 bareWorld
        (bareWorld.finish (run ["--seed", "7", "--split", "-o", ""] 0 .early)) ∧
      ¬Heeds { seed := .value 7, directory := some "", split := true } 7 1 bareWorld
        (bareWorld.finish (run ["--seed", "7", "--split", "-o", ""] 0 .late)) := by
  have hignored (dialect : Dialect) :
      ¬Heeds { seed := .value 7, directory := some "", split := true } 7 1 bareWorld
        (bareWorld.finish (run ["--seed", "7", "--split", "-o", ""] 0 dialect)) := by
    intro hheeds
    have hshown := ((asks_blank dialect).heeds_shown_iff 0 (by decide) (by decide) (.inr rfl)
      (fun _ => by decide)).1 hheeds
    exact absurd hshown.1 (by decide)
  exact ⟨(asks_blank .early).parse, (asks_blank .late).parse, hignored .early, hignored .late⟩

end SoliditySynth.CommandLine
