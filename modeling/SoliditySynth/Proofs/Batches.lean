import SoliditySynth.CommandLine.Run
import SoliditySynth.Proofs.ProgramFiles

namespace SoliditySynth.CommandLine

namespace World

theorem performAll_append (world : World) (effects effects' : List Effect) :
    world.performAll (effects ++ effects') =
      match world.performAll effects with
      | (.ok (), world') => world'.performAll effects'
      | (.error failure, world') => (.error failure, world') := by
  induction effects generalizing world with
  | nil => rfl
  | cons effect effects ih =>
    rw [List.cons_append, performAll, performAll]
    split
    · exact ih _
    · rfl

/-- The exit code of a run and the world that it leaves. A run that fails on the way has the exit
code one. -/
def finish (world : World) (run : Run) : UInt32 × World :=
  match world.performAll run.effects with
  | (.ok (), world') => (run.exitCode, world')
  | (.error _, world') => (1, world')

end World

/-- From the given files and the given output the effects lead to others, and none of them fails.
What comes on the error stream is left open. -/
def Yields (effects : List Effect) (files : FileTree) (output : String) (files' : FileTree)
    (output' : String) : Prop :=
  ∀ errors, ∃ errors',
    (World.mk files output errors).performAll effects = (.ok (), ⟨files', output', errors'⟩)

section Yields

variable {effects effects' : List Effect} {files files' files'' : FileTree}
  {output output' output'' : String}

theorem Yields.append (h : Yields effects files output files' output')
    (h' : Yields effects' files' output' files'' output'') :
    Yields (effects ++ effects') files output files'' output'' := by
  intro errors
  obtain ⟨errors', hperform⟩ := h errors
  obtain ⟨errors'', hperform'⟩ := h' errors'
  refine ⟨errors'', ?_⟩
  rw [World.performAll_append, hperform]
  exact hperform'

theorem yields_nil (files : FileTree) (output : String) : Yields [] files output files output :=
  fun errors => ⟨errors, rfl⟩

theorem yields_print (text : String) (files : FileTree) (output : String) :
    Yields [.print text] files output files (output ++ text) :=
  fun errors => ⟨errors, rfl⟩

theorem yields_log (verbose : Bool) (entry : Log.Entry) (files : FileTree) (output : String) :
    Yields (Effect.log verbose entry) files output files output := by
  rw [Effect.log]
  split
  · intro errors
    exact ⟨_, rfl⟩
  · exact yields_nil files output

theorem yields_logs (verbose : Bool) (entries : List Log.Entry) (files : FileTree)
    (output : String) :
    Yields (entries.flatMap (Effect.log verbose)) files output files output := by
  induction entries with
  | nil => exact yields_nil files output
  | cons entry entries ih => exact (yields_log verbose entry files output).append ih

theorem yields_files {actions : List FileAction}
    (h : files.performAll actions = (.ok (), files')) (output : String) :
    Yields (actions.map .file) files output files' output := by
  induction actions generalizing files with
  | nil =>
    cases h
    exact yields_nil _ output
  | cons action actions ih =>
    rw [FileTree.performAll] at h
    split at h
    · next middle hfirst =>
      have hstep : Yields [.file action] files output middle output := by
        intro errors
        refine ⟨errors, ?_⟩
        rw [World.performAll, World.perform, hfirst]
        rfl
      exact hstep.append (ih h)
    · cases h

theorem Yields.finish {world : World}
    (h : Yields effects world.files world.output files' output') (exitCode : UInt32) :
    ∃ errors, world.finish ⟨effects, exitCode⟩ = (exitCode, ⟨files', output', errors⟩) := by
  obtain ⟨errors, hperform⟩ := h world.errors
  refine ⟨errors, ?_⟩
  rw [World.finish]
  change (match (World.mk world.files world.output world.errors).performAll effects with
    | (.ok (), world') => (exitCode, world')
    | (.error _, world') => (1, world')) = _
  rw [hperform]

end Yields

section Seeds

variable (first : Int)

theorem seedAt_nonneg (i : Nat) : 0 ≤ seedAt first i := Int.emod_nonneg _ (by decide)

theorem seedAt_lt (i : Nat) : seedAt first i < 2 ^ 64 := Int.emod_lt_of_pos _ (by decide)

theorem seedAt_add (i j : Nat) : seedAt first (i + j) = seedAt (seedAt first i) j := by
  rw [seedAt, seedAt, seedAt, Int.emod_add_emod, Int.natCast_add, Int.add_assoc]

theorem seedAt_inj {i j : Nat} (hi : i < 2 ^ 64) (hj : j < 2 ^ 64)
    (h : seedAt first i = seedAt first j) : i = j := by
  rw [seedAt, seedAt, Settings.seedCount] at h
  omega

def seeds (n : Nat) : List Int := (List.range n).map (seedAt first)

theorem seeds_add (a b : Nat) :
    seeds first (a + b) = seeds first a ++ seeds (seedAt first a) b := by
  rw [seeds, seeds, seeds, List.range_add, List.map_append, List.map_map]
  congr 1
  apply List.map_congr_left
  exact fun i _ => seedAt_add first a i

theorem nodup_seeds {n : Nat} (hn : n ≤ 2 ^ 64) : (seeds first n).Nodup := by
  apply List.Nodup.map_on _ List.nodup_range
  intro i hi j hj he
  rw [List.mem_range] at hi hj
  exact seedAt_inj first (by omega) (by omega) he

theorem range_of_mem_seeds {n : Nat} {seed : Int} (h : seed ∈ seeds first n) :
    0 ≤ seed ∧ seed < 2 ^ 64 := by
  obtain ⟨i, -, rfl⟩ := List.mem_map.1 h
  exact ⟨seedAt_nonneg first i, seedAt_lt first i⟩

end Seeds

/-- What is shown of a program on the output: in its own language, it comes under a comment with its
seed. -/
def shown (edition : Edition) (format : Format) (seed : Int) : String :=
  match format with
  | .solidity => s!"// seed={seed}\n" ++ edition.program
  | .standardJson => edition.json

section Emit

variable {settings : Settings} {seed : Int} {edition : Edition}

theorem yields_printProgram (he : edition.IsOf seed) (settings : Settings) (files : FileTree)
    (output : String) :
    Yields (settings.printProgram seed edition.program) files output files
      (output ++ shown edition settings.format seed) := by
  rw [Settings.printProgram, he.render]
  cases settings.format with
  | solidity =>
    rw [shown, ← String.append_assoc]
    exact (yields_print _ files output).append (yields_print _ files _)
  | standardJson => exact yields_print _ files output

/-- To emit a program is to log how it was made, and then to show it or to write it. -/
theorem exists_emit (he : edition.IsOf seed) (settings : Settings) :
    ∃ entries : List Log.Entry, settings.emit seed =
      entries.flatMap (Effect.log settings.verbose) ++
        match settings.target with
        | none => settings.printProgram seed edition.program
        | some directory => settings.writeProgram directory seed edition.program := by
  have hprogram := he.program
  rw [firstProgram] at hprogram
  rw [Settings.emit]
  cases hbench : Workbench.ofSeed seed .standard with
  | error fault =>
    rw [hbench] at hprogram
    cases hprogram
  | ok bench =>
    rw [hbench] at hprogram
    change (Synth.program.run bench).1 = _ at hprogram
    refine ⟨(Synth.program.run bench).2.log.toList, ?_⟩
    dsimp only
    rw [hprogram]
    cases settings.target <;> rfl

theorem yields_emit_shown (he : edition.IsOf seed)
    (htarget : settings.target = none) (files : FileTree) (output : String) :
    Yields (settings.emit seed) files output files
      (output ++ shown edition settings.format seed) := by
  obtain ⟨entries, hemit⟩ := exists_emit he settings
  rw [hemit, htarget]
  exact (yields_logs settings.verbose entries files output).append
    (yields_printProgram he settings files output)

theorem yields_emit_written (hseed : 0 ≤ seed) (hlt : seed < 2 ^ 64) (he : edition.IsOf seed)
    {directory : Path} {top : Location} (htarget : settings.target = some directory)
    {files : FileTree} (hreceives : files.Receives directory top) (output : String) :
    ∃ files', Yields (settings.emit seed) files output files' output ∧
      files'.Receives directory top ∧
      FileTree.Adds files files' (edition.files settings.layout top seed) := by
  obtain ⟨plan, files', hplan, hperform, hreceives', hadds⟩ :=
    hreceives.write_program hseed hlt he settings.layout
  obtain ⟨entries, hemit⟩ := exists_emit he settings
  refine ⟨files', ?_, hreceives', hadds⟩
  rw [hemit, htarget]
  apply (yields_logs settings.verbose entries files output).append
  dsimp only
  rw [Settings.writeProgram, hplan]
  exact (yields_files hperform output).append (yields_log _ _ files' output)

end Emit

section Batch

variable {first : Int → Edition} {settings : Settings}

def IsFirst (first : Int → Edition) : Prop :=
  ∀ seed, 0 ≤ seed → seed < 2 ^ 64 → (first seed).IsOf seed

theorem exists_isFirst : ∃ first, IsFirst first := by
  have hall (seed : Int) :
      ∃ edition : Edition, 0 ≤ seed → seed < 2 ^ 64 → edition.IsOf seed := by
    by_cases h : 0 ≤ seed ∧ seed < 2 ^ 64
    · obtain ⟨edition, he⟩ := exists_edition h.1 h.2
      exact ⟨edition, fun _ _ => he⟩
    · exact ⟨⟨"", "", .empty⟩, fun hseed hlt => absurd ⟨hseed, hlt⟩ h⟩
  obtain ⟨first, hfirst⟩ := Classical.axiomOfChoice hall
  exact ⟨first, hfirst⟩

theorem yields_batch_shown (hfirst : IsFirst first) (htarget : settings.target = none)
    {batch : List Int} (hbatch : ∀ seed ∈ batch, 0 ≤ seed ∧ seed < 2 ^ 64) (files : FileTree)
    (output : String) :
    Yields (batch.flatMap settings.emit) files output files
      (output ++
        String.join (batch.map fun seed => shown (first seed) settings.format seed)) := by
  induction batch generalizing output with
  | nil =>
    rw [List.map_nil, String.join_nil, String.append_empty]
    exact yields_nil files output
  | cons seed batch ih =>
    obtain ⟨⟨hseed, hlt⟩, hbatch⟩ := List.forall_mem_cons.1 hbatch
    rw [List.map_cons, String.join_cons, ← String.append_assoc]
    exact (yields_emit_shown (hfirst seed hseed hlt) htarget files output).append
      (ih hbatch _)

def batchFiles (first : Int → Edition) (layout : Layout) (top : Location) (batch : List Int) :
    List (Location × String) :=
  batch.flatMap fun seed => (first seed).files layout top seed

theorem content_eq_of_mem_files {layout : Layout} {top : Location}
    {seed seed' : Int} (hseed : 0 ≤ seed) (hseed' : 0 ≤ seed') {file file' : Location × String}
    (h : file ∈ (first seed).files layout top seed)
    (h' : file' ∈ (first seed').files layout top seed') (he : file.1 = file'.1) :
    file.2 = file'.2 := by
  obtain rfl := Edition.seed_eq_of_mem_files hseed hseed' h h' he
  rw [List.inj_on_of_nodup_map (Edition.nodup_files _ layout top seed) h h' he]

theorem nodup_batchFiles (first : Int → Edition) (layout : Layout) (top : Location)
    {batch : List Int} (hbatch : ∀ seed ∈ batch, 0 ≤ seed ∧ seed < 2 ^ 64) (hnodup : batch.Nodup) :
    ((batchFiles first layout top batch).map Prod.fst).Nodup := by
  rw [batchFiles, List.map_flatMap, List.nodup_flatMap]
  refine ⟨fun seed _ => Edition.nodup_files _ layout top seed, ?_⟩
  apply hnodup.pairwise_of_forall_ne
  intro seed hseed seed' hseed' hne location hlocation hlocation'
  obtain ⟨file, hfile, rfl⟩ := List.mem_map.1 hlocation
  obtain ⟨file', hfile', he⟩ := List.mem_map.1 hlocation'
  exact hne (Edition.seed_eq_of_mem_files (hbatch seed hseed).1 (hbatch seed' hseed').1 hfile
    hfile' he.symm)

theorem yields_batch_written (hfirst : IsFirst first) {directory : Path} {top : Location}
    (htarget : settings.target = some directory) {batch : List Int}
    (hbatch : ∀ seed ∈ batch, 0 ≤ seed ∧ seed < 2 ^ 64) {files : FileTree}
    (hreceives : files.Receives directory top) (output : String) :
    ∃ files', Yields (batch.flatMap settings.emit) files output files' output ∧
      FileTree.Adds files files' (batchFiles first settings.layout top batch) := by
  induction batch generalizing files with
  | nil => exact ⟨files, yields_nil files output, .refl files⟩
  | cons seed batch ih =>
    obtain ⟨⟨hseed, hlt⟩, hbatch⟩ := List.forall_mem_cons.1 hbatch
    obtain ⟨middle, hyields, hreceives', hadds⟩ :=
      yields_emit_written hseed hlt (hfirst seed hseed hlt) htarget hreceives output
    obtain ⟨files', hrest, hadds'⟩ := ih hbatch hreceives'
    refine ⟨files', hyields.append hrest, ?_⟩
    refine hadds.append hadds' fun file hfile file' hfile' he => ?_
    obtain ⟨seed', hseed', hfile'⟩ := List.mem_flatMap.1 hfile'
    exact content_eq_of_mem_files hseed (hbatch seed' hseed').1 hfile hfile' he

theorem fileAt?_of_mem_batchFiles {files made : FileTree} {directory : Path}
    (hfresh : files.IsFresh directory made) {layout : Layout} {batch : List Int}
    {file : Location × String}
    (hfile : file ∈ batchFiles first layout (files.place directory) batch) :
    files.fileAt? file.1 = none := by
  obtain ⟨seed, -, hfile⟩ := List.mem_flatMap.1 hfile
  obtain ⟨names, hplace⟩ := Edition.exists_of_mem_files hfile
  rw [← hfresh.accepts.sameFiles.fileAt?, hplace]
  exact FileTree.fileAt?_of_find? (hfresh.find?_below _ _)

end Batch

/-- The arguments ask for a number of programs from a seed on. -/
structure Asks (dialect : Dialect) (arguments : List String) (settings : Settings)
    (seed count : Int) : Prop where
  parse : Settings.parse dialect arguments = .ok settings
  seed : settings.seed = .value seed
  count : settings.count = .value count

section Run

variable {dialect : Dialect} {arguments : List String} {settings : Settings} {seed count : Int}

/-- What is asked for is done, if the seed has 64 bits and there is a directory for separate
files. -/
theorem Asks.run_eq (h : Asks dialect arguments settings seed count) (hseed : 0 ≤ seed)
    (hlt : seed < 2 ^ 64) (hsplit : settings.split = true → settings.directory ≠ none)
    (spare : Int) :
    run arguments spare dialect =
      ⟨settings.prepare ++ (seeds seed count.toNat).flatMap settings.emit, 0⟩ := by
  have hcheck : settings.checkSplit = .ok settings := by
    rw [Settings.checkSplit, if_neg]
    simpa using hsplit
  have hrange : (decide (seed < 0) || decide (Settings.seedCount ≤ seed)) = false := by
    rw [Settings.seedCount, Bool.or_eq_false_iff, decide_eq_false_iff_not,
      decide_eq_false_iff_not]
    omega
  have haccepted : Settings.ofArguments dialect arguments = .ok settings := by
    rw [Settings.ofArguments, h.parse]
    change settings.check = _
    rw [Settings.check, h.seed]
    dsimp only
    rw [hrange]
    exact hcheck
  rw [run, haccepted]
  dsimp only
  rw [Settings.effects, h.count, Settings.firstSeed, h.seed, seeds, List.flatMap_map]

theorem directory_ne_none {directory : Path} (h : settings.target = some directory) :
    settings.directory ≠ none := by
  intro hnone
  rw [Settings.target, hnone] at h
  cases h

theorem Asks.finish_shown (h : Asks dialect arguments settings seed count) (hseed : 0 ≤ seed)
    (hlt : seed < 2 ^ 64) (hsplit : settings.split = true → settings.directory ≠ none)
    (htarget : settings.target = none) {first : Int → Edition} (hfirst : IsFirst first)
    (spare : Int) (world : World) :
    ∃ errors, world.finish (run arguments spare dialect) = (0, ⟨world.files, world.output ++
      String.join ((seeds seed count.toNat).map fun seed =>
        shown (first seed) settings.format seed), errors⟩) := by
  have hbatch (s : Int) (hmem : s ∈ seeds seed count.toNat) := range_of_mem_seeds seed hmem
  have hyields := yields_batch_shown hfirst htarget hbatch world.files world.output
  rw [h.run_eq hseed hlt hsplit spare, Settings.prepare, htarget, List.nil_append]
  exact hyields.finish 0

theorem Asks.finish_written (h : Asks dialect arguments settings seed count) (hseed : 0 ≤ seed)
    (hlt : seed < 2 ^ 64) {directory : Path} (htarget : settings.target = some directory)
    {first : Int → Edition} (hfirst : IsFirst first) (spare : Int) {world : World}
    {made : FileTree} (haccepts : world.files.Accepts directory made) :
    ∃ files errors,
      world.finish (run arguments spare dialect) = (0, ⟨files, world.output, errors⟩) ∧
      FileTree.Adds world.files files (batchFiles first settings.layout
        (world.files.place directory) (seeds seed count.toNat)) := by
  have hbatch (s : Int) (hmem : s ∈ seeds seed count.toNat) := range_of_mem_seeds seed hmem
  obtain ⟨files, hyields, hadds⟩ :=
    yields_batch_written hfirst htarget hbatch haccepts.receives world.output
  have hperform : world.files.performAll [.makeDirectories directory] = (.ok (), made) := by
    rw [FileTree.performAll, FileTree.perform, haccepts.makes]
    rfl
  have hprepare : settings.prepare = [FileAction.makeDirectories directory].map .file := by
    rw [Settings.prepare, htarget]
    rfl
  rw [h.run_eq hseed hlt (fun _ => directory_ne_none htarget) spare, hprepare]
  obtain ⟨errors, hfinish⟩ := ((yields_files hperform world.output).append hyields).finish 0
  exact ⟨files, errors, hfinish, hadds.of_sameFiles haccepts.sameFiles⟩

end Run

def batchText (first : Int → Edition) (seed : Int) (n : Nat) : String :=
  String.join <| (List.range n).map fun i =>
    s!"// seed={seedAt seed i}\n" ++ (first (seedAt seed i)).program

theorem batchText_eq (first : Int → Edition) (seed : Int) (n : Nat) :
    batchText first seed n =
      String.join ((seeds seed n).map fun seed => shown (first seed) .solidity seed) := by
  rw [batchText, seeds, List.map_map]
  rfl

/-- In a fresh directory the programs of a batch have files of their own, unless seeds come twice. -/
theorem Asks.contents_perm {dialect : Dialect} {arguments : List String} {settings : Settings}
    {seed : Int} {n : Nat} (h : Asks dialect arguments settings seed n) (hseed : 0 ≤ seed)
    (hlt : seed < 2 ^ 64) (hn : n ≤ 2 ^ 64) {directory : Path}
    (htarget : settings.target = some directory) {first : Int → Edition} (hfirst : IsFirst first)
    (spare : Int) {world : World} {made : FileTree}
    (hfresh : world.files.IsFresh directory made) :
    let added := batchFiles first settings.layout (world.files.place directory) (seeds seed n)
    ∃ files errors,
      world.finish (run arguments spare dialect) = (0, ⟨files, world.output, errors⟩) ∧
      files.contents.Perm (world.files.contents ++ added) ∧ (added.map Prod.fst).Nodup := by
  intro added
  obtain ⟨files, errors, hfinish, hadds⟩ :=
    h.finish_written hseed hlt htarget hfirst spare hfresh.accepts
  have hnodup := nodup_batchFiles first settings.layout (world.files.place directory)
    (fun _ hmem => range_of_mem_seeds seed hmem) (nodup_seeds seed hn)
  exact ⟨files, errors, hfinish,
    hadds.contents_perm hnodup fun file => fileAt?_of_mem_batchFiles hfresh, hnodup⟩

theorem length_batchFiles_single (first : Int → Edition) (format : Format) (top : Location)
    (batch : List Int) : (batchFiles first (.single format) top batch).length = batch.length := by
  induction batch with
  | nil => rfl
  | cons seed batch ih =>
    rw [batchFiles, List.flatMap_cons, List.length_append, List.length_cons]
    exact (Nat.add_comm _ _).trans (congrArg (· + 1) ih)

/-- Batches compose: every program that is shown or written is the first one of its own seed, and
the seeds go up by one, around from the largest to zero. Without a directory the programs are shown
one after the other, so a batch is one batch followed by another. In a fresh directory each program
has files of its own, and these are all that is added. -/
theorem batches_compose :
    ∃ first : Int → Edition,
      (∀ seed, 0 ≤ seed → seed < 2 ^ 64 → (first seed).IsOf seed) ∧
      (∀ (seed : Int) (i : Nat), seedAt seed i = (seed + i) % 2 ^ 64) ∧
      (∀ seed a b, batchText first seed (a + b) =
        batchText first seed a ++ batchText first (seedAt seed a) b) ∧
      ∀ (dialect : Dialect) (arguments : List String) (settings : Settings) (seed : Int) (n : Nat)
        (spare : Int) (world : World), 0 ≤ seed → seed < 2 ^ 64 →
        Asks dialect arguments settings seed n →
        (settings.directory = none → settings.split = false → settings.json = false →
          ∃ errors, world.finish (run arguments spare dialect) =
            (0, ⟨world.files, world.output ++ batchText first seed n, errors⟩)) ∧
        ∀ (name : String) (made : FileTree), settings.directory = some name → name ≠ "" →
          n ≤ 2 ^ 64 → world.files.IsFresh (Path.ofText name) made →
          let layout := if settings.split then Layout.perUnit
            else .single (if settings.json then .standardJson else .solidity)
          let added := (List.range n).flatMap fun i =>
            (first (seedAt seed i)).files layout (world.files.place (Path.ofText name))
              (seedAt seed i)
          ∃ files errors,
            world.finish (run arguments spare dialect) = (0, ⟨files, world.output, errors⟩) ∧
            files.contents.Perm (world.files.contents ++ added) ∧
            (added.map Prod.fst).Nodup ∧ (settings.split = false → added.length = n) := by
  obtain ⟨first, hfirst⟩ := exists_isFirst
  refine ⟨first, hfirst, fun _ _ => rfl, fun seed a b => ?_, ?_⟩
  · rw [batchText_eq, batchText_eq, batchText_eq, seeds_add, List.map_append, String.join_append]
  intro dialect arguments settings seed n spare world hseed hlt hasks
  constructor
  case left =>
    intro hdirectory hsplit hjson
    have htarget : settings.target = none := by rw [Settings.target, hdirectory]
    have hformat : settings.format = .solidity := by rw [Settings.format, hjson]; rfl
    have hfinish := hasks.finish_shown hseed hlt (by simp [hsplit]) htarget hfirst spare world
    rwa [hformat, Int.toNat_natCast, ← batchText_eq] at hfinish
  case right =>
    intro name made hname hne hn hfresh layout added
    have htarget : settings.target = some (Path.ofText name) := by
      rw [Settings.target, hname]
      exact if_neg hne
    have hadded : added = batchFiles first settings.layout (world.files.place (Path.ofText name))
        (seeds seed n) := by
      rw [batchFiles, seeds, List.flatMap_map]
      rfl
    obtain ⟨files, errors, hfinish, hfiles, hnodup⟩ :=
      hasks.contents_perm hseed hlt hn htarget hfirst spare hfresh
    rw [hadded]
    refine ⟨files, errors, hfinish, hfiles, hnodup, fun hsplit => ?_⟩
    have hlayout : settings.layout = .single settings.format := by
      rw [Settings.layout, hsplit]
      rfl
    rw [hlayout, length_batchFiles_single, seeds, List.length_map, List.length_range]

def bareWorld : World := ⟨.ofHome ["scratch"], "", ""⟩

theorem isFresh_bareWorld : bareWorld.files.IsFresh (Path.ofText "out") scratch where
  makes := rfl
  empty := by
    have hplace : bareWorld.files.place (Path.ofText "out") = ["scratch", "out"] := by
      decide +kernel
    have hkeys : ∀ location ∈ scratch.nodes.keys,
        ["scratch", "out"] <+: location → location = ["scratch", "out"] := by
      decide +kernel
    rw [hplace]
    intro location
    exact FileTree.find?_eq_none_of_keys hkeys
  room := by decide +kernel

theorem batches_compose_around :
    ∃ first : Int → Edition,
      (first 18446744073709551615).IsOf 18446744073709551615 ∧ (first 0).IsOf 0 ∧
      (∃ errors,
        bareWorld.finish (run ["--seed", "18446744073709551615", "-n", "2"] 0) =
          (0, ⟨bareWorld.files, "// seed=18446744073709551615\n" ++
            (first 18446744073709551615).program ++ "// seed=0\n" ++ (first 0).program,
            errors⟩)) ∧
      ∃ files errors,
        bareWorld.finish (run ["--seed", "18446744073709551615", "-n", "2", "-o", "out", "--json"] 0) =
          (0, ⟨files, "", errors⟩) ∧
        files.contents.Perm
          [(["scratch", "out", "seed_18446744073709551615.json"], (first 18446744073709551615).json),
            (["scratch", "out", "seed_0.json"], (first 0).json)] := by
  obtain ⟨first, hfirst, -, -, hruns⟩ := batches_compose
  have hseeds : seedAt 18446744073709551615 0 = 18446744073709551615 ∧
      seedAt 18446744073709551615 1 = 0 := by
    decide
  refine ⟨first, hfirst _ (by decide) (by decide), hfirst 0 (by decide) (by decide), ?_, ?_⟩
  · have hasks : Asks .early ["--seed", "18446744073709551615", "-n", "2"]
        { seed := .value 18446744073709551615, count := .value 2 } 18446744073709551615
        (2 : Nat) := ⟨by decide +kernel, rfl, rfl⟩
    obtain ⟨hshown, -⟩ := hruns _ _ _ _ _ 0 bareWorld (by decide) (by decide) hasks
    obtain ⟨errors, hfinish⟩ := hshown rfl rfl rfl
    have htext : bareWorld.output ++ batchText first 18446744073709551615 2 =
        "// seed=18446744073709551615\n" ++ (first 18446744073709551615).program ++
          "// seed=0\n" ++ (first 0).program := by
      change "" ++ String.join [s!"// seed={seedAt 18446744073709551615 0}\n" ++ _,
        s!"// seed={seedAt 18446744073709551615 1}\n" ++ _] = _
      rw [hseeds.1, hseeds.2, String.empty_append, String.join_cons, String.join_cons,
        String.join_nil, String.append_empty, ← String.append_assoc]
      rfl
    rw [htext] at hfinish
    exact ⟨errors, hfinish⟩
  · have hasks : Asks .early ["--seed", "18446744073709551615", "-n", "2", "-o", "out", "--json"]
        { seed := .value 18446744073709551615, count := .value 2, directory := some "out",
          json := true } 18446744073709551615 (2 : Nat) := ⟨by decide +kernel, rfl, rfl⟩
    obtain ⟨-, hwritten⟩ := hruns _ _ _ _ _ 0 bareWorld (by decide) (by decide) hasks
    obtain ⟨files, errors, hfinish, hfiles, -⟩ :=
      hwritten "out" scratch rfl (by decide) (by decide) isFresh_bareWorld
    refine ⟨files, errors, hfinish, ?_⟩
    have hempty : bareWorld.files.contents = [] := by decide +kernel
    have hplace : bareWorld.files.place (Path.ofText "out") = ["scratch", "out"] := by
      decide +kernel
    rw [hempty, hplace, List.nil_append] at hfiles
    change files.contents.Perm [(["scratch", "out", s!"seed_{seedAt 18446744073709551615 0}.json"],
      (first (seedAt 18446744073709551615 0)).json),
      (["scratch", "out", s!"seed_{seedAt 18446744073709551615 1}.json"],
      (first (seedAt 18446744073709551615 1)).json)] at hfiles
    rw [hseeds.1, hseeds.2] at hfiles
    exact hfiles

end SoliditySynth.CommandLine
