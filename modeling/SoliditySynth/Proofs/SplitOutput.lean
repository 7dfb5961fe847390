import Mathlib.Data.List.Perm.Subperm
import SoliditySynth.Config
import SoliditySynth.Proofs.FileWriting

namespace SoliditySynth

namespace Path

theorem ofText_of_notMem {s : String} (hslash : '/' ∉ s.toList) (hempty : s ≠ "") (hdot : s ≠ ".") :
    ofText s = ⟨.relative, [s]⟩ := by
  have hstart : s.toList.takeWhile (· == '/') = [] := by
    cases hchars : s.toList with
    | nil => rfl
    | cons c cs =>
      rw [hchars, List.mem_cons, not_or] at hslash
      exact List.takeWhile_cons_of_neg (by simpa using Ne.symm hslash.1)
  have hanchor : anchorOf s.toList = .relative := by
    rw [anchorOf, hstart]
    rfl
  have hsegments : segmentsOf s = [s] := by
    simp [segmentsOf, Text.fields_of_notMem hslash, hempty, hdot]
  rw [ofText, hanchor, hsegments]

end Path

namespace FileTree

variable {tree : FileTree}

def contents (tree : FileTree) : List (Location × String) :=
  tree.nodes.keys.filterMap fun location => (tree.fileAt? location).map (location, ·)

theorem mem_contents {location : Location} {content : String} :
    (location, content) ∈ tree.contents ↔ tree.fileAt? location = some content := by
  rw [contents, List.mem_filterMap]
  constructor
  · rintro ⟨location', -, hfile⟩
    obtain ⟨content', hcontent, he⟩ := Option.map_eq_some_iff.1 hfile
    cases he
    exact hcontent
  · intro hfile
    refine ⟨location, ?_, by rw [hfile]; rfl⟩
    have hnode := hfile
    rw [fileAt?] at hnode
    split at hnode
    · next hfind => exact OrderedMap.mem_keys_of_find? hfind
    · cases hnode

theorem mem_places_iff {location : Location} :
    location ∈ tree.contents.map Prod.fst ↔ tree.fileAt? location ≠ none := by
  rw [Option.ne_none_iff_exists', List.mem_map]
  constructor
  · rintro ⟨⟨_, content⟩, hmem, rfl⟩
    exact ⟨content, mem_contents.1 hmem⟩
  · rintro ⟨content, hfile⟩
    exact ⟨_, mem_contents.2 hfile, rfl⟩

theorem fileAt?_of_contents (h : tree.contents = []) (location : Location) :
    tree.fileAt? location = none := by
  rw [Option.eq_none_iff_forall_ne_some]
  intro content hfile
  have hmem := mem_contents.2 hfile
  rw [h] at hmem
  cases hmem

theorem nodup_places (tree : FileTree) : (tree.contents.map Prod.fst).Nodup := by
  refine List.pairwise_map.2 (List.Pairwise.filterMap _ ?_ tree.nodes.nodup_keys)
  intro location location' hne file hfile file' hfile'
  obtain ⟨_, -, rfl⟩ := Option.map_eq_some_iff.1 hfile
  obtain ⟨_, -, rfl⟩ := Option.map_eq_some_iff.1 hfile'
  exact hne

theorem place_join (tree : FileTree) (directory : Path) {path : Path}
    (h : path.anchor = .relative) :
    tree.place (directory.join path) = walk (tree.place directory) path.segments := by
  have hjoin : directory.join path = ⟨directory.anchor, directory.segments ++ path.segments⟩ := by
    rw [Path.join, h]
  rw [place, hjoin, walk_append]
  rfl

theorem place_seed (tree : FileTree) (directory : Path) (seed : Int) :
    tree.place (directory.join (Path.ofText s!"seed_{seed}")) =
      tree.place directory ++ [s!"seed_{seed}"] := by
  have hchars : (s!"seed_{seed}").toList = "seed_".toList ++ (toString seed).toList :=
    String.toList_append
  have hslash : '/' ∉ (s!"seed_{seed}").toList := by
    rw [hchars, List.mem_append, not_or]
    exact ⟨by decide, Config.notMem_toString (by decide) (by decide) seed⟩
  have hne (s : String) (h : s.toList.head? ≠ some 's') : s!"seed_{seed}" ≠ s := by
    rintro rfl
    rw [hchars] at h
    exact h rfl
  have hsegments := Path.ofText_of_notMem hslash (hne "" (by decide)) (hne "." (by decide))
  rw [hsegments, place_join tree directory rfl, walk, List.foldl_cons, List.foldl_nil, step,
    if_neg (hne ".." (by decide))]

section LastAt

variable {place : String → Location} {units : List (String × String)} {location : Location}

theorem lastAt_eq_none_iff :
    lastAt place location units = none ↔ location ∉ units.map fun unit => place unit.1 := by
  induction units with
  | nil => simp [lastAt]
  | cons unit units ih =>
    rw [lastAt, Option.or_eq_none_iff, ih, List.map_cons, List.mem_cons, not_or, and_comm]
    by_cases hplace : place unit.1 = location
    · simp [hplace]
    · simp [hplace, Ne.symm hplace]

theorem lastAt_of_nodup (h : (units.map fun unit => place unit.1).Nodup) {unit : String × String}
    (hmem : unit ∈ units) : lastAt place (place unit.1) units = some unit.2 := by
  induction units with
  | nil => cases hmem
  | cons first units ih =>
    rw [List.map_cons, List.nodup_cons] at h
    rw [lastAt]
    rcases List.mem_cons.1 hmem with rfl | hlater
    · rw [lastAt_eq_none_iff.2 h.1, if_pos rfl, Option.none_or]
    · rw [ih h.2 hlater, Option.some_or]

end LastAt

/-- Every file is below the directory, there are as many as there are units, and each unit has a
file of its own. -/
structure KeepsUnits (tree : FileTree) (directory : Location) (units : List (String × String)) :
    Prop where
  below {location : Location} {content : String} (h : (location, content) ∈ tree.contents) :
    directory <+: location ∧ location ≠ directory
  count : tree.contents.length = units.length
  own : ∃ place : String → Location, (units.map fun unit => place unit.1).Nodup ∧
    ∀ unit ∈ units, (place unit.1, unit.2) ∈ tree.contents

/-- A tree whose files are the last units at their places keeps all units just if these places are
distinct and below the directory. -/
theorem keepsUnits_iff_of_lastAt {directory : Location} {units : List (String × String)}
    {place : String → Location}
    (hfiles : ∀ location, tree.fileAt? location = lastAt place location units) :
    tree.KeepsUnits directory units ↔ (units.map fun unit => place unit.1).Nodup ∧
      ∀ unit ∈ units, directory <+: place unit.1 ∧ place unit.1 ≠ directory := by
  have hplaces {location : Location} : location ∈ tree.contents.map Prod.fst ↔
      location ∈ units.map fun unit => place unit.1 := by
    rw [mem_places_iff, hfiles, ne_eq, lastAt_eq_none_iff, Classical.not_not]
  constructor
  · intro hkeeps
    constructor
    · -- there are as many places as units, so no place is the place of two units
      have hsubperm := List.subperm_of_subset tree.nodup_places fun _ hmem => hplaces.1 hmem
      have hlength : (units.map fun unit => place unit.1).length ≤
          (tree.contents.map Prod.fst).length := by
        rw [List.length_map, List.length_map]
        exact Nat.le_of_eq hkeeps.count.symm
      exact (hsubperm.perm_of_length_le hlength).nodup_iff.1 tree.nodup_places
    · intro unit hunit
      obtain ⟨file, hfile, he⟩ := List.mem_map.1 (hplaces.2 (List.mem_map_of_mem hunit))
      exact he ▸ hkeeps.below hfile
  · rintro ⟨hnodup, hbelow⟩
    constructor
    case below =>
      intro location content hfile
      obtain ⟨unit, hunit, rfl⟩ := List.mem_map.1 (hplaces.1 (List.mem_map_of_mem hfile))
      exact hbelow unit hunit
    case count =>
      have hperm := (List.perm_ext_iff_of_nodup tree.nodup_places hnodup).2 fun _ => hplaces
      rw [← List.length_map Prod.fst, hperm.length_eq, List.length_map]
    case own =>
      refine ⟨place, hnodup, fun unit hunit => ?_⟩
      rw [mem_contents, hfiles]
      exact lastAt_of_nodup hnodup hunit

end FileTree

theorem writeProgram_perUnit_eq_ok {tree tree' : FileTree} {directory target : Path} {seed : Int}
    {program : String} {bundle : Bundle} (hbundle : Bundle.ofProgram program = .ok bundle)
    (h : tree.writeProgram .perUnit directory seed program = (.ok target, tree')) :
    target = directory.join (Path.ofText s!"seed_{seed}") ∧
      tree.performAll (bundle.entries.flatMap (Plan.unitActions target)) = (.ok (), tree') := by
  rw [FileTree.writeProgram, Plan.ofProgram, hbundle] at h
  dsimp only [bind, Except.bind, pure, Except.pure] at h
  split at h
  · next hperform =>
    cases h
    exact ⟨rfl, hperform⟩
  · cases h

/-- A program that is written unit by unit into a tree without files keeps all its units just if
their paths lead to different places, all of them below the directory of the program. -/
theorem splitOutput_kept_iff {tree tree' : FileTree} (hempty : tree.contents = [])
    {directory target : Path} {seed : Int} {program : String} {bundle : Bundle}
    (hbundle : Bundle.ofProgram program = .ok bundle)
    (hrelative : ∀ path ∈ bundle.keys, (Path.ofText path).anchor = .relative)
    (hwrite : tree.writeProgram .perUnit directory seed program = (.ok target, tree')) :
    let top := tree.place directory ++ [s!"seed_{seed}"]
    let place (path : String) := FileTree.walk top (Path.ofText path).segments
    tree'.KeepsUnits top bundle.entries ↔
      (bundle.keys.map place).Nodup ∧
        ∀ path ∈ bundle.keys, top <+: place path ∧ place path ≠ top := by
  intro top place
  obtain ⟨htarget, hperform⟩ := writeProgram_perUnit_eq_ok hbundle hwrite
  have hplace (unit : String × String) (hunit : unit ∈ bundle.entries) :
      tree.unitPlace target unit.1 = place unit.1 := by
    rw [FileTree.unitPlace, FileTree.place_join _ _ (hrelative _ (List.mem_map_of_mem hunit)),
      htarget, FileTree.place_seed]
  have hfiles (location : Location) :
      tree'.fileAt? location = FileTree.lastAt (tree.unitPlace target) location bundle.entries := by
    rw [FileTree.performAll_units hperform location, tree.fileAt?_of_contents hempty,
      Option.or_none]
  rw [FileTree.keepsUnits_iff_of_lastAt hfiles, List.map_congr_left hplace, OrderedMap.keys,
    List.map_map]
  refine and_congr Iff.rfl ⟨fun hbelow path hpath => ?_, fun hbelow unit hunit => ?_⟩
  · obtain ⟨unit, hunit, rfl⟩ := List.mem_map.1 hpath
    rw [← hplace unit hunit]
    exact hbelow unit hunit
  · rw [hplace unit hunit]
    exact hbelow unit.1 (List.mem_map_of_mem hunit)

def scratch : FileTree :=
  ((FileTree.ofHome ["scratch"]).makeDirectories (Path.ofText "out")).2

def splitInScratch (program : String) : Except Failure Path × FileTree :=
  scratch.writeProgram .perUnit (Path.ofText "out") 7 program

def nestedPaths : String := "==== Source: lib/a.sol ====\nA\n==== Source: lib/../a.sol ====\nB\n"

def aliasedPaths : String :=
  "==== Source: ../a.sol ====\nA\n==== Source: b.sol ====\nB\n==== Source: ./b.sol ====\nC\n"

theorem splitOutput_kept_nested :
    (splitInScratch nestedPaths).1 = .ok (Path.ofText "out/seed_7") ∧
      (splitInScratch nestedPaths).2.KeepsUnits ["scratch", "out", "seed_7"]
        [("lib/a.sol", "A\n"), ("lib/../a.sol", "B\n")] := by
  let bundle : Bundle := ⟨[("lib/a.sol", "A\n"), ("lib/../a.sol", "B\n")], by decide +kernel⟩
  have hempty : scratch.contents = [] := by decide +kernel
  obtain ⟨hbundle, hrelative, htarget⟩ : Bundle.ofProgram nestedPaths = .ok bundle ∧
      (∀ path ∈ bundle.keys, (Path.ofText path).anchor = .relative) ∧
      (splitInScratch nestedPaths).1 = .ok (Path.ofText "out/seed_7") := by
    decide +kernel
  have hwrite : splitInScratch nestedPaths =
      (.ok (Path.ofText "out/seed_7"), (splitInScratch nestedPaths).2) := by
    rw [← htarget]
  have htop : scratch.place (Path.ofText "out") ++ [s!"seed_{(7 : Int)}"] =
      ["scratch", "out", "seed_7"] := by
    decide +kernel
  have hkept := splitOutput_kept_iff hempty hbundle hrelative hwrite
  rw [htop] at hkept
  exact ⟨htarget, hkept.2 (by decide +kernel)⟩

theorem not_splitOutput_kept_aliased :
    ∃ bundle, Bundle.ofProgram aliasedPaths = .ok bundle ∧
      (∀ path ∈ bundle.keys, (Path.ofText path).anchor = .relative) ∧
      (splitInScratch aliasedPaths).1 = .ok (Path.ofText "out/seed_7") ∧
      ¬(splitInScratch aliasedPaths).2.KeepsUnits ["scratch", "out", "seed_7"] bundle.entries := by
  let bundle : Bundle :=
    ⟨[("../a.sol", "A\n"), ("b.sol", "B\n"), ("./b.sol", "C\n")], by decide +kernel⟩
  obtain ⟨hbundle, hrelative, htarget, hcontents⟩ : Bundle.ofProgram aliasedPaths = .ok bundle ∧
      (∀ path ∈ bundle.keys, (Path.ofText path).anchor = .relative) ∧
      (splitInScratch aliasedPaths).1 = .ok (Path.ofText "out/seed_7") ∧
      (splitInScratch aliasedPaths).2.contents = [(["scratch", "out", "a.sol"], "A\n"),
        (["scratch", "out", "seed_7", "b.sol"], "C\n")] := by
    decide +kernel
  refine ⟨bundle, hbundle, hrelative, htarget, ?_⟩
  intro hkeeps
  have hfile : (["scratch", "out", "a.sol"], "A\n") ∈ (splitInScratch aliasedPaths).2.contents := by
    rw [hcontents]
    exact List.mem_cons_self
  exact absurd (hkeeps.below hfile).1 (by decide)

end SoliditySynth
