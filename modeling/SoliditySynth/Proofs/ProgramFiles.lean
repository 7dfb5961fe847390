import SoliditySynth.Proofs.Completion
import SoliditySynth.Proofs.OutputNames

namespace SoliditySynth

def Layout.extension : Layout → String
  | .single format => format.extension
  | .perUnit => ""

namespace Edition

def text (edition : Edition) : Format → String
  | .solidity => edition.program
  | .standardJson => edition.json

/-- Where the files of a program with a seed are below a place, and what they hold. -/
def files (edition : Edition) (layout : Layout) (top : Location) (seed : Int) :
    List (Location × String) :=
  match layout with
  | .single format => [(top ++ [s!"seed_{seed}{format.extension}"], edition.text format)]
  | .perUnit => edition.units.entries.map fun (path, content) =>
      (top ++ [s!"seed_{seed}", path], content)

variable {edition : Edition} {seed : Int}

theorem IsOf.render (h : edition.IsOf seed) (format : Format) :
    format.render edition.program = .ok (edition.text format) := by
  cases format with
  | solidity => rfl
  | standardJson => exact h.json

theorem IsOf.exists_number (h : edition.IsOf seed) {unit : String × String}
    (hunit : unit ∈ edition.units.entries) :
    ∃ number < 10, unit.1 = Config.standard.unitPath number := by
  obtain ⟨n, hn, hkeys⟩ := h.paths
  have hmem : unit.1 ∈ edition.units.keys := List.mem_map_of_mem hunit
  rw [hkeys] at hmem
  obtain ⟨number, hnumber, hpath⟩ := UnitPlan.mem_earlierPaths.1 hmem
  exact ⟨number, by omega, hpath⟩

theorem nodup_files (edition : Edition) (layout : Layout) (top : Location) (seed : Int) :
    ((edition.files layout top seed).map Prod.fst).Nodup := by
  cases layout with
  | single format => exact List.nodup_singleton _
  | perUnit =>
    have hfst : (edition.files .perUnit top seed).map Prod.fst =
        edition.units.keys.map fun path => top ++ [s!"seed_{seed}", path] := by
      rw [files, OrderedMap.keys, List.map_map, List.map_map]
      rfl
    rw [hfst]
    apply List.Nodup.map _ edition.units.nodup_keys
    intro path path' he
    simpa using he

theorem exists_of_mem_files {layout : Layout} {top : Location} {file : Location × String}
    (h : file ∈ edition.files layout top seed) :
    ∃ names, file.1 = top ++ seedName seed layout.extension :: names := by
  cases layout with
  | single format =>
    rw [files, List.mem_singleton] at h
    rw [h]
    exact ⟨[], rfl⟩
  | perUnit =>
    obtain ⟨unit, -, rfl⟩ := List.mem_map.1 h
    exact ⟨[unit.1], by rw [Layout.extension, seedName_empty]⟩

/-- Files of programs with different seeds are at different places. -/
theorem seed_eq_of_mem_files {edition' : Edition} {seed' : Int} (h : 0 ≤ seed) (h' : 0 ≤ seed')
    {layout : Layout} {top : Location} {file file' : Location × String}
    (hfile : file ∈ edition.files layout top seed)
    (hfile' : file' ∈ edition'.files layout top seed') (he : file.1 = file'.1) : seed = seed' := by
  obtain ⟨names, hplace⟩ := exists_of_mem_files hfile
  obtain ⟨names', hplace'⟩ := exists_of_mem_files hfile'
  rw [hplace, hplace', List.append_cancel_left_eq, List.cons.injEq] at he
  exact seedName_inj h h' he.1

end Edition

namespace FileTree

variable {tree tree' tree'' : FileTree} {directory : Path} {top : Location} {seed : Int}

/-- Nothing below the place is in the way of a program: where it has a file there is no directory,
and where it has a directory there is no file. -/
structure Free (tree : FileTree) (top : Location) : Prop where
  file (seed : Int) (format : Format) :
    tree.find? (top ++ [s!"seed_{seed}{format.extension}"]) ≠ some .directory
  folder (seed : Int) (content : String) :
    tree.find? (top ++ [s!"seed_{seed}"]) ≠ some (.file content)
  unit (seed : Int) (number : Nat) :
    tree.find? (top ++ [s!"seed_{seed}", Config.standard.unitPath number]) ≠ some .directory

/-- The number of bytes that the longest path of a file of a program has after that of the
directory. -/
def fileRoom : Nat := 34

structure Receives (tree : FileTree) (directory : Path) (top : Location) : Prop where
  reached : tree.Reaches directory top
  check : checkPath directory = .ok ()
  room : directory.text.utf8ByteSize + fileRoom ≤ pathLimit
  free : tree.Free top

/-- The directory can be made, nothing in it is in the way of a program then, and there is room for
the names of files. -/
structure Accepts (tree : FileTree) (directory : Path) (made : FileTree) : Prop where
  makes : tree.makeDirectories directory = (.ok (), made)
  free : made.Free (tree.place directory)
  room : directory.text.utf8ByteSize + fileRoom ≤ pathLimit

theorem Accepts.receives {made : FileTree} (h : tree.Accepts directory made) :
    made.Receives directory (tree.place directory) :=
  ⟨reaches_of_makeDirectories h.makes, checkPath_of_makeDirectories h.makes, h.room, h.free⟩

theorem Accepts.sameFiles {made : FileTree} (h : tree.Accepts directory made) :
    SameFiles tree made := by
  have hsame := tree.sameFiles_makeDirectories directory
  rwa [h.makes] at hsame

/-- The directory can be made, there is nothing in it then, and there is room for the names of
files. -/
structure IsFresh (tree : FileTree) (directory : Path) (made : FileTree) : Prop where
  makes : tree.makeDirectories directory = (.ok (), made)
  empty {location : Location} (h : tree.place directory <+: location)
    (hne : location ≠ tree.place directory) : made.find? location = none
  room : directory.text.utf8ByteSize + fileRoom ≤ pathLimit

theorem IsFresh.find?_below {made : FileTree} (h : tree.IsFresh directory made) (name : String)
    (names : List String) : made.find? (tree.place directory ++ name :: names) = none :=
  h.empty (List.prefix_append _ _) (by simp)

theorem IsFresh.accepts {made : FileTree} (h : tree.IsFresh directory made) :
    tree.Accepts directory made where
  makes := h.makes
  room := h.room
  free :=
    { file := fun seed format => by
        rw [h.find?_below]
        exact fun he => nomatch he
      folder := fun seed content => by
        rw [h.find?_below]
        exact fun he => nomatch he
      unit := fun seed number => by
        rw [h.find?_below]
        exact fun he => nomatch he }

theorem Free.file_ne (h : tree.Free top) (seed : Int) (format : Format) :
    tree.find? (top ++ [seedName seed format.extension]) ≠ some .directory :=
  h.file seed format

theorem Free.folder_ne (h : tree.Free top) (seed : Int) (content : String) :
    tree.find? (top ++ [seedName seed ""]) ≠ some (.file content) := by
  rw [seedName_empty]
  exact h.folder seed content

section Changes

variable {content : String} (h : tree.Free top)
include h

theorem Free.of_file {extension : String} (hdot : '.' ∈ extension.toList)
    (hc : Changes tree tree' (top ++ [seedName seed extension]) (.file content)) :
    tree'.Free top where
  file seed' format := by
    rw [hc.find?]
    split
    · exact fun he => nomatch he
    · exact h.file seed' format
  folder seed' content' := by
    rw [hc.find?, if_neg]
    · exact h.folder seed' content'
    · rw [← seedName_empty, List.append_cancel_left_eq, List.cons.injEq]
      exact fun he => seedName_empty_ne hdot seed' seed he.1.symm
  unit seed' number := by
    rw [hc.find?, if_neg (by simp)]
    exact h.unit seed' number

theorem Free.of_folder (hc : Changes tree tree' (top ++ [seedName seed ""]) .directory) :
    tree'.Free top where
  file seed' format := by
    rw [hc.find?, if_neg]
    · exact h.file seed' format
    · rw [List.append_cancel_left_eq, List.cons.injEq]
      exact fun he => seedName_empty_ne (dot_mem_extension format) seed seed' he.1
  folder seed' content' := by
    rw [hc.find?]
    split
    · exact fun he => nomatch he
    · exact h.folder seed' content'
  unit seed' number := by
    rw [hc.find?, if_neg (by simp)]
    exact h.unit seed' number

theorem Free.of_unit {name path : String}
    (hc : Changes tree tree' (top ++ [name, path]) (.file content)) : tree'.Free top where
  file seed' format := by
    rw [hc.find?, if_neg (by simp)]
    exact h.file seed' format
  folder seed' content' := by
    rw [hc.find?, if_neg (by simp)]
    exact h.folder seed' content'
  unit seed' number := by
    rw [hc.find?]
    split
    · exact fun he => nomatch he
    · exact h.unit seed' number

end Changes

theorem checkPath_child {path : Path} (hcheck : checkPath path = .ok ()) {name : String}
    (hname : IsName name) (hroom : path.text.utf8ByteSize + 1 + name.utf8ByteSize ≤ pathLimit) :
    checkPath (path.child name) = .ok () := by
  have hsize := path.utf8ByteSize_text_child_le name
  rw [checkPath_eq_ok_iff] at hcheck ⊢
  refine ⟨fun segment hsegment => ?_, by omega⟩
  rw [Path.segments_child, List.mem_append, List.mem_singleton] at hsegment
  rcases hsegment with hsegment | rfl
  · exact hcheck.1 segment hsegment
  · exact hname.nul

theorem Receives.write_file (h : tree.Receives directory top) (hseed : 0 ≤ seed)
    (hlt : seed < 2 ^ 64) (format : Format) (content : String) :
    ∃ tree', tree.write (directory.child (seedName seed format.extension)) content = .ok tree' ∧
      tree'.home = tree.home ∧ tree'.Receives directory top := by
  have hname := isName_fileName hseed hlt format
  have hsize := utf8ByteSize_seedName_le hseed hlt format.extension
  have hextension : format.extension.utf8ByteSize ≤ 5 := by cases format <;> decide
  have hroom := h.room
  rw [fileRoom] at hroom
  have hcheck := checkPath_child h.check hname (by omega)
  obtain ⟨tree', hwrite, hc⟩ := h.reached.write_child hname hcheck (h.free.file_ne seed format)
    content
  have hkeeps := hc.keepsDirectories fun hfound => absurd hfound (h.free.file_ne seed format)
  exact ⟨tree', hwrite, hc.home, h.reached.mono hkeeps, h.check, h.room,
    h.free.of_file (dot_mem_extension format) hc⟩

theorem Receives.performAll_unit (h : tree.Receives directory top) (hseed : 0 ≤ seed)
    (hlt : seed < 2 ^ 64) {unit : String × String}
    (hunit : ∃ number < 10, unit.1 = Config.standard.unitPath number) :
    ∃ tree', tree.performAll (Plan.unitActions (directory.child (seedName seed "")) unit) =
        (.ok (), tree') ∧ tree'.home = tree.home ∧ tree'.Receives directory top := by
  obtain ⟨number, hnumber, hpath⟩ := hunit
  have hname := isName_folderName hseed hlt
  have hsize := utf8ByteSize_seedName_le hseed hlt ""
  have hroom := h.room
  rw [fileRoom] at hroom
  rw [String.utf8ByteSize_empty] at hsize
  have hcheck := checkPath_child h.check hname (by omega)
  obtain ⟨made, hmake, hc⟩ := h.reached.makeDirectories_child hname hcheck (h.free.folder_ne seed)
  have hmade : made.Receives directory top :=
    ⟨h.reached.mono (hc.keepsDirectories fun _ => rfl), h.check, h.room, h.free.of_folder hc⟩
  have hfolder : made.Reaches (directory.child (seedName seed "")) (top ++ [seedName seed ""]) := by
    refine ⟨hmade.reached.follow_child hname, ?_⟩
    rw [hc.find?, if_pos rfl]
  have hunitName := isName_unitPath hnumber
  have hfolderSize := directory.utf8ByteSize_text_child_le (seedName seed "")
  have hunitSize := utf8ByteSize_unitPath_le hnumber
  have hunitCheck := checkPath_child hcheck hunitName (by omega)
  have hunitFree : made.find? (top ++ [seedName seed ""] ++ [Config.standard.unitPath number]) ≠
      some .directory := by
    rw [List.append_assoc, seedName_empty]
    exact hmade.free.unit seed number
  obtain ⟨tree', hwrite, hc'⟩ := hfolder.write_child hunitName hunitCheck hunitFree unit.2
  have hkeeps := hc'.keepsDirectories fun hfound => absurd hfound hunitFree
  rw [List.append_assoc] at hc'
  refine ⟨tree', ?_, hc'.home.trans hc.home, hmade.reached.mono hkeeps, h.check, h.room,
    hmade.free.of_unit hc'⟩
  rw [Plan.unitActions, hpath, hunitName.join_ofText, Path.parent_child]
  simp only [performAll, perform, hmake, hwrite]

theorem Receives.performAll_units (h : tree.Receives directory top) (hseed : 0 ≤ seed)
    (hlt : seed < 2 ^ 64) {units : List (String × String)}
    (hunits : ∀ unit ∈ units, ∃ number < 10, unit.1 = Config.standard.unitPath number) :
    ∃ tree', tree.performAll
        (units.flatMap (Plan.unitActions (directory.child (seedName seed "")))) = (.ok (), tree') ∧
      tree'.home = tree.home ∧ tree'.Receives directory top := by
  induction units generalizing tree with
  | nil => exact ⟨tree, rfl, rfl, h⟩
  | cons unit units ih =>
    obtain ⟨hunit, hunits⟩ := List.forall_mem_cons.1 hunits
    obtain ⟨written, hwritten, hhome, hreceives⟩ := h.performAll_unit hseed hlt hunit
    obtain ⟨tree', hrest, hhome', hreceives'⟩ := ih hreceives hunits
    refine ⟨tree', ?_, hhome'.trans hhome, hreceives'⟩
    rw [List.flatMap_cons, performAll_append, hwritten]
    exact hrest

/-- The tree has the given files besides those that it had before. -/
structure Adds (tree tree' : FileTree) (files : List (Location × String)) : Prop where
  home : tree'.home = tree.home
  added {file : Location × String} : file ∈ files → tree'.fileAt? file.1 = some file.2
  kept {location : Location} :
    location ∉ files.map Prod.fst → tree'.fileAt? location = tree.fileAt? location

theorem Adds.refl (tree : FileTree) : Adds tree tree [] :=
  ⟨rfl, fun h => absurd h List.not_mem_nil, fun _ => rfl⟩

theorem Adds.append {files files' : List (Location × String)} (h : Adds tree tree' files)
    (h' : Adds tree' tree'' files')
    (hagree : ∀ file ∈ files, ∀ file' ∈ files', file.1 = file'.1 → file.2 = file'.2) :
    Adds tree tree'' (files ++ files') where
  home := h'.home.trans h.home
  added {file} hfile := by
    rcases List.mem_append.1 hfile with hfile | hfile
    · by_cases hagain : file.1 ∈ files'.map Prod.fst
      · obtain ⟨file', hfile', he⟩ := List.mem_map.1 hagain
        rw [← he, h'.added hfile', hagree file hfile file' hfile' he.symm]
      · rw [h'.kept hagain, h.added hfile]
    · exact h'.added hfile
  kept {location} hlocation := by
    rw [List.map_append, List.mem_append, not_or] at hlocation
    rw [h'.kept hlocation.2, h.kept hlocation.1]

theorem Adds.of_sameFiles {files : List (Location × String)} (h : SameFiles tree tree')
    (h' : Adds tree' tree'' files) : Adds tree tree'' files :=
  ⟨h'.home.trans h.home, h'.added, fun hlocation => (h'.kept hlocation).trans (h.fileAt? _)⟩

theorem Adds.contents_perm {files : List (Location × String)} (h : Adds tree tree' files)
    (hnodup : (files.map Prod.fst).Nodup) (hnew : ∀ file ∈ files, tree.fileAt? file.1 = none) :
    tree'.contents.Perm (tree.contents ++ files) := by
  have hold : (tree.contents ++ files).Nodup := by
    apply List.Nodup.of_map Prod.fst
    rw [List.map_append, List.nodup_append]
    refine ⟨tree.nodup_places, hnodup, ?_⟩
    rintro _ hplace location hlocation rfl
    obtain ⟨file, hfile, rfl⟩ := List.mem_map.1 hlocation
    exact mem_places_iff.1 hplace (hnew file hfile)
  rw [List.perm_ext_iff_of_nodup (List.Nodup.of_map _ tree'.nodup_places) hold]
  rintro ⟨location, content⟩
  rw [List.mem_append, mem_contents, mem_contents]
  by_cases hlocation : location ∈ files.map Prod.fst
  · obtain ⟨file, hfile, rfl⟩ := List.mem_map.1 hlocation
    rw [h.added hfile, hnew file hfile]
    constructor
    · intro hcontent
      rw [← Option.some.inj hcontent]
      exact .inr hfile
    · rintro (hnone | hmem)
      · cases hnone
      · have hinj := List.inj_on_of_nodup_map hnodup hfile hmem rfl
        rw [hinj]
  · rw [h.kept hlocation]
    constructor
    · exact .inl
    · rintro (hcontent | hmem)
      · exact hcontent
      · exact absurd (List.mem_map_of_mem hmem) hlocation

theorem adds_of_write {path : Path} {content : String} (h : tree.write path content = .ok tree') :
    Adds tree tree' [(tree.place path, content)] := by
  obtain rfl := write_eq_ok h
  refine ⟨rfl, fun {file} hfile => ?_, fun {location} hlocation => ?_⟩
  · rw [List.mem_singleton.1 hfile, fileAt?_put_file, if_pos rfl]
  · rw [fileAt?_put_file, if_neg fun he => hlocation (by simp [he])]

theorem adds_of_performAll_units {units : List (String × String)}
    (h : tree.performAll (units.flatMap (Plan.unitActions directory)) = (.ok (), tree'))
    (hhome : tree'.home = tree.home)
    (hnodup : (units.map fun unit => tree.unitPlace directory unit.1).Nodup) :
    Adds tree tree' (units.map fun unit => (tree.unitPlace directory unit.1, unit.2)) := by
  refine ⟨hhome, fun {file} hfile => ?_, fun {location} hlocation => ?_⟩
  · obtain ⟨unit, hunit, rfl⟩ := List.mem_map.1 hfile
    rw [performAll_units h, lastAt_of_nodup hnodup hunit, Option.some_or]
  · rw [List.map_map] at hlocation
    rw [performAll_units h, lastAt_eq_none_iff.2 hlocation, Option.none_or]

/-- A program can be written in every layout. Its files are added, and there is room for the next
program. -/
theorem Receives.write_program (h : tree.Receives directory top) (hseed : 0 ≤ seed)
    (hlt : seed < 2 ^ 64) {edition : Edition} (he : edition.IsOf seed) (layout : Layout) :
    ∃ plan tree', Plan.ofProgram layout directory seed edition.program = .ok plan ∧
      tree.performAll plan.actions = (.ok (), tree') ∧ tree'.Receives directory top ∧
      Adds tree tree' (edition.files layout top seed) := by
  cases layout with
  | single format =>
    obtain ⟨tree', hwrite, hhome, hreceives⟩ :=
      h.write_file hseed hlt format (edition.text format)
    have hname := isName_fileName hseed hlt format
    have hadds := adds_of_write hwrite
    rw [place_child tree directory hname, h.reached.place_eq] at hadds
    refine ⟨⟨directory.child (seedName seed format.extension),
      [.write (directory.child (seedName seed format.extension)) (edition.text format)]⟩,
      tree', ?_, ?_, hreceives, hadds⟩
    · rw [Plan.ofProgram, he.render format, ← hname.join_ofText]
      rfl
    · simp only [performAll, perform, hwrite]
  | perUnit =>
    let folder := directory.child (seedName seed "")
    have hname := isName_folderName hseed hlt
    obtain ⟨tree', hperform, hhome, hreceives⟩ :=
      h.performAll_units hseed hlt fun unit hunit => he.exists_number hunit
    have hplaces (unit : String × String) (hunit : unit ∈ edition.units.entries) :
        tree.unitPlace folder unit.1 = top ++ [s!"seed_{seed}", unit.1] := by
      obtain ⟨number, hnumber, hpath⟩ := he.exists_number hunit
      have hunitName := isName_unitPath hnumber
      rw [unitPlace, hpath, hunitName.join_ofText, place_child tree folder hunitName,
        place_child tree directory hname, h.reached.place_eq, List.append_assoc, seedName_empty]
      rfl
    have hfiles : (edition.units.entries.map fun unit =>
        (tree.unitPlace folder unit.1, unit.2)) = edition.files .perUnit top seed :=
      List.map_congr_left fun unit hunit => by rw [hplaces unit hunit]
    have hnodup : (edition.units.entries.map fun unit => tree.unitPlace folder unit.1).Nodup := by
      have hfst := edition.nodup_files .perUnit top seed
      rwa [← hfiles, List.map_map] at hfst
    have hadds := adds_of_performAll_units hperform hhome hnodup
    rw [hfiles] at hadds
    refine ⟨⟨folder, edition.units.entries.flatMap (Plan.unitActions folder)⟩, tree', ?_, hperform,
      hreceives, hadds⟩
    rw [Plan.ofProgram, he.units, ← seedName_empty, hname.join_ofText]
    rfl

end FileTree

end SoliditySynth
