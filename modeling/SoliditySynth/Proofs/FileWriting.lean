import SoliditySynth.Output

namespace SoliditySynth

namespace FileTree

variable {tree tree' tree'' : FileTree}

def fileAt? (tree : FileTree) (location : Location) : Option String :=
  match tree.nodes.find? location with
  | some (.file content) => some content
  | _ => none

def walk (location : Location) (names : List String) : Location := names.foldl step location

theorem walk_append (location : Location) (names names' : List String) :
    walk location (names ++ names') = walk (walk location names) names' :=
  List.foldl_append

theorem follow_eq_ok {start location : Location} {names : List String}
    (h : tree.follow start names = .ok location) : walk start names = location := by
  induction names generalizing start with
  | nil => exact Except.ok.inj h
  | cons name names ih =>
    rw [follow] at h
    split at h
    · split at h
      · cases h
      · exact ih h
    · cases h
    · cases h

/-- Where a path leads to, if the directories on the way are there. -/
def place (tree : FileTree) (path : Path) : Location := walk (tree.origin path) path.segments

/-- The two trees hold the same files, and paths start at the same place. -/
structure SameFiles (tree tree' : FileTree) : Prop where
  home : tree'.home = tree.home
  fileAt? (location : Location) : tree'.fileAt? location = tree.fileAt? location

theorem SameFiles.refl (tree : FileTree) : SameFiles tree tree := ⟨rfl, fun _ => rfl⟩

theorem SameFiles.trans (h : SameFiles tree tree') (h' : SameFiles tree' tree'') :
    SameFiles tree tree'' :=
  ⟨h'.home.trans h.home, fun location => (h'.fileAt? location).trans (h.fileAt? location)⟩

theorem place_congr (h : tree'.home = tree.home) (path : Path) :
    tree'.place path = tree.place path := by
  rw [place, place, origin, origin, h]

theorem sameFiles_put_directory {location : Location} (h : tree.find? location = none) :
    SameFiles tree (tree.put location .directory) := by
  refine ⟨rfl, fun location' => ?_⟩
  rw [find?] at h
  split at h
  · cases h
  · simp only [fileAt?, put, OrderedMap.find?_insert]
    by_cases he : location = location'
    · rw [if_pos he, ← he, h]
    · rw [if_neg he]

theorem sameFiles_makeDirectory {start : Location} {names : List String}
    (h : tree.makeDirectory start names = .ok tree') : SameFiles tree tree' := by
  rw [makeDirectory] at h
  cases hfollow : tree.follow start names with
  | error fault =>
    rw [hfollow] at h
    cases h
  | ok location =>
    rw [hfollow] at h
    change (if _ then _ else _) = _ at h
    split at h
    · cases h
    · next hfree =>
      cases h
      exact sameFiles_put_directory (by simpa using hfree)

theorem sameFiles_ensureDirectory {start : Location} {names : List String}
    (h : tree.ensureDirectory start names = .ok tree') : SameFiles tree tree' := by
  rw [ensureDirectory] at h
  split at h
  · next made hmade =>
    cases h
    exact sameFiles_makeDirectory hmade
  · cases h
  · split at h
    · cases h
      exact .refl tree
    · cases h

theorem sameFiles_ensureDirectories (tree : FileTree) (start : Location) (names : List String)
    (n : Nat) : SameFiles tree (tree.ensureDirectories start names n).2 := by
  induction n with
  | zero =>
    rw [ensureDirectories]
    split
    · next h => exact sameFiles_ensureDirectory h
    · exact .refl tree
  | succ n ih =>
    rw [ensureDirectories]
    split
    · next h => exact sameFiles_ensureDirectory h
    · split
      · next h => rwa [h] at ih
      · next h =>
        rw [h] at ih
        split
        · next h' => exact ih.trans (sameFiles_ensureDirectory h')
        · exact ih
    · exact .refl tree

theorem sameFiles_makeDirectories (tree : FileTree) (path : Path) :
    SameFiles tree (tree.makeDirectories path).2 := by
  rw [makeDirectories]
  split
  · exact sameFiles_ensureDirectories ..
  · exact .refl tree

theorem write_eq_ok {path : Path} {content : String} (h : tree.write path content = .ok tree') :
    tree' = tree.put (tree.place path) (.file content) := by
  rw [write] at h
  cases hcheck : checkPath path with
  | error fault =>
    rw [hcheck] at h
    cases h
  | ok =>
    rw [hcheck] at h
    change (tree.follow _ _ >>= _) = _ at h
    cases hfollow : tree.follow (tree.origin path) path.segments with
    | error fault =>
      rw [hfollow] at h
      cases h
    | ok location =>
      rw [hfollow] at h
      change (if _ then _ else _) = _ at h
      split at h
      · cases h
      · cases h
        rw [place, follow_eq_ok hfollow]

theorem fileAt?_put_file (tree : FileTree) (location location' : Location) (content : String) :
    (tree.put location (.file content)).fileAt? location' =
      if location = location' then some content else tree.fileAt? location' := by
  simp only [fileAt?, put, OrderedMap.find?_insert]
  by_cases he : location = location'
  · rw [if_pos he, if_pos he]
  · rw [if_neg he, if_neg he]

def unitPlace (tree : FileTree) (directory : Path) (path : String) : Location :=
  tree.place (directory.join (Path.ofText path))

/-- The text of the last unit with the given place. -/
def lastAt (place : String → Location) (location : Location) :
    List (String × String) → Option String
  | [] => none
  | unit :: units =>
    (lastAt place location units).or (if place unit.1 = location then some unit.2 else none)

variable {directory : Path}

theorem performAll_append (tree : FileTree) (actions actions' : List FileAction) :
    tree.performAll (actions ++ actions') =
      match tree.performAll actions with
      | (.ok (), tree') => tree'.performAll actions'
      | (.error fault, tree') => (.error fault, tree') := by
  induction actions generalizing tree with
  | nil => rfl
  | cons action actions ih =>
    rw [List.cons_append, performAll, performAll]
    split
    · exact ih _
    · rfl

theorem performAll_unitActions {unit : String × String}
    (h : tree.performAll (Plan.unitActions directory unit) = (.ok (), tree')) :
    tree'.home = tree.home ∧ ∀ location, tree'.fileAt? location =
      if tree.unitPlace directory unit.1 = location then some unit.2
      else tree.fileAt? location := by
  let target := directory.join (Path.ofText unit.1)
  have hmade := tree.sameFiles_makeDirectories target.parent
  rw [Plan.unitActions, performAll, perform] at h
  split at h
  · next made hmake =>
    have hmade : SameFiles tree made := by
      rw [hmake] at hmade
      exact hmade
    rw [performAll, perform] at h
    split at h
    · next written hwrite =>
      split at hwrite
      · next written' hwrite' =>
        cases hwrite
        cases h
        obtain rfl := write_eq_ok hwrite'
        refine ⟨hmade.home, fun location => ?_⟩
        rw [fileAt?_put_file, hmade.fileAt?, place_congr hmade.home]
        rfl
      · cases hwrite
    · cases h
  · cases h

/-- After the units of a program have been written, each place holds the last of the units that
lead to it. -/
theorem performAll_units {units : List (String × String)}
    (h : tree.performAll (units.flatMap (Plan.unitActions directory)) = (.ok (), tree')) :
    ∀ location, tree'.fileAt? location =
      (lastAt (tree.unitPlace directory) location units).or (tree.fileAt? location) := by
  induction units generalizing tree with
  | nil =>
    cases h
    intro location
    rfl
  | cons unit units ih =>
    rw [List.flatMap_cons, performAll_append] at h
    split at h
    · next written hwritten =>
      obtain ⟨hhome, hfiles⟩ := performAll_unitActions hwritten
      have hplace : written.unitPlace directory = tree.unitPlace directory := by
        funext path
        exact place_congr hhome _
      intro location
      -- what the first unit has written counts only where no later one writes
      rw [ih h location, hfiles location, hplace, lastAt, Option.or_assoc]
      split
      · rfl
      · rfl
    · cases h

end FileTree

end SoliditySynth
