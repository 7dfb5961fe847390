import SoliditySynth.Proofs.FileWriting

namespace SoliditySynth

namespace Path

def child (directory : Path) (name : String) : Path :=
  { directory with segments := directory.segments ++ [name] }

@[simp] theorem anchor_child (directory : Path) (name : String) :
    (directory.child name).anchor = directory.anchor := rfl

@[simp] theorem segments_child (directory : Path) (name : String) :
    (directory.child name).segments = directory.segments ++ [name] := rfl

theorem parent_child (directory : Path) (name : String) :
    (directory.child name).parent = directory := by
  rw [parent, segments_child, List.dropLast_concat, child]

theorem utf8ByteSize_intercalate_concat (sep name : String) (names : List String) :
    (sep.intercalate (names ++ [name])).utf8ByteSize ≤
      (sep.intercalate names).utf8ByteSize + sep.utf8ByteSize + name.utf8ByteSize := by
  by_cases hnames : names = []
  · subst hnames
    rw [List.nil_append, String.intercalate_singleton]
    omega
  · apply Nat.le_of_eq
    rw [String.intercalate_append_of_ne_nil hnames (by simp), String.intercalate_singleton,
      String.utf8ByteSize_append, String.utf8ByteSize_append]

theorem utf8ByteSize_text_child_le (directory : Path) (name : String) :
    (directory.child name).text.utf8ByteSize ≤
      directory.text.utf8ByteSize + 1 + name.utf8ByteSize := by
  have hdot : ("." : String).utf8ByteSize = 1 := by decide
  have hsep : ("/" : String).utf8ByteSize = 1 := by decide
  have hconcat := utf8ByteSize_intercalate_concat "/" name directory.segments
  have htext : directory.anchor.text.utf8ByteSize +
      ("/".intercalate directory.segments).utf8ByteSize ≤ directory.text.utf8ByteSize := by
    rw [← String.utf8ByteSize_append, text]
    split
    · next hempty =>
      rw [hempty, String.utf8ByteSize_empty]
      exact Nat.zero_le _
    · exact Nat.le_refl _
  rw [text]
  split
  · omega
  · rw [String.utf8ByteSize_append, anchor_child, segments_child]
    omega

end Path

namespace FileTree

variable {tree tree' tree'' : FileTree} {path : Path} {start location : Location}
  {names : List String} {name : String}

structure IsName (name : String) : Prop where
  slash : '/' ∉ name.toList
  nul : '\x00' ∉ name.toList
  notEmpty : name ≠ ""
  notHere : name ≠ "."
  notUp : name ≠ ".."
  fits : name.utf8ByteSize ≤ nameLimit

theorem checkPath_eq_ok_iff :
    checkPath path = .ok () ↔
      (∀ name ∈ path.segments, '\x00' ∉ name.toList) ∧ path.text.utf8ByteSize ≤ pathLimit := by
  rw [checkPath]
  split
  · next hnul =>
    simp only [reduceCtorEq, false_iff, not_and]
    intro hnone
    obtain ⟨name, hname, hmem⟩ := List.any_eq_true.1 hnul
    exact absurd (by simpa using hmem) (hnone name hname)
  · next hnul =>
    have hnone : ∀ name ∈ path.segments, '\x00' ∉ name.toList := by simpa using hnul
    split
    · next hlong =>
      simp only [reduceCtorEq, false_iff, not_and, Nat.not_le]
      exact fun _ => hlong
    · next hshort => exact ⟨fun _ => ⟨hnone, Nat.not_lt.1 hshort⟩, fun _ => rfl⟩

theorem place_child (tree : FileTree) (directory : Path) (hname : IsName name) :
    tree.place (directory.child name) = tree.place directory ++ [name] := by
  rw [place, Path.segments_child, walk_append, walk, List.foldl_cons, List.foldl_nil, step,
    if_neg hname.notUp]
  rfl

structure Reaches (tree : FileTree) (path : Path) (location : Location) : Prop where
  follow : tree.follow (tree.origin path) path.segments = .ok location
  found : tree.find? location = some .directory

theorem Reaches.place_eq (h : tree.Reaches path location) : tree.place path = location :=
  follow_eq_ok h.follow

theorem reaches_of_isDirectory (h : tree.isDirectory (tree.origin path) path.segments = true) :
    tree.Reaches path (tree.place path) := by
  rw [isDirectory] at h
  split at h
  · next hfollow =>
    rw [place, follow_eq_ok hfollow]
    exact ⟨hfollow, by simpa using h⟩
  · cases h

/-- All directories of one tree are directories of the other, and paths start at the same place. -/
structure KeepsDirectories (tree tree' : FileTree) : Prop where
  home : tree'.home = tree.home
  kept {location : Location} :
    tree.find? location = some .directory → tree'.find? location = some .directory

theorem KeepsDirectories.follow (h : KeepsDirectories tree tree')
    (hf : tree.follow start names = .ok location) : tree'.follow start names = .ok location := by
  induction names generalizing start with
  | nil => exact hf
  | cons name names ih =>
    rw [FileTree.follow] at hf
    split at hf
    · next hdirectory =>
      split at hf
      · cases hf
      · next hfits =>
        rw [FileTree.follow, h.kept hdirectory]
        dsimp only
        rw [if_neg hfits]
        exact ih hf
    · cases hf
    · cases hf

theorem origin_congr (h : tree'.home = tree.home) (path : Path) :
    tree'.origin path = tree.origin path := by
  rw [origin, origin, h]

theorem Reaches.mono (hr : tree.Reaches path location) (h : KeepsDirectories tree tree') :
    tree'.Reaches path location := by
  refine ⟨?_, h.kept hr.found⟩
  rw [origin_congr h.home]
  exact h.follow hr.follow

theorem find?_root (tree : FileTree) : tree.find? [] = some .directory := if_pos rfl

/-- One tree has the given node at a place, and is otherwise as the other. -/
structure Changes (tree tree' : FileTree) (location : Location) (node : Node) : Prop where
  home : tree'.home = tree.home
  find? (location' : Location) :
    tree'.find? location' = if location = location' then some node else tree.find? location'

theorem Changes.keepsDirectories {node : Node} (h : Changes tree tree' location node)
    (hnode : tree.find? location = some .directory → node = .directory) :
    KeepsDirectories tree tree' := by
  refine ⟨h.home, fun {location'} hfound => ?_⟩
  rw [h.find?]
  split
  · next he => rw [hnode (he ▸ hfound)]
  · exact hfound

theorem changes_put (h : location ≠ []) (node : Node) :
    Changes tree (tree.put location node) location node :=
  ⟨rfl, fun _ => find?_put h⟩

theorem fileAt?_of_find? (h : tree.find? location = none) : tree.fileAt? location = none := by
  rw [find?] at h
  split at h
  · cases h
  · rw [fileAt?, h]

theorem find?_eq_none_of_keys {top : Location}
    (h : ∀ location ∈ tree.nodes.keys, top <+: location → location = top)
    (hbelow : top <+: location) (hne : location ≠ top) : tree.find? location = none := by
  rw [find?, if_neg]
  · cases hfind : tree.nodes.find? location with
    | none => rfl
    | some node => exact absurd (h location (OrderedMap.mem_keys_of_find? hfind) hbelow) hne
  · rintro rfl
    exact hne (List.prefix_nil.1 hbelow).symm

theorem follow_concat (hf : tree.follow start names = .ok location)
    (hfound : tree.find? location = some .directory) (hname : IsName name) :
    tree.follow start (names ++ [name]) = .ok (location ++ [name]) := by
  induction names generalizing start with
  | nil =>
    obtain rfl : start = location := Except.ok.inj hf
    have hfits := hname.fits
    rw [List.nil_append, follow, hfound]
    dsimp only
    rw [if_neg (by omega), step, if_neg hname.notUp]
    rfl
  | cons first names ih =>
    rw [follow] at hf
    rw [List.cons_append, follow]
    split at hf
    · split at hf
      · cases hf
      · next hfits =>
        rw [if_neg hfits]
        exact ih hf
    · cases hf
    · cases hf

theorem Reaches.follow_child (h : tree.Reaches path location) (hname : IsName name) :
    tree.follow (tree.origin (path.child name)) (path.child name).segments =
      .ok (location ++ [name]) :=
  follow_concat h.follow h.found hname

theorem makeDirectory_eq (hf : tree.follow start names = .ok location) :
    tree.makeDirectory start names =
      if (tree.find? location).isSome then .error .alreadyExists
      else .ok (tree.put location .directory) := by
  rw [makeDirectory, hf]
  rfl

theorem isDirectory_eq (hf : tree.follow start names = .ok location) :
    tree.isDirectory start names = decide (tree.find? location = some .directory) := by
  rw [isDirectory, hf]

theorem isDirectory_of_ensureDirectory (h : tree.ensureDirectory start names = .ok tree') :
    tree'.isDirectory start names = true := by
  rw [ensureDirectory] at h
  split at h
  · next made hmade =>
    cases h
    rw [makeDirectory] at hmade
    cases hf : tree.follow start names with
    | error fault =>
      rw [hf] at hmade
      cases hmade
    | ok location =>
      rw [hf] at hmade
      change (if _ then _ else _) = _ at hmade
      split at hmade
      · cases hmade
      · next hfree =>
        cases hmade
        have hroot : location ≠ [] := by
          rintro rfl
          exact hfree (by rw [find?_root]; rfl)
        have hput : Changes tree _ location .directory := changes_put hroot .directory
        have hkeeps := hput.keepsDirectories fun _ => rfl
        rw [isDirectory_eq (hkeeps.follow hf), hput.find?, if_pos rfl]
        rfl
  · cases h
  · split at h
    · next hdirectory =>
      cases h
      exact hdirectory
    · cases h

theorem isDirectory_of_ensureDirectories {n : Nat}
    (h : tree.ensureDirectories start names n = (.ok (), tree')) :
    tree'.isDirectory start (names.take n) = true := by
  cases n with
  | zero =>
    rw [ensureDirectories] at h
    split at h
    · next hensure =>
      cases h
      exact isDirectory_of_ensureDirectory hensure
    · cases h
  | succ n =>
    rw [ensureDirectories] at h
    split at h
    · next hensure =>
      cases h
      exact isDirectory_of_ensureDirectory hensure
    · split at h
      · cases h
      · split at h
        · next hensure =>
          cases h
          exact isDirectory_of_ensureDirectory hensure
        · cases h
    · cases h

theorem reaches_of_makeDirectories (h : tree.makeDirectories path = (.ok (), tree')) :
    tree'.Reaches path (tree.place path) := by
  have hhome := (tree.sameFiles_makeDirectories path).home
  rw [h] at hhome
  rw [← place_congr hhome]
  apply reaches_of_isDirectory
  rw [makeDirectories] at h
  split at h
  · have hdirectory := isDirectory_of_ensureDirectories h
    rwa [List.take_length, ← origin_congr hhome] at hdirectory
  · cases h

theorem checkPath_of_makeDirectories (h : tree.makeDirectories path = (.ok (), tree')) :
    checkPath path = .ok () := by
  rw [makeDirectories] at h
  split at h
  · assumption
  · cases h

theorem ensureDirectory_concat (hfollow : tree.follow start names = .ok location)
    (hfound : tree.find? location = some .directory) (hname : IsName name)
    (hfree : ∀ content, tree.find? (location ++ [name]) ≠ some (.file content)) :
    ∃ tree', tree.ensureDirectory start (names ++ [name]) = .ok tree' ∧
      Changes tree tree' (location ++ [name]) .directory := by
  have hconcat := follow_concat hfollow hfound hname
  rw [ensureDirectory, makeDirectory_eq hconcat]
  cases hfind : tree.find? (location ++ [name]) with
  | none => exact ⟨_, rfl, changes_put (by simp) _⟩
  | some node =>
    cases node with
    | file content => exact absurd hfind (hfree content)
    | directory =>
      dsimp only [Option.isSome_some, if_true]
      rw [isDirectory_eq hconcat, hfind]
      refine ⟨tree, rfl, rfl, fun location' => ?_⟩
      split
      · next he => rw [← he, hfind]
      · rfl

theorem Reaches.makeDirectories_child (h : tree.Reaches path location) (hname : IsName name)
    (hcheck : checkPath (path.child name) = .ok ())
    (hfree : ∀ content, tree.find? (location ++ [name]) ≠ some (.file content)) :
    ∃ tree', tree.makeDirectories (path.child name) = (.ok (), tree') ∧
      Changes tree tree' (location ++ [name]) .directory := by
  have hlength : (path.child name).segments.length = path.segments.length + 1 := by
    rw [Path.segments_child, List.length_append, List.length_singleton]
  have htake : (path.child name).segments.take (path.segments.length + 1) =
      (path.child name).segments := by
    rw [← hlength, List.take_length]
  obtain ⟨tree', hensure, hchanges⟩ := ensureDirectory_concat h.follow h.found hname hfree
  have hchild : tree.ensureDirectory (tree.origin (path.child name)) (path.child name).segments =
      .ok tree' := hensure
  refine ⟨tree', ?_, hchanges⟩
  rw [makeDirectories, hcheck, hlength]
  dsimp only
  rw [ensureDirectories, htake, hchild]

theorem Reaches.write_child (h : tree.Reaches path location) (hname : IsName name)
    (hcheck : checkPath (path.child name) = .ok ())
    (hfree : tree.find? (location ++ [name]) ≠ some .directory) (content : String) :
    ∃ tree', tree.write (path.child name) content = .ok tree' ∧
      Changes tree tree' (location ++ [name]) (.file content) := by
  refine ⟨tree.put (location ++ [name]) (.file content), ?_, changes_put (by simp) _⟩
  rw [write, hcheck, h.follow_child hname]
  exact if_neg hfree

end FileTree

end SoliditySynth
