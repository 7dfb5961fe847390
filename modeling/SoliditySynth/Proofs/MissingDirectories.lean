import Mathlib.Data.List.Induction
import SoliditySynth.Proofs.Directories

namespace SoliditySynth

theorem not_concat_prefix_self {α : Type} {l : List α} {a : α} : ¬l ++ [a] <+: l := by
  intro h
  have hlength := h.length_le
  rw [List.length_append, List.length_singleton] at hlength
  omega

namespace FileTree

variable {tree tree' tree'' : FileTree} {path : Path} {start location : Location}
  {names : List String} {name : String}

theorem follow_append (tree : FileTree) (start : Location) (names names' : List String) :
    tree.follow start (names ++ names') =
      tree.follow start names >>= fun location => tree.follow location names' := by
  induction names generalizing start with
  | nil => rfl
  | cons name names ih =>
    rw [List.cons_append, follow, follow]
    split
    · split
      · rfl
      · exact ih _
    · rfl
    · rfl

theorem walk_of_isName (hnames : ∀ name ∈ names, IsName name) (start : Location) :
    walk start names = start ++ names := by
  induction names generalizing start with
  | nil => rw [List.append_nil]; rfl
  | cons name names ih =>
    have hname := hnames name List.mem_cons_self
    rw [walk, List.foldl_cons, step, if_neg hname.notUp]
    change walk (start ++ [name]) names = _
    rw [ih fun name' hname' => hnames name' (List.mem_cons_of_mem _ hname'), List.append_assoc]
    rfl

theorem follow_eq_ok_of_isName (hnames : ∀ name ∈ names, IsName name)
    (h : tree.follow start names = .ok location) : location = start ++ names := by
  rw [← follow_eq_ok h, walk_of_isName hnames]

theorem find?_of_follow (hnames : ∀ name ∈ names, IsName name)
    (h : tree.follow start names = .ok location) {part : List String} (hpart : part <+: names)
    (hne : part ≠ names) : tree.find? (start ++ part) = some .directory := by
  obtain ⟨rest, rfl⟩ := hpart
  rw [follow_append] at h
  cases hfollow : tree.follow start part with
  | error fault =>
    rw [hfollow] at h
    cases h
  | ok middle =>
    rw [hfollow] at h
    change tree.follow middle rest = _ at h
    obtain rfl := follow_eq_ok_of_isName
      (fun name hname => hnames name (List.mem_append_left _ hname)) hfollow
    cases rest with
    | nil => exact absurd (List.append_nil part).symm hne
    | cons name rest =>
      rw [follow] at h
      split at h
      · assumption
      · cases h
      · cases h

/-- No file stands on the way, nor at its end. -/
def IsClear (tree : FileTree) (start : Location) (names : List String) : Prop :=
  ∀ part, part <+: names → ∀ content, tree.find? (start ++ part) ≠ some (.file content)

theorem IsClear.of_append {names' : List String} (h : tree.IsClear start (names ++ names')) :
    tree.IsClear start names :=
  fun part hpart => h part (hpart.trans (List.prefix_append _ _))

theorem IsClear.follow (h : tree.IsClear start names) (hnames : ∀ name ∈ names, IsName name) :
    tree.follow start names = .ok (start ++ names) ∨
      tree.follow start names = .error .notFound := by
  induction names generalizing start with
  | nil => exact .inl (by rw [List.append_nil]; rfl)
  | cons name names ih =>
    have hname := hnames name List.mem_cons_self
    have hfits := hname.fits
    rw [FileTree.follow]
    cases hfind : tree.find? start with
    | none => exact .inr rfl
    | some node =>
      cases node with
      | file content => exact absurd (by rwa [List.append_nil]) (h [] (List.nil_prefix) content)
      | directory =>
        dsimp only
        rw [if_neg (by omega), step, if_neg hname.notUp, List.append_cons start name names]
        apply ih
        · intro part hpart content
          rw [List.append_assoc]
          exact h _ (List.cons_prefix_cons.2 ⟨rfl, hpart⟩) content
        · exact fun name' hname' => hnames name' (List.mem_cons_of_mem _ hname')

/-- One tree has directories at the start, on the way and at its end, and is otherwise as the
other. -/
structure Opens (tree tree' : FileTree) (start : Location) (names : List String) : Prop where
  home : tree'.home = tree.home
  find? (location : Location) : tree'.find? location =
    if start <+: location ∧ location <+: start ++ names then some .directory
    else tree.find? location

theorem Opens.refl (hstart : tree.find? start = some .directory) : Opens tree tree start [] := by
  refine ⟨rfl, fun location => ?_⟩
  rw [List.append_nil]
  split
  · next h => rw [h.2.eq_of_length_le h.1.length_le, hstart]
  · rfl

theorem Opens.concat (h : Opens tree tree' start names)
    (hput : Changes tree' tree'' (start ++ names ++ [name]) .directory) :
    Opens tree tree'' start (names ++ [name]) := by
  refine ⟨hput.home.trans h.home, fun location => ?_⟩
  simp only [hput.find?, h.find?, ← List.append_assoc, List.prefix_concat_iff]
  by_cases hend : start ++ names ++ [name] = location
  · subst hend
    rw [if_pos rfl, if_pos]
    exact ⟨(List.prefix_append _ _).trans (List.prefix_append _ _), .inl rfl⟩
  · rw [if_neg hend]
    simp only [Ne.symm hend, false_or]

theorem Opens.of_follow (hnames : ∀ name ∈ names, IsName name)
    (hfollow : tree.follow start names = .ok location)
    (hfound : tree.find? location = some .directory) : Opens tree tree start names := by
  obtain rfl := follow_eq_ok_of_isName hnames hfollow
  refine ⟨rfl, fun location => ?_⟩
  split
  · next h =>
    obtain ⟨part, rfl⟩ := h.1
    have hpart : part <+: names := (List.prefix_append_right_inj start).1 h.2
    by_cases hall : part = names
    · rw [hall, hfound]
    · exact find?_of_follow hnames hfollow hpart hall
  · rfl

theorem exists_follow_of_isDirectory (h : tree.isDirectory start names = true) :
    ∃ location, tree.follow start names = .ok location ∧
      tree.find? location = some .directory := by
  rw [isDirectory] at h
  split at h
  · next location hfollow => exact ⟨location, hfollow, of_decide_eq_true h⟩
  · cases h

theorem ensureDirectories_append (tree : FileTree) (start : Location) (names names' : List String)
    {n : Nat} (hn : n ≤ names.length) :
    tree.ensureDirectories start (names ++ names') n = tree.ensureDirectories start names n := by
  induction n with
  | zero => rfl
  | succ n ih =>
    rw [ensureDirectories, ensureDirectories, List.take_append_of_le_length hn,
      ih (Nat.le_of_succ_le hn)]

theorem IsClear.ensureDirectory_notFound (h : tree.IsClear start names)
    (hnames : ∀ name ∈ names, IsName name)
    (hthere : ¬(tree.follow start names = .ok (start ++ names) ∧
      tree.find? (start ++ names) = some .directory)) (name : String) :
    tree.ensureDirectory start (names ++ [name]) = .error .notFound := by
  have hfollow : tree.follow start (names ++ [name]) = .error .notFound := by
    rw [follow_append]
    rcases h.follow hnames with hfollow | hfollow
    · rw [hfollow]
      change tree.follow (start ++ names) [name] = _
      rw [FileTree.follow]
      cases hfind : tree.find? (start ++ names) with
      | none => rfl
      | some node =>
        cases node with
        | file content => exact absurd hfind (h names (List.prefix_refl _) content)
        | directory => exact absurd ⟨hfollow, hfind⟩ hthere
    · rw [hfollow]
      rfl
  rw [ensureDirectory, makeDirectory, hfollow]
  rfl

theorem IsClear.ensureDirectories (h : tree.IsClear start names)
    (hnames : ∀ name ∈ names, IsName name) (hstart : tree.find? start = some .directory) :
    ∃ tree', tree.ensureDirectories start names names.length = (.ok (), tree') ∧
      Opens tree tree' start names := by
  -- The last directory is asked for first, and once more after those above it have been made.
  induction names using List.reverseRecOn with
  | nil =>
    have hfollow : tree.follow start [] = .ok start := rfl
    have hexists : tree.makeDirectory start [] = .error .alreadyExists := by
      rw [makeDirectory_eq hfollow, hstart]
      rfl
    refine ⟨tree, ?_, .refl hstart⟩
    rw [List.length_nil, FileTree.ensureDirectories, ensureDirectory, hexists]
    dsimp only
    rw [isDirectory_eq hfollow, hstart]
    rfl
  | append_singleton names name ih =>
    have hinit : ∀ name' ∈ names, IsName name' :=
      fun name' hname' => hnames name' (List.mem_append_left _ hname')
    have hname : IsName name := hnames name (by simp)
    have htake : (names ++ [name]).take (names.length + 1) = names ++ [name] :=
      List.take_of_length_le (by simp)
    rw [List.length_append, List.length_singleton, FileTree.ensureDirectories, htake,
      ensureDirectories_append _ _ _ _ (Nat.le_refl _)]
    by_cases hthere : tree.follow start names = .ok (start ++ names) ∧
        tree.find? (start ++ names) = some .directory
    · obtain ⟨hfollow, hfound⟩ := hthere
      obtain ⟨tree', hensure, hchanges⟩ := ensureDirectory_concat hfollow hfound hname
        fun content => List.append_assoc start _ _ ▸ h _ (List.prefix_refl _) content
      rw [hensure]
      exact ⟨tree', rfl, (Opens.of_follow hinit hfollow hfound).concat hchanges⟩
    · obtain ⟨opened, hopened, hopens⟩ := ih h.of_append hinit
      have hdirectory := isDirectory_of_ensureDirectories hopened
      rw [List.take_length] at hdirectory
      obtain ⟨location, hfollow, hfound⟩ := exists_follow_of_isDirectory hdirectory
      obtain rfl := follow_eq_ok_of_isName hinit hfollow
      have hfree (content : String) :
          opened.find? (start ++ names ++ [name]) ≠ some (.file content) := by
        rw [hopens.find?, if_neg, List.append_assoc]
        · exact h _ (List.prefix_refl _) content
        · exact fun hopened => not_concat_prefix_self hopened.2
      obtain ⟨tree', hensure, hchanges⟩ := ensureDirectory_concat hfollow hfound hname hfree
      rw [h.of_append.ensureDirectory_notFound hinit hthere, hopened]
      dsimp only
      rw [hensure]
      exact ⟨tree', rfl, hopens.concat hchanges⟩

/-- Where no file is on the way, all directories on it can be made. -/
theorem IsClear.makeDirectories (h : tree.IsClear (tree.origin path) path.segments)
    (hcheck : checkPath path = .ok ()) (hnames : ∀ name ∈ path.segments, IsName name)
    (hstart : tree.find? (tree.origin path) = some .directory) :
    ∃ tree', tree.makeDirectories path = (.ok (), tree') ∧
      Opens tree tree' (tree.origin path) path.segments := by
  rw [FileTree.makeDirectories, hcheck]
  exact h.ensureDirectories hnames hstart

theorem find?_eq_file_iff {content : String} :
    tree.find? location = some (.file content) ↔
      location ≠ [] ∧ tree.fileAt? location = some content := by
  rw [find?, fileAt?]
  split
  · next hroot => simp [hroot]
  · next hroot =>
    cases tree.nodes.find? location with
    | none => simp
    | some node => cases node <;> simp [hroot]

theorem SameFiles.find?_eq_file_iff (h : SameFiles tree tree') {content : String} :
    tree'.find? location = some (.file content) ↔ tree.find? location = some (.file content) := by
  rw [FileTree.find?_eq_file_iff, FileTree.find?_eq_file_iff, h.fileAt?]

theorem isClear_of_makeDirectories (hnames : ∀ name ∈ path.segments, IsName name)
    (h : tree.makeDirectories path = (.ok (), tree')) :
    tree.IsClear (tree.origin path) path.segments := by
  intro part hpart content hfile
  have hsame := tree.sameFiles_makeDirectories path
  rw [h] at hsame
  have hreaches := reaches_of_makeDirectories h
  have hfollow := hreaches.follow
  rw [origin_congr hsame.home] at hfollow
  have hplace := follow_eq_ok_of_isName hnames hfollow
  have hdirectory : tree'.find? (tree.origin path ++ part) = some .directory := by
    by_cases hall : part = path.segments
    · rw [hall, ← hplace]
      exact hreaches.found
    · exact find?_of_follow hnames hfollow hpart hall
  rw [hsame.find?_eq_file_iff.2 hfile] at hdirectory
  cases hdirectory

/-- The path of a directory and that of an entry of it are made of proper names, and neither of them
is too long. -/
structure IsNamed (directory : Path) (name : String) : Prop where
  isName : ∀ segment ∈ directory.segments ++ [name], IsName segment
  check : checkPath directory = .ok ()
  checkEntry : checkPath (directory.child name) = .ok ()

theorem IsNamed.segments {directory : Path} (h : IsNamed directory name) :
    ∀ name ∈ directory.segments, IsName name :=
  fun segment hsegment => h.isName segment (List.mem_append_left _ hsegment)

theorem IsNamed.entry {directory : Path} (h : IsNamed directory name) : IsName name :=
  h.isName name (List.mem_append_right _ List.mem_cons_self)

section File

variable {directory : Path} (content : String) (hnamed : IsNamed directory name)

include hnamed

theorem performAll_of_not_isClear
    (h : ¬tree.IsClear (tree.origin directory) directory.segments) :
    ∃ fault tree', tree.performAll [.makeDirectories directory,
        .write (directory.child name) content] = (.error fault, tree') ∧ SameFiles tree tree' := by
  have hsame := tree.sameFiles_makeDirectories directory
  rw [performAll, perform]
  cases hmake : tree.makeDirectories directory with
  | mk result tree' =>
    rw [hmake] at hsame
    cases result with
    | ok => exact absurd (isClear_of_makeDirectories hnamed.segments hmake) h
    | error fault => exact ⟨fault, tree', rfl, hsame⟩

variable (hstart : tree.find? (tree.origin directory) = some .directory)

include hstart

theorem IsClear.exists_opened (h : tree.IsClear (tree.origin directory) directory.segments) :
    ∃ opened, tree.makeDirectories directory = (.ok (), opened) ∧
      Opens tree opened (tree.origin directory) directory.segments ∧
      opened.Reaches directory (tree.origin directory ++ directory.segments) ∧
      opened.find? (tree.origin directory ++ directory.segments ++ [name]) =
        tree.find? (tree.origin directory ++ directory.segments ++ [name]) := by
  obtain ⟨opened, hmake, hopens⟩ := h.makeDirectories hnamed.check hnamed.segments hstart
  have hreaches := reaches_of_makeDirectories hmake
  rw [place, walk_of_isName hnamed.segments] at hreaches
  refine ⟨opened, hmake, hopens, hreaches, ?_⟩
  rw [hopens.find?, if_neg]
  exact fun hopened => not_concat_prefix_self hopened.2

theorem IsClear.performAll_of_directory
    (h : tree.IsClear (tree.origin directory) directory.segments)
    (hfound : tree.find? (tree.origin directory ++ directory.segments ++ [name]) =
      some .directory) :
    ∃ fault tree', tree.performAll [.makeDirectories directory,
        .write (directory.child name) content] = (.error fault, tree') ∧ SameFiles tree tree' := by
  obtain ⟨opened, hmake, -, hreaches, hsame⟩ := h.exists_opened hnamed hstart
  have hwrite : opened.write (directory.child name) content = .error .isDirectory := by
    rw [write, hnamed.checkEntry, hreaches.follow_child hnamed.entry]
    exact if_pos (hsame.trans hfound)
  have hfiles := tree.sameFiles_makeDirectories directory
  rw [hmake] at hfiles
  refine ⟨.isDirectory, opened, ?_, hfiles⟩
  simp only [performAll, perform, hmake, hwrite]

theorem IsClear.performAll_of_not_directory
    (h : tree.IsClear (tree.origin directory) directory.segments)
    (hfree : tree.find? (tree.origin directory ++ directory.segments ++ [name]) ≠
      some .directory) :
    ∃ opened tree', tree.performAll [.makeDirectories directory,
        .write (directory.child name) content] = (.ok (), tree') ∧
      Opens tree opened (tree.origin directory) directory.segments ∧
      Changes opened tree' (tree.origin directory ++ directory.segments ++ [name])
        (.file content) := by
  obtain ⟨opened, hmake, hopens, hreaches, hsame⟩ := h.exists_opened hnamed hstart
  have hplace : opened.find? (tree.origin directory ++ directory.segments ++ [name]) ≠
      some .directory := by
    rwa [hsame]
  obtain ⟨tree', hwrite, hchanges⟩ :=
    hreaches.write_child hnamed.entry hnamed.checkEntry hplace content
  refine ⟨opened, tree', ?_, hopens, hchanges⟩
  simp only [performAll, perform, hmake, hwrite]

end File

end FileTree

end SoliditySynth
