import Mathlib.Data.List.Nodup
import SoliditySynth.Proofs.UnitFiles

namespace SoliditySynth

namespace FileTree

/-- The files of the tree are those of the given units, below the output directory in its home. -/
structure HasUnits (tree : FileTree) (home : Location) (seed : Int)
    (units : List (String × String)) : Prop where
  home_eq : tree.home = home
  fileAt?_iff (location : Location) (content : String) : tree.fileAt? location = some content ↔
    ∃ unit ∈ units, home ++ unitNames seed unit.1 = location ∧ unit.2 = content

/-- The files of the tree are those of the given units, and its directories are the ones on the way
to these files, the output directory and those above it. -/
structure Holds (tree : FileTree) (home : Location) (seed : Int)
    (units : List (String × String)) : Prop where
  files : tree.HasUnits home seed units
  directories (location : Location) : tree.find? location = some .directory ↔
    location <+: home ++ ["out"] ∨
      ∃ unit ∈ units, IsOnWayTo location (home ++ unitNames seed unit.1)

section Step

variable {tree tree' : FileTree} {home : Location} {seed : Int} {units : List (String × String)}
  {path : String} {directory : Path} {name : String}

theorem HasUnits.congr (h : tree.HasUnits home seed units) (hsame : SameFiles tree tree') :
    tree'.HasUnits home seed units := by
  refine ⟨hsame.home.trans h.home_eq, fun location content => ?_⟩
  rw [hsame.fileAt?]
  exact h.fileAt?_iff location content

theorem HasUnits.origin_eq (h : tree.HasUnits home seed units)
    (hfiled : IsFiledIn seed path directory name) : tree.origin directory = home := by
  rw [origin, hfiled.anchor]
  exact h.home_eq

theorem HasUnits.origin_append (h : tree.HasUnits home seed units)
    (hfiled : IsFiledIn seed path directory name) :
    tree.origin directory ++ directory.segments ++ [name] = home ++ unitNames seed path := by
  rw [h.origin_eq hfiled, hfiled.segments, List.append_assoc]

theorem HasUnits.find?_eq_file_iff (h : tree.HasUnits home seed units) {location : Location}
    {content : String} : tree.find? location = some (.file content) ↔
      ∃ unit ∈ units, home ++ unitNames seed unit.1 = location ∧ unit.2 = content := by
  rw [FileTree.find?_eq_file_iff, h.fileAt?_iff]
  constructor
  · exact fun hfile => hfile.2
  · rintro ⟨unit, hunit, rfl, hcontent⟩
    exact ⟨by simp [unitNames], unit, hunit, rfl, hcontent⟩

theorem HasUnits.isClear_iff (h : tree.HasUnits home seed units)
    (hfiled : IsFiledIn seed path directory name) :
    tree.IsClear (tree.origin directory) directory.segments ↔
      ∀ unit ∈ units, ¬Path.IsAbove unit.1 path := by
  rw [h.origin_eq hfiled]
  constructor
  · intro hclear unit hunit habove
    exact hclear _ (hfiled.isAbove_iff.1 habove) unit.2
      (h.find?_eq_file_iff.2 ⟨unit, hunit, rfl, rfl⟩)
  · intro hnone part hpart content hfile
    obtain ⟨unit, hunit, hplace, -⟩ := h.find?_eq_file_iff.1 hfile
    obtain rfl := List.append_cancel_left hplace
    exact hnone unit hunit (hfiled.isAbove_iff.2 hpart)

theorem unitNames_not_above_out (home : Location) (seed : Int) (path : String) :
    ¬home ++ unitNames seed path <+: home ++ ["out"] := by
  intro hpre
  have hlength := hpre.length_le
  simp [unitNames] at hlength

theorem Holds.find?_eq_directory_iff (h : tree.Holds home seed units) :
    tree.find? (home ++ unitNames seed path) = some .directory ↔
      ∃ unit ∈ units, Path.IsAbove path unit.1 := by
  rw [h.directories, or_iff_right (unitNames_not_above_out home seed path)]
  simp only [isOnWayTo_append_left_iff, isAbove_iff seed]

theorem Holds.find?_origin (h : tree.Holds home seed units)
    (hfiled : IsFiledIn seed path directory name) :
    tree.find? (tree.origin directory) = some .directory := by
  rw [h.files.origin_eq hfiled]
  exact (h.directories _).2 (.inl (List.prefix_append _ _))

variable (hplain : Path.IsPlain path) (hallows : Allows (Path.ofText (unitFile seed path)))

include hplain hallows

theorem Holds.unit_refused (h : tree.Holds home seed units) (content : String)
    (hclash : ∃ unit ∈ units, Path.Clash unit.1 path) :
    ∃ fault tree', tree.performAll (Plan.unitActions (programDirectory seed) (path, content)) =
      (.error fault, tree') ∧ SameFiles tree tree' := by
  obtain ⟨directory, name, hfiled⟩ := exists_isFiledIn seed path
  have hnamed := hallows.isNamed hplain hfiled
  rw [hfiled.unitActions_eq hplain]
  by_cases hclear : tree.IsClear (tree.origin directory) directory.segments
  · -- The way is clear, so the unit's own place is one on the way to another unit.
    obtain ⟨unit, hunit, habove | habove⟩ := hclash
    · exact absurd habove ((h.files.isClear_iff hfiled).1 hclear unit hunit)
    · apply hclear.performAll_of_directory content hnamed (h.find?_origin hfiled)
      rw [h.files.origin_append hfiled]
      exact h.find?_eq_directory_iff.2 ⟨unit, hunit, habove⟩
  · exact performAll_of_not_isClear content hnamed hclear

theorem HasUnits.unit_written (h : tree.HasUnits home seed units) {content : String}
    (hnew : path ∉ units.map Prod.fst)
    (hperform : tree.performAll (Plan.unitActions (programDirectory seed) (path, content)) =
      (.ok (), tree')) : tree'.HasUnits home seed (units ++ [(path, content)]) := by
  obtain ⟨hhome, hfiles⟩ := performAll_unitActions hperform
  have hplace : tree.unitPlace (programDirectory seed) path = home ++ unitNames seed path := by
    rw [unitPlace, programDirectory_join hplain, place, walk_of_isName (hallows.isName hplain)]
    exact congrArg (· ++ unitNames seed path) h.home_eq
  refine ⟨hhome.trans h.home_eq, fun location content' => ?_⟩
  rw [hfiles, hplace]
  simp only [List.mem_append, List.mem_singleton]
  by_cases hhere : home ++ unitNames seed path = location
  · rw [if_pos hhere, Option.some.injEq]
    constructor
    · exact fun hcontent => ⟨_, .inr rfl, hhere, hcontent⟩
    · rintro ⟨unit, hunit | rfl, hthere, hcontent⟩
      · have hpath := unitNames_inj (List.append_cancel_left (hthere.trans hhere.symm))
        exact absurd (hpath ▸ List.mem_map_of_mem hunit) hnew
      · exact hcontent
  · rw [if_neg hhere, h.fileAt?_iff]
    constructor
    · rintro ⟨unit, hunit, hthere⟩
      exact ⟨unit, .inl hunit, hthere⟩
    · rintro ⟨unit, hunit | rfl, hthere⟩
      · exact ⟨unit, hunit, hthere⟩
      · exact absurd hthere.1 hhere

omit hplain hallows in
theorem Holds.directories_written (h : tree.Holds home seed units) {content : String}
    (hfiled : IsFiledIn seed path directory name) {opened : FileTree}
    (hfree : ∀ unit ∈ units, ¬Path.IsAbove path unit.1)
    (hopens : Opens tree opened (tree.origin directory) directory.segments)
    (hchanges : Changes opened tree' (home ++ unitNames seed path) (.file content))
    (location : Location) : tree'.find? location = some .directory ↔
      location <+: home ++ ["out"] ∨ ∃ unit ∈ units ++ [(path, content)],
        IsOnWayTo location (home ++ unitNames seed unit.1) := by
  have hway : IsOnWayTo location (home ++ unitNames seed path) ↔
      location <+: home ++ directory.segments := by
    rw [hfiled.segments, ← List.append_assoc, isOnWayTo_concat_iff]
  simp only [List.mem_append, List.mem_singleton]
  rw [hchanges.find?, hopens.find?, h.files.origin_eq hfiled]
  by_cases hhere : home ++ unitNames seed path = location
  · subst hhere
    rw [if_pos rfl]
    constructor
    · exact nofun
    · rintro (hpre | ⟨unit, hunit | rfl, hunitWay⟩)
      · exact absurd hpre (unitNames_not_above_out _ _ _)
      · rw [isOnWayTo_append_left_iff] at hunitWay
        exact absurd ((isAbove_iff seed).2 hunitWay) (hfree unit hunit)
      · exact absurd rfl hunitWay.2
  · rw [if_neg hhere]
    by_cases hopened : home <+: location ∧ location <+: home ++ directory.segments
    · rw [if_pos hopened]
      exact ⟨fun _ => .inr ⟨_, .inr rfl, hway.2 hopened.2⟩, fun _ => rfl⟩
    · rw [if_neg hopened, h.directories]
      constructor
      · rintro (hpre | ⟨unit, hunit, hunitWay⟩)
        · exact .inl hpre
        · exact .inr ⟨unit, .inl hunit, hunitWay⟩
      · rintro (hpre | ⟨unit, hunit | rfl, hunitWay⟩)
        · exact .inl hpre
        · exact .inr ⟨unit, hunit, hunitWay⟩
        · -- What is on the way but not below the home directory is above it.
          have hpre := hway.1 hunitWay
          rcases List.prefix_or_prefix_of_prefix hpre (List.prefix_append _ _) with hup | hdown
          · exact .inl (hup.trans (List.prefix_append _ _))
          · exact absurd ⟨hdown, hpre⟩ hopened

theorem Holds.unit_written (h : tree.Holds home seed units) (content : String)
    (hnew : path ∉ units.map Prod.fst) (hfree : ∀ unit ∈ units, ¬Path.Clash unit.1 path) :
    ∃ tree', tree.performAll (Plan.unitActions (programDirectory seed) (path, content)) =
      (.ok (), tree') ∧ tree'.Holds home seed (units ++ [(path, content)]) := by
  obtain ⟨directory, name, hfiled⟩ := exists_isFiledIn seed path
  have hnamed := hallows.isNamed hplain hfiled
  have hclear : tree.IsClear (tree.origin directory) directory.segments :=
    (h.files.isClear_iff hfiled).2 fun unit hunit habove => hfree unit hunit (.inl habove)
  have hbelow : ∀ unit ∈ units, ¬Path.IsAbove path unit.1 :=
    fun unit hunit habove => hfree unit hunit (.inr habove)
  have hplace : tree.find? (tree.origin directory ++ directory.segments ++ [name]) ≠
      some .directory := by
    rw [h.files.origin_append hfiled, ne_eq, h.find?_eq_directory_iff]
    rintro ⟨unit, hunit, habove⟩
    exact hbelow unit hunit habove
  obtain ⟨opened, tree', hperform, hopens, hchanges⟩ :=
    hclear.performAll_of_not_directory content hnamed (h.find?_origin hfiled) hplace
  rw [h.files.origin_append hfiled] at hchanges
  rw [← hfiled.unitActions_eq hplain] at hperform
  exact ⟨tree', hperform, h.files.unit_written hplain hallows hnew hperform,
    h.directories_written hfiled hbelow hopens hchanges⟩

end Step

/-- No unit's path leads through that of an earlier one, nor the other way round. -/
def ClashFree (units : List (String × String)) : Prop :=
  units.Pairwise fun earlier later => ¬Path.Clash earlier.1 later.1

theorem clashFree_iff {units : List (String × String)} :
    ClashFree units ↔ ∀ unit ∈ units, ∀ unit' ∈ units, ¬Path.IsAbove unit.1 unit'.1 := by
  constructor
  · intro h unit hunit unit' hunit' habove
    have hflip : units.Pairwise (flip fun unit unit' => ¬Path.Clash unit.1 unit'.1) :=
      h.imp fun hne hclash => hne (Or.symm hclash)
    have hself : ∀ unit ∈ units, ¬Path.Clash unit.1 unit.1 := by
      rintro unit - (hself | hself)
      · exact hself.2 rfl
      · exact hself.2 rfl
    exact List.Pairwise.forall_of_forall_of_flip hself h hflip hunit hunit' (.inl habove)
  · intro h
    apply List.pairwise_of_forall_mem_list
    rintro unit hunit unit' hunit' (habove | habove)
    · exact h unit hunit unit' hunit' habove
    · exact h unit' hunit' unit hunit habove

theorem not_clashFree {before after : List (String × String)} {unit : String × String}
    (h : ∃ earlier ∈ before, Path.Clash earlier.1 unit.1) :
    ¬ClashFree (before ++ unit :: after) := by
  intro hfree
  obtain ⟨earlier, hearlier, hclash⟩ := h
  exact (List.pairwise_append.1 hfree).2.2 earlier hearlier unit List.mem_cons_self hclash

/-- Units are written up to the first one that clashes with one of those before it. -/
theorem Holds.performAll_units {tree : FileTree} {home : Location} {seed : Int}
    {done units : List (String × String)}
    (h : tree.Holds home seed done) (hdone : ClashFree done)
    (hnodup : ((done ++ units).map Prod.fst).Nodup)
    (hplain : ∀ unit ∈ units, Path.IsPlain unit.1)
    (hallows : ∀ unit ∈ units, Allows (Path.ofText (unitFile seed unit.1))) :
    match tree.performAll (units.flatMap (Plan.unitActions (programDirectory seed))) with
    | (.ok (), tree') => ClashFree (done ++ units) ∧ tree'.HasUnits home seed (done ++ units)
    | (.error _, tree') => ∃ before unit after, done ++ units = before ++ unit :: after ∧
        ClashFree before ∧ (∃ earlier ∈ before, Path.Clash earlier.1 unit.1) ∧
        tree'.HasUnits home seed before := by
  -- What has been written so far clashes with nothing that follows until a clash stops the run.
  induction units generalizing tree done with
  | nil =>
    rw [List.append_nil]
    exact ⟨hdone, h.files⟩
  | cons unit units ih =>
    have hplainUnit := hplain unit List.mem_cons_self
    have hallowsUnit := hallows unit List.mem_cons_self
    rw [List.flatMap_cons, performAll_append]
    by_cases hclash : ∃ earlier ∈ done, Path.Clash earlier.1 unit.1
    · obtain ⟨fault, tree', hperform, hsame⟩ :=
        h.unit_refused hplainUnit hallowsUnit unit.2 hclash
      rw [hperform]
      exact ⟨done, unit, units, rfl, hdone, hclash, h.files.congr hsame⟩
    · have hfree : ∀ earlier ∈ done, ¬Path.Clash earlier.1 unit.1 :=
        fun earlier hearlier hclash' => hclash ⟨earlier, hearlier, hclash'⟩
      have hnew : unit.1 ∉ done.map Prod.fst := by
        intro hmem
        rw [List.map_append, List.map_cons] at hnodup
        exact (List.nodup_append.1 hnodup).2.2 _ hmem _ List.mem_cons_self rfl
      obtain ⟨tree', hperform, hwritten⟩ := h.unit_written hplainUnit hallowsUnit unit.2 hnew hfree
      have hdone' : ClashFree (done ++ [unit]) := by
        refine List.pairwise_append.2 ⟨hdone, List.pairwise_singleton _ _, ?_⟩
        intro earlier hearlier later hlater
        rw [List.mem_singleton.1 hlater]
        exact hfree earlier hearlier
      rw [List.append_cons] at hnodup ⊢
      have hrest := ih hwritten hdone' hnodup
        (fun later hlater => hplain later (List.mem_cons_of_mem _ hlater))
        (fun later hlater => hallows later (List.mem_cons_of_mem _ hlater))
      rw [hperform]
      exact hrest

end FileTree

end SoliditySynth
