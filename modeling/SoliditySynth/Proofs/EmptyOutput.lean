import SoliditySynth.Proofs.PathClashes

namespace SoliditySynth

theorem OrderedMap.lookup_of_mem {κ α : Type} [DecidableEq κ] {k : κ} {v : α} {es : List (κ × α)}
    (hnodup : (es.map Prod.fst).Nodup) (h : (k, v) ∈ es) : lookup k es = some v := by
  induction es with
  | nil => cases h
  | cons e es ih =>
    rw [List.map_cons, List.nodup_cons] at hnodup
    rw [lookup]
    rcases List.mem_cons.1 h with rfl | hlater
    · rw [if_pos rfl]
    · rw [if_neg, ih hnodup.2 hlater]
      exact fun hkey => hnodup.1 (List.mem_map.2 ⟨_, hlater, hkey.symm⟩)

namespace FileTree

/-- A tree whose home directory holds the empty directory `out` and nothing else. -/
def emptyOutput (home : Location) : FileTree :=
  ((ofHome home).makeDirectories (Path.ofText "out")).2

theorem find?_foldl_insert (places : List Location) (nodes : OrderedMap Location Node)
    (location : Location) :
    (places.foldl (fun nodes place => nodes.insert place .directory) nodes).find? location =
      if location ∈ places then some .directory else nodes.find? location := by
  induction places generalizing nodes with
  | nil => simp
  | cons place places ih =>
    rw [List.foldl_cons, ih, OrderedMap.find?_insert]
    by_cases hlater : location ∈ places
    · rw [if_pos hlater, if_pos (List.mem_cons_of_mem _ hlater)]
    · have hhere : location ∈ place :: places ↔ place = location := by simp [hlater, eq_comm]
      rw [if_neg hlater]
      simp only [hhere]

theorem nodes_ofHome (home location : Location) : (ofHome home).nodes.find? location =
    if location <+: home ∧ location ≠ [] then some .directory else none := by
  have hplaces : location ∈ (List.range home.length).map (fun n => home.take (n + 1)) ↔
      location <+: home ∧ location ≠ [] := by
    rw [List.mem_map]
    constructor
    · rintro ⟨n, hn, rfl⟩
      refine ⟨List.take_prefix _ _, fun hnil => ?_⟩
      have hlength := congrArg List.length hnil
      have := List.mem_range.1 hn
      rw [List.length_take, List.length_nil] at hlength
      omega
    · rintro ⟨hpre, hne⟩
      have hpos := List.length_pos_iff.2 hne
      have hle := hpre.length_le
      refine ⟨location.length - 1, List.mem_range.2 (by omega), ?_⟩
      rw [Nat.sub_add_cancel hpos]
      exact (List.prefix_iff_eq_take.1 hpre).symm
  rw [ofHome, ← List.foldl_map (f := fun n => home.take (n + 1))
    (g := fun nodes place => OrderedMap.insert nodes place Node.directory), find?_foldl_insert]
  simp only [hplaces]
  rfl

theorem find?_ofHome (home location : Location) :
    (ofHome home).find? location = if location <+: home then some .directory else none := by
  rw [find?, nodes_ofHome]
  by_cases hroot : location = []
  · rw [if_pos hroot, if_pos (hroot ▸ List.nil_prefix)]
  · simp only [hroot, if_false, ne_eq, not_false_eq_true, and_true]

theorem fileAt?_ofHome (home location : Location) : (ofHome home).fileAt? location = none := by
  rw [fileAt?, nodes_ofHome]
  split
  · next hfile =>
    split at hfile
    · cases hfile
    · cases hfile
  · rfl

theorem opens_emptyOutput (home : Location) :
    Opens (ofHome home) (emptyOutput home) home ["out"] := by
  have hclear : (ofHome home).IsClear ((ofHome home).origin ⟨.relative, ["out"]⟩)
      (Path.segments ⟨.relative, ["out"]⟩) := by
    intro part hpart content
    rw [find?_ofHome]
    split <;> simp
  have hnames : ∀ name ∈ ["out"], IsName name := by
    intro name hname
    rw [List.mem_singleton.1 hname]
    exact ⟨by decide, by decide, by decide, by decide, by decide, by decide⟩
  have hstart : (ofHome home).find? home = some .directory := by
    rw [find?_ofHome, if_pos (List.prefix_refl home)]
  obtain ⟨tree, hmake, hopens⟩ := hclear.makeDirectories (by decide) hnames hstart
  rw [emptyOutput, ofText_out, hmake]
  exact hopens

theorem holds_emptyOutput (home : Location) (seed : Int) :
    (emptyOutput home).Holds home seed [] := by
  have hopens := opens_emptyOutput home
  have hsame := (ofHome home).sameFiles_makeDirectories (Path.ofText "out")
  refine ⟨⟨hopens.home, fun location content => ?_⟩, fun location => ?_⟩
  · rw [emptyOutput, hsame.fileAt?, fileAt?_ofHome]
    simp
  · rw [hopens.find?, find?_ofHome]
    constructor
    · intro hfound
      split at hfound
      · next hopened => exact .inl hopened.2
      · split at hfound
        · next hup => exact .inl (hup.trans (List.prefix_append _ _))
        · cases hfound
    · rintro (hpre | ⟨unit, hunit, -⟩)
      · rcases List.prefix_or_prefix_of_prefix hpre (List.prefix_append home ["out"]) with
          hup | hdown
        · rw [if_pos hup]
          split <;> rfl
        · rw [if_pos ⟨hdown, hpre⟩]
      · cases hunit

theorem HasUnits.contents_perm {tree : FileTree} {home : Location} {seed : Int}
    {units : List (String × String)} (h : tree.HasUnits home seed units)
    (hnodup : (units.map Prod.fst).Nodup) :
    tree.contents.Perm (units.map fun unit => (home ++ unitNames seed unit.1, unit.2)) := by
  have hplaces : (units.map fun unit => (home ++ unitNames seed unit.1, unit.2)).Nodup := by
    apply List.Nodup.of_map Prod.fst
    have hfst : (units.map fun unit => (home ++ unitNames seed unit.1, unit.2)).map Prod.fst =
        (units.map Prod.fst).map fun path => home ++ unitNames seed path := by
      rw [List.map_map, List.map_map]
      rfl
    rw [hfst]
    exact hnodup.map fun _ _ hplace => unitNames_inj (List.append_cancel_left hplace)
  refine (List.perm_ext_iff_of_nodup (List.Nodup.of_map _ tree.nodup_places) hplaces).2 ?_
  rintro ⟨location, content⟩
  rw [mem_contents, h.fileAt?_iff, List.mem_map]
  simp only [Prod.mk.injEq]

theorem files_perm (tree : FileTree) :
    tree.files.Perm (tree.contents.filterMap fun (location, content) =>
      if tree.home.isPrefixOf location then
        some ("/".intercalate (location.drop tree.home.length), content)
      else none) := by
  refine (List.mergeSort_perm _ _).trans (List.Perm.of_eq ?_)
  rw [contents, OrderedMap.keys, List.filterMap_map, List.filterMap_filterMap]
  apply List.filterMap_congr
  rintro ⟨location, node⟩ hentry
  have hfind : tree.nodes.find? location = some node :=
    OrderedMap.lookup_of_mem tree.nodes.keys_nodup hentry
  simp only [Function.comp_apply, fileAt?, hfind]
  cases node with
  | directory => rfl
  | file content => rfl

theorem HasUnits.files_perm {tree : FileTree} {home : Location} {seed : Int}
    {units : List (String × String)} (h : tree.HasUnits home seed units)
    (hnodup : (units.map Prod.fst).Nodup) :
    tree.files.Perm (units.map fun unit => (unitFile seed unit.1, unit.2)) := by
  refine (FileTree.files_perm tree).trans
    (((h.contents_perm hnodup).filterMap _).trans (List.Perm.of_eq ?_))
  rw [List.filterMap_map, ← List.filterMap_eq_map, h.home_eq]
  apply List.filterMap_congr
  intro unit _
  have hbelow : home.isPrefixOf (home ++ unitNames seed unit.1) = true :=
    List.isPrefixOf_iff_prefix.2 (List.prefix_append _ _)
  have hname : "/".intercalate (unitNames seed unit.1) = unitFile seed unit.1 := by
    rw [← fields_unitFile, Path.intercalate_fields]
  simp only [Function.comp_apply, hbelow, if_true, List.drop_left, hname]

theorem writeProgram_perUnit (tree : FileTree) (seed : Int) {program : String} {bundle : Bundle}
    (hbundle : Bundle.ofProgram program = .ok bundle) :
    tree.writeProgram .perUnit (Path.ofText "out") seed program =
      match tree.performAll
        (bundle.entries.flatMap (Plan.unitActions (programDirectory seed))) with
      | (.ok (), tree') => (.ok (programDirectory seed), tree')
      | (.error fault, tree') => (.error (.writing fault), tree') := by
  rw [FileTree.writeProgram, Plan.ofProgram, hbundle]
  rfl

/-- The files of the tree are exactly those of the given units of a program. -/
structure KeepsExactly (tree : FileTree) (home : Location) (seed : Int)
    (units : List (String × String)) : Prop where
  files : tree.files.Perm (units.map fun unit => (s!"out/seed_{seed}/{unit.1}", unit.2))
  contents : tree.contents.Perm
    (units.map fun unit => (home ++ Path.fields s!"out/seed_{seed}/{unit.1}", unit.2))

theorem HasUnits.keepsExactly {tree : FileTree} {home : Location} {seed : Int}
    {units : List (String × String)} (h : tree.HasUnits home seed units)
    (hnodup : (units.map Prod.fst).Nodup) : tree.KeepsExactly home seed units := by
  refine ⟨h.files_perm hnodup, ?_⟩
  have hcontents := h.contents_perm hnodup
  simp only [← fields_unitFile] at hcontents
  exact hcontents

theorem writeProgram_emptyOutput (home : Location) (seed : Int) {program : String}
    {bundle : Bundle} (hbundle : Bundle.ofProgram program = .ok bundle)
    (hplain : ∀ path ∈ bundle.keys, Path.IsPlain path)
    (hallows : ∀ path ∈ bundle.keys, Allows (Path.ofText (unitFile seed path))) :
    match (emptyOutput home).writeProgram .perUnit (Path.ofText "out") seed program with
    | (.ok _, tree') =>
        ClashFree bundle.entries ∧ tree'.KeepsExactly home seed bundle.entries
    | (.error _, tree') => ∃ before unit after, bundle.entries = before ++ unit :: after ∧
        ClashFree before ∧ (∃ earlier ∈ before, Path.Clash earlier.1 unit.1) ∧
        tree'.KeepsExactly home seed before := by
  have hunits := (holds_emptyOutput home seed).performAll_units .nil bundle.keys_nodup
    (fun unit hunit => hplain unit.1 (List.mem_map_of_mem hunit))
    (fun unit hunit => hallows unit.1 (List.mem_map_of_mem hunit))
  rw [List.nil_append] at hunits
  rw [writeProgram_perUnit _ seed hbundle]
  generalize (emptyOutput home).performAll
    (bundle.entries.flatMap (Plan.unitActions (programDirectory seed))) = outcome at hunits ⊢
  obtain ⟨result, tree'⟩ := outcome
  cases result with
  | ok => exact ⟨hunits.1, hunits.2.keepsExactly bundle.keys_nodup⟩
  | error fault =>
    obtain ⟨before, unit, after, hsplit, hfree, hclash, hfiles⟩ := hunits
    have hsplit : bundle.entries = before ++ unit :: after := hsplit
    have hnodup := bundle.keys_nodup
    rw [hsplit, List.map_append] at hnodup
    exact ⟨before, unit, after, hsplit, hfree, hclash,
      hfiles.keepsExactly (List.nodup_append.1 hnodup).1⟩

theorem writeProgram_eq_splitting (tree : FileTree) {layout : Layout} (out : Path) (seed : Int)
    {program : String} {fault : SplitFault} (hfault : Bundle.ofProgram program = .error fault)
    (hlayout : layout = .perUnit ∨ layout = .single .standardJson) :
    tree.writeProgram layout out seed program = (.error (.splitting fault), tree) := by
  rcases hlayout with rfl | rfl
  · rw [FileTree.writeProgram, Plan.ofProgram, hfault]
    rfl
  · rw [FileTree.writeProgram, Plan.ofProgram, Format.render, hfault]
    rfl

end FileTree

/-- A program that cannot be taken apart is not written, neither unit by unit nor as JSON. One that
can be is written unit by unit into an empty output directory just if none of its paths leads
through another one, and then the files are those of its units. If it fails, the files that are left
are those of the units before the first one that clashes with an earlier one. -/
theorem splitOutput_outcome (home : Location) (seed : Int) (program : String) :
    let tree := FileTree.emptyOutput home
    let out := Path.ofText "out"
    (∀ fault, Bundle.ofProgram program = .error fault →
      ∀ layout, layout = .perUnit ∨ layout = .single .standardJson →
        tree.writeProgram layout out seed program = (.error (.splitting fault), tree)) ∧
    ∀ bundle, Bundle.ofProgram program = .ok bundle →
      (∀ path ∈ bundle.keys, Path.IsPlain path) →
      (∀ path ∈ bundle.keys, FileTree.Allows (Path.ofText s!"out/seed_{seed}/{path}")) →
      let outcome := tree.writeProgram .perUnit out seed program
      ((∃ target, outcome.1 = .ok target) ↔
        ∀ path ∈ bundle.keys, ∀ path' ∈ bundle.keys, ¬Path.IsAbove path path') ∧
      (∀ target, outcome.1 = .ok target → outcome.2.KeepsExactly home seed bundle.entries) ∧
      ∀ failure, outcome.1 = .error failure →
        ∃ before unit after, bundle.entries = before ++ unit :: after ∧
          before.Pairwise (fun earlier later => ¬Path.Clash earlier.1 later.1) ∧
          (∃ earlier ∈ before, Path.Clash earlier.1 unit.1) ∧
          outcome.2.KeepsExactly home seed before := by
  intro tree out
  refine ⟨fun fault hfault layout => tree.writeProgram_eq_splitting out seed hfault, ?_⟩
  intro bundle hbundle hplain hallows
  have hkeys : FileTree.ClashFree bundle.entries ↔
      ∀ path ∈ bundle.keys, ∀ path' ∈ bundle.keys, ¬Path.IsAbove path path' := by
    rw [FileTree.clashFree_iff, OrderedMap.keys]
    simp only [List.forall_mem_map]
  have hwritten := FileTree.writeProgram_emptyOutput home seed hbundle hplain hallows
  generalize tree.writeProgram .perUnit out seed program = outcome at hwritten ⊢
  obtain ⟨result, tree'⟩ := outcome
  cases result with
  | ok target =>
    obtain ⟨hfree, hkeeps⟩ := hwritten
    refine ⟨⟨fun _ => hkeys.1 hfree, fun _ => ⟨target, rfl⟩⟩, fun _ _ => hkeeps, ?_⟩
    rintro failure ⟨⟩
  | error failure =>
    obtain ⟨before, unit, after, hsplit, hfree, hclash, hkeeps⟩ := hwritten
    refine ⟨⟨?_, fun hnone => ?_⟩, ?_,
      fun _ _ => ⟨before, unit, after, hsplit, hfree, hclash, hkeeps⟩⟩
    · rintro ⟨target, ⟨⟩⟩
    · exact absurd (hsplit ▸ hkeys.2 hnone) (FileTree.not_clashFree hclash)
    · rintro target ⟨⟩

def clashingPaths : String :=
  "==== Source: lib/a ====\nA\n==== Source: b ====\nB\n==== Source: lib ====\nC\n" ++
    "==== Source: d ====\nD\n"

theorem splitOutput_outcome_clashing :
    splitInScratch "A\n" = (.error (.splitting .noHeader), scratch) ∧
      (splitInScratch clashingPaths).1 = .error (.writing .isDirectory) ∧
      (splitInScratch clashingPaths).2.KeepsExactly ["scratch"] 7
        [("lib/a", "A\n"), ("b", "B\n")] := by
  let bundle : Bundle :=
    ⟨[("lib/a", "A\n"), ("b", "B\n"), ("lib", "C\n"), ("d", "D\n")], by decide +kernel⟩
  obtain ⟨hheader, hbundle, herror, hlength⟩ : Bundle.ofProgram "A\n" = .error .noHeader ∧
      Bundle.ofProgram clashingPaths = .ok bundle ∧
      (splitInScratch clashingPaths).1 = .error (.writing .isDirectory) ∧
      (splitInScratch clashingPaths).2.contents.length = 2 := by
    decide +kernel
  have hplain : ∀ path ∈ bundle.keys, Path.IsPlain path := by
    unfold Path.IsPlain
    decide +kernel
  have hallows : ∀ path ∈ bundle.keys,
      FileTree.Allows (Path.ofText s!"out/seed_{(7 : Int)}/{path}") := by
    have hchecks : ∀ path ∈ bundle.keys,
        FileTree.checkPath (Path.ofText s!"out/seed_{(7 : Int)}/{path}") = .ok () ∧
          ∀ name ∈ (Path.ofText s!"out/seed_{(7 : Int)}/{path}").segments,
            name.utf8ByteSize ≤ FileTree.nameLimit := by
      decide +kernel
    exact fun path hpath => ⟨(hchecks path hpath).1, (hchecks path hpath).2⟩
  obtain ⟨hrefused, -⟩ := splitOutput_outcome ["scratch"] 7 "A\n"
  obtain ⟨-, hwritten⟩ := splitOutput_outcome ["scratch"] 7 clashingPaths
  obtain ⟨-, -, hfails⟩ := hwritten bundle hbundle hplain hallows
  obtain ⟨before, unit, after, hsplit, -, -, hkeeps⟩ := hfails _ herror
  have hcount : before.length = 2 := by
    rw [← hlength, ← List.length_map, ← hkeeps.contents.length_eq]
    rfl
  have hbefore : before = [("lib/a", "A\n"), ("b", "B\n")] := by
    have htake := congrArg (List.take 2) hsplit
    rw [List.take_left' hcount] at htake
    exact htake.symm
  rw [hbefore] at hkeeps
  exact ⟨hrefused .noHeader hheader .perUnit (.inl rfl), herror, hkeeps⟩

end SoliditySynth
