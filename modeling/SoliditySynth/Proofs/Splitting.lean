import Mathlib.Data.List.Basic
import SoliditySynth.Bundle

namespace SoliditySynth

namespace Header

def IsPath (path : String) : Prop := path ≠ "" ∧ ∀ c ∈ path.toList, Text.isBlank c = false

def IsHeader (l : String) : Prop := ∃ path, IsPath path ∧ l = "==== Source: " ++ path ++ " ===="

theorem between?_eq_some_iff {opening closing cs mid : List Char} :
    between? opening closing cs = some mid ↔ cs = opening ++ mid ++ closing := by
  constructor
  · intro h
    simp only [between?] at h
    split at h
    · next hopening =>
      obtain ⟨rest, rfl⟩ := List.isPrefixOf_iff_prefix.1 hopening
      rw [List.drop_left] at h
      split at h
      · next hclosing =>
        obtain ⟨mid', rfl⟩ := List.isSuffixOf_iff_suffix.1 hclosing
        simp only [List.length_append, Nat.add_sub_cancel, List.take_left, Option.some.injEq] at h
        rw [h, List.append_assoc]
      · cases h
    · cases h
  · rintro rfl
    have hopening : opening.isPrefixOf (opening ++ (mid ++ closing)) = true :=
      List.isPrefixOf_iff_prefix.2 (List.prefix_append _ _)
    have hclosing : closing.isSuffixOf (mid ++ closing) = true :=
      List.isSuffixOf_iff_suffix.2 (List.suffix_append _ _)
    simp only [between?, if_pos hopening, List.append_assoc, List.drop_left, if_pos hclosing,
      List.length_append, Nat.add_sub_cancel, List.take_left]

theorem toList_line (path : String) : (line path).toList = opening ++ path.toList ++ closing :=
  String.toList_ofList

theorem path?_eq_some_iff {l path : String} :
    path? l = some path ↔ IsPath path ∧ l = line path := by
  constructor
  · intro h
    unfold path? at h
    split at h
    · next cs hcs =>
      split at h
      · next hpath =>
        cases h
        refine ⟨⟨?_, ?_⟩, ?_⟩
        · intro hempty
          exact hpath.1 (by simpa using congrArg String.toList hempty)
        · simpa using hpath.2
        · apply String.toList_injective
          rw [toList_line, String.toList_ofList, between?_eq_some_iff.1 hcs]
      · cases h
    · cases h
  · rintro ⟨⟨hne, hblank⟩, rfl⟩
    have hcs : between? opening closing (line path).toList = some path.toList :=
      between?_eq_some_iff.2 (toList_line path)
    have hpath : path.toList ≠ [] ∧ path.toList.all (!Text.isBlank ·) := by
      refine ⟨fun h => hne (String.toList_eq_nil_iff.1 h), ?_⟩
      simpa using hblank
    simp only [path?, hcs, if_pos hpath, String.ofList_toList]

theorem path?_line {path : String} (h : IsPath path) : path? (line path) = some path :=
  path?_eq_some_iff.2 ⟨h, rfl⟩

theorem path?_eq_none_iff {l : String} : path? l = none ↔ ¬IsHeader l := by
  rw [Option.eq_none_iff_forall_ne_some]
  simp only [IsHeader, ne_eq, path?_eq_some_iff, line_eq, not_exists]

theorem path?_of_head {l : String} (h : l.toList.head? ≠ some '=') : path? l = none := by
  rw [path?_eq_none_iff]
  rintro ⟨path, -, rfl⟩
  apply h
  rw [← line_eq, toList_line]
  rfl

theorem newline_notMem_path {path : String} (h : IsPath path) : '\n' ∉ path.toList := by
  intro hmem
  exact absurd (h.2 _ hmem) (by decide)

theorem newline_notMem_line {path : String} (h : '\n' ∉ path.toList) :
    '\n' ∉ (line path).toList := by
  rw [toList_line, List.mem_append, List.mem_append]
  rintro ((hmem | hmem) | hmem)
  · exact absurd hmem (by decide)
  · exact h hmem
  · exact absurd hmem (by decide)

end Header

def Text.dropNewlines (s : String) : String := String.ofList (s.toList.dropWhile (· == '\n'))

theorem Text.trimNewlines_append_newline (s : String) :
    trimNewlines (s ++ "\n") = trimNewlines s := by
  have hnewline : (s ++ "\n").toList = s.toList ++ ['\n'] := String.toList_append
  simp only [trimNewlines, hnewline, List.dropWhile_append]
  split
  · next h =>
    rw [List.isEmpty_iff.1 h]
    rfl
  · simp

theorem Text.trimNewlines_of_last {s : String} {cs : List Char} {c : Char}
    (h : s.toList = cs ++ [c]) (hc : c ≠ '\n') : trimNewlines s = dropNewlines s := by
  have hdrop : ∃ ds, (cs ++ [c]).dropWhile (· == '\n') = ds ++ [c] := by
    rw [List.dropWhile_append]
    split
    · exact ⟨[], by simp [hc]⟩
    · exact ⟨_, rfl⟩
  obtain ⟨ds, hds⟩ := hdrop
  rw [trimNewlines, dropNewlines, h, hds]
  simp [hc]

def unitText (unit : String × String) : String :=
  Text.joinLines [Header.line unit.1, unit.2, ""]

namespace Bundle

theorem content_lines (body : String) :
    content (Text.lines body ++ [""]) = Text.trimNewlines body ++ "\n" := by
  rw [content, ← Text.lines_append_newline, Text.joinLines_lines, Text.trimNewlines_append_newline]

theorem sections_line {path : String} (h : Header.IsPath path) (ls : List String) :
    sections (Header.line path :: ls) =
      ⟨[], (path, (sections ls).preamble) :: (sections ls).units⟩ := by
  rw [sections, List.foldr_cons, Sections.cons, Header.path?_line h]
  rfl

theorem sections_append {ls : List String} (h : ∀ l ∈ ls, Header.path? l = none)
    (rest : List String) :
    sections (ls ++ rest) = ⟨ls ++ (sections rest).preamble, (sections rest).units⟩ := by
  induction ls with
  | nil => rfl
  | cons l ls ih =>
    have hrest := ih fun l' hl' => h l' (List.mem_cons_of_mem _ hl')
    rw [List.cons_append, sections, List.foldr_cons, Sections.cons, h l List.mem_cons_self,
      ← sections, hrest]
    rfl

/-- Headers with lines below them that are no headers come apart at the headers. -/
theorem sections_flatMap {units : List (String × List String)}
    (h : ∀ unit ∈ units, Header.IsPath unit.1 ∧ ∀ l ∈ unit.2, Header.path? l = none) :
    sections (units.flatMap fun unit => Header.line unit.1 :: unit.2) = ⟨[], units⟩ := by
  induction units with
  | nil => rfl
  | cons unit units ih =>
    have hrest := ih fun unit' hunit' => h unit' (List.mem_cons_of_mem _ hunit')
    obtain ⟨hpath, hlines⟩ := h unit List.mem_cons_self
    rw [List.flatMap_cons, List.cons_append, sections_line hpath, sections_append hlines, hrest,
      List.append_nil]

theorem addUnits_of_nodup {bundle : Bundle} {units : List (String × List String)}
    (h : (bundle.keys ++ units.map Prod.fst).Nodup) :
    ∃ bundle', addUnits bundle units = .ok bundle' ∧
      bundle'.entries = bundle.entries ++ units.map fun unit => (unit.1, content unit.2) := by
  induction units generalizing bundle with
  | nil => exact ⟨bundle, rfl, (List.append_nil _).symm⟩
  | cons unit units ih =>
    obtain ⟨path, ls⟩ := unit
    have hnew : path ∉ bundle.keys := by
      intro hmem
      rw [List.nodup_append] at h
      exact h.2.2 path hmem path List.mem_cons_self rfl
    have hkeys : (bundle.insert path (content ls)).keys = bundle.keys ++ [path] := by
      rw [OrderedMap.keys_insert, if_neg hnew]
    obtain ⟨bundle', hadd, hentries⟩ := @ih (bundle.insert path (content ls)) (by
      rw [hkeys, List.append_assoc]
      exact h)
    refine ⟨bundle', ?_, ?_⟩
    · rw [addUnits, OrderedMap.contains_eq_false_iff.2 hnew, if_neg Bool.false_ne_true, hadd]
    · rw [hentries, OrderedMap.entries_insert_of_notMem hnew, List.append_assoc]
      rfl

theorem ofProgram_of_lines {program : String} {preamble : List String}
    {units : List (String × List String)}
    (hlines : Text.lines program =
      preamble ++ units.flatMap fun unit => Header.line unit.1 :: unit.2)
    (hpreamble : ∀ l ∈ preamble, Header.path? l = none)
    (hunits : ∀ unit ∈ units, Header.IsPath unit.1 ∧ ∀ l ∈ unit.2, Header.path? l = none)
    (hne : units ≠ []) (hnodup : (units.map Prod.fst).Nodup) :
    ∃ bundle, ofProgram program = .ok bundle ∧
      bundle.entries = units.map fun unit => (unit.1, content unit.2) := by
  have hsections : (sections (Text.lines program)).units = units := by
    rw [hlines, sections_append hpreamble, sections_flatMap hunits]
  obtain ⟨bundle, hadd, hentries⟩ := @addUnits_of_nodup .empty units hnodup
  refine ⟨bundle, ?_, hentries⟩
  rw [ofProgram, hsections]
  split
  · exact absurd rfl hne
  · exact hadd

theorem lines_unitText {path : String} (h : '\n' ∉ path.toList) (body : String) :
    Text.lines (unitText (path, body)) = Header.line path :: (Text.lines body ++ [""]) := by
  rw [unitText, Text.lines_joinLines (by simp)]
  simp only [List.flatMap_cons, List.flatMap_nil, List.append_nil,
    Text.lines_of_notMem (Header.newline_notMem_line h), List.singleton_append]
  rfl

theorem ofProgram_unitTexts {parts : List String} {units : List (String × String)}
    (hparts : ∀ part ∈ parts, ∀ l ∈ Text.lines part, Header.path? l = none)
    (hunits : ∀ unit ∈ units, Header.IsPath unit.1 ∧ ∀ l ∈ Text.lines unit.2, Header.path? l = none)
    (hne : units ≠ []) (hnodup : (units.map Prod.fst).Nodup) :
    ∃ bundle, ofProgram (Text.joinLines (parts ++ units.map unitText)) = .ok bundle ∧
      bundle.entries = units.map fun unit => (unit.1, Text.trimNewlines unit.2 ++ "\n") := by
  have hbodies : (units.flatMap fun unit => Text.lines (unitText unit)) =
      units.flatMap fun unit => Header.line unit.1 :: (Text.lines unit.2 ++ [""]) := by
    apply List.flatMap_congr
    intro unit hunit
    exact lines_unitText (Header.newline_notMem_path (hunits unit hunit).1) unit.2
  have hlines : Text.lines (Text.joinLines (parts ++ units.map unitText)) =
      parts.flatMap Text.lines ++
        (units.map fun unit => (unit.1, Text.lines unit.2 ++ [""])).flatMap fun unit =>
          Header.line unit.1 :: unit.2 := by
    rw [Text.lines_joinLines (by simp [hne]), List.flatMap_append, List.flatMap_map,
      List.flatMap_map, hbodies]
  have hpreamble (l : String) (hl : l ∈ parts.flatMap Text.lines) : Header.path? l = none := by
    obtain ⟨part, hpart, hl⟩ := List.mem_flatMap.1 hl
    exact hparts part hpart l hl
  have hsections : ∀ unit ∈ units.map fun unit => (unit.1, Text.lines unit.2 ++ [""]),
      Header.IsPath unit.1 ∧ ∀ l ∈ unit.2, Header.path? l = none := by
    intro unit hunit
    obtain ⟨unit, hmem, rfl⟩ := List.mem_map.1 hunit
    obtain ⟨hpath, hbody⟩ := hunits unit hmem
    refine ⟨hpath, fun l hl => ?_⟩
    rcases List.mem_append.1 hl with hl | hl
    · exact hbody l hl
    · rw [List.mem_singleton.1 hl]
      exact Header.path?_of_head (by simp)
  obtain ⟨bundle, hbundle, hentries⟩ := ofProgram_of_lines hlines hpreamble hsections
    (by simpa using hne) (by rw [List.map_map]; exact hnodup)
  refine ⟨bundle, hbundle, ?_⟩
  rw [hentries, List.map_map]
  simp only [Function.comp_def, content_lines]

end Bundle

end SoliditySynth
