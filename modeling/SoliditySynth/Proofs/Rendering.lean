import Mathlib.Data.List.DropRight
import SoliditySynth.Proofs.Splitting

namespace SoliditySynth

namespace Text

theorem toList_trimNewlines (s : String) :
    (trimNewlines s).toList = (s.toList.dropWhile (· == '\n')).rdropWhile (· == '\n') :=
  String.toList_ofList

theorem mem_fields_of_dropWhile {f cs : List Char}
    (h : f ∈ fields '\n' (cs.dropWhile (· == '\n'))) : f ∈ fields '\n' cs := by
  induction cs with
  | nil => exact h
  | cons c cs ih =>
    by_cases hc : c = '\n'
    · rw [List.dropWhile_cons_of_pos (by simpa using hc)] at h
      rw [fields_cons, if_pos hc]
      exact List.mem_cons_of_mem _ (ih h)
    · rwa [List.dropWhile_cons_of_neg (by simpa using hc)] at h

theorem mem_fields_of_rdropWhile {f cs : List Char}
    (h : f ∈ fields '\n' (cs.rdropWhile (· == '\n'))) : f ∈ fields '\n' cs := by
  induction cs using List.reverseRecOn with
  | nil => exact h
  | append_singleton cs c ih =>
    by_cases hc : c = '\n'
    · rw [List.rdropWhile_concat_pos _ _ _ (by simpa using hc)] at h
      rw [hc, fields_append]
      exact List.mem_append_left _ (ih h)
    · rwa [List.rdropWhile_concat_neg _ _ _ (by simpa using hc)] at h

theorem mem_lines_of_trimNewlines {s l : String} (h : l ∈ lines (trimNewlines s)) :
    l ∈ lines s := by
  rw [lines, toList_trimNewlines, List.mem_map] at h
  obtain ⟨f, hf, rfl⟩ := h
  exact List.mem_map_of_mem (mem_fields_of_dropWhile (mem_fields_of_rdropWhile hf))

theorem dropWhile_rdropWhile {α : Type} (p : α → Bool) {as : List α}
    (h : as.dropWhile p = as) : (as.rdropWhile p).dropWhile p = as.rdropWhile p := by
  obtain ⟨dropped, hdropped⟩ := as.rdropWhile_prefix p
  cases hkept : as.rdropWhile p with
  | nil => rfl
  | cons a kept =>
    rw [← hdropped, hkept, List.cons_append, List.dropWhile_eq_self_iff] at h
    rw [List.dropWhile_eq_self_iff]
    exact fun _ => h (Nat.succ_pos _)

theorem trimNewlines_trimNewlines (s : String) :
    trimNewlines (trimNewlines s) = trimNewlines s := by
  apply String.toList_injective
  rw [toList_trimNewlines, toList_trimNewlines,
    dropWhile_rdropWhile _ (List.dropWhile_idempotent _ _), List.rdropWhile_idempotent]

end Text

namespace Bundle

/-- Units written one after the other, each below its header, with an empty line between any two. -/
def render (units : List (String × String)) : String :=
  "\n".intercalate <| units.map fun unit =>
    "==== Source: " ++ unit.1 ++ " ====\n" ++ unit.2 ++ "\n"

theorem render_eq_joinLines (units : List (String × String)) :
    render units = Text.joinLines (units.map unitText) := by
  have hmark : " ====\n" = " ====" ++ "\n" := by decide
  have hunit : unitText = fun unit : String × String =>
      "==== Source: " ++ unit.1 ++ " ====\n" ++ unit.2 ++ "\n" := by
    funext unit
    rw [unitText, Text.joinLines_eq_intercalate, Header.line_eq, hmark]
    simp [String.append_assoc]
  rw [render, Text.joinLines_eq_intercalate, hunit]

/-- Rendered units come apart, whatever lines stand before them. -/
theorem ofProgram_preamble_render {preamble : List String} {units : List (String × String)}
    (hpreamble : ∀ l ∈ preamble, '\n' ∉ l.toList ∧ ¬Header.IsHeader l)
    (hpaths : ∀ unit ∈ units, Header.IsPath unit.1)
    (hcontents : ∀ unit ∈ units, ∀ l ∈ Text.lines unit.2, ¬Header.IsHeader l)
    (hne : units ≠ []) (hnodup : (units.map Prod.fst).Nodup) :
    ∃ bundle, ofProgram (String.join (preamble.map (· ++ "\n")) ++ render units) = .ok bundle ∧
      bundle.entries = units.map fun unit => (unit.1, Text.trimNewlines unit.2 ++ "\n") := by
  have hparts (part : String) (hpart : part ∈ preamble) (l : String) (hl : l ∈ Text.lines part) :
      Header.path? l = none := by
    obtain ⟨hnewline, hheader⟩ := hpreamble part hpart
    rw [Text.lines_of_notMem hnewline, List.mem_singleton] at hl
    rw [hl]
    exact Header.path?_eq_none_iff.2 hheader
  rw [render_eq_joinLines, ← Text.joinLines_append_of_ne_nil preamble (by simpa using hne)]
  refine ofProgram_unitTexts hparts (fun unit hunit => ⟨hpaths unit hunit, fun l hl => ?_⟩)
    hne hnodup
  exact Header.path?_eq_none_iff.2 (hcontents unit hunit l hl)

/-- What is found under a header: single lines that are themselves no headers. -/
structure IsSection (unit : String × List String) : Prop where
  path : Header.IsPath unit.1
  lines : ∀ l ∈ unit.2, '\n' ∉ l.toList ∧ Header.path? l = none

theorem sections_found {ls : List String} (h : ∀ l ∈ ls, '\n' ∉ l.toList) :
    (∀ l ∈ (sections ls).preamble, '\n' ∉ l.toList ∧ Header.path? l = none) ∧
      ∀ unit ∈ (sections ls).units, IsSection unit := by
  induction ls with
  | nil => exact ⟨fun _ hl => absurd hl List.not_mem_nil, fun _ hu => absurd hu List.not_mem_nil⟩
  | cons l ls ih =>
    obtain ⟨hpreamble, hunits⟩ := ih fun l' hl' => h l' (List.mem_cons_of_mem _ hl')
    cases hpath : Header.path? l with
    | none =>
      rw [← List.singleton_append, sections_append (by simpa using hpath)]
      exact ⟨List.forall_mem_cons.2 ⟨⟨h l List.mem_cons_self, hpath⟩, hpreamble⟩, hunits⟩
    | some path =>
      obtain ⟨hispath, rfl⟩ := Header.path?_eq_some_iff.1 hpath
      rw [sections_line hispath]
      exact ⟨fun _ hl => absurd hl List.not_mem_nil,
        List.forall_mem_cons.2 ⟨⟨hispath, hpreamble⟩, hunits⟩⟩

theorem addUnits_eq_ok {bundle bundle' : Bundle} {units : List (String × List String)}
    (h : addUnits bundle units = .ok bundle') :
    bundle'.entries = bundle.entries ++ units.map fun unit => (unit.1, content unit.2) := by
  induction units generalizing bundle with
  | nil =>
    cases h
    exact (List.append_nil _).symm
  | cons unit units ih =>
    obtain ⟨path, ls⟩ := unit
    rw [addUnits] at h
    split at h
    · cases h
    · next hnew =>
      have hkeys : path ∉ bundle.keys :=
        OrderedMap.contains_eq_false_iff.1 (by simpa using hnew)
      rw [ih h, OrderedMap.entries_insert_of_notMem hkeys, List.append_assoc]
      rfl

theorem ofProgram_eq_ok {program : String} {bundle : Bundle} (h : ofProgram program = .ok bundle) :
    ∃ units, units ≠ [] ∧ (∀ unit ∈ units, IsSection unit) ∧
      bundle.entries = units.map fun unit => (unit.1, content unit.2) := by
  have hlines (l : String) : l ∈ Text.lines program → '\n' ∉ l.toList :=
    Text.newline_notMem_of_mem_lines
  rw [ofProgram] at h
  split at h
  · cases h
  · next hne => exact ⟨_, hne, (sections_found hlines).2, addUnits_eq_ok h⟩

/-- A content is in order: trimming takes off the last newline and no more. -/
theorem trimNewlines_content (ls : List String) :
    Text.trimNewlines (content ls) ++ "\n" = content ls := by
  rw [content, Text.trimNewlines_append_newline, Text.trimNewlines_trimNewlines]

theorem IsSection.content {unit : String × List String} (h : IsSection unit) {l : String}
    (hl : l ∈ Text.lines (Bundle.content unit.2)) : Header.path? l = none := by
  have hempty : Header.path? "" = none := Header.path?_of_head (by simp)
  rw [Bundle.content, Text.lines_append_newline, List.mem_append] at hl
  rcases hl with hl | hl
  · have hmem := Text.mem_lines_of_trimNewlines hl
    by_cases hls : unit.2 = []
    · rw [hls] at hmem
      rw [List.mem_singleton.1 hmem]
      exact hempty
    · rw [Text.lines_joinLines hls, List.mem_flatMap] at hmem
      obtain ⟨l', hl', hmem⟩ := hmem
      obtain ⟨hnewline, hnone⟩ := h.lines l' hl'
      rw [Text.lines_of_notMem hnewline, List.mem_singleton] at hmem
      rwa [hmem]
  · rw [List.mem_singleton.1 hl]
    exact hempty

end Bundle

/-- Rendered units come apart into what was rendered, in the same order, each with exactly one
newline at its end and none at its start; lines before the first header make no difference. And
whatever a text comes apart into comes apart just so again when it is rendered. -/
theorem ofProgram_render :
    (∀ (preamble : List String) (units : List (String × String)),
      (∀ l ∈ preamble, '\n' ∉ l.toList ∧ ¬Header.IsHeader l) →
      units ≠ [] → (units.map Prod.fst).Nodup → (∀ unit ∈ units, Header.IsPath unit.1) →
      (∀ unit ∈ units, ∀ l ∈ Text.lines unit.2, ¬Header.IsHeader l) →
        ∃ bundle,
          Bundle.ofProgram (String.join (preamble.map (· ++ "\n")) ++ Bundle.render units) =
            .ok bundle ∧
          bundle.entries = units.map fun unit => (unit.1, Text.trimNewlines unit.2 ++ "\n")) ∧
    ∀ (program : String) (bundle : Bundle), Bundle.ofProgram program = .ok bundle →
      Bundle.ofProgram (Bundle.render bundle.entries) = .ok bundle := by
  constructor
  · intro preamble units hpreamble hne hnodup hpaths hcontents
    exact Bundle.ofProgram_preamble_render hpreamble hpaths hcontents hne hnodup
  · intro program bundle h
    obtain ⟨sections, hne, hsections, hentries⟩ := Bundle.ofProgram_eq_ok h
    have hunit (unit : String × String) (hmem : unit ∈ bundle.entries) :
        ∃ ls, Bundle.IsSection (unit.1, ls) ∧ unit.2 = Bundle.content ls := by
      rw [hentries] at hmem
      obtain ⟨⟨path, ls⟩, hsection, rfl⟩ := List.mem_map.1 hmem
      exact ⟨ls, hsections _ hsection, rfl⟩
    have hpaths (unit : String × String) (hmem : unit ∈ bundle.entries) :
        Header.IsPath unit.1 := by
      obtain ⟨ls, hsection, -⟩ := hunit unit hmem
      exact hsection.path
    have hcontents (unit : String × String) (hmem : unit ∈ bundle.entries) (l : String)
        (hl : l ∈ Text.lines unit.2) : ¬Header.IsHeader l := by
      obtain ⟨ls, hsection, hcontent⟩ := hunit unit hmem
      rw [hcontent] at hl
      exact Header.path?_eq_none_iff.1 (hsection.content hl)
    obtain ⟨bundle', hbundle', hentries'⟩ :=
      Bundle.ofProgram_preamble_render (List.forall_mem_nil _) hpaths hcontents
        (by simpa [hentries] using hne) bundle.keys_nodup
    have hsame : bundle' = bundle := by
      apply OrderedMap.ext
      rw [hentries', ← List.map_id bundle.entries, List.map_map]
      apply List.map_congr_left
      intro unit hmem
      obtain ⟨ls, -, hcontent⟩ := hunit unit hmem
      rw [Function.comp_apply, id_eq, hcontent, Bundle.trimNewlines_content, ← hcontent]
    rw [List.map_nil, String.join_nil, String.empty_append, hsame] at hbundle'
    exact hbundle'

theorem ofProgram_render_pair :
    ∃ bundle,
      Bundle.ofProgram ("// seed=1\n==== Source: a.sol ====\n\n\n==== Source: c.sol  ====\n\n\n" ++
        "==== Source: b.sol ====\n\n") = .ok bundle ∧
      bundle.entries = [("a.sol", "==== Source: c.sol  ====\n"), ("b.sol", "\n")] ∧
      Bundle.ofProgram (Bundle.render bundle.entries) = .ok bundle := by
  obtain ⟨hparts, hagain⟩ := ofProgram_render
  have hpreamble : ∀ l ∈ ["// seed=1"], '\n' ∉ l.toList ∧ ¬Header.IsHeader l := by
    have hall : ∀ l ∈ ["// seed=1"], '\n' ∉ l.toList ∧ Header.path? l = none := by decide +kernel
    exact fun l hl => ⟨(hall l hl).1, Header.path?_eq_none_iff.1 (hall l hl).2⟩
  have hpaths : ∀ unit ∈ [("a.sol", "\n\n==== Source: c.sol  ====\n"), ("b.sol", "")],
      Header.IsPath unit.1 := by
    have hall : ∀ unit ∈ [("a.sol", "\n\n==== Source: c.sol  ====\n"), ("b.sol", "")],
        Header.path? (Header.line unit.1) = some unit.1 := by
      decide +kernel
    exact fun unit hunit => (Header.path?_eq_some_iff.1 (hall unit hunit)).1
  have hcontents : ∀ unit ∈ [("a.sol", "\n\n==== Source: c.sol  ====\n"), ("b.sol", "")],
      ∀ l ∈ Text.lines unit.2, ¬Header.IsHeader l := by
    have hall : ∀ unit ∈ [("a.sol", "\n\n==== Source: c.sol  ====\n"), ("b.sol", "")],
        ∀ l ∈ Text.lines unit.2, Header.path? l = none := by
      decide +kernel
    exact fun unit hunit l hl => Header.path?_eq_none_iff.1 (hall unit hunit l hl)
  obtain ⟨bundle, hbundle, hentries⟩ :=
    hparts _ _ hpreamble (by decide) (by decide) hpaths hcontents
  have hprogram : String.join (["// seed=1"].map (· ++ "\n")) ++
      Bundle.render [("a.sol", "\n\n==== Source: c.sol  ====\n"), ("b.sol", "")] =
        "// seed=1\n==== Source: a.sol ====\n\n\n==== Source: c.sol  ====\n\n\n" ++
          "==== Source: b.sol ====\n\n" := by
    decide +kernel
  rw [hprogram] at hbundle
  exact ⟨bundle, hbundle, hentries.trans (by decide +kernel), hagain _ _ hbundle⟩

end SoliditySynth
