import SoliditySynth.Proofs.HeaderMarks
import SoliditySynth.Proofs.Rendering

namespace SoliditySynth

namespace Text

/-- One text is the other without the newlines at its two ends. -/
structure Trims (s t : String) : Prop where
  framed : ∃ i j, s.toList = List.replicate i '\n' ++ t.toList ++ List.replicate j '\n'
  start : t.toList.head? ≠ some '\n'
  stop : t.toList.getLast? ≠ some '\n'

theorem exists_replicate_dropWhile (cs : List Char) :
    ∃ i, cs = List.replicate i '\n' ++ cs.dropWhile (· == '\n') := by
  induction cs with
  | nil => exact ⟨0, rfl⟩
  | cons c cs ih =>
    by_cases hc : c = '\n'
    · obtain ⟨i, hi⟩ := ih
      refine ⟨i + 1, ?_⟩
      rw [List.dropWhile_cons_of_pos (by simpa using hc), hc, List.replicate_succ, List.cons_append,
        ← hi]
    · exact ⟨0, by rw [List.dropWhile_cons_of_neg (by simpa using hc)]; rfl⟩

theorem head?_dropWhile_ne (cs : List Char) : (cs.dropWhile (· == '\n')).head? ≠ some '\n' := by
  intro h
  have hnot := List.head?_dropWhile_not (· == '\n') cs
  rw [h] at hnot
  exact absurd hnot (by decide)

theorem trims_trimNewlines (s : String) : Trims s (trimNewlines s) := by
  obtain ⟨i, hstart⟩ := exists_replicate_dropWhile s.toList
  obtain ⟨j, hstop⟩ := exists_replicate_dropWhile (s.toList.dropWhile (· == '\n')).reverse
  have hkept : (trimNewlines s).toList =
      ((s.toList.dropWhile (· == '\n')).reverse.dropWhile (· == '\n')).reverse :=
    String.toList_ofList
  have hrest : s.toList.dropWhile (· == '\n') =
      (trimNewlines s).toList ++ List.replicate j '\n' := by
    rw [hkept, ← List.reverse_replicate, ← List.reverse_append, ← hstop, List.reverse_reverse]
  refine ⟨⟨i, j, ?_⟩, ?_, ?_⟩
  · rw [List.append_assoc, ← hrest, ← hstart]
  · intro hhead
    apply head?_dropWhile_ne s.toList
    rw [hrest, List.head?_append, hhead]
    rfl
  · rw [hkept, List.getLast?_reverse]
    exact head?_dropWhile_ne _

theorem trimNewlines_newline_append (s : String) : trimNewlines ("\n" ++ s) = trimNewlines s := by
  have hnewline : ("\n" ++ s).toList = '\n' :: s.toList := String.toList_append
  rw [trimNewlines, hnewline, List.dropWhile_cons_of_pos (by rfl), trimNewlines]

theorem trimNewlines_terminated (ls : List String) :
    trimNewlines (String.join (ls.map (· ++ "\n"))) = trimNewlines (joinLines ls) := by
  rcases List.eq_nil_or_concat ls with rfl | ⟨ls, l, rfl⟩
  · rfl
  · have hterminated : String.join ((ls.concat l).map (· ++ "\n")) =
        joinLines (ls.concat l) ++ "\n" := by
      rw [List.concat_eq_append, joinLines_concat]
      simp [String.join_append, String.append_assoc]
    rw [hterminated, trimNewlines_append_newline]

end Text

namespace Header

theorem marksFrom_of_none {ls : List String} (h : ∀ l ∈ ls, path? l = none) (place : Nat) :
    marksFrom place ls = [] := by
  induction ls generalizing place with
  | nil => rfl
  | cons l ls ih =>
    rw [marksFrom, h l List.mem_cons_self]
    exact ih (fun l' hl' => h l' (List.mem_cons_of_mem _ hl')) _

theorem marksFrom_append (place : Nat) (ls ms : List String) :
    marksFrom place (ls ++ ms) =
      marksFrom place ls ++ marksFrom (place + Text.extent ls) ms := by
  induction ls generalizing place with
  | nil => rfl
  | cons l ls ih =>
    have hplace : place + Text.extent (l :: ls) = place + l.length + 1 + Text.extent ls := by
      rw [Text.extent_cons]
      omega
    rw [List.cons_append, marksFrom, marksFrom, hplace, ih]
    split
    · rfl
    · rfl

theorem pairwise_marksFrom (place : Nat) (ls : List String) :
    (marksFrom place ls).Pairwise fun mark mark' => mark.stop ≤ mark'.start := by
  induction ls generalizing place with
  | nil => exact .nil
  | cons l ls ih =>
    rw [marksFrom]
    split
    · refine List.pairwise_cons.2 ⟨fun mark hmark => ?_, ih _⟩
      obtain ⟨before, -, -, -, hstart, -⟩ := mem_marksFrom.1 hmark
      change place + l.length ≤ mark.start
      omega
    · exact ih _

/-- The texts between the end of each mark and the start of the next, or the end of the text. -/
def slicesBetween (text : String) : List Mark → List String
  | [] => []
  | mark :: marks =>
    Text.slice text mark.stop ((marks.head?.map Mark.start).getD text.length) ::
      slicesBetween text marks

end Header

namespace Bundle

/-- The lines of units, each header with the lines below it. -/
def unitLines (units : List (String × List String)) : List String :=
  units.flatMap fun unit => Header.line unit.1 :: unit.2

/-- Lines laid out as units, with other lines before the first. -/
structure IsLayout (ls preamble : List String) (units : List (String × List String)) : Prop where
  lines_eq : ls = preamble ++ units.flatMap fun unit =>
    ("==== Source: " ++ unit.1 ++ " ====") :: unit.2
  preamble : ∀ l ∈ preamble, ¬Header.IsHeader l
  paths : ∀ unit ∈ units, Header.IsPath unit.1
  lines : ∀ unit ∈ units, ∀ l ∈ unit.2, ¬Header.IsHeader l

section Marks

variable {units : List (String × List String)}

theorem marksFrom_unit {unit : String × List String} (hpath : Header.IsPath unit.1)
    (hlines : ∀ l ∈ unit.2, Header.path? l = none) (place : Nat) (rest : List String) :
    Header.marksFrom place (Header.line unit.1 :: (unit.2 ++ rest)) =
      ⟨place, place + (Header.line unit.1).length, unit.1⟩ ::
        Header.marksFrom (place + Text.extent (Header.line unit.1 :: unit.2)) rest := by
  rw [Header.marksFrom, Header.path?_line hpath, Header.marksFrom_append,
    Header.marksFrom_of_none hlines, List.nil_append, Text.extent_cons]
  simp only [Nat.add_assoc]

theorem head?_marksFrom_unitLines (hne : units ≠ [])
    (hpaths : ∀ unit ∈ units, Header.IsPath unit.1) (place : Nat) :
    (Header.marksFrom place (unitLines units)).head?.map Header.Mark.start = some place := by
  cases units with
  | nil => exact absurd rfl hne
  | cons unit units =>
    rw [unitLines, List.flatMap_cons, List.cons_append, Header.marksFrom,
      Header.path?_line (hpaths unit List.mem_cons_self)]
    rfl

/-- What stands after the header of a unit, up to the next unit. -/
theorem exists_gap (unit : String × List String) (units : List (String × List String)) :
    ∃ gap, Text.joinLines (unitLines (unit :: units)) =
        Header.line unit.1 ++ gap ++ Text.joinLines (unitLines units) ∧
      Text.trimNewlines gap = Text.trimNewlines (Text.joinLines unit.2) ∧
      (units ≠ [] → (Header.line unit.1 ++ gap).length =
        Text.extent (Header.line unit.1 :: unit.2)) := by
  by_cases hlast : units = []
  · subst hlast
    obtain ⟨gap, hgap, -⟩ := Text.exists_joinLines_cons (Header.line unit.1) unit.2
    refine ⟨gap, ?_, ?_, fun hne => absurd rfl hne⟩
    · have hnil : Text.joinLines (unitLines []) = "" := rfl
      rw [unitLines, List.flatMap_singleton, hgap, hnil, String.append_empty]
    · cases hls : unit.2 with
      | nil =>
        rw [hls, Text.joinLines_singleton] at hgap
        have hempty : gap = "" := by simpa using hgap.symm
        rw [hempty]
        rfl
      | cons l ls =>
        rw [hls, Text.joinLines_cons _ (by simp), String.append_assoc] at hgap
        have hnewline : gap = "\n" ++ Text.joinLines (l :: ls) := by simpa using hgap.symm
        rw [hnewline, Text.trimNewlines_newline_append]
  · have hne : unitLines units ≠ [] := by
      cases units with
      | nil => exact absurd rfl hlast
      | cons unit' units => simp [unitLines]
    have hjoin : String.join ((Header.line unit.1 :: unit.2).map (· ++ "\n")) =
        Header.line unit.1 ++ ("\n" ++ String.join (unit.2.map (· ++ "\n"))) := by
      rw [List.map_cons, String.join_cons, String.append_assoc]
    refine ⟨"\n" ++ String.join (unit.2.map (· ++ "\n")), ?_, ?_, fun _ => ?_⟩
    · rw [← hjoin, ← Text.joinLines_append_of_ne_nil _ hne]
      rfl
    · rw [Text.trimNewlines_newline_append, Text.trimNewlines_terminated]
    · rw [← hjoin, Text.length_terminated]

theorem slicesBetween_units (hpaths : ∀ unit ∈ units, Header.IsPath unit.1)
    (hlines : ∀ unit ∈ units, ∀ l ∈ unit.2, Header.path? l = none) {text before : String}
    (htext : text = before ++ Text.joinLines (unitLines units)) :
    (Header.slicesBetween text (Header.marksFrom before.length (unitLines units))).map
        Text.trimNewlines =
      units.map fun unit => Text.trimNewlines (Text.joinLines unit.2) := by
  induction units generalizing before with
  | nil => rfl
  | cons unit units ih =>
    obtain ⟨gap, hgap, htrim, hlength⟩ := exists_gap unit units
    have hmarks : Header.marksFrom before.length (unitLines (unit :: units)) =
        ⟨before.length, before.length + (Header.line unit.1).length, unit.1⟩ ::
          Header.marksFrom (before.length + Text.extent (Header.line unit.1 :: unit.2))
            (unitLines units) :=
      marksFrom_unit (hpaths unit List.mem_cons_self) (hlines unit List.mem_cons_self) _ _
    have hpaths' := fun unit' hunit' => hpaths unit' (List.mem_cons_of_mem unit hunit')
    have hlines' := fun unit' hunit' => hlines unit' (List.mem_cons_of_mem unit hunit')
    have hsplit : text =
        (before ++ Header.line unit.1) ++ gap ++ Text.joinLines (unitLines units) := by
      rw [htext, hgap]
      simp only [String.append_assoc]
    -- the next header begins where the gap ends, or the text ends there
    have hstop : ((Header.marksFrom (before.length + Text.extent (Header.line unit.1 :: unit.2))
        (unitLines units)).head?.map Header.Mark.start).getD text.length =
          (before ++ Header.line unit.1).length + gap.length := by
      by_cases hlast : units = []
      · subst hlast
        have hnil : Text.joinLines (unitLines []) = "" := rfl
        rw [hsplit, hnil, String.append_empty, String.length_append]
        rfl
      · rw [head?_marksFrom_unitLines hlast hpaths', ← hlength hlast, Option.getD_some]
        simp only [String.length_append, Nat.add_assoc]
    rw [hmarks, Header.slicesBetween, hstop, List.map_cons, List.map_cons, ← String.length_append]
    refine congrArg₂ List.cons ?_ ?_
    · rw [hsplit, Text.slice_append, htrim]
    · by_cases hlast : units = []
      · subst hlast
        rfl
      · have hplace : before.length + Text.extent (Header.line unit.1 :: unit.2) =
            (before ++ Header.line unit.1 ++ gap).length := by
          rw [← hlength hlast]
          simp only [String.length_append, Nat.add_assoc]
        rw [hplace]
        exact ih hpaths' hlines' hsplit

theorem map_path_marksFrom (hpaths : ∀ unit ∈ units, Header.IsPath unit.1)
    (hlines : ∀ unit ∈ units, ∀ l ∈ unit.2, Header.path? l = none) (place : Nat) :
    (Header.marksFrom place (unitLines units)).map Header.Mark.path = units.map Prod.fst := by
  induction units generalizing place with
  | nil => rfl
  | cons unit units ih =>
    rw [unitLines, List.flatMap_cons, List.cons_append,
      marksFrom_unit (hpaths unit List.mem_cons_self) (hlines unit List.mem_cons_self),
      List.map_cons, List.map_cons]
    congr 1
    exact ih (fun unit' hunit' => hpaths unit' (List.mem_cons_of_mem unit hunit'))
      (fun unit' hunit' => hlines unit' (List.mem_cons_of_mem unit hunit')) _

end Marks

section Layout

variable {ls preamble : List String} {units : List (String × List String)}

theorem unitLines_eq (units : List (String × List String)) :
    unitLines units =
      units.flatMap fun unit => ("==== Source: " ++ unit.1 ++ " ====") :: unit.2 := by
  rw [unitLines]
  simp only [Header.line_eq]

theorem IsLayout.sections_eq (h : IsLayout ls preamble units) :
    sections ls = ⟨preamble, units⟩ := by
  have hpreamble (l : String) (hl : l ∈ preamble) : Header.path? l = none :=
    Header.path?_eq_none_iff.2 (h.preamble l hl)
  have hunits (unit : String × List String) (hunit : unit ∈ units) :
      Header.IsPath unit.1 ∧ ∀ l ∈ unit.2, Header.path? l = none :=
    ⟨h.paths unit hunit, fun l hl => Header.path?_eq_none_iff.2 (h.lines unit hunit l hl)⟩
  have hsections : sections (unitLines units) = ⟨[], units⟩ := sections_flatMap hunits
  rw [h.lines_eq, ← unitLines_eq, sections_append hpreamble, hsections, List.append_nil]

theorem sections_lines_eq (ls : List String) :
    ls = (sections ls).preamble ++ unitLines (sections ls).units := by
  induction ls with
  | nil => rfl
  | cons l ls ih =>
    cases hpath : Header.path? l with
    | none =>
      rw [← List.singleton_append, sections_append (by simpa using hpath), List.append_assoc, ← ih]
    | some path =>
      obtain ⟨hispath, rfl⟩ := Header.path?_eq_some_iff.1 hpath
      rw [sections_line hispath, List.nil_append, unitLines, List.flatMap_cons, List.cons_append,
        ← unitLines, ← ih]

theorem isLayout_sections (h : ∀ l ∈ ls, '\n' ∉ l.toList) :
    IsLayout ls (sections ls).preamble (sections ls).units := by
  obtain ⟨hpreamble, hunits⟩ := sections_found h
  constructor
  case lines_eq => rw [← unitLines_eq, ← sections_lines_eq]
  case preamble => exact fun l hl => Header.path?_eq_none_iff.1 (hpreamble l hl).2
  case paths => exact fun unit hunit => (hunits unit hunit).path
  case lines =>
    exact fun unit hunit l hl => Header.path?_eq_none_iff.1 ((hunits unit hunit).lines l hl).2

theorem IsLayout.units_eq_nil_iff (h : IsLayout ls preamble units) :
    units = [] ↔ ∀ l ∈ ls, ¬Header.IsHeader l := by
  constructor
  · rintro rfl l hl
    rw [h.lines_eq, List.flatMap_nil, List.append_nil] at hl
    exact h.preamble l hl
  · intro hnone
    rw [List.eq_nil_iff_forall_not_mem]
    intro unit hunit
    apply hnone ("==== Source: " ++ unit.1 ++ " ====")
    · rw [h.lines_eq]
      exact List.mem_append_right _ (List.mem_flatMap.2 ⟨unit, hunit, List.mem_cons_self⟩)
    · exact ⟨unit.1, h.paths unit hunit, rfl⟩

def FirstRepeated (path : String) (paths : List String) : Prop :=
  ∃ earlier later, paths = earlier ++ path :: later ∧ earlier.Nodup ∧ path ∈ earlier

theorem not_firstRepeated_of_nodup {path : String} {paths : List String} (h : paths.Nodup) :
    ¬FirstRepeated path paths := by
  rintro ⟨earlier, later, rfl, -, hmem⟩
  rw [List.nodup_append] at h
  exact h.2.2 path hmem path List.mem_cons_self rfl

theorem firstRepeated_append_cons_iff {path next : String} {before after : List String}
    (hnodup : before.Nodup) (hmem : next ∈ before) :
    FirstRepeated path (before ++ next :: after) ↔ path = next := by
  constructor
  · rintro ⟨earlier, later, heq, hearlier, hpath⟩
    rcases List.append_eq_append_iff.1 heq with ⟨rest, hrest, htail⟩ | ⟨rest, hrest, htail⟩
    · cases rest with
      | nil => exact (List.cons.inj htail).1.symm
      | cons first rest =>
        obtain ⟨rfl, -⟩ := List.cons.inj htail
        rw [hrest, List.nodup_append] at hearlier
        exact absurd rfl (hearlier.2.2 next hmem next List.mem_cons_self)
    · cases rest with
      | nil => exact (List.cons.inj htail).1
      | cons first rest =>
        obtain ⟨rfl, -⟩ := List.cons.inj htail
        exact absurd ⟨earlier, rest, hrest, hearlier, hpath⟩ (not_firstRepeated_of_nodup hnodup)
  · rintro rfl
    exact ⟨before, after, rfl, hnodup, hmem⟩

theorem addUnits_eq_duplicate_iff {bundle : Bundle} {path : String} :
    addUnits bundle units = .error (.duplicate path) ↔
      FirstRepeated path (bundle.keys ++ units.map Prod.fst) := by
  induction units generalizing bundle with
  | nil =>
    rw [List.map_nil, List.append_nil]
    exact iff_of_false (fun h => by cases h) (not_firstRepeated_of_nodup bundle.nodup_keys)
  | cons unit units ih =>
    obtain ⟨next, ls⟩ := unit
    rw [addUnits, List.map_cons]
    by_cases hnew : next ∈ bundle.keys
    · have hcontains : bundle.contains next = true := by
        rw [← Bool.not_eq_false, OrderedMap.contains_eq_false_iff]
        exact not_not_intro hnew
      rw [if_pos hcontains, firstRepeated_append_cons_iff bundle.nodup_keys hnew]
      constructor
      · intro h
        cases h
        rfl
      · rintro rfl
        rfl
    · rw [OrderedMap.contains_eq_false_iff.2 hnew, if_neg Bool.false_ne_true, ih,
        OrderedMap.keys_insert, if_neg hnew, List.append_assoc, List.singleton_append]

theorem addUnits_ne_noHeader {bundle : Bundle} : addUnits bundle units ≠ .error .noHeader := by
  induction units generalizing bundle with
  | nil => exact fun h => by cases h
  | cons unit units ih =>
    rw [addUnits]
    split
    · exact fun h => by cases h
    · exact ih

theorem addUnits_eq_ok_iff {bundle : Bundle} :
    addUnits .empty units = .ok bundle ↔
      (units.map Prod.fst).Nodup ∧
        bundle.entries = units.map fun unit => (unit.1, content unit.2) := by
  constructor
  · intro h
    have hentries := addUnits_eq_ok h
    rw [OrderedMap.empty, List.nil_append] at hentries
    refine ⟨?_, hentries⟩
    have hnodup := bundle.keys_nodup
    rwa [hentries, List.map_map] at hnodup
  · rintro ⟨hnodup, hentries⟩
    obtain ⟨bundle', hadd, hentries'⟩ := @addUnits_of_nodup .empty units hnodup
    rw [hadd, OrderedMap.ext (hentries'.trans hentries.symm)]

theorem IsLayout.ofProgram_eq {program : String}
    (h : IsLayout (Text.lines program) preamble units) :
    ofProgram program = if units = [] then .error .noHeader else addUnits .empty units := by
  have hunits : (sections (Text.lines program)).units = units := by rw [h.sections_eq]
  rw [ofProgram, hunits]
  cases units with
  | nil => rfl
  | cons unit units => rfl

/-- The places at which a header can be found are those of the units, and the texts between them
hold the contents of the units. -/
theorem IsLayout.exists_marks {program : String}
    (h : IsLayout (Text.lines program) preamble units) :
    ∃ marks : List Header.Mark, (∀ mark, mark ∈ marks ↔ mark.Occurs program) ∧
      (marks.Pairwise fun mark mark' => mark.stop ≤ mark'.start) ∧
      marks.map Header.Mark.path = units.map Prod.fst ∧
      (Header.slicesBetween program marks).map (Text.trimNewlines · ++ "\n") =
        units.map fun unit => content unit.2 := by
  have hpreamble (l : String) (hl : l ∈ preamble) : Header.path? l = none :=
    Header.path?_eq_none_iff.2 (h.preamble l hl)
  have hlines (unit : String × List String) (hunit : unit ∈ units) (l : String) (hl : l ∈ unit.2) :
      Header.path? l = none :=
    Header.path?_eq_none_iff.2 (h.lines unit hunit l hl)
  have hunitLines : Text.lines program = preamble ++ unitLines units := by
    rw [h.lines_eq, unitLines_eq]
  have hmarks : Header.marksFrom 0 (Text.lines program) =
      Header.marksFrom (String.join (preamble.map (· ++ "\n"))).length (unitLines units) := by
    rw [hunitLines, Header.marksFrom_append, Header.marksFrom_of_none hpreamble, List.nil_append,
      Nat.zero_add, Text.length_terminated]
  refine ⟨Header.marksFrom 0 (Text.lines program), fun mark => Header.mem_marksFrom_lines,
    Header.pairwise_marksFrom _ _, ?_, ?_⟩
  · rw [hmarks, map_path_marksFrom h.paths hlines]
  · by_cases hnone : units = []
    · subst hnone
      rw [hmarks]
      rfl
    · have hne : unitLines units ≠ [] := by
        obtain ⟨unit, rest, rfl⟩ := List.exists_cons_of_ne_nil hnone
        simp [unitLines]
      have htext : program = String.join (preamble.map (· ++ "\n")) ++
          Text.joinLines (unitLines units) := by
        rw [← Text.joinLines_append_of_ne_nil preamble hne, ← hunitLines, Text.joinLines_lines]
      have hslices := congrArg (List.map (· ++ "\n")) (slicesBetween_units h.paths hlines htext)
      rw [List.map_map, List.map_map, ← hmarks] at hslices
      exact hslices

end Layout

end Bundle

/-- Every text is laid out in exactly one way as lines that are no headers and units, each a header
with the lines below it. It is refused where there is no header, or else for the first path that
equals an earlier one, and otherwise each path gets the lines below its header without the newlines
at their ends, and one newline. To look for headers anywhere in the text, and to cut it where they
begin and end, gives the same units. -/
theorem ofProgram_grammar (program : String) :
    ("\n".intercalate (Text.lines program) = program ∧
      ∀ l ∈ Text.lines program, '\n' ∉ l.toList) ∧
    (SplitFault.noHeader.message = "program has no source unit headers" ∧
      ∀ path, (SplitFault.duplicate path).message = "duplicate source unit " ++ path) ∧
    ∃ preamble units, Bundle.IsLayout (Text.lines program) preamble units ∧
      (∀ preamble' units', Bundle.IsLayout (Text.lines program) preamble' units' →
        preamble' = preamble ∧ units' = units) ∧
      (Bundle.ofProgram program = .error .noHeader ↔
        ∀ l ∈ Text.lines program, ¬Header.IsHeader l) ∧
      (∀ path, Bundle.ofProgram program = .error (.duplicate path) ↔
        Bundle.FirstRepeated path (units.map Prod.fst)) ∧
      (∀ bundle, Bundle.ofProgram program = .ok bundle ↔
        (∃ l ∈ Text.lines program, Header.IsHeader l) ∧ (units.map Prod.fst).Nodup ∧
          bundle.entries = units.map fun unit => (unit.1, Bundle.content unit.2)) ∧
      (∀ unit ∈ units, ∃ text, Text.Trims ("\n".intercalate unit.2) text ∧
        Bundle.content unit.2 = text ++ "\n") ∧
      ∃ marks : List Header.Mark, (∀ mark, mark ∈ marks ↔ mark.Occurs program) ∧
        (marks.Pairwise fun mark mark' => mark.stop ≤ mark'.start) ∧
        marks.map Header.Mark.path = units.map Prod.fst ∧
        (Header.slicesBetween program marks).map (Text.trimNewlines · ++ "\n") =
          units.map fun unit => Bundle.content unit.2 := by
  have hnewline (l : String) : l ∈ Text.lines program → '\n' ∉ l.toList :=
    Text.newline_notMem_of_mem_lines
  have hlayout := Bundle.isLayout_sections hnewline
  generalize (Bundle.sections (Text.lines program)).preamble = preamble at hlayout
  generalize (Bundle.sections (Text.lines program)).units = units at hlayout
  have hnone := hlayout.units_eq_nil_iff
  have hsome : units ≠ [] ↔ ∃ l ∈ Text.lines program, Header.IsHeader l := by
    rw [ne_eq, hnone]
    simp only [not_forall, Classical.not_not, exists_prop]
  refine ⟨⟨?_, hnewline⟩, ⟨rfl, fun path => rfl⟩, preamble, units, hlayout, ?_, ?_, ?_, ?_, ?_,
    hlayout.exists_marks⟩
  · rw [← Text.joinLines_eq_intercalate, Text.joinLines_lines]
  · intro preamble' units' hlayout'
    exact Bundle.Sections.mk.inj (hlayout'.sections_eq.symm.trans hlayout.sections_eq)
  · rw [hlayout.ofProgram_eq, ← hnone]
    split
    · next hempty => exact iff_of_true rfl hempty
    · next hfilled => exact iff_of_false Bundle.addUnits_ne_noHeader hfilled
  · intro path
    rw [hlayout.ofProgram_eq]
    split
    · next hempty =>
      rw [hempty]
      exact iff_of_false (fun h => by cases h) (Bundle.not_firstRepeated_of_nodup .nil)
    · exact Bundle.addUnits_eq_duplicate_iff
  · intro bundle
    rw [hlayout.ofProgram_eq, ← hsome]
    split
    · next hempty => exact iff_of_false (fun h => by cases h) fun h => h.1 hempty
    · next hfilled =>
      rw [Bundle.addUnits_eq_ok_iff]
      exact (and_iff_right hfilled).symm
  · intro unit _
    refine ⟨_, Text.trims_trimNewlines _, ?_⟩
    rw [Bundle.content, Text.joinLines_eq_intercalate]

-- separators, next line and carriage return keep a line from being a header
example : ['\x1c', '\x1d', '\x1e', '\x1f', '\u0085', '\r'].all Text.isBlank = true := by decide

end SoliditySynth
