import SoliditySynth.Proofs.Splitting

namespace SoliditySynth

namespace Text

/-- How many characters the given lines take up, each with a newline at its end. -/
def extent : List String → Nat
  | [] => 0
  | l :: ls => l.length + 1 + extent ls

theorem extent_cons (l : String) (ls : List String) :
    extent (l :: ls) = l.length + 1 + extent ls := rfl

theorem length_terminated (ls : List String) :
    (String.join (ls.map (· ++ "\n"))).length = extent ls := by
  induction ls with
  | nil => rfl
  | cons l ls ih =>
    rw [List.map_cons, String.join_cons, String.length_append, ih, extent_cons,
      String.length_append]
    rfl

def slice (s : String) (start stop : Nat) : String :=
  String.ofList ((s.toList.take stop).drop start)

theorem slice_append (before mid after : String) :
    slice (before ++ mid ++ after) before.length (before.length + mid.length) = mid := by
  have hstop : before.length + mid.length = (before.toList ++ mid.toList).length := by
    rw [List.length_append, String.length_toList, String.length_toList]
  apply String.toList_injective
  rw [slice, String.toList_ofList, hstop, String.toList_append, String.toList_append,
    List.take_left, ← String.length_toList, List.drop_left]

theorem lines_append_append (s t : String) : lines (s ++ "\n" ++ t) = lines s ++ lines t := by
  have hjoin : s ++ "\n" ++ t = joinLines [s, t] := by
    rw [joinLines_cons s (by simp), joinLines_singleton]
  rw [hjoin, lines_joinLines (by simp)]
  simp

theorem extent_lines (s : String) : extent (lines s) = (s ++ "\n").length := by
  rw [← length_terminated, ← String.append_empty (s := String.join _), ← joinLines_concat,
    ← lines_append_newline, joinLines_lines]

/-- A place where a line begins has whole lines before it. -/
def IsLineStart (before : String) : Prop := before = "" ∨ ∃ b, before = b ++ "\n"

/-- A place where a line ends has nothing or a newline after it. -/
def IsLineEnd (after : String) : Prop := after = "" ∨ ∃ a, after = "\n" ++ a

theorem isLineStart_terminated (ls : List String) :
    IsLineStart (String.join (ls.map (· ++ "\n"))) := by
  rcases List.eq_nil_or_concat ls with rfl | ⟨ls, l, rfl⟩
  · exact .inl rfl
  · refine .inr ⟨String.join (ls.map (· ++ "\n")) ++ l, ?_⟩
    simp [String.join_append, String.append_assoc]

theorem IsLineStart.exists_lines {before : String} (h : IsLineStart before) :
    ∃ ls, extent ls = before.length ∧ ∀ rest, lines (before ++ rest) = ls ++ lines rest := by
  rcases h with rfl | ⟨b, rfl⟩
  · exact ⟨[], rfl, fun rest => by rw [String.empty_append, List.nil_append]⟩
  · exact ⟨lines b, extent_lines b, lines_append_append b⟩

theorem exists_joinLines_cons (l : String) (ls : List String) :
    ∃ rest, joinLines (l :: ls) = l ++ rest ∧ IsLineEnd rest := by
  cases ls with
  | nil => exact ⟨"", by simp, .inl rfl⟩
  | cons l' ls =>
    refine ⟨"\n" ++ joinLines (l' :: ls), ?_, .inr ⟨_, rfl⟩⟩
    rw [joinLines_cons _ (by simp), String.append_assoc]

theorem IsLineEnd.exists_lines {after : String} (h : IsLineEnd after) {l : String}
    (hl : '\n' ∉ l.toList) : ∃ ls, lines (l ++ after) = l :: ls := by
  rcases h with rfl | ⟨a, rfl⟩
  · exact ⟨[], by rw [String.append_empty, lines_of_notMem hl]⟩
  · refine ⟨lines a, ?_⟩
    rw [← String.append_assoc, lines_append_append, lines_of_notMem hl, List.singleton_append]

end Text

namespace Header

/-- A header in a text: where it begins, where it ends, and the path between its marks. -/
structure Mark where
  start : Nat
  stop : Nat
  path : String
deriving DecidableEq

/-- A header begins at the start of the text or after a newline, and ends before a newline or at the
end of the text. -/
def Mark.Occurs (mark : Mark) (text : String) : Prop :=
  ∃ before after, text = before ++ ("==== Source: " ++ mark.path ++ " ====") ++ after ∧
    mark.start = before.length ∧
    mark.stop = before.length + ("==== Source: " ++ mark.path ++ " ====").length ∧
    IsPath mark.path ∧
    Text.IsLineStart before ∧ Text.IsLineEnd after

def marksFrom (place : Nat) : List String → List Mark
  | [] => []
  | l :: ls =>
    match path? l with
    | some path => ⟨place, place + l.length, path⟩ :: marksFrom (place + l.length + 1) ls
    | none => marksFrom (place + l.length + 1) ls

theorem mem_marksFrom {mark : Mark} {place : Nat} {ls : List String} :
    mark ∈ marksFrom place ls ↔ ∃ before after, ls = before ++ line mark.path :: after ∧
      IsPath mark.path ∧ mark.start = place + Text.extent before ∧
      mark.stop = mark.start + (line mark.path).length := by
  induction ls generalizing place with
  | nil => simp [marksFrom]
  | cons l ls ih =>
    -- The header is the first line, or it is one of the later ones.
    have hrest : (∃ before after, ls = before ++ line mark.path :: after ∧ IsPath mark.path ∧
        mark.start = place + l.length + 1 + Text.extent before ∧
        mark.stop = mark.start + (line mark.path).length) ↔
        ∃ before after, l :: ls = (l :: before) ++ line mark.path :: after ∧ IsPath mark.path ∧
          mark.start = place + Text.extent (l :: before) ∧
          mark.stop = mark.start + (line mark.path).length := by
      simp only [Text.extent_cons, List.cons_append, List.cons.injEq, true_and, Nat.add_assoc]
    constructor
    · intro hmem
      rw [marksFrom] at hmem
      split at hmem
      · next path hpath =>
        obtain ⟨hispath, rfl⟩ := path?_eq_some_iff.1 hpath
        rcases List.mem_cons.1 hmem with rfl | hmem
        · exact ⟨[], ls, rfl, hispath, rfl, rfl⟩
        · obtain ⟨before, after, h⟩ := hrest.1 (ih.1 hmem)
          exact ⟨_ :: before, after, h⟩
      · obtain ⟨before, after, h⟩ := hrest.1 (ih.1 hmem)
        exact ⟨_ :: before, after, h⟩
    · rintro ⟨before, after, hlines, hispath, hstart, hstop⟩
      cases before with
      | nil =>
        obtain ⟨rfl, rfl⟩ := List.cons.inj hlines
        rw [marksFrom, path?_line hispath]
        have hmark : mark = ⟨place, place + (line mark.path).length, mark.path⟩ := by
          rw [hstart] at hstop
          cases mark
          simp only at hstart hstop
          rw [hstart, hstop]
          rfl
        exact hmark ▸ List.mem_cons_self
      | cons first before =>
        obtain ⟨rfl, -⟩ := List.cons.inj hlines
        have hmem := ih.2 (hrest.2 ⟨before, after, hlines, hispath, hstart, hstop⟩)
        rw [marksFrom]
        split
        · exact List.mem_cons_of_mem _ hmem
        · exact hmem

/-- The headers that can be found anywhere in a text are its header lines. -/
theorem mem_marksFrom_lines {mark : Mark} {text : String} :
    mark ∈ marksFrom 0 (Text.lines text) ↔ mark.Occurs text := by
  rw [mem_marksFrom]
  constructor
  · rintro ⟨before, after, hlines, hispath, hstart, hstop⟩
    obtain ⟨rest, hrest, hend⟩ := Text.exists_joinLines_cons (line mark.path) after
    have htext : text = String.join (before.map (· ++ "\n")) ++ (line mark.path ++ rest) := by
      rw [← hrest, ← Text.joinLines_append_of_ne_nil before (by simp), ← hlines,
        Text.joinLines_lines]
    have hlength := Text.length_terminated before
    rw [hstart] at hstop
    refine ⟨_, rest, ?_, ?_, ?_, hispath, Text.isLineStart_terminated before, hend⟩
    · rw [htext, line_eq]
      exact (String.append_assoc ..).symm
    · rw [hstart, hlength, Nat.zero_add]
    · rw [hstop, hlength, Nat.zero_add, line_eq]
  · rintro ⟨before, after, rfl, hstart, hstop, hispath, hbefore, hafter⟩
    rw [← line_eq] at hstop ⊢
    obtain ⟨ls, hextent, hls⟩ := hbefore.exists_lines
    obtain ⟨ms, hms⟩ :=
      hafter.exists_lines (newline_notMem_line (newline_notMem_path hispath))
    refine ⟨ls, ms, ?_, hispath, ?_, ?_⟩
    · rw [String.append_assoc, hls, hms]
    · rw [hstart, hextent, Nat.zero_add]
    · rw [hstop, hstart]

end Header

end SoliditySynth
