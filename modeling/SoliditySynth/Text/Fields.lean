namespace SoliditySynth.Text

def consHead (c : Char) : List (List Char) → List (List Char)
  | [] => [[c]]
  | f :: fs => (c :: f) :: fs

/-- The fields of a text. There is one more of them than there are separators. -/
def fields (sep : Char) (cs : List Char) : List (List Char) :=
  cs.foldr (fun c fs => if c = sep then [] :: fs else consHead c fs) [[]]

def joinFields (sep : Char) : List (List Char) → List Char
  | [] => []
  | [f] => f
  | f :: g :: fs => f ++ sep :: joinFields sep (g :: fs)

@[simp] theorem fields_nil (sep : Char) : fields sep [] = [[]] := rfl

theorem fields_cons (sep c : Char) (cs : List Char) :
    fields sep (c :: cs) =
      if c = sep then [] :: fields sep cs else consHead c (fields sep cs) := rfl

theorem consHead_ne_nil (c : Char) (fs : List (List Char)) : consHead c fs ≠ [] := by
  cases fs <;> simp [consHead]

theorem fields_ne_nil (sep : Char) (cs : List Char) : fields sep cs ≠ [] := by
  cases cs with
  | nil => simp
  | cons c cs =>
    rw [fields_cons]
    split
    · simp
    · exact consHead_ne_nil c _

theorem joinFields_consHead (sep c : Char) {fs : List (List Char)} (h : fs ≠ []) :
    joinFields sep (consHead c fs) = c :: joinFields sep fs := by
  match fs with
  | [] => exact absurd rfl h
  | [_] => rfl
  | _ :: _ :: _ => rfl

@[simp] theorem joinFields_fields (sep : Char) (cs : List Char) :
    joinFields sep (fields sep cs) = cs := by
  induction cs with
  | nil => rfl
  | cons c cs ih =>
    rw [fields_cons]
    split
    · next h =>
      obtain ⟨f, fs, hf⟩ := List.exists_cons_of_ne_nil (fields_ne_nil sep cs)
      rw [hf] at ih ⊢
      simp [joinFields, ih, h]
    · rw [joinFields_consHead sep c (fields_ne_nil sep cs), ih]

theorem joinFields_eq_intercalate (sep : Char) (fs : List (List Char)) :
    joinFields sep fs = [sep].intercalate fs := by
  induction fs with
  | nil => rfl
  | cons f fs ih =>
    cases fs with
    | nil => simp [joinFields]
    | cons g fs => simp [joinFields, ih, List.intercalate_cons_cons]

theorem fields_append (sep : Char) (cs ds : List Char) :
    fields sep (cs ++ sep :: ds) = fields sep cs ++ fields sep ds := by
  induction cs with
  | nil => simp [fields_cons]
  | cons c cs ih =>
    rw [List.cons_append, fields_cons, fields_cons, ih]
    split
    · rfl
    · obtain ⟨f, fs, hf⟩ := List.exists_cons_of_ne_nil (fields_ne_nil sep cs)
      rw [hf]
      rfl

theorem fields_joinFields {sep : Char} {fs : List (List Char)} (h : fs ≠ []) :
    fields sep (joinFields sep fs) = fs.flatMap (fields sep) := by
  induction fs with
  | nil => exact absurd rfl h
  | cons f fs ih =>
    cases fs with
    | nil => simp [joinFields]
    | cons g fs =>
      rw [joinFields, fields_append, ih (by simp)]
      rfl

theorem fields_of_notMem {sep : Char} {cs : List Char} (h : sep ∉ cs) : fields sep cs = [cs] := by
  induction cs with
  | nil => rfl
  | cons c cs ih =>
    simp only [List.mem_cons, not_or] at h
    rw [fields_cons, if_neg (Ne.symm h.1), ih h.2]
    rfl

theorem mem_of_mem_fields {sep c : Char} {cs f : List Char} (hf : f ∈ fields sep cs)
    (hc : c ∈ f) : c ∈ cs := by
  induction cs generalizing f with
  | nil =>
    rw [fields_nil, List.mem_singleton] at hf
    rwa [hf] at hc
  | cons d cs ih =>
    rw [fields_cons] at hf
    split at hf
    · rcases List.mem_cons.1 hf with rfl | hf
      · cases hc
      · exact List.mem_cons_of_mem _ (ih hf hc)
    · obtain ⟨g, gs, hg⟩ := List.exists_cons_of_ne_nil (fields_ne_nil sep cs)
      rw [hg, consHead] at hf
      rcases List.mem_cons.1 hf with rfl | hf
      · rcases List.mem_cons.1 hc with rfl | hc
        · exact List.mem_cons_self
        · exact List.mem_cons_of_mem _ (ih (by rw [hg]; exact List.mem_cons_self) hc)
      · exact List.mem_cons_of_mem _ (ih (by rw [hg]; exact List.mem_cons_of_mem _ hf) hc)

theorem notMem_of_mem_fields {sep : Char} {cs f : List Char} (hf : f ∈ fields sep cs) :
    sep ∉ f := by
  induction cs generalizing f with
  | nil =>
    rw [List.mem_singleton.1 hf]
    exact List.not_mem_nil
  | cons c cs ih =>
    rw [fields_cons] at hf
    split at hf
    · rcases List.mem_cons.1 hf with rfl | hf
      · exact List.not_mem_nil
      · exact ih hf
    · next hc =>
      obtain ⟨g, gs, hg⟩ := List.exists_cons_of_ne_nil (fields_ne_nil sep cs)
      rw [hg] at ih hf
      rcases List.mem_cons.1 hf with rfl | hf
      · rw [List.mem_cons, not_or]
        exact ⟨Ne.symm hc, ih List.mem_cons_self⟩
      · exact ih (List.mem_cons_of_mem _ hf)

/-- The lines of a text. A newline at the end is followed by an empty last line. -/
def lines (s : String) : List String := (fields '\n' s.toList).map String.ofList

def joinLines (ls : List String) : String := String.ofList (joinFields '\n' (ls.map String.toList))

theorem joinLines_eq_intercalate (ls : List String) : joinLines ls = "\n".intercalate ls := by
  apply String.toList_injective
  rw [joinLines, String.toList_ofList, joinFields_eq_intercalate, String.toList_intercalate]
  rfl

theorem joinLines_cons (l : String) {ls : List String} (h : ls ≠ []) :
    joinLines (l :: ls) = l ++ "\n" ++ joinLines ls := by
  rw [joinLines_eq_intercalate, joinLines_eq_intercalate, String.intercalate_cons_of_ne_nil h]

@[simp] theorem joinLines_singleton (l : String) : joinLines [l] = l := by
  rw [joinLines_eq_intercalate, String.intercalate_singleton]

theorem joinLines_append {ls ms : List String} (hls : ls ≠ []) (hms : ms ≠ []) :
    joinLines (ls ++ ms) = joinLines ls ++ "\n" ++ joinLines ms := by
  induction ls with
  | nil => exact absurd rfl hls
  | cons l ls ih =>
    by_cases hrest : ls = []
    · rw [hrest, List.singleton_append, joinLines_cons l hms, joinLines_singleton]
    · rw [List.cons_append, joinLines_cons l (by simp [hrest]), ih hrest, joinLines_cons l hrest]
      simp only [String.append_assoc]

theorem joinLines_append_of_ne_nil (ls : List String) {ms : List String} (h : ms ≠ []) :
    joinLines (ls ++ ms) = String.join (ls.map (· ++ "\n")) ++ joinLines ms := by
  induction ls with
  | nil => simp
  | cons l ls ih =>
    rw [List.cons_append, joinLines_cons l (by simp [h]), ih, List.map_cons, String.join_cons]
    simp only [String.append_assoc]

theorem joinLines_concat (ls : List String) (l : String) :
    joinLines (ls ++ [l]) = String.join (ls.map (· ++ "\n")) ++ l := by
  rw [joinLines_append_of_ne_nil ls (by simp), joinLines_singleton]

theorem lines_joinLines {ls : List String} (h : ls ≠ []) :
    lines (joinLines ls) = ls.flatMap lines := by
  rw [lines, joinLines, String.toList_ofList, fields_joinFields (by simpa using h)]
  rw [List.flatMap_map, List.map_flatMap]
  rfl

theorem lines_append_newline (s : String) : lines (s ++ "\n") = lines s ++ [""] := by
  have hjoin : s ++ "\n" = joinLines [s, ""] := by
    rw [joinLines_cons s (by simp), joinLines_singleton, String.append_empty]
  rw [hjoin, lines_joinLines (by simp)]
  rfl

@[simp] theorem joinLines_lines (s : String) : joinLines (lines s) = s := by
  apply String.toList_injective
  rw [joinLines, lines, String.toList_ofList, List.map_map]
  simp [Function.comp_def]

theorem lines_of_notMem {s : String} (h : '\n' ∉ s.toList) : lines s = [s] := by
  simp [lines, fields_of_notMem h]

theorem newline_notMem_of_mem_lines {s l : String} (hl : l ∈ lines s) : '\n' ∉ l.toList := by
  obtain ⟨f, hf, rfl⟩ := List.mem_map.1 hl
  rw [String.toList_ofList]
  exact notMem_of_mem_fields hf

/-- Drops the newlines at both ends. -/
def trimNewlines (s : String) : String :=
  let cs := s.toList.dropWhile (· == '\n')
  String.ofList (cs.reverse.dropWhile (· == '\n')).reverse

end SoliditySynth.Text
