import SoliditySynth.Proofs.MissingDirectories
import SoliditySynth.Proofs.OutputNames

namespace SoliditySynth

section OnWay

variable {names part : List String} {name : String}

/-- The names begin with these, and there are more of them. -/
def IsOnWayTo (part names : List String) : Prop := part <+: names ∧ part ≠ names

theorem isOnWayTo_concat_iff : IsOnWayTo part (names ++ [name]) ↔ part <+: names := by
  rw [IsOnWayTo, List.prefix_concat_iff]
  constructor
  · rintro ⟨hall | hpart, hne⟩
    · exact absurd hall hne
    · exact hpart
  · intro hpart
    refine ⟨.inr hpart, ?_⟩
    rintro rfl
    exact not_concat_prefix_self hpart

theorem isOnWayTo_append_left_iff (front : List String) :
    IsOnWayTo (front ++ part) (front ++ names) ↔ IsOnWayTo part names := by
  rw [IsOnWayTo, IsOnWayTo, List.prefix_append_right_inj, ne_eq, List.append_cancel_left_eq]

end OnWay

namespace Path

variable {s t : String}

def fields (s : String) : List String := (Text.fields '/' s.toList).map String.ofList

/-- Between any two slashes, and at both ends, there is the name of an entry. -/
def IsPlain (s : String) : Prop := ∀ name ∈ fields s, name ≠ "" ∧ name ≠ "." ∧ name ≠ ".."

theorem slash_notMem_of_mem_fields {name : String} (h : name ∈ fields s) : '/' ∉ name.toList := by
  obtain ⟨cs, hcs, rfl⟩ := List.mem_map.1 h
  rw [String.toList_ofList]
  exact Text.notMem_of_mem_fields hcs

theorem intercalate_fields (s : String) : "/".intercalate (fields s) = s := by
  apply String.toList_injective
  rw [String.toList_intercalate, fields, List.map_map]
  have hid : String.toList ∘ String.ofList = id := funext fun cs => String.toList_ofList
  rw [hid, List.map_id]
  exact (Text.joinFields_eq_intercalate '/' _).symm.trans (Text.joinFields_fields '/' s.toList)

theorem fields_injective (h : fields s = fields t) : s = t := by
  rw [← intercalate_fields s, h, intercalate_fields]

theorem fields_of_notMem (h : '/' ∉ s.toList) : fields s = [s] := by
  simp [fields, Text.fields_of_notMem h]

theorem fields_append_slash (s t : String) : fields (s ++ "/" ++ t) = fields s ++ fields t := by
  have hchars : (s ++ "/" ++ t).toList = s.toList ++ '/' :: t.toList := by
    simp [String.toList_append]
  rw [fields, hchars, Text.fields_append, List.map_append]
  rfl

theorem IsPlain.ofText (h : IsPlain s) : ofText s = ⟨.relative, fields s⟩ := by
  have hsegments : segmentsOf s = fields s :=
    List.filter_eq_self.2 fun name hname => by simpa using ⟨(h name hname).1, (h name hname).2.1⟩
  have hanchor : anchorOf s.toList = .relative := by
    cases hchars : s.toList with
    | nil => rfl
    | cons c cs =>
      by_cases hc : c = '/'
      · -- A slash in front would have an empty name before it.
        have hmem : "" ∈ fields s := by
          rw [fields, hchars, hc, Text.fields_cons, if_pos rfl]
          exact List.mem_cons_self
        exact absurd rfl (h "" hmem).1
      · rw [anchorOf, List.takeWhile_cons_of_neg (by simpa using hc)]
        rfl
  rw [Path.ofText, hanchor, hsegments]

/-- The names of one path begin with those of the other, and there are more of them. -/
def IsAbove (s t : String) : Prop := fields s <+: fields t ∧ fields s ≠ fields t

/-- One of the two paths leads through the other. -/
def Clash (s t : String) : Prop := IsAbove s t ∨ IsAbove t s

theorem utf8ByteSize_text_le_child {directory : Path} (h : directory.segments ≠ [])
    (name : String) : directory.text.utf8ByteSize ≤ (directory.child name).text.utf8ByteSize := by
  have hconcat : "/".intercalate (directory.segments ++ [name]) =
      "/".intercalate directory.segments ++ "/" ++ name := by
    rw [String.intercalate_append_of_ne_nil h (by simp), String.intercalate_singleton]
  have hdot : ("." : String).utf8ByteSize = 1 := by decide
  have hsep : ("/" : String).utf8ByteSize = 1 := by decide
  rw [text, text, anchor_child, segments_child, hconcat, ← String.append_assoc,
    ← String.append_assoc]
  generalize directory.anchor.text ++ "/".intercalate directory.segments = s
  have hlong : (s ++ "/" ++ name).utf8ByteSize =
      s.utf8ByteSize + 1 + name.utf8ByteSize := by
    rw [String.utf8ByteSize_append, String.utf8ByteSize_append, hsep]
  have hne : s ++ "/" ++ name ≠ "" := by
    intro hempty
    rw [hempty, String.utf8ByteSize_empty] at hlong
    omega
  rw [if_neg hne]
  split <;> omega

end Path

def unitFile (seed : Int) (path : String) : String := s!"out/seed_{seed}/{path}"

def unitNames (seed : Int) (path : String) : List String :=
  "out" :: s!"seed_{seed}" :: Path.fields path

def programDirectory (seed : Int) : Path :=
  (Path.ofText "out").join (Path.ofText s!"seed_{seed}")

section UnitFile

variable {seed : Int} {path path' : String}

theorem slash_notMem_seed (seed : Int) : '/' ∉ (s!"seed_{seed}").toList := by
  rw [← seedName_empty, toList_seedName, List.mem_append, List.mem_append, not_or, not_or]
  exact ⟨by decide, Config.notMem_toString (by decide) (by decide) seed, by decide⟩

theorem fields_unitFile (seed : Int) (path : String) :
    Path.fields (unitFile seed path) = unitNames seed path := by
  have hfile : unitFile seed path = "out" ++ "/" ++ s!"seed_{seed}" ++ "/" ++ path := by
    have hstart : "out/seed_" = "out" ++ "/" ++ "seed_" := by decide
    change "out/seed_" ++ toString seed ++ "/" ++ path =
      "out" ++ "/" ++ ("seed_" ++ toString seed) ++ "/" ++ path
    rw [hstart]
    simp only [String.append_assoc]
  rw [hfile, Path.fields_append_slash, Path.fields_append_slash,
    Path.fields_of_notMem (slash_notMem_seed seed), Path.fields_of_notMem (by decide)]
  rfl

theorem isPlain_unitFile (h : Path.IsPlain path) (seed : Int) :
    Path.IsPlain (unitFile seed path) := by
  intro name hname
  rw [fields_unitFile, unitNames, List.mem_cons, List.mem_cons] at hname
  rcases hname with rfl | rfl | hname
  · decide
  · rw [← seedName_empty]
    exact ⟨seedName_ne (by decide) _ _, seedName_ne (by decide) _ _, seedName_ne (by decide) _ _⟩
  · exact h name hname

theorem ofText_unitFile (h : Path.IsPlain path) (seed : Int) :
    Path.ofText (unitFile seed path) = ⟨.relative, unitNames seed path⟩ := by
  rw [(isPlain_unitFile h seed).ofText, fields_unitFile]

theorem ofText_out : Path.ofText "out" = ⟨.relative, ["out"]⟩ :=
  Path.ofText_of_notMem (by decide) (by decide) (by decide)

theorem programDirectory_join (h : Path.IsPlain path) (seed : Int) :
    (programDirectory seed).join (Path.ofText path) = ⟨.relative, unitNames seed path⟩ := by
  have hseed : Path.ofText s!"seed_{seed}" = ⟨.relative, [s!"seed_{seed}"]⟩ := by
    rw [← seedName_empty]
    exact Path.ofText_of_notMem (seedName_empty seed ▸ slash_notMem_seed seed)
      (seedName_ne (by decide) _ _) (seedName_ne (by decide) _ _)
  rw [programDirectory, hseed, ofText_out, h.ofText]
  rfl

theorem unitNames_inj (h : unitNames seed path = unitNames seed path') : path = path' := by
  rw [unitNames, unitNames, List.cons.injEq, List.cons.injEq] at h
  exact Path.fields_injective h.2.2

theorem isAbove_iff (seed : Int) : Path.IsAbove path path' ↔
    IsOnWayTo (unitNames seed path) (unitNames seed path') :=
  (isOnWayTo_append_left_iff ["out", s!"seed_{seed}"]).symm

structure IsFiledIn (seed : Int) (path : String) (directory : Path) (name : String) : Prop where
  anchor : directory.anchor = .relative
  segments : unitNames seed path = directory.segments ++ [name]
  above : directory.segments ≠ []

theorem exists_isFiledIn (seed : Int) (path : String) :
    ∃ directory name, IsFiledIn seed path directory name := by
  rcases List.eq_nil_or_concat' (unitNames seed path) with hnil | ⟨names, name, hsplit⟩
  · cases hnil
  · refine ⟨⟨.relative, names⟩, name, rfl, hsplit, ?_⟩
    rintro rfl
    cases hsplit

theorem IsFiledIn.child_eq {directory : Path} {name : String}
    (h : IsFiledIn seed path directory name) :
    directory.child name = ⟨.relative, unitNames seed path⟩ := by
  rw [Path.child, h.segments, h.anchor]

theorem IsFiledIn.isAbove_iff {directory : Path} {name : String}
    (h : IsFiledIn seed path directory name) :
    Path.IsAbove path' path ↔ unitNames seed path' <+: directory.segments := by
  rw [SoliditySynth.isAbove_iff seed, h.segments, isOnWayTo_concat_iff]

theorem IsFiledIn.unitActions_eq {directory : Path} {name : String}
    (h : IsFiledIn seed path directory name) (hplain : Path.IsPlain path) (content : String) :
    Plan.unitActions (programDirectory seed) (path, content) =
      [.makeDirectories directory, .write (directory.child name) content] := by
  rw [Plan.unitActions, programDirectory_join hplain, ← h.child_eq, Path.parent_child]

end UnitFile

namespace FileTree

/-- A path that a file can have: neither the path nor any of its names is too long, and no name
holds the NUL character. -/
structure Allows (path : Path) : Prop where
  check : checkPath path = .ok ()
  fits : ∀ name ∈ path.segments, name.utf8ByteSize ≤ nameLimit

theorem checkPath_of_child {directory : Path} {name : String} (h : directory.segments ≠ [])
    (hcheck : checkPath (directory.child name) = .ok ()) : checkPath directory = .ok () := by
  obtain ⟨hnul, hsize⟩ := checkPath_eq_ok_iff.1 hcheck
  have hle := Path.utf8ByteSize_text_le_child h name
  exact checkPath_eq_ok_iff.2
    ⟨fun name' hname' => hnul name' (List.mem_append_left _ hname'), by omega⟩

variable {seed : Int} {path : String}

theorem Allows.isName (h : Allows (Path.ofText (unitFile seed path)))
    (hplain : Path.IsPlain path) : ∀ name ∈ unitNames seed path, IsName name := by
  obtain ⟨hcheck, hfits⟩ := h
  obtain ⟨hnul, -⟩ := checkPath_eq_ok_iff.1 hcheck
  rw [ofText_unitFile hplain] at hnul hfits
  intro name hname
  have hfield : name ∈ Path.fields (unitFile seed path) := fields_unitFile seed path ▸ hname
  obtain ⟨hempty, hdot, hup⟩ := isPlain_unitFile hplain seed name hfield
  exact ⟨Path.slash_notMem_of_mem_fields hfield, hnul name hname, hempty, hdot, hup,
    hfits name hname⟩

theorem Allows.isNamed {directory : Path} {name : String}
    (h : Allows (Path.ofText (unitFile seed path))) (hplain : Path.IsPlain path)
    (hfiled : IsFiledIn seed path directory name) :
    IsNamed directory name := by
  have hnames := h.isName hplain
  have hentry := h.check
  rw [hfiled.segments] at hnames
  rw [ofText_unitFile hplain, ← hfiled.child_eq] at hentry
  exact ⟨hnames, checkPath_of_child hfiled.above hentry, hentry⟩

end FileTree

end SoliditySynth
