import Mathlib.Data.List.Basic
import Mathlib.Data.List.Induction
import Mathlib.Data.List.TakeWhile
import SoliditySynth.Config
import SoliditySynth.Path

namespace SoliditySynth

namespace Text

/-- What stands behind the last separator, or the whole text where there is none. -/
def afterLast (sep : Char) (cs : List Char) : List Char :=
  (cs.reverse.takeWhile (· ≠ sep)).reverse

theorem takeWhile_of_notMem {sep : Char} {cs : List Char} (h : sep ∉ cs) :
    cs.takeWhile (· ≠ sep) = cs := by
  rw [List.takeWhile_eq_self_iff]
  intro c hc
  have hne : c ≠ sep := fun he => h (he ▸ hc)
  exact decide_eq_true hne

theorem dropWhile_of_notMem {sep : Char} {cs : List Char} (h : sep ∉ cs) :
    cs.dropWhile (· ≠ sep) = [] := by
  rw [List.dropWhile_eq_nil_iff]
  intro c hc
  have hne : c ≠ sep := fun he => h (he ▸ hc)
  exact decide_eq_true hne

theorem afterLast_of_notMem {sep : Char} {cs : List Char} (h : sep ∉ cs) :
    afterLast sep cs = cs := by
  rw [afterLast, takeWhile_of_notMem (mt List.mem_reverse.1 h), List.reverse_reverse]

theorem afterLast_append {sep : Char} {front back : List Char} (h : sep ∉ back) :
    afterLast sep (front ++ sep :: back) = back := by
  have htake : (back.reverse ++ sep :: front.reverse).takeWhile (· ≠ sep) = back.reverse := by
    have hback (c : Char) (hc : c ∈ back.reverse) : decide (c ≠ sep) = true := by
      have hne : c ≠ sep := fun he => h (he ▸ List.mem_reverse.1 hc)
      exact decide_eq_true hne
    rw [List.takeWhile_append_of_pos hback]
    simp
  rw [afterLast, List.reverse_append, List.reverse_cons, List.append_assoc, List.singleton_append,
    htake, List.reverse_reverse]

theorem eq_append_afterLast {sep : Char} {cs : List Char} (h : sep ∈ cs) :
    ∃ front, cs = front ++ sep :: afterLast sep cs ∧ sep ∉ afterLast sep cs := by
  obtain ⟨back, front, hcs, hback⟩ := List.eq_append_cons_of_mem (List.mem_reverse.2 h)
  have hsplit : cs = front.reverse ++ sep :: back.reverse := by
    rw [← List.reverse_reverse cs, hcs]
    simp
  have hnew : sep ∉ back.reverse := mt List.mem_reverse.1 hback
  have hafter : afterLast sep cs = back.reverse := by
    rw [hsplit, afterLast_append hnew]
  exact ⟨front.reverse, by rw [hafter, ← hsplit], by rwa [hafter]⟩

theorem exists_fields_append (sep : Char) (cs : List Char) {back : List Char} (h : sep ∉ back) :
    ∃ fs, fields sep (cs ++ back) = fs ++ [afterLast sep cs ++ back] := by
  by_cases hcs : sep ∈ cs
  · obtain ⟨front, hfront, hafter⟩ := eq_append_afterLast hcs
    have hfield : sep ∉ afterLast sep cs ++ back := by simp [hafter, h]
    refine ⟨fields sep front, ?_⟩
    rw [← fields_of_notMem hfield, ← fields_append, ← List.cons_append, ← List.append_assoc,
      ← hfront]
  · refine ⟨[], ?_⟩
    rw [fields_of_notMem (by simp [hcs, h]), afterLast_of_notMem hcs, List.nil_append]

theorem append_sep_inj {sep : Char} {front front' back back' : List Char} (h : sep ∉ back)
    (h' : sep ∉ back') (he : front ++ sep :: back = front' ++ sep :: back') :
    front = front' ∧ back = back' := by
  have hback := congrArg (afterLast sep) he
  rw [afterLast_append h, afterLast_append h'] at hback
  subst hback
  exact ⟨List.append_cancel_right he, rfl⟩

end Text

namespace Path

theorem dropExtension_of_notMem {cs : List Char} (h : '.' ∉ cs.tail) : dropExtension cs = cs := by
  cases cs with
  | nil => rfl
  | cons c cs =>
    rw [List.tail_cons] at h
    rw [dropExtension, List.reverse_cons, List.dropWhile_append,
      Text.dropWhile_of_notMem (mt List.mem_reverse.1 h), List.isEmpty_nil, if_pos rfl]
    by_cases hc : c = '.'
    · simp [hc]
    · simp [hc]

/-- The last dot of a name starts its extension, unless it begins or ends the name. -/
theorem dropExtension_append {front ext : List Char} (hfront : front ≠ []) (hext : '.' ∉ ext) :
    dropExtension (front ++ '.' :: ext) = if ext = [] then front ++ ['.'] else front := by
  have hdrop : (front ++ '.' :: ext).reverse.dropWhile (· ≠ '.') = '.' :: front.reverse := by
    rw [List.reverse_append, List.reverse_cons, List.append_assoc, List.dropWhile_append,
      Text.dropWhile_of_notMem (mt List.mem_reverse.1 hext)]
    simp
  obtain ⟨c, before, hbefore⟩ := List.exists_cons_of_ne_nil (mt List.reverse_eq_nil_iff.1 hfront)
  have hlast : (front ++ '.' :: ext).getLast? = some '.' ↔ ext = [] := by
    cases ext using List.reverseRecOn with
    | nil => simp
    | append_singleton ext c =>
      have hc : c ≠ '.' := fun he => hext (by simp [he])
      rw [← List.cons_append, ← List.append_assoc, List.getLast?_concat]
      simp [hc]
  rw [dropExtension, hdrop, hbefore]
  simp only [hlast, ← hbefore, List.reverse_reverse]
  split
  · next he => rw [he]
  · rfl

theorem toList_name_ofText {s : String} {cs back : List Char} (hs : s.toList = cs ++ back)
    (hback : '/' ∉ back) (hempty : Text.afterLast '/' cs ++ back ≠ [])
    (hdot : Text.afterLast '/' cs ++ back ≠ ['.']) :
    (ofText s).name.toList = Text.afterLast '/' cs ++ back := by
  obtain ⟨fs, hfields⟩ := Text.exists_fields_append '/' cs hback
  generalize Text.afterLast '/' cs ++ back = last at *
  have hempty' : String.ofList last ≠ "" := by
    intro he
    exact hempty (by simpa using congrArg String.toList he)
  have hdot' : String.ofList last ≠ "." := by
    intro he
    exact hdot (by simpa using congrArg String.toList he)
  have hkept : [String.ofList last].filter (fun f => f ≠ "" ∧ f ≠ ".") = [String.ofList last] := by
    rw [List.filter_eq_self]
    intro f hf
    rw [List.mem_singleton.1 hf]
    exact decide_eq_true ⟨hempty', hdot'⟩
  rw [name, ofText, segmentsOf, hs, hfields, List.map_append, List.filter_append,
    List.map_singleton, hkept, List.getLastD_concat, String.toList_ofList]

end Path

namespace Config

variable {config : Config}

/-- The part of the prefix behind its last slash, with which the file names of units start. -/
def nameStart (config : Config) : List Char := Text.afterLast '/' config.unitPrefix.toList

/-- The number of a unit is not cut off with the extension of its file name: the last dot of the
name, if there is one, stands behind the number or at the very start. -/
def KeepsNumbers (config : Config) : Prop :=
  '.' ∈ config.unitSuffix.toList ∨ '.' ∉ config.nameStart.tail

instance (config : Config) : Decidable config.KeepsNumbers := inferInstanceAs (Decidable (_ ∨ _))

theorem toList_stem_unitPath (hslash : '/' ∉ config.unitSuffix.toList) (number : Nat) :
    (Path.ofText (config.unitPath number)).stem.toList =
      Path.dropExtension
        (config.nameStart ++ (Nat.toDigits 10 number ++ config.unitSuffix.toList)) := by
  have hpath := config.toList_unitPath number
  rw [List.append_assoc] at hpath
  have hback : '/' ∉ Nat.toDigits 10 number ++ config.unitSuffix.toList := by
    simp [notMem_toDigits, hslash]
  have hdigit : ∃ c ∈ config.nameStart ++ (Nat.toDigits 10 number ++ config.unitSuffix.toList),
      c.isDigit = true := by
    obtain ⟨c, cs, hcs⟩ := List.exists_cons_of_ne_nil (Nat.toDigits_ne_nil (b := 10) (n := number))
    have hc : c ∈ Nat.toDigits 10 number := by simp [hcs]
    exact ⟨c, by simp [hc], Nat.isDigit_of_mem_toDigits (by decide) (by decide) hc⟩
  obtain ⟨c, hc, hdigit⟩ := hdigit
  have hname := Path.toList_name_ofText hpath hback
    (fun he => by rw [nameStart, he] at hc; cases hc)
    (fun he => by rw [nameStart, he, List.mem_singleton] at hc; rw [hc] at hdigit; cases hdigit)
  rw [Path.stem, String.toList_ofList, hname, nameStart]

/-- Where numbers are kept, the stem of a unit is its number between fixed texts. -/
theorem KeepsNumbers.exists_toList_stem (h : config.KeepsNumbers)
    (hslash : '/' ∉ config.unitSuffix.toList) :
    ∃ back, ∀ number, (Path.ofText (config.unitPath number)).stem.toList =
      config.nameStart ++ (Nat.toDigits 10 number ++ back) := by
  by_cases hsuffix : '.' ∈ config.unitSuffix.toList
  · obtain ⟨front, hfront, hext⟩ := Text.eq_append_afterLast hsuffix
    -- The last dot is in the suffix; as the last character it stays, with all before it.
    refine ⟨if Text.afterLast '.' config.unitSuffix.toList = [] then front ++ ['.'] else front, ?_⟩
    intro number
    have hne : config.nameStart ++ (Nat.toDigits 10 number ++ front) ≠ [] := by
      simp [Nat.toDigits_ne_nil]
    have hsplit : config.nameStart ++ (Nat.toDigits 10 number ++ config.unitSuffix.toList) =
        config.nameStart ++ (Nat.toDigits 10 number ++ front) ++
          '.' :: Text.afterLast '.' config.unitSuffix.toList := by
      conv_lhs => rw [hfront]
      simp
    rw [toList_stem_unitPath hslash, hsplit, Path.dropExtension_append hne hext]
    split
    · simp
    · rfl
  · refine ⟨config.unitSuffix.toList, fun number => ?_⟩
    have hprefix := h.resolve_left hsuffix
    rw [toList_stem_unitPath hslash, Path.dropExtension_of_notMem]
    have hdigits := notMem_toDigits (c := '.') (by decide) number
    cases hstart : config.nameStart with
    | nil =>
      intro hmem
      have hback := List.mem_of_mem_tail hmem
      simp [hdigits, hsuffix] at hback
    | cons c cs =>
      rw [hstart] at hprefix
      simpa [hdigits, hsuffix] using hprefix

theorem KeepsNumbers.stem_injective (h : config.KeepsNumbers)
    (hslash : '/' ∉ config.unitSuffix.toList) {m n : Nat}
    (he : (Path.ofText (config.unitPath m)).stem = (Path.ofText (config.unitPath n)).stem) :
    m = n := by
  obtain ⟨back, hback⟩ := h.exists_toList_stem hslash
  have hl := congrArg String.toList he
  rw [hback, hback, List.append_cancel_left_eq, List.append_cancel_right_eq] at hl
  exact toDigits_injective hl

theorem exists_stem_of_not_keepsNumbers (h : ¬config.KeepsNumbers)
    (hslash : '/' ∉ config.unitSuffix.toList) :
    ∃ stem, ∀ number, (Path.ofText (config.unitPath number)).stem = stem := by
  rw [KeepsNumbers, not_or, not_not] at h
  obtain ⟨hsuffix, hprefix⟩ := h
  obtain ⟨front, hfront, hext⟩ := Text.eq_append_afterLast (List.mem_of_mem_tail hprefix)
  have hne : front ≠ [] := by
    rintro rfl
    rw [hfront] at hprefix
    exact hext hprefix
  refine ⟨String.ofList front, fun number => String.toList_injective ?_⟩
  have hsplit : config.nameStart ++ (Nat.toDigits 10 number ++ config.unitSuffix.toList) =
      front ++ '.' :: (Text.afterLast '.' config.nameStart ++
        (Nat.toDigits 10 number ++ config.unitSuffix.toList)) := by
    conv_lhs => rw [hfront]
    simp
  have hdigits := notMem_toDigits (c := '.') (by decide) number
  rw [toList_stem_unitPath hslash, hsplit,
    Path.dropExtension_append hne (by simp [hext, hdigits, hsuffix]),
    if_neg (by simp [Nat.toDigits_ne_nil]), String.toList_ofList]

end Config

end SoliditySynth
