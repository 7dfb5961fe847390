import Mathlib.Algebra.Ring.Int.Defs
import Mathlib.Algebra.Ring.Nat
import SoliditySynth.Output
import SoliditySynth.Proofs.Directories
import SoliditySynth.Proofs.SplitOutput

namespace SoliditySynth

theorem utf8ByteSize_ofList_of_isDigit {cs : List Char} (h : ∀ c ∈ cs, c.isDigit = true) :
    (String.ofList cs).utf8ByteSize = cs.length := by
  induction cs with
  | nil => rfl
  | cons c cs ih =>
    have hc : c.utf8Size = 1 := by
      have hdigit := h c List.mem_cons_self
      have hbounds : 48 ≤ c.toNat ∧ c.toNat ≤ 57 := by
        simpa [Char.isDigit, UInt32.le_iff_toNat_le] using hdigit
      rw [Char.utf8Size_eq_one_iff, UInt32.le_iff_toNat_le]
      change c.toNat ≤ 127
      omega
    have hcons : String.ofList (c :: cs) = String.singleton c ++ String.ofList cs := by
      apply String.toList_injective
      simp
    rw [hcons, String.utf8ByteSize_append, String.utf8ByteSize_singleton, hc,
      ih fun c' hc' => h c' (List.mem_cons_of_mem _ hc'), List.length_cons]
    omega

theorem utf8ByteSize_toString_le {n k : Nat} (hk : 0 < k) (hn : n < 10 ^ k) :
    (toString n).utf8ByteSize ≤ k := by
  have hdigits : toString n = String.ofList (Nat.toDigits 10 n) := by
    apply String.toList_injective
    simp
  rw [hdigits, utf8ByteSize_ofList_of_isDigit
    fun c hc => Nat.isDigit_of_mem_toDigits (by decide) (by decide) hc]
  exact (Nat.length_toDigits_le_iff (by decide) hk).2 hn

def seedName (seed : Int) (extension : String) : String := s!"seed_{seed}{extension}"

theorem seedName_empty (seed : Int) : seedName seed "" = s!"seed_{seed}" := String.append_empty

theorem toList_seedName (seed : Int) (extension : String) :
    (seedName seed extension).toList =
      "seed_".toList ++ ((toString seed).toList ++ extension.toList) := by
  rw [← List.append_assoc]
  exact String.toList_append.trans (congrArg (· ++ extension.toList) String.toList_append)

theorem seedName_ne {s : String} (h : s.toList.head? ≠ some 's') (seed : Int)
    (extension : String) : seedName seed extension ≠ s := by
  rintro rfl
  rw [toList_seedName] at h
  exact h rfl

theorem utf8ByteSize_seedName_le {seed : Int} (h : 0 ≤ seed) (hlt : seed < 2 ^ 64)
    (extension : String) :
    (seedName seed extension).utf8ByteSize ≤ 25 + extension.utf8ByteSize := by
  obtain ⟨n, rfl⟩ := Int.eq_ofNat_of_zero_le h
  have hdigits : (toString n).utf8ByteSize ≤ 20 :=
    utf8ByteSize_toString_le (by decide) (by omega)
  have hsize : (seedName n extension).utf8ByteSize =
      ("seed_" : String).utf8ByteSize + (toString n).utf8ByteSize + extension.utf8ByteSize :=
    String.utf8ByteSize_append.trans (congrArg (· + _) String.utf8ByteSize_append)
  have hstart : ("seed_" : String).utf8ByteSize = 5 := by decide
  omega

theorem isName_seedName {seed : Int} (h : 0 ≤ seed) (hlt : seed < 2 ^ 64) {extension : String}
    (hslash : '/' ∉ extension.toList) (hnul : '\x00' ∉ extension.toList)
    (hsize : extension.utf8ByteSize ≤ 5) : FileTree.IsName (seedName seed extension) where
  slash := by
    rw [toList_seedName, List.mem_append, List.mem_append, not_or, not_or]
    exact ⟨by decide, Config.notMem_toString (by decide) (by decide) seed, hslash⟩
  nul := by
    rw [toList_seedName, List.mem_append, List.mem_append, not_or, not_or]
    exact ⟨by decide, Config.notMem_toString (by decide) (by decide) seed, hnul⟩
  notEmpty := seedName_ne (by decide) _ _
  notHere := seedName_ne (by decide) _ _
  notUp := seedName_ne (by decide) _ _
  fits := by
    have := utf8ByteSize_seedName_le h hlt extension
    have : FileTree.nameLimit = 255 := rfl
    omega

theorem seedName_inj {seed seed' : Int} (h : 0 ≤ seed) (h' : 0 ≤ seed') {extension : String}
    (he : seedName seed extension = seedName seed' extension) : seed = seed' := by
  obtain ⟨n, rfl⟩ := Int.eq_ofNat_of_zero_le h
  obtain ⟨n', rfl⟩ := Int.eq_ofNat_of_zero_le h'
  have hl := congrArg String.toList he
  rw [toList_seedName, toList_seedName, List.append_cancel_left_eq,
    List.append_cancel_right_eq] at hl
  have hdigits (k : Nat) : (toString (k : Int)).toList = Nat.toDigits 10 k := by
    change (toString k).toList = _
    simp
  rw [hdigits, hdigits] at hl
  rw [Config.toDigits_injective hl]

theorem seedName_empty_ne {extension : String} (hdot : '.' ∈ extension.toList)
    (seed seed' : Int) : seedName seed "" ≠ seedName seed' extension := by
  intro he
  have hmem : '.' ∈ (seedName seed "").toList := by
    rw [he, toList_seedName]
    exact List.mem_append_right _ (List.mem_append_right _ hdot)
  rw [toList_seedName, List.mem_append, List.mem_append] at hmem
  rcases hmem with hmem | hmem | hmem
  · exact absurd hmem (by decide)
  · exact Config.notMem_toString (by decide) (by decide) seed hmem
  · exact absurd hmem (by decide)

theorem dot_mem_extension (format : Format) : '.' ∈ format.extension.toList := by
  cases format <;> decide

theorem isName_fileName {seed : Int} (h : 0 ≤ seed) (hlt : seed < 2 ^ 64) (format : Format) :
    FileTree.IsName (seedName seed format.extension) :=
  isName_seedName h hlt (by cases format <;> decide) (by cases format <;> decide)
    (by cases format <;> decide)

theorem isName_folderName {seed : Int} (h : 0 ≤ seed) (hlt : seed < 2 ^ 64) :
    FileTree.IsName (seedName seed "") :=
  isName_seedName h hlt (by decide) (by decide) (by decide)

theorem utf8ByteSize_unitPath_le {number : Nat} (h : number < 10) :
    (Config.standard.unitPath number).utf8ByteSize ≤ 7 := by
  have hdigit : (toString number).utf8ByteSize ≤ 1 :=
    utf8ByteSize_toString_le (by decide) (by omega)
  have hstart : Config.standard.unitPrefix.utf8ByteSize = 2 := by decide
  have hend : Config.standard.unitSuffix.utf8ByteSize = 4 := by decide
  rw [Config.unitPath, String.utf8ByteSize_append, String.utf8ByteSize_append]
  omega

theorem notMem_unitPath {c : Char} (hdigit : c.isDigit = false)
    (hstart : c ∉ Config.standard.unitPrefix.toList) (hend : c ∉ Config.standard.unitSuffix.toList)
    (number : Nat) : c ∉ (Config.standard.unitPath number).toList := by
  rw [Config.toList_unitPath, List.mem_append, List.mem_append, not_or, not_or]
  exact ⟨⟨hstart, Config.notMem_toDigits hdigit number⟩, hend⟩

theorem unitPath_ne {s : String} (h : s.toList.head? ≠ some 's') (number : Nat) :
    Config.standard.unitPath number ≠ s := by
  rintro rfl
  rw [Config.toList_unitPath] at h
  exact h rfl

theorem isName_unitPath {number : Nat} (h : number < 10) :
    FileTree.IsName (Config.standard.unitPath number) where
  slash := notMem_unitPath (by decide) (by decide) (by decide) number
  nul := notMem_unitPath (by decide) (by decide) (by decide) number
  notEmpty := unitPath_ne (by decide) number
  notHere := unitPath_ne (by decide) number
  notUp := unitPath_ne (by decide) number
  fits := Nat.le_trans (utf8ByteSize_unitPath_le h) (by decide)

theorem FileTree.IsName.join_ofText {name : String} (h : FileTree.IsName name)
    (directory : Path) : directory.join (Path.ofText name) = directory.child name := by
  rw [Path.ofText_of_notMem h.slash h.notEmpty h.notHere]
  rfl

end SoliditySynth
