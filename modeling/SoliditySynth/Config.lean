import SoliditySynth.Text.Integer

namespace SoliditySynth

/-- Bounds may be any integers; generation fails where a bound leaves nothing to choose from. -/
structure Config where
  /-- A program has between one and this many units. -/
  maxUnits : Int := 3
  /-- A unit asks for between one and this many imports. -/
  maxImports : Int := 2
  unitPrefix : String := "su"
  unitSuffix : String := ".sol"
  genericPragmas : List String :=
    ["// SPDX-License-Identifier: GPL-3.0", "pragma solidity >= 0.0.0;",
      "pragma experimental SMTChecker;"]
  abiPragmas : List String := ["pragma abicoder v1;", "pragma abicoder v2;"]
  /-- The most digits of an integer that can be written out, where there is such a limit. It is the
  same for all that runs in one process. -/
  maxDigits : Option Nat := some Text.maxDigits
deriving DecidableEq

namespace Config

def standard : Config := {}

/-- The integer can be put into a message. -/
def CanWrite (config : Config) (n : Int) : Prop :=
  ∀ limit ∈ config.maxDigits, (Nat.toDigits 10 n.natAbs).length ≤ limit

instance (config : Config) (n : Int) : Decidable (config.CanWrite n) :=
  inferInstanceAs (Decidable (∀ limit ∈ config.maxDigits, _))

/-- There is a number between one and `n`, and nothing keeps it from being drawn. -/
structure CanDraw (config : Config) (n : Int) : Prop where
  written : config.CanWrite n
  positive : 0 < n

theorem canWrite_of_unlimited {config : Config} (h : config.maxDigits = none) (n : Int) :
    config.CanWrite n := by
  intro limit hlimit
  rw [h] at hlimit
  cases hlimit

def unitPath (config : Config) (number : Nat) : String :=
  config.unitPrefix ++ toString number ++ config.unitSuffix

theorem toList_unitPath (config : Config) (number : Nat) :
    (config.unitPath number).toList =
      config.unitPrefix.toList ++ Nat.toDigits 10 number ++ config.unitSuffix.toList := by
  simp [unitPath, String.toList_append]

theorem toDigits_injective {m n : Nat} (h : Nat.toDigits 10 m = Nat.toDigits 10 n) : m = n := by
  rw [← Nat.ofDigitChars_ten_toDigits (n := m), h, Nat.ofDigitChars_ten_toDigits]

theorem notMem_toDigits {c : Char} (h : c.isDigit = false) (number : Nat) :
    c ∉ Nat.toDigits 10 number := by
  intro hmem
  rw [Nat.isDigit_of_mem_toDigits (by decide) (by decide) hmem] at h
  cases h

theorem notMem_toString {c : Char} (hdigit : c.isDigit = false) (hminus : c ≠ '-') (number : Int) :
    c ∉ (toString number).toList := by
  have hdigits (n : Nat) : c ∉ (toString n).toList := by
    have hl : (toString n).toList = Nat.toDigits 10 n := by simp
    rw [hl]
    exact notMem_toDigits hdigit n
  cases number with
  | ofNat n => exact hdigits n
  | negSucc n =>
    have hl : (toString (Int.negSucc n)).toList = '-' :: (toString (n + 1)).toList :=
      String.toList_append
    rw [hl, List.mem_cons, not_or]
    exact ⟨hminus, hdigits (n + 1)⟩

theorem unitPath_injective (config : Config) {m n : Nat}
    (h : config.unitPath m = config.unitPath n) : m = n := by
  have hl := congrArg String.toList h
  simp only [toList_unitPath, List.append_cancel_right_eq, List.append_cancel_left_eq] at hl
  exact toDigits_injective hl

end Config

end SoliditySynth
