namespace SoliditySynth

inductive Kind where
  | testCase
  | sourceUnit
  | pragma
  | importDirective
  | contract
deriving DecidableEq

namespace Kind

def all : List Kind := [.testCase, .sourceUnit, .pragma, .importDirective, .contract]

/-- The kind's name in error messages. -/
def label : Kind → String
  | .testCase => "TEST_CASE"
  | .sourceUnit => "SOURCE_UNIT"
  | .pragma => "PRAGMA"
  | .importDirective => "IMPORT"
  | .contract => "CONTRACT"

/-- The kind's name in the log. -/
def title : Kind → String
  | .testCase => "Test case generator"
  | .sourceUnit => "Source unit generator"
  | .pragma => "Pragma generator"
  | .importDirective => "Import generator"
  | .contract => "Contract generator"

end Kind

structure PerKind (α : Type) where
  testCase : α
  sourceUnit : α
  pragma : α
  importDirective : α
  contract : α
deriving DecidableEq

namespace PerKind

variable {α : Type}

def const (a : α) : PerKind α := ⟨a, a, a, a, a⟩

def get (t : PerKind α) : Kind → α
  | .testCase => t.testCase
  | .sourceUnit => t.sourceUnit
  | .pragma => t.pragma
  | .importDirective => t.importDirective
  | .contract => t.contract

def set (t : PerKind α) (k : Kind) (a : α) : PerKind α :=
  match k with
  | .testCase => { t with testCase := a }
  | .sourceUnit => { t with sourceUnit := a }
  | .pragma => { t with pragma := a }
  | .importDirective => { t with importDirective := a }
  | .contract => { t with contract := a }

@[simp] theorem get_const (a : α) (k : Kind) : (const a).get k = a := by cases k <;> rfl

@[simp] theorem get_set_self (t : PerKind α) (k : Kind) (a : α) : (t.set k a).get k = a := by
  cases k <;> rfl

theorem get_set (t : PerKind α) (k l : Kind) (a : α) :
    (t.set k a).get l = if k = l then a else t.get l := by
  cases k <;> cases l <;> rfl

end PerKind

end SoliditySynth
