import SoliditySynth.Text.Blank
import SoliditySynth.Text.Fields

namespace SoliditySynth.Header

def opening : List Char := "==== Source: ".toList

def closing : List Char := " ====".toList

def line (path : String) : String :=
  String.ofList (opening ++ path.toList ++ closing)

theorem line_eq (path : String) : line path = "==== Source: " ++ path ++ " ====" := by
  unfold line opening closing
  rw [← String.toList_append, ← String.toList_append, String.ofList_toList]

/-- What stands between an opening and a closing, if the text has both. -/
def between? (opening closing cs : List Char) : Option (List Char) :=
  if opening.isPrefixOf cs then
    let rest := cs.drop opening.length
    if closing.isSuffixOf rest then some (rest.take (rest.length - closing.length)) else none
  else none

/-- The path that a header line names: any text between the two marks, if it is not empty and has
no white space. Other lines name none. -/
def path? (line : String) : Option String :=
  match between? opening closing line.toList with
  | some path => if path ≠ [] ∧ path.all (!Text.isBlank ·) then some (String.ofList path) else none
  | none => none

end SoliditySynth.Header
