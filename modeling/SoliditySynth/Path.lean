import SoliditySynth.Text.Fields

namespace SoliditySynth

/-- Where a path starts. Two leading slashes are told apart from one, and from three or more. -/
inductive Anchor where
  | relative
  | root
  | doubleRoot
deriving DecidableEq

def Anchor.text : Anchor → String
  | .relative => ""
  | .root => "/"
  | .doubleRoot => "//"

structure Path where
  anchor : Anchor
  segments : List String
deriving DecidableEq

namespace Path

def anchorOf (cs : List Char) : Anchor :=
  match (cs.takeWhile (· == '/')).length with
  | 0 => .relative
  | 2 => .doubleRoot
  | _ => .root

/-- The named segments of a path's text, with `..` among them. -/
def segmentsOf (s : String) : List String :=
  ((Text.fields '/' s.toList).map String.ofList).filter fun f => f ≠ "" ∧ f ≠ "."

def ofText (s : String) : Path := ⟨anchorOf s.toList, segmentsOf s⟩

def text (p : Path) : String :=
  let s := p.anchor.text ++ "/".intercalate p.segments
  if s = "" then "." else s

/-- A path read from the directory `p`; one that does not start there replaces it. -/
def join (p q : Path) : Path :=
  match q.anchor with
  | .relative => ⟨p.anchor, p.segments ++ q.segments⟩
  | _ => q

def parent (p : Path) : Path := { p with segments := p.segments.dropLast }

def name (p : Path) : String := p.segments.getLastD ""

/-- A file name without its extension: what stands before the last dot. A dot at either end of the
name starts no extension. -/
def dropExtension (cs : List Char) : List Char :=
  match cs.reverse.dropWhile (· ≠ '.') with
  | _ :: c :: before => if cs.getLast? = some '.' then cs else (c :: before).reverse
  | _ => cs

theorem mem_of_mem_dropExtension {c : Char} {cs : List Char} (h : c ∈ dropExtension cs) :
    c ∈ cs := by
  rw [dropExtension] at h
  split at h
  · next d before hdrop =>
    split at h
    · exact h
    · have hmem : c ∈ cs.reverse.dropWhile (· ≠ '.') := by
        rw [hdrop]
        exact List.mem_cons_of_mem _ (List.mem_reverse.1 h)
      exact List.mem_reverse.1 ((List.dropWhile_sublist _).mem hmem)
  · exact h

def stem (p : Path) : String := String.ofList (dropExtension p.name.toList)

theorem mem_of_mem_stem {s : String} {c : Char} (h : c ∈ (ofText s).stem.toList) :
    c ∈ s.toList := by
  rw [stem, String.toList_ofList] at h
  have hname := mem_of_mem_dropExtension h
  rw [name, List.getLastD_eq_getLast?] at hname
  cases hlast : (ofText s).segments.getLast? with
  | none => simp [hlast] at hname
  | some segment =>
    rw [hlast, Option.getD_some] at hname
    have hsegment := List.mem_of_getLast? hlast
    simp only [ofText, segmentsOf, List.mem_filter, List.mem_map] at hsegment
    obtain ⟨⟨f, hf, rfl⟩, -⟩ := hsegment
    rw [String.toList_ofList] at hname
    exact Text.mem_of_mem_fields hf hname

end Path

end SoliditySynth
