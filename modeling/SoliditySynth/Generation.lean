import SoliditySynth.Draw
import SoliditySynth.Header

namespace SoliditySynth.Synth

variable {σ : Type}

def collect (m : Synth σ String) : Nat → Synth σ (List String)
  | 0 => return []
  | n + 1 => do
    let text ← m
    let texts ← collect m n
    return text :: texts

/-- The texts of all children of one kind, written by `gen`. -/
def visitChild (gen : Kind → Synth σ String) (parent child : Kind) : Synth σ (List String) := do
  requireKind child
  let n ← weight parent child
  collect (gen child) n.toNat

/-- The texts of the children at one place. The children are looked up anew for each place, since a
child may have planned those of its own parent in the meantime; there must still be as many. -/
def visitPlace (gen : Kind → Synth σ String) (parent : Kind) (size place : Nat) :
    Synth σ (List String) := do
  let kinds := ((← get).children.get parent).keys
  if kinds.length ≠ size then throw .childrenChanged
  match kinds[place]? with
  | some kind => visitChild gen parent kind
  | none => return []

theorem run_visitPlace (gen : Kind → Synth σ String) (parent : Kind) (size place : Nat)
    (bench : Workbench σ) :
    (visitPlace gen parent size place).run bench =
      if (bench.children.get parent).keys.length = size then
        match (bench.children.get parent).keys[place]? with
        | some kind => (visitChild gen parent kind).run bench
        | none => (.ok [], bench)
      else (.error .childrenChanged, bench) := by
  rw [visitPlace, run_bind, run_get]
  by_cases hsize : (bench.children.get parent).keys.length = size
  · simp only [hsize, ne_eq, not_true, if_false, if_true]
    split
    · rfl
    · rfl
  · simp only [hsize, ne_eq, not_false_iff, if_true, if_false]
    rfl

def visitPlaces (gen : Kind → Synth σ String) (parent : Kind) (size : Nat) :
    List Nat → Synth σ (List String)
  | [] => return []
  | place :: places => do
    let texts ← visitPlace gen parent size place
    let rest ← visitPlaces gen parent size places
    return texts ++ rest

/-- The texts of all declared children, as lines. The place after the last is visited as well, only
to see that the number of children is the same. -/
def visitChildren (gen : Kind → Synth σ String) (parent : Kind) : Synth σ String := do
  let size := ((← get).children.get parent).keys.length
  return Text.joinLines (← visitPlaces gen parent size (List.range (size + 1)))

def addUnit : Synth σ String := do
  let draft ← draft
  let path := draft.nextPath (← config)
  setDraft (draft.add path)
  return path

theorem addUnit_eq_ok {path : String} {bench bench' : Workbench σ}
    (h : addUnit.run bench = (.ok path, bench')) :
    bench.config.unitPath bench.draft.added = path ∧
      { bench with draft := bench.draft.add path } = bench' := by
  obtain rfl : bench.config.unitPath bench.draft.added = path :=
    Except.ok.inj (congrArg Prod.fst h)
  exact ⟨rfl, congrArg Prod.snd h⟩

def writeUnit (gen : Kind → Synth σ String) : Synth σ String := do
  let path ← addUnit
  let body ← gen .sourceUnit
  return Text.joinLines [Header.line path, body, ""]

def writeTestCase (gen : Kind → Synth σ String) : Synth σ String := do
  requireKind .sourceUnit
  match ((← get).children.get .testCase).find? .sourceUnit with
  | some n => return Text.joinLines (← collect (writeUnit gen) n.toNat)
  | none => throw .unitsNotPlanned

variable [Random.Sampler σ]

def writePragmas : Synth σ String := do
  let generic ← choose (← config).genericPragmas
  let abi ← choose (← config).abiPragmas
  return Text.joinLines [generic, abi]

def writeImport : Synth σ String := do
  let draft ← draft
  if draft.size ≤ 1 then throw .importNeedsSibling
  let unit ← ofExcept draft.currentUnit
  let importable := draft.importable unit
  if importable = [] then throw (.nothingToImport unit.path)
  let path ← choosePath importable
  updateUnit (← ofExcept (unit.addImport path))
  return "import \"" ++ path ++ "\";"

def writeContract : Synth σ String := do
  let unit ← ofExcept (← draft).currentUnit
  updateUnit unit.addContract
  return "contract " ++ unit.contractName ++ " \x7b\x7d"

/-- Plans the parts of a text. A source unit never plans more imports than it has siblings. -/
def setUp (kind : Kind) : Synth σ Unit := do
  clearChildren kind
  match kind with
  | .testCase => declareChild .testCase .sourceUnit (← oneTo (← config).maxUnits)
  | .sourceUnit =>
    declareChild .sourceUnit .pragma 1
    let siblings := (← draft).size - 1
    if siblings > 0 then
      let n ← oneTo (← config).maxImports
      declareChild .sourceUnit .importDirective (min n siblings)
    declareChild .sourceUnit .contract 1
  | .pragma | .importDirective | .contract => return

/-- Writes the text of a kind as it has been planned; `gen` generates its parts. -/
def visit (gen : Kind → Synth σ String) : Kind → Synth σ String
  | .testCase => writeTestCase gen
  | .sourceUnit => visitChildren gen .sourceUnit
  | .pragma => writePragmas
  | .importDirective => writeImport
  | .contract => writeContract

def generateWith (gen : Kind → Synth σ String) (kind : Kind) : Synth σ String := do
  setUp kind
  let text ← visit gen kind
  note .debug s!"{kind.title}: emitted {text.length} chars"
  return text

theorem generateWith_eq_ok {gen : Kind → Synth σ String} {kind : Kind} {text : String}
    {bench final : Workbench σ} (h : (generateWith gen kind).run bench = (.ok text, final)) :
    ∃ planned visited, (setUp kind).run bench = (.ok (), planned) ∧
      (visit gen kind).run planned = (.ok text, visited) ∧ final.draft = visited.draft := by
  obtain ⟨_, planned, hplan, h⟩ := run_bind_eq_ok.1 h
  obtain ⟨text', visited, hvisit, h⟩ := run_bind_eq_ok.1 h
  obtain ⟨_, noted, hnote, h⟩ := run_bind_eq_ok.1 h
  obtain ⟨rfl, rfl⟩ := run_pure_eq_ok.1 h
  exact ⟨planned, visited, hplan, hvisit, (note_eq_ok hnote).symm⟩

/-- Generation of texts nested no deeper than `depth`; what would lie deeper is left out. -/
def generateAt : Nat → Kind → Synth σ String
  | 0, _ => return ""
  | depth + 1, kind => generateWith (generateAt depth) kind

/-- Generation of any kind: no text is nested deeper than a test case, a source unit and its
parts. -/
def generate : Kind → Synth σ String := generateAt 3

def program : Synth σ String := do
  setDraft .empty
  requireKind .testCase
  let text ← generate .testCase
  let bench ← get
  note .debug s!"seed={bench.seed}: {bench.draft.describe}"
  return text

end SoliditySynth.Synth
