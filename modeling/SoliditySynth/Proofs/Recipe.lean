import SoliditySynth.Proofs.Sampling
import SoliditySynth.Generation

namespace SoliditySynth

/-- What generation reads and never changes. -/
structure Setting where
  config : Config
  registered : PerKind Bool

/-- A step on a draft that may draw numbers and may fail. A step that fails keeps the draft that it
has come to. -/
abbrev Recipe := ExceptT Fault (StateT Draft Sampling)

namespace Recipe

variable {α β : Type}

def run (r : Recipe α) (draft : Draft) : Sampling (Except Fault α × Draft) :=
  StateT.run (ExceptT.run r) draft

@[simp] theorem run_pure (a : α) (draft : Draft) :
    (pure a : Recipe α).run draft = pure (.ok a, draft) := rfl

@[simp] theorem run_throw (fault : Fault) (draft : Draft) :
    (throw fault : Recipe α).run draft = pure (.error fault, draft) := rfl

@[simp] theorem run_get (draft : Draft) :
    (get : Recipe Draft).run draft = pure (.ok draft, draft) :=
  rfl

@[simp] theorem run_set (draft draft' : Draft) :
    (set draft' : Recipe PUnit).run draft = pure (.ok ⟨⟩, draft') := rfl

def andThen (k : α → Recipe β) : Except Fault α × Draft → Sampling (Except Fault β × Draft)
  | (.ok a, draft) => (k a).run draft
  | (.error fault, draft) => pure (.error fault, draft)

@[simp] theorem andThen_ok (k : α → Recipe β) (a : α) (draft : Draft) :
    andThen k (.ok a, draft) = (k a).run draft := rfl

@[simp] theorem andThen_error (k : α → Recipe β) (fault : Fault) (draft : Draft) :
    andThen k (.error fault, draft) = pure (.error fault, draft) := rfl

theorem run_bind (r : Recipe α) (k : α → Recipe β) (draft : Draft) :
    (r >>= k).run draft = r.run draft >>= andThen k := by
  change StateT.run (ExceptT.run (r >>= k)) draft = _
  simp only [ExceptT.run_bind, StateT.run_bind, run]
  congr 1
  funext ⟨result, draft'⟩
  cases result <;> rfl

def draw (d : Sampling α) : Recipe α := ExceptT.mk fun draft => return (.ok (← d), draft)

@[simp] theorem run_draw (d : Sampling α) (draft : Draft) :
    (draw d).run draft = d >>= fun a => pure (.ok a, draft) := rfl

theorem run_draw_bind (d : Sampling α) (k : α → Recipe β) (draft : Draft) :
    (draw d >>= k).run draft = d >>= fun a => (k a).run draft := by
  rw [run_bind, run_draw, bind_assoc]
  rfl

def ofExcept : Except Fault α → Recipe α
  | .ok a => pure a
  | .error fault => throw fault

def requireKind (setting : Setting) (kind : Kind) : Recipe Unit :=
  if setting.registered.get kind then return else throw (.unregistered kind)

def pick (n : Nat) : Recipe (Fin n) := do
  if n = 0 then throw (.emptyRange 0)
  draw (.pick n)

def requireWritable (config : Config) (n : Int) : Recipe Unit :=
  if config.CanWrite n then return else throw .tooManyDigits

def oneTo (config : Config) (n : Int) : Recipe Nat := do
  requireWritable config n
  if n ≤ 0 then throw (.emptyRange n)
  return (← pick n.toNat) + 1

def choose (items : List α) : Recipe α := do
  return items.get (← pick items.length)

def choosePath (paths : List String) : Recipe String := do
  if paths = [] then throw .noPath
  choose (sorted paths)

theorem requireWritable_of_canWrite {config : Config} {n : Int} (h : config.CanWrite n) :
    requireWritable config n = pure () := if_pos h

theorem requireWritable_of_not_canWrite {config : Config} {n : Int} (h : ¬config.CanWrite n) :
    requireWritable config n = throw .tooManyDigits := if_neg h

theorem oneTo_eq_draw {config : Config} {n : Int} (h : config.CanDraw n) :
    oneTo config n = draw (.oneTo n.toNat) := by
  have hn : ¬n ≤ 0 := Int.not_le.2 h.positive
  have hn' : ¬n.toNat = 0 := by omega
  rw [oneTo, requireWritable_of_canWrite h.written, pure_bind]
  simp only [pick, if_neg hn, if_neg hn']
  rfl

theorem choose_eq_draw {items : List α} (h : items ≠ []) : choose items = draw (.choose items) := by
  have hn : ¬items.length = 0 := by simpa using h
  simp only [choose, pick, if_neg hn]
  rfl

theorem choosePath_eq_draw {paths : List String} (h : paths ≠ []) :
    choosePath paths = draw (.choose (sorted paths)) := by
  have hs : sorted paths ≠ [] := by
    rw [← List.length_pos_iff, length_sorted]
    exact List.length_pos_iff.2 h
  rw [choosePath, if_neg h, choose_eq_draw hs]

def collect (r : Recipe String) : Nat → Recipe (List String)
  | 0 => return []
  | n + 1 => do
    let text ← r
    let texts ← collect r n
    return text :: texts

def pragmas (config : Config) : Recipe String := do
  let generic ← choose config.genericPragmas
  let abi ← choose config.abiPragmas
  return Text.joinLines [generic, abi]

def updateUnit (unit : SourceUnit) : Recipe Unit := modify (·.put unit)

def importLine : Recipe String := do
  let draft ← get
  if draft.size ≤ 1 then throw .importNeedsSibling
  let unit ← ofExcept draft.currentUnit
  let importable := draft.importable unit
  if importable = [] then throw (.nothingToImport unit.path)
  let path ← choosePath importable
  updateUnit (← ofExcept (unit.addImport path))
  return "import \"" ++ path ++ "\";"

def contract : Recipe String := do
  let unit ← ofExcept (← get).currentUnit
  updateUnit unit.addContract
  return "contract " ++ unit.contractName ++ " \x7b\x7d"

/-- How many imports a unit asks for. One without siblings asks for none. -/
def importCount (config : Config) : Recipe (Option Nat) := do
  let siblings := (← get).size - 1
  if siblings > 0 then
    return some (min (← oneTo config config.maxImports) siblings)
  else return none

def parts (setting : Setting) (kind : Kind) (r : Recipe String) (n : Nat) :
    Recipe (List String) := do
  requireKind setting kind
  collect r n

def imports (setting : Setting) : Option Nat → Recipe (List String)
  | none => return []
  | some n => parts setting .importDirective importLine n

def unitParts (setting : Setting) (count : Option Nat) : Recipe (List String) := do
  let opening ← parts setting .pragma (pragmas setting.config) 1
  let middle ← imports setting count
  let closing ← parts setting .contract contract 1
  return opening ++ (middle ++ closing)

def sourceUnit (setting : Setting) : Recipe String := do
  let count ← importCount setting.config
  return Text.joinLines (← unitParts setting count)

def addUnit (config : Config) : Recipe String := do
  let draft ← get
  let path := draft.nextPath config
  set (draft.add path)
  return path

def unit (setting : Setting) : Recipe String := do
  let path ← addUnit setting.config
  let body ← sourceUnit setting
  return Text.joinLines [Header.line path, body, ""]

def testCase (setting : Setting) : Recipe String := do
  let n ← oneTo setting.config setting.config.maxUnits
  requireKind setting .sourceUnit
  return Text.joinLines (← collect (unit setting) n)

def generate (setting : Setting) : Kind → Recipe String
  | .testCase => testCase setting
  | .sourceUnit => sourceUnit setting
  | .pragma => pragmas setting.config
  | .importDirective => importLine
  | .contract => contract

def program (setting : Setting) : Recipe String := do
  set Draft.empty
  requireKind setting .testCase
  testCase setting

end Recipe

end SoliditySynth
