import SoliditySynth.Generation

namespace SoliditySynth

inductive Reply where
  | done
  | flag (b : Bool)
  | number (n : Int)
  | text (s : String)
  | numbers (ns : List Int)
  | texts (ss : List String)
  /-- Declared children and their numbers. -/
  | children (cs : List (Kind × Int))
  | kind (k : Kind)
  /-- The answers of a repeated draw. -/
  | replies (rs : List Reply)

inductive Items where
  | numbers (ns : List Int)
  | texts (ss : List String)
deriving DecidableEq

inductive DrawCommand where
  | oneTo (n : Int)
  | oneIn (n : Int)
  | allButOneIn (n : Int)
  | choose (items : Items)
  | subset (items : Items)
deriving DecidableEq

inductive UnitCommand where
  | addImport (path : String)
  | isImported (path : String)
  | imports
  | nameContract
  | describe
deriving DecidableEq

inductive DraftCommand where
  | reset
  | addUnit
  | declare (path : String)
  | add (path : String)
  | nextPath
  | unitPrefix
  | isEmpty
  | size
  | currentPath
  | paths
  /-- A draw among the given paths, or among all. -/
  | choosePath (paths : Option (List String))
  | chooseOtherUnit
  | describe
  /-- An operation on the unit with the given path, or on the current one. -/
  | unit (path : Option String) (command : UnitCommand)
deriving DecidableEq

inductive KindCommand where
  | lookUp
  | generate
  | setUp
  | visit
  | endVisit
  | children
  | declareChild (child : Kind) (weight : Int)
  | visitChild (child : Kind)
  | visitChildren
deriving DecidableEq

inductive Command where
  | draw (command : DrawCommand)
  /-- A draw made several times. -/
  | draws (times : Nat) (command : DrawCommand)
  | draft (command : DraftCommand)
  | program
  | unregister (kind : Kind)
  | kind (kind : Kind) (command : KindCommand)
deriving DecidableEq

/-- Performs an operation on a unit. The unit is returned also where the operation fails. -/
def SourceUnit.perform (unit : SourceUnit) : UnitCommand → Except Fault Reply × SourceUnit
  | .addImport path =>
    match unit.addImport path with
    | .ok unit' => (.ok .done, unit')
    | .error fault => (.error fault, unit)
  | .isImported path => (.ok (.flag (path ∈ unit.imports)), unit)
  | .imports => (.ok (.texts (sorted unit.imports)), unit)
  | .nameContract => (.ok (.text unit.contractName), unit.addContract)
  | .describe => (.ok (.text unit.describe), unit)

namespace SourceUnit

@[simp] theorem path_perform (unit : SourceUnit) (command : UnitCommand) :
    (unit.perform command).2.path = unit.path := by
  cases command with
  | addImport path =>
    rw [perform]
    split
    · next h =>
      obtain ⟨-, -, rfl⟩ := addImport_eq_ok.1 h
      rfl
    · rfl
  | isImported path => rfl
  | imports => rfl
  | nameContract => rfl
  | describe => rfl

theorem perform_addImport {unit unit' : SourceUnit} {path : String}
    (h : unit.addImport path = .ok unit') : (unit.perform (.addImport path)).2 = unit' := by
  rw [perform, h]

theorem mem_imports_perform {unit : SourceUnit} {command : UnitCommand} {path : String}
    (h : path ∈ (unit.perform command).2.imports) :
    path ∈ unit.imports ∨ command = .addImport path ∧ path ≠ unit.path := by
  cases command with
  | addImport imported =>
    rw [perform] at h
    split at h
    · next hadd =>
      obtain ⟨hne, -, rfl⟩ := addImport_eq_ok.1 hadd
      rcases List.mem_append.1 h with h | h
      · exact .inl h
      · obtain rfl := List.mem_singleton.1 h
        exact .inr ⟨rfl, hne⟩
    · exact .inl h
  | isImported imported => exact .inl h
  | imports => exact .inl h
  | nameContract => exact .inl h
  | describe => exact .inl h

end SourceUnit

namespace Synth

variable {σ : Type}

def performUnit (path : Option String) (command : UnitCommand) : Synth σ Reply := do
  let draft ← draft
  let unit ← ofExcept (match path with
    | some path => draft.unit path
    | none => draft.currentUnit)
  let (reply, unit') := unit.perform command
  updateUnit unit'
  ofExcept reply

def unregister (kind : Kind) : Synth σ Bool := do
  let bench ← get
  set { bench with registered := bench.registered.set kind false }
  return bench.registered.get kind

def childrenOf (kind : Kind) : Synth σ Reply :=
  return .children ((← get).children.get kind).entries

variable [Random.Sampler σ]

def performDraw : DrawCommand → Synth σ Reply
  | .oneTo n => return .number (← oneTo n)
  | .oneIn n => return .flag (← oneIn n)
  | .allButOneIn n => return .flag (← allButOneIn n)
  | .choose (.numbers ns) => return .number (← choose ns)
  | .choose (.texts ss) => return .text (← choose ss)
  | .subset (.numbers ns) => return .numbers (← subset ns)
  | .subset (.texts ss) => return .texts (← subset ss)

def performDraws (command : DrawCommand) : Nat → Synth σ (List Reply)
  | 0 => return []
  | times + 1 => do
    let reply ← performDraw command
    let replies ← performDraws command times
    return reply :: replies

def performDraft : DraftCommand → Synth σ Reply
  | .reset => do setDraft .empty; return .done
  | .addUnit => return .text (← addUnit)
  | .declare path => do setDraft ((← draft).declare path); return .done
  | .add path => do setDraft ((← draft).add path); return .done
  | .nextPath => return .text ((← draft).nextPath (← config))
  | .unitPrefix => return .text (← config).unitPrefix
  | .isEmpty => return .flag (← draft).units.isEmpty
  | .size => return .number (← draft).size
  | .currentPath => return .text (← ofExcept (← draft).currentPath)
  | .paths => return .texts (← draft).paths
  | .choosePath (some paths) => return .text (← choosePath paths)
  | .choosePath none => return .text (← chooseUnit)
  | .chooseOtherUnit => return .text (← chooseOtherUnit)
  | .describe => return .text (← draft).describe
  | .unit path command => performUnit path command

/-- Performs an operation on the generator of a kind, which must be registered. -/
def performKind (kind : Kind) (command : KindCommand) : Synth σ Reply := do
  requireKind kind
  match command with
  | .lookUp => return .kind kind
  | .generate => return .text (← generate kind)
  | .setUp => setUp kind; childrenOf kind
  | .visit => return .text (← visit generate kind)
  | .endVisit => return .done
  | .children => childrenOf kind
  | .declareChild child weight => declareChild kind child weight; childrenOf kind
  | .visitChild child => return .texts (← visitChild generate kind child)
  | .visitChildren => return .text (← visitChildren generate kind)

def perform : Command → Synth σ Reply
  | .draw command => performDraw command
  | .draws times command => return .replies (← performDraws command times)
  | .draft command => performDraft command
  | .program => return .text (← program)
  | .unregister kind => return .flag (← unregister kind)
  | .kind kind command => performKind kind command

end Synth

/-- What a command shows: its answer, the draft after it, and the log entries that it made. -/
structure Outcome where
  reply : Except Fault Reply
  state : String
  count : Nat
  log : List Log.Entry

namespace Workbench

variable {σ : Type} [Random.Sampler σ]

def step (bench : Workbench σ) (command : Command) : Outcome × Workbench σ :=
  let (reply, after) := (Synth.perform command).run bench
  let log := after.log.toList.drop bench.log.size
  (⟨reply, after.draft.describe, after.draft.added, log⟩, after)

/-- Performs commands one after the other, whether or not they fail. -/
def steps (bench : Workbench σ) : List Command → List Outcome × Workbench σ
  | [] => ([], bench)
  | command :: commands =>
    let (outcome, bench) := bench.step command
    let (outcomes, bench) := bench.steps commands
    (outcome :: outcomes, bench)

end Workbench

def SourceUnit.steps (unit : SourceUnit) : List UnitCommand → List (Except Fault Reply × String)
  | [] => []
  | command :: commands =>
    let (reply, unit) := unit.perform command
    (reply, unit.describe) :: unit.steps commands

end SoliditySynth
