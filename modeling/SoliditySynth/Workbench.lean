import SoliditySynth.Draft
import SoliditySynth.Log
import SoliditySynth.Random.Sampler
import SoliditySynth.Random.Twister

namespace SoliditySynth

/-- The state of a generator. `children` holds, for each kind, the kinds that its text is made of
and how many of each, in the order in which they were declared. -/
structure Workbench (σ : Type) where
  seed : Nat
  config : Config
  random : σ
  draft : Draft
  registered : PerKind Bool
  children : PerKind (OrderedMap Kind Int)
  log : Array Log.Entry

/-- A step of generation: an answer or a fault, and in either case the state it leaves. -/
abbrev Synth (σ : Type) := ExceptT Fault (StateM (Workbench σ))

namespace Workbench

def start {σ : Type} (seed : Nat) (config : Config) (random : σ) : Workbench σ where
  seed
  config
  random
  draft := .empty
  registered := .const true
  children := .const .empty
  log := #[]

/-- The generator with the given seed, which must not be negative. The message that would say so is
made in any case. -/
def ofSeed (seed : Int) (config : Config) : Except Fault (Workbench Random.Twister) :=
  if ¬config.CanWrite seed then .error .tooManyDigits
  else if seed < 0 then .error (.negativeSeed seed)
  else .ok (start seed.toNat config (Random.Twister.ofSeed seed.toNat))

theorem ofSeed_of_nonneg {seed : Int} {config : Config} (hwrite : config.CanWrite seed)
    (h : 0 ≤ seed) :
    ofSeed seed config = .ok (start seed.toNat config (Random.Twister.ofSeed seed.toNat)) := by
  rw [ofSeed, if_neg (not_not_intro hwrite), if_neg (Int.not_lt.2 h)]

end Workbench

namespace Synth

variable {σ α β : Type}

def run (m : Synth σ α) (bench : Workbench σ) : Except Fault α × Workbench σ :=
  StateT.run (ExceptT.run m) bench

@[simp] theorem run_pure (a : α) (bench : Workbench σ) :
    (pure a : Synth σ α).run bench = (.ok a, bench) := rfl

@[simp] theorem run_throw (fault : Fault) (bench : Workbench σ) :
    (throw fault : Synth σ α).run bench = (.error fault, bench) := rfl

@[simp] theorem run_get (bench : Workbench σ) :
    (get : Synth σ (Workbench σ)).run bench = (.ok bench, bench) := rfl

@[simp] theorem run_modify (f : Workbench σ → Workbench σ) (bench : Workbench σ) :
    (modify f : Synth σ Unit).run bench = (.ok (), f bench) := rfl

theorem run_bind (m : Synth σ α) (k : α → Synth σ β) (bench : Workbench σ) :
    (m >>= k).run bench =
      match m.run bench with
      | (.ok a, bench') => (k a).run bench'
      | (.error fault, bench') => (.error fault, bench') := by
  show StateT.run (ExceptT.run (m >>= k)) bench = _
  simp only [ExceptT.run_bind, StateT.run_bind, run]
  rcases h : StateT.run (ExceptT.run m) bench with ⟨_ | _, _⟩ <;> rfl

theorem ext {m m' : Synth σ α} (h : ∀ bench, m.run bench = m'.run bench) : m = m' := funext h

theorem run_pure_eq_ok {a b : α} {bench bench' : Workbench σ} :
    (pure a : Synth σ α).run bench = (.ok b, bench') ↔ a = b ∧ bench = bench' := by
  rw [run_pure, Prod.mk.injEq, Except.ok.injEq]

theorem run_get_eq_ok {a bench bench' : Workbench σ} :
    (get : Synth σ (Workbench σ)).run bench = (.ok a, bench') ↔ bench = a ∧ bench = bench' := by
  rw [run_get, Prod.mk.injEq, Except.ok.injEq]

theorem run_bind_eq_ok {m : Synth σ α} {k : α → Synth σ β} {bench bench' : Workbench σ} {b : β} :
    (m >>= k).run bench = (.ok b, bench') ↔
      ∃ a middle, m.run bench = (.ok a, middle) ∧ (k a).run middle = (.ok b, bench') := by
  rw [run_bind]
  constructor
  · intro h
    split at h
    · next a middle hm => exact ⟨a, middle, hm, h⟩
    · cases h
  · rintro ⟨a, middle, hm, hk⟩
    rw [hm]
    exact hk

def ofExcept : Except Fault α → Synth σ α
  | .ok a => pure a
  | .error fault => throw fault

@[simp] theorem run_ofExcept (a : Except Fault α) (bench : Workbench σ) :
    (ofExcept a : Synth σ α).run bench = (a, bench) := by
  cases a <;> rfl

theorem run_ofExcept_eq_ok {a : Except Fault α} {b : α} {bench bench' : Workbench σ} :
    (ofExcept a : Synth σ α).run bench = (.ok b, bench') ↔ a = .ok b ∧ bench = bench' := by
  rw [run_ofExcept, Prod.mk.injEq]

def draft : Synth σ Draft := return (← get).draft

def config : Synth σ Config := return (← get).config

/-- Fails where a message that shows the number could not be made. -/
def requireWritable (n : Int) : Synth σ Unit := do
  if (← config).CanWrite n then return else throw .tooManyDigits

theorem run_requireWritable (n : Int) (bench : Workbench σ) :
    (requireWritable n).run bench =
      (if bench.config.CanWrite n then .ok () else .error .tooManyDigits, bench) := by
  change run (if bench.config.CanWrite n then pure () else throw .tooManyDigits) bench = _
  split
  · rfl
  · rfl

def setDraft (draft : Draft) : Synth σ Unit := modify fun bench => { bench with draft }

def note (level : Log.Level) (text : String) : Synth σ Unit :=
  modify fun bench => { bench with log := bench.log.push ⟨level, text⟩ }

theorem note_eq_ok {level : Log.Level} {text : String} {bench bench' : Workbench σ}
    (h : (note level text).run bench = (.ok (), bench')) : bench.draft = bench'.draft :=
  congrArg (fun outcome => outcome.2.draft) h

def updateUnit (unit : SourceUnit) : Synth σ Unit := do
  setDraft ((← draft).put unit)

def requireKind (kind : Kind) : Synth σ Unit := do
  if (← get).registered.get kind then return else throw (.unregistered kind)

theorem requireKind_eq_ok {kind : Kind} {bench bench' : Workbench σ}
    (h : (requireKind kind).run bench = (.ok (), bench')) : bench = bench' := by
  obtain ⟨_, _, hget, h⟩ := run_bind_eq_ok.1 h
  obtain ⟨rfl, rfl⟩ := run_get_eq_ok.1 hget
  split at h
  · exact (run_pure_eq_ok.1 h).2
  · cases h

def weight (parent child : Kind) : Synth σ Int :=
  return (((← get).children.get parent).find? child).getD 0

/-- Declares children of a kind; a second declaration changes their number only. -/
def declareChild (parent child : Kind) (weight : Int) : Synth σ Unit :=
  modify fun bench =>
    { bench with
      children := bench.children.set parent ((bench.children.get parent).insert child weight) }

def clearChildren (parent : Kind) : Synth σ Unit :=
  modify fun bench => { bench with children := bench.children.set parent .empty }

end Synth

end SoliditySynth
