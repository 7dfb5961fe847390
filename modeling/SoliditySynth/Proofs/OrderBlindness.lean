import SoliditySynth.Proofs.Reordering
import SoliditySynth.Proofs.Sampling

namespace SoliditySynth

namespace Synth

variable {σ α β γ δ : Type}

/-- On generators alike, the two steps give answers in the relation `Q`, or the same fault, and
leave generators alike. -/
def Agree (Q : α → β → Prop) (m : Synth σ α) (m' : Synth σ β) : Prop :=
  ∀ bench bench' : Workbench σ, bench.Alike bench' →
    SameAnswer Q (m.run bench).1 (m'.run bench').1 ∧ (m.run bench).2.Alike (m'.run bench').2

/-- The step answers the same on generators alike, and leaves them alike. -/
def OrderBlind (m : Synth σ α) : Prop := Agree (· = ·) m m

section Rules

variable {Q : α → β → Prop} {R : γ → δ → Prop} {m : Synth σ α} {m' : Synth σ β}
  {k : α → Synth σ γ} {k' : β → Synth σ δ}

theorem agree_pure {a : α} {b : β} (h : Q a b) : Agree Q (pure a : Synth σ α) (pure b) :=
  fun _ _ hbench => ⟨.ok h, hbench⟩

theorem agree_throw (fault : Fault) : Agree Q (throw fault : Synth σ α) (throw fault) :=
  fun _ _ hbench => ⟨.error fault, hbench⟩

theorem agree_ofExcept {a : Except Fault α} {b : Except Fault β} (h : SameAnswer Q a b) :
    Agree Q (ofExcept a : Synth σ α) (ofExcept b) := by
  cases h with
  | ok h => exact agree_pure h
  | error fault => exact agree_throw fault

theorem orderBlind_ofExcept (a : Except Fault α) : OrderBlind (ofExcept a : Synth σ α) :=
  agree_ofExcept (.refl a)

theorem Agree.bind (hm : Agree Q m m') (hk : ∀ a b, Q a b → Agree R (k a) (k' b)) :
    Agree R (m >>= k) (m' >>= k') := by
  intro bench bench' hbench
  obtain ⟨hanswer, hnext⟩ := hm bench bench' hbench
  rw [run_bind, run_bind]
  revert hanswer hnext
  generalize m.run bench = outcome
  generalize m'.run bench' = outcome'
  obtain ⟨result, next⟩ := outcome
  obtain ⟨result', next'⟩ := outcome'
  intro hanswer hnext
  cases hanswer with
  | ok h => exact hk _ _ h next next' hnext
  | error fault => exact ⟨.error fault, hnext⟩

theorem Agree.ite {c : Prop} [Decidable c] {n : Synth σ α} {n' : Synth σ β} (h : Agree Q m m')
    (h' : Agree Q n n') : Agree Q (if c then m else n) (if c then m' else n') := by
  split
  · exact h
  · exact h'

theorem Agree.guard {c : Prop} [Decidable c] {fault : Fault} {k : Unit → Synth σ α}
    {k' : Unit → Synth σ β} (h : Agree Q (k ()) (k' ())) :
    Agree Q (if c then throw fault >>= k else k ()) (if c then throw fault >>= k' else k' ()) :=
  Agree.ite ((agree_throw (Q := (· = ·)) fault).bind fun _ _ _ => h) h

theorem OrderBlind.bind_agree {k : α → Synth σ γ} {k' : α → Synth σ δ} {m : Synth σ α}
    (hm : OrderBlind m) (hk : ∀ a, Agree R (k a) (k' a)) : Agree R (m >>= k) (m >>= k') := by
  apply Agree.bind hm
  rintro a _ rfl
  exact hk a

theorem OrderBlind.bind {m : Synth σ α} (hm : OrderBlind m) (hk : ∀ a, OrderBlind (k a)) :
    OrderBlind (m >>= k) :=
  hm.bind_agree hk

theorem orderBlind_pure (a : α) : OrderBlind (pure a : Synth σ α) := agree_pure rfl

theorem OrderBlind.map {f : α → γ} {m : Synth σ α} (hm : OrderBlind m) :
    OrderBlind (m >>= fun a => pure (f a)) :=
  hm.bind fun a => orderBlind_pure (f a)

end Rules

section Steps

theorem agree_get : Agree Workbench.Alike (get : Synth σ (Workbench σ)) get :=
  fun _ _ h => ⟨.ok h, h⟩

theorem agree_draft : Agree Draft.Alike (draft : Synth σ Draft) draft :=
  fun _ _ h => ⟨.ok h.draft, h⟩

theorem agree_setDraft {draft draft' : Draft} (h : draft.Alike draft') :
    Agree (· = ·) (setDraft draft : Synth σ Unit) (setDraft draft') :=
  fun _ _ hbench => ⟨.ok rfl, hbench.config, hbench.random, h, hbench.registered, hbench.children⟩

theorem agree_note (level : Log.Level) (text text' : String) :
    Agree (· = ·) (note level text : Synth σ Unit) (note level text') :=
  fun _ _ h => ⟨.ok rfl, h.config, h.random, h.draft, h.registered, h.children⟩

theorem agree_updateUnit {unit unit' : SourceUnit} (h : unit.Alike unit') :
    Agree (· = ·) (updateUnit unit : Synth σ Unit) (updateUnit unit') :=
  agree_draft.bind fun _ _ hdraft => agree_setDraft (hdraft.put h)

theorem orderBlind_config : OrderBlind (config : Synth σ Config) :=
  fun _ _ h => ⟨.ok h.config, h⟩

theorem orderBlind_requireKind (kind : Kind) : OrderBlind (requireKind kind : Synth σ Unit) := by
  apply agree_get.bind
  intro bench bench' h
  rw [h.registered]
  exact Agree.ite (agree_pure rfl) (agree_throw _)

theorem orderBlind_requireWritable (n : Int) : OrderBlind (requireWritable n : Synth σ Unit) :=
  orderBlind_config.bind fun _ => Agree.ite (agree_pure rfl) (agree_throw _)

theorem orderBlind_weight (parent child : Kind) :
    OrderBlind (weight parent child : Synth σ Int) := by
  apply agree_get.bind
  intro bench bench' h
  rw [h.children]
  exact agree_pure rfl

theorem orderBlind_declareChild (parent child : Kind) (n : Int) :
    OrderBlind (declareChild parent child n : Synth σ Unit) := by
  intro bench bench' h
  refine ⟨.ok rfl, h.config, h.random, h.draft, h.registered, ?_⟩
  simp only [declareChild, run_modify, h.children]

theorem orderBlind_clearChildren (parent : Kind) :
    OrderBlind (clearChildren parent : Synth σ Unit) := by
  intro bench bench' h
  refine ⟨.ok rfl, h.config, h.random, h.draft, h.registered, ?_⟩
  simp only [clearChildren, run_modify, h.children]

theorem orderBlind_childrenOf (kind : Kind) : OrderBlind (childrenOf kind : Synth σ Reply) := by
  apply agree_get.bind
  intro bench bench' h
  rw [h.children]
  exact agree_pure rfl

theorem orderBlind_unregister (kind : Kind) : OrderBlind (unregister kind : Synth σ Bool) := by
  intro bench bench' h
  refine ⟨?_, h.config, h.random, h.draft, ?_, h.children⟩
  · simp only [unregister, run_bind, run_get, h.registered]
    exact .ok rfl
  · simp only [unregister, run_bind, run_get, h.registered]
    rfl

end Steps

section Draws

variable [Random.Sampler σ]

theorem orderBlind_pick (n : Nat) : OrderBlind (pick n : Synth σ (Fin n)) := by
  apply Agree.guard
  intro bench bench' h
  simp only [run_bind, run_get, h.random]
  cases Random.Sampler.draw? n bench'.random with
  | none => exact ⟨.error _, h⟩
  | some p => exact ⟨.ok rfl, h.config, rfl, h.draft, h.registered, h.children⟩

theorem orderBlind_oneTo (n : Int) : OrderBlind (oneTo n : Synth σ Nat) :=
  (orderBlind_requireWritable n).bind fun _ => Agree.guard (orderBlind_pick _).map

theorem orderBlind_oneIn (n : Int) : OrderBlind (oneIn n : Synth σ Bool) :=
  (orderBlind_requireWritable n).bind fun _ => Agree.guard (orderBlind_oneTo n).map

theorem orderBlind_allButOneIn (n : Int) : OrderBlind (allButOneIn n : Synth σ Bool) :=
  (orderBlind_requireWritable n).bind fun _ => Agree.guard (orderBlind_oneIn n).map

theorem orderBlind_choose (items : List α) : OrderBlind (choose items : Synth σ α) :=
  (orderBlind_pick _).map

theorem orderBlind_thin (n : Nat) (items : List α) :
    OrderBlind (thin n items : Synth σ (List α)) := by
  induction items with
  | nil => exact orderBlind_pure _
  | cons x xs ih => exact (orderBlind_pick n).bind fun _ => ih.map

theorem orderBlind_subset [LE α] [DecidableLE α] [DecidableEq α] (items : List α) :
    OrderBlind (subset items : Synth σ (List α)) :=
  Agree.guard (orderBlind_thin _ _)

theorem orderBlind_choosePath (paths : List String) :
    OrderBlind (choosePath paths : Synth σ String) :=
  Agree.guard (orderBlind_choose _)

theorem orderBlind_chooseUnit : OrderBlind (chooseUnit : Synth σ String) := by
  apply agree_draft.bind
  intro draft draft' h
  rw [h.paths]
  exact orderBlind_choosePath _

theorem orderBlind_chooseOtherUnit : OrderBlind (chooseOtherUnit : Synth σ String) := by
  apply agree_draft.bind
  intro draft draft' h
  rw [h.size, h.currentPath, h.paths]
  apply Agree.guard
  exact (orderBlind_ofExcept _).bind fun _ => orderBlind_choosePath _

end Draws

section Generation

theorem OrderBlind.collect {m : Synth σ String} (h : OrderBlind m) (n : Nat) :
    OrderBlind (collect m n) := by
  induction n with
  | zero => exact orderBlind_pure _
  | succ n ih => exact h.bind fun _ => ih.map

theorem orderBlind_addUnit : OrderBlind (addUnit : Synth σ String) := by
  apply agree_draft.bind
  intro draft draft' h
  apply orderBlind_config.bind_agree
  intro config
  rw [h.nextPath config]
  exact (agree_setDraft (h.add _)).bind fun _ _ _ => agree_pure rfl

theorem orderBlind_writeContract : OrderBlind (writeContract : Synth σ String) := by
  apply agree_draft.bind
  intro draft draft' h
  apply (agree_ofExcept h.currentUnit).bind
  intro unit unit' hunit
  apply (agree_updateUnit hunit.addContract).bind
  intro _ _ _
  rw [hunit.contractName]
  exact orderBlind_pure _

section Children

variable {gen : Kind → Synth σ String} (hgen : ∀ kind, OrderBlind (gen kind))
include hgen

theorem orderBlind_visitChild (parent child : Kind) : OrderBlind (visitChild gen parent child) :=
  (orderBlind_requireKind child).bind fun _ =>
    (orderBlind_weight parent child).bind fun _ => (hgen child).collect _

theorem orderBlind_visitPlace (parent : Kind) (size place : Nat) :
    OrderBlind (visitPlace gen parent size place) := by
  apply agree_get.bind
  intro bench bench' h
  rw [h.children]
  apply Agree.guard
  split
  · next kind _ => exact orderBlind_visitChild hgen parent kind
  · exact orderBlind_pure _

theorem orderBlind_visitPlaces (parent : Kind) (size : Nat) (places : List Nat) :
    OrderBlind (visitPlaces gen parent size places) := by
  induction places with
  | nil => exact orderBlind_pure _
  | cons place places ih =>
    exact (orderBlind_visitPlace hgen parent size place).bind fun _ => ih.map

theorem orderBlind_visitChildren (parent : Kind) : OrderBlind (visitChildren gen parent) := by
  apply agree_get.bind
  intro bench bench' h
  rw [h.children]
  exact (orderBlind_visitPlaces hgen parent _ _).map

theorem orderBlind_writeUnit : OrderBlind (writeUnit gen) :=
  orderBlind_addUnit.bind fun _ => (hgen .sourceUnit).map

theorem orderBlind_writeTestCase : OrderBlind (writeTestCase gen) := by
  apply (orderBlind_requireKind .sourceUnit).bind
  intro _
  apply agree_get.bind
  intro bench bench' h
  rw [h.children]
  split
  · exact ((orderBlind_writeUnit hgen).collect _).map
  · exact agree_throw _

end Children

variable [Random.Sampler σ]

theorem orderBlind_writePragmas : OrderBlind (writePragmas : Synth σ String) :=
  orderBlind_config.bind fun _ => (orderBlind_choose _).bind fun _ =>
    orderBlind_config.bind fun _ => (orderBlind_choose _).map

/-- The candidates of an import come in sorted order, whatever the order of the units. -/
theorem orderBlind_writeImport : OrderBlind (writeImport : Synth σ String) := by
  apply agree_draft.bind
  intro draft draft' h
  rw [h.size]
  apply Agree.guard
  apply (agree_ofExcept h.currentUnit).bind
  intro unit unit' hunit
  rw [h.importable hunit, hunit.path]
  apply Agree.guard
  apply (orderBlind_choosePath _).bind_agree
  intro path
  apply (agree_ofExcept (hunit.addImport path)).bind
  intro imported imported' himported
  exact (agree_updateUnit himported).bind fun _ _ _ => agree_pure rfl

theorem orderBlind_setUp (kind : Kind) : OrderBlind (setUp kind : Synth σ Unit) := by
  apply (orderBlind_clearChildren kind).bind
  intro _
  cases kind with
  | testCase =>
    exact orderBlind_config.bind fun _ => (orderBlind_oneTo _).bind fun _ =>
      orderBlind_declareChild _ _ _
  | sourceUnit =>
    apply (orderBlind_declareChild _ _ _).bind
    intro _
    apply agree_draft.bind
    intro draft draft' h
    rw [h.size]
    apply Agree.ite
    · exact orderBlind_config.bind fun _ => (orderBlind_oneTo _).bind fun _ =>
        (orderBlind_declareChild _ _ _).bind fun _ => orderBlind_declareChild _ _ _
    · exact orderBlind_declareChild _ _ _
  | pragma => exact orderBlind_pure ()
  | importDirective => exact orderBlind_pure ()
  | contract => exact orderBlind_pure ()

theorem orderBlind_visit {gen : Kind → Synth σ String} (hgen : ∀ kind, OrderBlind (gen kind))
    (kind : Kind) : OrderBlind (visit gen kind) := by
  cases kind with
  | testCase => exact orderBlind_writeTestCase hgen
  | sourceUnit => exact orderBlind_visitChildren hgen .sourceUnit
  | pragma => exact orderBlind_writePragmas
  | importDirective => exact orderBlind_writeImport
  | contract => exact orderBlind_writeContract

theorem orderBlind_generateAt (depth : Nat) (kind : Kind) :
    OrderBlind (generateAt depth kind : Synth σ String) := by
  induction depth generalizing kind with
  | zero => exact orderBlind_pure _
  | succ depth ih =>
    exact (orderBlind_setUp kind).bind fun _ => (orderBlind_visit ih kind).bind fun _ =>
      (agree_note _ _ _).bind fun _ _ _ => orderBlind_pure _

theorem orderBlind_generate (kind : Kind) : OrderBlind (generate kind : Synth σ String) :=
  orderBlind_generateAt 3 kind

theorem orderBlind_program : OrderBlind (program : Synth σ String) := by
  apply (agree_setDraft Draft.Alike.empty).bind
  intro _ _ _
  apply (orderBlind_requireKind .testCase).bind
  intro _
  apply (orderBlind_generate .testCase).bind
  intro text
  apply agree_get.bind
  intro bench bench' _
  exact (agree_note _ _ _).bind fun _ _ _ => orderBlind_pure text

end Generation

section Commands

theorem orderBlind_performUnit (path : Option String) (command : UnitCommand) :
    OrderBlind (performUnit path command : Synth σ Reply) := by
  apply agree_draft.bind
  intro draft draft' h
  refine (agree_ofExcept (?hunit : SameAnswer SourceUnit.Alike _ _)).bind ?_
  case hunit =>
    cases path with
    | none => exact h.currentUnit
    | some path => exact h.unit path
  intro unit unit' hunit
  obtain ⟨hreply, hperformed⟩ := hunit.perform command
  have hanswer : SameAnswer (· = ·) (unit.perform command).1 (unit'.perform command).1 := by
    rw [hreply]
    exact .refl _
  exact (agree_updateUnit hperformed).bind fun _ _ _ => agree_ofExcept hanswer

variable [Random.Sampler σ]

theorem orderBlind_performDraw (command : DrawCommand) :
    OrderBlind (performDraw command : Synth σ Reply) := by
  cases command with
  | oneTo n => exact (orderBlind_oneTo n).map
  | oneIn n => exact (orderBlind_oneIn n).map
  | allButOneIn n => exact (orderBlind_allButOneIn n).map
  | choose items =>
    cases items with
    | numbers ns => exact (orderBlind_choose ns).map
    | texts ss => exact (orderBlind_choose ss).map
  | subset items =>
    cases items with
    | numbers ns => exact (orderBlind_subset ns).map
    | texts ss => exact (orderBlind_subset ss).map

theorem orderBlind_performDraws (command : DrawCommand) (times : Nat) :
    OrderBlind (performDraws command times : Synth σ (List Reply)) := by
  induction times with
  | zero => exact orderBlind_pure _
  | succ times ih => exact (orderBlind_performDraw command).bind fun _ => ih.map

theorem orderBlind_performDraft (command : DraftCommand) :
    OrderBlind (performDraft command : Synth σ Reply) := by
  cases command with
  | reset => exact (agree_setDraft .empty).bind fun _ _ _ => agree_pure rfl
  | addUnit => exact orderBlind_addUnit.map
  | declare path =>
    exact agree_draft.bind fun _ _ h =>
      (agree_setDraft (h.declare path)).bind fun _ _ _ => agree_pure rfl
  | add path =>
    exact agree_draft.bind fun _ _ h =>
      (agree_setDraft (h.add path)).bind fun _ _ _ => agree_pure rfl
  | nextPath =>
    exact agree_draft.bind fun _ _ h => orderBlind_config.bind_agree fun config =>
      agree_pure (congrArg Reply.text (h.nextPath config))
  | unitPrefix => exact orderBlind_config.map
  | isEmpty => exact agree_draft.bind fun _ _ h => agree_pure (congrArg Reply.flag h.isEmpty)
  | size =>
    exact agree_draft.bind fun _ _ h =>
      agree_pure (congrArg (fun size : Nat => Reply.number size) h.size)
  | currentPath =>
    apply agree_draft.bind
    intro draft draft' h
    rw [h.currentPath]
    exact (orderBlind_ofExcept _).map
  | paths => exact agree_draft.bind fun _ _ h => agree_pure (congrArg Reply.texts h.paths)
  | choosePath paths =>
    cases paths with
    | none => exact orderBlind_chooseUnit.map
    | some paths => exact (orderBlind_choosePath paths).map
  | chooseOtherUnit => exact orderBlind_chooseOtherUnit.map
  | describe => exact agree_draft.bind fun _ _ h => agree_pure (congrArg Reply.text h.describe)
  | unit path command => exact orderBlind_performUnit path command

theorem orderBlind_performKind (kind : Kind) (command : KindCommand) :
    OrderBlind (performKind kind command : Synth σ Reply) := by
  apply (orderBlind_requireKind kind).bind
  intro _
  cases command with
  | lookUp => exact orderBlind_pure _
  | generate => exact (orderBlind_generate kind).map
  | setUp => exact (orderBlind_setUp kind).bind fun _ => orderBlind_childrenOf kind
  | visit => exact (orderBlind_visit orderBlind_generate kind).map
  | endVisit => exact orderBlind_pure _
  | children => exact orderBlind_childrenOf kind
  | declareChild child weight =>
    exact (orderBlind_declareChild kind child weight).bind fun _ => orderBlind_childrenOf kind
  | visitChild child => exact (orderBlind_visitChild orderBlind_generate kind child).map
  | visitChildren => exact (orderBlind_visitChildren orderBlind_generate kind).map

theorem orderBlind_perform (command : Command) : OrderBlind (perform command : Synth σ Reply) := by
  cases command with
  | draw command => exact orderBlind_performDraw command
  | draws times command => exact (orderBlind_performDraws command times).map
  | draft command => exact orderBlind_performDraft command
  | program => exact orderBlind_program.map
  | unregister kind => exact (orderBlind_unregister kind).map
  | kind kind command => exact orderBlind_performKind kind command

end Commands

end Synth

/-- What a command shows of the generator, without its log. -/
def Outcome.shown (outcome : Outcome) : Except Fault Reply × String × Nat :=
  (outcome.reply, outcome.state, outcome.count)

namespace Workbench

variable {σ : Type} [Random.Sampler σ] {bench bench' : Workbench σ}

theorem Alike.step (h : bench.Alike bench') (command : Command) :
    (bench.step command).1.shown = (bench'.step command).1.shown ∧
      (bench.step command).2.Alike (bench'.step command).2 := by
  obtain ⟨hreply, hafter⟩ := Synth.orderBlind_perform command bench bench' h
  refine ⟨?_, hafter⟩
  have hstate := hafter.draft.describe
  have hcount := hafter.draft.added
  simp only [Workbench.step, Outcome.shown, hreply.eq, hstate, hcount]

theorem Alike.steps (h : bench.Alike bench') (commands : List Command) :
    (bench.steps commands).1.map Outcome.shown = (bench'.steps commands).1.map Outcome.shown ∧
      (bench.steps commands).2.Alike (bench'.steps commands).2 := by
  induction commands generalizing bench bench' with
  | nil => exact ⟨rfl, h⟩
  | cons command commands ih =>
    obtain ⟨hshown, hafter⟩ := h.step command
    obtain ⟨hrest, hlast⟩ := ih hafter
    refine ⟨?_, hlast⟩
    simp only [Workbench.steps, List.map_cons, hshown, hrest]

end Workbench

namespace Synth

variable {σ : Type} [Random.Sampler σ]

theorem subset_congr {α : Type} [LE α] [DecidableLE α] [DecidableEq α] [Std.IsLinearOrder α]
    {items items' : List α} (h : ∀ a, a ∈ items ↔ a ∈ items') :
    (subset items : Synth σ (List α)) = subset items' := by
  rw [subset, subset, distinct_congr h]

theorem choosePath_congr {paths paths' : List String} (h : paths.Perm paths') :
    (choosePath paths : Synth σ String) = choosePath paths' := by
  have hnil : paths = [] ↔ paths' = [] := by
    rw [← List.length_eq_zero_iff, h.length_eq, List.length_eq_zero_iff]
  simp only [choosePath, hnil, sorted_eq_of_perm h]

end Synth

/-- Neither the order of the units and imports in a draft nor the order of a list that is drawn from
can be told from what is drawn: the same commands have the same answers on both generators and leave
them alike, with the same random state. -/
theorem draws_ignore_order {σ : Type} [Random.Sampler σ] :
    (∀ bench bench' : Workbench σ, bench.Alike bench' → ∀ commands : List Command,
      (bench.steps commands).1.map Outcome.shown = (bench'.steps commands).1.map Outcome.shown ∧
        (bench.steps commands).2.Alike (bench'.steps commands).2) ∧
    (∀ (α : Type) [LE α] [DecidableLE α] [DecidableEq α] [Std.IsLinearOrder α]
      (items items' : List α), (∀ a, a ∈ items ↔ a ∈ items') → ∀ bench : Workbench σ,
        (Synth.subset items).run bench = (Synth.subset items').run bench) ∧
    ∀ paths paths' : List String, paths.Perm paths' → ∀ bench : Workbench σ,
      (Synth.choosePath paths).run bench = (Synth.choosePath paths').run bench := by
  refine ⟨fun bench bench' h commands => h.steps commands, ?_, ?_⟩
  · intro α _ _ _ _ items items' h bench
    rw [Synth.subset_congr h]
  · intro paths paths' h bench
    rw [Synth.choosePath_congr h]

def orderedUnits : OrderedMap String SourceUnit where
  entries := [("a.sol", ⟨"a.sol", [], 1⟩), ("b.sol", ⟨"b.sol", [], 0⟩),
    ("c.sol", ⟨"c.sol", ["a.sol", "b.sol"], 0⟩), ("d.sol", ⟨"d.sol", [], 2⟩)]
  keys_nodup := by decide

def reorderedUnits : OrderedMap String SourceUnit where
  entries := [("d.sol", ⟨"d.sol", [], 2⟩), ("c.sol", ⟨"c.sol", ["b.sol", "a.sol"], 0⟩),
    ("a.sol", ⟨"a.sol", [], 1⟩), ("b.sol", ⟨"b.sol", [], 0⟩)]
  keys_nodup := by decide

def benchOf (units : OrderedMap String SourceUnit) : Workbench Sampling.Script :=
  { Workbench.start 0 .standard (Sampling.Script.mk [0, 2, 1, 0, 1, 1, 1, 0, 0]) with
    draft := { units, current := some "c.sol", added := 4 } }

theorem benchOf_alike : (benchOf orderedUnits).Alike (benchOf reorderedUnits) := by
  refine ⟨rfl, rfl, ⟨fun path => ?_, rfl, rfl⟩, rfl, rfl⟩
  by_cases ha : "a.sol" = path
  · subst ha
    exact .some ⟨rfl, .refl _, rfl⟩
  by_cases hb : "b.sol" = path
  · subst hb
    exact .some ⟨rfl, .refl _, rfl⟩
  by_cases hc : "c.sol" = path
  · subst hc
    exact .some ⟨rfl, .swap .., rfl⟩
  by_cases hd : "d.sol" = path
  · subst hd
    exact .some ⟨rfl, .refl _, rfl⟩
  simp only [benchOf, orderedUnits, reorderedUnits, OrderedMap.find?, OrderedMap.lookup, ha, hb, hc,
    hd, if_false]
  exact .none

theorem draws_ignore_order_reordered :
    (benchOf orderedUnits).draft ≠ (benchOf reorderedUnits).draft ∧
      ((benchOf orderedUnits).steps
          [.kind .importDirective .generate, .draft (.choosePath none), .program]).1.map
        Outcome.shown =
      ((benchOf reorderedUnits).steps
          [.kind .importDirective .generate, .draft (.choosePath none), .program]).1.map
        Outcome.shown ∧
      (Synth.subset [3, 1, 2, 3]).run (benchOf orderedUnits) =
        (Synth.subset [1, 2, 3]).run (benchOf orderedUnits) ∧
      (Synth.choosePath ["b", "a"]).run (benchOf orderedUnits) =
        (Synth.choosePath ["a", "b"]).run (benchOf orderedUnits) := by
  obtain ⟨hsteps, hsubset, hpath⟩ := draws_ignore_order (σ := Sampling.Script)
  refine ⟨by decide, (hsteps _ _ benchOf_alike _).1, hsubset Nat _ _ ?_ _, hpath _ _ ?_ _⟩
  · intro a
    simp
    omega
  · exact .swap ..

end SoliditySynth
