import SoliditySynth.Proofs.Changes

namespace SoliditySynth

/-- Changes that generation makes by itself: it counts units up, and what it imports into the
current unit are declared units. -/
def Change.IsGenerated (config : Config) (change : Change) : Prop :=
  match change.edit with
  | .declare _ => False
  | .add path => path = config.unitPath change.before.added
  | .unit path (.addImport imported) =>
    change.before.current = some path ∧ imported ∈ change.before.units.keys
  | _ => True

/-- The command declares a unit or records an import that the caller chooses. -/
def Command.isByHand : Command → Bool
  | .draft (.declare _) | .draft (.add _) | .draft (.unit _ (.addImport _)) => true
  | _ => false

namespace Synth

section Quiet

variable {σ α : Type}

theorem quiet_get : Quiet (get : Synth σ (Workbench σ)) := fun _ => ⟨rfl, rfl⟩

theorem quiet_config : Quiet (config : Synth σ Config) := fun _ => ⟨rfl, rfl⟩

theorem quiet_note (level : Log.Level) (text : String) : Quiet (note level text : Synth σ Unit) :=
  fun _ => ⟨rfl, rfl⟩

theorem quiet_weight (parent child : Kind) : Quiet (weight parent child : Synth σ Int) :=
  fun _ => ⟨rfl, rfl⟩

theorem quiet_declareChild (parent child : Kind) (n : Int) :
    Quiet (declareChild parent child n : Synth σ Unit) := fun _ => ⟨rfl, rfl⟩

theorem quiet_clearChildren (parent : Kind) : Quiet (clearChildren parent : Synth σ Unit) :=
  fun _ => ⟨rfl, rfl⟩

theorem quiet_childrenOf (kind : Kind) : Quiet (childrenOf kind : Synth σ Reply) :=
  fun _ => ⟨rfl, rfl⟩

theorem quiet_unregister (kind : Kind) : Quiet (unregister kind : Synth σ Bool) :=
  fun _ => ⟨rfl, rfl⟩

theorem quiet_ofExcept (a : Except Fault α) : Quiet (ofExcept a : Synth σ α) := by
  cases a with
  | ok a => exact quiet_pure a
  | error fault => exact quiet_throw fault

theorem quiet_requireKind (kind : Kind) : Quiet (requireKind kind : Synth σ Unit) :=
  quiet_get.bind fun _ => Quiet.ite (quiet_pure _) (quiet_throw _)

theorem quiet_requireWritable (n : Int) : Quiet (requireWritable n : Synth σ Unit) :=
  quiet_config.bind fun _ => Quiet.ite (quiet_pure _) (quiet_throw _)

variable [Random.Sampler σ]

theorem quiet_pick (n : Nat) : Quiet (pick n : Synth σ (Fin n)) := by
  apply Quiet.guard
  intro bench
  simp only [run_bind, run_get]
  cases Random.Sampler.draw? n bench.random with
  | none => exact ⟨rfl, rfl⟩
  | some p => exact ⟨rfl, rfl⟩

theorem quiet_oneTo (n : Int) : Quiet (oneTo n : Synth σ Nat) :=
  (quiet_requireWritable n).bind fun _ => Quiet.guard ((quiet_pick _).bind fun _ => quiet_pure _)

theorem quiet_oneIn (n : Int) : Quiet (oneIn n : Synth σ Bool) :=
  (quiet_requireWritable n).bind fun _ => Quiet.guard ((quiet_oneTo _).bind fun _ => quiet_pure _)

theorem quiet_allButOneIn (n : Int) : Quiet (allButOneIn n : Synth σ Bool) :=
  (quiet_requireWritable n).bind fun _ => Quiet.guard ((quiet_oneIn _).bind fun _ => quiet_pure _)

theorem quiet_choose (items : List α) : Quiet (choose items : Synth σ α) :=
  (quiet_pick _).bind fun _ => quiet_pure _

theorem quiet_thin (n : Nat) (items : List α) : Quiet (thin n items : Synth σ (List α)) := by
  induction items with
  | nil => exact quiet_pure _
  | cons x xs ih => exact (quiet_pick n).bind fun _ => ih.bind fun _ => quiet_pure _

theorem quiet_subset [LE α] [DecidableLE α] [DecidableEq α] (items : List α) :
    Quiet (subset items : Synth σ (List α)) :=
  Quiet.guard (quiet_thin _ _)

theorem quiet_choosePath (paths : List String) : Quiet (choosePath paths : Synth σ String) :=
  Quiet.guard (quiet_choose _)

theorem quiet_chooseUnit : Quiet (chooseUnit : Synth σ String) :=
  quiet_draft.bind fun _ => quiet_choosePath _

theorem quiet_chooseOtherUnit : Quiet (chooseOtherUnit : Synth σ String) :=
  quiet_draft.bind fun _ => Quiet.guard ((quiet_ofExcept _).bind fun _ => quiet_choosePath _)

theorem quiet_writePragmas : Quiet (writePragmas : Synth σ String) :=
  quiet_config.bind fun _ => (quiet_choose _).bind fun _ =>
    quiet_config.bind fun _ => (quiet_choose _).bind fun _ => quiet_pure _

theorem quiet_setUp (kind : Kind) : Quiet (setUp kind : Synth σ Unit) := by
  apply (quiet_clearChildren kind).bind
  intro _
  cases kind with
  | testCase =>
    exact quiet_config.bind fun _ => (quiet_oneTo _).bind fun _ => quiet_declareChild _ _ _
  | sourceUnit =>
    apply (quiet_declareChild _ _ _).bind
    intro _
    apply quiet_draft.bind
    intro draft
    apply Quiet.ite
    · exact quiet_config.bind fun _ => (quiet_oneTo _).bind fun _ =>
        (quiet_declareChild _ _ _).bind fun _ => quiet_declareChild _ _ _
    · exact quiet_declareChild _ _ _
  | pragma => exact quiet_pure ()
  | importDirective => exact quiet_pure ()
  | contract => exact quiet_pure ()

theorem quiet_performDraw (command : DrawCommand) :
    Quiet (performDraw command : Synth σ Reply) := by
  cases command with
  | oneTo n => exact (quiet_oneTo n).bind fun _ => quiet_pure _
  | oneIn n => exact (quiet_oneIn n).bind fun _ => quiet_pure _
  | allButOneIn n => exact (quiet_allButOneIn n).bind fun _ => quiet_pure _
  | choose items =>
    cases items with
    | numbers ns => exact (quiet_choose ns).bind fun _ => quiet_pure _
    | texts ss => exact (quiet_choose ss).bind fun _ => quiet_pure _
  | subset items =>
    cases items with
    | numbers ns => exact (quiet_subset ns).bind fun _ => quiet_pure _
    | texts ss => exact (quiet_subset ss).bind fun _ => quiet_pure _

theorem quiet_performDraws (command : DrawCommand) (times : Nat) :
    Quiet (performDraws command times : Synth σ (List Reply)) := by
  induction times with
  | zero => exact quiet_pure _
  | succ times ih => exact (quiet_performDraw command).bind fun _ => ih.bind fun _ => quiet_pure _

end Quiet

section Children

variable {σ : Type} {config : Config} {P : Change → Prop}

theorem MakesOnly.collect {m : Synth σ String} (h : MakesOnly config P m) (n : Nat) :
    MakesOnly config P (collect m n) := by
  induction n with
  | zero => exact (quiet_pure _).makesOnly
  | succ n ih => exact h.bind fun _ => ih.map_reply

variable {gen : Kind → Synth σ String} (hgen : ∀ kind, MakesOnly config P (gen kind))
include hgen

theorem visitChild_makesOnly (parent child : Kind) :
    MakesOnly config P (visitChild gen parent child) :=
  (quiet_requireKind child).makesOnly.bind fun _ =>
    (quiet_weight parent child).makesOnly.bind fun _ => (hgen child).collect _

theorem visitPlace_makesOnly (parent : Kind) (size place : Nat) :
    MakesOnly config P (visitPlace gen parent size place) := by
  apply quiet_get.makesOnly.bind
  intro bench
  apply MakesOnly.guard
  split
  · next kind _ => exact visitChild_makesOnly hgen parent kind
  · exact (quiet_pure _).makesOnly

theorem visitPlaces_makesOnly (parent : Kind) (size : Nat) (places : List Nat) :
    MakesOnly config P (visitPlaces gen parent size places) := by
  induction places with
  | nil => exact (quiet_pure _).makesOnly
  | cons place places ih =>
    exact (visitPlace_makesOnly hgen parent size place).bind fun _ => ih.map_reply

theorem visitChildren_makesOnly (parent : Kind) :
    MakesOnly config P (visitChildren gen parent) :=
  quiet_get.makesOnly.bind fun _ => (visitPlaces_makesOnly hgen parent _ _).map_reply

end Children

section Generation

variable {σ : Type} {config : Config}

theorem reset_makesOnly :
    MakesOnly config (Change.IsGenerated config) (setDraft .empty : Synth σ Unit) :=
  fun bench _ => within_setDraft ⟨bench.draft, .reset, .empty, .reset _⟩ rfl trivial

theorem addUnit_makesOnly :
    MakesOnly config (Change.IsGenerated config) (addUnit : Synth σ String) := by
  intro bench hconfig
  apply quiet_draft.bind_within
  rintro draft bench' ⟨⟩ -
  apply quiet_config.bind_within
  rintro config' bench' ⟨⟩ -
  apply (within_setDraft ⟨bench.draft, _, _, .add bench.draft _⟩ rfl ?_).bind
  · intro _ _ _ _
    exact (quiet_pure _).within
  · rw [Change.IsGenerated, hconfig]
    rfl

theorem writeContract_makesOnly :
    MakesOnly config (Change.IsGenerated config) (writeContract : Synth σ String) := by
  intro bench _
  apply quiet_draft.bind_within
  rintro draft bench' ⟨⟩ -
  apply (quiet_ofExcept _).bind_within
  intro unit next hrun _
  obtain ⟨hunit, rfl⟩ := run_ofExcept_eq_ok.1 hrun
  obtain ⟨path, -, hfind⟩ := Draft.currentUnit_eq_ok hunit
  apply (updateUnit_within .nameContract hfind trivial).bind
  intro _ _ _ _
  exact (quiet_pure _).within

theorem writeUnit_makesOnly {gen : Kind → Synth σ String}
    (hgen : ∀ kind, MakesOnly config (Change.IsGenerated config) (gen kind)) :
    MakesOnly config (Change.IsGenerated config) (writeUnit gen) :=
  addUnit_makesOnly.bind fun _ => (hgen .sourceUnit).map_reply

theorem writeTestCase_makesOnly {gen : Kind → Synth σ String}
    (hgen : ∀ kind, MakesOnly config (Change.IsGenerated config) (gen kind)) :
    MakesOnly config (Change.IsGenerated config) (writeTestCase gen) := by
  apply (quiet_requireKind .sourceUnit).makesOnly.bind
  intro _
  apply quiet_get.makesOnly.bind
  intro bench
  split
  · exact ((writeUnit_makesOnly hgen).collect _).map_reply
  · exact (quiet_throw _).makesOnly

variable [Random.Sampler σ]

theorem writeImport_makesOnly :
    MakesOnly config (Change.IsGenerated config) (writeImport : Synth σ String) := by
  intro bench _
  apply quiet_draft.bind_within
  rintro draft bench' ⟨⟩ -
  apply Within.guard
  intro _
  apply (quiet_ofExcept _).bind_within
  intro unit next hrun _
  obtain ⟨hunit, rfl⟩ := run_ofExcept_eq_ok.1 hrun
  obtain ⟨path, hcurrent, hfind⟩ := Draft.currentUnit_eq_ok hunit
  apply Within.guard
  intro _
  apply (quiet_choosePath _).bind_within
  intro imported chosen hchosen hdraft
  apply (quiet_ofExcept _).bind_within
  intro unit' next hrun _
  obtain ⟨hunit', rfl⟩ := run_ofExcept_eq_ok.1 hrun
  rw [← hdraft] at hcurrent hfind hchosen
  rw [← SourceUnit.perform_addImport hunit']
  apply (updateUnit_within (.addImport imported) hfind ?_).bind
  · intro _ _ _ _
    exact (quiet_pure _).within
  · exact ⟨hcurrent, Draft.mem_keys_of_mem_importable (mem_of_choosePath hchosen)⟩

theorem visit_makesOnly {gen : Kind → Synth σ String}
    (hgen : ∀ kind, MakesOnly config (Change.IsGenerated config) (gen kind)) (kind : Kind) :
    MakesOnly config (Change.IsGenerated config) (visit gen kind) := by
  cases kind with
  | testCase => exact writeTestCase_makesOnly hgen
  | sourceUnit => exact visitChildren_makesOnly hgen .sourceUnit
  | pragma => exact quiet_writePragmas.makesOnly
  | importDirective => exact writeImport_makesOnly
  | contract => exact writeContract_makesOnly

theorem generateWith_makesOnly {gen : Kind → Synth σ String}
    (hgen : ∀ kind, MakesOnly config (Change.IsGenerated config) (gen kind)) (kind : Kind) :
    MakesOnly config (Change.IsGenerated config) (generateWith gen kind) :=
  (quiet_setUp kind).makesOnly.bind fun _ => (visit_makesOnly hgen kind).bind fun _ =>
    (quiet_note _ _).makesOnly.map_reply

theorem generateAt_makesOnly (depth : Nat) (kind : Kind) :
    MakesOnly config (Change.IsGenerated config) (generateAt depth kind : Synth σ String) := by
  induction depth generalizing kind with
  | zero => exact (quiet_pure _).makesOnly
  | succ depth ih => exact generateWith_makesOnly ih kind

theorem generate_makesOnly (kind : Kind) :
    MakesOnly config (Change.IsGenerated config) (generate kind : Synth σ String) :=
  generateAt_makesOnly 3 kind

theorem program_makesOnly :
    MakesOnly config (Change.IsGenerated config) (program : Synth σ String) :=
  reset_makesOnly.bind fun _ => (quiet_requireKind _).makesOnly.bind fun _ =>
    (generate_makesOnly _).bind fun _ => quiet_get.makesOnly.bind fun _ =>
      (quiet_note _ _).makesOnly.map_reply

end Generation

section Commands

variable {σ : Type} {config : Config}

theorem performUnit_within {P : Change → Prop} {path : Option String} {command : UnitCommand}
    {bench : Workbench σ}
    (hP : ∀ (change : Change) (path : String), change.edit = .unit path command → P change) :
    Within P (performUnit path command) bench := by
  apply quiet_draft.bind_within
  rintro draft bench' ⟨⟩ -
  apply (quiet_ofExcept _).bind_within
  intro unit next hrun _
  obtain ⟨hunit, rfl⟩ := run_ofExcept_eq_ok.1 hrun
  have hfind : ∃ path, bench.draft.units.find? path = some unit := by
    cases path with
    | none =>
      obtain ⟨path, -, hfind⟩ := Draft.currentUnit_eq_ok hunit
      exact ⟨path, hfind⟩
    | some path => exact ⟨path, Draft.unit_eq_ok.1 hunit⟩
  obtain ⟨path', hfind⟩ := hfind
  apply (updateUnit_within command hfind (hP _ path' rfl)).bind
  intro _ _ _ _
  exact (quiet_ofExcept _).within

variable [Random.Sampler σ]

theorem performKind_makesOnly (kind : Kind) (command : KindCommand) :
    MakesOnly config (Change.IsGenerated config) (performKind kind command : Synth σ Reply) := by
  apply (quiet_requireKind kind).makesOnly.bind
  intro _
  cases command with
  | lookUp => exact (quiet_pure _).makesOnly
  | generate => exact (generate_makesOnly kind).map_reply
  | setUp => exact ((quiet_setUp kind).bind fun _ => quiet_childrenOf kind).makesOnly
  | visit => exact (visit_makesOnly generate_makesOnly kind).map_reply
  | endVisit => exact (quiet_pure _).makesOnly
  | children => exact (quiet_childrenOf kind).makesOnly
  | declareChild child weight =>
    exact ((quiet_declareChild _ _ _).bind fun _ => quiet_childrenOf kind).makesOnly
  | visitChild child => exact (visitChild_makesOnly generate_makesOnly kind child).map_reply
  | visitChildren => exact (visitChildren_makesOnly generate_makesOnly kind).map_reply

theorem performDraft_makesOnly {command : DraftCommand}
    (h : (Command.draft command).isByHand = false) :
    MakesOnly config (Change.IsGenerated config) (performDraft command : Synth σ Reply) := by
  cases command with
  | reset => exact reset_makesOnly.map_reply
  | addUnit => exact addUnit_makesOnly.map_reply
  | declare path => cases h
  | add path => cases h
  | nextPath => exact quiet_draft.makesOnly.bind fun _ => quiet_config.makesOnly.map_reply
  | unitPrefix => exact quiet_config.makesOnly.map_reply
  | isEmpty => exact quiet_draft.makesOnly.map_reply
  | size => exact quiet_draft.makesOnly.map_reply
  | currentPath => exact quiet_draft.makesOnly.bind fun _ => (quiet_ofExcept _).makesOnly.map_reply
  | paths => exact quiet_draft.makesOnly.map_reply
  | choosePath paths =>
    cases paths with
    | none => exact quiet_chooseUnit.makesOnly.map_reply
    | some paths => exact (quiet_choosePath paths).makesOnly.map_reply
  | chooseOtherUnit => exact quiet_chooseOtherUnit.makesOnly.map_reply
  | describe => exact quiet_draft.makesOnly.map_reply
  | unit path command =>
    intro bench _
    apply performUnit_within
    intro change path' hedit
    rw [Change.IsGenerated, hedit]
    cases command with
    | addImport path => cases h
    | isImported path => trivial
    | imports => trivial
    | nameContract => trivial
    | describe => trivial

theorem perform_makesOnly {command : Command} (h : command.isByHand = false) :
    MakesOnly config (Change.IsGenerated config) (perform command : Synth σ Reply) := by
  cases command with
  | draw command => exact (quiet_performDraw command).makesOnly
  | draws times command => exact (quiet_performDraws command times).makesOnly.map_reply
  | draft command => exact performDraft_makesOnly h
  | program => exact program_makesOnly.map_reply
  | unregister kind => exact (quiet_unregister kind).makesOnly.map_reply
  | kind kind command => exact performKind_makesOnly kind command

theorem performDraft_within_of_isByHand {command : DraftCommand}
    (h : (Command.draft command).isByHand = true) (bench : Workbench σ) :
    Within (fun _ => True) (performDraft command) bench := by
  cases command with
  | declare path =>
    apply quiet_draft.bind_within
    rintro draft bench' ⟨⟩ -
    apply (within_setDraft ⟨bench.draft, _, _, .declare bench.draft path⟩ rfl trivial).bind
    intro _ _ _ _
    exact (quiet_pure _).within
  | add path =>
    apply quiet_draft.bind_within
    rintro draft bench' ⟨⟩ -
    apply (within_setDraft ⟨bench.draft, _, _, .add bench.draft path⟩ rfl trivial).bind
    intro _ _ _ _
    exact (quiet_pure _).within
  | unit path command => exact performUnit_within fun _ _ _ => trivial
  | _ => cases h

theorem perform_makesOnly_edits (command : Command) :
    MakesOnly config (fun _ => True) (perform command : Synth σ Reply) := by
  intro bench hconfig
  cases h : command.isByHand with
  | false => exact (perform_makesOnly h bench hconfig).mono fun _ _ => trivial
  | true =>
    cases command with
    | draft command => exact performDraft_within_of_isByHand h bench
    | _ => cases h

end Commands

end Synth

theorem Workbench.exists_history {σ : Type} [Random.Sampler σ] {config : Config}
    {P : Change → Prop} {commands : List Command}
    (h : ∀ command ∈ commands, Synth.MakesOnly config P (Synth.perform (σ := σ) command))
    (bench : Workbench σ) (hconfig : bench.config = config) :
    ∃ changes, bench.History commands changes ∧ ∀ change ∈ changes, P change := by
  induction commands generalizing bench with
  | nil => exact ⟨[], .nil bench, by simp⟩
  | cons command commands ih =>
    obtain ⟨changes, hchanges, hP⟩ := h command List.mem_cons_self bench hconfig
    have hrest := fun command' hmem => h command' (List.mem_cons_of_mem _ hmem)
    obtain ⟨changes', hchanges', hP'⟩ :=
      ih hrest (bench.step command).2 (hchanges.course.2.trans hconfig)
    refine ⟨changes ++ changes', .cons hchanges hchanges', ?_⟩
    intro change hmem
    exact (List.mem_append.1 hmem).elim (hP change) (hP' change)

/-- Whatever a session does, its draft comes about by edits of the empty one. -/
theorem Workbench.exists_course {σ : Type} [Random.Sampler σ] (seed : Nat) (config : Config)
    (random : σ) (commands : List Command) :
    ∃ changes, Draft.empty.Course changes ((start seed config random).steps commands).2.draft := by
  have hedits (command : Command) (_ : command ∈ commands) :
      Synth.MakesOnly config (fun _ => True) (Synth.perform (σ := σ) command) :=
    Synth.perform_makesOnly_edits command
  obtain ⟨changes, hchanges, -⟩ := (start seed config random).exists_history hedits rfl
  exact ⟨changes, hchanges.course⟩

end SoliditySynth
