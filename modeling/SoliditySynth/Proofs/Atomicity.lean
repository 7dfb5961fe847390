import SoliditySynth.Proofs.Consistency
import SoliditySynth.Proofs.Sampling

namespace SoliditySynth

namespace Synth

variable {σ α β : Type}

/-- Where the step fails, it leaves the draft and the random state as it finds them. A step that is
stalled never comes to an end. -/
def Atomic (m : Synth σ α) (bench : Workbench σ) : Prop :=
  ∀ fault, (m.run bench).1 = .error fault → fault ≠ .stalled →
    (m.run bench).2.draft = bench.draft ∧ (m.run bench).2.random = bench.random

def OnlyStalls (m : Synth σ α) (bench : Workbench σ) : Prop :=
  ∀ fault, (m.run bench).1 = .error fault → fault = .stalled

/-- The step only looks: it neither draws nor changes the draft. -/
def Looks (m : Synth σ α) : Prop :=
  ∀ bench, (m.run bench).2.draft = bench.draft ∧ (m.run bench).2.random = bench.random

section Rules

variable {m : Synth σ α} {k : α → Synth σ β} {bench : Workbench σ}

theorem onlyStalls_pure (a : α) : OnlyStalls (pure a : Synth σ α) bench := by
  intro fault h
  cases h

theorem onlyStalls_draft : OnlyStalls draft bench := by
  intro fault h
  cases h

theorem onlyStalls_ofExcept {a : Except Fault α} {b : α} (h : a = .ok b) :
    OnlyStalls (ofExcept a) bench := by
  rw [h]
  exact onlyStalls_pure b

theorem OnlyStalls.bind (hm : OnlyStalls m bench)
    (hk : ∀ a next, m.run bench = (.ok a, next) → OnlyStalls (k a) next) :
    OnlyStalls (m >>= k) bench := by
  intro fault h
  rw [run_bind] at h
  split at h
  · next a next hrun => exact hk a next hrun fault h
  · next fault' next hrun =>
    cases h
    exact hm fault (by rw [hrun])

theorem OnlyStalls.skip_guard {c : Prop} [Decidable c] {fault : Fault} {k : Unit → Synth σ α}
    (hc : ¬c) (h : OnlyStalls (k ()) bench) :
    OnlyStalls (if c then throw fault >>= k else k ()) bench := by
  rwa [if_neg hc]

theorem OnlyStalls.exists_ok (h : OnlyStalls m bench) (hends : (m.run bench).1 ≠ .error .stalled) :
    ∃ a, (m.run bench).1 = .ok a := by
  cases hresult : (m.run bench).1 with
  | ok a => exact ⟨a, rfl⟩
  | error fault => exact absurd (by rw [hresult, h fault hresult]) hends

theorem OnlyStalls.atomic (h : OnlyStalls m bench) : Atomic m bench :=
  fun fault hfault hends => absurd (h fault hfault) hends

theorem looks_draft : Looks (draft : Synth σ Draft) := fun _ => ⟨rfl, rfl⟩

theorem looks_ofExcept (a : Except Fault α) : Looks (ofExcept a : Synth σ α) := by
  intro bench
  rw [run_ofExcept]
  exact ⟨rfl, rfl⟩

theorem looks_requireWritable (n : Int) : Looks (requireWritable n : Synth σ Unit) := by
  intro bench
  rw [run_requireWritable]
  exact ⟨rfl, rfl⟩

theorem Looks.atomic (h : Looks m) : Atomic m bench := fun _ _ _ => h bench

theorem Looks.bind_atomic (hm : Looks m)
    (hk : ∀ a next, m.run bench = (.ok a, next) → Atomic (k a) next) : Atomic (m >>= k) bench := by
  intro fault h hends
  have hbench := hm bench
  rw [run_bind] at h ⊢
  cases hrun : m.run bench with
  | mk result next =>
    rw [hrun] at h hbench
    cases result with
    | ok a =>
      obtain ⟨hdraft, hrandom⟩ := hk a next hrun fault h hends
      exact ⟨hdraft.trans hbench.1, hrandom.trans hbench.2⟩
    | error fault' => exact hbench

theorem Atomic.bind (hm : Atomic m bench)
    (hk : ∀ a next, m.run bench = (.ok a, next) → OnlyStalls (k a) next) :
    Atomic (m >>= k) bench := by
  intro fault h hends
  rw [run_bind] at h ⊢
  cases hrun : m.run bench with
  | mk result next =>
    rw [hrun] at h
    cases result with
    | ok a => exact absurd (hk a next hrun fault h) hends
    | error fault' =>
      obtain rfl : fault' = fault := Except.error.inj h
      have hbench := hm fault' (by rw [hrun]) hends
      rwa [hrun] at hbench

theorem Atomic.map {f : α → β} (hm : Atomic m bench) :
    Atomic (m >>= fun a => pure (f a)) bench :=
  hm.bind fun _ _ _ => onlyStalls_pure _

theorem Atomic.guard {c : Prop} [Decidable c] {fault : Fault} {k : Unit → Synth σ α}
    (h : ¬c → Atomic (k ()) bench) : Atomic (if c then throw fault >>= k else k ()) bench := by
  split
  · intro _ _ _
    exact ⟨rfl, rfl⟩
  · next hc => exact h hc

end Rules

section Draws

variable [Random.Sampler σ] {bench : Workbench σ}

theorem onlyStalls_pick {n : Nat} (hn : n ≠ 0) : OnlyStalls (pick n) bench := by
  apply OnlyStalls.skip_guard hn
  intro fault h
  simp only [run_bind, run_get] at h
  cases hdraw : Random.Sampler.draw? n bench.random with
  | none =>
    rw [hdraw] at h
    cases h
    rfl
  | some p =>
    rw [hdraw] at h
    cases h

theorem atomic_pick (n : Nat) : Atomic (pick n) bench := by
  by_cases h : n = 0
  · exact Atomic.guard fun hn => absurd h hn
  · exact (onlyStalls_pick h).atomic

theorem atomic_oneTo (n : Int) : Atomic (oneTo n) bench :=
  (looks_requireWritable n).bind_atomic fun _ _ _ => Atomic.guard fun _ => (atomic_pick _).map

theorem atomic_oneIn (n : Int) : Atomic (oneIn n) bench :=
  (looks_requireWritable n).bind_atomic fun _ _ _ => Atomic.guard fun _ => (atomic_oneTo n).map

theorem atomic_allButOneIn (n : Int) : Atomic (allButOneIn n) bench :=
  (looks_requireWritable n).bind_atomic fun _ _ _ => Atomic.guard fun _ => (atomic_oneIn n).map

theorem atomic_choose (items : List α) : Atomic (choose items) bench := (atomic_pick _).map

theorem onlyStalls_thin {n : Nat} (h : n ≠ 0) (items : List α) :
    OnlyStalls (thin n items) bench := by
  induction items generalizing bench with
  | nil => exact onlyStalls_pure _
  | cons x xs ih =>
    exact (onlyStalls_pick h).bind fun _ _ _ => ih.bind fun _ _ _ => onlyStalls_pure _

theorem atomic_subset [LE α] [DecidableLE α] [DecidableEq α] (items : List α) :
    Atomic (subset items) bench := by
  apply Atomic.guard
  intro h
  exact (onlyStalls_thin (by omega) _).atomic

theorem onlyStalls_choosePath {paths : List String} (h : paths ≠ []) :
    OnlyStalls (choosePath paths) bench := by
  apply OnlyStalls.skip_guard h
  apply (onlyStalls_pick _).bind fun _ _ _ => onlyStalls_pure _
  rw [length_sorted]
  exact mt List.length_eq_zero_iff.1 h

theorem atomic_choosePath (paths : List String) : Atomic (choosePath paths) bench :=
  Atomic.guard fun _ => atomic_choose _

theorem atomic_chooseUnit : Atomic chooseUnit bench :=
  looks_draft.bind_atomic fun _ _ _ => atomic_choosePath _

theorem atomic_chooseOtherUnit : Atomic chooseOtherUnit bench :=
  looks_draft.bind_atomic fun _ _ _ => Atomic.guard fun _ =>
    (looks_ofExcept _).bind_atomic fun _ _ _ => atomic_choosePath _

end Draws

section Units

variable {bench : Workbench σ}

theorem atomic_performUnit_addImport (h : bench.draft.Consistent) (path : Option String)
    (imported : String) : Atomic (performUnit path (.addImport imported)) bench := by
  apply looks_draft.bind_atomic
  rintro draft bench' ⟨⟩
  apply (looks_ofExcept _).bind_atomic
  intro unit next hrun
  obtain ⟨hunit, rfl⟩ := run_ofExcept_eq_ok.1 hrun
  have hfind : ∃ path, bench.draft.units.find? path = some unit := by
    cases path with
    | none =>
      obtain ⟨path, -, hfind⟩ := Draft.currentUnit_eq_ok hunit
      exact ⟨path, hfind⟩
    | some path => exact ⟨path, Draft.unit_eq_ok.1 hunit⟩
  obtain ⟨path', hfind⟩ := hfind
  have hstored : bench.draft.put unit = bench.draft := by
    rw [Draft.put, h.path_eq hfind, OrderedMap.insert_of_find? hfind]
  intro fault hfault _
  cases hadd : unit.addImport imported with
  | ok unit' =>
    simp only [SourceUnit.perform, hadd] at hfault
    cases hfault
  | error fault' =>
    simp only [SourceUnit.perform, hadd]
    exact ⟨hstored, rfl⟩

theorem onlyStalls_updateUnit (unit : SourceUnit) (text : String) :
    OnlyStalls (updateUnit unit >>= fun _ => pure text) bench := by
  intro fault h
  cases h

theorem atomic_writeContract : Atomic writeContract bench :=
  looks_draft.bind_atomic fun _ _ _ => (looks_ofExcept _).bind_atomic fun _ _ _ =>
    (onlyStalls_updateUnit _ _).atomic

variable [Random.Sampler σ]

theorem atomic_writeImport : Atomic writeImport bench := by
  apply looks_draft.bind_atomic
  rintro draft bench' ⟨⟩
  apply Atomic.guard
  intro _
  apply (looks_ofExcept _).bind_atomic
  intro unit next _
  apply Atomic.guard
  intro _
  apply (atomic_choosePath _).bind
  intro path chosen hchosen
  have himportable := of_decide_eq_true (List.mem_filter.1 (mem_of_choosePath hchosen)).2
  have hadd := SourceUnit.addImport_eq_ok.2 ⟨himportable.1, himportable.2, rfl⟩
  exact (onlyStalls_ofExcept hadd).bind fun _ _ _ => onlyStalls_updateUnit _ _

theorem looks_setUp {kind : Kind} (hkind : kind = .importDirective ∨ kind = .contract) :
    Looks (setUp kind : Synth σ Unit) := by
  rcases hkind with rfl | rfl
  · exact fun _ => ⟨rfl, rfl⟩
  · exact fun _ => ⟨rfl, rfl⟩

theorem atomic_generate {kind : Kind} (hkind : kind = .importDirective ∨ kind = .contract) :
    Atomic (generate kind) bench := by
  apply (looks_setUp hkind).bind_atomic
  intro _ planned _
  have hvisit (gen : Kind → Synth σ String) : Atomic (visit gen kind) planned := by
    rcases hkind with rfl | rfl
    · exact atomic_writeImport
    · exact atomic_writeContract
  apply (hvisit _).bind
  intro text written _ fault hnote
  cases hnote

end Units

variable [Random.Sampler σ]

/-- The operations that do one thing: a draw, a look-up, or one import or contract. -/
inductive OneShot : {α : Type} → Synth σ α → Prop
  | oneTo (n : Int) : OneShot (oneTo n)
  | oneIn (n : Int) : OneShot (oneIn n)
  | allButOneIn (n : Int) : OneShot (allButOneIn n)
  | choose {α : Type} (items : List α) : OneShot (choose items)
  | subset {α : Type} [LE α] [DecidableLE α] [DecidableEq α] (items : List α) :
      OneShot (subset items)
  | choosePath (paths : List String) : OneShot (choosePath paths)
  | chooseUnit : OneShot chooseUnit
  | chooseOtherUnit : OneShot chooseOtherUnit
  | currentPath : OneShot (do ofExcept (← draft).currentPath)
  | currentUnit : OneShot (do ofExcept (← draft).currentUnit)
  /-- An import by hand, into the given unit or the current one. -/
  | addImport (path : Option String) (imported : String) :
      OneShot (performUnit path (.addImport imported))
  | importDirective : OneShot (generate .importDirective)
  | contract : OneShot (generate .contract)

theorem OneShot.atomic {m : Synth σ α} {bench : Workbench σ} (hm : OneShot m)
    (h : bench.draft.Consistent) : Atomic m bench := by
  cases hm with
  | oneTo n => exact atomic_oneTo n
  | oneIn n => exact atomic_oneIn n
  | allButOneIn n => exact atomic_allButOneIn n
  | choose items => exact atomic_choose items
  | subset items => exact atomic_subset items
  | choosePath paths => exact atomic_choosePath paths
  | chooseUnit => exact atomic_chooseUnit
  | chooseOtherUnit => exact atomic_chooseOtherUnit
  | currentPath => exact looks_draft.bind_atomic fun _ _ _ => (looks_ofExcept _).atomic
  | currentUnit => exact looks_draft.bind_atomic fun _ _ _ => (looks_ofExcept _).atomic
  | addImport path imported => exact atomic_performUnit_addImport h path imported
  | importDirective => exact atomic_generate (.inl rfl)
  | contract => exact atomic_generate (.inr rfl)

end Synth

/-- Wherever a session stands, an operation that fails has drawn nothing and recorded nothing. -/
theorem oneShot_atomic {σ : Type} [Random.Sampler σ] (seed : Nat) (config : Config) (random : σ)
    (commands : List Command) {α : Type} {m : Synth σ α} (hm : Synth.OneShot m) :
    Synth.Atomic m ((Workbench.start seed config random).steps commands).2 :=
  hm.atomic (Workbench.consistent_steps seed config random commands)

def exhaustedBench : Workbench Sampling.Script :=
  ((Workbench.start 0 .standard (Sampling.Script.mk [0, 0, 0])).steps
    [.draft .addUnit, .draft .addUnit, .kind .importDirective .generate]).2

theorem oneShot_atomic_exhausted :
    Synth.OneShot (Synth.generate .importDirective : Synth Sampling.Script String) ∧
      ((Synth.generate .importDirective).run exhaustedBench).1 =
        .error (.nothingToImport "su1.sol") ∧
      ((Synth.generate .importDirective).run exhaustedBench).2.draft = exhaustedBench.draft ∧
      ((Synth.generate .importDirective).run exhaustedBench).2.random = exhaustedBench.random := by
  have hfault : ((Synth.generate .importDirective).run exhaustedBench).1 =
      .error (.nothingToImport "su1.sol") := by
    decide +kernel
  have hends : Fault.nothingToImport "su1.sol" ≠ .stalled := by decide
  exact ⟨.importDirective, hfault,
    oneShot_atomic 0 .standard (Sampling.Script.mk [0, 0, 0]) _ .importDirective _ hfault hends⟩

end SoliditySynth
