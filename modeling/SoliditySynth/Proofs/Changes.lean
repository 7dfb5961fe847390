import Mathlib.Data.List.Induction
import SoliditySynth.Session

namespace SoliditySynth

inductive Edit where
  | reset
  | declare (path : String)
  | add (path : String)
  | unit (path : String) (command : UnitCommand)
deriving DecidableEq

namespace Draft

inductive Edited : Draft → Edit → Draft → Prop
  | reset (draft : Draft) : Edited draft .reset .empty
  | declare (draft : Draft) (path : String) : Edited draft (.declare path) (draft.declare path)
  | add (draft : Draft) (path : String) : Edited draft (.add path) (draft.add path)
  | unit {draft : Draft} {path : String} {unit : SourceUnit} (command : UnitCommand)
      (h : draft.units.find? path = some unit) :
      Edited draft (.unit path command) (draft.put (unit.perform command).2)

end Draft

/-- An edit with the drafts before and after it. -/
structure Change where
  before : Draft
  edit : Edit
  after : Draft
  edited : before.Edited edit after

namespace Draft

/-- Changes that lead from one draft to another. -/
inductive Course (first : Draft) : List Change → Draft → Prop
  | nil : Course first [] first
  | concat {changes : List Change} (change : Change) (h : Course first changes change.before) :
      Course first (changes ++ [change]) change.after

def along (first : Draft) (changes : List Change) : List Draft := first :: changes.map Change.after

variable {first middle last : Draft} {changes changes' : List Change}

theorem Course.trans (h : first.Course changes middle) (h' : middle.Course changes' last) :
    first.Course (changes ++ changes') last := by
  induction h' with
  | nil => rwa [List.append_nil]
  | concat change _ ih =>
    rw [← List.append_assoc]
    exact .concat change ih

theorem course_nil_iff : first.Course [] last ↔ first = last := by
  constructor
  · intro h
    generalize hall : ([] : List Change) = all at h
    cases h with
    | nil => rfl
    | concat change h => exact absurd hall (by simp)
  · rintro rfl
    exact .nil

theorem course_concat_iff {change : Change} :
    first.Course (changes ++ [change]) last ↔
      first.Course changes change.before ∧ change.after = last := by
  constructor
  · intro h
    generalize hall : changes ++ [change] = all at h
    cases h with
    | nil => exact absurd hall (by simp)
    | concat change' h =>
      obtain ⟨rfl, hlast⟩ := List.append_inj' hall rfl
      obtain rfl := List.singleton_inj.1 hlast
      exact ⟨h, rfl⟩
  · rintro ⟨h, rfl⟩
    exact .concat change h

theorem Course.exists_middle (h : first.Course (changes ++ changes') last) :
    ∃ middle, first.Course changes middle ∧ middle.Course changes' last := by
  induction changes' using List.reverseRecOn generalizing last with
  | nil =>
    rw [List.append_nil] at h
    exact ⟨last, h, .nil⟩
  | append_singleton changes' change ih =>
    rw [← List.append_assoc, course_concat_iff] at h
    obtain ⟨hbefore, rfl⟩ := h
    obtain ⟨middle, hcourse, hcourse'⟩ := ih hbefore
    exact ⟨middle, hcourse, .concat change hcourse'⟩

theorem Course.last_unique (h : first.Course changes middle) (h' : first.Course changes last) :
    middle = last := by
  induction changes using List.reverseRecOn with
  | nil => exact (course_nil_iff.1 h).symm.trans (course_nil_iff.1 h')
  | append_singleton changes change _ =>
    exact (course_concat_iff.1 h).2.symm.trans (course_concat_iff.1 h').2

theorem Course.exists_since_reset (h : Draft.empty.Course changes last) :
    ∃ earlier run, changes = earlier ++ run ∧ Draft.empty.Course earlier .empty ∧
      ∀ change ∈ run, change.edit ≠ .reset := by
  induction h with
  | nil => exact ⟨[], [], rfl, .nil, by simp⟩
  | @concat changes change h ih =>
    by_cases hreset : change.edit = .reset
    · have hafter : change.after = .empty := by
        obtain ⟨before, edit, after, edited⟩ := change
        cases hreset
        cases edited
        rfl
      exact ⟨changes ++ [change], [], (List.append_nil _).symm,
        course_concat_iff.2 ⟨h, hafter⟩, by simp⟩
    · obtain ⟨earlier, run, rfl, hearlier, hrun⟩ := ih
      refine ⟨earlier, run ++ [change], List.append_assoc .., hearlier, ?_⟩
      intro change' hmem
      rcases List.mem_append.1 hmem with hmem | hmem
      · exact hrun change' hmem
      · rwa [List.mem_singleton.1 hmem]

theorem Course.last_mem (h : first.Course changes last) : last ∈ first.along changes := by
  cases h with
  | nil => exact List.mem_cons_self
  | concat change h => simp [along]

/-- What each change keeps holds all along. -/
theorem Course.keeps {I : Draft → Prop} (h : first.Course changes last) (hfirst : I first)
    (hkeep : ∀ change ∈ changes, I change.before → I change.after) :
    (∀ draft ∈ first.along changes, I draft) ∧ ∀ change ∈ changes, I change.before := by
  induction h with
  | nil => simpa [along] using hfirst
  | @concat changes change h ih =>
    obtain ⟨halong, hbefore⟩ := ih fun change' hmem => hkeep change' (List.mem_append_left _ hmem)
    have hchange : I change.before := halong _ h.last_mem
    have hafter : I change.after := hkeep change (by simp) hchange
    constructor
    · intro draft hmem
      rw [along, List.map_append, ← List.cons_append] at hmem
      rcases List.mem_append.1 hmem with hmem | hmem
      · exact halong draft hmem
      · obtain rfl : draft = change.after := by simpa using hmem
        exact hafter
    · intro change' hmem
      rcases List.mem_append.1 hmem with hmem | hmem
      · exact hbefore change' hmem
      · obtain rfl := List.mem_singleton.1 hmem
        exact hchange

end Draft

namespace Synth

variable {σ α β : Type}

/-- Wherever it is taken, the step changes neither the draft nor the settings. -/
def Quiet (m : Synth σ α) : Prop :=
  ∀ bench, (m.run bench).2.draft = bench.draft ∧ (m.run bench).2.config = bench.config

/-- The changes that a step makes when it is taken, one after the other. -/
inductive History : {α : Type} → Synth σ α → Workbench σ → List Change → Prop
  | quiet {α : Type} {m : Synth σ α} (h : Quiet m) (bench : Workbench σ) : History m bench []
  | change (change : Change) {bench : Workbench σ} (h : bench.draft = change.before) :
      History (setDraft change.after) bench [change]
  | bind {α β : Type} {m : Synth σ α} {k : α → Synth σ β} {bench next : Workbench σ} {a : α}
      {changes changes' : List Change} (hm : History m bench changes)
      (hrun : m.run bench = (.ok a, next)) (hk : History (k a) next changes') :
      History (m >>= k) bench (changes ++ changes')
  | stop {α β : Type} {m : Synth σ α} {k : α → Synth σ β} {bench next : Workbench σ}
      {fault : Fault} {changes : List Change} (hm : History m bench changes)
      (hrun : m.run bench = (.error fault, next)) : History (m >>= k) bench changes

theorem History.course {m : Synth σ α} {bench : Workbench σ} {changes : List Change}
    (h : History m bench changes) :
    bench.draft.Course changes (m.run bench).2.draft ∧ (m.run bench).2.config = bench.config := by
  induction h with
  | quiet h bench =>
    obtain ⟨hdraft, hconfig⟩ := h bench
    rw [hdraft]
    exact ⟨.nil, hconfig⟩
  | @change change bench h =>
    rw [h]
    exact ⟨.concat change .nil, rfl⟩
  | bind hm hrun hk ihm ihk =>
    rw [run_bind, hrun]
    rw [hrun] at ihm
    exact ⟨ihm.1.trans ihk.1, ihk.2.trans ihm.2⟩
  | stop hm hrun ihm =>
    rw [run_bind, hrun]
    rwa [hrun] at ihm

section Quiet

variable {m m' : Synth σ α} {k : α → Synth σ β} {c : Prop} [Decidable c] {fault : Fault}

theorem quiet_pure (a : α) : Quiet (pure a : Synth σ α) := fun _ => ⟨rfl, rfl⟩

theorem quiet_throw (fault : Fault) : Quiet (throw fault : Synth σ α) := fun _ => ⟨rfl, rfl⟩

theorem quiet_draft : Quiet (draft : Synth σ Draft) := fun _ => ⟨rfl, rfl⟩

theorem Quiet.bind (hm : Quiet m) (hk : ∀ a, Quiet (k a)) : Quiet (m >>= k) := by
  intro bench
  have h := hm bench
  rw [run_bind]
  cases hrun : m.run bench with
  | mk result next =>
    rw [hrun] at h
    cases result with
    | ok a => exact ⟨(hk a next).1.trans h.1, (hk a next).2.trans h.2⟩
    | error fault => exact h

theorem Quiet.ite (h : Quiet m) (h' : Quiet m') : Quiet (if c then m else m') := by
  split
  · exact h
  · exact h'

theorem Quiet.guard {k : Unit → Synth σ α} (h : Quiet (k ())) :
    Quiet (if c then throw fault >>= k else k ()) :=
  Quiet.ite ((quiet_throw fault).bind fun _ => h) h

end Quiet

/-- The step has a history of changes that all satisfy `P`. -/
def Within (P : Change → Prop) (m : Synth σ α) (bench : Workbench σ) : Prop :=
  ∃ changes, History m bench changes ∧ ∀ change ∈ changes, P change

section Within

variable {P : Change → Prop} {m : Synth σ α} {k : α → Synth σ β} {bench : Workbench σ}

theorem Quiet.within (h : Quiet m) : Within P m bench := ⟨[], .quiet h bench, by simp⟩

theorem within_setDraft (change : Change) (h : bench.draft = change.before) (hP : P change) :
    Within P (setDraft change.after) bench :=
  ⟨[change], .change change h, by simpa using hP⟩

theorem Within.bind (hm : Within P m bench)
    (hk : ∀ a next, m.run bench = (.ok a, next) → next.config = bench.config →
      Within P (k a) next) : Within P (m >>= k) bench := by
  obtain ⟨changes, hchanges, hP⟩ := hm
  have hconfig := hchanges.course.2
  cases hrun : m.run bench with
  | mk result next =>
    rw [hrun] at hconfig
    cases result with
    | ok a =>
      obtain ⟨changes', hchanges', hP'⟩ := hk a next hrun hconfig
      refine ⟨changes ++ changes', .bind hchanges hrun hchanges', ?_⟩
      intro change hmem
      exact (List.mem_append.1 hmem).elim (hP change) (hP' change)
    | error fault => exact ⟨changes, .stop hchanges hrun, hP⟩

theorem Quiet.bind_within (hm : Quiet m)
    (hk : ∀ a next, m.run bench = (.ok a, next) → next.draft = bench.draft → Within P (k a) next) :
    Within P (m >>= k) bench := by
  apply hm.within.bind
  intro a next hrun _
  have hdraft := (hm bench).1
  rw [hrun] at hdraft
  exact hk a next hrun hdraft

theorem Within.guard {c : Prop} [Decidable c] {fault : Fault} {k : Unit → Synth σ α}
    (h : ¬c → Within P (k ()) bench) :
    Within P (if c then throw fault >>= k else k ()) bench := by
  split
  · apply (quiet_throw fault).within.bind
    intro a next hrun
    rw [run_throw] at hrun
    cases hrun
  · next hc => exact h hc

theorem Within.mono {P' : Change → Prop} (h : Within P m bench)
    (hP : ∀ change, P change → P' change) : Within P' m bench := by
  obtain ⟨changes, hchanges, hall⟩ := h
  exact ⟨changes, hchanges, fun change hmem => hP change (hall change hmem)⟩

theorem updateUnit_within {path : String} {unit : SourceUnit} (command : UnitCommand)
    (h : bench.draft.units.find? path = some unit)
    (hP : P ⟨bench.draft, .unit path command, _, .unit command h⟩) :
    Within P (updateUnit (unit.perform command).2) bench := by
  apply quiet_draft.bind_within
  rintro draft bench' ⟨⟩ -
  exact within_setDraft _ rfl hP

end Within

def MakesOnly (config : Config) (P : Change → Prop) (m : Synth σ α) : Prop :=
  ∀ bench, bench.config = config → Within P m bench

section MakesOnly

variable {config : Config} {P : Change → Prop} {m : Synth σ α} {k : α → Synth σ β}

theorem Quiet.makesOnly (h : Quiet m) : MakesOnly config P m := fun _ _ => h.within

theorem MakesOnly.bind (hm : MakesOnly config P m) (hk : ∀ a, MakesOnly config P (k a)) :
    MakesOnly config P (m >>= k) := by
  intro bench hconfig
  apply (hm bench hconfig).bind
  intro a next _ hnext
  exact hk a next (hnext.trans hconfig)

theorem MakesOnly.guard {c : Prop} [Decidable c] {fault : Fault} {k : Unit → Synth σ α}
    (h : MakesOnly config P (k ())) :
    MakesOnly config P (if c then throw fault >>= k else k ()) :=
  fun bench hconfig => Within.guard fun _ => h bench hconfig

theorem MakesOnly.map_reply {f : α → β} (hm : MakesOnly config P m) :
    MakesOnly config P (m >>= fun a => pure (f a)) :=
  hm.bind fun a => (quiet_pure (f a)).makesOnly

end MakesOnly

end Synth

namespace Workbench

variable {σ : Type} [Random.Sampler σ]

inductive History : Workbench σ → List Command → List Change → Prop
  | nil (bench : Workbench σ) : History bench [] []
  | cons {bench : Workbench σ} {command : Command} {commands : List Command}
      {changes changes' : List Change} (h : Synth.History (Synth.perform command) bench changes)
      (hrest : History (bench.step command).2 commands changes') :
      History bench (command :: commands) (changes ++ changes')

theorem History.course {bench : Workbench σ} {commands : List Command} {changes : List Change}
    (h : bench.History commands changes) :
    bench.draft.Course changes (bench.steps commands).2.draft := by
  induction h with
  | nil bench => exact .nil
  | cons h hrest ih => exact h.course.1.trans ih

end Workbench

end SoliditySynth
