import SoliditySynth.Proofs.Refinement
import SoliditySynth.Session

namespace SoliditySynth

/-- Two runs with the same answer, and with the same draft and the same random state at their ends.
A run that is stalled never comes to an end. -/
structure EndAlike {σ α : Type} (outcome outcome' : Except Fault α × Workbench σ) : Prop where
  answer : outcome.1 = outcome'.1
  draft (hends : outcome.1 ≠ .error .stalled) : outcome.2.draft = outcome'.2.draft
  random (hends : outcome.1 ≠ .error .stalled) : outcome.2.random = outcome'.2.random

section

variable {σ α : Type} [Random.Sampler σ] {J : Children → Prop} {m : Synth σ α} {r : Recipe α}
  {bench bench' : Workbench σ}

/-- A recipe cannot tell two generators apart by their children, so neither can what follows it. -/
theorem Follows.endAlike (h : Follows bench.setting (fun _ => True) m r (Same J))
    (hsetting : bench.setting = bench'.setting) (hrandom : bench.random = bench'.random)
    (hdraft : r.run bench.draft = r.run bench'.draft) : EndAlike (m.run bench) (m.run bench') := by
  have h' : Follows bench'.setting (fun _ => True) m r (Same J) := hsetting ▸ h
  cases hr : (r.run bench.draft).run bench.random with
  | none =>
    have hstalled := h.run_of_none trivial hr
    rw [hdraft, hrandom] at hr
    have hstalled' := h'.run_of_none trivial hr
    exact ⟨hstalled.trans hstalled'.symm, absurd hstalled, absurd hstalled⟩
  | some ending =>
    obtain ⟨⟨result, draft⟩, random⟩ := ending
    obtain ⟨final, hfinal, rfl, rfl⟩ := h.run_of_some trivial hr
    rw [hdraft, hrandom] at hr
    obtain ⟨final', hfinal', hd, hn⟩ := h'.run_of_some trivial hr
    rw [hfinal, hfinal']
    exact ⟨rfl, fun _ => hd.symm, fun _ => hn.symm⟩

end

theorem Recipe.run_program_congr (setting : Setting) (draft draft' : Draft) :
    (program setting).run draft = (program setting).run draft' := by
  simp only [program, run_bind, run_set, pure_bind, andThen_ok]

/-- Drafts and declared children that are left from earlier runs make no difference to a program,
nor do the children make any to the text of a single kind. -/
theorem generation_endAlike {σ : Type} [Random.Sampler σ] (bench bench' : Workbench σ)
    (hconfig : bench.config = bench'.config) (hregistered : bench.registered = bench'.registered)
    (hrandom : bench.random = bench'.random) :
    EndAlike (Synth.program.run bench) (Synth.program.run bench') ∧
      (bench.draft = bench'.draft → ∀ kind,
        EndAlike ((Synth.generate kind).run bench) ((Synth.generate kind).run bench')) := by
  have hsetting : bench.setting = bench'.setting := by
    rw [Workbench.setting, Workbench.setting, hconfig, hregistered]
  constructor
  · exact program_follows.endAlike hsetting hrandom (Recipe.run_program_congr _ _ _)
  · intro hdraft kind
    exact (generate_follows kind).endAlike hsetting hrandom (by rw [hdraft])

def leavingSteps : List Command :=
  [.draft (.declare "su1.sol"), .draft .addUnit, .draft (.unit none (.addImport "su1.sol")),
    .kind .testCase (.declareChild .sourceUnit 7), .kind .sourceUnit (.declareChild .contract 0)]

theorem generation_endAlike_after_steps :
    let fresh := Workbench.start 0 .standard (Sampling.Script.mk [1, 0, 1, 1, 1, 0, 0])
    let used := (fresh.steps leavingSteps).2
    EndAlike (Synth.program.run used) (Synth.program.run fresh) ∧
      ∀ kind, EndAlike ((Synth.generate kind).run used)
        ((Synth.generate kind).run { fresh with draft := used.draft }) := by
  intro fresh used
  have hconfig : used.config = fresh.config := by decide +kernel
  have hregistered : used.registered = fresh.registered := by decide +kernel
  have hrandom : used.random = fresh.random := by decide +kernel
  have hfresh := generation_endAlike used fresh hconfig hregistered hrandom
  have hsame := generation_endAlike used { fresh with draft := used.draft } hconfig hregistered
    hrandom
  exact ⟨hfresh.1, hsame.2 rfl⟩

end SoliditySynth
