import SoliditySynth.Proofs.Recipe

namespace SoliditySynth

abbrev Children := PerKind (OrderedMap Kind Int)

def Workbench.setting {σ : Type} (bench : Workbench σ) : Setting := ⟨bench.config, bench.registered⟩

/-- The outcome of a step agrees with that of a recipe. On success their results and the children
are related by `J`. A recipe without an outcome has met a random source that is stuck. -/
inductive Tracks {σ α β : Type} (setting : Setting) (J : β → α → Children → Prop) :
    Except Fault α × Workbench σ → Option ((Except Fault β × Draft) × σ) → Prop
  | returned {a : α} {b : β} (bench : Workbench σ) (hs : bench.setting = setting)
      (hJ : J b a bench.children) :
      Tracks setting J (.ok a, bench) (some ((.ok b, bench.draft), bench.random))
  | failed {fault : Fault} (bench : Workbench σ) (hs : bench.setting = setting) :
      Tracks setting J (.error fault, bench) (some ((.error fault, bench.draft), bench.random))
  | stalled (bench : Workbench σ) (hs : bench.setting = setting) :
      Tracks setting J (.error .stalled, bench) none

variable {σ α β : Type} [Random.Sampler σ] {setting : Setting} {I : Children → Prop}

/-- Started with children that satisfy `I`, a step agrees with a recipe. -/
def Follows (setting : Setting) (I : Children → Prop) (m : Synth σ α) (r : Recipe β)
    (J : β → α → Children → Prop) : Prop :=
  ∀ bench : Workbench σ, bench.setting = setting → I bench.children →
    Tracks setting J (m.run bench) ((r.run bench.draft).run bench.random)

def Same (I : Children → Prop) (b a : α) (children : Children) : Prop := b = a ∧ I children

namespace Follows

theorem bind {γ δ : Type} {J : β → α → Children → Prop} {K : δ → γ → Children → Prop}
    {m : Synth σ α} {r : Recipe β} {k : α → Synth σ γ} {q : β → Recipe δ}
    (h : Follows setting I m r J) (hk : ∀ b a, Follows setting (J b a) (k a) (q b) K) :
    Follows setting I (m >>= k) (r >>= q) K := by
  intro bench hs hI
  rw [Synth.run_bind, Recipe.run_bind, Sampling.run_bind]
  have ht := h bench hs hI
  generalize m.run bench = outcome at ht
  generalize (r.run bench.draft).run bench.random = expected at ht
  cases ht with
  | returned bench' hs' hJ => exact hk _ _ bench' hs' hJ
  | failed bench' hs' => exact .failed bench' hs'
  | stalled bench' hs' => exact .stalled bench' hs'

theorem bind_same {γ δ : Type} {J : Children → Prop} {K : δ → γ → Children → Prop} {m : Synth σ α}
    {r : Recipe α} {k : α → Synth σ γ} {q : α → Recipe δ} (h : Follows setting I m r (Same J))
    (hk : ∀ a, Follows setting J (k a) (q a) K) : Follows setting I (m >>= k) (r >>= q) K := by
  apply h.bind
  intro b a bench hs hI
  obtain ⟨rfl, hI⟩ := hI
  exact hk b bench hs hI

theorem pure_pure {J : β → α → Children → Prop} {a : α} {b : β}
    (h : ∀ children, I children → J b a children) :
    Follows setting I (pure a : Synth σ α) (pure b) J :=
  fun bench hs hI => .returned bench hs (h _ hI)

theorem pure_same (a : α) : Follows setting I (pure a : Synth σ α) (pure a) (Same I) :=
  pure_pure fun _ hI => ⟨rfl, hI⟩

theorem throw_throw {J : β → α → Children → Prop} (fault : Fault) :
    Follows setting I (throw fault : Synth σ α) (throw fault) J :=
  fun bench hs _ => .failed bench hs

theorem ite {J : β → α → Children → Prop} {c : Prop} [Decidable c] {m m' : Synth σ α}
    {r r' : Recipe β} (h : c → Follows setting I m r J) (h' : ¬c → Follows setting I m' r' J) :
    Follows setting I (if c then m else m') (if c then r else r') J := by
  split
  · next hc => exact h hc
  · next hc => exact h' hc

theorem guard {J : β → α → Children → Prop} {c : Prop} [Decidable c] {fault : Fault}
    {k : Unit → Synth σ α} {q : Unit → Recipe β} (h : ¬c → Follows setting I (k ()) (q ()) J) :
    Follows setting I (if c then throw fault >>= k else k ())
      (if c then throw fault >>= q else q ()) J :=
  ite (fun _ => (throw_throw fault).bind (J := fun _ _ _ => False) fun _ _ _ _ => False.elim) h

theorem skip {γ : Type} {K : β → γ → Children → Prop} {m : Synth σ α} {k : α → Synth σ γ}
    {r : Recipe β} {J : α → Children → Prop}
    (hm : ∀ bench : Workbench σ, bench.setting = setting → I bench.children →
      ∃ a bench', m.run bench = (.ok a, bench') ∧ bench'.setting = setting ∧
        bench'.draft = bench.draft ∧ bench'.random = bench.random ∧ J a bench'.children)
    (hk : ∀ a, Follows setting (J a) (k a) r K) : Follows setting I (m >>= k) r K := by
  intro bench hs hI
  obtain ⟨a, bench', hrun, hs', hd, hr, hJ⟩ := hm bench hs hI
  rw [Synth.run_bind, hrun, ← hd, ← hr]
  exact hk a bench' hs' hJ

theorem assume {P : Prop} {J : β → α → Children → Prop} {m : Synth σ α} {r : Recipe β}
    (h : P → Follows setting I m r J) :
    Follows setting (fun children => P ∧ I children) m r J :=
  fun bench hs hI => h hI.1 bench hs hI.2

theorem config_bind {K : β → α → Children → Prop} {k : Config → Synth σ α} {r : Recipe β}
    (hk : Follows setting I (k setting.config) r K) :
    Follows setting I (Synth.config >>= k) r K := by
  apply skip (J := fun config children => config = setting.config ∧ I children)
  · intro bench hs hI
    refine ⟨bench.config, bench, rfl, hs, rfl, rfl, ?_, hI⟩
    rw [← hs]
    rfl
  · intro config
    apply assume
    rintro rfl
    exact hk

theorem note_bind {K : β → α → Children → Prop} {level : Log.Level} {text : String}
    {k : Unit → Synth σ α} {r : Recipe β} (hk : Follows setting I (k ()) r K) :
    Follows setting I (Synth.note level text >>= k) r K :=
  skip (J := fun _ => I) (fun _ hs hI => ⟨(), _, rfl, hs, rfl, rfl, hI⟩) fun _ => hk

theorem draft : Follows setting I (Synth.draft : Synth σ Draft) get (Same I) :=
  fun bench hs hI => .returned bench hs ⟨rfl, hI⟩

theorem setDraft (draft : Draft) :
    Follows setting I (Synth.setDraft draft : Synth σ Unit) (set draft) (Same I) :=
  fun bench hs hI => .returned { bench with draft := draft } hs ⟨rfl, hI⟩

theorem ofExcept (a : Except Fault α) :
    Follows setting I (Synth.ofExcept a : Synth σ α) (Recipe.ofExcept a) (Same I) := by
  cases a with
  | ok a => exact pure_same a
  | error fault => exact throw_throw fault

theorem requireKind (kind : Kind) :
    Follows setting I (Synth.requireKind kind : Synth σ Unit) (Recipe.requireKind setting kind)
      (Same I) := by
  intro bench hs hI
  have hr : setting.registered = bench.registered := by rw [← hs]; rfl
  simp only [Synth.requireKind, Recipe.requireKind, Synth.run_bind, Synth.run_get, hr]
  split
  · exact .returned bench hs ⟨rfl, hI⟩
  · exact .failed bench hs

theorem pick (n : Nat) :
    Follows setting I (Synth.pick n : Synth σ (Fin n)) (Recipe.pick n) (Same I) := by
  unfold Synth.pick Recipe.pick
  apply guard
  intro _ bench hs hI
  simp only [Synth.run_bind, Synth.run_get, Recipe.run_draw, Sampling.run_bind, Sampling.pick,
    Sampling.run]
  cases Random.Sampler.draw? n bench.random with
  | none => exact .stalled bench hs
  | some p => exact .returned { bench with random := p.2 } hs ⟨rfl, hI⟩

theorem requireWritable (n : Int) :
    Follows setting I (Synth.requireWritable n : Synth σ Unit)
      (Recipe.requireWritable setting.config n) (Same I) := by
  apply config_bind
  exact ite (fun _ => pure_same _) fun _ => throw_throw _

theorem oneTo (n : Int) :
    Follows setting I (Synth.oneTo n : Synth σ Nat) (Recipe.oneTo setting.config n) (Same I) := by
  unfold Synth.oneTo Recipe.oneTo
  apply (requireWritable n).bind_same
  intro _
  apply guard
  intro _
  apply (pick _).bind_same
  intro i
  exact pure_same _

theorem choose (items : List α) :
    Follows setting I (Synth.choose items : Synth σ α) (Recipe.choose items) (Same I) := by
  apply (pick _).bind_same
  intro i
  exact pure_same _

theorem choosePath (paths : List String) :
    Follows setting I (Synth.choosePath paths : Synth σ String) (Recipe.choosePath paths)
      (Same I) := by
  unfold Synth.choosePath Recipe.choosePath
  apply guard
  intro _
  exact choose _

theorem updateUnit (unit : SourceUnit) :
    Follows setting I (Synth.updateUnit unit : Synth σ Unit) (Recipe.updateUnit unit) (Same I) :=
  fun bench hs hI => .returned { bench with draft := bench.draft.put unit } hs ⟨rfl, hI⟩

theorem collect {m : Synth σ String} {r : Recipe String} (h : Follows setting I m r (Same I))
    (n : Nat) : Follows setting I (Synth.collect m n) (Recipe.collect r n) (Same I) := by
  induction n with
  | zero => exact pure_same _
  | succ n ih =>
    apply h.bind_same
    intro text
    apply ih.bind_same
    intro texts
    exact pure_same _

end Follows

theorem writePragmas_follows :
    Follows setting I (Synth.writePragmas : Synth σ String) (Recipe.pragmas setting.config)
      (Same I) := by
  apply Follows.config_bind
  apply (Follows.choose _).bind_same
  intro generic
  apply Follows.config_bind
  apply (Follows.choose _).bind_same
  intro abi
  exact Follows.pure_same _

theorem writeImport_follows :
    Follows setting I (Synth.writeImport : Synth σ String) Recipe.importLine (Same I) := by
  apply Follows.draft.bind_same
  intro draft
  apply Follows.guard
  intro _
  apply (Follows.ofExcept _).bind_same
  intro unit
  apply Follows.guard
  intro _
  apply (Follows.choosePath _).bind_same
  intro path
  apply (Follows.ofExcept _).bind_same
  intro unit'
  apply (Follows.updateUnit _).bind_same
  intro _
  exact Follows.pure_same _

theorem writeContract_follows :
    Follows setting I (Synth.writeContract : Synth σ String) Recipe.contract (Same I) := by
  apply Follows.draft.bind_same
  intro draft
  apply (Follows.ofExcept _).bind_same
  intro unit
  apply (Follows.updateUnit _).bind_same
  intro _
  exact Follows.pure_same _

/-- Planning and writing may each follow a recipe of its own. -/
theorem Follows.generateWith {gen : Kind → Synth σ String} {kind : Kind} {p : Recipe β}
    {q : β → Recipe String} {J : β → Unit → Children → Prop} {K : Children → Prop}
    (hp : Follows setting I (Synth.setUp kind : Synth σ Unit) p J)
    (hq : ∀ b, Follows setting (J b ()) (Synth.visit gen kind) (q b) (Same K)) :
    Follows setting I (Synth.generateWith gen kind) (p >>= q) (Same K) := by
  apply hp.bind
  intro b _
  rw [← bind_pure (q b)]
  apply (hq b).bind_same
  intro text
  apply Follows.note_bind
  exact Follows.pure_same text

theorem generateWith_follows_of_setUp {gen : Kind → Synth σ String} {kind : Kind}
    {r : Recipe String} (hI : ∀ children, I children → I (children.set kind .empty))
    (hp : (Synth.setUp kind : Synth σ Unit) = Synth.clearChildren kind >>= pure)
    (hr : Follows setting I (Synth.visit gen kind) r (Same I)) :
    Follows setting I (Synth.generateWith gen kind) r (Same I) := by
  rw [← pure_bind () fun _ => r]
  apply Follows.generateWith (J := fun _ _ => I) ?_ fun _ => hr
  rw [hp]
  apply Follows.skip (J := fun _ => I)
  · intro bench hs hc
    exact ⟨(), _, rfl, hs, rfl, rfl, hI _ hc⟩
  · intro a
    exact Follows.pure_pure fun _ => id

theorem generateAt_part_follows (kind : Kind) (ht : kind ≠ .testCase) (hu : kind ≠ .sourceUnit)
    (depth : Nat) (hI : ∀ children, I children → I (children.set kind .empty)) :
    Follows setting I (Synth.generateAt (σ := σ) (depth + 1) kind) (Recipe.generate setting kind)
      (Same I) := by
  cases kind with
  | testCase => exact absurd rfl ht
  | sourceUnit => exact absurd rfl hu
  | pragma => exact generateWith_follows_of_setUp hI rfl writePragmas_follows
  | importDirective => exact generateWith_follows_of_setUp hI rfl writeImport_follows
  | contract => exact generateWith_follows_of_setUp hI rfl writeContract_follows

namespace Follows

theorem clearChildren_bind {K : β → α → Children → Prop} {kind : Kind} {k : Unit → Synth σ α}
    {r : Recipe β} (hk : Follows setting (·.get kind = .empty) (k ()) r K) :
    Follows setting I (Synth.clearChildren kind >>= k) r K := by
  apply skip (J := fun _ children => children.get kind = .empty)
  · intro bench hs _
    exact ⟨(), _, rfl, hs, rfl, rfl, PerKind.get_set_self ..⟩
  · exact fun _ => hk

theorem declareChild_bind {K : β → α → Children → Prop} {parent child : Kind} {weight : Int}
    {m : OrderedMap Kind Int} {k : Unit → Synth σ α} {r : Recipe β}
    (hk : Follows setting (·.get parent = m.insert child weight) (k ()) r K) :
    Follows setting (·.get parent = m) (Synth.declareChild parent child weight >>= k) r K := by
  apply skip (J := fun _ children => children.get parent = m.insert child weight)
  · intro bench hs hI
    refine ⟨(), _, rfl, hs, rfl, rfl, ?_⟩
    rw [PerKind.get_set_self, hI]
  · exact fun _ => hk

theorem declareChild_done {J : β → Unit → Children → Prop} {parent child : Kind} {weight : Int}
    {m : OrderedMap Kind Int} {b : β}
    (h : ∀ children : Children, children.get parent = m.insert child weight → J b () children) :
    Follows setting (·.get parent = m) (Synth.declareChild (σ := σ) parent child weight) (pure b)
      J := by
  rw [← bind_pure (Synth.declareChild parent child weight)]
  apply declareChild_bind
  exact pure_pure h

theorem visitChild {gen : Kind → Synth σ String} {parent child : Kind} {r : Recipe String} {n : Int}
    (hn : ∀ children, I children → ((children.get parent).find? child).getD 0 = n)
    (h : Follows setting I (gen child) r (Same I)) :
    Follows setting I (Synth.visitChild gen parent child)
      (Recipe.parts setting child r n.toNat) (Same I) := by
  apply (requireKind child).bind_same
  intro _
  apply skip (J := fun weight children => weight = n ∧ I children)
  · intro bench hs hI
    exact ⟨_, bench, rfl, hs, rfl, rfl, hn _ hI, hI⟩
  · intro weight
    apply assume
    rintro rfl
    exact h.collect _

theorem visitPlace {K : β → List String → Children → Prop} {gen : Kind → Synth σ String}
    {parent : Kind} {m : OrderedMap Kind Int} {place : Nat} {r : Recipe β}
    (h : Follows setting (·.get parent = m)
      (match m.keys[place]? with
        | some kind => Synth.visitChild gen parent kind
        | none => pure []) r K) :
    Follows setting (·.get parent = m) (Synth.visitPlace gen parent m.keys.length place) r K := by
  apply skip (J := fun bench children => bench.children.get parent = m ∧ children.get parent = m)
  · intro bench hs hI
    exact ⟨bench, bench, rfl, hs, rfl, rfl, hI, hI⟩
  · intro bench
    apply assume
    intro hc
    rw [hc, if_neg (not_not_intro rfl)]
    exact h

theorem visitPlace_bind_of_none {K : β → α → Children → Prop} {gen : Kind → Synth σ String}
    {parent : Kind} {m : OrderedMap Kind Int} {place : Nat} {k : List String → Synth σ α}
    {r : Recipe β} (hplace : m.keys[place]? = none)
    (hk : Follows setting (·.get parent = m) (k []) r K) :
    Follows setting (·.get parent = m) (Synth.visitPlace gen parent m.keys.length place >>= k) r
      K := by
  have hend : Follows setting (·.get parent = m)
      (Synth.visitPlace gen parent m.keys.length place) (pure ())
      fun _ texts children => texts = [] ∧ children.get parent = m := by
    apply visitPlace
    rw [hplace]
    exact pure_pure fun _ hm => ⟨rfl, hm⟩
  rw [← pure_bind () fun _ => r]
  apply hend.bind
  rintro _ texts bench hs ⟨rfl, hI⟩
  exact hk bench hs hI

end Follows

def unitChildren : Option Nat → OrderedMap Kind Int
  | none => (OrderedMap.empty.insert Kind.pragma 1).insert .contract 1
  | some n =>
    ((OrderedMap.empty.insert Kind.pragma 1).insert .importDirective (n : Int)).insert .contract 1

theorem setUp_sourceUnit_follows :
    Follows setting I (Synth.setUp (σ := σ) .sourceUnit) (Recipe.importCount setting.config)
      fun count _ children => children.get .sourceUnit = unitChildren count := by
  apply Follows.clearChildren_bind
  apply Follows.declareChild_bind
  apply Follows.draft.bind_same
  intro draft
  apply Follows.ite
  · intro _
    apply Follows.config_bind
    apply (Follows.oneTo _).bind_same
    intro n
    have hmin : min (n : Int) (draft.size - 1 : Nat) = (min n (draft.size - 1) : Nat) := by omega
    rw [hmin]
    apply Follows.declareChild_bind
    exact Follows.declareChild_done fun _ h => h
  · intro _
    exact Follows.declareChild_done fun _ h => h

section Unit

variable {gen : Kind → Synth σ String} {count : Option Nat}

/-- The parts of a source unit are generated by their recipes while its children stay declared. -/
def PartsFollow (setting : Setting) (gen : Kind → Synth σ String) (count : Option Nat) : Prop :=
  ∀ kind, kind ≠ .testCase → kind ≠ .sourceUnit →
    Follows setting (·.get .sourceUnit = unitChildren count) (gen kind)
      (Recipe.generate setting kind) (Same (·.get .sourceUnit = unitChildren count))

theorem PartsFollow.visitChild (hgen : PartsFollow setting gen count) (kind : Kind) (n : Int)
    (ht : kind ≠ .testCase) (hu : kind ≠ .sourceUnit)
    (hn : ((unitChildren count).find? kind).getD 0 = n) :
    Follows setting (·.get .sourceUnit = unitChildren count)
      (Synth.visitChild gen .sourceUnit kind)
      (Recipe.parts setting kind (Recipe.generate setting kind) n.toNat)
      (Same (·.get .sourceUnit = unitChildren count)) := by
  apply Follows.visitChild
  · intro children hc
    rw [hc, hn]
  · exact hgen kind ht hu

theorem PartsFollow.visitPlaces (hgen : PartsFollow setting gen count) :
    Follows setting (·.get .sourceUnit = unitChildren count)
      (Synth.visitPlaces gen .sourceUnit (unitChildren count).keys.length
        (List.range ((unitChildren count).keys.length + 1)))
      (Recipe.unitParts setting count) (Same (·.get .sourceUnit = unitChildren count)) := by
  have hopening := hgen.visitChild .pragma 1 nofun nofun
  have hmiddle := hgen.visitChild .importDirective (count.getD 0 : Nat) nofun nofun
  have hclosing := hgen.visitChild .contract 1 nofun nofun
  cases count with
  | none =>
    have hplaces : List.range ((unitChildren none).keys.length + 1) = [0, 1, 2] := rfl
    rw [hplaces]
    simp only [Synth.visitPlaces, Recipe.unitParts, Recipe.imports, bind_assoc, pure_bind,
      List.append_nil, List.nil_append]
    apply (Follows.visitPlace (hopening rfl)).bind_same
    intro opening
    apply (Follows.visitPlace (hclosing rfl)).bind_same
    intro closing
    apply Follows.visitPlace_bind_of_none rfl
    simp only [List.append_nil]
    exact Follows.pure_same _
  | some n =>
    have hplaces : List.range ((unitChildren (some n)).keys.length + 1) = [0, 1, 2, 3] := rfl
    rw [hplaces]
    simp only [Synth.visitPlaces, bind_assoc, pure_bind, List.append_nil]
    apply (Follows.visitPlace (hopening rfl)).bind_same
    intro opening
    apply (Follows.visitPlace (hmiddle rfl)).bind_same
    intro middle
    apply (Follows.visitPlace (hclosing rfl)).bind_same
    intro closing
    apply Follows.visitPlace_bind_of_none rfl
    simp only [List.append_nil]
    exact Follows.pure_same _

theorem PartsFollow.generateWith (hgen : ∀ count, PartsFollow setting gen count) :
    Follows setting I (Synth.generateWith gen .sourceUnit) (Recipe.sourceUnit setting)
      (Same fun _ => True) := by
  apply setUp_sourceUnit_follows.generateWith
  intro count
  apply Follows.skip (J := fun bench children =>
    bench.children.get .sourceUnit = unitChildren count ∧
      children.get .sourceUnit = unitChildren count)
  · intro bench hs hI
    exact ⟨bench, bench, rfl, hs, rfl, rfl, hI, hI⟩
  · intro bench
    apply Follows.assume
    intro hc
    simp only [hc]
    apply (hgen count).visitPlaces.bind_same
    intro texts
    exact Follows.pure_pure fun _ _ => ⟨rfl, trivial⟩

end Unit

theorem partsFollow_generateAt (depth : Nat) (count : Option Nat) :
    PartsFollow setting (Synth.generateAt (σ := σ) (depth + 1)) count := by
  intro kind ht hu
  apply generateAt_part_follows kind ht hu
  intro children hc
  rw [PerKind.get_set, if_neg hu, hc]

theorem generateAt_sourceUnit_follows (depth : Nat) :
    Follows setting I (Synth.generateAt (σ := σ) (depth + 2) .sourceUnit)
      (Recipe.sourceUnit setting) (Same fun _ => True) :=
  PartsFollow.generateWith (partsFollow_generateAt depth)

theorem addUnit_follows :
    Follows setting I (Synth.addUnit : Synth σ String) (Recipe.addUnit setting.config)
      (Same I) := by
  apply Follows.draft.bind_same
  intro draft
  apply Follows.config_bind
  apply (Follows.setDraft _).bind_same
  intro _
  exact Follows.pure_same _

theorem writeUnit_follows (depth : Nat) :
    Follows setting (fun _ => True) (Synth.writeUnit (Synth.generateAt (σ := σ) (depth + 2)))
      (Recipe.unit setting) (Same fun _ => True) := by
  apply addUnit_follows.bind_same
  intro path
  apply (generateAt_sourceUnit_follows depth).bind_same
  intro body
  exact Follows.pure_same _

theorem setUp_testCase_follows :
    Follows setting I (Synth.setUp (σ := σ) .testCase)
      (Recipe.oneTo setting.config setting.config.maxUnits)
      fun n _ children => (children.get .testCase).find? .sourceUnit = some (n : Int) := by
  rw [← bind_pure (Recipe.oneTo setting.config setting.config.maxUnits)]
  apply Follows.clearChildren_bind
  apply Follows.config_bind
  apply (Follows.oneTo _).bind_same
  intro n
  apply Follows.declareChild_done
  intro children hc
  rw [hc]
  rfl

theorem generateAt_testCase_follows (depth : Nat) :
    Follows setting I (Synth.generateAt (σ := σ) (depth + 3) .testCase)
      (Recipe.testCase setting) (Same fun _ => True) := by
  apply setUp_testCase_follows.generateWith
  intro n
  apply (Follows.requireKind _).bind_same
  intro _
  apply Follows.skip (J := fun bench _ =>
    (bench.children.get .testCase).find? .sourceUnit = some (n : Int) ∧ True)
  · intro bench hs hI
    exact ⟨bench, bench, rfl, hs, rfl, rfl, hI, trivial⟩
  · intro bench
    apply Follows.assume
    intro hn
    simp only [hn, Int.toNat_natCast]
    apply ((writeUnit_follows depth).collect n).bind_same
    intro texts
    exact Follows.pure_same _

/-- What generation of a kind returns and leaves is the same whatever children are declared. -/
theorem generate_follows (kind : Kind) :
    Follows setting (fun _ => True) (Synth.generate (σ := σ) kind) (Recipe.generate setting kind)
      (Same fun _ => True) := by
  cases kind with
  | testCase => exact generateAt_testCase_follows 0
  | sourceUnit => exact generateAt_sourceUnit_follows 1
  | pragma => exact generateAt_part_follows .pragma nofun nofun 2 fun _ => id
  | importDirective => exact generateAt_part_follows .importDirective nofun nofun 2 fun _ => id
  | contract => exact generateAt_part_follows .contract nofun nofun 2 fun _ => id

theorem program_follows :
    Follows setting (fun _ => True) (Synth.program : Synth σ String) (Recipe.program setting)
      (Same fun _ => True) := by
  apply (Follows.setDraft _).bind_same
  intro _
  apply (Follows.requireKind _).bind_same
  intro _
  rw [← bind_pure (Recipe.testCase setting)]
  apply (generate_follows .testCase).bind_same
  intro text
  apply Follows.skip (J := fun _ _ => True)
  · intro bench hs _
    exact ⟨bench, bench, rfl, hs, rfl, rfl, trivial⟩
  · intro bench
    apply Follows.note_bind
    exact Follows.pure_same text

theorem Follows.run_of_some {J : Children → Prop} {m : Synth σ α} {r : Recipe α}
    {bench : Workbench σ} {result : Except Fault α} {draft : Draft} {random : σ}
    (h : Follows bench.setting I m r (Same J)) (hI : I bench.children)
    (hr : (r.run bench.draft).run bench.random = some ((result, draft), random)) :
    ∃ bench', m.run bench = (result, bench') ∧ bench'.draft = draft ∧ bench'.random = random := by
  have ht := h bench rfl hI
  rw [hr] at ht
  generalize m.run bench = outcome at ht
  cases ht with
  | returned bench' hs hJ => exact ⟨bench', by rw [hJ.1], rfl, rfl⟩
  | failed bench' hs => exact ⟨bench', rfl, rfl, rfl⟩

theorem Follows.run_of_none {J : Children → Prop} {m : Synth σ α} {r : Recipe α}
    {bench : Workbench σ} (h : Follows bench.setting I m r (Same J)) (hI : I bench.children)
    (hr : (r.run bench.draft).run bench.random = none) : (m.run bench).1 = .error .stalled := by
  have ht := h bench rfl hI
  rw [hr] at ht
  generalize m.run bench = outcome at ht
  cases ht
  rfl

theorem Follows.exists_of_ok {J : β → α → Children → Prop} {m : Synth σ α} {r : Recipe β}
    {bench bench' : Workbench σ} {a : α} (h : Follows bench.setting I m r J)
    (hI : I bench.children) (hrun : m.run bench = (.ok a, bench')) :
    ∃ b, (r.run bench.draft).run bench.random = some ((.ok b, bench'.draft), bench'.random) ∧
      bench'.setting = bench.setting ∧ J b a bench'.children := by
  have ht := h bench rfl hI
  rw [hrun] at ht
  generalize (r.run bench.draft).run bench.random = expected at ht
  cases ht with
  | returned bench' hs hJ => exact ⟨_, rfl, hs, hJ⟩

theorem Follows.run_of_ok {J : Children → Prop} {m : Synth σ α} {r : Recipe α}
    {bench bench' : Workbench σ} {a : α} (h : Follows bench.setting I m r (Same J))
    (hI : I bench.children) (hrun : m.run bench = (.ok a, bench')) :
    (r.run bench.draft).run bench.random = some ((.ok a, bench'.draft), bench'.random) ∧
      bench'.setting = bench.setting ∧ J bench'.children := by
  obtain ⟨b, hexpected, hs, rfl, hJ⟩ := h.exists_of_ok hI hrun
  exact ⟨hexpected, hs, hJ⟩

theorem Follows.reaches_of_ok {J : Children → Prop} {m : Synth σ α} {r : Recipe α}
    {bench bench' : Workbench σ} {a : α} (h : Follows bench.setting I m r (Same J))
    (hI : I bench.children) (hrun : m.run bench = (.ok a, bench')) :
    (r.run bench.draft).Reaches (.ok a, bench'.draft) ∧ bench'.setting = bench.setting := by
  obtain ⟨hexpected, hs, -⟩ := h.run_of_ok hI hrun
  exact ⟨.of_run hexpected, hs⟩

end SoliditySynth
