import SoliditySynth.CommandLine.Settings

namespace SoliditySynth.CommandLine

section Fold

variable {α β ε : Type}

theorem exists_of_bind_eq_ok {m : Except ε α} {f : α → Except ε β} {b : β}
    (h : (m >>= f) = .ok b) : ∃ a, m = .ok a ∧ f a = .ok b := by
  cases m with
  | error e => cases h
  | ok a => exact ⟨a, rfl, h⟩

theorem foldlM_invariant {p : β → Prop} {f : β → α → Except ε β} {items : List α}
    (hstep : ∀ b, p b → ∀ a b', f b a = .ok b' → p b') {b b' : β} (hb : p b)
    (h : items.foldlM f b = .ok b') : p b' := by
  induction items generalizing b with
  | nil =>
    cases h
    exact hb
  | cons a items ih =>
    rw [List.foldlM_cons] at h
    obtain ⟨next, hnext, h⟩ := exists_of_bind_eq_ok h
    exact ih (hstep b hb a next hnext) h

theorem foldlM_congr {f g : β → α → Except ε β} {items : List α}
    (h : ∀ a ∈ items, ∀ b, f b a = g b a) (b : β) : items.foldlM f b = items.foldlM g b := by
  induction items generalizing b with
  | nil => rfl
  | cons a items ih =>
    obtain ⟨hfirst, hrest⟩ := List.forall_mem_cons.1 h
    rw [List.foldlM_cons, List.foldlM_cons, hfirst]
    exact congrArg _ (funext (ih hrest))

end Fold

section Plain

/-- What is attached to the flag is a value of its own that is not the separator. -/
def Attached.IsPlain (flag : Flag) : Attached → Prop
  | .nothing => True
  | .long value => value ≠ "--"
  | .short _ rest => flag.takesValue = true ∧ String.ofList rest ≠ "--"

def Token.IsPlain : Token → Prop
  | .word text => text ≠ "--"
  | .flag f attached => attached.IsPlain f
  | .separator | .unknown _ => True

def NoneDropped (flags : List (Flag × Option String)) : Prop := ∀ flag ∈ flags, flag.2 ≠ some "--"

variable (dialect dialect' : Dialect)

theorem Dialect.drops_of_ne {value : String} (h : value ≠ "--") : dialect.drops value = false := by
  cases dialect with
  | early => exact decide_eq_false h
  | late => rfl

theorem Cluster.ofAttached_of_isPlain {flag : Flag} {attached : Attached}
    (h : attached.IsPlain flag) :
    ofAttached dialect flag attached = ofAttached dialect' flag attached ∧
      ∀ cluster, ofAttached dialect flag attached = .ok cluster → NoneDropped cluster.flags := by
  cases attached with
  | nothing =>
    refine ⟨rfl, ?_⟩
    rintro cluster ⟨⟩
    cases flag <;> simp [single, NoneDropped, Flag.takesValue]
  | long value =>
    refine ⟨rfl, fun cluster hcluster => ?_⟩
    rw [ofAttached] at hcluster
    split at hcluster
    · cases hcluster
      simpa [NoneDropped, Attached.IsPlain] using h
    · cases hcluster
  | short equals rest =>
    obtain ⟨hvalue, hne⟩ := h
    have hboth (dialect : Dialect) : ofAttached dialect flag (.short equals rest) =
        .ok { flags := [(flag, some (String.ofList rest))] } := by
      cases dialect with
      | early => rw [ofAttached, ofShortEarly.eq_def, if_pos hvalue]
      | late => rw [ofAttached, ofShortLate.eq_def, if_pos hvalue]
    rw [hboth, hboth]
    refine ⟨rfl, ?_⟩
    rintro cluster ⟨⟩
    simpa [NoneDropped] using hne

namespace Settings

theorem apply_of_ne {value : Option String} (h : value ≠ some "--") (settings : Settings)
    (flag : Flag) : settings.apply dialect flag value = settings.apply dialect' flag value := by
  have hne : value.getD "" ≠ "--" := by
    cases value with
    | none => decide
    | some value => exact fun he => h (congrArg some he)
  cases flag <;> simp only [apply, readNumber, readName, Dialect.drops_of_ne _ hne]

theorem applyAll_of_noneDropped {flags : List (Flag × Option String)} (h : NoneDropped flags)
    (settings : Settings) : settings.applyAll dialect flags = settings.applyAll dialect' flags :=
  foldlM_congr (fun flag hflag settings => apply_of_ne dialect dialect' (h flag hflag) settings _)
    settings

end Settings

theorem Reading.bind_add_congr {request : Request} (h : NoneDropped request.flags)
    {f g : Reading → Except Stop Reading} (hfg : ∀ reading, f reading = g reading)
    (reading : Reading) :
    (reading.add dialect (.ok request) >>= f) = (reading.add dialect' (.ok request) >>= g) := by
  have hadd : reading.add dialect (.ok request) = reading.add dialect' (.ok request) := by
    change (reading.settings.applyAll dialect request.flags >>= _) =
      (reading.settings.applyAll dialect' request.flags >>= _)
    rw [Settings.applyAll_of_noneDropped dialect dialect' h]
  rw [hadd]
  exact congrArg _ (funext hfg)

theorem Reading.foldlM_add_of_isPlain {tokens : List Token} (h : ∀ token ∈ tokens, token.IsPlain)
    (reading : Reading) :
    (Request.ofTokens dialect tokens).foldlM (Reading.add dialect) reading =
      (Request.ofTokens dialect' tokens).foldlM (Reading.add dialect') reading := by
  -- a flag with its value is two tokens, so the induction follows the requests
  induction tokens using Request.ofTokens.induct dialect generalizing reading with
  | case1 => rfl
  | case2 text tokens ih | case3 text tokens ih | case4 tokens ih =>
    rw [Request.ofTokens, Request.ofTokens, List.foldlM_cons, List.foldlM_cons]
    exact bind_add_congr _ _ (by simp [NoneDropped]) (ih (List.forall_mem_cons.1 h).2) reading
  | case5 flag attached tokens fault hcluster =>
    obtain ⟨hsame, -⟩ := Cluster.ofAttached_of_isPlain dialect dialect' (List.forall_mem_cons.1 h).1
    rw [Request.ofTokens, Request.ofTokens, ← hsame, hcluster]
    rfl
  | case6 flag attached tokens flags hcluster ih
  | case7 flag attached tokens flags letters hcluster ih =>
    obtain ⟨hfirst, hrest⟩ := List.forall_mem_cons.1 h
    obtain ⟨hsame, hnone⟩ := Cluster.ofAttached_of_isPlain dialect dialect' hfirst
    rw [Request.ofTokens, Request.ofTokens, ← hsame, hcluster]
    exact bind_add_congr _ _ (hnone _ hcluster) (ih hrest) reading
  | case8 flag attached flags last hcluster value tokens ih =>
    obtain ⟨hfirst, hlater⟩ := List.forall_mem_cons.1 h
    obtain ⟨hvalue, hrest⟩ := List.forall_mem_cons.1 hlater
    obtain ⟨hsame, hnone⟩ := Cluster.ofAttached_of_isPlain dialect dialect' hfirst
    have hflags : NoneDropped (flags ++ [(last, some value)]) := by
      intro flag hflag
      rcases List.mem_append.1 hflag with hflag | hflag
      · exact hnone _ hcluster flag hflag
      · rw [List.mem_singleton.1 hflag]
        exact fun he => hvalue (Option.some.inj he)
    simp only [Request.ofTokens, hcluster, hsame ▸ hcluster, List.foldlM_cons]
    exact bind_add_congr _ _ hflags (ih hrest) reading
  | case9 flag attached tokens flags last hcluster hnoword =>
    obtain ⟨hsame, -⟩ := Cluster.ofAttached_of_isPlain dialect dialect' (List.forall_mem_cons.1 h).1
    rw [Request.ofTokens, Request.ofTokens, ← hsame, hcluster]
    dsimp only
    split
    · exact absurd rfl (hnoword _ _)
    · rfl

/-- Both readers read a command line alike if no flag in it has a value that is the separator, or a
value that comes after other letters than its own. -/
theorem Settings.parse_of_isPlain {arguments : List String}
    (h : ∀ tokens, Token.ofArguments arguments = .ok tokens → ∀ token ∈ tokens, token.IsPlain) :
    parse dialect arguments = parse dialect' arguments := by
  rw [parse, parse]
  cases htokens : Token.ofArguments arguments with
  | error fault => rfl
  | ok tokens =>
    change (List.foldlM (Reading.add dialect) {} (Request.ofTokens dialect tokens) >>= _) =
      (List.foldlM (Reading.add dialect') {} (Request.ofTokens dialect' tokens) >>= _)
    rw [Reading.foldlM_add_of_isPlain dialect dialect' (h tokens htokens)]

end Plain

section Late

structure Settings.HasNumbers (settings : Settings) : Prop where
  seed : settings.seed = .absent ∨ ∃ n, settings.seed = .value n
  count : ∃ n, settings.count = .value n

namespace Settings

theorem readNumber_late {flag : Flag} {value : String} {number : Number}
    (h : readNumber .late flag value = .ok number) : ∃ n, number = .value n := by
  rw [readNumber, Dialect.drops, if_neg Bool.false_ne_true] at h
  split at h
  · next n _ =>
    cases h
    exact ⟨n, rfl⟩
  · cases h

theorem HasNumbers.apply {settings settings' : Settings} (hs : settings.HasNumbers) (flag : Flag)
    (value : Option String) (h : settings.apply .late flag value = .ok settings') :
    settings'.HasNumbers := by
  cases flag with
  | help => cases h
  | seed =>
    obtain ⟨number, hnumber, h⟩ := exists_of_bind_eq_ok h
    cases h
    exact ⟨.inr (readNumber_late hnumber), hs.count⟩
  | count =>
    obtain ⟨number, hnumber, h⟩ := exists_of_bind_eq_ok h
    cases h
    exact ⟨hs.seed, readNumber_late hnumber⟩
  | directory | split | json | verbose =>
    cases h
    exact ⟨hs.seed, hs.count⟩

theorem HasNumbers.add {reading reading' : Reading} (hs : reading.settings.HasNumbers)
    (request : Except UsageFault Request) (h : reading.add .late request = .ok reading') :
    reading'.settings.HasNumbers := by
  obtain ⟨request, -, h⟩ := exists_of_bind_eq_ok h
  obtain ⟨settings, hsettings, h⟩ := exists_of_bind_eq_ok h
  cases h
  exact foldlM_invariant (fun _ hs flag _ => hs.apply flag.1 flag.2) hs hsettings

theorem hasNumbers_of_parse {arguments : List String} {settings : Settings}
    (h : parse .late arguments = .ok settings) : settings.HasNumbers := by
  obtain ⟨tokens, -, h⟩ := exists_of_bind_eq_ok h
  obtain ⟨reading, hreading, h⟩ := exists_of_bind_eq_ok h
  split at h
  · cases h
    exact foldlM_invariant (p := fun reading : Reading => reading.settings.HasNumbers)
      (fun _ hs request _ => hs.add request) ⟨.inl rfl, 1, rfl⟩ hreading
  · cases h

end Settings

end Late

end SoliditySynth.CommandLine
