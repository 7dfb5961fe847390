import Mathlib.Data.List.Basic
import SoliditySynth.Proofs.JsonReader

namespace SoliditySynth.Json

theorem toNat_valid (c : Char) : c.toNat < 0xd800 ∨ 0xdfff < c.toNat ∧ c.toNat < 0x110000 :=
  c.valid

theorem lt_of_mem_units16 {c : Char} {u : Nat} (h : u ∈ units16 c) : u < 0x10000 := by
  have hvalid := toNat_valid c
  simp only [units16] at h
  split at h
  · rw [List.mem_singleton] at h
    omega
  · simp only [List.mem_cons, List.not_mem_nil, or_false] at h
    omega

theorem joinUnits_cons {u : Nat} (h : isHighSurrogate u = false) (h' : isLowSurrogate u = false)
    (us : List Nat) : joinUnits (u :: us) = (joinUnits us).map (Char.ofNat u :: ·) := by
  cases us with
  | nil => simp [joinUnits, h, h']
  | cons v us =>
    rw [joinUnits, h, h']
    simp only [Bool.false_eq_true, if_false]
    cases joinUnits (v :: us) <;> rfl

theorem joinUnits_pair {u v : Nat} (h : isHighSurrogate u = true) (h' : isLowSurrogate v = true)
    (us : List Nat) :
    joinUnits (u :: v :: us) =
      (joinUnits us).map
        (Char.ofNat (0x10000 + (u - 0xd800) * 0x400 + (v - 0xdc00)) :: ·) := by
  rw [joinUnits, if_pos h, if_pos h']
  cases joinUnits us <;> rfl

theorem joinUnits_units16_append (c : Char) (us : List Nat) :
    joinUnits (units16 c ++ us) = (joinUnits us).map (c :: ·) := by
  have hvalid := toNat_valid c
  by_cases hbasic : c.toNat < 0x10000
  · have hhigh : isHighSurrogate c.toNat = false := by
      simp only [isHighSurrogate, Bool.and_eq_false_iff, decide_eq_false_iff_not]
      omega
    have hlow : isLowSurrogate c.toNat = false := by
      simp only [isLowSurrogate, Bool.and_eq_false_iff, decide_eq_false_iff_not]
      omega
    have hunits : units16 c = [c.toNat] := by simp [units16, hbasic]
    rw [hunits, List.singleton_append, joinUnits_cons hhigh hlow, Char.ofNat_toNat]
  · have hunits : units16 c =
        [0xd800 + (c.toNat - 0x10000) / 0x400, 0xdc00 + (c.toNat - 0x10000) % 0x400] := by
      simp [units16, hbasic]
    have hhigh : isHighSurrogate (0xd800 + (c.toNat - 0x10000) / 0x400) = true := by
      simp only [isHighSurrogate, Bool.and_eq_true, decide_eq_true_eq]
      omega
    have hlow : isLowSurrogate (0xdc00 + (c.toNat - 0x10000) % 0x400) = true := by
      simp only [isLowSurrogate, Bool.and_eq_true, decide_eq_true_eq]
      omega
    have hjoined : 0x10000 + (0xd800 + (c.toNat - 0x10000) / 0x400 - 0xd800) * 0x400 +
        (0xdc00 + (c.toNat - 0x10000) % 0x400 - 0xdc00) = c.toNat := by
      omega
    rw [hunits, List.cons_append, List.singleton_append, joinUnits_pair hhigh hlow, hjoined,
      Char.ofNat_toNat]

theorem joinUnits_flatMap_units16 (cs : List Char) : joinUnits (cs.flatMap units16) = some cs := by
  induction cs with
  | nil => rfl
  | cons c cs ih =>
    rw [List.flatMap_cons, joinUnits_units16_append, ih]
    rfl

/-- The three ways in which a character is written inside a string. -/
inductive Escaped (c : Char) : List Char → Prop
  | short {letter : Char} (hu : letter ≠ 'u') (hascii : letter.toNat < 128)
      (h : shortEscape? letter = some c) : Escaped c ['\\', letter]
  | plain (hlow : ' ' ≤ c) (hhigh : c ≤ '~') (hquote : c ≠ '"') (hbackslash : c ≠ '\\') :
      Escaped c [c]
  | units : Escaped c ((units16 c).flatMap escapeUnit)

theorem escaped_escape (c : Char) : Escaped c (escape c) := by
  unfold escape
  repeat' split
  iterate 7 next h => exact .short (by decide) (by decide) (by rw [h]; rfl)
  · next hquote hbackslash _ _ _ _ _ hplain => exact .plain hplain.1 hplain.2 hquote hbackslash
  · exact .units

namespace Mode

theorem run_singleton {mode mode' : Mode} {c : Char} {ts : List Token}
    (h : mode.step c = some (mode', ts)) : mode.run [c] = some (mode', ts) := by
  simp [run, h]

theorem run_append {mode mode' mode'' : Mode} {cs ds : List Char} {ts us : List Token}
    (hcs : mode.run cs = some (mode', ts)) (hds : mode'.run ds = some (mode'', us)) :
    mode.run (cs ++ ds) = some (mode'', ts ++ us) := by
  induction cs generalizing mode ts with
  | nil =>
    cases hcs
    exact hds
  | cons c cs ih =>
    simp only [run, Option.bind_eq_bind, Option.bind_eq_some_iff, Option.pure_def,
      Option.some.injEq, Prod.mk.injEq, Prod.exists] at hcs
    obtain ⟨next, first, hstep, last, rest, hrun, rfl, rfl⟩ := hcs
    simp [run, hstep, ih hrun]

theorem run_hexDigits (us : List Nat) {u : Nat} (h : u < 0x10000) :
    (unit us 0 3).run (Text.hexDigits 4 u) = some (.text (us ++ [u]), []) := by
  have hdigit : ∀ d < 16, hexValue? (Text.hexDigit d) = some d := by decide
  have hvalue : (((u / 16 / 16 / 16 % 16) * 16 + u / 16 / 16 % 16) * 16 + u / 16 % 16) * 16 +
      u % 16 = u := by
    omega
  simp [Text.hexDigits, run, step, hdigit _ (Nat.mod_lt _ (Nat.succ_pos 15)), hvalue]

theorem run_escapeUnit (us : List Nat) {u : Nat} (h : u < 0x10000) :
    (text us).run (escapeUnit u) = some (.text (us ++ [u]), []) := by
  have hopening : (text us).run ['\\', 'u'] = some (.unit us 0 3, []) := rfl
  exact run_append hopening (run_hexDigits us h)

theorem run_flatMap_escapeUnit (us : List Nat) {vs : List Nat} (h : ∀ v ∈ vs, v < 0x10000) :
    (text us).run (vs.flatMap escapeUnit) = some (.text (us ++ vs), []) := by
  induction vs generalizing us with
  | nil => rw [List.append_nil, List.flatMap_nil, run]
  | cons v vs ih =>
    have hrest := ih (us ++ [v]) fun v' hv' => h v' (List.mem_cons_of_mem _ hv')
    rw [List.append_assoc, List.singleton_append] at hrest
    exact run_append (run_escapeUnit us (h v List.mem_cons_self)) hrest

/-- In whichever way a character is written, it is read as its units. -/
theorem run_of_escaped (us : List Nat) {c : Char} {cs : List Char} (h : Escaped c cs) :
    (text us).run cs = some (.text (us ++ units16 c), []) := by
  cases h with
  | short hu hascii h => simp [run, step, hu, h]
  | plain hlow hhigh hquote hbackslash =>
    apply run_singleton
    rw [step, if_neg hquote, if_neg hbackslash, if_neg (Char.not_lt.2 hlow)]
  | units => exact run_flatMap_escapeUnit us fun u => lt_of_mem_units16

theorem run_flatMap_escape (us : List Nat) (cs : List Char) :
    (text us).run (cs.flatMap escape) = some (.text (us ++ cs.flatMap units16), []) := by
  induction cs generalizing us with
  | nil => rw [List.flatMap_nil, List.flatMap_nil, List.append_nil, run]
  | cons c cs ih =>
    have hrest := ih (us ++ units16 c)
    rw [List.append_assoc, ← List.flatMap_cons] at hrest
    exact run_append (run_of_escaped us (escaped_escape c)) hrest

theorem run_quote (s : String) : between.run (quote s) = some (.between, [.text s]) := by
  have hopening : between.run ['"'] = some (.text [], []) := rfl
  have hclosing : (text (s.toList.flatMap units16)).run ['"'] =
      some (.between, [.text s]) := by
    apply run_singleton
    rw [step, if_pos rfl, joinUnits_flatMap_units16, Option.bind_eq_bind, Option.bind_some,
      String.ofList_toList]
    rfl
  exact run_append (run_append hopening (run_flatMap_escape [] s.toList)) hclosing

end Mode

theorem ascii_hexDigits {width n : Nat} {c : Char} (h : c ∈ Text.hexDigits width n) :
    c.toNat < 128 := by
  have hdigit : ∀ d < 16, (Text.hexDigit d).toNat < 128 := by decide
  induction width generalizing n with
  | zero => cases h
  | succ width ih =>
    rcases List.mem_append.1 h with h | h
    · exact ih h
    · rw [List.mem_singleton.1 h]
      exact hdigit _ (Nat.mod_lt _ (Nat.succ_pos 15))

theorem Escaped.ascii {c d : Char} {cs : List Char} (h : Escaped c cs) (hd : d ∈ cs) :
    d.toNat < 128 := by
  cases h with
  | short hu hascii h =>
    simp only [List.mem_cons, List.not_mem_nil, or_false] at hd
    rcases hd with rfl | rfl
    · decide
    · exact hascii
  | plain hlow hhigh hquote hbackslash =>
    rw [List.mem_singleton.1 hd]
    have hle : c.toNat ≤ '~'.toNat := hhigh
    exact Nat.lt_of_le_of_lt hle (by decide)
  | units =>
    obtain ⟨u, -, hd⟩ := List.mem_flatMap.1 hd
    rcases List.mem_cons.1 hd with rfl | hd
    · decide
    rcases List.mem_cons.1 hd with rfl | hd
    · decide
    · exact ascii_hexDigits hd

/-- ASCII text that falls into the given tokens where it stands between others. -/
structure Spells (cs : List Char) (ts : List Token) : Prop where
  ascii : ∀ c ∈ cs, c.toNat < 128
  run : Mode.between.run cs = some (.between, ts)

namespace Spells

theorem nil : Spells [] [] := ⟨fun _ hc => absurd hc List.not_mem_nil, rfl⟩

theorem append {cs ds : List Char} {ts us : List Token} (hcs : Spells cs ts) (hds : Spells ds us) :
    Spells (cs ++ ds) (ts ++ us) where
  ascii c hc := (List.mem_append.1 hc).elim (hcs.ascii c) (hds.ascii c)
  run := Mode.run_append hcs.run hds.run

theorem single {c : Char} {ts : List Token} (hascii : c.toNat < 128)
    (h : Mode.between.step c = some (.between, ts)) : Spells [c] ts where
  ascii d hd := by rwa [List.mem_singleton.1 hd]
  run := Mode.run_singleton h

theorem structural {c : Char} {token : Token} (h : structural? c = some token) :
    Spells [c] [token] := by
  unfold structural? at h
  split at h <;> cases h <;> exact .single (by decide) rfl

theorem space : Spells [' '] [] := .single (by decide) rfl

theorem newline (level : Nat) : Spells (newline level) [] := by
  have hnewline : Spells ['\n'] [] := .single (by decide) rfl
  have hspaces (n : Nat) : Spells (List.replicate n ' ') [] := by
    induction n with
    | zero => exact .nil
    | succ n ih => exact space.append ih
  exact hnewline.append (hspaces (2 * level))

theorem quote (s : String) : Spells (quote s) [.text s] where
  ascii c hc := by
    simp only [Json.quote, List.cons_append, List.mem_cons, List.mem_append, List.mem_flatMap,
      List.not_mem_nil, or_false] at hc
    rcases hc with rfl | ⟨d, -, hc⟩ | rfl
    · decide
    · exact (escaped_escape d).ascii hc
    · decide
  run := Mode.run_quote s

end Spells

mutual

def Value.tokens : Value → List Token
  | .text s => [.text s]
  | .array [] => [.beginArray, .endArray]
  | .array (v :: vs) => .beginArray :: v.tokens ++ itemTokens vs ++ [.endArray]
  | .object [] => [.beginObject, .endObject]
  | .object (m :: ms) => .beginObject :: memberTokens m ++ membersTokens ms ++ [.endObject]

def itemTokens : List Value → List Token
  | [] => []
  | v :: vs => .valueSeparator :: v.tokens ++ itemTokens vs

def memberTokens : String × Value → List Token
  | (key, v) => .text key :: .nameSeparator :: v.tokens

def membersTokens : List (String × Value) → List Token
  | [] => []
  | m :: ms => .valueSeparator :: memberTokens m ++ membersTokens ms

end

mutual

theorem Value.spells_render (level : Nat) : ∀ v : Value, Spells (v.render level) v.tokens
  | .text s => .quote s
  | .array [] => by
    have hopen : Spells ['['] [.beginArray] := .structural rfl
    have hclose : Spells [']'] [.endArray] := .structural rfl
    exact hopen.append hclose
  | .array (v :: vs) => by
    have hopen : Spells ['['] [.beginArray] := .structural rfl
    have hclose : Spells [']'] [.endArray] := .structural rfl
    have hitems := (v.spells_render (level + 1)).append (spells_renderItems (level + 1) vs)
    have h := (hopen.append (.newline (level + 1))).append
      (hitems.append ((Spells.newline level).append hclose))
    simpa [Value.render, Value.tokens] using h
  | .object [] => by
    have hopen : Spells ['\x7b'] [.beginObject] := .structural rfl
    have hclose : Spells ['\x7d'] [.endObject] := .structural rfl
    exact hopen.append hclose
  | .object (m :: ms) => by
    have hopen : Spells ['\x7b'] [.beginObject] := .structural rfl
    have hclose : Spells ['\x7d'] [.endObject] := .structural rfl
    have hmembers := (spells_renderMember (level + 1) m).append
      (spells_renderMembers (level + 1) ms)
    have h := (hopen.append (.newline (level + 1))).append
      (hmembers.append ((Spells.newline level).append hclose))
    simpa [Value.render, Value.tokens] using h

theorem spells_renderItems (level : Nat) :
    ∀ vs : List Value, Spells (renderItems level vs) (itemTokens vs)
  | [] => .nil
  | v :: vs => by
    have hcomma : Spells [','] [.valueSeparator] := .structural rfl
    have h := (hcomma.append (.newline level)).append
      ((v.spells_render level).append (spells_renderItems level vs))
    simpa [renderItems, itemTokens] using h

theorem spells_renderMember (level : Nat) :
    ∀ m : String × Value, Spells (renderMember level m) (memberTokens m)
  | (key, v) => by
    have hcolon : Spells [':'] [.nameSeparator] := .structural rfl
    have h := (Spells.quote key).append ((hcolon.append .space).append (v.spells_render level))
    simpa [renderMember, memberTokens] using h

theorem spells_renderMembers (level : Nat) :
    ∀ ms : List (String × Value), Spells (renderMembers level ms) (membersTokens ms)
  | [] => .nil
  | m :: ms => by
    have hcomma : Spells [','] [.valueSeparator] := .structural rfl
    have h := (hcomma.append (.newline level)).append
      ((spells_renderMember level m).append (spells_renderMembers level ms))
    simpa [renderMembers, membersTokens] using h

end

end SoliditySynth.Json
