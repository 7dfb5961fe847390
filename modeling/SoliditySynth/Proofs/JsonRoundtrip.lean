import SoliditySynth.Proofs.JsonScanning
import SoliditySynth.StandardJson

namespace SoliditySynth

namespace Json

mutual

def Value.tree : Value → Tree
  | .text s => .text s
  | .array vs => .array (itemTrees vs)
  | .object ms => .object (memberTrees ms)

def itemTrees : List Value → List Tree
  | [] => []
  | v :: vs => v.tree :: itemTrees vs

def memberTrees : List (String × Value) → List (String × Tree)
  | [] => []
  | (key, v) :: ms => (key, v.tree) :: memberTrees ms

end

theorem memberTrees_eq_map (ms : List (String × Value)) :
    memberTrees ms = ms.map fun m => (m.1, m.2.tree) := by
  induction ms with
  | nil => rfl
  | cons m ms ih =>
    rw [memberTrees, ih]
    rfl

/-- The given tokens lead from one stage of reading to another. -/
def Leads (ts : List Token) (before after : Stage × List Frame) : Prop :=
  ts.foldlM Stage.step before = some after

namespace Leads

variable {ts us : List Token} {t : Token} {before between after : Stage × List Frame}

theorem cons (h : Stage.step before t = some between) (hrest : Leads ts between after) :
    Leads (t :: ts) before after := by
  rw [Leads, List.foldlM_cons, h]
  exact hrest

theorem append (hfirst : Leads ts before between) (hrest : Leads us between after) :
    Leads (ts ++ us) before after := by
  rw [Leads, List.foldlM_append, hfirst]
  exact hrest

theorem firstItem {v : Value} {frames : List Frame}
    (h : Leads v.tokens (.value, .array [] :: frames) after) :
    Leads v.tokens (.firstItem, frames) after := by
  have hfirst : ∃ first rest, v.tokens = first :: rest ∧ first ≠ .endArray := by
    match v with
    | .text s => exact ⟨_, _, rfl, by simp⟩
    | .array [] => exact ⟨_, _, rfl, by simp⟩
    | .array (v :: vs) => exact ⟨_, _, rfl, by simp⟩
    | .object [] => exact ⟨_, _, rfl, by simp⟩
    | .object (m :: ms) => exact ⟨_, _, rfl, by simp⟩
  obtain ⟨first, rest, htokens, hfirst⟩ := hfirst
  have hstep : Stage.step (.firstItem, frames) first =
      Stage.step (.value, .array [] :: frames) first := by
    cases first with
    | endArray => exact absurd rfl hfirst
    | _ => rfl
  rw [htokens, Leads, List.foldlM_cons] at h ⊢
  rwa [hstep]

theorem member {members : List (String × Tree)} {key : String} {v : Value} {frames : List Frame}
    (hkey : Stage.step before (.text key) = some (.separator members key, frames))
    (hvalue : Leads v.tokens (.value, .object members key :: frames) after) :
    Leads (memberTokens (key, v)) before after := by
  have hcolon : Stage.step (.separator members key, frames) .nameSeparator =
      some (.value, .object members key :: frames) := rfl
  exact (hvalue.cons hcolon).cons hkey

end Leads

mutual

/-- The tokens of a value lead to its end, whatever is still open around it. -/
theorem Value.leads (frames : List Frame) :
    ∀ v : Value, Leads v.tokens (.value, frames) (.done v.tree, frames)
  | .text s => rfl
  | .array [] => rfl
  | .array (v :: vs) => by
    have hopen : Stage.step (.value, frames) .beginArray = some (.firstItem, frames) := rfl
    have hfirst := (v.leads (.array [] :: frames)).firstItem
    have h := (hfirst.cons hopen).append (leads_itemTokens frames [] v.tree vs)
    simpa [Value.tokens, Value.tree, itemTrees] using h
  | .object [] => rfl
  | .object ((key, v) :: ms) => by
    have hopen : Stage.step (.value, frames) .beginObject = some (.firstName, frames) := rfl
    have hkey : Stage.step (.firstName, frames) (.text key) = some (.separator [] key, frames) :=
      rfl
    have hfirst := (Leads.member hkey (v.leads (.object [] key :: frames))).cons hopen
    have h := hfirst.append (leads_membersTokens frames [] key v.tree ms)
    simpa [Value.tokens, Value.tree, memberTrees] using h

theorem leads_itemTokens (frames : List Frame) (items : List Tree) (tree : Tree) :
    ∀ vs : List Value,
      Leads (itemTokens vs ++ [.endArray]) (.done tree, .array items :: frames)
        (.done (.array (items ++ tree :: itemTrees vs)), frames)
  | [] => rfl
  | v :: vs => by
    have hcomma : Stage.step (.done tree, .array items :: frames) .valueSeparator =
        some (.value, .array (items ++ [tree]) :: frames) := rfl
    have hitem := (v.leads (.array (items ++ [tree]) :: frames)).cons hcomma
    have h := hitem.append (leads_itemTokens frames (items ++ [tree]) v.tree vs)
    simpa [itemTokens, itemTrees] using h

theorem leads_membersTokens (frames : List Frame) (members : List (String × Tree)) (key : String)
    (tree : Tree) :
    ∀ ms : List (String × Value),
      Leads (membersTokens ms ++ [.endObject]) (.done tree, .object members key :: frames)
        (.done (.object (members ++ (key, tree) :: memberTrees ms)), frames)
  | [] => rfl
  | (next, v) :: ms => by
    have hcomma : Stage.step (.done tree, .object members key :: frames) .valueSeparator =
        some (.name (members ++ [(key, tree)]), frames) := rfl
    have hkey : Stage.step (.name (members ++ [(key, tree)]), frames) (.text next) =
        some (.separator (members ++ [(key, tree)]) next, frames) := rfl
    have hvalue := v.leads (.object (members ++ [(key, tree)]) next :: frames)
    have hmember := (Leads.member hkey hvalue).cons hcomma
    have h := hmember.append (leads_membersTokens frames (members ++ [(key, tree)]) next v.tree ms)
    simpa [membersTokens, memberTrees] using h

end

theorem build?_tokens (v : Value) : build? v.tokens = some v.tree := by
  have h : v.tokens.foldlM Stage.step (.value, []) = some (.done v.tree, []) := v.leads []
  rw [build?, h]
  rfl

/-- A value is read back from its indented text, also where white space follows. -/
theorem read_pretty_append (v : Value) {s : String} (h : Spells s.toList []) :
    read (v.pretty ++ s) = some v.tree := by
  have hrun := ((v.spells_render 0).append h).run
  rw [List.append_nil] at hrun
  have htokens : tokens? (v.pretty ++ s).toList = some v.tokens := by
    rw [tokens?, String.toList_append, Value.pretty, String.toList_ofList, hrun]
    exact congrArg some (List.append_nil _)
  rw [read, htokens]
  exact build?_tokens v

end Json

namespace Bundle

/-- What stands under a path in the standard JSON. -/
def unitTree (unit : String × String) : String × Json.Tree :=
  (unit.1, .object [("content", .text unit.2)])

theorem unitTree_injective : Function.Injective unitTree := by
  rintro ⟨path, content⟩ ⟨path', content'⟩ h
  simpa [unitTree] using h

theorem tree_standardJson (bundle : Bundle) :
    bundle.standardJson.tree = .object
      [("language", .text "Solidity"),
        ("sources", .object (bundle.entries.map unitTree)),
        ("settings", .object [("outputSelection",
          .object [("*", .object [("*", .array [.text "abi"])])])])] := by
  simp only [standardJson, Json.Value.tree, Json.memberTrees, Json.itemTrees,
    Json.memberTrees_eq_map, List.map_map]
  rfl

theorem tree_standardJson_inj {bundle bundle' : Bundle}
    (h : bundle.standardJson.tree = bundle'.standardJson.tree) : bundle = bundle' := by
  rw [tree_standardJson, tree_standardJson] at h
  simp only [Json.Tree.object.injEq, List.cons.injEq, Prod.mk.injEq, and_true, true_and] at h
  exact OrderedMap.ext (unitTree_injective.list_map h)

end Bundle

theorem Format.render_standardJson {program : String} {bundle : Bundle}
    (h : Bundle.ofProgram program = .ok bundle) :
    Format.standardJson.render program = .ok (bundle.standardJson.pretty ++ "\n") := by
  rw [Format.render, h]
  rfl

theorem Json.spells_newline : Json.Spells "\n".toList [] := .single (by decide) rfl

/-- The standard JSON of a text that comes apart is ASCII, ends its last line, and is read back as
the compiler input that was written: under its sources stand the units of the text in their order,
each path with the content of its unit and nothing else. So two texts have one standard JSON
exactly where they come apart into the same units in the same order. -/
theorem standardJson_determines :
    (∀ (program : String) (bundle : Bundle), Bundle.ofProgram program = .ok bundle →
      ∃ text, Format.standardJson.render program = .ok text ∧
        (∀ c ∈ text.toList, c.toNat < 128) ∧ (∃ lines, text = lines ++ "\n") ∧
        Json.read text = some bundle.standardJson.tree ∧
        ∃ members, bundle.standardJson.tree = .object members ∧
          members.lookup "sources" = some (.object (bundle.entries.map fun unit =>
            (unit.1, .object [("content", .text unit.2)]))) ∧
          (bundle.entries.map Prod.fst).Nodup) ∧
    ∀ (program program' : String) (bundle bundle' : Bundle),
      Bundle.ofProgram program = .ok bundle → Bundle.ofProgram program' = .ok bundle' →
        (Format.standardJson.render program = Format.standardJson.render program' ↔
          bundle.entries = bundle'.entries) := by
  constructor
  · intro program bundle h
    refine ⟨_, Format.render_standardJson h, ?_, ⟨_, rfl⟩,
      Json.read_pretty_append _ Json.spells_newline, _, bundle.tree_standardJson, rfl,
      bundle.keys_nodup⟩
    rw [String.toList_append, Json.Value.pretty, String.toList_ofList]
    exact ((bundle.standardJson.spells_render 0).append Json.spells_newline).ascii
  · intro program program' bundle bundle' h h'
    rw [Format.render_standardJson h, Format.render_standardJson h']
    constructor
    · intro heq
      have hread := congrArg Json.read (Except.ok.inj heq)
      rw [Json.read_pretty_append _ Json.spells_newline,
        Json.read_pretty_append _ Json.spells_newline] at hread
      exact congrArg OrderedMap.entries (Bundle.tree_standardJson_inj (Option.some.inj hread))
    · intro hentries
      rw [OrderedMap.ext hentries]

theorem standardJson_determines_escaped :
    ∃ (bundle : Bundle) (text : String),
      bundle.entries = [("a\"😀.sol", "\\x\x7f é\n")] ∧
      Format.standardJson.render "==== Source: a\"😀.sol ====\n\\x\x7f é\n" = .ok text ∧
      Format.standardJson.render "==== Source: a\"😀.sol ====\n\n\\x\x7f é" = .ok text ∧
      (∀ c ∈ text.toList, c.toNat < 128) ∧ Json.read text = some bundle.standardJson.tree := by
  obtain ⟨hread, hsame⟩ := standardJson_determines
  have hnodup : ([("a\"😀.sol", "\\x\x7f é\n")].map Prod.fst).Nodup := by decide
  have hends : Bundle.ofProgram "==== Source: a\"😀.sol ====\n\\x\x7f é\n" =
      .ok ⟨_, hnodup⟩ := by
    rfl
  have hstarts : Bundle.ofProgram "==== Source: a\"😀.sol ====\n\n\\x\x7f é" =
      .ok ⟨_, hnodup⟩ := by
    rfl
  obtain ⟨text, htext, hascii, -, htree, -⟩ := hread _ _ hends
  exact ⟨_, text, rfl, htext, ((hsame _ _ _ _ hends hstarts).2 rfl).symm.trans htext, hascii, htree⟩

end SoliditySynth
