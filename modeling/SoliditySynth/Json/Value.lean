import SoliditySynth.Json.Quoted

namespace SoliditySynth.Json

inductive Value where
  | text (s : String)
  | array (items : List Value)
  | object (members : List (String × Value))

def newline (level : Nat) : List Char := '\n' :: List.replicate (2 * level) ' '

mutual

def Value.render (level : Nat) : Value → List Char
  | .text s => quote s
  | .array [] => ['[', ']']
  | .array (v :: vs) =>
    '[' :: newline (level + 1) ++ v.render (level + 1) ++ renderItems (level + 1) vs ++
      newline level ++ [']']
  | .object [] => ['{', '}']
  | .object (m :: ms) =>
    '{' :: newline (level + 1) ++ renderMember (level + 1) m ++ renderMembers (level + 1) ms ++
      newline level ++ ['}']

def renderItems (level : Nat) : List Value → List Char
  | [] => []
  | v :: vs => ',' :: newline level ++ v.render level ++ renderItems level vs

def renderMember (level : Nat) : String × Value → List Char
  | (key, v) => quote key ++ ':' :: ' ' :: v.render level

def renderMembers (level : Nat) : List (String × Value) → List Char
  | [] => []
  | m :: ms => ',' :: newline level ++ renderMember level m ++ renderMembers level ms

end

def Value.pretty (v : Value) : String := String.ofList (v.render 0)

end SoliditySynth.Json
