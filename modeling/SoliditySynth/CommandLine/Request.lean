import SoliditySynth.CommandLine.Token

namespace SoliditySynth.CommandLine

/-- Arguments are read by an early or a late reader. The two differ in what they make of a value that
is attached to a flag. -/
inductive Dialect where
  | early
  | late
deriving DecidableEq

/-- The early reader drops the separator, also where it is a value. -/
def Dialect.drops (dialect : Dialect) (value : String) : Bool :=
  match dialect with
  | .early => value = "--"
  | .late => false

/-- What comes at the end of an argument after the flags that are complete in it. -/
inductive Ending where
  | nothing
  /-- A flag whose value is the next argument. -/
  | waiting (flag : Flag)
  /-- Letters of which the first belongs to no flag. -/
  | unknown (letters : List Char)

structure Cluster where
  /-- Flags whose values, if they take any, are known. -/
  flags : List (Flag × Option String) := []
  ending : Ending := .nothing

namespace Cluster

def cons (flag : Flag) (cluster : Cluster) : Cluster :=
  { cluster with flags := (flag, none) :: cluster.flags }

def single (flag : Flag) : Cluster :=
  if flag.takesValue then { ending := .waiting flag } else { flags := [(flag, none)] }

/-- The flags of an argument with one dash, as the early reader finds them: letters of flags without
values, up to one that takes the rest as its value. -/
def ofShortEarly (flag : Flag) (rest : List Char) : Except UsageFault Cluster :=
  if flag.takesValue then .ok { flags := [(flag, some (String.ofList rest))] }
  else match rest with
  | [] => .error (.unexpectedValue flag "")
  | c :: tail =>
    match Flag.ofLetter? c with
    | none => .error (.unexpectedValue flag (String.ofList (c :: tail)))
    | some next =>
      if tail = [] then .ok ((single next).cons flag)
      else (ofShortEarly next tail).map (cons flag)

/-- The late reader knows an equals sign after any letter, and what comes after it is a value. It
leaves letters that belong to no flag to be refused with the arguments that are not understood. -/
def ofShortLate (flag : Flag) (equals : Bool) (rest : List Char) : Except UsageFault Cluster :=
  if flag.takesValue then .ok { flags := [(flag, some (String.ofList rest))] }
  else match rest with
  | [] => .error (.unexpectedValue flag "")
  | c :: tail =>
    if equals || c = '-' then .error (.unexpectedValue flag (String.ofList (c :: tail)))
    else match Flag.ofLetter? c with
    | none => .ok { flags := [(flag, none)], ending := .unknown (c :: tail) }
    | some next =>
      match tail with
      | [] => .ok ((single next).cons flag)
      | '=' :: value => (ofShortLate next true value).map (cons flag)
      | tail => (ofShortLate next false tail).map (cons flag)

def ofAttached (dialect : Dialect) (flag : Flag) : Attached → Except UsageFault Cluster
  | .nothing => .ok (single flag)
  | .long value =>
    if flag.takesValue then .ok { flags := [(flag, some value)] }
    else .error (.unexpectedValue flag value)
  | .short equals rest =>
    match dialect with
    | .early => ofShortEarly flag rest
    | .late => ofShortLate flag equals rest

end Cluster

/-- What one argument asks for, with the next one where that is a value. -/
structure Request where
  flags : List (Flag × Option String) := []
  /-- What was not understood. -/
  other : Option String := none

/-- What the arguments ask for, up to the first that is faulty. -/
def Request.ofTokens (dialect : Dialect) : List Token → List (Except UsageFault Request)
  | [] => []
  | .word text :: tokens | .unknown text :: tokens =>
    .ok { other := some text } :: ofTokens dialect tokens
  | .separator :: tokens => .ok { other := some "--" } :: ofTokens dialect tokens
  | .flag flag attached :: tokens =>
    match Cluster.ofAttached dialect flag attached with
    | .error fault => [.error fault]
    | .ok ⟨flags, .nothing⟩ => .ok { flags } :: ofTokens dialect tokens
    | .ok ⟨flags, .unknown letters⟩ =>
      .ok { flags, other := some (String.ofList ('-' :: letters)) } :: ofTokens dialect tokens
    | .ok ⟨flags, .waiting last⟩ =>
      match tokens with
      | .word value :: tokens =>
        .ok { flags := flags ++ [(last, some value)] } :: ofTokens dialect tokens
      | _ => [.error (.missingValue last)]

end SoliditySynth.CommandLine
