import SoliditySynth.OrderedMap
import SoliditySynth.Path

namespace SoliditySynth

inductive FileFault where
  | notFound
  | alreadyExists
  | isDirectory
  | notDirectory
  | nameTooLong
  | invalidName
deriving DecidableEq

def FileFault.message : FileFault → String
  | notFound => "no such file or directory"
  | alreadyExists => "file exists"
  | isDirectory => "is a directory"
  | notDirectory => "not a directory"
  | nameTooLong => "file name too long"
  | invalidName => "invalid file name"

inductive Node where
  | directory
  | file (content : String)
deriving DecidableEq

/-- The names from the root down to a node. -/
abbrev Location := List String

/-- All nodes but the root, and the working directory. -/
structure FileTree where
  nodes : OrderedMap Location Node
  home : Location

namespace FileTree

/-- A tree that holds the given directory, those above it, and nothing else. -/
def ofHome (home : Location) : FileTree where
  nodes := (List.range home.length).foldl
    (fun nodes n => nodes.insert (home.take (n + 1)) .directory) .empty
  home

def find? (tree : FileTree) (location : Location) : Option Node :=
  if location = [] then some .directory else tree.nodes.find? location

def origin (tree : FileTree) (path : Path) : Location :=
  match path.anchor with
  | .relative => tree.home
  | _ => []

def step (location : Location) (name : String) : Location :=
  if name = ".." then location.dropLast else location ++ [name]

def nameLimit : Nat := 255

def pathLimit : Nat := 4095

/-- Refuses a path that no file can have: no name holds the NUL character. -/
def checkPath (path : Path) : Except FileFault Unit :=
  if path.segments.any (·.toList.contains '\x00') then .error .invalidName
  else if pathLimit < path.text.utf8ByteSize then .error .nameTooLong
  else .ok ()

/-- Follows names from a location. There need not be a node at the end. -/
def follow (tree : FileTree) (location : Location) : List String → Except FileFault Location
  | [] => .ok location
  | name :: names =>
    match tree.find? location with
    | some .directory =>
      if nameLimit < name.utf8ByteSize then .error .nameTooLong
      else tree.follow (step location name) names
    | some (.file _) => .error .notDirectory
    | none => .error .notFound

def put (tree : FileTree) (location : Location) (node : Node) : FileTree :=
  { tree with nodes := tree.nodes.insert location node }

theorem find?_put {tree : FileTree} {location l : Location} {node : Node} (h : location ≠ []) :
    (tree.put location node).find? l = if location = l then some node else tree.find? l := by
  unfold find? put
  split
  · next hl => rw [if_neg (hl ▸ h)]
  · exact OrderedMap.find?_insert ..

def makeDirectory (tree : FileTree) (start : Location) (names : List String) :
    Except FileFault FileTree := do
  let location ← tree.follow start names
  if (tree.find? location).isSome then .error .alreadyExists
  else .ok (tree.put location .directory)

def isDirectory (tree : FileTree) (start : Location) (names : List String) : Bool :=
  match tree.follow start names with
  | .ok location => tree.find? location = some .directory
  | .error _ => false

def ensureDirectory (tree : FileTree) (start : Location) (names : List String) :
    Except FileFault FileTree :=
  match tree.makeDirectory start names with
  | .ok tree' => .ok tree'
  | .error .notFound => .error .notFound
  | .error fault => if tree.isDirectory start names then .ok tree else .error fault

/-- Makes the directory that the first `n` names lead to. Where the one above it is missing, that
one is made first. Directories made before a failure stay. -/
def ensureDirectories (tree : FileTree) (start : Location) (names : List String) :
    Nat → Except FileFault Unit × FileTree
  | 0 =>
    match tree.ensureDirectory start [] with
    | .ok tree' => (.ok (), tree')
    | .error fault => (.error fault, tree)
  | n + 1 =>
    match tree.ensureDirectory start (names.take (n + 1)) with
    | .ok tree' => (.ok (), tree')
    | .error .notFound =>
      match tree.ensureDirectories start names n with
      | (.error fault, tree') => (.error fault, tree')
      | (.ok (), tree') =>
        match tree'.ensureDirectory start (names.take (n + 1)) with
        | .ok tree'' => (.ok (), tree'')
        | .error fault => (.error fault, tree')
    | .error fault => (.error fault, tree)

def makeDirectories (tree : FileTree) (path : Path) : Except FileFault Unit × FileTree :=
  match checkPath path with
  | .ok () => tree.ensureDirectories (tree.origin path) path.segments path.segments.length
  | .error fault => (.error fault, tree)

def write (tree : FileTree) (path : Path) (content : String) : Except FileFault FileTree := do
  checkPath path
  let location ← tree.follow (tree.origin path) path.segments
  if tree.find? location = some .directory then .error .isDirectory
  else .ok (tree.put location (.file content))

/-- The files below the working directory, by their paths from there, sorted. -/
def files (tree : FileTree) : List (String × String) :=
  let found := tree.nodes.entries.filterMap fun (location, node) =>
    match node with
    | .directory => none
    | .file content =>
      if tree.home.isPrefixOf location then
        some ("/".intercalate (location.drop tree.home.length), content)
      else none
  found.mergeSort fun x y => decide (x.1 ≤ y.1)

end FileTree

end SoliditySynth
