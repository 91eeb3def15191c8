/-
  DocAudit.Files.Tree
  ───────────────────
  **A FILE SYSTEM AS A VALUE.**

  A tree holds files and directories under the names that lead to them from the
  root, and one of its directories is the working directory.  Paths are followed
  one name at a time: every name but the last must be that of a directory, and a
  slash at the end asks for one too.

  Of the machine around the working directory little is known: it has the usual
  directories at its root, among them that of the null device, and directories
  without a name that lie between the root and the working directory.
-/
import DocAudit.Files.Disk

namespace DocAudit.Files

/-! ## §1. Trees. -/

/-- What stands at a place of the tree. -/
inductive Node where
  /-- A file with its bytes. -/
  | file (bytes : List UInt8)
  /-- A directory. -/
  | directory
  /-- A device that is always empty and keeps nothing of what is written. -/
  | sink
  deriving DecidableEq, Repr

def Node.kind : Node → FileKind
  | file _ => .file
  | directory => .directory
  | sink => .other

/-- The names of the directories at the root of a machine. -/
def rootNames : List Text :=
  ["bin", "dev", "etc", "home", "lib", "media", "mnt", "opt", "proc", "root", "run", "sbin",
    "srv", "sys", "tmp", "usr", "var"].map String.toList

/-- What is known of the machine. -/
def machineNodes : List (List Text × Node) :=
  rootNames.map (fun n => ([n], .directory)) ++ [(["dev".toList, "null".toList], .sink)]

/-- The place of the working directory.  No path can spell an empty name. -/
def nameless : List Text := [[], []]

/-- Files and directories by the names that lead to them. -/
structure Tree where
  /-- The nodes, by their names from the root; the working directory and those above it
  are not listed. -/
  nodes : List (List Text × Node) := machineNodes
  /-- The place of the working directory. -/
  home : List Text := nameless
  deriving DecidableEq, Repr

namespace Tree

/-- What stands at a place. -/
def get? (t : Tree) (place : List Text) : Option Node :=
  if place.isPrefixOf t.home then some .directory
  else (t.nodes.find? fun n => n.1 == place).map (·.2)

def put (t : Tree) (place : List Text) (node : Node) : Tree :=
  { t with nodes := t.nodes.filter (fun n => n.1 != place) ++ [(place, node)] }

/-- Put a node at a place and directories at those above it that are free. -/
def putDeep (t : Tree) (place : List Text) (node : Node) : Tree :=
  let above := (List.range place.length).map fun n => place.take n
  (above.foldl (fun t p => if (t.get? p).isSome then t else t.put p .directory) t).put place node

/-- Put a node under names in the working directory. -/
def putInside (t : Tree) (names : List Text) (node : Node) : Tree :=
  t.putDeep (t.home ++ names) node

/-- The names of a place as they lead there from the working directory, if it lies
below it. -/
def inside? (t : Tree) (place : List Text) : Option (List Text) :=
  if t.home.isPrefixOf place then some (place.drop t.home.length) else none

/-- The nodes below the working directory, by their names from there. -/
def inner (t : Tree) : List (List Text × Node) :=
  t.nodes.filterMap fun n => (t.inside? n.1).map fun names => (names, n.2)

/-! ## §2. Following a path. -/

/-- The greatest number of bytes in a name. -/
def nameLimit : Nat := 255

/-- The number of bytes that a path may not reach. -/
def pathLimit : Nat := 4096

/-- Why a path cannot even be looked for. -/
def pathFault? (path : Text) : Option FileFault :=
  if path.contains '\x00' then some .nulInPath
  else if path = [] then some .missing
  else if pathLimit ≤ path.byteWidth then some .nameTooLong
  else none

/-- Whether a name is longer than a name can be. -/
def isTooLong (name : Text) : Bool := decide (nameLimit < name.byteWidth)

/-- Follow one component from a place. -/
def step (t : Tree) (place : List Text) (c : Component) : Except FileFault (List Text) :=
  match t.get? place with
  | some .directory =>
    match c with
    | .root => .ok []
    | .here => .ok place
    | .up => .ok place.dropLast
    | .name n =>
      if isTooLong n then .error .nameTooLong
      else
        match t.get? (place ++ [n]) with
        | some _ => .ok (place ++ [n])
        | none => .error .missing
  | some _ => .error .notDirectory
  | none => .error .missing

/-- Follow components from a place. -/
def steps (t : Tree) (place : List Text) : List Component → Except FileFault (List Text)
  | [] => .ok place
  | c :: rest =>
    match t.step place c with
    | .ok next => t.steps next rest
    | .error f => .error f

/-- The last part of a path between slashes. -/
def lastPart (path : Text) : Text := ((Text.splitOn '/' path).getLast?).getD []

/-- Whether a path can only be that of a directory: it ends in a slash or a `.`. -/
def asksForDirectory (path : Text) : Bool := lastPart path == [] || lastPart path == ['.']

/-- The place that a path leads to, and what stands there. -/
def follow (t : Tree) (path : Text) : Except FileFault (List Text × Node) :=
  match pathFault? path with
  | some f => .error f
  | none =>
    match t.steps t.home (Path.components path) with
    | .error f => .error f
    | .ok place =>
      match t.get? place with
      | none => .error .missing
      | some .directory => .ok (place, .directory)
      | some node => if asksForDirectory path then .error .notDirectory else .ok (place, node)

/-- A path without the slashes at its end. -/
def dropSlashes (path : Text) : Text := Text.dropEndWhile (· == '/') path

/-- The directory in which a new entry is to stand, and the name of the entry;
`none` if the path ends in no name. -/
def newPlace (t : Tree) (path : Text) : Except FileFault (Option (List Text × Text)) :=
  match pathFault? path with
  | some f => .error f
  | none =>
    match (Path.components path).reverse with
    | .name n :: outer =>
      -- a path such as `a/.` ends in a name but not in a new one
      if lastPart (dropSlashes path) = n then
        match t.steps t.home outer.reverse with
        | .error f => .error f
        | .ok place =>
          match t.get? place with
          | some .directory => .ok (some (place, n))
          | some _ => .error .notDirectory
          | none => .error .missing
      else (t.follow path).map fun _ => none
    | _ => (t.follow path).map fun _ => none

/-! ## §3. Reading. -/

/-- The kind of what a path leads to. -/
def kind? (t : Tree) (path : Text) : Option FileKind :=
  match t.follow path with
  | .ok (_, node) => some node.kind
  | .error _ => none

/-- The text that bytes encode in UTF-8. -/
def decode? (bytes : List UInt8) : Option Text :=
  (String.fromUTF8? ⟨bytes.toArray⟩).map String.toList

def read (t : Tree) (path : Text) : Except FileFault Text :=
  match t.follow path with
  | .error f => .error f
  | .ok (_, .directory) => .error .isDirectory
  | .ok (_, .sink) => .ok []
  | .ok (_, .file bytes) =>
    match decode? bytes with
    | some text => .ok text
    | none => .error .notUtf8

/-- The path of what stands below a directory. -/
def below (dir : Text) (names : List Text) : Text := names.foldl Path.join dir

/-- The paths of all files below a directory. -/
def walk (t : Tree) (dir : Text) : List Text :=
  match t.follow dir with
  | .ok (place, .directory) =>
    t.nodes.filterMap fun (names, node) =>
      if place.isPrefixOf names ∧ node.kind = .file then
        some (below dir (names.drop place.length))
      else none
  | _ => []

/-! ## §4. Writing. -/

/-- The tree after a file is written. -/
def write (t : Tree) (path content : Text) : Except FileFault Tree :=
  match t.newPlace path with
  | .error f => .error f
  | .ok none => .error .isDirectory
  | .ok (some (place, name)) =>
    if lastPart path = [] then .error .isDirectory
    else if isTooLong name then .error .nameTooLong
    else
      match t.get? (place ++ [name]) with
      | some .directory => .error .isDirectory
      | some .sink => .ok t
      | _ => .ok (t.put (place ++ [name]) (.file content.utf8))

/-- The tree after a directory is made. -/
def makeDir (t : Tree) (path : Text) : Except FileFault Tree :=
  match t.newPlace path with
  | .error f => .error f
  | .ok none => .error .alreadyExists
  | .ok (some (place, name)) =>
    if isTooLong name then .error .nameTooLong
    else
      match t.get? (place ++ [name]) with
      | some _ => .error .alreadyExists
      | none => .ok (t.put (place ++ [name]) .directory)

/-! ## §5. The disk. -/

/-- Change the tree, or leave it alone if that is not possible. -/
def change (f : Tree → Except FileFault Tree) : StateM Tree (Except FileFault Unit) := do
  match f (← get) with
  | .ok t =>
    set t
    pure (.ok ())
  | .error fault => pure (.error fault)

/-- The disk that is a tree, seen from its working directory. -/
def disk : Disk (StateM Tree) :=
  { workingDir := pure (.ok [])
    kind := fun path => do pure ((← get).kind? path)
    read := fun path => do pure ((← get).read path)
    walk := fun path => do pure ((← get).walk path)
    write := fun path content => change fun t => t.write path content
    makeDir := fun path => change fun t => t.makeDir path }

end Tree

/-! ## §6. Loose files. -/

/-- The disk that holds texts under paths and nothing else.  Paths are compared by
their components. -/
def loose (workingDir : Option Text) (files : List (Text × Text)) : Disk Id :=
  let find (path : Text) : Option Text := (files.find? fun f => Path.same f.1 path).map (·.2)
  { workingDir :=
      match workingDir with
      | some dir => .ok dir
      | none => .error (.other "no working directory".toList)
    kind := fun path => (find path).map fun _ => .file
    read := fun path =>
      match find path with
      | some t => .ok t
      | none => .error (.other "file not found".toList)
    walk := fun _ => []
    write := fun path _ => .error (.other ("read-only: ".toList ++ path))
    makeDir := fun path => .error (.other ("read-only: ".toList ++ path)) }

end DocAudit.Files
