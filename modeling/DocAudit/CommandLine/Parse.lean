/-
  DocAudit.CommandLine.Parse
  ──────────────────────────
  **READING THE COMMAND LINE.**

  Arguments are read from left to right.  What a flag or path brings is first held
  back, and looked at when the next flag comes or the arguments end; so a flag
  that does not exist is reported before a bad value in front of it.  The name of a
  subcommand begins a new scope, which is read to its end before what the outer
  scope holds back.  After `--` everything is a path.
-/
import DocAudit.CommandLine.Flag

namespace DocAudit.CommandLine

/-! ## §1. What has been read. -/

/-- What a scope was given. -/
structure Given where
  /-- The flags with their values, in order. -/
  flags : List (Flag × List Text) := []
  /-- The paths, in order. -/
  paths : List Text := []
  deriving DecidableEq, Repr

namespace Given

/-- Whether a flag was given. -/
def has (g : Given) (f : Flag) : Bool := g.flags.any fun e => e.1 == f

/-- How often a flag was given. -/
def count (g : Given) (f : Flag) : Nat := g.flags.countP fun e => e.1 == f

def values (g : Given) (f : Flag) : List Text :=
  (g.flags.filter fun e => e.1 == f).flatMap (·.2)

/-- The value of a flag that is given once. -/
def value? (g : Given) (f : Flag) : Option Text := (g.values f).head?

/-- Record a flag and its values.  A flag that can be given once must be new, and
its values must be possible. -/
def addFlag (g : Given) (f : Flag) (vs : List Text) : Except UsageError Given :=
  if (f.action = .set ∨ f.action = .value) ∧ g.has f then .error .repeated
  else
    match vs.findSome? f.valueFault? with
    | some e => .error e
    | none => .ok { g with flags := g.flags ++ [(f, vs)] }

/-- Record paths, none of which may be empty. -/
def addPaths (g : Given) (ps : List Text) : Except UsageError Given :=
  if ps.any (·.isEmpty) then .error .badValue else .ok { g with paths := g.paths ++ ps }

end Given

/-- What is held back. -/
inductive Held where
  /-- A flag whose value is still to come. -/
  | flag (f : Flag)
  /-- A flag and its value. -/
  | valued (f : Flag) (v : Text)
  /-- Paths. -/
  | paths (ps : List Text)
  deriving DecidableEq, Repr

/-- The state of reading a scope. -/
structure State where
  /-- What has been looked at. -/
  given : Given := {}
  /-- What is held back. -/
  held : Option Held := none
  /-- How many paths have been met. -/
  paths : Nat := 0
  /-- Whether `--` has been met. -/
  onlyPaths : Bool := false

namespace State

/-- Look at what is held back. -/
def settle (s : State) : Except UsageError State :=
  let keep (g : Except UsageError Given) : Except UsageError State :=
    g.map fun given => { s with given, held := none }
  match s.held with
  | none => .ok s
  | some (.flag _) => .error .badValue
  | some (.valued f v) => keep (s.given.addFlag f (f.splitValue v))
  | some (.paths ps) => keep (s.given.addPaths ps)

/-- Meet a flag that takes no value, or one with its value attached. -/
def meet (s : State) (f : Flag) (vs : List Text) : Except UsageError State := do
  let s ← s.settle
  match f with
  | .help => throw .helpWanted
  | .version => throw .versionWanted
  | _ => pure { s with given := ← s.given.addFlag f vs }

/-- Meet a flag that takes a value; without one it waits for it. -/
def meetValued (s : State) (f : Flag) : Option Text → Except UsageError State
  | some v => s.meet f (f.splitValue v)
  | none => do
    let s ← s.settle
    pure { s with held := some (.flag f) }

/-- The flag that waits for its value. -/
def waiting? (s : State) : Option Flag :=
  match s.held with
  | some (.flag f) => some f
  | _ => none

/-- Meet a path.  What is not a path of the same group is looked at first. -/
def meetPath (s : State) (arity : Arity) (p : Text) : Except UsageError State := do
  match arity, s.held with
  | .many, some (.paths ps) =>
    pure { s with held := some (.paths (ps ++ [p])), paths := s.paths + 1 }
  | _, _ =>
    let s ← s.settle
    pure { s with held := some (.paths [p]), paths := s.paths + 1 }

/-! ## §2. Arguments. -/

/-- Read an argument that begins with two dashes, given without them. -/
def readLong (scope : Scope) (s : State) (arg : Text) : Except UsageError State :=
  let (name, value) :=
    match Text.cut? '=' arg with
    | some (name, value) => (name, some value)
    | none => (arg, none)
  match Flag.ofLong? scope name, value with
  | none, _ => .error .unknownArgument
  | some f, v =>
    if f.takesValue then s.meetValued f v
    else
      match v with
      | some _ => .error .unwantedValue
      | none => s.meet f []

/-- Read the letters after a single dash.  The first flag that takes a value takes
the rest of the letters, with or without a sign of equality. -/
def readShort (scope : Scope) (s : State) : Text → Except UsageError State
  | [] => .ok s
  | c :: rest =>
    match Flag.ofShort? scope c with
    | none => .error .unknownArgument
    | some f =>
      if f.takesValue then
        s.meetValued f (if rest = [] then none else some ((Text.after? ['='] rest).getD rest))
      else
        match s.meet f [] with
        | .error e => .error e
        | .ok s => readShort scope s rest

/-- Whether one more path has its place in a scope. -/
def takesPath (scope : Scope) (s : State) : Bool :=
  match scope.arity with
  | .none => false
  | .one => s.paths == 0
  | .many => true

/-- What is wrong with a path that has no place. -/
def pathFault (scope : Scope) (s : State) (p : Text) : UsageError :=
  match scope with
  | none =>
    if s.onlyPaths && ((Subcommand.ofName? p).isSome || p == "help".toList) then .unknownArgument
    else .unknownSubcommand
  | some _ => .unknownArgument

def readPath (scope : Scope) (s : State) (p : Text) : Except UsageError State :=
  if s.takesPath scope then s.meetPath scope.arity p else .error (s.pathFault scope p)

/-- Read one argument that does not begin a subcommand. -/
def read (scope : Scope) (s : State) (arg : Text) : Except UsageError State :=
  if s.onlyPaths then s.readPath scope arg
  else
    match arg with
    | ['-', '-'] => .ok { s with onlyPaths := true }
    | '-' :: '-' :: name => s.readLong scope name
    | '-' :: c :: letters => s.readShort scope (c :: letters)
    -- a single dash is a path or a value like any other word
    | _ =>
      match s.waiting? with
      | some f => .ok { s with held := some (.valued f arg) }
      | none => s.readPath scope arg

end State

/-! ## §3. Scopes. -/

/-- Read the arguments of a subcommand to their end. -/
def readScope (scope : Scope) (s : State) : List Text → Except UsageError Given
  | [] => do
    let s ← s.settle
    let missing :=
      (scope.arity = .one ∧ s.paths = 0) ∨ (Flag.required scope).any (!s.given.has ·)
    if missing then throw .missingArgument
    pure s.given
  | arg :: rest => do readScope scope (← s.read scope arg) rest

/-- The answer to `help`: the names after it must be those of a subcommand. -/
def helpAnswer : List Text → UsageError
  | [] => .helpWanted
  | [n] =>
    if (Subcommand.ofName? n).isSome || n == "help".toList then .helpWanted
    else .unknownSubcommand
  | _ => .unknownSubcommand

/-- A command line taken apart. -/
structure Words where
  /-- What was given before the subcommand. -/
  outer : Given
  /-- The subcommand. -/
  subcommand : Subcommand
  /-- What was given after it. -/
  inner : Given
  deriving DecidableEq, Repr

/-- Read a command line. -/
def readWords (s : State) : List Text → Except UsageError Words
  | [] => do
    let s ← s.settle
    throw (if s.given.flags.isEmpty then .nothingGiven else .noSubcommand)
  | arg :: rest => do
    if !s.onlyPaths && s.waiting?.isNone then
      match Subcommand.ofName? arg with
      | some subcommand =>
        -- a fault after the subcommand is reported before one in front of it
        let inner ← readScope (some subcommand) {} rest
        let s ← s.settle
        return { outer := s.given, subcommand, inner }
      | none => if arg = "help".toList then throw (helpAnswer rest)
    readWords (← s.read none arg) rest

end DocAudit.CommandLine
