/-
  DocAudit.Resolution
  ───────────────────
  **PARSE, LEARN THE MISSING TYPES, PARSE AGAIN.**

  A `Provider` parses skeleton texts; its answer may depend on how often it was
  asked before.  Resolution asks it about the skeleton of a source, aliases the
  names that its errors quote, and asks again, until a parse quotes no new name.
  The run records each text that was asked about, and how it ended:

      settled     the first parse that brought no new name
      failed      the provider gave up
      unfinished  the limit on the number of calls was reached

  The built-in scanner settles within two calls (`scannerCalls`), and a script
  of answers within one call more than it has entries.
-/
import DocAudit.Skeleton.Basic
import DocAudit.Declaration.Scan

namespace DocAudit

/-! ## §1. Providers. -/

/-- Something that parses skeleton texts.  It is given the number of earlier calls
and the text, and it may fail with an error of type `ε`. -/
abbrev Provider (ε : Type) := Nat → Text → Except ε Outline

namespace Provider

/-- The built-in scanner, which never fails. -/
def scanner {ε : Type} : Provider ε := fun _ t => .ok (Declaration.scan t)

/-- A provider that gives prepared answers in turn, the last one for ever. -/
def script {ε : Type} (first : Except ε Outline) : List (Except ε Outline) → Provider ε
  | [], _, _ => first
  | _ :: _, 0, _ => first
  | next :: rest, n + 1, t => script next rest n t

end Provider

/-! ## §2. The loop. -/

/-- A skeleton with all its aliases, and the parse that settled it. -/
structure Resolution where
  /-- The skeleton, aliases included. -/
  skeleton : Skeleton
  /-- The last parse. -/
  outline : Outline
  /-- How many parses it took. -/
  passes : Nat
  deriving DecidableEq, Repr

/-- How a run of the resolution loop ended. -/
inductive Ending (ε : Type) where
  /-- A parse quoted no new name. -/
  | settled (r : Resolution)
  /-- The provider failed. -/
  | failed (e : ε)
  /-- The allowed number of calls was used up. -/
  | unfinished

/-- A run of the resolution loop. -/
structure Run (ε : Type) where
  /-- The texts that the provider was asked about, in order. -/
  calls : List Text
  /-- How the run ended. -/
  ending : Ending ε

namespace Resolution

/-- Run the loop for at most `limit` further calls; `done` calls were made. -/
def runFrom {ε : Type} (p : Provider ε) : (limit done : Nat) → Skeleton → Run ε
  | 0, _, _ => ⟨[], .unfinished⟩
  | limit + 1, done, s =>
    match p done s.text with
    | .error e => ⟨[s.text], .failed e⟩
    | .ok outline =>
      let next := s.addAliases outline.unknownTypes
      if next.aliases.length = s.aliases.length then
        ⟨[s.text], .settled ⟨s, outline, done + 1⟩⟩
      else
        let later := runFrom p limit (done + 1) next
        ⟨s.text :: later.calls, later.ending⟩

/-- Resolve a source text with at most `limit` calls of the provider. -/
def run {ε : Type} (p : Provider ε) (limit : Nat) (source : Text) : Run ε :=
  runFrom p limit 0 (Skeleton.ofSource source)

/-! ## §3. The built-in scanner. -/

/-- How often the built-in scanner has to be asked at most: every name it reports
is an identifier and is a type once it is aliased. -/
def scannerCalls : Nat := 2

/-- Resolve a source text with the built-in scanner. -/
def ofSource (source : Text) : Resolution :=
  match (run (Provider.scanner (ε := Empty)) scannerCalls source).ending with
  | .settled r => r
  | .failed e => nomatch e
  | .unfinished =>
    let s := Skeleton.ofSource source
    ⟨s, Declaration.scan s.text, scannerCalls⟩

end Resolution
end DocAudit
