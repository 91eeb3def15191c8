/-
  DocAudit.Proofs.Comment.Moved
  ─────────────────────────────
  **COMMENTS FURTHER DOWN SAY THE SAME.**

  Locating and reading copy line numbers and never compare them, so all of them may be
  increased before or after:

      locate and read lines that begin at n + k   =   those that begin at n, moved by k

  A comment that cannot be read still breaks the same rule, and the line it is reported
  on moves with it.  The lemmas follow the reading, function by function.
-/
import DocAudit.Audit.Report
import DocAudit.Proofs.Comment.Doxygen
import DocAudit.Proofs.Comment.Edt

namespace DocAudit

variable (k : Nat)

/-! ## §1. What has a line. -/

/-- A body line further down. -/
def BodyLine.movedDown (l : BodyLine) : BodyLine := { l with line := l.line + k }

/-- An error reported further down. -/
def CommentError.movedDown (e : CommentError) : CommentError := { e with line := e.line + k }

/-- A record whose comment ends further down. -/
def LocatedRecord.movedDown (r : LocatedRecord) : LocatedRecord :=
  { r with endLine := r.endLine + k }

namespace Comment

/-- A comment further down. -/
def movedDown (c : Comment) : Comment :=
  { c with startLine := c.startLine + k, endLine := c.endLine + k }

/-- An open block further down. -/
def Open.movedDown (o : Open) : Open := { o with startLine := o.startLine + k }

/-! ## §2. Locating. -/

/-- **Lines further down hold the same comments**, further down. -/
theorem locateFrom_add (d : Dialect) (n : Nat) (state : Option Open) (ls : List Text) :
    locateFrom d (n + k) (state.map (Open.movedDown k)) ls
      = (locateFrom d n state ls).map (movedDown k) := by
  induction ls generalizing n state with
  | nil => rfl
  | cons raw rest ih =>
    by_cases hopen : Text.trimEnd raw = d.opening
    · rw [locateFrom_opening hopen, locateFrom_opening hopen, ← ih, Nat.add_right_comm]
      rfl
    by_cases hclose : Text.trimEnd raw = closingLine
    · have hhere : ((state.map (Open.movedDown k)).map
            fun o => o.close (n + k) (Text.trimEnd raw)).toList
          = ((state.map fun o => o.close n (Text.trimEnd raw)).toList).map (movedDown k) := by
        cases state <;> rfl
      have hrest := ih (n + 1) none
      rw [Nat.add_right_comm] at hrest
      rw [locateFrom_closing hopen hclose, locateFrom_closing hopen hclose, List.map_append,
        hhere, ← hrest]
      rfl
    · have hstate : (state.map (Open.movedDown k)).map (fun o => o.add (Text.trimEnd raw))
          = (state.map fun o => o.add (Text.trimEnd raw)).map (Open.movedDown k) := by
        cases state <;> rfl
      rw [locateFrom_inside hopen hclose, locateFrom_inside hopen hclose, ← ih, hstate,
        Nat.add_right_comm]

/-! ## §3. Bodies. -/

theorem starredLines_add (n : Nat) (raws : List Text) :
    starredLines (n + k) raws
      = ((starredLines n raws).map (List.map (BodyLine.movedDown k))).mapError
          (CommentError.movedDown k) := by
  induction raws generalizing n with
  | nil => rfl
  | cons raw rest ih =>
    rw [starredLines, starredLines]
    cases starred? raw with
    | none => rfl
    | some t =>
      dsimp only
      rw [Nat.add_right_comm, ih]
      cases starredLines (n + 1) rest <;> rfl

/-- **A comment further down has the same body**, or breaks the same rule. -/
theorem body_movedDown (opening : Text) (c : Comment) :
    (c.movedDown k).body opening
      = ((c.body opening).map (List.map (BodyLine.movedDown k))).mapError
          (CommentError.movedDown k) := by
  have hlines : (c.movedDown k).lines = c.lines := rfl
  have hstart : (c.movedDown k).startLine + 1 = c.startLine + 1 + k := Nat.add_right_comm _ _ _
  unfold body
  rw [hlines, hstart]
  cases c.lines with
  | nil => rfl
  | cons first rest =>
    dsimp only
    rw [starredLines_add]
    split
    · rfl
    cases starredLines (c.startLine + 1) rest with
    | error e => rfl
    | ok ls =>
      dsimp only [Except.map, Except.mapError]
      rw [List.getLast?_map, ← List.map_dropLast]
      -- the test asks for the last text, which has not changed
      cases ls.getLast? with
      | none => rfl
      | some last =>
        have hcloses : closes (last.movedDown k) = closes last := rfl
        dsimp only [Option.map_some]
        rw [hcloses]
        split <;> rfl

theorem text_movedDown (ls : List BodyLine) :
    (ls.map (BodyLine.movedDown k)).map (·.text) = ls.map (·.text) := by
  rw [List.map_map]
  rfl

end Comment

/-! ## §4. Reading body lines. -/

/-- How a step reads lines further down, so does a run of it. -/
theorem Draft.foldlM_movedDown {step : Draft.Step}
    (h : ∀ d l, step d (l.movedDown k) = (step d l).mapError (CommentError.movedDown k))
    (d : Draft) (ls : List BodyLine) :
    (ls.map (BodyLine.movedDown k)).foldlM step d
      = (ls.foldlM step d).mapError (CommentError.movedDown k) := by
  induction ls generalizing d with
  | nil => rfl
  | cons l rest ih =>
    rw [List.map_cons, List.foldlM_cons, List.foldlM_cons, h]
    cases step d l with
    | error e => rfl
    | ok next => exact ih next

namespace Doxygen

theorem step_movedDown (d : Draft) (l : BodyLine) :
    step d (l.movedDown k) = (step d l).mapError (CommentError.movedDown k) := by
  have htext : (l.movedDown k).text = l.text := rfl
  unfold step
  rw [htext]
  cases marker l.text with
  | parameter =>
    dsimp only
    cases param? l.text <;> rfl
  | result =>
    dsimp only
    split <;> rfl
  | text => rfl

theorem parse_movedDown (c : Comment) :
    parse (c.movedDown k) = (parse c).mapError (CommentError.movedDown k) := by
  unfold parse
  rw [Comment.body_movedDown]
  cases c.body Dialect.doxygen.opening with
  | error e => rfl
  | ok ls =>
    dsimp only [Except.map, Except.mapError]
    rw [Comment.text_movedDown, steps_eq_foldlM, steps_eq_foldlM,
      Draft.foldlM_movedDown k (step_movedDown k)]
    split
    · rfl
    · cases ls.foldlM step {} <;> rfl

end Doxygen

namespace Edt

theorem step_movedDown (d : Draft) (l : BodyLine) :
    step d (l.movedDown k) = (step d l).mapError (CommentError.movedDown k) := by
  have htext : (l.movedDown k).text = l.text := rfl
  unfold step
  rw [htext]
  cases Line.ofText l.text with
  | definition rest =>
    dsimp only
    split
    · rfl
    · cases definitionName? rest <;> rfl
  | argument rest =>
    dsimp only
    cases argument? rest <;> rfl
  | result rest =>
    dsimp only
    split <;> rfl
  | text t =>
    dsimp only
    split <;> rfl

theorem firstName?_movedDown (ls : List BodyLine) :
    firstName? (ls.map (BodyLine.movedDown k)) = firstName? ls := by
  unfold firstName?
  rw [List.findSome?_map]
  rfl

theorem parse_movedDown (c : Comment) :
    parse (c.movedDown k) = (parse c).mapError (CommentError.movedDown k) := by
  have hlines : (c.movedDown k).lines = c.lines := rfl
  unfold parse
  rw [Comment.body_movedDown, hlines]
  cases c.body Dialect.edt.opening with
  | error e =>
    dsimp only [Except.map, Except.mapError]
    split <;> rfl
  | ok ls =>
    dsimp only [Except.map, Except.mapError]
    rw [Comment.text_movedDown, firstName?_movedDown, steps_eq_foldlM, steps_eq_foldlM,
      Draft.foldlM_movedDown k (step_movedDown k)]
    split
    · rfl
    · cases ls.foldlM step {} <;> rfl

end Edt

/-! ## §5. Records. -/

namespace Reading

theorem located?_movedDown (d : Dialect) (c : Comment) :
    located? d (c.movedDown k) = (located? d c).map (LocatedRecord.movedDown k) := by
  unfold located? recordOf
  cases d with
  | doxygen =>
    dsimp only
    rw [Doxygen.parse_movedDown]
    cases Doxygen.parse c <;> rfl
  | edt =>
    dsimp only
    rw [Edt.parse_movedDown]
    cases Edt.parse c with
    | error e => rfl
    | ok found => cases found <;> rfl

/-- **Lines further down hold the same records**, further down. -/
theorem records_add (d : Dialect) (ls : List Text) :
    (Comment.locateFrom d (1 + k) none ls).filterMap (located? d)
      = (ofLines d ls).records.map (LocatedRecord.movedDown k) := by
  have hlocate : Comment.locateFrom d (1 + k) none ls
      = (Comment.locate d ls).map (Comment.movedDown k) := Comment.locateFrom_add k d 1 none ls
  rw [hlocate, List.filterMap_map]
  unfold ofLines
  dsimp only
  rw [List.map_filterMap]
  exact List.filterMap_congr fun c _ => located?_movedDown k d c

end Reading
end DocAudit
