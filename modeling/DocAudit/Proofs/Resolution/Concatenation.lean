/-
  DocAudit.Proofs.Resolution.Concatenation
  ────────────────────────────────────────
  **TWO SOURCES, ONE BEHIND THE OTHER, DECLARE WHAT EACH DECLARES.**

  Three things run on from line to line: the brace depth, the piece that the lexer is
  in, and the statement that is being read.  Lines are `Finished` when none of them
  does so behind their end.  What follows is then read as if it stood alone:

      tokens (above, below)        =  tokens above, and those of below, moved
      declarations (above, below)  =  those of above, and those of below, moved

  Types need no such condition, since no declaration depends on them.
-/
import DocAudit.Proofs.Resolution.Insertion

namespace DocAudit

/-! ## §1. Statements in two halves. -/

namespace Declaration

/-- Behind the end of a statement another one begins. -/
theorem statements_append {ts : List Token} (h : ∀ t ∈ ts.getLast?, endsStatement t = true)
    (us : List Token) : statements (ts ++ us) = statements ts ++ statements us := by
  cases ts using List.reverseRecOn with
  | nil => rfl
  | append_singleton ts t =>
    have ht : endsStatement t = true := h t List.getLast?_concat
    have halone : Text.splitWhere endsStatement (ts ++ [t])
        = Text.splitWhere endsStatement ts ++ [[]] := Text.splitWhere_append_marked ht ts []
    -- the empty piece behind the last mark is no statement
    have hempty : [([] : List Token)].filter (!·.isEmpty) = [] := rfl
    unfold statements
    rw [halone, List.append_assoc, List.singleton_append, Text.splitWhere_append_marked ht,
      List.filter_append, List.filter_append, hempty, List.append_nil]

theorem declared_append {ts : List Token} (h : ∀ t ∈ ts.getLast?, endsStatement t = true)
    (us : List Token) : declared (ts ++ us) = declared ts ++ declared us := by
  unfold declared
  rw [statements_append h, List.filterMap_append, List.map_append]

end Declaration

/-! ## §2. Lines behind which everything starts afresh. -/

namespace Skeleton

/-- Nothing that these lines begin runs on behind them. -/
structure Finished (ls : List Text) : Prop where
  /-- Every brace is closed. -/
  closed : depthAfterLines 0 ls = 0
  /-- The lexer stands between two pieces. -/
  clear : EndsClear ls
  /-- The last token, if there is one, ends a statement. -/
  ended : ∀ t ∈ (Token.ofText (stubText ls)).getLast?,
    t.isMark ';' = true ∨ t.isMark '\x7d' = true

variable {above : List Text}

theorem Finished.endsStatement (h : Finished above) :
    ∀ t ∈ (Token.ofText (stubText above)).getLast?, Declaration.endsStatement t = true := by
  intro t ht
  unfold Declaration.endsStatement
  rcases h.ended t ht with hmark | hmark
  · rw [hmark]
    rfl
  · rw [hmark, Bool.or_true]

/-- **The tokens behind finished lines** are those of the lines below, moved. -/
theorem ofText_stubText_append (h : Finished above) (hfeeds : ∀ l ∈ above, '\n' ∉ l)
    (below : List Text) :
    Token.ofText (stubText (above ++ below))
      = Token.ofText (stubText above)
        ++ (Token.ofText (stubText below)).map (Token.onLine (· + above.length)) := by
  rw [stubText_append, h.closed, Piece.ofText_append (seam_of_endsClear h.clear),
    newlines_stubText hfeeds]
  rfl

end Skeleton

/-! ## §3. The declarations. -/

namespace Resolution

/-- **Behind a finished source another one declares what it declares alone**, further
down by the lines of the first. -/
theorem declarations_append {a : Text} (hfeed : a.getLast? = some '\n')
    (h : Skeleton.Finished (Text.lines a)) (b : Text) :
    (ofSource (a ++ b)).outline.declarations
      = (ofSource a).outline.declarations
        ++ (ofSource b).outline.declarations.map
            (Declaration.onLine (· + (Text.lines a).length)) := by
  have hfeeds : ∀ l ∈ Text.lines a, '\n' ∉ l := fun l hl => Text.not_mem_of_mem_lines hl
  rw [declarations_ofSource_eq, declarations_ofSource_eq, declarations_ofSource_eq,
    Text.lines_append hfeed, Skeleton.ofText_stubText_append h hfeeds,
    Declaration.declared_append h.endsStatement, Declaration.declared_map]

end Resolution
end DocAudit
