/-
  DocAudit.Proofs.Resolution.Insertion
  ────────────────────────────────────
  **PUTTING A COMMENT BLOCK INTO A SOURCE MOVES DECLARATIONS DOWN.**

  Between two lines of a source where the lexer stands between two pieces, a comment
  block can be put in without changing what is declared, at any depth and in the
  middle of a declaration:

      tokens (above, block, below)  =  tokens (above, below), those below moved

  Only the lines differ: behind the block they are greater by its length.  The names
  that are aliased and the number of passes stay the same (`insertion_keeps_resolution`).
-/
import DocAudit.Proofs.Declaration.Moved
import DocAudit.Proofs.Resolution.Settling
import DocAudit.Proofs.Skeleton.Block

namespace DocAudit

/-! ## §1. Where a source can be cut. -/

namespace Skeleton

/-- The text of the skeleton of lines, without aliases. -/
def stubText (ls : List Text) : Text := (stubLines ls).flatMap Text.line

/-- The lexer stands between two pieces behind these lines: no block comment is open
there, and no backslash protects the last line feed. -/
def EndsClear (ls : List Text) : Prop :=
  Piece.endsInBlock (stubText ls) = false
    ∧ (stubLines ls).getLast?.bind List.getLast? ≠ some '\\'

theorem getLast?_flatMap_line {ls : List Text} {c : Char}
    (h : (ls.flatMap Text.line).getLast? = some c) : c = '\n' := by
  cases ls using List.reverseRecOn with
  | nil => cases h
  | append_singleton ls l =>
    rw [List.flatMap_append, List.flatMap_singleton, Text.line, ← List.append_assoc,
      List.getLast?_concat] at h
    exact (Option.some.inj h).symm

/-- **Behind such lines the lexer starts afresh.** -/
theorem seam_of_endsClear {ls : List Text} (h : EndsClear ls) : Piece.Seam (stubText ls) := by
  obtain ⟨hopen, hlast⟩ := h
  unfold stubText at hopen ⊢
  -- only the last line of the skeleton matters
  generalize stubLines ls = out at hopen hlast
  cases out using List.reverseRecOn with
  | nil => exact Piece.seam_nil
  | append_singleton out l =>
    have htext : (out ++ [l]).flatMap Text.line = (out.flatMap Text.line ++ l) ++ ['\n'] := by
      rw [List.flatMap_append, List.flatMap_singleton, Text.line, List.append_assoc]
    rw [htext] at hopen ⊢
    refine Piece.seam_of_line _ ?_ hopen
    intro hback
    rw [List.getLast?_append] at hback
    cases hl : l.getLast? with
    | some c =>
      rw [hl] at hback
      rw [List.getLast?_concat, Option.bind_some, hl] at hlast
      exact hlast hback
    | none =>
      rw [hl] at hback
      -- the line is empty: what precedes its line feed is another line feed
      exact absurd (getLast?_flatMap_line hback) (by decide)

theorem stubText_append (as bs : List Text) :
    stubText (as ++ bs)
      = stubText as ++ (stubFrom (depthAfterLines 0 as) bs).flatMap Text.line := by
  unfold stubText stubLines
  rw [stubFrom_append, List.flatMap_append]

theorem newlines_stubText {ls : List Text} (h : ∀ l ∈ ls, '\n' ∉ l) :
    Text.newlines (stubText ls) = ls.length := by
  unfold stubText stubLines
  rw [Text.newlines_flatMap_line fun _ hout => not_mem_of_mem_stubFrom h hout, length_stubFrom]

end Skeleton

/-! ## §2. The tokens. -/

namespace Piece

theorem ne_nil_of_mem_pieces {kind : TokenKind} {s w : Text} (h : token kind w ∈ pieces s) :
    w ≠ [] := by
  obtain ⟨c, rest, hfirst⟩ := exists_first_of_mem h
  have hne := text_first_ne_nil c rest
  rw [← hfirst] at hne
  exact hne

/-- A token of whole lines stands on one of them. -/
theorem line_le_of_mem {ls : List Text} (h : ∀ l ∈ ls, '\n' ∉ l) {t : Token}
    (ht : t ∈ Token.ofText (ls.flatMap Text.line)) : t.line ≤ ls.length := by
  obtain ⟨before, after, htext, hline⟩ := mem_tokensFrom ht
  rw [pieces_text] at htext
  have hne : t.text ++ after ≠ [] :=
    List.append_ne_nil_of_left_ne_nil (ne_nil_of_mem_pieces (mem_pieces_of_mem ht)) after
  -- the lines end in a line feed, so one of them is not before the token
  have hcount := congrArg Text.newlines htext
  rw [Text.newlines_flatMap_line h, List.append_assoc, Text.newlines_append] at hcount
  have hfeed : '\n' ∈ t.text ++ after := by
    have hlast : (t.text ++ after).getLast? = (ls.flatMap Text.line).getLast? := by
      rw [htext, List.append_assoc, List.getLast?_append_of_ne_nil before hne]
    obtain ⟨c, hc⟩ := Option.isSome_iff_exists.1 (List.getLast?_isSome.2 hne)
    have hc' := hc
    rw [hlast] at hc'
    rw [Skeleton.getLast?_flatMap_line hc'] at hc
    exact List.mem_of_getLast? hc
  have hpos : 0 < Text.newlines (t.text ++ after) := List.count_pos_iff.2 hfeed
  omega

end Piece

namespace Skeleton

/-- Line numbers greater than `n`, increased by `k`. -/
def shift (n k line : Nat) : Nat := if n < line then line + k else line

/-- **The tokens of a source with a block put in.** -/
theorem ofText_insert {above below : List Text} (hfeeds : ∀ l ∈ above, '\n' ∉ l)
    (habove : EndsClear above) (b : CommentBlock) :
    Token.ofText (stubText (above ++ b.lines ++ below))
      = (Token.ofText (stubText (above ++ below))).map
          (Token.onLine (shift above.length b.lines.length)) := by
  have hseam := seam_of_endsClear habove
  have hlines := newlines_stubText hfeeds
  have hblock : ∀ l ∈ b.lines, '\n' ∉ l := fun _ hl => (b.quiet_of_mem hl).oneLine
  have hblockLines : Text.newlines
      ((stubFrom (depthAfterLines 0 above) b.lines).flatMap Text.line) = b.lines.length := by
    rw [Text.newlines_flatMap_line fun _ hout => not_mem_of_mem_stubFrom hblock hout,
      length_stubFrom]
  have hinsert : stubText (above ++ b.lines ++ below)
      = stubText above ++ ((stubFrom (depthAfterLines 0 above) b.lines).flatMap Text.line
          ++ (stubFrom (depthAfterLines 0 above) below).flatMap Text.line) := by
    rw [List.append_assoc, stubText_append, stubFrom_append, List.flatMap_append,
      b.depthAfterLines_lines]
  -- the block yields no token, but its line feeds are counted
  rw [hinsert, stubText_append, Piece.ofText_append hseam, Piece.ofText_append hseam,
    Piece.ofText_skipped (b.skipped _), hlines, hblockLines, List.map_append, List.map_map,
    List.map_map]
  congr 1
  · -- tokens above the block stay
    refine (List.map_id _).symm.trans (List.map_congr_left fun t ht => ?_)
    have hle : t.line ≤ (stubFrom 0 above).length :=
      Piece.line_le_of_mem (fun _ hout => not_mem_of_mem_stubFrom hfeeds hout) ht
    rw [length_stubFrom] at hle
    show t = { t with line := shift above.length b.lines.length t.line }
    unfold shift
    rw [if_neg (Nat.not_lt.2 hle)]
  · -- tokens below it move by its length
    refine List.map_congr_left fun t ht => ?_
    have hpos : 1 ≤ t.line := Piece.le_line_of_mem ht
    show { t with line := t.line + b.lines.length + above.length }
      = { t with line := shift above.length b.lines.length (t.line + above.length) }
    unfold shift
    rw [if_pos (by omega)]
    congr 1
    omega

end Skeleton

/-! ## §3. The declarations. -/

namespace Resolution

/-- What the lines of a source declare. -/
theorem declarations_ofSource_eq (source : Text) :
    (ofSource source).outline.declarations
      = Declaration.declared (Token.ofText (Skeleton.stubText (Text.lines source))) := by
  rw [declarations_ofSource, Declaration.declarations_scan]
  rfl

/-- **Putting a comment block in moves declarations down**: those behind it, by its
length. -/
theorem declarations_insert {source changed : Text} {above below : List Text}
    (hsource : Text.lines source = above ++ below) {b : CommentBlock}
    (hchanged : Text.lines changed = above ++ b.lines ++ below)
    (habove : Skeleton.EndsClear above) :
    (ofSource changed).outline.declarations
      = (ofSource source).outline.declarations.map
          (Declaration.onLine (Skeleton.shift above.length b.lines.length)) := by
  have hfeeds : ∀ l ∈ above, '\n' ∉ l := by
    intro l hl
    refine Text.not_mem_of_mem_lines (t := source) ?_
    rw [hsource]
    exact List.mem_append_left below hl
  rw [declarations_ofSource_eq, declarations_ofSource_eq, hsource, hchanged,
    Skeleton.ofText_insert hfeeds habove, Declaration.declared_map]

/-! ## §4. Aliases and passes. -/

/-- Tokens on other lines miss the same types. -/
theorem unknownTypes_scan_of_moved {t u : Text} {g : Nat → Nat}
    (h : Token.ofText u = (Token.ofText t).map (Token.onLine g)) :
    (Declaration.scan u).unknownTypes = (Declaration.scan t).unknownTypes := by
  have hmissing : Declaration.missing u = (Declaration.missing t).map (Token.onLine g) := by
    have huses : ∀ s : List Token,
        Declaration.uses (s.map (Token.onLine g)) = (Declaration.uses s).map (Token.onLine g) :=
      Declaration.uses_map g
    unfold Declaration.missing
    rw [h, Declaration.statements_map, Declaration.typedefNames_map, List.flatMap_map,
      List.flatMap_congr fun s _ => huses s, ← List.map_flatMap, List.filter_map]
    rfl
  rw [Declaration.unknownTypes_scan, Declaration.unknownTypes_scan, hmissing, List.map_map]
  rfl

/-- **PUTTING A COMMENT BLOCK IN CHANGES NOTHING THAT IS DECLARED.**  Let a comment block
stand between two lines of a source, at any depth and in the middle of a declaration or
not, where the lexer stands between two pieces.  With and without it the same names are
aliased, in as many passes, and the same functions are declared, those behind it further
down by its length. -/
theorem insertion_keeps_resolution {source changed : Text} {above below : List Text}
    (b : CommentBlock) (hsource : Text.lines source = above ++ below)
    (hchanged : Text.lines changed = above ++ b.lines ++ below)
    (habove : Skeleton.EndsClear above) :
    (ofSource changed).skeleton.aliases = (ofSource source).skeleton.aliases
      ∧ (ofSource changed).passes = (ofSource source).passes
      ∧ (ofSource changed).outline.declarations
          = (ofSource source).outline.declarations.map
              (Declaration.onLine (Skeleton.shift above.length b.lines.length)) := by
  have hfeeds : ∀ l ∈ above, '\n' ∉ l := by
    intro l hl
    refine Text.not_mem_of_mem_lines (t := source) ?_
    rw [hsource]
    exact List.mem_append_left below hl
  have htokens : Token.ofText (Skeleton.ofSource changed).text
      = (Token.ofText (Skeleton.ofSource source).text).map
          (Token.onLine (Skeleton.shift above.length b.lines.length)) := by
    show Token.ofText (Skeleton.stubText (Text.lines changed))
      = (Token.ofText (Skeleton.stubText (Text.lines source))).map _
    rw [hsource, hchanged]
    exact Skeleton.ofText_insert hfeeds habove b
  have haliases : (ofSource changed).skeleton.aliases = (ofSource source).skeleton.aliases := by
    rw [aliases_ofSource, aliases_ofSource]
    exact unknownTypes_scan_of_moved htokens
  refine ⟨haliases, ?_, declarations_insert hsource hchanged habove⟩
  -- the number of passes hangs on whether anything is aliased
  rw [passes_ofSource, passes_ofSource, haliases]

/-- A block between a return type and the name behind it, in a source with an unknown
type. -/
theorem insertion_keeps_resolution_in_declaration :
    let source := "int\nfry(egg_t e);\n".toList
    let changed := "int\n/**\n * Fries an egg.\n */\nfry(egg_t e);\n".toList
    (ofSource source).skeleton.aliases = ["egg_t".toList]
      ∧ Skeleton.EndsClear ["int".toList]
      ∧ (ofSource changed).skeleton.aliases = (ofSource source).skeleton.aliases
      ∧ (ofSource changed).passes = (ofSource source).passes
      ∧ (ofSource changed).outline.declarations
          = (ofSource source).outline.declarations.map
              (Declaration.onLine (Skeleton.shift 1 3)) := by
  intro source changed
  have hclear : Skeleton.EndsClear ["int".toList] := by
    unfold Skeleton.EndsClear
    decide +kernel
  let block : CommentBlock :=
    { dialect := .doxygen
      inner := [" * Fries an egg.".toList]
      starred := by decide
      oneLine := by decide
      flat := by decide
      unclosed := by decide }
  have hsource : Text.lines source = ["int".toList] ++ ["fry(egg_t e);".toList] := by
    decide +kernel
  have hchanged : Text.lines changed
      = ["int".toList] ++ block.lines ++ ["fry(egg_t e);".toList] := by
    decide +kernel
  exact ⟨by decide +kernel, hclear, insertion_keeps_resolution block hsource hchanged hclear⟩

end Resolution
end DocAudit
