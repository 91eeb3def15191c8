/-
  DocAudit.Proofs.Declaration.Moved
  ─────────────────────────────────
  **TOKENS ON OTHER LINES DECLARE THE SAME.**

  A scan asks a token for its kind and its text, and copies its line where it names
  something.  So the line may be changed by any function `g` before the scan or after
  it:

      scan the tokens, moved by g   =   what the tokens declare, moved by g

  The lemmas follow the scan, function by function: each commutes with moving.
-/
import Mathlib.Data.List.TakeWhile
import DocAudit.Proofs.Declaration.Head
import DocAudit.Proofs.Declaration.Lexeme

namespace DocAudit

variable (g : Nat → Nat)

/-! ## §1. Tests on tokens. -/

namespace Token

@[simp] theorem isMark_onLine (t : Token) (c : Char) : (t.onLine g).isMark c = t.isMark c := rfl

@[simp] theorem isName_onLine (t : Token) : (t.onLine g).isName = t.isName := rfl

@[simp] theorem isSpecifier_onLine (t : Token) : (t.onLine g).isSpecifier = t.isSpecifier := rfl

@[simp] theorem isEllipsis_onLine (t : Token) : (t.onLine g).isEllipsis = t.isEllipsis := rfl

@[simp] theorem isTagWord_onLine (t : Token) : (t.onLine g).isTagWord = t.isTagWord := rfl

@[simp] theorem spaced_onLine (t u : Token) :
    spaced (t.onLine g) (u.onLine g) = spaced t u := rfl

/-- A spelling has no lines. -/
theorem spell_map (ts : List Token) : spell (ts.map (onLine g)) = spell ts := by
  fun_induction spell ts with
  | case1 => rfl
  | case2 t => rfl
  | case3 t u rest ih =>
    rw [List.map_cons] at ih
    rw [List.map_cons, List.map_cons, spell, ih, spaced_onLine, onLine_text]

end Token

namespace Declaration

open Token

/-! ## §2. Cutting statements and parameters. -/

@[simp] theorem endsStatement_onLine (t : Token) :
    endsStatement (t.onLine g) = endsStatement t := rfl

theorem statements_map (ts : List Token) :
    statements (ts.map (onLine g)) = (statements ts).map (List.map (onLine g)) := by
  unfold statements
  rw [Text.splitWhere_map (q := endsStatement) (endsStatement_onLine g), List.filter_map]
  congr 2
  funext s
  exact congrArg not List.isEmpty_map

theorem splitCommas_map (depth : Nat) (ts : List Token) :
    splitCommas depth (ts.map (onLine g)) = (splitCommas depth ts).map (List.map (onLine g)) := by
  induction ts generalizing depth with
  | nil => rfl
  | cons t ts ih =>
    have hdepth : bracketDepth depth (t.onLine g) = bracketDepth depth t := rfl
    rw [List.map_cons, splitCommas, splitCommas, isMark_onLine, hdepth, ih, ih]
    split
    · rfl
    · cases splitCommas (bracketDepth depth t) ts <;> rfl

theorem upToClosing_map (depth : Nat) (ts : List Token) :
    upToClosing depth (ts.map (onLine g))
      = (upToClosing depth ts).map (List.map (onLine g)) := by
  induction ts generalizing depth with
  | nil => rfl
  | cons t ts ih =>
    -- putting the token in front commutes with moving, found or not
    have hkeep : ∀ r : Option (List Token),
        (r.map (List.map (onLine g))).map (t.onLine g :: ·)
          = (r.map (t :: ·)).map (List.map (onLine g)) := by
      intro r
      cases r <;> rfl
    rw [List.map_cons]
    unfold upToClosing
    rw [isMark_onLine, isMark_onLine, ih, ih, hkeep, hkeep]
    split
    · rfl
    split
    · cases depth with
      | zero => rfl
      | succ d =>
        dsimp only
        rw [ih, hkeep]
    · rfl

/-! ## §3. One parameter. -/

theorem pointerName?_map (ts : List Token) :
    pointerName? (ts.map (onLine g))
      = (pointerName? ts).map fun p =>
          ⟨p.lead.map (onLine g), p.opening.map (onLine g), p.name.onLine g,
            p.rest.map (onLine g)⟩ := by
  fun_induction pointerName? ts with
  | case1 a b c rest hok =>
    rw [List.map_cons, List.map_cons, List.map_cons, pointerName?, isMark_onLine, isMark_onLine,
      isName_onLine, if_pos hok]
    rfl
  | case2 a b c rest hok ih =>
    rw [List.map_cons, List.map_cons] at ih
    rw [List.map_cons, List.map_cons, List.map_cons, pointerName?, isMark_onLine, isMark_onLine,
      isName_onLine, if_neg hok, ih, Option.map_map, Option.map_map]
    rfl
  | case3 ts hshort =>
    match ts with
    | [] => rfl
    | [a] => rfl
    | [a, b] => rfl
    | a :: b :: c :: rest => exact absurd rfl (hshort a b c rest)

theorem beforeBracket?_map (ts : List Token) :
    beforeBracket? (ts.map (onLine g)) = (beforeBracket? ts).map (List.map (onLine g)) := by
  induction ts with
  | nil => rfl
  | cons t ts ih =>
    rw [List.map_cons, beforeBracket?, beforeBracket?, isMark_onLine, ih]
    split <;> rfl

theorem dropBounds_map (ts : List Token) :
    dropBounds (ts.map (onLine g)) = (dropBounds ts).map (onLine g) := by
  fun_induction dropBounds ts with
  | case1 =>
    rw [List.map_nil, dropBounds]
  | case2 t rest hclose before hbefore ih =>
    rw [List.map_cons, dropBounds, isMark_onLine, if_pos hclose]
    split
    · next b hb =>
      rw [beforeBracket?_map, hbefore] at hb
      cases hb
      exact ih
    · next hb =>
      rw [beforeBracket?_map, hbefore] at hb
      cases hb
  | case3 t rest hclose hbefore =>
    rw [List.map_cons, dropBounds, isMark_onLine, if_pos hclose]
    split
    · next b hb =>
      rw [beforeBracket?_map, hbefore] at hb
      cases hb
    · rfl
  | case4 t rest hclose =>
    rw [List.map_cons, dropBounds, isMark_onLine, if_neg hclose]

theorem endsInName_map (ts : List Token) : endsInName (ts.map (onLine g)) = endsInName ts := by
  unfold endsInName
  rw [← List.map_reverse]
  -- the test looks at the last two tokens
  match ts.reverse with
  | [] => rfl
  | [a] => rfl
  | a :: b :: rest => rfl

theorem paramOf_map (group : List Token) : paramOf (group.map (onLine g)) = paramOf group := by
  unfold paramOf scanParam
  rw [pointerName?_map]
  cases pointerName? group with
  | some p =>
    dsimp only [Option.map_some]
    rw [← List.map_append, ← List.map_append, spell_map]
    rfl
  | none =>
    dsimp only [Option.map_none]
    rw [← List.map_reverse, dropBounds_map, ← List.map_reverse, endsInName_map, List.length_map,
      ← List.map_drop, ← List.map_dropLast, List.getLast?_map]
    split
    · rw [← List.map_append, spell_map, Option.map_map]
      rfl
    · rw [← List.map_append, spell_map]

theorem isEmptyList_map (groups : List (List Token)) :
    isEmptyList (groups.map (List.map (onLine g))) = isEmptyList groups := by
  -- the test looks at the first group and whether there is a second one
  match groups with
  | [] => rfl
  | [[]] => rfl
  | [[t]] => rfl
  | [t :: u :: rest] => rfl
  | [] :: b :: rest => rfl
  | [t] :: b :: rest => rfl
  | (t :: u :: more) :: b :: rest => rfl

theorem isParam_map (group : List Token) : isParam (group.map (onLine g)) = isParam group := by
  match group with
  | [] => rfl
  | [t] => rfl
  | t :: u :: rest => rfl

theorem paramGroups_map (inside : List Token) :
    paramGroups (inside.map (onLine g)) = (paramGroups inside).map (List.map (onLine g)) := by
  unfold paramGroups
  rw [splitCommas_map, isEmptyList_map]
  split
  · rfl
  · rw [List.filter_map]
    congr 2
    funext group
    exact isParam_map g group

/-! ## §4. Heads and declarations. -/

/-- A head whose tokens stand on other lines. -/
def Head.onLine (h : Head) : Head :=
  ⟨h.type.map (Token.onLine g), h.name.onLine g, h.inside.map (Token.onLine g)⟩

/-- A declaration on another line. -/
def onLine (d : Declaration) : Declaration := { d with line := g d.line }

theorem declaration_onLine (h : Head) : (h.onLine g).declaration = h.declaration.onLine g := by
  unfold Head.declaration Head.onLine onLine returnSpelling
  dsimp only
  rw [paramGroups_map, List.map_map, List.isEmpty_map, spell_map]
  congr 1
  exact List.map_congr_left fun group _ => paramOf_map g group

theorem head?_map (s : List Token) :
    head? (s.map (Token.onLine g)) = (head? s).map (Head.onLine g) := by
  unfold head?
  rw [List.span_eq_takeWhile_dropWhile, List.span_eq_takeWhile_dropWhile, List.takeWhile_map,
    List.dropWhile_map]
  have htest : ((fun t : Token => !t.isMark '(') ∘ Token.onLine g)
      = fun t : Token => !t.isMark '(' := rfl
  rw [htest]
  -- what is before the bracket is read from its end: the name, then the type
  cases s.dropWhile fun t => !t.isMark '(' with
  | nil => rfl
  | cons bracket rest =>
    rw [List.map_cons]
    dsimp only
    rw [← List.map_reverse]
    generalize (s.takeWhile fun t => !t.isMark '(').reverse = before
    match before with
    | [] => rfl
    | [a] => rfl
    | name :: t :: ts =>
      have htype : ((t.onLine g :: ts.map (Token.onLine g)).reverse.all isTypeToken)
          = (t :: ts).reverse.all isTypeToken := by
        rw [← List.map_cons, ← List.map_reverse, List.all_map]
        rfl
      rw [List.map_cons, List.map_cons]
      dsimp only
      rw [isName_onLine, htype]
      split
      · rw [upToClosing_map, Option.map_map, Option.map_map]
        congr 1
        funext inside
        have hkeep : (t.onLine g :: ts.map (Token.onLine g)).reverse.filter (!·.isSpecifier)
            = ((t :: ts).reverse.filter (!·.isSpecifier)).map (Token.onLine g) := by
          rw [← List.map_cons, ← List.map_reverse, List.filter_map]
          rfl
        show Head.mk _ _ _ = Head.mk _ _ _
        rw [hkeep]
      · rfl

theorem headOf?_map (s : List Token) :
    headOf? (s.map (Token.onLine g)) = (headOf? s).map (Head.onLine g) := by
  have htypedef : isTypedef (s.map (Token.onLine g)) = isTypedef s := by cases s <;> rfl
  unfold headOf?
  rw [htypedef, head?_map]
  split <;> rfl

/-- **Tokens on other lines declare the same**, on other lines. -/
theorem declared_map (ts : List Token) :
    declared (ts.map (Token.onLine g)) = (declared ts).map (onLine g) := by
  unfold declared
  rw [statements_map, List.filterMap_map, List.map_map]
  have hhead : headOf? ∘ List.map (Token.onLine g) = fun s => (headOf? s).map (Head.onLine g) :=
    funext fun s => headOf?_map g s
  rw [hhead, ← List.map_filterMap, List.map_map]
  exact List.map_congr_left fun h _ => declaration_onLine g h

/-! ## §5. Names used as types. -/

theorem typeNames_map (afterTag : Bool) (ts : List Token) :
    typeNames afterTag (ts.map (Token.onLine g)) = (typeNames afterTag ts).map (Token.onLine g) := by
  induction ts generalizing afterTag with
  | nil => rfl
  | cons t ts ih =>
    rw [List.map_cons, typeNames, typeNames, isName_onLine, isTagWord_onLine, ih]
    split <;> rfl

theorem typeTokens_map (group : List Token) :
    typeTokens (group.map (Token.onLine g)) = (typeTokens group).map (Token.onLine g) := by
  unfold typeTokens
  rw [pointerName?_map]
  cases pointerName? group with
  | some p => rfl
  | none =>
    dsimp only [Option.map_none]
    rw [← List.map_reverse, dropBounds_map, ← List.map_reverse, endsInName_map]
    split
    · rw [List.map_dropLast]
    · rfl

theorem uses_onLine (h : Head) : (h.onLine g).uses = h.uses.map (Token.onLine g) := by
  have hgroup : ∀ group : List Token,
      typeNames false (typeTokens (group.map (Token.onLine g)))
        = (typeNames false (typeTokens group)).map (Token.onLine g) := by
    intro group
    rw [typeTokens_map, typeNames_map]
  unfold Head.uses Head.onLine
  dsimp only
  rw [typeNames_map, paramGroups_map, List.flatMap_map, List.map_append, List.map_flatMap]
  congr 1
  exact List.flatMap_congr fun group _ => hgroup group

/-- **Tokens on other lines use the same types.** -/
theorem uses_map (s : List Token) :
    uses (s.map (Token.onLine g)) = (uses s).map (Token.onLine g) := by
  unfold uses
  rw [headOf?_map]
  cases headOf? s with
  | none => rfl
  | some h => exact uses_onLine g h

theorem typedefName?_map (s : List Token) :
    typedefName? (s.map (Token.onLine g)) = typedefName? s := by
  unfold typedefName?
  rw [pointerName?_map]
  cases pointerName? s with
  | some p => rfl
  | none =>
    dsimp only [Option.map_none]
    rw [← List.map_reverse, List.find?_map, Option.map_map]
    rfl

/-- **Tokens on other lines define the same types.** -/
theorem typedefNames_map (ss : List (List Token)) :
    typedefNames (ss.map (List.map (Token.onLine g))) = typedefNames ss := by
  have htest : isTypedef ∘ List.map (Token.onLine g) = isTypedef := by
    funext s
    cases s <;> rfl
  unfold typedefNames
  rw [List.filter_map, htest, List.filterMap_map]
  exact List.filterMap_congr fun s _ => typedefName?_map g s

end Declaration
end DocAudit
