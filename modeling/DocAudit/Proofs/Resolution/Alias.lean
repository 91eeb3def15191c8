/-
  DocAudit.Proofs.Resolution.Alias
  ────────────────────────────────
  **ALIASES DEFINE THEIR NAMES AND DO NOTHING ELSE.**

  The aliases of a skeleton stand in front of its first line.  Each of them is lexed
  on its own and is a statement of its own, whatever the line begins with:

      statements (aliases, lines)   = one definition for each alias, then the
                                      statements of the lines, on their lines
      typedefNames (aliases, lines) = the aliases, then the names the lines define

  An alias is an identifier and no keyword, since nothing else is ever reported.
-/
import DocAudit.Skeleton.Basic
import DocAudit.Proofs.Declaration.Head
import DocAudit.Proofs.Declaration.Lexeme

namespace DocAudit

open Token

/-! ## §1. Lexing an alias. -/

namespace Skeleton

/-- The pieces of an alias. -/
def aliasPieces (name : Text) : List Piece :=
  [.token .word typedefWord, .gap [' '], .token .word "int".toList, .gap [' '],
    .token .word name, .token .mark [';']]

/-- The statement that an alias is. -/
def aliasStatement (name : Text) : List Token :=
  [⟨.word, typedefWord, 1⟩, ⟨.word, "int".toList, 1⟩, ⟨.word, name, 1⟩]

/-- **An alias is lexed on its own**, whatever follows it. -/
theorem pieces_aliasText {name : Text} (h : Text.isIdentifier name = true) (b : Text) :
    Piece.pieces (aliasText name ++ b) = aliasPieces name ++ Piece.pieces b := by
  have hsplit : aliasText name ++ b
      = typedefWord ++ ' ' :: ("int".toList ++ ' ' :: (name ++ ';' :: b)) := by
    unfold aliasText
    rw [List.append_assoc, List.append_assoc]
    rfl
  have hmark : ∀ r, Piece.pieces (';' :: r) = .token .mark [';'] :: Piece.pieces r := by
    intro r
    rw [Piece.pieces_cons]
    rfl
  -- each word stands before a character that cannot continue it
  rw [hsplit, Piece.pieces_word (by decide) (by decide), Piece.pieces_blank (by decide),
    Piece.pieces_word (by decide) (by decide), Piece.pieces_blank (by decide),
    Piece.pieces_word h (by decide), hmark]
  rfl

theorem newlines_name {name : Text} (h : Text.isIdentifier name = true) :
    Text.newlines name = 0 :=
  List.count_eq_zero.2 (Text.not_mem_of_isIdentifier h (by decide))

/-- **An alias is a statement of its own**, and moves no token. -/
theorem ofText_aliasText {name : Text} (h : Text.isIdentifier name = true) (b : Text) :
    Token.ofText (aliasText name ++ b)
      = aliasStatement name ++ ⟨.mark, [';'], 1⟩ :: Token.ofText b := by
  unfold Token.ofText
  rw [pieces_aliasText h]
  have hname := newlines_name h
  have htypedef : Text.newlines typedefWord = 0 := by decide
  have hint : Text.newlines "int".toList = 0 := by decide
  have hblank : Text.newlines [' '] = 0 := by decide
  have hend : Text.newlines [';'] = 0 := by decide
  simp only [aliasPieces, aliasStatement, List.cons_append, List.nil_append, Piece.tokensFrom,
    hname, htypedef, hint, hblank, hend, Nat.add_zero]

end Skeleton

/-! ## §2. The statements of aliased text. -/

namespace Declaration

theorem statements_aliasText {name : Text} (h : Text.isIdentifier name = true) (b : Text) :
    statements (Token.ofText (Skeleton.aliasText name ++ b))
      = Skeleton.aliasStatement name :: statements (Token.ofText b) := by
  -- the first token that ends a statement is the mark behind the name
  have hwords : ∀ t ∈ Skeleton.aliasStatement name, endsStatement t = false := by
    intro t ht
    have hkind : t.kind = .word := by
      simp only [Skeleton.aliasStatement, List.mem_cons, List.not_mem_nil, or_false] at ht
      rcases ht with rfl | rfl | rfl <;> rfl
    unfold endsStatement isMark
    rw [hkind]
    rfl
  unfold statements
  rw [Skeleton.ofText_aliasText h, Text.splitWhere_append_cons hwords (by decide)]
  rfl

/-- **The aliases are statements in front of all others.** -/
theorem statements_aliases {names : List Text} (h : ∀ n ∈ names, Text.isIdentifier n = true)
    (b : Text) :
    statements (Token.ofText (names.flatMap Skeleton.aliasText ++ b))
      = names.map Skeleton.aliasStatement ++ statements (Token.ofText b) := by
  induction names with
  | nil => rfl
  | cons name names ih =>
    rw [List.flatMap_cons, List.append_assoc, statements_aliasText (h name List.mem_cons_self),
      ih fun n hn => h n (List.mem_cons_of_mem _ hn)]
    rfl

theorem typedefName?_aliasStatement {name : Text} (h : isKeyword name = false) :
    typedefName? (Skeleton.aliasStatement name) = some name := by
  have hlast : isName ⟨.word, name, 1⟩ = true := by
    unfold isName
    rw [h]
    rfl
  -- a definition is named by its last name, and the alias comes last
  have hpointer : pointerName? (Skeleton.aliasStatement name) = none := rfl
  unfold typedefName?
  rw [hpointer]
  show ((List.find? isName (Skeleton.aliasStatement name).reverse).map Token.text) = some name
  have hrev : (Skeleton.aliasStatement name).reverse
      = ⟨.word, name, 1⟩ :: (Skeleton.aliasStatement name).reverse.tail := rfl
  rw [hrev, List.find?_cons_of_pos hlast]
  rfl

/-- **The aliases are the first names defined.** -/
theorem typedefNames_aliases {names : List Text} (h : ∀ n ∈ names, isKeyword n = false)
    (ss : List (List Token)) :
    typedefNames (names.map Skeleton.aliasStatement ++ ss) = names ++ typedefNames ss := by
  induction names with
  | nil => rfl
  | cons name names ih =>
    have htypedef : isTypedef (Skeleton.aliasStatement name) = true := by rfl
    unfold typedefNames at ih ⊢
    rw [List.map_cons, List.cons_append, List.filter_cons_of_pos htypedef,
      List.filterMap_cons_some (typedefName?_aliasStatement (h name List.mem_cons_self)),
      ih fun n hn => h n (List.mem_cons_of_mem _ hn)]
    rfl

theorem headOf?_aliasStatement (name : Text) : headOf? (Skeleton.aliasStatement name) = none := rfl

/-- Aliases declare nothing. -/
theorem filterMap_headOf?_aliases (names : List Text) (ss : List (List Token)) :
    (names.map Skeleton.aliasStatement ++ ss).filterMap headOf? = ss.filterMap headOf? := by
  rw [List.filterMap_append, List.filterMap_map]
  have hnone : names.filterMap (headOf? ∘ Skeleton.aliasStatement) = [] :=
    List.filterMap_eq_nil_iff.2 fun n _ => headOf?_aliasStatement n
  rw [hnone, List.nil_append]

/-- Aliases use no type. -/
theorem flatMap_uses_aliases (names : List Text) (ss : List (List Token)) :
    (names.map Skeleton.aliasStatement ++ ss).flatMap uses = ss.flatMap uses := by
  rw [List.flatMap_append, List.flatMap_map]
  have hnone : names.flatMap (fun n => uses (Skeleton.aliasStatement n)) = [] :=
    List.flatMap_eq_nil_iff.2 fun n _ => rfl
  rw [hnone, List.nil_append]

end Declaration
end DocAudit
