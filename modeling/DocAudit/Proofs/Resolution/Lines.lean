/-
  DocAudit.Proofs.Resolution.Lines
  ────────────────────────────────
  **THE LINE OF A DECLARATION IS A LINE OF THE SOURCE.**

  A declaration carries the line of its name token, which is the number of line feeds
  that the lexer has passed.  Neither the aliases in front of the first line nor the
  comment marks add a line feed, so

      the line exists, the name stands in it, outside all braces,

  and since tokens come in the order of their lines, so do declarations.
-/
import DocAudit.Proofs.Resolution.Settling
import DocAudit.Proofs.Skeleton.Stub

namespace DocAudit

/-! ## §1. The name token of a declaration. -/

namespace Declaration

/-- The token that names what a statement declares, if it declares something. -/
def nameToken? (s : List Token) : Option Token := (headOf? s).map Head.name

theorem mem_of_nameToken? {s : List Token} {t : Token} (h : nameToken? s = some t) :
    t ∈ s ∧ t.isName = true := by
  obtain ⟨d, hd, rfl⟩ := Option.map_eq_some_iff.1 h
  exact (mem_of_headOf? hd).1

/-- Members picked one from each list stand in the order of the lists. -/
theorem filterMap_sublist_flatten {α : Type} {f : List α → Option α}
    (h : ∀ s a, f s = some a → a ∈ s) (ss : List (List α)) :
    (ss.filterMap f).Sublist ss.flatten := by
  induction ss with
  | nil => exact List.Sublist.refl _
  | cons s ss ih =>
    rw [List.flatten_cons]
    cases hf : f s with
    | none =>
      rw [List.filterMap_cons_none hf]
      exact ih.trans (List.sublist_append_right s ss.flatten)
    | some a =>
      rw [List.filterMap_cons_some hf]
      exact (List.singleton_sublist.2 (h s a hf)).append ih

theorem nameTokens_sublist (t : Text) :
    ((statements (Token.ofText t)).filterMap nameToken?).Sublist (Token.ofText t) :=
  (filterMap_sublist_flatten (fun _ _ h => (mem_of_nameToken? h).1) _).trans
    (flatten_statements_sublist _)

/-- **Names and lines of declarations** are those of their name tokens. -/
theorem map_declarations_scan (t : Text) :
    (scan t).declarations.map (fun d => (d.name, d.line))
      = ((statements (Token.ofText t)).filterMap nameToken?).map fun u => (u.text, u.line) := by
  have hname : nameToken? = fun s => (headOf? s).map Head.name := rfl
  rw [declarations_scan, declared, List.map_map, hname, ← List.map_filterMap, List.map_map]
  rfl

/-- A declaration is named by a token of the text that is a name. -/
theorem exists_nameToken {t : Text} {d : Declaration} (h : d ∈ (scan t).declarations) :
    ∃ u ∈ Token.ofText t, u.isName = true ∧ d.name = u.text ∧ d.line = u.line := by
  have hmem : (d.name, d.line) ∈ (scan t).declarations.map fun d => (d.name, d.line) :=
    List.mem_map.2 ⟨d, h, rfl⟩
  rw [map_declarations_scan] at hmem
  obtain ⟨u, hu, heq⟩ := List.mem_map.1 hmem
  obtain ⟨s, _, hs⟩ := List.mem_filterMap.1 hu
  rw [Prod.mk.injEq] at heq
  exact ⟨u, (nameTokens_sublist t).subset hu, (mem_of_nameToken? hs).2, heq.1.symm, heq.2.symm⟩

/-- **Names of declarations are identifiers.** -/
theorem isIdentifier_name {t : Text} {d : Declaration} (h : d ∈ (scan t).declarations) :
    Text.isIdentifier d.name = true := by
  obtain ⟨u, hu, hname, htext, _⟩ := exists_nameToken h
  rw [htext]
  exact (Piece.isIdentifier_of_isName hu hname).1

/-- **Declarations come in the order of their lines.** -/
theorem pairwise_line_declarations (t : Text) :
    (scan t).declarations.Pairwise fun d e => d.line ≤ e.line := by
  -- name tokens are tokens, in their order
  have htokens : ((statements (Token.ofText t)).filterMap nameToken?).Pairwise
      fun u v => u.line ≤ v.line := (Piece.pairwise_line 1 _).sublist (nameTokens_sublist t)
  have hlines : (((scan t).declarations.map fun d => (d.name, d.line)).map Prod.snd).Pairwise
      (· ≤ ·) := by
    rw [map_declarations_scan, List.map_map, List.pairwise_map]
    exact htokens
  rwa [List.map_map, List.pairwise_map] at hlines

end Declaration

/-! ## §2. Its place in the skeleton and in the source. -/

namespace Skeleton

theorem text_ofSource (source : Text) :
    (ofSource source).text = (stubFrom 0 (Text.lines source)).flatMap Text.line := rfl

/-- **A word token of a skeleton** stands in the source, on the token's line and
outside all braces. -/
theorem standsOutside_of_mem {source : Text} {u : Token}
    (hu : u ∈ Token.ofText (ofSource source).text) (hw : Text.isIdentifier u.text = true) :
    1 ≤ u.line ∧ u.line ≤ (Text.lines source).length
      ∧ ∃ l, (Text.lines source)[u.line - 1]? = some l ∧ isInclude l = false
        ∧ StandsOutside (depthAfterLines 0 ((Text.lines source).take (u.line - 1))) l u.text := by
  obtain ⟨before, after, htext, hline⟩ := Piece.mem_tokensFrom hu
  rw [Piece.pieces_text, text_ofSource] at htext
  have hfeeds : ∀ out ∈ stubFrom 0 (Text.lines source), '\n' ∉ out :=
    fun out hout => not_mem_of_mem_stubFrom (fun l hl => Text.not_mem_of_mem_lines hl) hout
  -- the token lies within one line of the skeleton, which stands for the same line of the source
  obtain ⟨out, x, y, hget, hout⟩ := Text.exists_line_of_split hfeeds htext
    (Text.not_mem_of_isIdentifier hw (by decide)) (Text.ne_nil_of_isIdentifier hw)
  obtain ⟨l, hl, hstub⟩ := getElem?_stubFrom hget
  obtain ⟨hinclude, hstands⟩ := standsOutside_of_stubLine (hstub.symm.trans hout) hw
  have hindex : u.line - 1 = Text.newlines before := by omega
  have hbound : Text.newlines before < (Text.lines source).length := by
    obtain ⟨hlt, _⟩ := List.getElem?_eq_some_iff.1 hl
    exact hlt
  refine ⟨by omega, by omega, l, ?_⟩
  rw [hindex]
  exact ⟨hl, hinclude, hstands⟩

end Skeleton

/-! ## §3. The declarations of a source. -/

namespace Resolution

/-- **A declaration stands on its line**: the name is found there, with no brace open. -/
theorem stands_of_mem {source : Text} {d : Declaration}
    (hd : d ∈ (ofSource source).outline.declarations) :
    1 ≤ d.line ∧ d.line ≤ (Text.lines source).length
      ∧ ∃ l, (Text.lines source)[d.line - 1]? = some l ∧ Skeleton.isInclude l = false
        ∧ Text.isIdentifier d.name = true
        ∧ Skeleton.StandsOutside
            (Skeleton.depthAfterLines 0 ((Text.lines source).take (d.line - 1))) l d.name := by
  rw [declarations_ofSource] at hd
  have hname := Declaration.isIdentifier_name hd
  obtain ⟨u, hu, _, htext, hline⟩ := Declaration.exists_nameToken hd
  have hword : Text.isIdentifier u.text = true := htext ▸ hname
  obtain ⟨hlow, hhigh, l, hl, hinclude, hstands⟩ := Skeleton.standsOutside_of_mem hu hword
  rw [hline]
  refine ⟨hlow, hhigh, l, hl, hinclude, hname, ?_⟩
  rw [htext]
  exact hstands

/-- **THE LINE OF A DECLARATION IS A LINE OF THE SOURCE**: it exists, it is no include
directive, the name stands in it with no brace open, and declarations come in the
order of their lines. -/
theorem declarations_stand_on_their_lines (source : Text) :
    (∀ d ∈ (ofSource source).outline.declarations,
        1 ≤ d.line ∧ d.line ≤ (Text.lines source).length
          ∧ ∃ l, (Text.lines source)[d.line - 1]? = some l ∧ Skeleton.isInclude l = false
            ∧ Text.isIdentifier d.name = true
            ∧ Skeleton.StandsOutside
                (Skeleton.depthAfterLines 0 ((Text.lines source).take (d.line - 1))) l d.name)
      ∧ (ofSource source).outline.declarations.Pairwise fun d e => d.line ≤ e.line := by
  refine ⟨fun d hd => stands_of_mem hd, ?_⟩
  rw [declarations_ofSource]
  exact Declaration.pairwise_line_declarations _

/-- The name of a declaration that begins on the line before. -/
theorem declarations_stand_on_their_lines_broken :
    (⟨"fry".toList, 3, "int".toList, [("int".toList, "egg".toList)]⟩ : Declaration)
        ∈ (ofSource "int a;\nint\nfry(int egg);\n".toList).outline.declarations
      ∧ (Text.lines "int a;\nint\nfry(int egg);\n".toList)[2]? = some "fry(int egg);".toList
      ∧ 3 ≤ (Text.lines "int a;\nint\nfry(int egg);\n".toList).length := by
  have hmem : (⟨"fry".toList, 3, "int".toList, [("int".toList, "egg".toList)]⟩ : Declaration)
      ∈ (ofSource "int a;\nint\nfry(int egg);\n".toList).outline.declarations := by
    decide +kernel
  have hline := (declarations_stand_on_their_lines "int a;\nint\nfry(int egg);\n".toList).1 _ hmem
  exact ⟨hmem, rfl, hline.2.1⟩

end Resolution
end DocAudit
