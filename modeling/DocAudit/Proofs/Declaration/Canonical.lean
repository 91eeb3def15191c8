/-
  DocAudit.Proofs.Declaration.Canonical
  ─────────────────────────────────────
  **A SPELLING SAYS THE TOKENS OF A TYPE, AND NOTHING ELSE.**

  The spelling of a type is one of the texts that lay its tokens out, and it is the same
  one whatever text they were read from:

      tokens of spell ts, without lines  =  ts, without lines        (`map_bare_ofText_spell`)
      spell ts = spell us   ↔   ts and us agree, lines left aside    (`spell_eq_iff`)

  What a declaration says of its types therefore hangs on their tokens alone.  Texts that
  differ in what stands between tokens declare the same (`map_declarations_of_respaced`),
  and two declarations whose types differ in nothing else have the same types
  (`types_eq_of_alike`).
-/
import DocAudit.Proofs.Declaration.Grammar
import DocAudit.Proofs.Declaration.Param

namespace DocAudit

/-! ## §1. Runs of type tokens. -/

namespace Token

/-- A run of the tokens that types consist of: words, numbers and the marks `* ( ) [ ] ,`,
each of them as the lexer reads it in some text. -/
def IsTypeRun (ts : List Token) : Prop :=
  ∀ t ∈ ts, t.isTypePart = true ∧ ∃ s : Text, t ∈ ofText s

theorem IsTypeRun.isLexeme {ts : List Token} (h : IsTypeRun ts) : ∀ t ∈ ts, t.isLexeme = true := by
  intro t ht
  obtain ⟨hpart, s, hs⟩ := h t ht
  exact isLexeme_of_mem hs hpart

/-- **A spelling is read back as its tokens.**  No two of them run together, and none is
split or lost. -/
theorem map_bare_ofText_spell {ts : List Token} (h : IsTypeRun ts) :
    (ofText (spell ts)).map bare = ts.map bare :=
  (written_spell h.isLexeme).map_bare_tokensFrom 1

/-- **One spelling, one run of tokens.** -/
theorem spell_eq_iff {ts us : List Token} (hts : IsTypeRun ts) (hus : IsTypeRun us) :
    spell ts = spell us ↔ ts.map bare = us.map bare := by
  constructor
  · intro heq
    rw [← map_bare_ofText_spell hts, heq, map_bare_ofText_spell hus]
  · intro heq
    exact spell_of_map_bare heq

/-- Two runs of tokens that are laid out by texts which differ between tokens only. -/
def Alike (ts us : List Token) : Prop := ∃ a b : Text, Laid ts a ∧ Laid us b ∧ Respaced a b

theorem Alike.map_bare_eq {ts us : List Token} (h : Alike ts us) : ts.map bare = us.map bare := by
  obtain ⟨a, b, ha, hb, hab⟩ := h
  rw [← laid_iff.1 ha, respaced_iff.1 hab, laid_iff.1 hb]

theorem alike_of_laid {ts us : List Token} {a b : Text} (ha : Laid ts a) (hb : Laid us b)
    (h : ts.map bare = us.map bare) : Alike ts us := by
  refine ⟨a, b, ha, hb, respaced_iff.2 ?_⟩
  rw [laid_iff.1 ha, h, laid_iff.1 hb]

end Token

/-! ## §2. Declarations and their types. -/

namespace Declaration

open Token

/-- **Texts that differ between tokens only declare the same**, on other lines. -/
theorem map_declarations_of_respaced {a b : Text} (h : Respaced a b) :
    (scan a).declarations.map (onLine fun _ => 0)
      = (scan b).declarations.map (onLine fun _ => 0) := by
  have hbare : ∀ t : Text,
      (scan t).declarations.map (onLine fun _ => 0) = declared ((ofText t).map bare) := by
    intro t
    rw [declarations_scan]
    exact (declared_map (fun _ => 0) (ofText t)).symm
  rw [hbare a, hbare b, respaced_iff.1 h]

/-- The statements of a text that declare functions, taken apart. -/
def heads (t : Text) : List Head := (statements (ofText t)).filterMap headOf?

/-- The tokens that the types of a declaration are spelled from: those of the return
type, and those of each parameter. -/
def Head.typeRuns (h : Head) : List (List Token) := h.type :: (paramGroups h.inside).map typeRun

/-- The types of a declaration: the return type, and that of each parameter. -/
def types (d : Declaration) : List Text := d.returnType :: d.params.map Prod.fst

theorem types_declaration (h : Head) :
    h.declaration.types
      = returnSpelling h.type :: ((paramGroups h.inside).map typeRun).map spell := by
  have hparams : h.declaration.params.map Prod.fst
      = ((paramGroups h.inside).map typeRun).map spell := by
    show ((paramGroups h.inside).map paramOf).map Prod.fst = _
    rw [List.map_map, List.map_map]
    exact List.map_congr_left fun g _ => fst_paramOf g
  show h.declaration.returnType :: h.declaration.params.map Prod.fst = _
  rw [hparams]
  rfl

/-- The same tokens on other lines are the same return type. -/
theorem returnSpelling_of_map_bare {ts us : List Token} (h : ts.map bare = us.map bare) :
    returnSpelling ts = returnSpelling us := by
  have hempty : ts.isEmpty = us.isEmpty := by
    have hbare := congrArg List.isEmpty h
    rwa [List.isEmpty_map, List.isEmpty_map] at hbare
  unfold returnSpelling
  rw [hempty, spell_of_map_bare h]

/-- **Types that differ between tokens only have one spelling**, whatever else the
declarations say. -/
theorem types_eq_of_alike {h k : Head} (halike : List.Forall₂ Alike h.typeRuns k.typeRuns) :
    h.declaration.types = k.declaration.types := by
  obtain ⟨hreturn, hparams⟩ := List.forall₂_cons.1 halike
  have hspell : List.Forall₂ (fun ts us => spell ts = spell us) ((paramGroups h.inside).map typeRun)
      ((paramGroups k.inside).map typeRun) :=
    hparams.imp fun _ _ hrun => spell_of_map_bare hrun.map_bare_eq
  have hlist : ((paramGroups h.inside).map typeRun).map spell
      = ((paramGroups k.inside).map typeRun).map spell := by
    rw [← List.forall₂_eq_eq_eq, List.forall₂_map_left_iff, List.forall₂_map_right_iff]
    exact hspell
  rw [types_declaration, types_declaration, returnSpelling_of_map_bare hreturn.map_bare_eq, hlist]

/-- **SPELLINGS ARE FAITHFUL AND CANONICAL.**  A spelling is read back as the tokens that
it spells, so two runs of type tokens are spelled alike just if they are the same, lines
left aside.  Texts that differ between tokens only declare the same, on other lines.  And
of all that two texts declare, wherever it stands and whatever its name, types that differ
between tokens only are spelled alike. -/
theorem spelling_is_canonical :
    (∀ ts : List Token, IsTypeRun ts → (ofText (spell ts)).map bare = ts.map bare)
      ∧ (∀ ts us : List Token, IsTypeRun ts → IsTypeRun us →
          (spell ts = spell us ↔ ts.map bare = us.map bare))
      ∧ (∀ a b : Text, Respaced a b →
          (scan a).declarations.map (onLine fun _ => 0)
            = (scan b).declarations.map (onLine fun _ => 0))
      ∧ (∀ t : Text, (scan t).declarations = (heads t).map Head.declaration)
      ∧ ∀ a b : Text, ∀ h ∈ heads a, ∀ k ∈ heads b, List.Forall₂ Alike h.typeRuns k.typeRuns →
          h.declaration.types = k.declaration.types := by
  refine ⟨fun ts => map_bare_ofText_spell, fun ts us => spell_eq_iff,
    fun a b => map_declarations_of_respaced, declarations_scan, ?_⟩
  intro a b h _ k _ halike
  exact types_eq_of_alike halike

/-- A function pointer type in two layouts, a declaration in two layouts, and another function
with the same types in a third one, with a comment and a directive between their tokens. -/
theorem spelling_is_canonical_fry :
    let cook := "int (*)(int, char *[2])".toList
    let stir := "int(*) (int,char/* */*\n[2])".toList
    let a := "char *fry(int (*cook)(int));".toList
    let b := "char*fry ( int(*cook)(\n#line 7\nint));".toList
    let c := "char// hot\n*boil(int(*stir)(int/**/) );".toList
    IsTypeRun (ofText cook) ∧ IsTypeRun (ofText stir)
      ∧ (ofText (spell (ofText stir))).map bare = (ofText stir).map bare
      ∧ spell (ofText stir) = spell (ofText cook) ∧ Respaced a b
      ∧ (scan a).declarations.map (onLine fun _ => 0)
        = (scan b).declarations.map (onLine fun _ => 0)
      ∧ ∃ h ∈ heads a, ∃ k ∈ heads c, List.Forall₂ Alike h.typeRuns k.typeRuns
        ∧ h.declaration.types = k.declaration.types
        ∧ k.declaration.types = ["char *".toList, "int (*)(int)".toList] := by
  intro cook stir a b c
  have hrun : ∀ t : Text, (∀ u ∈ ofText t, u.isTypePart = true) → IsTypeRun (ofText t) := by
    intro t hpart u hu
    exact ⟨hpart u hu, t, hu⟩
  have hcook : IsTypeRun (ofText cook) := hrun cook (by decide +kernel)
  have hstir : IsTypeRun (ofText stir) := hrun stir (by decide +kernel)
  have hspaced : Respaced a b := respaced_iff.2 (by decide +kernel)
  let word (w : String) (line : Nat) : Token := ⟨.word, w.toList, line⟩
  let mark (m : Char) (line : Nat) : Token := ⟨.mark, [m], line⟩
  let pointer (name : List Token) (line : Nat) : List Token :=
    [word "int" line, mark '(' line, mark '*' line] ++ name
      ++ [mark ')' line, mark '(' line, word "int" line, mark ')' line]
  let h : Head := ⟨[word "char" 1, mark '*' 1], word "fry" 1, pointer [word "cook" 1] 1⟩
  let k : Head := ⟨[word "char" 1, mark '*' 2], word "boil" 2, pointer [word "stir" 2] 2⟩
  have hheads : heads a = [h] ∧ heads c = [k] := by
    have htokens : ofText a = h.type ++ h.name :: mark '(' 1 :: h.inside ++ [mark ')' 1, mark ';' 1]
        ∧ ofText c = k.type ++ k.name :: mark '(' 2 :: k.inside ++ [mark ')' 2, mark ';' 2] := by
      constructor <;> decide +kernel
    unfold heads
    rw [htokens.1, htokens.2]
    exact ⟨rfl, rfl⟩
  have hh : h ∈ heads a := by
    rw [hheads.1]
    exact List.mem_singleton_self h
  have hk : k ∈ heads c := by
    rw [hheads.2]
    exact List.mem_singleton_self k
  have halike : List.Forall₂ Alike h.typeRuns k.typeRuns := by
    have hruns : h.typeRuns = [h.type, pointer [] 1] ∧ k.typeRuns = [k.type, pointer [] 2] := by
      constructor <;> decide +kernel
    rw [hruns.1, hruns.2]
    refine .cons ?_ (.cons ?_ .nil)
    · exact alike_of_laid (laid_iff (a := "char *".toList).2 (by decide +kernel))
        (laid_iff (a := "char// hot\n*".toList).2 (by decide +kernel)) rfl
    · exact alike_of_laid (laid_iff (a := "int (*)(int)".toList).2 (by decide +kernel))
        (laid_iff (a := "int(*)(int/**/)".toList).2 (by decide +kernel)) rfl
  obtain ⟨hread, hsame, hrespaced, -, htypes⟩ := spelling_is_canonical
  exact ⟨hcook, hstir, hread _ hstir, (hsame _ _ hstir hcook).2 (by decide +kernel), hspaced,
    hrespaced a b hspaced, h, hh, k, hk, halike, htypes a c h hh k hk halike, by decide +kernel⟩

end Declaration
end DocAudit
