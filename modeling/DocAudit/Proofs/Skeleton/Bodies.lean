/-
  DocAudit.Proofs.Skeleton.Bodies
  ───────────────────────────────
  **WHAT STANDS INSIDE BRACES DOES NOT COUNT.**

  Two files are alike outside their bodies if they agree character by character, except
  for what no skeleton shows:

      inside braces      any characters, as long as the braces are the same
      include directive  any characters, as long as it is one in both files

  The depth is then the same everywhere, and whatever differs is blanked.  So the two
  files have one skeleton, and every provider resolves them alike (`bodies_do_not_count`).
-/
import Mathlib.Tactic.MkIffOfInductiveProp
import DocAudit.Resolution
import DocAudit.Proofs.Skeleton.Block

namespace DocAudit.Skeleton

/-! ## §1. Alike outside bodies. -/

/-- The characters that open and close bodies. -/
def braces : Text := ['\x7b', '\x7d']

/-- Two characters that are read at the same depth may differ if a brace is open there and
neither is a brace. -/
def AlikeChar (depth : Nat) (c d : Char) : Prop := c ≠ d → 0 < depth ∧ c ∉ braces ∧ d ∉ braces

instance (depth : Nat) (c d : Char) : Decidable (AlikeChar depth c d) :=
  inferInstanceAs (Decidable (c ≠ d → _))

/-- Two lines that begin at the same depth are alike outside bodies. -/
@[mk_iff]
structure AlikeLine (depth : Nat) (a b : Text) : Prop where
  /-- They are equally long. -/
  sameLength : a.length = b.length
  /-- Both are include directives, or neither is. -/
  sameInclude : isInclude a = isInclude b
  /-- They differ inside bodies only. -/
  inBody : isInclude a = false → ∀ j < a.length, ∀ c ∈ a[j]?, ∀ d ∈ b[j]?,
    AlikeChar (depthOver depth (a.take j)) c d

instance (depth : Nat) (a b : Text) : Decidable (AlikeLine depth a b) :=
  decidable_of_iff' _ (alikeLine_iff depth a b)

/-- Two runs of lines that begin at the same depth are alike outside bodies. -/
@[mk_iff]
structure AlikeOutside (depth : Nat) (as bs : List Text) : Prop where
  /-- There are equally many lines. -/
  sameCount : as.length = bs.length
  /-- Lines of the same number are alike. -/
  alike : ∀ i < as.length, ∀ a ∈ as[i]?, ∀ b ∈ bs[i]?,
    AlikeLine (depthAfterLines depth (as.take i)) a b

instance (depth : Nat) (as bs : List Text) : Decidable (AlikeOutside depth as bs) :=
  decidable_of_iff' _ (alikeOutside_iff depth as bs)

/-! ## §2. They look alike. -/

/-- **Characters that are alike look alike** and leave the same depth. -/
theorem AlikeChar.blanked_eq {depth : Nat} {c d : Char} (h : AlikeChar depth c d)
    (hc : '\n' ≠ c) (hd : '\n' ≠ d) :
    blanked depth c = blanked depth d ∧ depthAfter depth c = depthAfter depth d := by
  by_cases hsame : c = d
  · rw [hsame]
    exact ⟨rfl, rfl⟩
  · -- inside braces everything but a brace becomes a space
    obtain ⟨hdepth, hcbrace, hdbrace⟩ := h hsame
    simp only [braces, List.mem_cons, List.not_mem_nil, or_false, not_or] at hcbrace hdbrace
    constructor
    · rw [blanked_inside hdepth hc, blanked_inside hdepth hd]
    · rw [depthAfter_of_ne depth (Ne.symm hcbrace.1) (Ne.symm hcbrace.2),
        depthAfter_of_ne depth (Ne.symm hdbrace.1) (Ne.symm hdbrace.2)]

/-- **Texts that differ inside bodies only** are blanked to the same text, and end at the
same depth. -/
theorem blankLine_congr {depth : Nat} {a b : Text} (hlength : a.length = b.length)
    (ha : '\n' ∉ a) (hb : '\n' ∉ b)
    (h : ∀ j < a.length, ∀ c ∈ a[j]?, ∀ d ∈ b[j]?, AlikeChar (depthOver depth (a.take j)) c d) :
    blankLine depth a = blankLine depth b ∧ depthOver depth a = depthOver depth b := by
  induction a generalizing depth b with
  | nil =>
    cases b with
    | nil => exact ⟨rfl, rfl⟩
    | cons d b => simp at hlength
  | cons c a ih =>
    cases b with
    | nil => simp at hlength
    | cons d b =>
      rw [List.mem_cons, not_or] at ha hb
      have hchar : AlikeChar depth c d := h 0 (Nat.succ_pos _) c rfl d rfl
      obtain ⟨hblank, hdepth⟩ := hchar.blanked_eq ha.1 hb.1
      -- the rest is begun at the depth behind the first character
      have hrest : blankLine (depthAfter depth c) a = blankLine (depthAfter depth c) b
          ∧ depthOver (depthAfter depth c) a = depthOver (depthAfter depth c) b := by
        refine ih (by simpa using hlength) ha.2 hb.2 fun j hj x hx y hy => ?_
        exact h (j + 1) (Nat.succ_lt_succ hj) x hx y hy
      constructor
      · show blanked depth c :: blankLine (depthAfter depth c) a
          = blanked depth d :: blankLine (depthAfter depth d) b
        rw [hrest.1, hblank, hdepth]
      · show depthOver (depthAfter depth c) a = depthOver (depthAfter depth d) b
        rw [hrest.2, hdepth]

/-- **Lines that are alike have one skeleton**, and end at the same depth. -/
theorem AlikeLine.stubLine_eq {depth : Nat} {a b : Text} (h : AlikeLine depth a b)
    (ha : '\n' ∉ a) (hb : '\n' ∉ b) :
    stubLine depth a = stubLine depth b ∧ depthAfterLine depth a = depthAfterLine depth b := by
  unfold stubLine depthAfterLine
  rw [← h.sameInclude]
  cases hinclude : isInclude a with
  | true => exact ⟨rfl, rfl⟩
  | false =>
    -- whether a line is commented out is seen from its blanking alone
    obtain ⟨hblank, hdepth⟩ := blankLine_congr h.sameLength ha hb (h.inBody hinclude)
    rw [hblank]
    exact ⟨rfl, hdepth⟩

/-- **Runs of lines that are alike have one skeleton.** -/
theorem AlikeOutside.stubFrom_eq {depth : Nat} {as bs : List Text} (h : AlikeOutside depth as bs)
    (has : ∀ a ∈ as, '\n' ∉ a) (hbs : ∀ b ∈ bs, '\n' ∉ b) :
    stubFrom depth as = stubFrom depth bs := by
  induction as generalizing depth bs with
  | nil =>
    have hnil : bs = [] := List.length_eq_zero_iff.1 h.sameCount.symm
    rw [hnil]
  | cons a as ih =>
    cases bs with
    | nil => exact absurd h.sameCount (by simp)
    | cons b bs =>
      have hline : AlikeLine depth a b := h.alike 0 (Nat.succ_pos _) a rfl b rfl
      obtain ⟨hstub, hdepth⟩ := hline.stubLine_eq (has a List.mem_cons_self)
        (hbs b List.mem_cons_self)
      -- the lines below begin at one depth, and are alike there
      have hbelow : AlikeOutside (depthAfterLine depth a) as bs :=
        { sameCount := by simpa using h.sameCount
          alike := fun i hi x hx y hy => h.alike (i + 1) (Nat.succ_lt_succ hi) x hx y hy }
      show stubLine depth a :: stubFrom (depthAfterLine depth a) as
        = stubLine depth b :: stubFrom (depthAfterLine depth b) bs
      rw [← hstub, ← hdepth, ih hbelow (fun x hx => has x (List.mem_cons_of_mem a hx))
        fun y hy => hbs y (List.mem_cons_of_mem b hy)]

end DocAudit.Skeleton

/-! ## §3. They are resolved alike. -/

namespace DocAudit.Resolution

open Skeleton

/-- **WHAT STANDS INSIDE BRACES DOES NOT COUNT.**  Let two lists of lines be alike outside
bodies.  They have one skeleton, and one text with any aliases.  Sources of these lines are
resolved alike: by the built-in scanner, with its output and its number of passes, and by
every other provider, call for call. -/
theorem bodies_do_not_count {as bs : List Text} (has : ∀ a ∈ as, '\n' ∉ a)
    (hbs : ∀ b ∈ bs, '\n' ∉ b) (h : AlikeOutside 0 as bs) :
    stubLines as = stubLines bs
      ∧ (∀ aliases, Skeleton.text ⟨stubLines as, aliases⟩ = Skeleton.text ⟨stubLines bs, aliases⟩)
      ∧ ∀ source changed, Text.lines source = as → Text.lines changed = bs →
        ofSource source = ofSource changed
          ∧ ∀ {ε : Type} (p : Provider ε) (limit : Nat),
            run p limit source = run p limit changed := by
  have hstub : stubLines as = stubLines bs := h.stubFrom_eq has hbs
  refine ⟨hstub, fun aliases => by rw [hstub], ?_⟩
  rintro source changed rfl rfl
  -- a run sees of a source its skeleton only
  have hskeleton : Skeleton.ofSource source = Skeleton.ofSource changed := by
    unfold Skeleton.ofSource
    rw [hstub]
  have hrun : ∀ {ε : Type} (p : Provider ε) (limit : Nat),
      run p limit source = run p limit changed := by
    intro ε p limit
    unfold run
    rw [hskeleton]
  refine ⟨?_, hrun⟩
  unfold ofSource
  rw [hrun, hskeleton]

/-- A directive and a type definition inside a body, both changed. -/
theorem bodies_do_not_count_changed :
    let source := "egg_t fry(int pan) \x7b\n#include \"pan.h\"\ntypedef int x;\n\x7d\n".toList
    let changed := "egg_t fry(int pan) \x7b\n#include \"egg.h\"\n  return egg; \n\x7d\n".toList
    Text.lines source ≠ Text.lines changed
      ∧ AlikeOutside 0 (Text.lines source) (Text.lines changed)
      ∧ stubLines (Text.lines source) = stubLines (Text.lines changed)
      ∧ (ofSource source).passes = 2
      ∧ ofSource source = ofSource changed := by
  intro source changed
  have halike : AlikeOutside 0 (Text.lines source) (Text.lines changed) := by
    decide +kernel
  have happly := bodies_do_not_count (fun _ ha => Text.not_mem_of_mem_lines ha)
    (fun _ hb => Text.not_mem_of_mem_lines hb) halike
  exact ⟨by decide +kernel, halike, happly.1, by decide +kernel,
    (happly.2.2 source changed rfl rfl).1⟩

end DocAudit.Resolution
