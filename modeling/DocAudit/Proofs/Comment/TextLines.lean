/-
  DocAudit.Proofs.Comment.TextLines
  ─────────────────────────────────
  **TEXT LINES GO TO THE ENTRY THAT WAS OPENED LAST.**

  A run of text lines is added to the description, to the last parameter or to the return
  value, as the cursor says, and nothing else changes (`foldl_addText_description`,
  `foldl_addText_parameter`, `foldl_addText_result`).

  An entry collects the words of its lines (`said_foldl_addComment`).  If the lines have
  single spaces, its comment is these words, joined (`foldl_addComment_of_even`).
-/
import DocAudit.Proofs.Comment.Reading
import DocAudit.Proofs.Text.Words

namespace DocAudit

open Text

/-! ## §1. The comment of an entry. -/

namespace Param

/-- The words of the comment of an entry. -/
def said (p : Param) : List Text := words (p.comment.getD [])

/-- The comment that consists of words. -/
def spoken (ws : List Text) : Option Text := if ws = [] then none else some (join [' '] ws)

theorem addComment_nil (p : Param) : p.addComment [] = p := rfl

/-- Adding a line changes the comment only. -/
theorem addComment_eq (p : Param) (t : Text) :
    p.addComment t = { p with comment := (p.addComment t).comment } := by
  unfold addComment
  dsimp only
  split
  · rfl
  · cases p.comment <;> rfl

/-- **An entry gains the words of a line.** -/
theorem said_addComment (p : Param) (t : Text) : (p.addComment t).said = p.said ++ words t := by
  have hwords := words_trim t
  unfold addComment said
  dsimp only
  split
  · next hnil =>
    rw [hnil] at hwords
    rw [← hwords]
    exact (List.append_nil _).symm
  · cases p.comment with
    | none => exact hwords
    | some c =>
      have hspace : isBlank ' ' = true := by decide
      show words (c ++ ' ' :: trim t) = words c ++ words t
      rw [words_append_blank hspace, hwords]

theorem foldl_addComment_eq (p : Param) (ts : List Text) :
    ts.foldl addComment p = { p with comment := (ts.foldl addComment p).comment } := by
  induction ts generalizing p with
  | nil => rfl
  | cons t ts ih =>
    have hone := addComment_eq p t
    rw [List.foldl_cons]
    generalize p.addComment t = q at hone
    rw [ih q]
    dsimp only
    rw [hone]

/-- **An entry collects the words of its lines.** -/
theorem said_foldl_addComment (p : Param) (ts : List Text) :
    (ts.foldl addComment p).said = p.said ++ ts.flatMap words := by
  induction ts generalizing p with
  | nil => exact (List.append_nil _).symm
  | cons t ts ih => rw [List.foldl_cons, ih, said_addComment, List.flatMap_cons, List.append_assoc]

/-- A line that is, trimmed, its words with single spaces. -/
def Even (t : Text) : Prop := trim t = join [' '] (words t)

/-- **An entry that is words gains words.** -/
theorem addComment_of_even {p : Param} {ws : List Text} {t : Text} (hp : p.comment = spoken ws)
    (ht : Even t) : p.addComment t = { p with comment := spoken (ws ++ words t) } := by
  have hwords := words_trim t
  unfold Even at ht
  unfold addComment
  dsimp only
  split
  · next hnil =>
    rw [hnil] at hwords
    rw [← hwords, show words [] = [] from rfl, List.append_nil, ← hp]
  · next hsome =>
    have hne : words t ≠ [] := fun hnil => hsome (by rw [ht, hnil]; rfl)
    have hall : ws ++ words t ≠ [] := List.append_ne_nil_of_right_ne_nil ws hne
    rw [hp]
    unfold spoken
    rw [if_neg hall]
    by_cases hws : ws = []
    · rw [if_pos hws, hws, List.nil_append, ht]
    · rw [if_neg hws, join_append hws hne, ht, List.append_assoc]
      rfl

/-- **An entry that is words collects words.** -/
theorem foldl_addComment_of_even {p : Param} {ws : List Text} {ts : List Text}
    (hp : p.comment = spoken ws) (h : ∀ t ∈ ts, Even t) :
    ts.foldl addComment p = { p with comment := spoken (ws ++ ts.flatMap words) } := by
  induction ts generalizing p ws with
  | nil =>
    rw [List.flatMap_nil, List.append_nil, ← hp]
    rfl
  | cons t ts ih =>
    have hone := addComment_of_even hp (h t List.mem_cons_self)
    have hnext : ({ p with comment := spoken (ws ++ words t) } : Param).comment
        = spoken (ws ++ words t) := rfl
    rw [List.foldl_cons, hone, ih hnext fun u hu => h u (List.mem_cons_of_mem t hu),
      List.flatMap_cons, List.append_assoc]

end Param

/-! ## §2. Text lines of a draft. -/

namespace Draft

variable {toParam : Param → Text → Param} {d : Draft}

theorem updateLast_concat {α : Type} (f : α → α) (l : List α) (a : α) :
    updateLast f (l ++ [a]) = l ++ [f a] := by
  induction l with
  | nil => rfl
  | cons b l ih =>
    obtain ⟨c, r, hr⟩ := List.exists_cons_of_ne_nil
      (List.append_ne_nil_of_right_ne_nil l (List.cons_ne_nil a []))
    rw [List.cons_append, hr, updateLast, ← hr, ih]
    rfl

theorem updateLast_of_fixed {α : Type} {f : α → α} (h : ∀ a, f a = a) (l : List α) :
    updateLast f l = l := by
  fun_induction updateLast f l with
  | case1 => rfl
  | case2 a => rw [h]
  | case3 a b rest ih => rw [ih]

theorem name_addText (d : Draft) (t : Text) : (d.addText toParam t).name = d.name := by
  unfold addText
  split <;> rfl

theorem foldl_addText_description (h : d.cursor = .description) (ts : List Text) :
    ts.foldl (addText toParam) d = { d with description := d.description ++ ts } := by
  induction ts generalizing d with
  | nil => rw [List.append_nil]; rfl
  | cons t ts ih =>
    have hone : d.addText toParam t = { d with description := d.description ++ [t] } := by
      unfold addText Section.after
      rw [h]
    rw [List.foldl_cons, hone, ih (d := { d with description := d.description ++ [t] }) h,
      List.append_assoc]
    rfl

theorem foldl_addText_parameter {ps : List Param} {p : Param} (h : d.cursor = .parameter)
    (hp : d.params = ps ++ [p]) (ts : List Text) :
    ts.foldl (addText toParam) d = { d with params := ps ++ [ts.foldl toParam p] } := by
  induction ts generalizing d p with
  | nil => rw [List.foldl_nil, List.foldl_nil, ← hp]
  | cons t ts ih =>
    have hone : d.addText toParam t = { d with params := ps ++ [toParam p t] } := by
      unfold addText Section.after
      rw [h, hp]
      dsimp only
      rw [updateLast_concat]
    rw [List.foldl_cons, hone,
      ih (d := { d with params := ps ++ [toParam p t] }) (p := toParam p t) h rfl, List.foldl_cons]

theorem foldl_addText_result {p : Param} (h : d.cursor = .result) (hp : d.returns = some p)
    (ts : List Text) :
    ts.foldl (addText toParam) d = { d with returns := some (ts.foldl Param.addComment p) } := by
  induction ts generalizing d p with
  | nil => rw [List.foldl_nil, List.foldl_nil, ← hp]
  | cons t ts ih =>
    have hone : d.addText toParam t = { d with returns := some (p.addComment t) } := by
      unfold addText Section.after
      rw [h, hp]
      rfl
    rw [List.foldl_cons, hone,
      ih (d := { d with returns := some (p.addComment t) }) (p := p.addComment t) h rfl,
      List.foldl_cons]

/-- An empty line is seen in a description only. -/
theorem addText_nil (h : ∀ p, toParam p [] = p) (d : Draft) :
    ∃ k, d.addText toParam [] = { d with description := d.description ++ List.replicate k [] } := by
  unfold addText Section.after
  dsimp only
  cases d.cursor with
  | description => exact ⟨1, rfl⟩
  | parameter =>
    refine ⟨0, ?_⟩
    dsimp only
    rw [updateLast_of_fixed h, List.replicate_zero, List.append_nil]
  | result =>
    have hsame : d.returns.map (·.addComment []) = d.returns := by cases d.returns <;> rfl
    refine ⟨0, ?_⟩
    dsimp only
    rw [hsame, List.replicate_zero, List.append_nil]

/-- **Texts that a step takes for text** are added, one after another. -/
theorem reads_texts {step : Step} {ts : List Text} (d : Draft)
    (h : ∀ t ∈ ts, ∀ n e, e.name = d.name → step e ⟨n, t⟩ = .ok (e.addText toParam t)) :
    Reads step (· = d) ts (· = ts.foldl (addText toParam) d) := by
  induction ts generalizing d with
  | nil => exact Reads.nil _
  | cons t ts ih =>
    have hone : Reads step (· = d) [t] (· = d.addText toParam t) :=
      Reads.of_step fun n => h t List.mem_cons_self n d rfl
    refine hone.cons (ih _ fun u hu n e he => ?_)
    exact h u (List.mem_cons_of_mem t hu) n e (he.trans (name_addText d t))

end Draft
end DocAudit
