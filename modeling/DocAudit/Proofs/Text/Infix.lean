/-
  DocAudit.Proofs.Text.Infix
  ──────────────────────────
  **STRETCHES OF A TEXT.**

  Trimming a text and cutting it at separators leave contiguous stretches of it.  A
  stretch that has no character of `a` cannot reach into `a`, so in `a ++ b` it lies
  within `b` (`infix_of_infix_append`).  This is how a word that was found in a piece
  is found in the text that the piece was made from.
-/
import Mathlib.Data.List.Infix
import DocAudit.Proofs.Text.Split
import DocAudit.Proofs.Text.Trim

namespace DocAudit.Text

/-! ## §1. What is left of a text. -/

theorem trimStart_infix_self (t : Text) : trimStart t <:+: t := (List.dropWhile_suffix isBlank).isInfix

theorem trimEnd_infix_self (t : Text) : trimEnd t <:+: t := (trimEnd_begins t).isInfix

theorem trim_infix_self (t : Text) : trim t <:+: t :=
  (trimEnd_infix_self (trimStart t)).trans (trimStart_infix_self t)

/-- A text is a stretch of what it is joined into. -/
theorem infix_join {sep t : Text} {ts : List Text} (h : t ∈ ts) : t <:+: join sep ts := by
  induction ts with
  | nil => exact absurd h List.not_mem_nil
  | cons a ts ih =>
    cases ts with
    | nil =>
      cases List.mem_singleton.1 h
      rw [join_singleton]
    | cons b ts =>
      rw [join_cons_cons]
      rcases List.mem_cons.1 h with rfl | h
      · rw [List.append_assoc]
        exact (List.prefix_append t _).isInfix
      · exact (ih h).trans (List.suffix_append _ _).isInfix

theorem infix_of_mem_splitOn {sep : Char} {t piece : Text} (h : piece ∈ splitOn sep t) :
    piece <:+: t := by
  have hin : piece <:+: join [sep] (splitOn sep t) := infix_join h
  rwa [join_splitOn] at hin

/-- The first piece begins the text. -/
theorem prefix_of_splitOn {sep : Char} {t first : Text} {others : List Text}
    (h : splitOn sep t = first :: others) : first <+: t := by
  have hjoin : join [sep] (first :: others) = t := by rw [← h, join_splitOn]
  rw [← hjoin]
  cases others with
  | nil => rw [join_singleton]
  | cons o others =>
    rw [join_cons_cons, List.append_assoc]
    exact List.prefix_append first _

/-! ## §2. Where a stretch lies. -/

/-- **A stretch without the characters of `a` lies behind `a`.** -/
theorem infix_of_infix_append {a b m : Text} (hforeign : ∀ c ∈ a, c ∉ m) (h : m <:+: a ++ b) :
    m <:+: b := by
  induction a with
  | nil => exact h
  | cons c a ih =>
    have hrest := fun d hd => hforeign d (List.mem_cons_of_mem c hd)
    rcases List.infix_cons_iff.1 h with hbegin | hin
    · -- it begins right there, so it is empty
      cases m with
      | nil => exact List.nil_infix
      | cons d m =>
        obtain ⟨rfl, _⟩ := List.cons_prefix_cons.1 hbegin
        exact absurd List.mem_cons_self (hforeign d List.mem_cons_self)
    · exact ih hrest hin

/-- The same for what stands behind. -/
theorem infix_of_infix_append_right {a b m : Text} (hforeign : ∀ c ∈ b, c ∉ m)
    (h : m <:+: a ++ b) : m <:+: a := by
  rw [← List.reverse_infix, List.reverse_append] at h
  refine List.reverse_infix.1 (infix_of_infix_append (fun c hc hin => ?_) h)
  exact hforeign c (List.mem_reverse.1 hc) (List.mem_reverse.1 hin)

/-- A stretch of `a ++ b` is one of `a` and then one of `b`. -/
theorem exists_of_infix_append {s a b : Text} (h : s <:+: a ++ b) :
    ∃ x y, s = x ++ y ∧ x <:+: a ∧ y <:+: b := by
  obtain ⟨front, rest, hall⟩ := h
  have hs : s = ((a ++ b).drop front.length).take s.length := by
    rw [← hall, List.append_assoc, List.drop_left, List.take_left]
  rw [List.drop_append, List.take_append] at hs
  refine ⟨_, _, hs, ?_, ?_⟩
  · exact (List.take_prefix _ _).isInfix.trans (List.drop_suffix _ a).isInfix
  · exact (List.take_prefix _ _).isInfix.trans (List.drop_suffix _ b).isInfix

/-! ## §3. Separators behind a text without them. -/

/-- A text without a separator lengthens the first piece. -/
theorem splitOn_append {sep : Char} {a : Text} (h : sep ∉ a) (b : Text) :
    ∃ first others, splitOn sep b = first :: others
      ∧ splitOn sep (a ++ b) = (a ++ first) :: others := by
  obtain ⟨first, others, hb⟩ := List.exists_cons_of_ne_nil (splitWhere_ne_nil (· == sep) b)
  refine ⟨first, others, hb, ?_⟩
  induction a with
  | nil => exact hb
  | cons c a ih =>
    rw [List.mem_cons, not_or] at h
    have hrest : splitWhere (· == sep) (a ++ b) = (a ++ first) :: others := ih h.2
    have hc : ¬(c == sep) = true := fun heq => h.1 (beq_iff_eq.1 heq).symm
    unfold splitOn
    rw [List.cons_append, splitWhere, if_neg hc, hrest]
    rfl

end DocAudit.Text
