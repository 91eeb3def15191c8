/-
  DocAudit.Proofs.Text.Case
  ─────────────────────────
  **CAPITALS AND SMALL LETTERS.**

  The twenty-six ASCII capitals are the only characters that are made small.  So
  whatever does not tell them from their small letters does not depend on case at all
  (`toLower_of_capitals`): blanks, word characters and with them word boundaries, and
  the folding by which letters are compared.
-/
import DocAudit.Text.Fold
import DocAudit.Text.WordChar
import DocAudit.Proofs.Text.Name

namespace DocAudit.Text

/-! ## §1. The capitals. -/

/-- The ASCII capitals. -/
def capitals : Text := "ABCDEFGHIJKLMNOPQRSTUVWXYZ".toList

theorem mem_capitals {c : Char} (h : c.isUpper = true) : c ∈ capitals := by
  -- a capital is known by its code point
  have hall : ∀ n ∈ List.range' 65 26, Char.ofNat n ∈ capitals := by decide
  have hrange : 65 ≤ c.toNat ∧ c.toNat ≤ 90 := of_decide_eq_true h
  rw [← Char.ofNat_toNat c]
  exact hall _ (List.mem_range'_1.2 ⟨hrange.1, by omega⟩)

theorem toLower_eq_self {c : Char} (h : c.isUpper = false) : c.toLower = c := by
  delta Char.toLower
  exact dif_neg (of_decide_eq_false h)

/-- A capital is found again from its small letter. -/
theorem toUpper_toLower {c : Char} (h : c.isUpper = true) : c.toLower.toUpper = c := by
  have hall : ∀ c ∈ capitals, c.toLower.toUpper = c := by decide
  exact hall c (mem_capitals h)

theorem isBlank_of_isUpper {c : Char} (h : c.isUpper = true) : isBlank c = false := by
  have hall : ∀ c ∈ capitals, isBlank c = false := by decide
  exact hall c (mem_capitals h)

/-! ## §2. What does not depend on case. -/

/-- What does not tell the capitals from their small letters tells no character from
its small letter. -/
theorem toLower_of_capitals {β : Type} {f : Char → β} (h : ∀ c ∈ capitals, f c.toLower = f c)
    (c : Char) : f c.toLower = f c := by
  cases hc : c.isUpper with
  | true => exact h c (mem_capitals hc)
  | false => rw [toLower_eq_self hc]

theorem isBlank_toLower (c : Char) : isBlank c.toLower = isBlank c :=
  toLower_of_capitals (by decide) c

theorem isWordChar_toLower (c : Char) : isWordChar c.toLower = isWordChar c :=
  toLower_of_capitals (by decide) c

theorem fold_toLower (c : Char) : fold c.toLower = fold c := toLower_of_capitals (by decide) c

/-- Word boundaries do not depend on case. -/
theorem boundaries_lower (t : Text) : boundaries (lower t) = boundaries t := by
  have hfrom : ∀ inWord, boundariesFrom inWord (lower t) = boundariesFrom inWord t := by
    induction t with
    | nil => exact fun _ => rfl
    | cons c t ih =>
      intro inWord
      show _ :: boundariesFrom (isWordChar c.toLower) (lower t) = _
      rw [isWordChar_toLower, ih, boundariesFrom]
  exact hfrom false

end DocAudit.Text
