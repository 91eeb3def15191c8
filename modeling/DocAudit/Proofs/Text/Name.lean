/-
  DocAudit.Proofs.Text.Name
  ─────────────────────────
  **NAMES HOLD NO CHARACTER WITH A MEANING.**

  A C identifier consists of ASCII letters, digits and `_`.  So it holds no blank,
  no line feed, no brace and no comment mark, which is all that the readers and
  writers of the library ever look for inside a name.
-/
import DocAudit.Text.Basic

namespace DocAudit.Text

-- Deciding goes through the text, never through all the characters there are.
instance decidableForallMem {p : Char → Prop} [DecidablePred p] (t : Text) :
    Decidable (∀ c ∈ t, p c) := List.decidableBAll p t

instance decidableExistsMem {p : Char → Prop} [DecidablePred p] (t : Text) :
    Decidable (∃ c ∈ t, p c) := List.decidableBEx p t

instance decidableForallOption {p : Char → Prop} [DecidablePred p] (o : Option Char) :
    Decidable (∀ c ∈ o, p c) := Option.decidableForallMem o

theorem isNameChar_of_isNameStart {c : Char} (h : isNameStart c = true) : isNameChar c = true := by
  unfold isNameStart at h
  unfold isNameChar Char.isAlphanum
  rw [Bool.or_eq_true] at h ⊢
  cases h with
  | inl h => exact .inl (by rw [h]; rfl)
  | inr h => exact .inr h

/-- No character of a name is a blank. -/
theorem isBlank_of_isNameChar {c : Char} (h : isNameChar c = true) : isBlank c = false := by
  -- the ASCII classes, opened by hand: capital, small letter, digit, underscore
  have hranges : ((decide (65 ≤ c.val ∧ c.val ≤ 90)
      || (decide (97 ≤ c.val) && decide (c.val ≤ 122)))
      || (decide (48 ≤ c.val) && decide (c.val ≤ 57)) || c == '_') = true := h
  simp only [Bool.or_eq_true, Bool.and_eq_true, decide_eq_true_eq, beq_iff_eq,
    UInt32.le_iff_toNat_le] at hranges
  have hn : c.val.toNat = c.toNat := rfl
  rw [hn] at hranges
  rcases hranges with ((h | h) | h) | rfl
  · simp [isBlank] at h ⊢
    omega
  · simp [isBlank] at h ⊢
    omega
  · simp [isBlank] at h ⊢
    omega
  · decide

theorem isNameChar_of_mem {w : Text} (h : isIdentifier w = true) {c : Char} (hc : c ∈ w) :
    isNameChar c = true := by
  cases w with
  | nil => exact absurd hc List.not_mem_nil
  | cons d w =>
    unfold isIdentifier at h
    rw [Bool.and_eq_true, List.all_eq_true] at h
    rcases List.mem_cons.1 hc with rfl | hc
    · exact isNameChar_of_isNameStart h.1
    · exact h.2 c hc

theorem ne_nil_of_isIdentifier {w : Text} (h : isIdentifier w = true) : w ≠ [] := by
  rintro rfl
  exact absurd h (by decide)

/-- A character that belongs to no name stands in no name. -/
theorem not_mem_of_isIdentifier {w : Text} (h : isIdentifier w = true) {x : Char}
    (hx : isNameChar x = false) : x ∉ w := by
  intro hmem
  rw [isNameChar_of_mem h hmem] at hx
  exact absurd hx (by decide)

end DocAudit.Text
