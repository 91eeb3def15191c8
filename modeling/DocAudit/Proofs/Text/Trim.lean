/-
  DocAudit.Proofs.Text.Trim
  ─────────────────────────
  **TRIMMING TAKES BLANKS AND NOTHING ELSE.**

  A text is its trimmed self between two runs of blanks (`exists_trim`).  A character
  that is no blank shields what stands before it: the end of `a ++ c :: b` is trimmed
  by trimming the end of `b` (`trimEnd_append_cons`).
-/
import Mathlib.Data.List.Induction
import Mathlib.Data.List.TakeWhile
import DocAudit.Text.Basic

namespace DocAudit.Text

/-! ## §1. Blanks at the ends. -/

theorem dropEndWhile_append_takeWhile (p : Char → Bool) (t : Text) :
    dropEndWhile p t ++ (t.reverse.takeWhile p).reverse = t := by
  unfold dropEndWhile
  rw [← List.reverse_append, List.takeWhile_append_dropWhile, List.reverse_reverse]

/-- What is dropped from an end satisfies the test. -/
theorem exists_dropEndWhile (p : Char → Bool) (t : Text) :
    ∃ b, t = dropEndWhile p t ++ b ∧ ∀ c ∈ b, p c = true := by
  refine ⟨_, (dropEndWhile_append_takeWhile p t).symm, ?_⟩
  intro c hc
  exact List.mem_takeWhile_imp (List.mem_reverse.1 hc)

theorem exists_trimEnd (t : Text) : ∃ b, t = trimEnd t ++ b ∧ ∀ c ∈ b, isBlank c = true :=
  exists_dropEndWhile isBlank t

theorem exists_trimStart (t : Text) :
    ∃ a, t = a ++ trimStart t ∧ ∀ c ∈ a, isBlank c = true :=
  ⟨t.takeWhile isBlank, List.takeWhile_append_dropWhile.symm,
    fun _ hc => List.mem_takeWhile_imp hc⟩

/-- Spaces are blanks. -/
theorem blank_spaces (n : Nat) : ∀ c ∈ spaces n, isBlank c = true := by
  intro c hc
  rw [List.eq_of_mem_replicate hc]
  decide

theorem length_spaces (n : Nat) : (spaces n).length = n := List.length_replicate

/-- **A text is its trimmed self between blanks.** -/
theorem exists_trim (t : Text) :
    ∃ a b, t = a ++ trim t ++ b ∧ (∀ c ∈ a, isBlank c = true) ∧ ∀ c ∈ b, isBlank c = true := by
  obtain ⟨a, ha, hablank⟩ := exists_trimStart t
  obtain ⟨b, hb, hbblank⟩ := exists_trimEnd (trimStart t)
  refine ⟨a, b, ?_, hablank, hbblank⟩
  rw [List.append_assoc]
  show t = a ++ (trimEnd (trimStart t) ++ b)
  rw [← hb, ← ha]

/-- **A solid character shields what stands before it.** -/
theorem trimEnd_append_cons {c : Char} (h : isBlank c = false) (a b : Text) :
    trimEnd (a ++ c :: b) = a ++ c :: trimEnd b := by
  unfold trimEnd dropEndWhile
  rw [List.reverse_append, List.reverse_cons, List.append_assoc, List.dropWhile_append]
  have hstop : ([c] ++ a.reverse).dropWhile isBlank = [c] ++ a.reverse :=
    List.dropWhile_cons_of_neg (by rw [h]; decide)
  split
  · next hnil =>
    rw [List.isEmpty_iff] at hnil
    rw [hstop, hnil, List.reverse_append, List.reverse_reverse, List.reverse_nil]
    rfl
  · rw [List.reverse_append, List.reverse_append, List.reverse_reverse, List.append_assoc]
    rfl

theorem trimEnd_append_blanks (t : Text) {b : Text} (h : ∀ c ∈ b, isBlank c = true) :
    trimEnd (t ++ b) = trimEnd t := by
  unfold trimEnd dropEndWhile
  rw [List.reverse_append, List.dropWhile_append_of_pos fun c hc => h c (List.mem_reverse.1 hc)]

theorem trimStart_blanks_append {a : Text} (h : ∀ c ∈ a, isBlank c = true) (t : Text) :
    trimStart (a ++ t) = trimStart t := List.dropWhile_append_of_pos h

theorem trim_append_blanks (t : Text) {b : Text} (h : ∀ c ∈ b, isBlank c = true) :
    trim (t ++ b) = trim t := by
  unfold trim trimStart
  rw [List.dropWhile_append]
  -- the text may be blank altogether, and then nothing is left of it
  split
  · next hnil =>
    rw [List.isEmpty_iff] at hnil
    rw [hnil, List.dropWhile_eq_nil_iff.2 h]
  · exact trimEnd_append_blanks _ h

theorem trim_trimEnd (t : Text) : trim (trimEnd t) = trim t := by
  obtain ⟨b, ht, hb⟩ := exists_trimEnd t
  conv => rhs; rw [ht, trim_append_blanks _ hb]

theorem trim_blanks_append {a : Text} (h : ∀ c ∈ a, isBlank c = true) (t : Text) :
    trim (a ++ t) = trim t := by
  unfold trim
  rw [trimStart_blanks_append h]

theorem trim_trim (t : Text) : trim (trim t) = trim t := by
  obtain ⟨a, b, ht, ha, hb⟩ := exists_trim t
  conv => rhs; rw [ht, trim_append_blanks _ hb, trim_blanks_append ha]

/-- A text that begins with a solid character is trimmed at its end only. -/
theorem trim_cons {c : Char} (h : isBlank c = false) (t : Text) :
    trim (c :: t) = c :: trimEnd t := by
  unfold trim trimStart
  rw [List.dropWhile_cons_of_neg (by rw [h]; decide)]
  exact trimEnd_append_cons h [] t

theorem trimEnd_begins (t : Text) : trimEnd t <+: t := by
  obtain ⟨b, ht, _⟩ := exists_trimEnd t
  exact ⟨b, ht.symm⟩

/-- What is trimmed ends in a solid character, if anything is left. -/
theorem getLast?_trimEnd (t : Text) : ∀ c ∈ (trimEnd t).getLast?, isBlank c = false := by
  intro c hc
  unfold trimEnd dropEndWhile at hc
  rw [List.getLast?_reverse] at hc
  have hnot := List.head?_dropWhile_not isBlank t.reverse
  rw [Option.mem_def.1 hc] at hnot
  exact Bool.eq_false_iff.2 (by simpa using hnot)

/-- What is trimmed begins with a solid character, if anything is left. -/
theorem head?_trimStart (t : Text) : ∀ c ∈ (trimStart t).head?, isBlank c = false := by
  intro c hc
  have hnot := List.head?_dropWhile_not isBlank t
  rw [show (t.dropWhile isBlank).head? = some c from hc] at hnot
  exact Bool.eq_false_iff.2 (by simpa using hnot)

/-- A text that does not end in a blank has nothing to trim there. -/
theorem trimEnd_of_solid {t : Text} (h : ∀ c ∈ t.getLast?, isBlank c = false) :
    trimEnd t = t := by
  cases t using List.reverseRecOn with
  | nil => rfl
  | append_singleton t c => exact trimEnd_append_cons (h c List.getLast?_concat) t []

/-! ## §2. Solid ends. -/

/-- A text that ends in a character that is no blank. -/
def EndsSolid (t : Text) : Prop := ∃ c, t.getLast? = some c ∧ isBlank c = false

/-- A text that ends in a word ends in a solid character. -/
theorem endsSolid_append {front word : Text} (hne : word ≠ [])
    (hsolid : ∀ c ∈ word, isBlank c = false) : EndsSolid (front ++ word) := by
  refine ⟨word.getLast hne, ?_, hsolid _ (List.getLast_mem hne)⟩
  rw [List.getLast?_append, List.getLast?_eq_some_getLast hne]
  rfl

/-- A mark with a word behind it ends in a solid character. -/
theorem endsSolid_marked {mark word : Text} (hne : word ≠ [])
    (hsolid : ∀ c ∈ word, isBlank c = false) : EndsSolid (mark ++ ' ' :: word) := by
  rw [List.append_cons]
  exact endsSolid_append hne hsolid

/-- A text that is empty or begins with a blank. -/
def BeginsBlank (t : Text) : Prop := ∀ c ∈ t.head?, isBlank c = true

theorem beginsBlank_cons {c : Char} (h : isBlank c = true) (t : Text) : BeginsBlank (c :: t) := by
  intro d hd
  cases hd
  exact h

theorem BeginsBlank.of_begins {a b : Text} (h : BeginsBlank b) (hp : a <+: b) : BeginsBlank a := by
  intro c hc
  cases a with
  | nil => cases hc
  | cons d a =>
    cases hc
    obtain ⟨r, rfl⟩ := hp
    exact h c rfl

/-- Trimming keeps what stands between two solid characters. -/
theorem trim_append_of_solid {head : Text} (hbegin : ∀ c ∈ head.head?, isBlank c = false)
    (hend : EndsSolid head) (more : Text) : trim (head ++ more) = head ++ trimEnd more := by
  obtain ⟨c, hlast, hc⟩ := hend
  obtain ⟨front, rfl⟩ := List.getLast?_eq_some_iff.1 hlast
  -- nothing is taken in front, and `c` shields the head from behind
  have hstart : trimStart (front ++ [c] ++ more) = front ++ [c] ++ more := by
    unfold trimStart
    cases front with
    | nil => exact List.dropWhile_cons_of_neg (by rw [hc]; decide)
    | cons d front => exact List.dropWhile_cons_of_neg (by rw [hbegin d rfl]; decide)
  unfold trim
  rw [hstart, List.append_assoc, List.append_assoc]
  exact trimEnd_append_cons hc front more

end DocAudit.Text
