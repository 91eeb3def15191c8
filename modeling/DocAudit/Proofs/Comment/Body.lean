/-
  DocAudit.Proofs.Comment.Body
  ────────────────────────────
  **THE BODY OF A COMMENT, LINE BY LINE.**

  The texts of a body stand behind the stars of lines of the comment, so a line
  without a star spoils the whole body (`body_ne_ok`).  Of a comment that opens and closes
  as it should, only the inner lines are looked at (`body_ofInner_eq`): the first of them
  without a star is the error, and with all stars the body consists of their texts,
  numbered from the line after the opening (`body_comment`).
-/
import Mathlib.Data.List.Infix
import DocAudit.Comment.Body
import DocAudit.Proofs.Comment.Locate

namespace DocAudit

/-! ## §1. Every text stands behind a star. -/

namespace Comment

/-- The text of a body line is that of a line of the comment, after its star. -/
theorem exists_of_mem_starredLines {n : Nat} {raws : List Text} {ls : List BodyLine}
    (h : starredLines n raws = .ok ls) {l : BodyLine} (hl : l ∈ ls) :
    ∃ raw ∈ raws, starred? raw = some l.text := by
  induction raws generalizing n ls with
  | nil =>
    cases h
    exact absurd hl List.not_mem_nil
  | cons raw rest ih =>
    unfold starredLines at h
    split at h
    · cases h
    · next t ht =>
      cases hrest : starredLines (n + 1) rest with
      | error e =>
        rw [hrest] at h
        cases h
      | ok more =>
        rw [hrest] at h
        cases h
        rcases List.mem_cons.1 hl with rfl | hl
        · exact ⟨raw, List.mem_cons_self, ht⟩
        · obtain ⟨raw', hraw', ht'⟩ := ih hrest hl
          exact ⟨raw', List.mem_cons_of_mem _ hraw', ht'⟩

theorem exists_of_mem_body {opening : Text} {c : Comment} {ls : List BodyLine}
    (h : c.body opening = .ok ls) {l : BodyLine} (hl : l ∈ ls) :
    ∃ raw ∈ c.lines, starred? raw = some l.text := by
  unfold body at h
  split at h
  · cases h
  · next first rest hlines =>
    split at h
    · cases h
    split at h
    · cases h
    · next found hfound =>
      split at h
      · split at h
        · cases h
          obtain ⟨raw, hraw, ht⟩ :=
            exists_of_mem_starredLines hfound (List.mem_of_mem_dropLast hl)
          exact ⟨raw, hlines ▸ List.mem_cons_of_mem _ hraw, ht⟩
        · cases h
      · cases h

/-- Body lines are trimmed. -/
theorem trim_of_mem_body {opening : Text} {c : Comment} {ls : List BodyLine}
    (h : c.body opening = .ok ls) {l : BodyLine} (hl : l ∈ ls) : Text.trim l.text = l.text := by
  obtain ⟨raw, _, hraw⟩ := exists_of_mem_body h hl
  unfold starred? at hraw
  split at hraw
  · next rest _ =>
    rw [← Option.some.inj hraw, Text.trim_trim]
  · cases hraw

theorem starredLines_ne_ok {n : Nat} {raws : List Text} {raw : Text} (hraw : raw ∈ raws)
    (h : starred? raw = none) (ls : List BodyLine) : starredLines n raws ≠ .ok ls := by
  induction raws generalizing n ls with
  | nil => exact absurd hraw List.not_mem_nil
  | cons first rest ih =>
    intro hok
    unfold starredLines at hok
    rcases List.mem_cons.1 hraw with rfl | hraw
    · rw [h] at hok
      cases hok
    · split at hok
      · cases hok
      · cases hrest : starredLines (n + 1) rest with
        | error e =>
          rw [hrest] at hok
          cases hok
        | ok more => exact ih hraw more hrest

/-- **A line that is neither opening nor starred spoils the body.** -/
theorem body_ne_ok {opening : Text} {c : Comment} {raw : Text} (hraw : raw ∈ c.lines)
    (hopening : Text.trim raw ≠ opening) (h : starred? raw = none) (ls : List BodyLine) :
    c.body opening ≠ .ok ls := by
  intro hok
  unfold body at hok
  split at hok
  · cases hok
  · next first rest hlines =>
    split at hok
    · cases hok
    · next hfirst =>
      rw [hlines] at hraw
      rcases List.mem_cons.1 hraw with rfl | hraw
      · exact hfirst hopening
      · split at hok
        · cases hok
        · next found hfound => exact starredLines_ne_ok hraw h found hfound

/-! ## §2. Lines with stars. -/

/-- Texts as consecutive body lines, the first of which has number `n`. -/
def numbered (n : Nat) : List Text → List BodyLine
  | [] => []
  | t :: ts => ⟨n, t⟩ :: numbered (n + 1) ts

theorem numbered_append (n : Nat) (as bs : List Text) :
    numbered n (as ++ bs) = numbered n as ++ numbered (n + as.length) bs := by
  induction as generalizing n with
  | nil => rfl
  | cons a as ih =>
    show ⟨n, a⟩ :: numbered (n + 1) (as ++ bs) = _
    rw [ih, List.length_cons, Nat.add_assoc, Nat.add_comm 1 as.length]
    rfl

theorem map_text_numbered (n : Nat) (ts : List Text) : (numbered n ts).map (·.text) = ts := by
  induction ts generalizing n with
  | nil => rfl
  | cons t ts ih =>
    show t :: (numbered (n + 1) ts).map (·.text) = t :: ts
    rw [ih]

theorem map_line_numbered (n : Nat) (ts : List Text) :
    (numbered n ts).map (·.line) = List.range' n ts.length := by
  induction ts generalizing n with
  | nil => rfl
  | cons t ts ih =>
    show n :: (numbered (n + 1) ts).map (·.line) = n :: List.range' (n + 1) ts.length
    rw [ih]

/-- A line that does not begin with a star once it is trimmed. -/
def Starless (raw : Text) : Prop := (Text.trim raw).head? ≠ some '*'

instance (raw : Text) : Decidable (Starless raw) := inferInstanceAs (Decidable (_ ≠ _))

/-- The text of a line behind its star. -/
def bodyText (raw : Text) : Text := Text.trim ((Text.trim raw).drop 1)

theorem starred?_of_starless {raw : Text} (h : Starless raw) : starred? raw = none := by
  unfold starred?
  split
  · next rest heq =>
    have hstar : (Text.trim raw).head? = some '*' := by simp [heq]
    exact absurd hstar h
  · rfl

theorem starred?_of_not_starless {raw : Text} (h : ¬Starless raw) :
    starred? raw = some (bodyText raw) := by
  obtain ⟨rest, hrest⟩ := List.head?_eq_some_iff.1 (Decidable.not_not.1 h)
  unfold starred? bodyText
  rw [hrest]
  rfl

theorem starred?_trimEnd (raw : Text) : starred? (Text.trimEnd raw) = starred? raw := by
  unfold starred?
  rw [Text.trim_trimEnd]

/-- Trailing blanks are no part of a body. -/
theorem starredLines_trimEnd (n : Nat) (raws : List Text) :
    starredLines n (raws.map Text.trimEnd) = starredLines n raws := by
  induction raws generalizing n with
  | nil => rfl
  | cons raw rest ih =>
    rw [List.map_cons, starredLines, starredLines, starred?_trimEnd, ih]

/-- A line with a star in front of others. -/
theorem starredLines_cons_starred {raw : Text} (h : ¬Starless raw) (n : Nat) (rest : List Text) :
    starredLines n (raw :: rest) = (starredLines (n + 1) rest).map (⟨n, bodyText raw⟩ :: ·) := by
  rw [starredLines, starred?_of_not_starless h]

/-- **Lines with stars** are read as their texts. -/
theorem starredLines_of_all_starred {raws : List Text} (h : ∀ raw ∈ raws, ¬Starless raw)
    (n : Nat) : starredLines n raws = .ok (numbered n (raws.map bodyText)) := by
  induction raws generalizing n with
  | nil => rfl
  | cons raw rest ih =>
    rw [starredLines_cons_starred (h raw List.mem_cons_self),
      ih fun u hu => h u (List.mem_cons_of_mem raw hu)]
    rfl

/-- **The first line without a star** is the error. -/
theorem starredLines_of_starless {before : List Text} {raw : Text}
    (hbefore : ∀ u ∈ before, ¬Starless u) (hraw : Starless raw) (n : Nat) (after : List Text) :
    starredLines n (before ++ raw :: after) = .error ⟨n + before.length, .noStar⟩ := by
  induction before generalizing n with
  | nil =>
    rw [List.nil_append, starredLines, starred?_of_starless hraw]
    rfl
  | cons u before ih =>
    have hline : n + (u :: before).length = n + 1 + before.length := by
      simp
      omega
    rw [List.cons_append, starredLines_cons_starred (hbefore u List.mem_cons_self),
      ih fun v hv => hbefore v (List.mem_cons_of_mem u hv), hline]
    rfl

/-- Some line has no star, or all have. -/
theorem exists_first_starless (raws : List Text) :
    (∃ before raw after, raws = before ++ raw :: after
        ∧ (∀ u ∈ before, ¬Starless u) ∧ Starless raw)
      ∨ ∀ raw ∈ raws, ¬Starless raw := by
  induction raws with
  | nil => exact .inr fun _ hraw => absurd hraw List.not_mem_nil
  | cons raw rest ih =>
    by_cases hraw : Starless raw
    · exact .inl ⟨[], raw, rest, rfl, fun _ hu => absurd hu List.not_mem_nil, hraw⟩
    rcases ih with ⟨before, first, after, rfl, hbefore, hfirst⟩ | hall
    · exact .inl ⟨raw :: before, first, after, rfl, List.forall_mem_cons.2 ⟨hraw, hbefore⟩, hfirst⟩
    · exact .inr (List.forall_mem_cons.2 ⟨hraw, hall⟩)

/-- Lines in two halves. -/
theorem starredLines_append (n : Nat) (as bs : List Text) :
    starredLines n (as ++ bs)
      = (starredLines n as).bind fun front =>
          (starredLines (n + as.length) bs).map (front ++ ·) := by
  induction as generalizing n with
  | nil =>
    show starredLines n bs = (starredLines n bs).map ([] ++ ·)
    cases starredLines n bs <;> rfl
  | cons a as ih =>
    by_cases ha : Starless a
    · rw [List.cons_append, starredLines, starredLines, starred?_of_starless ha]
      rfl
    · have hline : n + (a :: as).length = n + 1 + as.length := by
        simp
        omega
      rw [List.cons_append, starredLines_cons_starred ha, starredLines_cons_starred ha, ih, hline]
      cases starredLines (n + 1) as with
      | error e => rfl
      | ok front => cases starredLines (n + 1 + as.length) bs <;> rfl

/-! ## §3. The body of a block. -/

/-- **The body of a located comment** is read from its inner lines: its first and its last
line are never at fault. -/
theorem body_ofInner_eq (d : Dialect) (n : Nat) (inner : List Text) :
    (ofInner d n inner).body d.opening = starredLines (n + 1) inner := by
  have hopening : Text.trim (Text.trimEnd d.opening) = d.opening := by
    cases d <;> decide
  have hclosing : starredLines (n + 1 + inner.length) [closingLine]
      = .ok [⟨n + 1 + inner.length, ['/']⟩] := rfl
  have hlines : (ofInner d n inner).lines
      = Text.trimEnd d.opening :: (inner ++ [closingLine]).map Text.trimEnd := rfl
  have hstart : (ofInner d n inner).startLine + 1 = n + 1 := rfl
  have hstars : starredLines (n + 1) (inner ++ [closingLine])
      = (starredLines (n + 1) inner).map (· ++ [⟨n + 1 + inner.length, ['/']⟩]) := by
    rw [starredLines_append, hclosing]
    cases starredLines (n + 1) inner <;> rfl
  unfold body
  rw [hlines]
  dsimp only
  rw [if_neg (not_not_intro hopening), hstart, starredLines_trimEnd, hstars]
  -- the closing line is starred as well: its text is the slash, which is dropped
  cases starredLines (n + 1) inner with
  | error e => rfl
  | ok front =>
    dsimp only [Except.map]
    rw [List.getLast?_concat, List.dropLast_concat]
    rfl

/-- The text of an inner line of a block. -/
def innerText (l : Text) : Text := Text.trim (l.drop 2)

/-- Inner lines have a star behind a blank. -/
theorem bodyText_of_marked {l : Text} (h : [' ', '*'] <+: l) :
    ¬Starless l ∧ bodyText l = innerText l := by
  obtain ⟨r, rfl⟩ := h
  have htrim : Text.trim ([' ', '*'] ++ r) = '*' :: Text.trimEnd r := by
    rw [← Text.trim_cons (by decide : Text.isBlank '*' = false)]
    exact Text.trim_blanks_append (a := [' ']) (by decide) ('*' :: r)
  unfold Starless bodyText
  rw [htrim]
  constructor
  · exact not_not_intro rfl
  · show Text.trim (Text.trimEnd r) = Text.trim r
    rw [Text.trim_trimEnd]

/-- **The body of a comment whose inner lines have stars** consists of their texts. -/
theorem body_ofInner (d : Dialect) {inner : List Text} (h : ∀ l ∈ inner, [' ', '*'] <+: l)
    (n : Nat) :
    (ofInner d n inner).body d.opening = .ok (numbered (n + 1) (inner.map innerText)) := by
  have hstars : ∀ l ∈ inner, ¬Starless l := fun l hl => (bodyText_of_marked (h l hl)).1
  have htexts : inner.map bodyText = inner.map innerText :=
    List.map_congr_left fun l hl => (bodyText_of_marked (h l hl)).2
  rw [body_ofInner_eq, starredLines_of_all_starred hstars, htexts]

end Comment

namespace CommentBlock

open Comment

/-- **The body of a block** consists of the texts of its inner lines. -/
theorem body_comment (b : CommentBlock) (n : Nat) :
    (b.comment n).body b.dialect.opening = .ok (numbered (n + 1) (b.inner.map innerText)) :=
  body_ofInner b.dialect b.starred n

end CommentBlock
end DocAudit
