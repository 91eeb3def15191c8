/-
  DocAudit.Proofs.Comment.Rules
  ─────────────────────────────
  **THE RULES OF A DIALECT, AND WHERE A READING STOPS.**

  Whether a text of a body breaks a rule hangs on the texts above it, of which a draft
  remembers just enough (`Follows`):

      Doxygen   a parameter marker has a name, and there is one return marker
      EDT       there is one definition, of three fields, an argument line has one or
                two words, and there is one return line

  Read one after another, texts that keep the rules make a draft, and the first text that
  breaks one is the error (`Follows.run_eq_error_iff`).  That both dialects are read in
  this manner is `Dialect.follows`.
-/
import DocAudit.Proofs.Comment.Body
import DocAudit.Proofs.Comment.PlainBlock
import DocAudit.Comment.Doxygen
import DocAudit.Proofs.Text.Words

namespace DocAudit

open Text

/-! ## §1. Texts that keep rules. -/

/-- What a text breaks, given the texts above it. -/
abbrev Rules := List Text → Text → CommentFault → Prop

namespace Rules

/-- No text breaks a rule. -/
def Kept (rules : Rules) (ts : List Text) : Prop :=
  ∀ above t below, ts = above ++ t :: below → ∀ f, ¬rules above t f

variable {rules : Rules}

theorem kept_nil : rules.Kept [] := by
  intro above t below h
  simp at h

/-- **One more text** must keep the rules, given all the others. -/
theorem kept_concat {ts : List Text} {t : Text} :
    rules.Kept (ts ++ [t]) ↔ rules.Kept ts ∧ ∀ f, ¬rules ts t f := by
  constructor
  · intro h
    refine ⟨fun above u below hts => ?_, h ts t [] rfl⟩
    exact h above u (below ++ [t]) (by simp [hts])
  · rintro ⟨hkept, ht⟩ above u below heq
    rcases List.eq_nil_or_concat below with rfl | ⟨below, v, rfl⟩
    · obtain ⟨rfl, hlast⟩ := List.append_inj' heq rfl
      cases hlast
      exact ht
    · have hfront : ts ++ [t] = (above ++ u :: below) ++ [v] := by simpa using heq
      exact hkept above u below (List.append_inj' hfront rfl).1

/-- Some text is the first to break a rule, or none breaks any. -/
theorem exists_first_break (rules : Rules) (ts : List Text) :
    (∃ above t below f, ts = above ++ t :: below ∧ rules.Kept above ∧ rules above t f)
      ∨ rules.Kept ts := by
  induction ts using List.reverseRecOn with
  | nil => exact .inr kept_nil
  | append_singleton ts t ih =>
    rcases ih with ⟨above, u, below, f, rfl, hkept, hbreak⟩ | hkept
    · exact .inl ⟨above, u, below ++ [t], f, by simp, hkept, hbreak⟩
    by_cases ht : ∃ f, rules ts t f
    · obtain ⟨f, hbreak⟩ := ht
      exact .inl ⟨ts, t, [], f, rfl, hkept, hbreak⟩
    · exact .inr (kept_concat.2 ⟨hkept, not_exists.1 ht⟩)

end Rules

/-! ## §2. Reading by the rules. -/

/-- A way to read body lines. -/
abbrev Step := Draft → BodyLine → Except CommentError Draft

/-- **A way of reading follows rules**, if a draft knows enough of the texts above a text to
tell which rule that text breaks. -/
structure Follows (step : Step) (rules : Rules) (Knows : List Text → Draft → Prop) : Prop where
  /-- In the beginning nothing was read. -/
  start : Knows [] {}
  /-- A text that breaks a rule is refused, on its own line. -/
  refuse : ∀ {above d t f}, Knows above d → rules above t f → ∀ n, step d ⟨n, t⟩ = .error ⟨n, f⟩
  /-- Any other text is taken. -/
  accept : ∀ {above d t}, Knows above d → (∀ f, ¬rules above t f) →
    ∀ n, ∃ next, step d ⟨n, t⟩ = .ok next ∧ Knows (above ++ [t]) next

namespace Follows

open Comment

variable {step : Step} {rules : Rules} {Knows : List Text → Draft → Prop}

/-- **Texts that keep the rules** are read to their end. -/
theorem run_of_kept (h : Follows step rules Knows) (n : Nat) {ts : List Text}
    (hts : rules.Kept ts) : ∃ d, (numbered n ts).foldlM step {} = .ok d ∧ Knows ts d := by
  induction ts using List.reverseRecOn with
  | nil => exact ⟨{}, rfl, h.start⟩
  | append_singleton ts t ih =>
    obtain ⟨hkept, ht⟩ := Rules.kept_concat.1 hts
    obtain ⟨d, hrun, hknows⟩ := ih hkept
    obtain ⟨next, hstep, hnext⟩ := h.accept hknows ht (n + ts.length)
    refine ⟨next, ?_, hnext⟩
    rw [numbered_append, List.foldlM_append, hrun]
    show (numbered (n + ts.length) [t]).foldlM step d = .ok next
    show (step d ⟨n + ts.length, t⟩ >>= fun s => pure s) = .ok next
    rw [hstep]
    rfl

/-- **The first text that breaks a rule** ends the reading. -/
theorem run_of_break (h : Follows step rules Knows) (n : Nat) {above below : List Text} {t : Text}
    {f : CommentFault} (hkept : rules.Kept above) (hbreak : rules above t f) :
    (numbered n (above ++ t :: below)).foldlM step {} = .error ⟨n + above.length, f⟩ := by
  obtain ⟨d, hrun, hknows⟩ := h.run_of_kept n hkept
  rw [numbered_append, List.foldlM_append, hrun]
  show (step d ⟨n + above.length, t⟩ >>= _) = _
  rw [h.refuse hknows hbreak]
  rfl

/-- **A reading fails** at the first text that breaks a rule, and only there. -/
theorem run_eq_error_iff (h : Follows step rules Knows) (n : Nat) {ts : List Text}
    {e : CommentError} :
    (numbered n ts).foldlM step {} = .error e
      ↔ ∃ above t below, ts = above ++ t :: below ∧ rules.Kept above ∧ rules above t e.fault
          ∧ e.line = n + above.length := by
  constructor
  · intro herror
    rcases Rules.exists_first_break rules ts with
      ⟨above, t, below, f, rfl, hkept, hbreak⟩ | hkept
    · rw [h.run_of_break n hkept hbreak] at herror
      cases herror
      exact ⟨above, t, below, rfl, hkept, hbreak, rfl⟩
    · obtain ⟨d, hrun, _⟩ := h.run_of_kept n hkept
      rw [hrun] at herror
      cases herror
  · rintro ⟨above, t, below, rfl, hkept, hbreak, hline⟩
    rw [h.run_of_break n hkept hbreak, ← hline]

end Follows

/-! ## §3. Doxygen. -/

namespace Doxygen

/-- **The rules of Doxygen comments.** -/
inductive Breaks (above : List Text) (t : Text) : CommentFault → Prop where
  /-- A parameter marker is the only word. -/
  | paramWithoutName (word : Text) : marker t = .parameter → words t = [word] →
      Breaks above t .paramWithoutName
  /-- A return marker stands below another one. -/
  | secondReturn : marker t = .result → (∃ u ∈ above, marker u = .result) →
      Breaks above t .secondReturn

/-- What a draft knows of the texts that were read. -/
def Knows (above : List Text) (d : Draft) : Prop :=
  d.returns.isSome = true ↔ ∃ u ∈ above, marker u = .result

theorem splitWord_ne_nil_of_marker {t : Text} (h : marker t = .parameter) :
    (splitWord t).1 ≠ [] := by
  intro hnil
  unfold marker at h
  rw [hnil] at h
  cases h

/-- A parameter marker without a name is the only word of its text. -/
theorem param?_eq_none_iff {t : Text} (h : marker t = .parameter) :
    param? t = none ↔ ∃ word, words t = [word] := by
  have hparam : param? t = none ↔ (splitWord (splitWord t).2).1 = [] := by
    unfold param?
    dsimp only
    split <;> simp_all
  rw [hparam, splitWord_eq_nil_iff, words_eq_splitWord t, if_neg (splitWord_ne_nil_of_marker h)]
  simp

theorem knows_concat {above : List Text} {d next : Draft} {t : Text} (h : Knows above d)
    (hnext : next.returns.isSome = (d.returns.isSome || decide (marker t = .result))) :
    Knows (above ++ [t]) next := by
  unfold Knows at h ⊢
  rw [hnext]
  simp [h, or_and_right, exists_or]

/-- **Doxygen comments are read by their rules.** -/
theorem follows : Follows step Breaks Knows where
  start := by simp [Knows]
  refuse := by
    rintro above d t f hknows (⟨word, hmarker, hword⟩ | ⟨hmarker, hsecond⟩) n
    · have hnone : param? t = none := (param?_eq_none_iff hmarker).2 ⟨word, hword⟩
      unfold step
      dsimp only
      rw [hmarker, hnone]
    · unfold step
      dsimp only
      rw [hmarker]
      exact if_pos (hknows.2 hsecond)
  accept := by
    intro above d t hknows hkept n
    unfold step
    cases hmarker : marker t with
    | parameter =>
      have hsome : param? t ≠ none := by
        rw [Ne, param?_eq_none_iff hmarker]
        rintro ⟨word, hword⟩
        exact hkept _ (.paramWithoutName word hmarker hword)
      obtain ⟨p, hp⟩ := Option.ne_none_iff_exists'.1 hsome
      dsimp only
      rw [hp]
      exact ⟨_, rfl, knows_concat hknows (by simp [hmarker, Draft.addParam])⟩
    | result =>
      have hfirst : ¬d.returns.isSome = true := fun hsome =>
        hkept _ (.secondReturn hmarker (hknows.1 hsome))
      dsimp only
      rw [if_neg hfirst]
      exact ⟨_, rfl, knows_concat hknows (by simp [hmarker, Draft.setReturns])⟩
    | text =>
      have hkeep : (d.addText Param.addComment t).returns.isSome = d.returns.isSome :=
        congrArg Draft.Shape.hasReturns (Draft.shape_addText Draft.identity_addComment d t)
      exact ⟨_, rfl, knows_concat hknows (by simp [hmarker, hkeep])⟩

end Doxygen

/-! ## §4. EDT. -/

namespace Edt

/-- A text that defines. -/
def Defines (t : Text) : Prop := ∃ rest, Line.ofText t = .definition rest

/-- A text that opens a return entry. -/
def Returns (t : Text) : Prop := ∃ rest, Line.ofText t = .result rest

/-- **The rules of EDT comments.** -/
inductive Breaks (above : List Text) (t : Text) : CommentFault → Prop where
  /-- A definition stands below another one. -/
  | secondDefinition : Defines t → (∃ u ∈ above, Defines u) → Breaks above t .secondDefinition
  /-- The first definition does not have three fields. -/
  | definitionFields {rest : Text} : Line.ofText t = .definition rest →
      (¬∃ u ∈ above, Defines u) → (words rest).length ≠ 3 → Breaks above t .definitionFields
  /-- An argument line has neither one nor two words behind its mark. -/
  | argumentNames {rest : Text} : Line.ofText t = .argument rest →
      ¬((words rest).length = 1 ∨ (words rest).length = 2) → Breaks above t .argumentNames
  /-- A return line stands below another one. -/
  | secondReturnEntry : Returns t → (∃ u ∈ above, Returns u) → Breaks above t .secondReturnEntry

/-- What a draft knows of the texts that were read. -/
structure Knows (above : List Text) (d : Draft) : Prop where
  /-- Whether there was a definition. -/
  defines : d.name.isSome = true ↔ ∃ u ∈ above, Defines u
  /-- Whether there was a return line. -/
  returns : d.returns.isSome = true ↔ ∃ u ∈ above, Returns u

theorem definitionName?_eq_none_iff {rest : Text} :
    definitionName? rest = none ↔ (words rest).length ≠ 3 := by
  unfold definitionName?
  split
  · next name heq => simp [heq]
  · next hno =>
    refine iff_of_true rfl fun hthree => ?_
    obtain ⟨a, b, c, heq⟩ := List.length_eq_three.1 hthree
    exact hno a b c heq

theorem argument?_eq_none_iff {rest : Text} :
    argument? rest = none ↔ ¬((words rest).length = 1 ∨ (words rest).length = 2) := by
  rw [← Option.not_isSome_iff_eq_none, argument?_isSome, decide_eq_true_iff]

theorem Knows.concat {above : List Text} {d next : Draft} {t : Text} (h : Knows above d)
    (hname : next.name.isSome = true ↔ d.name.isSome = true ∨ Defines t)
    (hreturns : next.returns.isSome = true ↔ d.returns.isSome = true ∨ Returns t) :
    Knows (above ++ [t]) next where
  defines := by simp [hname, h.defines, or_and_right, exists_or]
  returns := by simp [hreturns, h.returns, or_and_right, exists_or]

/-- **EDT comments are read by their rules.** -/
theorem follows : Follows step Breaks Knows where
  start := ⟨by simp, by simp⟩
  refuse := by
    intro above d t f hknows hbreak n
    unfold step
    dsimp only
    cases hbreak with
    | secondDefinition ht hsecond =>
      obtain ⟨rest, hline⟩ := ht
      rw [hline]
      exact if_pos (hknows.defines.2 hsecond)
    | definitionFields hline hfirst hfields =>
      rw [hline]
      dsimp only
      rw [if_neg (fun hsome => hfirst (hknows.defines.1 hsome)),
        definitionName?_eq_none_iff.2 hfields]
    | argumentNames hline hnames =>
      rw [hline]
      dsimp only
      rw [argument?_eq_none_iff.2 hnames]
    | secondReturnEntry ht hsecond =>
      obtain ⟨rest, hline⟩ := ht
      rw [hline]
      exact if_pos (hknows.returns.2 hsecond)
  accept := by
    intro above d t hknows hkept n
    unfold step
    dsimp only
    cases hline : Line.ofText t with
    | definition rest =>
      have hfirst : ¬d.name.isSome = true := fun hsome =>
        hkept _ (.secondDefinition ⟨rest, hline⟩ (hknows.defines.1 hsome))
      have hname : definitionName? rest ≠ none := by
        rw [Ne, definitionName?_eq_none_iff]
        intro hfields
        exact hkept _ (.definitionFields hline (fun hs => hfirst (hknows.defines.2 hs)) hfields)
      obtain ⟨name, hsome⟩ := Option.ne_none_iff_exists'.1 hname
      dsimp only
      rw [if_neg hfirst, hsome]
      exact ⟨_, rfl, hknows.concat (by simp [Defines, hline]) (by simp [Returns, hline])⟩
    | argument rest =>
      have hargument : argument? rest ≠ none := by
        rw [Ne, argument?_eq_none_iff]
        exact fun hnames => hkept _ (.argumentNames hline hnames)
      obtain ⟨p, hp⟩ := Option.ne_none_iff_exists'.1 hargument
      dsimp only
      rw [hp]
      exact ⟨_, rfl, hknows.concat (by simp [Defines, hline, Draft.addParam])
        (by simp [Returns, hline, Draft.addParam])⟩
    | result rest =>
      have hfirst : ¬d.returns.isSome = true := fun hsome =>
        hkept _ (.secondReturnEntry ⟨rest, hline⟩ (hknows.returns.1 hsome))
      dsimp only
      rw [if_neg hfirst]
      exact ⟨_, rfl, hknows.concat (by simp [Defines, hline, Draft.setReturns])
        (by simp [Returns, hline, Draft.setReturns])⟩
    | text u =>
      have hkeep := Draft.shape_addText identity_addText d u
      have hname : (d.addText addText u).name = d.name := congrArg Draft.Shape.name hkeep
      have hreturns : (d.addText addText u).returns.isSome = d.returns.isSome :=
        congrArg Draft.Shape.hasReturns hkeep
      dsimp only
      split
      · exact ⟨_, rfl, hknows.concat (by simp [Defines, hline]) (by simp [Returns, hline])⟩
      · exact ⟨_, rfl, hknows.concat (by simp [Defines, hline, hname])
          (by simp [Returns, hline, hreturns])⟩

end Edt

/-! ## §5. Both dialects. -/

namespace Dialect

/-- How a dialect reads a body line. -/
def step : Dialect → Step
  | doxygen => Doxygen.step
  | edt => Edt.step

/-- What a text of a comment breaks. -/
def rules : Dialect → Rules
  | doxygen => Doxygen.Breaks
  | edt => Edt.Breaks

/-- **Comments are read by the rules of their dialect.** -/
theorem follows (d : Dialect) : ∃ Knows, Follows d.step d.rules Knows := by
  cases d with
  | doxygen => exact ⟨_, Doxygen.follows⟩
  | edt => exact ⟨_, Edt.follows⟩

end Dialect
end DocAudit
