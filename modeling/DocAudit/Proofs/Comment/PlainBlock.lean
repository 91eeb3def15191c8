/-
  DocAudit.Proofs.Comment.PlainBlock
  ──────────────────────────────────
  **BLOCKS WITHOUT A DEFINITION LINE.**

  A block comment none of whose lines begins with `edt:` is no documentation of that
  dialect.  How it is read depends on three things only:

      its delimiters or stars are wrong     nothing is read, no error
      one of its lines points elsewhere     a pointer without a name
      otherwise                             nothing — unless an entry is faulty

  The last line is where entries matter although there is no definition: the first
  `Argument:` line that names no variable, or `Return:` line that is not the only
  one, is reported as an error (`parse_of_plain`).
-/
import DocAudit.Comment.Edt
import DocAudit.Proofs.Comment.Body
import DocAudit.Proofs.Comment.Draft

namespace DocAudit.Edt

open Text

/-! ## §1. A plain block has no definition in its body. -/

/-- A line whose text after the star begins with `edt:` is a definition. -/
theorem mentionsDefinition_of_starred? {raw t : Text} (h : Comment.starred? raw = some t)
    (ht : definitionMark <+: t) : mentionsDefinition raw = true := by
  unfold Comment.starred? at h
  split at h
  · next rest hraw =>
    cases h
    obtain ⟨y, hy⟩ := ht
    obtain ⟨a, b, hsplit, ha, _⟩ := exists_trim raw
    obtain ⟨a', b', hsplit', ha', _⟩ := exists_trim rest
    rw [hraw, hsplit', ← hy] at hsplit
    -- what stands before the mark is blanks and the one star, all of which is skipped
    have hlead : ∀ c ∈ a ++ '*' :: a', (c == '*' || isBlank c) = true := by
      intro c hc
      rcases List.mem_append.1 hc with hc | hc
      · rw [ha c hc, Bool.or_true]
      rcases List.mem_cons.1 hc with rfl | hc
      · rfl
      · rw [ha' c hc, Bool.or_true]
    have hraw' : raw = (a ++ '*' :: a') ++ (definitionMark ++ (y ++ b' ++ b)) := by
      rw [hsplit]
      simp only [List.append_assoc, List.cons_append]
    unfold mentionsDefinition
    rw [hraw', List.dropWhile_append_of_pos hlead, List.isPrefixOf_iff_prefix]
    exact ⟨y ++ b' ++ b, rfl⟩
  · cases h

/-- **A comment without a definition line has none in its body.** -/
theorem not_definition_of_mem_body {c : Comment} (h : c.lines.any mentionsDefinition = false)
    {opening : Text} {ls : List BodyLine} (hbody : c.body opening = .ok ls) {l : BodyLine}
    (hl : l ∈ ls) (rest : Text) : Line.ofText l.text ≠ .definition rest := by
  intro hline
  obtain ⟨raw, hraw, ht⟩ := Comment.exists_of_mem_body hbody hl
  have hmark : definitionMark <+: l.text := by
    unfold Line.ofText at hline
    split at hline
    · next heq =>
      unfold after? at heq
      split at heq
      · next hp => exact List.isPrefixOf_iff_prefix.1 hp
      · cases heq
    · split at hline
      · cases hline
      · split at hline <;> cases hline
  have hmention := mentionsDefinition_of_starred? ht hmark
  rw [List.any_eq_false] at h
  exact h raw hraw hmention

/-! ## §2. Entries that are faulty in any block. -/

/-- Whether a body line opens a return entry. -/
def isReturn (l : BodyLine) : Bool :=
  match Line.ofText l.text with
  | .result _ => true
  | _ => false

/-- What is wrong with an entry, given the lines before it: an argument has one or
two words, and there is one return entry. -/
def entryFault? (before : List BodyLine) (l : BodyLine) : Option CommentFault :=
  match Line.ofText l.text with
  | .argument rest =>
    if (words rest).length = 1 ∨ (words rest).length = 2 then none else some .argumentNames
  | .result _ => if before.any isReturn then some .secondReturnEntry else none
  | _ => none

/-- The first faulty entry among lines that stand behind `before`. -/
def firstFaulty? (before : List BodyLine) : List BodyLine → Option CommentError
  | [] => none
  | l :: rest =>
    match entryFault? before l with
    | some f => some ⟨l.line, f⟩
    | none => firstFaulty? (before ++ [l]) rest

theorem argument?_isSome (rest : Text) :
    (argument? rest).isSome = decide ((words rest).length = 1 ∨ (words rest).length = 2) := by
  unfold argument?
  split
  · next h => rw [h]; rfl
  · next h => rw [h]; rfl
  · next h₁ h₂ =>
    refine (decide_eq_false ?_).symm
    rintro (h | h)
    · obtain ⟨w, hw⟩ := List.length_eq_one_iff.1 h
      exact h₁ w hw
    · obtain ⟨v, w, hw⟩ := List.length_eq_two.1 h
      exact h₂ v w hw

theorem identity_addText (p : Param) (t : Text) :
    Draft.identity (addText p t) = Draft.identity p := by
  unfold addText
  split
  · split
    · rw [Draft.identity_addComment]
      rfl
    · exact Draft.identity_addComment p t
  · exact Draft.identity_addComment p t

/-- **A faulty entry is refused**, on its own line. -/
theorem step_of_entryFault? {before : List BodyLine} {d : Draft} {l : BodyLine}
    {f : CommentFault} (hreturns : d.returns.isSome = before.any isReturn)
    (h : entryFault? before l = some f) : step d l = .error ⟨l.line, f⟩ := by
  unfold entryFault? at h
  unfold step
  cases hline : Line.ofText l.text with
  | definition rest =>
    rw [hline] at h
    cases h
  | argument rest =>
    rw [hline] at h
    dsimp only at h ⊢
    split at h
    · cases h
    · next hwords =>
      cases h
      have hnone : argument? rest = none := by
        rw [← Option.not_isSome_iff_eq_none, argument?_isSome, decide_eq_true_iff]
        exact hwords
      rw [hnone]
  | result rest =>
    rw [hline] at h
    dsimp only at h ⊢
    split at h
    · next hsecond =>
      cases h
      rw [if_pos (hreturns.trans hsecond)]
    · cases h
  | text t =>
    rw [hline] at h
    cases h

/-- **Any other line is taken**, and it yields no name and no return entry of its own
unless it opens one. -/
theorem step_of_no_entryFault {before : List BodyLine} {d : Draft} {l : BodyLine}
    (hname : d.name = none) (hreturns : d.returns.isSome = before.any isReturn)
    (hplain : ∀ rest, Line.ofText l.text ≠ .definition rest)
    (h : entryFault? before l = none) :
    ∃ next, step d l = .ok next ∧ next.name = none
      ∧ next.returns.isSome = (before ++ [l]).any isReturn := by
  have hany : (before ++ [l]).any isReturn = (before.any isReturn || isReturn l) := by
    rw [List.any_append, List.any_cons, List.any_nil, Bool.or_false]
  rw [hany, ← hreturns]
  unfold entryFault? at h
  unfold step isReturn
  -- arguments and first returns open their entry, and any other text is added or ignored
  cases hline : Line.ofText l.text with
  | definition rest => exact absurd hline (hplain rest)
  | argument rest =>
    rw [hline] at h
    dsimp only at h ⊢
    split at h
    · next hwords =>
      have hsome : (argument? rest).isSome = true := by
        rw [argument?_isSome, decide_eq_true_iff]
        exact hwords
      obtain ⟨p, hp⟩ := Option.isSome_iff_exists.1 hsome
      rw [hp]
      exact ⟨d.addParam p, rfl, hname, (Bool.or_false _).symm⟩
    · cases h
  | result rest =>
    rw [hline] at h
    dsimp only at h ⊢
    split at h
    · cases h
    · next hfirst =>
      rw [← hreturns] at hfirst
      rw [if_neg hfirst]
      exact ⟨d.setReturns (result rest), rfl, hname, (Bool.or_true _).symm⟩
  | text t =>
    dsimp only
    have hkeep := Draft.shape_addText identity_addText d t
    split
    · exact ⟨d, rfl, hname, (Bool.or_false _).symm⟩
    · refine ⟨d.addText addText t, rfl, ?_, ?_⟩
      · exact (congrArg Draft.Shape.name hkeep).trans hname
      · exact (congrArg Draft.Shape.hasReturns hkeep).trans (Bool.or_false _).symm

/-- **The whole body**: the first faulty entry decides, and without one no name is
found. -/
theorem steps_plain (ls : List BodyLine) {before : List BodyLine} {d : Draft}
    (hname : d.name = none) (hreturns : d.returns.isSome = before.any isReturn)
    (hplain : ∀ l ∈ ls, ∀ rest, Line.ofText l.text ≠ .definition rest) :
    (∃ e, firstFaulty? before ls = some e ∧ steps d ls = .error e)
      ∨ firstFaulty? before ls = none ∧ ∃ last, steps d ls = .ok last ∧ last.name = none := by
  induction ls generalizing before d with
  | nil => exact .inr ⟨rfl, d, rfl, hname⟩
  | cons l rest ih =>
    unfold firstFaulty? steps
    -- a draft knows of the lines before it only whether one opened a return entry
    cases hfault : entryFault? before l with
    | some f =>
      rw [step_of_entryFault? hreturns hfault]
      exact .inl ⟨_, rfl, rfl⟩
    | none =>
      obtain ⟨next, hstep, hnext, hnextReturns⟩ :=
        step_of_no_entryFault hname hreturns (hplain l List.mem_cons_self) hfault
      rw [hstep]
      exact ih hnext hnextReturns fun l' hl' => hplain l' (List.mem_cons_of_mem _ hl')

/-! ## §3. The reading of a plain block. -/

/-- What a block without a definition line is read as. -/
theorem parse_of_plain (c : Comment) (h : c.lines.any mentionsDefinition = false) :
    parse c =
      match c.body Dialect.edt.opening with
      | .error _ => .ok none
      | .ok ls =>
        if Reference.isReference (Reference.extraPhrases .edt) (ls.map (·.text)) then
          .ok (some (DocRecord.pointer none))
        else
          match firstFaulty? [] ls with
          | some e => .error e
          | none => .ok none := by
  unfold parse
  cases hbody : c.body Dialect.edt.opening with
  | error e =>
    dsimp only
    rw [h]
    rfl
  | ok ls =>
    have hplain : ∀ l ∈ ls, ∀ rest, Line.ofText l.text ≠ .definition rest :=
      fun l hl => not_definition_of_mem_body h hbody hl
    have hnoname : firstName? ls = none := by
      unfold firstName?
      rw [List.findSome?_eq_none_iff]
      intro l hl
      split
      · next rest hline => exact absurd hline (hplain l hl rest)
      · rfl
    dsimp only
    rw [hnoname]
    split
    · rfl
    · have hreturns : ({} : Draft).returns.isSome = [].any isReturn := rfl
      rcases steps_plain ls rfl hreturns hplain with
        ⟨e, hfirst, hsteps⟩ | ⟨hfirst, last, hsteps, hlast⟩
      · rw [hfirst, hsteps]
      · rw [hfirst, hsteps]
        dsimp only
        rw [hlast]
        rfl

theorem firstFaulty?_eq_none_iff (before ls : List BodyLine) :
    firstFaulty? before ls = none
      ↔ ∀ upTo l after, ls = upTo ++ l :: after → entryFault? (before ++ upTo) l = none := by
  induction ls generalizing before with
  | nil =>
    refine iff_of_true rfl fun upTo l after h => ?_
    exact absurd h.symm (List.append_ne_nil_of_right_ne_nil upTo (List.cons_ne_nil l after))
  | cons k rest ih =>
    unfold firstFaulty?
    cases hfault : entryFault? before k with
    | some f =>
      refine iff_of_false (by simp) fun h => ?_
      have hk := h [] k rest rfl
      rw [List.append_nil, hfault] at hk
      cases hk
    | none =>
      dsimp only
      rw [ih]
      constructor
      · intro h upTo l after heq
        cases upTo with
        | nil =>
          cases heq
          rwa [List.append_nil]
        | cons k' upTo =>
          rw [List.cons_append, List.cons.injEq] at heq
          obtain ⟨rfl, heq⟩ := heq
          rw [List.append_cons]
          exact h upTo l after heq
      · intro h upTo l after heq
        have hl := h (k :: upTo) l after (by rw [heq]; rfl)
        rwa [List.append_cons] at hl

/-- **A BLOCK WITHOUT A DEFINITION LINE** is read as nothing when its delimiters or
stars are wrong, as a nameless pointer when a line points elsewhere, and as nothing
otherwise — except that its first faulty entry is an error.  So it is never an error
exactly if it cannot be read at all, points elsewhere, or has no faulty entry. -/
theorem plain_block_reading (c : Comment) (h : c.lines.any mentionsDefinition = false) :
    (parse c =
      match c.body Dialect.edt.opening with
      | .error _ => .ok none
      | .ok ls =>
        if Reference.isReference (Reference.extraPhrases .edt) (ls.map (·.text)) then
          .ok (some (DocRecord.pointer none))
        else
          match firstFaulty? [] ls with
          | some e => .error e
          | none => .ok none)
    ∧ ((∀ e, parse c ≠ .error e) ↔
        ∀ ls, c.body Dialect.edt.opening = .ok ls →
          Reference.isReference (Reference.extraPhrases .edt) (ls.map (·.text)) = true
            ∨ ∀ upTo l after, ls = upTo ++ l :: after → entryFault? upTo l = none) := by
  have hparse := parse_of_plain c h
  refine ⟨hparse, ?_⟩
  rw [hparse]
  cases hbody : c.body Dialect.edt.opening with
  | error e =>
    refine iff_of_true (fun e' he => ?_) (fun ls hls => ?_)
    · cases he
    · cases hls
  | ok ls =>
    have hfaultless : firstFaulty? [] ls = none
        ↔ ∀ upTo l after, ls = upTo ++ l :: after → entryFault? upTo l = none :=
      firstFaulty?_eq_none_iff [] ls
    dsimp only
    -- a pointer is found before any entry is looked at
    by_cases href : Reference.isReference (Reference.extraPhrases .edt) (ls.map (·.text)) = true
    · rw [if_pos href]
      refine iff_of_true (fun e' he => ?_) (fun ls' hls => ?_)
      · cases he
      · cases hls
        exact .inl href
    · rw [if_neg href]
      cases hfirst : firstFaulty? [] ls with
      | none =>
        refine iff_of_true (fun e' he => ?_) (fun ls' hls => ?_)
        · cases he
        · cases hls
          exact .inr (hfaultless.1 hfirst)
      | some e =>
        refine iff_of_false (fun hne => hne e rfl) (fun hall => ?_)
        rcases hall ls rfl with hpoint | hnone
        · exact href hpoint
        · rw [hfaultless.2 hnone] at hfirst
          cases hfirst

/-- A block of two return entries and no definition line. -/
theorem plain_block_reading_returns :
    List.any (["/*", " * Return: a", " * Return: b", " */"].map String.toList)
        mentionsDefinition = false
      ∧ parse ⟨1, 4, ["/*", " * Return: a", " * Return: b", " */"].map String.toList⟩
          = .error ⟨3, .secondReturnEntry⟩ :=
  ⟨by decide,
    (plain_block_reading ⟨1, 4, ["/*", " * Return: a", " * Return: b", " */"].map String.toList⟩
      (by decide)).1⟩

/-- **A plain block can be an error**: it has no definition line, and its argument
line names nothing. -/
theorem plain_block_refused :
    List.any (["/*", " * Argument:", " */"].map String.toList) mentionsDefinition = false
      ∧ parse ⟨1, 3, ["/*", " * Argument:", " */"].map String.toList⟩
          = .error ⟨2, .argumentNames⟩ :=
  ⟨by decide, rfl⟩

end DocAudit.Edt
