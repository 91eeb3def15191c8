/-
  DocAudit.Proofs.Audit.Issues
  ────────────────────────────
  **AN ISSUE POINTS AT THE FIRST LINE THAT IS WRONG.**

  A located comment opens and closes as it should, so whatever is wrong with it stands on
  one of its inner lines:

      some line has no star        the first such line is the error
      every line has its star      the first line whose text breaks a rule of the dialect

  Two faults go unreported: missing stars in a plain block, which is no EDT comment, and
  broken rules in a comment that points elsewhere (`Excused`).  The report lists one issue
  for each comment that fails, from the top of the file to its end, Doxygen before EDT.
-/
import DocAudit.Audit.Report
import DocAudit.Proofs.Comment.Doxygen
import DocAudit.Proofs.Comment.Edt
import DocAudit.Proofs.Comment.Located
import DocAudit.Proofs.Comment.Rules

namespace DocAudit

open Comment

/-! ## §1. Offences. -/

/-- **The first offence among the inner lines of a comment**: the number of lines above it,
and what is wrong. -/
inductive FirstOffence (d : Dialect) (inner : List Text) : Nat → CommentFault → Prop where
  /-- A line without a star, below lines with stars. -/
  | noStar {before : List Text} {raw : Text} {after : List Text} :
      inner = before ++ raw :: after → (∀ u ∈ before, ¬Starless u) → Starless raw →
      FirstOffence d inner before.length .noStar
  /-- Where every line has its star, a line that breaks a rule below lines that keep them. -/
  | rule {before : List Text} {raw : Text} {after : List Text} {f : CommentFault} :
      (∀ u ∈ inner, ¬Starless u) → inner = before ++ raw :: after →
      d.rules.Kept (before.map bodyText) → d.rules (before.map bodyText) (bodyText raw) f →
      FirstOffence d inner before.length f

/-- Offences that are not reported. -/
inductive Excused (d : Dialect) (c : Comment) (inner : List Text) : CommentFault → Prop where
  /-- A star is missing in a block that has no definition line. -/
  | plain : d = .edt → c.lines.any Edt.mentionsDefinition = false → Excused d c inner .noStar
  /-- A rule is broken in a comment that points elsewhere. -/
  | pointer {f : CommentFault} : f ≠ .noStar →
      Reference.isReference (Reference.extraPhrases d) (inner.map bodyText) = true →
      Excused d c inner f

variable {d : Dialect} {inner : List Text} {k : Nat} {f : CommentFault}

/-- Rules are about texts, which stand behind stars. -/
theorem Dialect.rules_ne_delimiter {above : List Text} {t : Text} (h : d.rules above t f) :
    f ≠ .noStar ∧ f ≠ .empty ∧ f ≠ .wrongClosing ∧ ∀ o, f ≠ .wrongOpening o := by
  cases d with
  | doxygen => cases h <;> simp
  | edt => cases h <;> simp

theorem FirstOffence.lt_length (h : FirstOffence d inner k f) : k < inner.length := by
  cases h with
  | noStar heq _ _ => simp [heq]
  | rule _ heq _ _ => simp [heq]

/-- A missing star comes before every rule. -/
theorem FirstOffence.eq_noStar {raw : Text} (h : FirstOffence d inner k f) (hmem : raw ∈ inner)
    (hraw : Starless raw) : f = .noStar := by
  cases h with
  | noStar _ _ _ => rfl
  | rule hstars _ _ _ => exact absurd hraw (hstars raw hmem)

/-- With all its stars a comment offends by its texts. -/
theorem FirstOffence.ne_noStar (h : FirstOffence d inner k f) (hstars : ∀ u ∈ inner, ¬Starless u) :
    f ≠ .noStar := by
  cases h with
  | noStar heq _ hraw => exact absurd hraw (hstars _ (by simp [heq]))
  | rule _ _ _ hbreak => exact (Dialect.rules_ne_delimiter hbreak).1

/-- **Delimiters are never at fault.** -/
theorem FirstOffence.ne_delimiter (h : FirstOffence d inner k f) :
    f ≠ .empty ∧ f ≠ .wrongClosing ∧ ∀ o, f ≠ .wrongOpening o := by
  cases h with
  | noStar _ _ _ => simp
  | rule _ _ _ hbreak => exact (Dialect.rules_ne_delimiter hbreak).2

/-! ## §2. Errors of located comments. -/

namespace Reading

/-- **A comment fails** in its delimiters and stars, or in its texts. -/
theorem recordOf_eq_error_iff (d : Dialect) (c : Comment) (e : CommentError) :
    recordOf d c = .error e
      ↔ (c.body d.opening = .error e
            ∧ ¬(d = .edt ∧ c.lines.any Edt.mentionsDefinition = false))
          ∨ ∃ ls, c.body d.opening = .ok ls
            ∧ ¬Reference.isReference (Reference.extraPhrases d) (ls.map (·.text)) = true
            ∧ ls.foldlM d.step {} = .error e := by
  cases d with
  | doxygen =>
    show (Doxygen.parse c).map some = .error e ↔ _
    unfold Doxygen.parse
    cases c.body (Dialect.opening .doxygen) with
    | error e' => simp [Except.map]
    | ok ls =>
      by_cases href : Reference.isReference (Reference.extraPhrases .doxygen)
          (ls.map (·.text)) = true
      · simp [href, Except.map]
      · dsimp only
        rw [if_neg href, Doxygen.steps_eq_foldlM]
        cases hrun : ls.foldlM Doxygen.step {} <;> simp [href, Except.map, Dialect.step, hrun]
  | edt =>
    show Edt.parse c = .error e ↔ _
    unfold Edt.parse
    cases c.body (Dialect.opening .edt) with
    | error e' => by_cases hplain : c.lines.any Edt.mentionsDefinition = true <;> simp [hplain]
    | ok ls =>
      by_cases href : Reference.isReference (Reference.extraPhrases .edt)
          (ls.map (·.text)) = true
      · simp [href]
      · dsimp only
        rw [if_neg href, Edt.steps_eq_foldlM]
        cases hrun : ls.foldlM Edt.step {} <;> simp [href, Dialect.step, hrun]

/-- With all its stars, a comment fails where its texts do. -/
theorem run_bodyTexts_eq_error_iff (hstars : ∀ u ∈ inner, ¬Starless u) (n : Nat)
    (e : CommentError) :
    (numbered n (inner.map bodyText)).foldlM d.step {} = .error e
      ↔ ∃ k, e.line = n + k ∧ FirstOffence d inner k e.fault := by
  obtain ⟨line, fault⟩ := e
  obtain ⟨Knows, hfollows⟩ := d.follows
  rw [hfollows.run_eq_error_iff]
  constructor
  · rintro ⟨above, t, below, hsplit, hkept, hbreak, hline⟩
    obtain ⟨before, rest, rfl, rfl, hrest⟩ := List.map_eq_append_iff.1 hsplit
    obtain ⟨raw, after, rfl, rfl, rfl⟩ := List.map_eq_cons_iff.1 hrest
    rw [List.length_map] at hline
    exact ⟨before.length, hline, FirstOffence.rule hstars rfl hkept hbreak⟩
  · rintro ⟨k, hline, hoffence⟩
    cases hoffence with
    | noStar heq _ hraw => exact absurd hraw (hstars _ (by simp [heq]))
    | @rule before raw after _ _ heq hkept hbreak =>
      refine ⟨before.map bodyText, bodyText raw, after.map bodyText, ?_, hkept, hbreak, ?_⟩
      · simp [heq]
      · rw [List.length_map]
        exact hline

/-- A block that lacks a star fails on the first line without one, unless it is plain. -/
theorem recordOf_ofInner_of_starless {before : List Text} {raw : Text} {after : List Text}
    (hinner : inner = before ++ raw :: after) (hbefore : ∀ u ∈ before, ¬Starless u)
    (hraw : Starless raw) (n : Nat) (e : CommentError) :
    recordOf d (ofInner d n inner) = .error e
      ↔ ∃ k, e.line = n + 1 + k ∧ FirstOffence d inner k e.fault
          ∧ ¬Excused d (ofInner d n inner) inner e.fault := by
  have hbody : starredLines (n + 1) inner = .error ⟨n + 1 + before.length, .noStar⟩ := by
    rw [hinner]
    exact starredLines_of_starless hbefore hraw (n + 1) after
  have hmem : raw ∈ inner := by simp [hinner]
  obtain ⟨line, fault⟩ := e
  rw [recordOf_eq_error_iff, body_ofInner_eq, hbody]
  constructor
  · rintro (⟨herror, hplain⟩ | ⟨_, hok, _⟩)
    · cases herror
      refine ⟨before.length, rfl, FirstOffence.noStar hinner hbefore hraw, fun hexcused => ?_⟩
      cases hexcused with
      | plain hedt hmention => exact hplain ⟨hedt, hmention⟩
      | pointer hne _ => exact hne rfl
    · cases hok
  · rintro ⟨k, hline, hoffence, hexcused⟩
    dsimp only at hline hoffence hexcused
    cases hoffence.eq_noStar hmem hraw
    refine .inl ⟨?_, fun hplain => hexcused (Excused.plain hplain.1 hplain.2)⟩
    cases hoffence with
    | noStar hinner' hbefore' hraw' =>
      -- there is only one first line without a star
      rw [← hbody, hinner', starredLines_of_starless hbefore' hraw', hline]
    | rule hstars _ _ _ => exact absurd hraw (hstars raw hmem)

/-- A block with all its stars fails where its texts do, unless it points elsewhere. -/
theorem recordOf_ofInner_of_starred (hstars : ∀ u ∈ inner, ¬Starless u) (n : Nat)
    (e : CommentError) :
    recordOf d (ofInner d n inner) = .error e
      ↔ ∃ k, e.line = n + 1 + k ∧ FirstOffence d inner k e.fault
          ∧ ¬Excused d (ofInner d n inner) inner e.fault := by
  have htexts : (numbered (n + 1) (inner.map bodyText)).map (·.text) = inner.map bodyText :=
    map_text_numbered _ _
  obtain ⟨line, fault⟩ := e
  rw [recordOf_eq_error_iff, body_ofInner_eq, starredLines_of_all_starred hstars]
  constructor
  · rintro (⟨herror, _⟩ | ⟨ls, hok, hpoints, hrun⟩)
    · cases herror
    · cases hok
      rw [htexts] at hpoints
      obtain ⟨k, hline, hoffence⟩ := (run_bodyTexts_eq_error_iff hstars (n + 1) _).1 hrun
      refine ⟨k, hline, hoffence, fun hexcused => ?_⟩
      have hfault := hoffence.ne_noStar hstars
      cases hexcused with
      | plain _ _ => exact hfault rfl
      | pointer _ hpointer => exact hpoints hpointer
  · rintro ⟨k, hline, hoffence, hexcused⟩
    refine .inr ⟨_, rfl, fun hpoints => hexcused ?_,
      (run_bodyTexts_eq_error_iff hstars (n + 1) _).2 ⟨k, hline, hoffence⟩⟩
    rw [htexts] at hpoints
    exact Excused.pointer (hoffence.ne_noStar hstars) hpoints

/-- **A block fails at its first offence**, if that is not excused. -/
theorem recordOf_ofInner_eq_error_iff (d : Dialect) (n : Nat) (inner : List Text)
    (e : CommentError) :
    recordOf d (ofInner d n inner) = .error e
      ↔ ∃ k, e.line = n + 1 + k ∧ FirstOffence d inner k e.fault
          ∧ ¬Excused d (ofInner d n inner) inner e.fault := by
  rcases exists_first_starless inner with ⟨_, _, _, hinner, hbefore, hraw⟩ | hstars
  · exact recordOf_ofInner_of_starless hinner hbefore hraw n e
  · exact recordOf_ofInner_of_starred hstars n e

/-- **A located comment fails at its first offence**, on an inner line. -/
theorem recordOf_located_eq_error_iff {d : Dialect} {ls : List Text} {c : Comment}
    (hc : c ∈ locate d ls) (e : CommentError) :
    recordOf d c = .error e
      ↔ c.startLine < e.line ∧ e.line < c.endLine
          ∧ FirstOffence d (interior ls c) (e.line - c.startLine - 1) e.fault
          ∧ ¬Excused d c (interior ls c) e.fault := by
  have hshape := eq_ofInner_interior hc
  have hend : c.endLine = c.startLine + (interior ls c).length + 1 := congrArg Comment.endLine hshape
  have hblock := recordOf_ofInner_eq_error_iff d c.startLine (interior ls c) e
  rw [← hshape] at hblock
  rw [hblock]
  constructor
  · rintro ⟨k, hline, hoffence, hexcused⟩
    have hk := hoffence.lt_length
    have hcount : e.line - c.startLine - 1 = k := by omega
    exact ⟨by omega, by omega, hcount ▸ hoffence, hexcused⟩
  · rintro ⟨hlow, _, hoffence, hexcused⟩
    exact ⟨_, by omega, hoffence, hexcused⟩

/-! ## §3. The issues of a file. -/

/-- The error that reading a comment ends in, if it does. -/
def error? (d : Dialect) (c : Comment) : Option CommentError :=
  match recordOf d c with
  | .error e => some e
  | .ok _ => none

theorem error?_eq_some_iff {c : Comment} {e : CommentError} :
    error? d c = some e ↔ recordOf d c = .error e := by
  unfold error?
  cases recordOf d c <;> simp

/-- The errors of the comments of a dialect that fail, in the order of the source. -/
def errors (d : Dialect) (ls : List Text) : List CommentError :=
  (locate d ls).filterMap (error? d)

/-- There is one issue for each error. -/
theorem issues_ofLines (d : Dialect) (ls : List Text) :
    (ofLines d ls).issues = (errors d ls).map (CommentIssue.mk d) := by
  unfold ofLines errors
  rw [List.map_filterMap]
  refine List.filterMap_congr fun c _ => ?_
  unfold issue? error?
  cases recordOf d c <;> rfl

/-- **Errors come from the top to the end of the file**, since comments do not overlap. -/
theorem pairwise_line_errors (d : Dialect) (ls : List Text) :
    (errors d ls).Pairwise fun e e' => e.line < e'.line := by
  refine (pairwise_apart d ls).filterMap _ ?_
  rintro c c' ⟨hc, hc', hbelow⟩ e he e' he'
  have hupper := ((recordOf_located_eq_error_iff hc e).1 (error?_eq_some_iff.1 he)).2.1
  have hlower := ((recordOf_located_eq_error_iff hc' e').1 (error?_eq_some_iff.1 he')).1
  omega

end Reading

/-- **ISSUES POINT AT FIRST OFFENCES.**  Reading a comment that was located ends in an error
exactly if one of its inner lines offends and that is not excused, and the error is the
first of the offences, on the line on which it stands.  Delimiters are never at fault.  A
report lists one issue for each comment that fails, Doxygen before EDT, from the top of the
file to its end. -/
theorem FileReport.issues_at_first_offences :
    (∀ (d : Dialect) (ls : List Text), ∀ c ∈ locate d ls, ∀ e : CommentError,
      Reading.recordOf d c = .error e
        ↔ c.startLine < e.line ∧ e.line < c.endLine
            ∧ FirstOffence d (interior ls c) (e.line - c.startLine - 1) e.fault
            ∧ ¬Excused d c (interior ls c) e.fault)
      ∧ (∀ (d : Dialect) (ls : List Text), ∀ c ∈ locate d ls, ∀ e : CommentError,
        Reading.recordOf d c = .error e →
          e.fault ≠ .empty ∧ e.fault ≠ .wrongClosing ∧ ∀ o, e.fault ≠ .wrongOpening o)
      ∧ (∀ (path source : Text) (r : Resolution),
        (ofResolution path source r).issues
          = (Reading.errors .doxygen (Text.lines source)).map (CommentIssue.mk .doxygen)
            ++ (Reading.errors .edt (Text.lines source)).map (CommentIssue.mk .edt))
      ∧ ∀ (d : Dialect) (ls : List Text),
        (Reading.errors d ls).Pairwise fun e e' => e.line < e'.line := by
  refine ⟨fun d ls c hc => Reading.recordOf_located_eq_error_iff hc, fun d ls c hc e herror => ?_,
    fun path source r => ?_, Reading.pairwise_line_errors⟩
  · have hoffence := (Reading.recordOf_located_eq_error_iff hc e).1 herror
    exact hoffence.2.2.1.ne_delimiter
  · show (Reading.ofLines .doxygen (Text.lines source)).issues
      ++ (Reading.ofLines .edt (Text.lines source)).issues = _
    rw [Reading.issues_ofLines, Reading.issues_ofLines]

/-- A comment that says twice what is returned, and one whose first line has no star. -/
theorem FileReport.issues_at_first_offences_egg :
    let source := "/**\n * @return yolk\n * @return white\n */\n/*\negg\n * edt: egg\n */\n".toList
    let c : Comment := ⟨1, 4, ["/**", " * @return yolk", " * @return white", " */"].map String.toList⟩
    c ∈ locate .doxygen (Text.lines source)
      ∧ FirstOffence .doxygen (interior (Text.lines source) c) 1 .secondReturn
      ∧ (ofResolution "egg.c".toList source (Resolution.ofSource source)).issues
        = [⟨.doxygen, ⟨3, .secondReturn⟩⟩, ⟨.edt, ⟨6, .noStar⟩⟩] := by
  intro source c
  have hc : c ∈ locate .doxygen (Text.lines source) := by decide +kernel
  have happly := issues_at_first_offences
  have hoffence := (happly.1 .doxygen _ c hc ⟨3, .secondReturn⟩).1 (by decide +kernel)
  refine ⟨hc, hoffence.2.2.1, ?_⟩
  rw [happly.2.2.1]
  decide +kernel

end DocAudit
