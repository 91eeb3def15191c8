/-
  DocAudit.Proofs.Comment.Doxygen
  ───────────────────────────────
  **WRITTEN MARKERS ARE READ AS WHAT THEY WERE WRITTEN FOR.**

  A record of this dialect is written in rows (`text_eq`).  Wrapping cuts no marker
  that fits, and makes none where there was none, so reading the rows yields

      a parameter    for each `@param` row, of the same name and without a type
      a return entry for the `@return` row
      text           for every other row

  and nothing else (`takes_rows`).  A written comment is therefore read as a record of
  the same shape, or as a pointer when a row happens to point elsewhere (`parse_rows`).
-/
import DocAudit.Comment.Doxygen
import DocAudit.Proofs.Comment.Block
import DocAudit.Proofs.Comment.Reading
import DocAudit.Proofs.Text.Words

namespace DocAudit.Doxygen

open Text Draft

/-! ## §1. Rows. -/

/-- The marker of a parameter. -/
def paramWord (d : Direction) : Text := "@param[".toList ++ d.tag ++ [']']

/-- The marker and the name of a parameter. -/
def paramHead (p : Param) : Text := paramWord (p.direction.getD .input) ++ ' ' :: p.name

/-- The type of a parameter behind its name. -/
def paramType (p : Param) : Text :=
  match p.typename with
  | some t => " (".toList ++ t ++ [')']
  | none => []

/-- The rows of a parameter. -/
def paramRows (p : Param) : List Text :=
  [[], paramHead p ++ paramType p, valueIndent ++ Block.commentOr p.comment]

/-- The marker of a return value. -/
def returnWord : Text := "@return".toList

/-- The rows of a return value. -/
def returnRows (p : Param) : List Text :=
  [[], returnWord ++ ' ' :: p.typename.getD [], valueIndent ++ Block.commentOr p.comment]

/-- The rows of a record. -/
def rows (r : DocRecord) : List Text :=
  [r.name.getD [], [], Block.descriptionOr r.description] ++ r.params.flatMap paramRows
    ++ (r.returns.map returnRows).getD []

theorem paramText_eq (p : Param) : paramText p = (paramRows p).flatMap line := by
  unfold paramText paramRows paramHead paramWord paramType line
  have hopen : "\n@param[".toList = '\n' :: "@param[".toList := by decide
  have hclose : "] ".toList = [']', ' '] := by decide
  rw [hopen, hclose]
  cases p.typename <;> simp

theorem returnText_eq (p : Param) : returnText p = (returnRows p).flatMap line := by
  unfold returnText returnRows returnWord line
  have hopen : "\n@return ".toList = '\n' :: ("@return".toList ++ [' ']) := by decide
  rw [hopen]
  simp

/-- **The free text of a record** is that of its rows. -/
theorem text_eq (r : DocRecord) : text r = (rows r).flatMap line := by
  have hparams : r.params.flatMap paramText = (r.params.flatMap paramRows).flatMap line := by
    rw [List.flatMap_assoc]
    exact List.flatMap_congr fun p _ => paramText_eq p
  unfold text rows
  rw [hparams, List.flatMap_append, List.flatMap_append]
  cases r.returns with
  | none => simp [line]
  | some p =>
    dsimp only [Option.map_some, Option.getD_some]
    rw [returnText_eq]
    simp [line]

/-! ## §2. Texts. -/

/-- A text in which no marker stands. -/
def Markerless (t : Text) : Prop := ∀ m ∈ paramMarkers ++ returnMarkers, ¬ m <:+: t

theorem Markerless.mono {t row : Text} (h : Markerless row) (hin : t <:+: row) :
    Markerless t := fun m hm hmark => h m hm (hmark.trans hin)

theorem splitWord_infix_self (t : Text) : (splitWord t).1 <:+: t :=
  (List.takeWhile_prefix _).isInfix.trans (trimStart_infix_self t)

theorem marker_of_markerless {t : Text} (h : Markerless t) : marker t = .text := by
  -- a marker would begin the first word, which is a stretch of the text
  have hno : ∀ m ∈ paramMarkers ++ returnMarkers, ¬ m.isPrefixOf (splitWord t).1 = true := by
    intro m hm hp
    exact h m hm ((List.isPrefixOf_iff_prefix.1 hp).isInfix.trans (splitWord_infix_self t))
  unfold marker
  dsimp only
  rw [List.any_eq_false.2 fun m hm => hno m (List.mem_append_left _ hm),
    List.any_eq_false.2 fun m hm => hno m (List.mem_append_right _ hm)]
  rfl

/-- A text in which no marker can begin. -/
def Unmarked (t : Text) : Prop := '@' ∉ t ∧ '\\' ∉ t

theorem Unmarked.markerless {t : Text} (h : Unmarked t) : Markerless t := by
  have hmarks : ∀ m ∈ paramMarkers ++ returnMarkers, '@' ∈ m ∨ '\\' ∈ m := by decide
  intro m hm hin
  rcases hmarks m hm with hmem | hmem
  · exact h.1 (hin.subset hmem)
  · exact h.2 (hin.subset hmem)

/-- A text without a marker is read as text. -/
theorem step_of_markerless {t : Text} (h : Markerless t) (n : Nat) (d : Draft) :
    step d ⟨n, t⟩ = .ok (d.addText Param.addComment t) := by
  unfold step
  rw [marker_of_markerless h]

theorem takes_unmarked {t : Text} (h : Unmarked t) (a : Shape) : Takes step a [t] a := by
  refine Takes.single fun n d hd => ⟨_, step_of_markerless h.markerless n d, ?_⟩
  rw [shape_addText identity_addComment, hd]

/-- Stretches of an unmarked text are read as text. -/
theorem takes_others {ts : List Text} {row : Text} (hrow : Unmarked row)
    (h : ∀ t ∈ ts, t <:+: row) (a : Shape) : Takes step a ts a :=
  Takes.keep fun t ht => takes_unmarked
    ⟨fun hin => hrow.1 ((h t ht).subset hin), fun hin => hrow.2 ((h t ht).subset hin)⟩ a

/-- **An unmarked row is read as text.** -/
theorem takes_unmarked_row {row : Text} (h : Unmarked row) (o : WrapOptions) (a : Shape) :
    Takes step a (Block.rowTexts o row) a :=
  takes_others h (fun _ ht => Block.infix_of_mem_rowTexts ht) a

theorem splitWord_paramHead (p : Param) (more : Text) :
    splitWord (paramHead p ++ more)
      = (paramWord (p.direction.getD .input), ' ' :: (p.name ++ more)) := by
  have hsolid : ∀ c ∈ paramWord (p.direction.getD .input), isBlank c = false := by
    cases p.direction.getD .input <;> decide
  have hne : paramWord (p.direction.getD .input) ≠ [] := by
    cases p.direction.getD .input <;> decide
  have hblank : BeginsBlank (' ' :: (p.name ++ more)) := beginsBlank_cons (by decide) _
  unfold paramHead
  rw [List.append_assoc, List.cons_append, splitWord_append hsolid hblank, if_neg hne]

/-- The entry that the marker of a parameter opens. -/
def opened (p : Param) : Param := { name := p.name, direction := some (p.direction.getD .input) }

/-- **A marker with a name opens the entry of that parameter.** -/
theorem step_paramHead {p : Param} (hname : p.name ≠ [])
    (hsolid : ∀ c ∈ p.name, isBlank c = false) {more : Text} (hmore : BeginsBlank more)
    (n : Nat) (d : Draft) :
    step d ⟨n, paramHead p ++ more⟩ = .ok (d.addParam ((opened p).addComment more)) := by
  have hmarker : marker (paramHead p ++ more) = .parameter := by
    unfold marker
    rw [splitWord_paramHead]
    cases p.direction.getD .input <;> rfl
  have hdirection : markerDirection? (paramWord (p.direction.getD .input))
      = some (p.direction.getD .input) := by
    cases p.direction.getD .input <;> decide
  have hparam : param? (paramHead p ++ more) = some ((opened p).addComment more) := by
    have hrest : splitWord (' ' :: (p.name ++ more)) = (p.name, more) := by
      rw [← List.singleton_append, splitWord_blanks_append (by decide),
        splitWord_append hsolid hmore, if_neg hname]
    unfold param?
    rw [splitWord_paramHead]
    dsimp only
    rw [hrest]
    dsimp only
    rw [if_neg hname, hdirection]
    rfl
  unfold step
  rw [hmarker]
  dsimp only
  rw [hparam]

theorem takes_paramHead {p : Param} (hname : p.name ≠ [])
    (hsolid : ∀ c ∈ p.name, isBlank c = false) {more : Text} (hmore : BeginsBlank more)
    (a : Shape) :
    Takes step a [paramHead p ++ more] { a with params := a.params ++ [(p.name, none)] } := by
  refine Takes.single fun n d hd => ⟨_, step_paramHead hname hsolid hmore n d, ?_⟩
  rw [shape_addParam, hd, identity_addComment]
  rfl

/-- **The first return marker opens the return entry.** -/
theorem step_returnWord {more : Text} (hmore : BeginsBlank more) {d : Draft}
    (hd : d.returns.isSome = false) (n : Nat) :
    step d ⟨n, returnWord ++ more⟩
      = .ok (d.setReturns ((Param.named returnName).addComment more)) := by
  have hword : splitWord (returnWord ++ more) = (returnWord, more) := by
    rw [splitWord_append (by decide) hmore, if_neg (by decide)]
  have hmarker : marker (returnWord ++ more) = .result := by
    unfold marker
    rw [hword]
    rfl
  unfold step result
  rw [hmarker, hword]
  dsimp only
  rw [hd]
  rfl

theorem takes_returnWord {more : Text} (hmore : BeginsBlank more) {a : Shape}
    (ha : a.hasReturns = false) :
    Takes step a [returnWord ++ more] { a with hasReturns := true } := by
  refine Takes.single fun n d hd => ⟨_, step_returnWord hmore ?_ n, ?_⟩
  · rw [← ha, ← hd]
    rfl
  · rw [shape_setReturns, hd]

/-! ## §3. The rows of entries. -/

variable {o : WrapOptions}

theorem unmarked_valueRow {t : Text} (h : Unmarked t) : Unmarked (valueIndent ++ t) := by
  constructor
  · rw [List.mem_append, not_or]
    exact ⟨by decide, h.1⟩
  · rw [List.mem_append, not_or]
    exact ⟨by decide, h.2⟩

/-- The rows of a parameter whose marker and name fit. -/
theorem takes_paramRows {p : Param} (hname : p.name ≠ [])
    (hsolid : ∀ c ∈ p.name, isBlank c = false)
    (hfit : (paramHead p).length ≤ o.width - Block.markWidth) (htype : Unmarked (paramType p))
    (hcomment : Unmarked (Block.commentOr p.comment)) (a : Shape) :
    Takes step a ((paramRows p).flatMap (Block.rowTexts o))
      { a with params := a.params ++ [(p.name, none)] } := by
  have hbegin : ∀ c ∈ (paramHead p).head?, isBlank c = false := by
    intro c hc
    cases hc
    decide
  have hend : EndsSolid (paramHead p) := endsSolid_marked hname hsolid
  have htail : BeginsBlank (paramType p) := by
    unfold paramType
    cases p.typename with
    | none => exact fun c hc => by cases hc
    | some t => exact beginsBlank_cons (by decide) _
  obtain ⟨more, others, htexts, hmore, hothers⟩ :=
    Block.rowTexts_of_word hfit hbegin hend htail
  -- an empty row, the marker with what was wrapped behind it, the comment
  unfold paramRows
  rw [List.flatMap_cons, List.flatMap_cons, List.flatMap_singleton, htexts]
  refine (takes_unmarked_row ⟨List.not_mem_nil, List.not_mem_nil⟩ o a).append ?_
  refine Takes.append ?_ (takes_unmarked_row (unmarked_valueRow hcomment) o _)
  exact (takes_paramHead hname hsolid hmore a).cons (takes_others htype hothers _)

/-- The rows of a return value whose marker fits. -/
theorem takes_returnRows {p : Param} (hfit : returnWord.length ≤ o.width - Block.markWidth)
    (htype : Unmarked (p.typename.getD [])) (hcomment : Unmarked (Block.commentOr p.comment))
    {a : Shape} (ha : a.hasReturns = false) :
    Takes step a ((returnRows p).flatMap (Block.rowTexts o)) { a with hasReturns := true } := by
  have htail : BeginsBlank (' ' :: p.typename.getD []) := beginsBlank_cons (by decide) _
  have hsolid : EndsSolid returnWord := ⟨'n', rfl, by decide⟩
  obtain ⟨more, others, htexts, hmore, hothers⟩ :=
    Block.rowTexts_of_word hfit (by decide) hsolid htail
  have hrest : Unmarked (' ' :: p.typename.getD []) := by
    constructor
    · rw [List.mem_cons, not_or]
      exact ⟨by decide, htype.1⟩
    · rw [List.mem_cons, not_or]
      exact ⟨by decide, htype.2⟩
  unfold returnRows
  rw [List.flatMap_cons, List.flatMap_cons, List.flatMap_singleton, htexts]
  refine (takes_unmarked_row ⟨List.not_mem_nil, List.not_mem_nil⟩ o a).append ?_
  refine Takes.append ?_ (takes_unmarked_row (unmarked_valueRow hcomment) o _)
  exact (takes_returnWord hmore ha).cons (takes_others hrest hothers _)

/-! ## §4. Records. -/

/-- A record whose markers fit and whose rows hold no other ones. -/
structure Legible (o : WrapOptions) (r : DocRecord) : Prop where
  /-- The name holds no marker. -/
  name : Unmarked (r.name.getD [])
  /-- The description holds no marker. -/
  description : Unmarked (Block.descriptionOr r.description)
  /-- Parameters are named by one word. -/
  paramName : ∀ p ∈ r.params, p.name ≠ [] ∧ ∀ c ∈ p.name, isBlank c = false
  /-- The marker of a parameter fits, its name included. -/
  paramFits : ∀ p ∈ r.params, (paramHead p).length ≤ o.width - Block.markWidth
  /-- What stands behind the name of a parameter holds no marker. -/
  paramRest : ∀ p ∈ r.params, Unmarked (paramType p) ∧ Unmarked (Block.commentOr p.comment)
  /-- The marker of the return value fits. -/
  returnFits : r.returns.isSome = true → returnWord.length ≤ o.width - Block.markWidth
  /-- What stands behind the marker of the return value holds no other one. -/
  returnRest : ∀ p ∈ r.returns,
    Unmarked (p.typename.getD []) ∧ Unmarked (Block.commentOr p.comment)

/-- **The rows of a record are read as its shape.** -/
theorem takes_rows {r : DocRecord} (h : Legible o r) :
    Takes step ({} : Draft).shape ((rows r).flatMap (Block.rowTexts o))
      (Shape.ofRecord none r) := by
  have hhead : Takes step ({} : Draft).shape
      ([r.name.getD [], [], Block.descriptionOr r.description].flatMap (Block.rowTexts o))
      ({} : Draft).shape := by
    refine Takes.keep_flatMap fun row hrow => takes_unmarked_row ?_ o _
    simp only [List.mem_cons, List.not_mem_nil, or_false] at hrow
    rcases hrow with rfl | rfl | rfl
    · exact h.name
    · exact ⟨List.not_mem_nil, List.not_mem_nil⟩
    · exact h.description
  have hparams : Takes step ({} : Draft).shape
      ((r.params.flatMap paramRows).flatMap (Block.rowTexts o))
      ⟨none, r.params.map fun p => (p.name, none), false⟩ := by
    rw [List.flatMap_assoc]
    refine Takes.params (fun p hp a => ?_) ({} : Draft).shape
    exact takes_paramRows (h.paramName p hp).1 (h.paramName p hp).2 (h.paramFits p hp)
      (h.paramRest p hp).1 (h.paramRest p hp).2 a
  have hreturns : Takes step ⟨none, r.params.map fun p => (p.name, none), false⟩
      (((r.returns.map returnRows).getD []).flatMap (Block.rowTexts o))
      (Shape.ofRecord none r) := by
    have hfits := h.returnFits
    have hrest := h.returnRest
    unfold Shape.ofRecord
    cases hr : r.returns with
    | none => exact Takes.nil _
    | some p =>
      rw [hr] at hfits hrest
      exact takes_returnRows (hfits rfl) (hrest p rfl).1 (hrest p rfl).2 rfl
  unfold rows
  rw [List.flatMap_append, List.flatMap_append]
  exact (hhead.append hparams).append hreturns

theorem steps_eq_foldlM (d : Draft) (ls : List BodyLine) : steps d ls = ls.foldlM step d := by
  induction ls generalizing d with
  | nil => rfl
  | cons l rest ih =>
    rw [steps, List.foldlM_cons]
    cases step d l with
    | error e => rfl
    | ok next => exact ih next

/-- **A written comment is read as a record of the same shape.** -/
theorem parse_rows {r : DocRecord} (h : Legible o r) (htame : ∀ row ∈ rows r, Block.Tame row)
    (n : Nat) :
    ∃ found, parse ((Block.ofRows .doxygen o (rows r) htame).comment n) = .ok found
      ∧ (Shape.ofRecord none r).StatedBy found := by
  have hbody := Block.body_ofRows (d := .doxygen) (o := o) htame n
  obtain ⟨d, hsteps, hshape⟩ := takes_rows h (n + 1) {} rfl
  rw [← Block.map_trim_wrapRows, ← steps_eq_foldlM] at hsteps
  unfold parse
  rw [hbody]
  dsimp only
  split
  · exact ⟨_, rfl, .inl rfl⟩
  · rw [hsteps]
    exact ⟨_, rfl, .inr ⟨d, hshape, rfl⟩⟩

end DocAudit.Doxygen
