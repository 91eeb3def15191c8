/-
  DocAudit.Proofs.Comment.Edt
  ───────────────────────────
  **WRITTEN ENTRIES ARE READ AS WHAT THEY WERE WRITTEN FOR.**

  A record of this dialect is written in rows (`text_eq`).  A definition or argument row
  that fits is one line, so reading the rows yields

      the name       for the `edt:` row
      a return entry for the `Return:` row
      a parameter    for each `Argument:` row, of the same name and without a type
      text           for every other row

  and nothing else (`takes_rows`).  A written comment is therefore read as a record of
  the same name and shape, or as a pointer of that name when a row happens to point
  elsewhere (`parse_rows`).
-/
import DocAudit.Comment.Edt
import DocAudit.Proofs.Comment.Block
import DocAudit.Proofs.Comment.PlainBlock
import DocAudit.Proofs.Comment.Reading
import DocAudit.Proofs.Text.Words

namespace DocAudit.Edt

open Text Draft

/-! ## §1. Rows. -/

/-- The row of the definition. -/
def definitionRow (name : Text) : Text := definitionMark ++ " * function ".toList ++ name

/-- The row of an argument. -/
def argumentRow (name : Text) : Text := argumentMark ++ ' ' :: name

/-- The row of an argument's direction and comment. -/
def valueRow (p : Param) : Text :=
  (p.direction.map labelText).getD [] ++ "  ".toList ++ Block.commentOr p.comment

/-- The rows of a parameter. -/
def paramRows (p : Param) : List Text := [[], argumentRow p.name, valueRow p]

/-- The rows of a return value. -/
def returnRows (p : Param) : List Text :=
  [returnMark ++ ' ' :: p.typename.getD [], "  ".toList ++ Block.commentOr p.comment]

/-- The rows of a record. -/
def rows (r : DocRecord) : List Text :=
  [definitionRow (r.name.getD []), [], Block.descriptionOr r.description, []]
    ++ (r.returns.map returnRows).getD [] ++ r.params.flatMap paramRows

theorem paramText_eq (p : Param) : paramText p = (paramRows p).flatMap line := by
  unfold paramText paramRows argumentRow valueRow line
  cases p.direction <;> simp

theorem returnText_eq (p : Param) : returnText p = (returnRows p).flatMap line := by
  unfold returnText returnRows line
  simp

/-- **The free text of a record** is that of its rows. -/
theorem text_eq (r : DocRecord) : text r = (rows r).flatMap line := by
  have hparams : r.params.flatMap paramText = (r.params.flatMap paramRows).flatMap line := by
    rw [List.flatMap_assoc]
    exact List.flatMap_congr fun p _ => paramText_eq p
  have hfeeds : "\n\n".toList = ['\n', '\n'] := by decide
  unfold text rows definitionRow
  rw [hparams, hfeeds, List.flatMap_append, List.flatMap_append]
  cases r.returns with
  | none => simp [line]
  | some p =>
    dsimp only [Option.map_some, Option.getD_some]
    rw [returnText_eq]
    simp [line]

/-! ## §2. Texts. -/

/-- How the lines with a meaning begin. -/
def marks : List Text := [definitionMark, argumentMark, returnMark]

/-- A text in which no mark stands. -/
def Markless (t : Text) : Prop := ∀ m ∈ marks, ¬ m <:+: t

theorem ofText_of_markless {t : Text} (h : Markless t) : Line.ofText t = .text t := by
  have hno : ∀ m ∈ marks, after? m t = none := fun m hm =>
    if_neg fun hp => h m hm (List.isPrefixOf_iff_prefix.1 hp).isInfix
  unfold Line.ofText
  rw [hno definitionMark (by decide), hno argumentMark (by decide), hno returnMark (by decide)]

/-- A text that lacks a character of each mark. -/
def Unmarked (t : Text) : Prop := ∀ m ∈ marks, ∃ c ∈ m, c ∉ t

theorem Unmarked.markless {t : Text} (h : Unmarked t) : Markless t := by
  intro m hm hin
  obtain ⟨c, hc, hnot⟩ := h m hm
  exact hnot (hin.subset hc)

/-- A text without a colon has no mark. -/
theorem unmarked_of_colon {t : Text} (h : ':' ∉ t) : Unmarked t := by
  have hcolon : ∀ m ∈ marks, ':' ∈ m := by decide
  exact fun m hm => ⟨':', hcolon m hm, h⟩

/-- Stretches of an unmarked text are unmarked. -/
theorem Unmarked.mono {t row : Text} (hrow : Unmarked row) (h : t <:+: row) :
    Unmarked t := by
  intro m hm
  obtain ⟨c, hc, hnot⟩ := hrow m hm
  exact ⟨c, hc, fun hin => hnot (h.subset hin)⟩

theorem takes_unmarked {t : Text} (h : Unmarked t) (a : Shape) : Takes step a [t] a := by
  refine Takes.single fun n d hd => ?_
  unfold step
  rw [ofText_of_markless h.markless]
  dsimp only
  split
  · exact ⟨d, rfl, hd⟩
  · exact ⟨_, rfl, (shape_addText identity_addText d t).trans hd⟩

/-- **An unmarked row is read as text.** -/
theorem takes_unmarked_row {row : Text} (h : Unmarked row) (o : WrapOptions) (a : Shape) :
    Takes step a (Block.rowTexts o row) a :=
  Takes.keep fun _ ht => takes_unmarked (h.mono (Block.infix_of_mem_rowTexts ht)) a

/-! ## §3. Entries. -/

theorem definitionName?_eq {name : Text} (hne : name ≠ [])
    (hsolid : ∀ c ∈ name, isBlank c = false) :
    definitionName? (" * function ".toList ++ name) = some name := by
  have hsplit : " * function ".toList ++ name
      = ' ' :: (['*'] ++ ' ' :: ("function".toList ++ ' ' :: name)) := rfl
  have hwords : words (" * function ".toList ++ name) = [['*'], "function".toList, name] := by
    rw [hsplit, words_blank (by decide), words_append_blank (by decide),
      words_append_blank (by decide), words_of_solid hne hsolid]
    rfl
  unfold definitionName?
  rw [hwords]

/-- **The first definition names the record.** -/
theorem step_definitionRow {name : Text} (hne : name ≠ [])
    (hsolid : ∀ c ∈ name, isBlank c = false) {d : Draft} (hd : d.name = none) (n : Nat) :
    step d ⟨n, definitionRow name⟩ = .ok { d with name := some name } := by
  have hline : Line.ofText (definitionRow name) = .definition (" * function ".toList ++ name) := rfl
  have hfirst : d.name.isSome = false := by
    rw [hd]
    rfl
  unfold step
  rw [hline]
  dsimp only
  rw [hfirst, definitionName?_eq hne hsolid]
  rfl

theorem takes_definition {name : Text} (hne : name ≠ [])
    (hsolid : ∀ c ∈ name, isBlank c = false) {a : Shape} (ha : a.name = none) :
    Takes step a [definitionRow name] { a with name := some name } := by
  refine Takes.single fun n d hd => ⟨_, step_definitionRow hne hsolid ?_ n, ?_⟩
  · exact (congrArg Shape.name hd).trans ha
  · rw [← hd]
    rfl

/-- **An argument line opens the entry of that parameter.** -/
theorem step_argumentRow {name : Text} (hne : name ≠ []) (hsolid : ∀ c ∈ name, isBlank c = false)
    (n : Nat) (d : Draft) :
    step d ⟨n, argumentRow name⟩ = .ok (d.addParam (Param.named name)) := by
  have hline : Line.ofText (argumentRow name) = .argument (' ' :: name) := rfl
  have hargument : argument? (' ' :: name) = some (Param.named name) := by
    unfold argument?
    rw [words_blank (by decide), words_of_solid hne hsolid]
  unfold step
  rw [hline]
  dsimp only
  rw [hargument]

theorem takes_argument {name : Text} (hne : name ≠ []) (hsolid : ∀ c ∈ name, isBlank c = false)
    (a : Shape) :
    Takes step a [argumentRow name] { a with params := a.params ++ [(name, none)] } := by
  refine Takes.single fun n d hd => ⟨_, step_argumentRow hne hsolid n d, ?_⟩
  rw [shape_addParam, hd]
  rfl

/-- **The first return line opens the return entry.** -/
theorem step_returnMark (more : Text) {d : Draft} (hd : d.returns.isSome = false) (n : Nat) :
    step d ⟨n, returnMark ++ more⟩ = .ok (d.setReturns (result more)) := by
  have hline : Line.ofText (returnMark ++ more) = .result more := rfl
  unfold step
  rw [hline]
  dsimp only
  rw [hd]
  rfl

theorem takes_return (more : Text) {a : Shape} (ha : a.hasReturns = false) :
    Takes step a [returnMark ++ more] { a with hasReturns := true } := by
  refine Takes.single fun n d hd => ⟨_, step_returnMark more ?_ n, ?_⟩
  · exact (congrArg Shape.hasReturns hd).trans ha
  · rw [shape_setReturns, hd]

/-- A definition that fits is one text. -/
theorem rowTexts_definitionRow {o : WrapOptions} {name : Text} (hne : name ≠ [])
    (hsolid : ∀ c ∈ name, isBlank c = false)
    (hfit : (definitionRow name).length ≤ o.width - Block.markWidth) :
    Block.rowTexts o (definitionRow name) = [definitionRow name] := by
  refine Block.rowTexts_of_fits hfit (fun c hc => ?_) (endsSolid_append hne hsolid)
  cases hc
  decide

/-- An argument that fits is one text. -/
theorem rowTexts_argumentRow {o : WrapOptions} {name : Text} (hne : name ≠ [])
    (hsolid : ∀ c ∈ name, isBlank c = false)
    (hfit : (argumentRow name).length ≤ o.width - Block.markWidth) :
    Block.rowTexts o (argumentRow name) = [argumentRow name] := by
  refine Block.rowTexts_of_fits hfit (fun c hc => ?_) (endsSolid_marked hne hsolid)
  cases hc
  decide

/-! ## §4. Records. -/

/-- A record whose entries fit and whose other rows hold no mark. -/
structure Legible (o : WrapOptions) (name : Text) (r : DocRecord) : Prop where
  /-- The record has this name. -/
  named : r.name = some name
  /-- The name is one word. -/
  nameWord : name ≠ [] ∧ ∀ c ∈ name, isBlank c = false
  /-- The definition fits. -/
  nameFits : (definitionRow name).length ≤ o.width - Block.markWidth
  /-- The description holds no mark. -/
  description : Unmarked (Block.descriptionOr r.description)
  /-- Parameters are named by one word. -/
  paramName : ∀ p ∈ r.params, p.name ≠ [] ∧ ∀ c ∈ p.name, isBlank c = false
  /-- Arguments fit. -/
  paramFits : ∀ p ∈ r.params, (argumentRow p.name).length ≤ o.width - Block.markWidth
  /-- What is said about a parameter holds no mark. -/
  paramValue : ∀ p ∈ r.params, Unmarked (valueRow p)
  /-- What is said about the return value holds no mark. -/
  returnRest : ∀ p ∈ r.returns, Unmarked (' ' :: p.typename.getD [])
    ∧ Unmarked ("  ".toList ++ Block.commentOr p.comment)

variable {o : WrapOptions} {r : DocRecord}

theorem takes_paramRows {name : Text} (h : Legible o name r) {p : Param} (hp : p ∈ r.params)
    (a : Shape) :
    Takes step a ((paramRows p).flatMap (Block.rowTexts o))
      { a with params := a.params ++ [(p.name, none)] } := by
  obtain ⟨hne, hsolid⟩ := h.paramName p hp
  unfold paramRows
  rw [List.flatMap_cons, List.flatMap_cons, List.flatMap_singleton,
    rowTexts_argumentRow hne hsolid (h.paramFits p hp)]
  refine (takes_unmarked_row (unmarked_of_colon List.not_mem_nil) o a).append ?_
  exact (takes_argument hne hsolid a).cons (takes_unmarked_row (h.paramValue p hp) o _)

theorem takes_returnRows {name : Text} (h : Legible o name r) {p : Param} (hp : p ∈ r.returns)
    {a : Shape} (ha : a.hasReturns = false) :
    Takes step a ((returnRows p).flatMap (Block.rowTexts o)) { a with hasReturns := true } := by
  obtain ⟨htype, hcomment⟩ := h.returnRest p hp
  have htail : BeginsBlank (' ' :: p.typename.getD []) := beginsBlank_cons (by decide) _
  -- the definition fits, and it is longer than this mark
  have hfit : returnMark.length ≤ o.width - Block.markWidth := by
    have hdefinition := h.nameFits
    unfold definitionRow at hdefinition
    rw [List.length_append, List.length_append] at hdefinition
    have hmark : definitionMark.length = 4 := rfl
    have hmiddle : " * function ".toList.length = 12 := rfl
    have hreturn : returnMark.length = 7 := rfl
    omega
  have hsolid : EndsSolid returnMark := ⟨':', rfl, by decide⟩
  obtain ⟨more, others, htexts, _, hothers⟩ :=
    Block.rowTexts_of_word hfit (by decide) hsolid htail
  unfold returnRows
  rw [List.flatMap_cons, List.flatMap_singleton, htexts]
  refine Takes.append ?_ (takes_unmarked_row hcomment o _)
  exact (takes_return more ha).cons
    (Takes.keep fun t ht => takes_unmarked (htype.mono (hothers t ht)) _)

/-- **The rows of a record are read as its shape**, the definition first. -/
theorem takes_rows {name : Text} (h : Legible o name r) :
    Takes step ({} : Draft).shape ((rows r).flatMap (Block.rowTexts o))
      (Shape.ofRecord (some name) r) := by
  have hnil : Unmarked [] := unmarked_of_colon List.not_mem_nil
  have hname : Takes step ({} : Draft).shape (Block.rowTexts o (definitionRow name))
      ⟨some name, [], false⟩ := by
    rw [rowTexts_definitionRow h.nameWord.1 h.nameWord.2 h.nameFits]
    exact takes_definition h.nameWord.1 h.nameWord.2 rfl
  have hhead : Takes step ({} : Draft).shape
      ([definitionRow (r.name.getD []), [], Block.descriptionOr r.description, []].flatMap
        (Block.rowTexts o)) ⟨some name, [], false⟩ := by
    rw [h.named, List.flatMap_cons]
    refine hname.append (Takes.keep_flatMap fun row hrow => takes_unmarked_row ?_ o _)
    simp only [List.mem_cons, List.not_mem_nil, or_false] at hrow
    rcases hrow with rfl | rfl | rfl
    · exact hnil
    · exact h.description
    · exact hnil
  have hreturns : Takes step ⟨some name, [], false⟩
      (((r.returns.map returnRows).getD []).flatMap (Block.rowTexts o))
      ⟨some name, [], r.returns.isSome⟩ := by
    have hone := fun p hp => takes_returnRows h (p := p) hp (a := ⟨some name, [], false⟩) rfl
    cases hr : r.returns with
    | none => exact Takes.nil _
    | some p =>
      rw [hr] at hone
      exact hone p rfl
  have hparams : Takes step ⟨some name, [], r.returns.isSome⟩
      ((r.params.flatMap paramRows).flatMap (Block.rowTexts o))
      (Shape.ofRecord (some name) r) := by
    rw [List.flatMap_assoc]
    exact Takes.params (fun p hp a => takes_paramRows h hp a) ⟨some name, [], r.returns.isSome⟩
  unfold rows
  rw [List.flatMap_append, List.flatMap_append]
  exact (hhead.append hreturns).append hparams

theorem steps_eq_foldlM (d : Draft) (ls : List BodyLine) : steps d ls = ls.foldlM step d := by
  induction ls generalizing d with
  | nil => rfl
  | cons l rest ih =>
    rw [steps, List.foldlM_cons]
    cases step d l with
    | error e => rfl
    | ok next => exact ih next

/-- **A written comment is read as a record of the same name and shape.** -/
theorem parse_rows {name : Text} (h : Legible o name r)
    (htame : ∀ row ∈ rows r, Block.Tame row) (n : Nat) :
    ∃ found, parse ((Block.ofRows .edt o (rows r) htame).comment n) = .ok (some found)
      ∧ (Shape.ofRecord (some name) r).StatedBy found := by
  have hbody := Block.body_ofRows (d := .edt) (o := o) htame n
  obtain ⟨d, hsteps, hshape⟩ := takes_rows h (n + 1) {} rfl
  rw [← Block.map_trim_wrapRows, ← steps_eq_foldlM] at hsteps
  have hfirst : firstName? (Comment.numbered (n + 1) ((Block.wrapRows o (rows r)).map trim))
      = some name := by
    -- the definition row is the first text, so its name is the first one stated
    have htexts : (Block.wrapRows o (rows r)).map trim
        = definitionRow name :: (rows r).tail.flatMap (Block.rowTexts o) := by
      rw [Block.map_trim_wrapRows]
      unfold rows
      rw [h.named, List.cons_append, List.cons_append, List.flatMap_cons, Option.getD_some,
        rowTexts_definitionRow h.nameWord.1 h.nameWord.2 h.nameFits]
      rfl
    have hline : Line.ofText (definitionRow name) = .definition (" * function ".toList ++ name) :=
      rfl
    rw [htexts, Comment.numbered]
    unfold firstName?
    rw [List.findSome?_cons, hline]
    dsimp only
    rw [definitionName?_eq h.nameWord.1 h.nameWord.2]
  unfold parse
  rw [hbody]
  dsimp only
  split
  · rw [hfirst]
    exact ⟨_, rfl, .inl rfl⟩
  · have hname : d.name = some name := congrArg Shape.name hshape
    refine ⟨d.toRecord, ?_, .inr ⟨d, hshape, rfl⟩⟩
    rw [hsteps]
    dsimp only
    rw [hname]
    rfl

end DocAudit.Edt
