/-
  DocAudit.Proofs.Comment.DoxygenRecovery
  ───────────────────────────────────────
  **WHAT A WRITTEN COMMENT STATES IS READ BACK.**

  A record may say anything, in any number of lines, as long as no text of it holds a
  marker and the markers fit.  Its block is then read, row by row, as

      a parameter    for each parameter: same name, the direction that was written, no type
      a return entry if there is one

  in the same order (`render_recovered`).  Types are written behind the name, so they come
  back as the first words of the comment.
-/
import DocAudit.Proofs.Comment.Doxygen
import DocAudit.Proofs.Comment.Render
import DocAudit.Proofs.Comment.TextLines

namespace DocAudit.Doxygen

open Text Draft

/-! ## §1. Texts without markers. -/

/-- What is written around a text makes no marker of it. -/
theorem Markerless.framed {a b t : Text} (ha : ∀ c ∈ a, ∀ m ∈ paramMarkers ++ returnMarkers, c ∉ m)
    (hb : ∀ c ∈ b, ∀ m ∈ paramMarkers ++ returnMarkers, c ∉ m) (h : Markerless t) :
    Markerless (a ++ t ++ b) := by
  intro m hm hin
  have hright := infix_of_infix_append_right (fun c hc => hb c hc m hm) hin
  exact h m hm (infix_of_infix_append (fun c hc => ha c hc m hm) hright)

theorem markerless_nil : Markerless [] := by
  unfold Markerless
  decide

theorem markerless_descriptionOr {t : Text} (h : Markerless t) :
    Markerless (Block.descriptionOr t) := by
  have hslot : Markerless Block.descriptionSlot := by
    unfold Markerless
    decide
  unfold Block.descriptionOr
  split
  · exact hslot
  · exact h

theorem markerless_commentOr {c : Option Text} (h : ∀ t ∈ c, Markerless t) :
    Markerless (Block.commentOr c) := by
  have hslot : Markerless Block.commentSlot := by
    unfold Markerless
    decide
  cases c with
  | none => exact hslot
  | some t => exact h t rfl

theorem markerless_valueRow {t : Text} (h : Markerless t) : Markerless (valueIndent ++ t) := by
  have hrow := h.framed (a := valueIndent) (b := []) (by decide) (by decide)
  rwa [List.append_nil] at hrow

theorem markerless_paramType {p : Param} (h : ∀ t ∈ p.typename, Markerless t) :
    Markerless (paramType p) := by
  unfold paramType
  cases ht : p.typename with
  | none => exact markerless_nil
  | some t => exact (h t ht).framed (a := " (".toList) (b := [')']) (by decide) (by decide)

theorem markerless_returnType {p : Param} (h : ∀ t ∈ p.typename, Markerless t) :
    Markerless (' ' :: p.typename.getD []) := by
  have htype : Markerless (p.typename.getD []) := by
    cases ht : p.typename with
    | none => exact markerless_nil
    | some t => exact h t ht
  have hrow := htype.framed (a := [' ']) (b := []) (by decide) (by decide)
  rwa [List.append_nil] at hrow

/-! ## §2. Entries. -/

/-- What the markers of a parameter are read as: its name, its direction and no type. -/
def entry (p : Param) : Text × Option Direction × Option Text := (p.name, p.direction, p.typename)

/-- What the markers of a written parameter state. -/
def writtenEntry (p : Param) : Text × Option Direction × Option Text :=
  (p.name, some (p.direction.getD .input), none)

/-- The words that a parameter is written with: its type in brackets, and its comment. -/
def paramWords (p : Param) : List Text :=
  words (paramType p) ++ words (Block.commentOr p.comment)

/-- The words that a return value is written with: its type, and its comment. -/
def returnWords (p : Param) : List Text :=
  words (p.typename.getD []) ++ words (Block.commentOr p.comment)

/-- The draft has the entries of some parameters, and their words if they were kept. -/
structure HasParams (kept : Prop) (ps : List Param) (d : Draft) : Prop where
  /-- The entries. -/
  entries : d.params.map entry = ps.map writtenEntry
  /-- Their words. -/
  words : kept → d.params.map Param.said = ps.map paramWords

/-- The draft has the entry of the return value, if there is one, and its words if they
were kept. -/
structure HasReturns (kept : Prop) (p : Option Param) (d : Draft) : Prop where
  /-- The entry. -/
  isSome : d.returns.isSome = p.isSome
  /-- Its words. -/
  words : kept → d.returns.map Param.said = p.map returnWords

variable {o : WrapOptions} {kept : Prop} {ps : List Param}

/-- The entries are in the parameters only. -/
theorem HasParams.congr {d e : Draft} (h : HasParams kept ps d) (he : e.params = d.params) :
    HasParams kept ps e where
  entries := by rw [he, h.entries]
  words := fun hk => by rw [he, h.words hk]

/-- One more entry. -/
theorem HasParams.concat {d e : Draft} {p q : Param} (h : HasParams kept ps d)
    (he : e.params = d.params ++ [q]) (hentry : entry q = writtenEntry p)
    (hwords : kept → q.said = paramWords p) : HasParams kept (ps ++ [p]) e where
  entries := by
    rw [he, List.map_append, List.map_append, h.entries, List.map_singleton, List.map_singleton,
      hentry]
  words := fun hk => by
    rw [he, List.map_append, List.map_append, h.words hk, List.map_singleton, List.map_singleton,
      hwords hk]

theorem not_mem_paramHead {p : Param} (hsolid : ∀ c ∈ p.name, isBlank c = false) :
    '\n' ∉ paramHead p := by
  have hword : '\n' ∉ paramWord (p.direction.getD .input) := by
    cases p.direction.getD .input <;> decide
  have hname : '\n' ∉ p.name := fun hin => absurd (hsolid '\n' hin) (by decide)
  unfold paramHead
  rw [List.mem_append, List.mem_cons, not_or, not_or]
  exact ⟨hword, by decide, hname⟩

theorem beginsBlank_paramType (p : Param) : BeginsBlank (paramType p) := by
  unfold paramType
  cases p.typename with
  | none => exact fun c hc => by cases hc
  | some t => exact beginsBlank_cons (by decide) _

/-- An empty row leaves the entries alone. -/
theorem reads_emptyRow (d : Draft) :
    Reads step (· = d) (Block.texts o [])
      (fun e => e.params = d.params ∧ e.returns = d.returns) := by
  obtain ⟨k, hnil⟩ := addText_nil Param.addComment_nil d
  rw [Block.texts_nil]
  refine Reads.single fun n e he => ⟨_, step_of_markerless markerless_nil n e, ?_⟩
  rw [he, hnil]
  exact ⟨rfl, rfl⟩

/-- **The two rows of an entry**: the first text begins with the marker, the others are
text, and behind the marker stand the words that were written there. -/
theorem exists_entryTexts {head tail c : Text} (hline : '\n' ∉ head)
    (hlen : head.length ≤ o.width - Block.markWidth)
    (hbegin : ∀ c ∈ head.head?, isBlank c = false) (hend : EndsSolid head)
    (htail : BeginsBlank tail) (htailMarks : Markerless tail) (hmarks : Markerless c) :
    ∃ more rest, Block.texts o (head ++ tail) ++ Block.texts o (valueIndent ++ c)
        = (head ++ more) :: rest
      ∧ BeginsBlank more ∧ (∀ t ∈ rest, Markerless t)
      ∧ (Block.rowKeepsWords o (head ++ tail) = true →
          Block.rowKeepsWords o (valueIndent ++ c) = true →
          words more ++ rest.flatMap words = words tail ++ words c) := by
  have hindent : ∀ c ∈ valueIndent, isBlank c = true := by decide
  obtain ⟨more, others, htexts, hmore, hothers, hwords⟩ :=
    Block.texts_of_word hline hlen hbegin hend htail
  refine ⟨more, others ++ Block.texts o (valueIndent ++ c), ?_, hmore, fun t ht => ?_,
    fun hkeeps hkeepsValue => ?_⟩
  · rw [htexts]
    rfl
  · rcases List.mem_append.1 ht with ht | ht
    · exact htailMarks.mono (hothers t (List.mem_cons_of_mem more ht))
    · exact (markerless_valueRow hmarks).mono (Block.infix_of_mem_texts ht)
  · rw [List.flatMap_append, Block.words_texts hkeepsValue, words_blanks_append hindent,
      ← List.append_assoc, ← hwords hkeeps, List.flatMap_cons]

/-- **The rows of a parameter are read as its entry.** -/
theorem reads_paramRows {p : Param} (hname : p.name ≠ [] ∧ ∀ c ∈ p.name, isBlank c = false)
    (hfit : (paramHead p).length ≤ o.width - Block.markWidth)
    (htype : ∀ t ∈ p.typename, Markerless t) (hcomment : ∀ t ∈ p.comment, Markerless t)
    (hkept : kept → ∀ row ∈ paramRows p, Block.rowKeepsWords o row = true) (done : List Param) :
    Reads step (fun d => HasParams kept done d ∧ d.returns = none)
      ((paramRows p).flatMap (Block.texts o))
      (fun d => HasParams kept (done ++ [p]) d ∧ d.returns = none) := by
  have hbegin : ∀ c ∈ (paramHead p).head?, isBlank c = false := by
    intro c hc
    cases hc
    decide
  obtain ⟨more, rest, htexts, hmore, hplain, hwords⟩ :=
    exists_entryTexts (o := o) (not_mem_paramHead hname.2) hfit hbegin
      (endsSolid_marked hname.1 hname.2) (beginsBlank_paramType p) (markerless_paramType htype)
      (markerless_commentOr hcomment)
  unfold paramRows at hkept ⊢
  rw [List.flatMap_cons, List.flatMap_cons, List.flatMap_singleton, htexts]
  refine Reads.of_each fun d hd => (reads_emptyRow d).append (Reads.of_each fun e he => ?_)
  -- the marker opens the entry, and the texts behind it are added to its comment
  have hopen : Reads step (· = e) [paramHead p ++ more]
      (· = e.addParam ((opened p).addComment more)) :=
    Reads.of_step fun n => step_paramHead hname.1 hname.2 hmore n e
  have hrest := reads_texts (e.addParam ((opened p).addComment more)) fun t ht n f _ =>
    step_of_markerless (hplain t ht) n f
  refine (hopen.cons hrest).weaken fun f hf => ?_
  rw [hf, foldl_addText_parameter rfl rfl]
  refine ⟨hd.1.concat (congrArg (· ++ [_]) he.1) ?_ fun hk => ?_, he.2.trans hd.2⟩
  · rw [Param.foldl_addComment_eq, Param.addComment_eq]
    rfl
  · have hrows := hkept hk
    rw [Param.said_foldl_addComment, Param.said_addComment]
    exact hwords (hrows _ (by simp)) (hrows _ (by simp))

/-- **The rows of a return value are read as its entry.** -/
theorem reads_returnRows {p : Param} (hfit : returnWord.length ≤ o.width - Block.markWidth)
    (htype : ∀ t ∈ p.typename, Markerless t) (hcomment : ∀ t ∈ p.comment, Markerless t)
    (hkept : kept → ∀ row ∈ returnRows p, Block.rowKeepsWords o row = true) :
    Reads step (fun d => HasParams kept ps d ∧ d.returns = none)
      ((returnRows p).flatMap (Block.texts o))
      (fun d => HasParams kept ps d ∧ HasReturns kept (some p) d) := by
  have hsolid : EndsSolid returnWord := ⟨'n', rfl, by decide⟩
  have htail : BeginsBlank (' ' :: p.typename.getD []) := beginsBlank_cons (by decide) _
  obtain ⟨more, rest, htexts, hmore, hplain, hwords⟩ :=
    exists_entryTexts (o := o) (by decide) hfit (by decide) hsolid htail
      (markerless_returnType htype) (markerless_commentOr hcomment)
  unfold returnRows at hkept ⊢
  rw [List.flatMap_cons, List.flatMap_cons, List.flatMap_singleton, htexts]
  refine Reads.of_each fun d hd => (reads_emptyRow d).append (Reads.of_each fun e he => ?_)
  have hnone : e.returns.isSome = false := by
    rw [he.2, hd.2]
    rfl
  have hopen : Reads step (· = e) [returnWord ++ more]
      (· = e.setReturns ((Param.named returnName).addComment more)) :=
    Reads.of_step fun n => step_returnWord hmore hnone n
  have hrest := reads_texts (e.setReturns ((Param.named returnName).addComment more))
    fun t ht n f _ => step_of_markerless (hplain t ht) n f
  refine (hopen.cons hrest).weaken fun f hf => ?_
  rw [hf, foldl_addText_result rfl rfl]
  refine ⟨hd.1.congr he.1, rfl, fun hk => ?_⟩
  have hrows := hkept hk
  have hall := hwords (hrows _ (by simp)) (hrows _ (by simp))
  rw [words_blank (by decide)] at hall
  show some (Param.said _) = some (returnWords p)
  rw [Param.said_foldl_addComment, Param.said_addComment]
  exact congrArg some hall

/-! ## §3. Records. -/

/-- The entries of a record. -/
def entriesOf (r : DocRecord) : List Param := r.params ++ r.returns.toList

/-- The texts of a record that are free: its name, its description, and the types and
comments of its entries. -/
def freeTexts (r : DocRecord) : List Text :=
  r.name.toList ++ r.description
    :: (entriesOf r).flatMap fun p => p.typename.toList ++ p.comment.toList

/-- A record whose block can be read back. -/
structure Recoverable (o : WrapOptions) (r : DocRecord) : Prop where
  /-- Parameters are named by one word. -/
  paramName : ∀ p ∈ r.params, p.name ≠ [] ∧ ∀ c ∈ p.name, isBlank c = false
  /-- The marker of a parameter fits, its name included. -/
  paramFits : ∀ p ∈ r.params, (paramHead p).length ≤ o.width - Block.markWidth
  /-- The marker of the return value fits. -/
  returnFits : r.returns.isSome = true → 7 ≤ o.width - Block.markWidth
  /-- No free text holds a marker. -/
  markerless : ∀ t ∈ freeTexts r, Markerless t
  /-- No line of the block points elsewhere. -/
  pointsNowhere : ∀ t ∈ Block.bodyTexts (text r) o,
    Reference.isReferenceLine (Reference.extraPhrases .doxygen) t = false

variable {r : DocRecord}

theorem Recoverable.markerless_entry (h : Recoverable o r) {p : Param} (hp : p ∈ entriesOf r) :
    (∀ t ∈ p.typename, Markerless t) ∧ ∀ t ∈ p.comment, Markerless t := by
  have hfree : ∀ t ∈ p.typename.toList ++ p.comment.toList, Markerless t := by
    intro t ht
    refine h.markerless t (List.mem_append_right _ (List.mem_cons_of_mem _ ?_))
    exact List.mem_flatMap.2 ⟨p, hp, ht⟩
  exact ⟨fun t ht => hfree t (List.mem_append_left _ (Option.mem_toList.2 ht)),
    fun t ht => hfree t (List.mem_append_right _ (Option.mem_toList.2 ht))⟩

/-- The first rows are read as text. -/
theorem reads_headRows (h : Recoverable o r) :
    Reads step (· = {})
      ([r.name.getD [], [], Block.descriptionOr r.description].flatMap (Block.texts o))
      (fun d => HasParams kept [] d ∧ d.returns = none) := by
  have hname : Markerless (r.name.getD []) := by
    cases hn : r.name with
    | none => exact markerless_nil
    | some name =>
      refine h.markerless name (List.mem_append_left _ ?_)
      rw [hn]
      exact List.mem_singleton_self name
  have hdescription : Markerless (Block.descriptionOr r.description) :=
    markerless_descriptionOr (h.markerless _ (List.mem_append_right _ List.mem_cons_self))
  have hplain : ∀ t ∈ [r.name.getD [], [], Block.descriptionOr r.description].flatMap
      (Block.texts o), Markerless t := by
    intro t ht
    obtain ⟨row, hrow, ht⟩ := List.mem_flatMap.1 ht
    refine Markerless.mono ?_ (Block.infix_of_mem_texts ht)
    simp only [List.mem_cons, List.not_mem_nil, or_false] at hrow
    rcases hrow with rfl | rfl | rfl
    · exact hname
    · exact markerless_nil
    · exact hdescription
  refine (reads_texts {} fun t ht n e _ => step_of_markerless (hplain t ht) n e).weaken
    fun d hd => ?_
  rw [hd, foldl_addText_description rfl]
  exact ⟨⟨rfl, fun _ => rfl⟩, rfl⟩

/-- **The rows of a record are read as its entries.** -/
theorem reads_rows (h : Recoverable o r)
    (hkept : kept → ∀ row ∈ rows r, Block.rowKeepsWords o row = true) :
    Reads step (· = {}) ((rows r).flatMap (Block.texts o))
      (fun d => HasParams kept r.params d ∧ HasReturns kept r.returns d) := by
  have hparams : Reads step (fun d => HasParams kept [] d ∧ d.returns = none)
      ((r.params.flatMap paramRows).flatMap (Block.texts o))
      (fun d => HasParams kept r.params d ∧ d.returns = none) := by
    rw [List.flatMap_assoc]
    refine Reads.entries (I := fun done d => HasParams kept done d ∧ d.returns = none)
      (fun p hp done => ?_) []
    obtain ⟨htype, hcomment⟩ := h.markerless_entry (List.mem_append_left _ hp)
    refine reads_paramRows (h.paramName p hp) (h.paramFits p hp) htype hcomment
      (fun hk row hrow => hkept hk row ?_) done
    exact List.mem_append_left _ (List.mem_append_right _ (List.mem_flatMap.2 ⟨p, hp, hrow⟩))
  have hreturns : Reads step (fun d => HasParams kept r.params d ∧ d.returns = none)
      (((r.returns.map returnRows).getD []).flatMap (Block.texts o))
      (fun d => HasParams kept r.params d ∧ HasReturns kept r.returns d) := by
    cases hr : r.returns with
    | none =>
      refine (Reads.nil _).weaken fun d hd => ⟨hd.1, ?_, fun _ => ?_⟩
      · rw [hd.2]
      · rw [hd.2]
        rfl
    | some p =>
      have hp : p ∈ entriesOf r := List.mem_append_right _ (by rw [hr]; exact List.mem_singleton_self p)
      obtain ⟨htype, hcomment⟩ := h.markerless_entry hp
      refine reads_returnRows (h.returnFits (by rw [hr]; rfl)) htype hcomment
        fun hk row hrow => hkept hk row (List.mem_append_right _ ?_)
      rw [hr]
      exact hrow
  unfold rows
  rw [List.flatMap_append, List.flatMap_append]
  exact ((reads_headRows h).append hparams).append hreturns

/-- **WHAT A WRITTEN COMMENT STATES IS READ BACK.**  The block of a recoverable record is
one comment, and it is read as a record with the same parameters in the same order, each
with the direction that was written and without a type, and with a return entry exactly
if there was one.  If no word was cut, the words of the comments are those that were
written: first the type, then the comment. -/
theorem render_recovered (h : Recoverable o r) :
    ∃ c found, Comment.locate .doxygen (lines (render r o)) = [c] ∧ parse c = .ok found
      ∧ found.elsewhere = false
      ∧ found.params.map (fun q => (q.name, q.direction, q.typename))
          = r.params.map (fun p => (p.name, some (p.direction.getD .input), none))
      ∧ found.returns.isSome = r.returns.isSome
      ∧ (Block.keepsWords (text r) o = true →
          found.params.map (fun q => words (q.comment.getD []))
              = r.params.map (fun p => words (paramType p) ++ words (Block.commentOr p.comment))
            ∧ found.returns.map (fun q => words (q.comment.getD []))
              = r.returns.map fun p =>
                  words (p.typename.getD []) ++ words (Block.commentOr p.comment)) := by
  have hrows : rows r ≠ [] := List.cons_ne_nil _ _
  have hbody : Block.bodyTexts (text r) o = (rows r).flatMap (Block.texts o) := by
    rw [text_eq, Block.bodyTexts_flatMap_line hrows]
  have hkept : Block.keepsWords (text r) o = true →
      ∀ row ∈ rows r, Block.rowKeepsWords o row = true := by
    intro hk row hrow
    rw [text_eq] at hk
    exact Block.rowKeepsWords_of_keepsWords hk hrow
  obtain ⟨d, hsteps, hparams, hreturns⟩ := reads_rows h hkept 2 {} rfl
  rw [← hbody, ← steps_eq_foldlM] at hsteps
  refine ⟨Block.rendered (text r) .doxygen o, d.toRecord, Block.locate_render _ _ _, ?_, rfl,
    hparams.entries, hreturns.isSome, fun hk => ⟨hparams.words hk, hreturns.words hk⟩⟩
  unfold parse
  rw [Block.body_rendered]
  dsimp only
  rw [if_neg (Bool.eq_false_iff.1 (Comment.isReference_numbered h.pointsNowhere 2)), hsteps]

/-- A record whose rows are wrapped, one of them within a type. -/
def wrappedRecord : DocRecord :=
  { name := some "fry".toList
    description := "Fries an egg\nin a pan.".toList
    returns := some { Param.returning "int".toList with comment := some "The time.".toList }
    params := [{ typename := some "const egg_t *".toList
                 name := "egg".toList
                 comment := some "What to fry, and for\nhow long.".toList
                 direction := some .both }] }

theorem render_recovered_wrapped :
    let o : WrapOptions := { width := 30, indent := 4 }
    Recoverable o wrappedRecord ∧ Block.keepsWords (text wrappedRecord) o = true
      ∧ ∃ c found, Comment.locate .doxygen (lines (render wrappedRecord o)) = [c]
        ∧ parse c = .ok found
        ∧ found.params.map (fun q => (q.name, q.direction, q.typename))
            = [("egg".toList, some .both, none)]
        ∧ found.params.map (fun q => words (q.comment.getD []))
            = [words "(const egg_t *) What to fry, and for how long.".toList]
        ∧ found.returns.map (fun q => words (q.comment.getD []))
            = some (words "int The time.".toList) := by
  intro o
  have hrecoverable : Recoverable o wrappedRecord :=
    { paramName := by decide +kernel
      paramFits := by decide +kernel
      returnFits := fun _ => by decide
      markerless := by
        unfold Markerless
        decide +kernel
      pointsNowhere := by decide +kernel }
  have hkeeps : Block.keepsWords (text wrappedRecord) o = true := by decide +kernel
  obtain ⟨c, found, hlocate, hparse, _, hentries, _, hwords⟩ := render_recovered hrecoverable
  obtain ⟨hparams, hreturns⟩ := hwords hkeeps
  refine ⟨hrecoverable, hkeeps, c, found, hlocate, hparse, hentries, ?_, ?_⟩
  · rw [hparams]
    decide +kernel
  · rw [hreturns]
    decide +kernel

end DocAudit.Doxygen
