/-
  DocAudit.Proofs.Comment.EdtRecovery
  ───────────────────────────────────
  **READING UNDOES WRITING.**

  A record is written in rows and wrapped into a block.  Its definition, its arguments and
  its description fit, its comments may be wrapped at blanks.  Read back, row by row,

      the name, the return type and the names of the parameters  are what they were
      the description                       loses the empty lines around it
      a direction                           is found in the first text behind its argument
      a comment                             is put together again from its pieces

  so the record that is read is the one that was written (`parse_render`).
-/
import DocAudit.Proofs.Comment.Edt
import DocAudit.Proofs.Comment.Render
import DocAudit.Proofs.Comment.TextLines
import DocAudit.Proofs.Text.Case

namespace DocAudit.Edt

open Text Draft

variable {o : WrapOptions} {p : Param}

/-! ## §1. Comments. -/

/-- Words with single spaces between them. -/
def OfWords (c : Text) : Prop := ∃ ws, ws ≠ [] ∧ (∀ w ∈ ws, IsWord w) ∧ c = join [' '] ws

theorem OfWords.spaced {c : Text} (h : OfWords c) : Spaced c := by
  obtain ⟨ws, _, hws, rfl⟩ := h
  exact spaced_join hws

theorem OfWords.spoken {c : Text} (h : OfWords c) : Param.spoken (words c) = some c := by
  obtain ⟨ws, hne, hws, rfl⟩ := h
  rw [words_join_words (by decide) hws]
  exact if_neg hne

/-- A comment begins with a solid character. -/
theorem OfWords.exists_cons {c : Text} (h : OfWords c) :
    ∃ d rest, c = d :: rest ∧ isBlank d = false := by
  obtain ⟨ws, hne, hws, rfl⟩ := h
  cases hc : join [' '] ws with
  | nil =>
    have hwords := words_join_words (x := ' ') (by decide) hws
    rw [hc] at hwords
    exact absurd hwords.symm hne
  | cons d rest => exact ⟨d, rest, rfl, head?_join_words hws d (by rw [hc]; rfl)⟩

/-- A comment is one line. -/
theorem OfWords.not_mem {c : Text} (h : OfWords c) : '\n' ∉ c := by
  intro hin
  exact absurd (h.spaced.plain _ hin (by decide)) (by decide)

/-- Whether a text is a comment can be seen from its words. -/
theorem ofWords_iff {c : Text} :
    OfWords c ↔ words c ≠ [] ∧ (∀ w ∈ words c, IsWord w) ∧ c = join [' '] (words c) := by
  constructor
  · rintro ⟨ws, hne, hws, rfl⟩
    rw [words_join_words (by decide) hws]
    exact ⟨hne, hws, rfl⟩
  · exact fun h => ⟨words c, h⟩

instance (c : Text) : Decidable (OfWords c) := decidable_of_iff' _ ofWords_iff

/-- A stretch of a comment and of spaces in front of it has its words, joined. -/
theorem even_of_infix_append {n : Nat} {c t : Text} (hc : Spaced c) (h : t <:+: spaces n ++ c) :
    Param.Even t := by
  obtain ⟨x, y, rfl, hx, hy⟩ := exists_of_infix_append h
  have hblank : ∀ d ∈ x, isBlank d = true := fun d hd => blank_spaces n d (hx.subset hd)
  unfold Param.Even
  rw [trim_blanks_append hblank, words_blanks_append hblank]
  exact trim_of_spaced (hc.mono hy)

/-- **A comment is put together again from its pieces.** -/
theorem foldl_addComment_pieces {n : Nat} {c : Text} {ts : List Text}
    (hp : p.comment = none) (hc : OfWords c) (hin : ∀ t ∈ ts, t <:+: spaces n ++ c)
    (hwords : ts.flatMap words = words c) :
    ts.foldl Param.addComment p = { p with comment := some c } := by
  have hnone : p.comment = Param.spoken [] := hp
  rw [Param.foldl_addComment_of_even hnone fun t ht => even_of_infix_append hc.spaced (hin t ht),
    List.nil_append, hwords, hc.spoken]

theorem foldl_addComment_row {n : Nat} {c : Text} (hp : p.comment = none)
    (hc : OfWords c) (hkept : Block.rowKeepsWords o (spaces n ++ c) = true) :
    (Block.texts o (spaces n ++ c)).foldl Param.addComment p = { p with comment := some c } := by
  refine foldl_addComment_pieces hp hc (fun t ht => Block.infix_of_mem_texts ht) ?_
  rw [Block.words_texts hkept, Wrap.words_spaces_append]

/-! ## §2. Text lines. -/

instance (t : Text) : Decidable (Markless t) :=
  inferInstanceAs (Decidable (∀ m ∈ marks, ¬ m <:+: t))

theorem Markless.mono {t row : Text} (hrow : Markless row) (h : t <:+: row) : Markless t :=
  fun m hm hin => hrow m hm (hin.trans h)

/-- Spaces in front make no mark. -/
theorem Markless.spaces_append {c : Text} (h : Markless c) (n : Nat) :
    Markless (spaces n ++ c) := by
  have hspace : ∀ m ∈ marks, ' ' ∉ m := by decide
  intro m hm hin
  refine h m hm (infix_of_infix_append (fun d hd => ?_) hin)
  rw [List.eq_of_mem_replicate hd]
  exact hspace m hm

/-- The texts of a comment and of spaces in front of it hold no mark. -/
theorem markless_of_mem_texts {n : Nat} {c t : Text} (h : Markless c)
    (ht : t ∈ Block.texts o (spaces n ++ c)) : Markless t :=
  (h.spaces_append n).mono (Block.infix_of_mem_texts ht)

theorem step_of_text {t : Text} (h : Line.ofText t = .text t) {d : Draft}
    (hname : d.name.isSome = true) (n : Nat) : step d ⟨n, t⟩ = .ok (d.addText addText t) := by
  unfold step
  rw [h]
  dsimp only
  rw [if_neg]
  rintro ⟨_, hnone⟩
  rw [Option.isNone_iff_eq_none] at hnone
  rw [hnone] at hname
  cases hname

/-- Text lines behind the definition are added. -/
theorem reads_textLines {ts : List Text} {d : Draft} (hname : d.name.isSome = true)
    (h : ∀ t ∈ ts, Line.ofText t = .text t) :
    Reads step (· = d) ts (· = ts.foldl (Draft.addText addText) d) :=
  reads_texts d fun t ht n e he => step_of_text (h t ht) (by rw [he]; exact hname) n

theorem reads_markless {ts : List Text} {d : Draft} (hname : d.name.isSome = true)
    (h : ∀ t ∈ ts, Markless t) :
    Reads step (· = d) ts (· = ts.foldl (Draft.addText addText) d) :=
  reads_textLines hname fun t ht => ofText_of_markless (h t ht)

/-! ## §3. Labels. -/

theorem trim_label {label : Text} (h : isLabel label = true) : trim label = label := by
  have hsolid : ∀ c ∈ label, isBlank c = false := fun c hc =>
    isBlank_of_isUpper (List.all_eq_true.1 h c hc)
  cases label with
  | nil => rfl
  | cons c label =>
    rw [trim_cons (hsolid c List.mem_cons_self), trimEnd_of_solid fun d hd => ?_]
    exact hsolid d (List.mem_cons_of_mem c (List.mem_of_getLast? hd))

/-- **A tag in capitals is the label of its direction.** -/
theorem eq_label {label : Text} {d : Direction} (h : Direction.ofTag? label = some d)
    (hlabel : isLabel label = true) : label = d.label := by
  have hback : (label.map Char.toLower).map Char.toUpper = label := by
    rw [List.map_map]
    refine (List.map_congr_left fun c hc => ?_).trans (List.map_id label)
    exact toUpper_toLower (List.all_eq_true.1 hlabel c hc)
  unfold Direction.ofTag? at h
  rw [trim_label hlabel] at h
  dsimp only at h
  generalize label.map Char.toLower = small at h hback
  -- the label is known from the tag, and a tag of two words is no label
  split at h
  · next hin =>
    cases h
    rw [← hback, hin]
    rfl
  split at h
  · next hout =>
    cases h
    rw [← hback, hout]
    rfl
  split at h
  · next hboth =>
    cases h
    rcases hboth with hboth | hboth | hboth | hboth
    · rw [← hback, hboth]
      rfl
    all_goals
      rw [← hback, hboth] at hlabel
      exact absurd hlabel (by decide)
  · cases h

/-- A line that states a direction begins with its label. -/
theorem label_begins {t rest : Text} {d : Direction} (h : labelled? t = some (d, rest)) :
    d.label ++ [':'] <+: t := by
  unfold labelled? at h
  split at h
  · next label more hcut =>
    split at h
    · next d' htag =>
      split at h
      · next hlabel =>
        cases h
        rw [← eq_label htag hlabel, eq_append_of_cut? hcut]
        exact ⟨rest, by rw [List.append_assoc]; rfl⟩
      · cases h
    · cases h
  · cases h

/-- **A label is found.** -/
theorem labelled?_label (d : Direction) (more : Text) :
    labelled? (d.label ++ [':'] ++ more) = some (d, more) := by
  cases d <;> rfl

theorem ofText_label (d : Direction) (more : Text) :
    Line.ofText (d.label ++ [':'] ++ more) = .text (d.label ++ [':'] ++ more) := by
  cases d <;> rfl

/-! ## §4. Entries. -/

/-- A parameter that is read back as it was written. -/
structure RecoverableParam (o : WrapOptions) (p : Param) : Prop where
  /-- The name is one word. -/
  nameWord : IsWord p.name
  /-- The argument fits. -/
  nameFits : 10 + p.name.length ≤ o.width - Block.markWidth
  /-- No type is stated. -/
  untyped : p.typename = none
  /-- There is a comment, and without a direction it does not begin with a label. -/
  comment : ∃ c, p.comment = some c ∧ OfWords c ∧ Markless c
    ∧ (p.direction = none → ∀ d : Direction, ¬ d.label ++ [':'] <+: c)

/-- A return value that is read back as it was written. -/
structure RecoverableReturn (o : WrapOptions) (p : Param) : Prop where
  /-- The entry has the name of return values. -/
  named : p.name = returnName
  /-- It has no direction. -/
  undirected : p.direction = none
  /-- The type, if there is one, is one trimmed line that fits. -/
  typeFits : ∀ t ∈ p.typename,
    t ≠ [] ∧ trim t = t ∧ '\n' ∉ t ∧ 8 + t.length ≤ o.width - Block.markWidth
  /-- There is a comment. -/
  comment : ∃ c, p.comment = some c ∧ OfWords c ∧ Markless c

/-- Once a comment or a direction is there, a line is added to the comment. -/
theorem addText_of_begun (h : (p.comment.isNone && p.direction.isNone) = false) (t : Text) :
    addText p t = p.addComment t := by
  unfold addText
  rw [h]
  rfl

theorem foldl_addText_of_begun (h : (p.comment.isNone && p.direction.isNone) = false)
    (ts : List Text) : ts.foldl addText p = ts.foldl Param.addComment p := by
  induction ts generalizing p with
  | nil => rfl
  | cons t ts ih =>
    have hnext : ((p.addComment t).comment.isNone && (p.addComment t).direction.isNone) = false := by
      unfold Param.addComment
      dsimp only
      split
      · exact h
      · cases p.comment <;> rfl
    rw [List.foldl_cons, List.foldl_cons, addText_of_begun h, ih hnext]

/-- Text lines that complete a parameter of which only the name is known. -/
structure Completes (ts : List Text) (p : Param) : Prop where
  /-- They are text. -/
  isText : ∀ t ∈ ts, Line.ofText t = .text t
  /-- They say the rest. -/
  rest : ts.foldl addText (Param.named p.name) = p

/-- **A direction and a comment** are read from the row of both. -/
theorem completes_directed {name c : Text} {d : Direction} (hc : OfWords c) (hmarks : Markless c)
    (hwide : 8 ≤ o.width - Block.markWidth) {n : Nat}
    (hkept : Block.rowKeepsWords o
      (spaces 2 ++ (d.label ++ [':']) ++ (spaces (n + 1) ++ c)) = true) :
    Completes (Block.texts o (spaces 2 ++ (d.label ++ [':']) ++ (spaces (n + 1) ++ c)))
      { name, comment := some c, direction := some d } := by
  have hlead : ∀ e ∈ spaces 2, isBlank e = true := blank_spaces 2
  have hline : '\n' ∉ spaces 2 ++ (d.label ++ [':']) := by cases d <;> decide
  have hlabel : (spaces 2 ++ (d.label ++ [':'])).length ≤ 8 := by cases d <;> decide
  have hbegin : ∀ e ∈ (d.label ++ [':']).head?, isBlank e = false := by cases d <;> decide
  have hend : EndsSolid (d.label ++ [':']) := ⟨':', List.getLast?_concat, by decide⟩
  have htail : BeginsBlank (spaces (n + 1) ++ c) := beginsBlank_cons (by decide) _
  obtain ⟨more, others, htexts, _, hin, hwords⟩ :=
    Block.texts_of_indented hlead hline (Nat.le_trans hlabel hwide) hbegin hend htail
  have hrest := hwords hkept
  rw [Wrap.words_spaces_append] at hrest
  rw [htexts]
  refine ⟨fun t ht => ?_, ?_⟩
  · rcases List.mem_cons.1 ht with rfl | ht
    · exact ofText_label d more
    · have hrow := hmarks.spaces_append (n + 1)
      exact ofText_of_markless (hrow.mono (hin t (List.mem_cons_of_mem more ht)))
  · -- the first text states the direction, and from then on the comment is collected
    let directed : Param := { name, direction := some d }
    have hfirst : addText (Param.named name) (d.label ++ [':'] ++ more)
        = directed.addComment more := by
      unfold addText
      rw [labelled?_label]
      rfl
    have hbegun : (directed.comment.isNone && directed.direction.isNone) = false := rfl
    calc ((d.label ++ [':'] ++ more) :: others).foldl addText (Param.named name)
        = (more :: others).foldl addText directed := by
          rw [List.foldl_cons, List.foldl_cons, hfirst, addText_of_begun hbegun]
      _ = (more :: others).foldl Param.addComment directed := foldl_addText_of_begun hbegun _
      _ = _ := foldl_addComment_pieces rfl hc hin hrest

/-- **A comment without a direction** is read from its row, if it does not begin with a
label. -/
theorem completes_undirected {name c : Text} (hc : OfWords c) (hmarks : Markless c)
    (hlabel : ∀ d : Direction, ¬ d.label ++ [':'] <+: c)
    (hwide : 8 ≤ o.width - Block.markWidth)
    (hkept : Block.rowKeepsWords o (spaces 2 ++ c) = true) :
    Completes (Block.texts o (spaces 2 ++ c)) { name, comment := some c } := by
  have hall := foldl_addComment_row (p := Param.named name) rfl hc hkept
  refine ⟨fun t ht => ofText_of_markless (markless_of_mem_texts hmarks ht), ?_⟩
  -- the first text begins as the comment does, so it states no direction
  obtain ⟨first, body, rfl, hfirst⟩ := hc.exists_cons
  have hline : '\n' ∉ spaces 2 ++ first :: body := by
    rw [List.mem_append, not_or]
    exact ⟨by decide, hc.not_mem⟩
  rw [Block.texts_of_line hline] at hall ⊢
  obtain ⟨more, others, htexts, hmore⟩ :=
    Block.rowTexts_of_spaces (o := o) (n := 2) (by omega) hfirst body
  rw [htexts] at hall ⊢
  have hnone : labelled? (first :: more) = none := by
    cases hlab : labelled? (first :: more) with
    | none => rfl
    | some found =>
      obtain ⟨d, rest⟩ := found
      have hbegins : first :: more <+: first :: body := List.cons_prefix_cons.2 ⟨rfl, hmore⟩
      exact absurd ((label_begins hlab).trans hbegins) (hlabel d)
  have hone : addText (Param.named name) (first :: more)
      = (Param.named name).addComment (first :: more) := by
    unfold addText
    rw [hnone]
    rfl
  have hbegun : (((Param.named name).addComment (first :: more)).comment.isNone
      && ((Param.named name).addComment (first :: more)).direction.isNone) = false := by
    unfold Param.addComment
    rw [trim_cons hfirst]
    rfl
  calc ((first :: more) :: others).foldl addText (Param.named name)
      = ((first :: more) :: others).foldl Param.addComment (Param.named name) := by
        rw [List.foldl_cons, List.foldl_cons, hone, foldl_addText_of_begun hbegun]
    _ = _ := hall

/-- **The rows of a parameter complete it.** -/
theorem completes_valueRow (h : RecoverableParam o p)
    (hkept : Block.rowKeepsWords o (valueRow p) = true) :
    Completes (Block.texts o (valueRow p)) p := by
  obtain ⟨c, hcomment, hc, hmarks, hlabel⟩ := h.comment
  have hwide : 8 ≤ o.width - Block.markWidth := by
    have hfits := h.nameFits
    omega
  obtain ⟨typename, name, comment, direction⟩ := p
  obtain rfl : typename = none := h.untyped
  obtain rfl : comment = some c := hcomment
  cases direction with
  | none => exact completes_undirected hc hmarks (hlabel rfl) hwide hkept
  | some d =>
    have hrow : valueRow { name, comment := some c, direction := some d }
        = spaces 2 ++ (d.label ++ [':'])
          ++ (spaces (labelWidth - (d.label.length + 3) + 1 + 1) ++ c) := by
      cases d <;> rfl
    rw [hrow] at hkept ⊢
    exact completes_directed hc hmarks hwide hkept

/-! ## §5. Rows that fit. -/

/-- A definition that fits is one text. -/
theorem texts_definitionRow {name : Text} (h : IsWord name)
    (hfit : 16 + name.length ≤ o.width - Block.markWidth) :
    Block.texts o (definitionRow name) = [definitionRow name] := by
  obtain ⟨hne, hsolid⟩ := h
  have hline : '\n' ∉ definitionRow name := by
    unfold definitionRow
    rw [List.mem_append, not_or]
    exact ⟨by decide, fun hin => absurd (hsolid _ hin) (by decide)⟩
  have hlength : (definitionRow name).length = 16 + name.length := by
    have hmark : (definitionMark ++ " * function ".toList).length = 16 := rfl
    unfold definitionRow
    rw [List.length_append, hmark]
  rw [Block.texts_of_line hline]
  exact rowTexts_definitionRow hne hsolid (by omega)

/-- An argument that fits is one text. -/
theorem texts_argumentRow {name : Text} (h : IsWord name)
    (hfit : 10 + name.length ≤ o.width - Block.markWidth) :
    Block.texts o (argumentRow name) = [argumentRow name] := by
  obtain ⟨hne, hsolid⟩ := h
  have hline : '\n' ∉ argumentRow name := by
    unfold argumentRow
    rw [List.mem_append, List.mem_cons, not_or, not_or]
    exact ⟨by decide, by decide, fun hin => absurd (hsolid _ hin) (by decide)⟩
  have hlength : (argumentRow name).length = 10 + name.length := by
    have hmark : argumentMark.length = 9 := rfl
    unfold argumentRow
    rw [List.length_append, hmark, List.length_cons]
    omega
  rw [Block.texts_of_line hline]
  exact rowTexts_argumentRow hne hsolid (by omega)

/-- A return mark and a type that fits are one text. -/
theorem texts_returnRow (h : RecoverableReturn o p) (hwide : 8 ≤ o.width - Block.markWidth) :
    Block.texts o (returnMark ++ ' ' :: p.typename.getD [])
      = [returnMark ++ trimEnd (' ' :: p.typename.getD [])] := by
  obtain ⟨hline, hfit⟩ : '\n' ∉ p.typename.getD []
      ∧ 8 + (p.typename.getD []).length ≤ o.width - Block.markWidth := by
    cases htype : p.typename with
    | none => exact ⟨List.not_mem_nil, hwide⟩
    | some t => exact (h.typeFits t htype).2.2
  have hrow : '\n' ∉ returnMark ++ ' ' :: p.typename.getD [] := by
    rw [List.mem_append, List.mem_cons, not_or, not_or]
    exact ⟨by decide, by decide, hline⟩
  have hlength : (returnMark ++ ' ' :: p.typename.getD []).length
      = 8 + (p.typename.getD []).length := by
    have hmark : returnMark.length = 7 := rfl
    rw [List.length_append, List.length_cons, hmark]
    omega
  have hsolid : EndsSolid returnMark := ⟨':', rfl, by decide⟩
  rw [Block.texts_of_line hrow, Block.rowTexts_of_length (by omega),
    trim_append_of_solid (by decide) hsolid]

/-- What stands behind the mark, trimmed at the end, is read as the type. -/
theorem result_returnType (h : RecoverableReturn o p) :
    result (trimEnd (' ' :: p.typename.getD []))
      = { Param.named returnName with typename := p.typename } := by
  have hblank : ∀ c ∈ [' '], isBlank c = true := by decide
  unfold result
  rw [trim_trimEnd, ← List.singleton_append, trim_blanks_append hblank]
  cases htype : p.typename with
  | none => rfl
  | some t =>
    obtain ⟨hne, htrim, _⟩ := h.typeFits t htype
    rw [Option.getD_some, htrim]
    exact if_neg hne

/-! ## §6. Records. -/

/-- A record that is read back as it was written. -/
structure Recoverable (o : WrapOptions) (r : DocRecord) : Prop where
  /-- The record does not point elsewhere. -/
  stated : r.elsewhere = false
  /-- The name is one word, and the definition fits. -/
  name : ∃ name, r.name = some name ∧ IsWord name ∧ 16 + name.length ≤ o.width - Block.markWidth
  /-- There is a description, and it is trimmed. -/
  described : r.description ≠ [] ∧ trim r.description = r.description
  /-- Every line of the description is trimmed and fits. -/
  descriptionFits : ∀ l ∈ splitOn '\n' r.description,
    trim l = l ∧ l.length ≤ o.width - Block.markWidth
  /-- The description holds no mark. -/
  descriptionMarkless : Markless r.description
  /-- The return value, if there is one. -/
  returns : ∀ p ∈ r.returns, RecoverableReturn o p
  /-- The parameters. -/
  params : ∀ p ∈ r.params, RecoverableParam o p
  /-- No word is cut. -/
  keepsWords : Block.keepsWords (text r) o = true
  /-- No line of the block points elsewhere. -/
  pointsNowhere : ∀ t ∈ Block.bodyTexts (text r) o,
    Reference.isReferenceLine (Reference.extraPhrases .edt) t = false

variable {r : DocRecord}

/-- What the draft of a record holds when the definition, the description and some of the
entries were read. -/
structure HasRead (r : DocRecord) (returns : Option Param) (done : List Param) (d : Draft) :
    Prop where
  /-- The name. -/
  name : d.name = r.name
  /-- The lines of the description, and empty lines around them. -/
  description : ∃ k, d.description = [] :: (splitOn '\n' r.description ++ List.replicate k [])
  /-- The entry of the return value. -/
  returns : d.returns = returns
  /-- The entries of parameters. -/
  params : d.params = done

theorem Recoverable.keepsWords_row (h : Recoverable o r) {row : Text} (hrow : row ∈ rows r) :
    Block.rowKeepsWords o row = true := by
  have hkeeps := h.keepsWords
  rw [text_eq] at hkeeps
  exact Block.rowKeepsWords_of_keepsWords hkeeps hrow

/-- The definition was read. -/
theorem HasRead.isSome_name {returns : Option Param} {done : List Param} {d : Draft}
    (hd : HasRead r returns done d) (h : Recoverable o r) : d.name.isSome = true := by
  obtain ⟨name, hname, _⟩ := h.name
  rw [hd.name, hname]
  rfl

/-- The lines of the description are read as they are. -/
theorem Recoverable.texts_description (h : Recoverable o r) :
    Block.texts o (Block.descriptionOr r.description) = splitOn '\n' r.description := by
  have hor : Block.descriptionOr r.description = r.description := by
    -- a trimmed text that is all blank is empty
    refine if_neg fun hblank => h.described.1 ?_
    have hnil := trim_append_blanks [] (List.all_eq_true.1 hblank)
    rw [List.nil_append, h.described.2] at hnil
    exact hnil
  have hone : ∀ l ∈ splitOn '\n' r.description, Block.rowTexts o l = [l] := by
    intro l hl
    obtain ⟨htrim, hfit⟩ := h.descriptionFits l hl
    rw [Block.rowTexts_of_length hfit, htrim]
  unfold Block.texts
  rw [hor, List.flatMap_congr hone, List.flatMap_singleton']

/-- **The first rows are read as the name and the description.** -/
theorem reads_headRows (h : Recoverable o r) :
    Reads step (· = {})
      ([definitionRow (r.name.getD []), [], Block.descriptionOr r.description, []].flatMap
        (Block.texts o))
      (HasRead r none []) := by
  obtain ⟨name, hname, hword, hfit⟩ := h.name
  have htexts : [definitionRow (r.name.getD []), [], Block.descriptionOr r.description, []].flatMap
      (Block.texts o) = definitionRow name :: ([] :: (splitOn '\n' r.description ++ [[]])) := by
    rw [hname, List.flatMap_cons, List.flatMap_cons, List.flatMap_cons, List.flatMap_singleton,
      Option.getD_some, texts_definitionRow hword hfit, Block.texts_nil, h.texts_description]
    rfl
  rw [htexts]
  have hopen : Reads step (· = {}) [definitionRow name]
      (· = { ({} : Draft) with name := some name }) :=
    Reads.of_step fun n => step_definitionRow hword.1 hword.2 rfl n
  have hmarkless : ∀ t ∈ [] :: (splitOn '\n' r.description ++ [[]]), Markless t := by
    have hnil : Markless [] := h.descriptionMarkless.mono List.nil_infix
    intro t ht
    rcases List.mem_cons.1 ht with rfl | ht
    · exact hnil
    rcases List.mem_append.1 ht with ht | ht
    · exact h.descriptionMarkless.mono (infix_of_mem_splitOn ht)
    · cases List.mem_singleton.1 ht
      exact hnil
  refine (hopen.cons (reads_markless rfl hmarkless)).weaken fun d hd => ?_
  rw [hd, foldl_addText_description rfl]
  exact ⟨hname.symm, ⟨1, rfl⟩, rfl, rfl⟩

theorem addText_empty (p : Param) : addText p [] = p := by
  unfold addText
  split <;> rfl

/-- An empty row changes nothing but the end of the description. -/
theorem reads_emptyRow (h : Recoverable o r) {returns : Option Param} {done : List Param} :
    Reads step (HasRead r returns done) [[]] (HasRead r returns done) := by
  refine Reads.single fun n d hd => ⟨_, step_of_text rfl (hd.isSome_name h) n, ?_⟩
  obtain ⟨k, hk⟩ := hd.description
  obtain ⟨j, hj⟩ := addText_nil addText_empty d
  rw [hj]
  refine ⟨hd.name, ⟨k + j, ?_⟩, hd.returns, hd.params⟩
  show d.description ++ List.replicate j [] = _
  rw [hk, List.replicate_add, List.cons_append, List.append_assoc]

/-- **The rows of a parameter are read as the parameter.** -/
theorem reads_paramRows (h : Recoverable o r) (hp : p ∈ r.params) {returns : Option Param}
    (done : List Param) :
    Reads step (HasRead r returns done) ((paramRows p).flatMap (Block.texts o))
      (HasRead r returns (done ++ [p])) := by
  obtain ⟨hne, hsolid⟩ := (h.params p hp).nameWord
  have hvalue : Completes (Block.texts o (valueRow p)) p := by
    refine completes_valueRow (h.params p hp) (h.keepsWords_row ?_)
    exact List.mem_append_right _ (List.mem_flatMap.2 ⟨p, hp, by simp [paramRows]⟩)
  unfold paramRows
  rw [List.flatMap_cons, List.flatMap_cons, List.flatMap_singleton, Block.texts_nil,
    texts_argumentRow ⟨hne, hsolid⟩ (h.params p hp).nameFits]
  refine (reads_emptyRow h).append (Reads.of_each fun d hd => ?_)
  have hopen : Reads step (· = d) [argumentRow p.name]
      (· = d.addParam (Param.named p.name)) :=
    Reads.of_step fun n => step_argumentRow hne hsolid n d
  have hname : (d.addParam (Param.named p.name)).name.isSome = true := hd.isSome_name h
  refine (hopen.cons (reads_textLines hname hvalue.isText)).weaken fun e he => ?_
  rw [he, foldl_addText_parameter rfl rfl, hvalue.rest]
  refine ⟨hd.name, hd.description, hd.returns, ?_⟩
  show d.params ++ [p] = done ++ [p]
  rw [hd.params]

/-- **The rows of a return value are read as the return value.** -/
theorem reads_returnRows (h : Recoverable o r) (hp : p ∈ r.returns) :
    Reads step (HasRead r none []) ((returnRows p).flatMap (Block.texts o))
      (HasRead r (some p) []) := by
  have hreturn := h.returns p hp
  obtain ⟨c, hcomment, hc, hmarks⟩ := hreturn.comment
  have hwide : 8 ≤ o.width - Block.markWidth := by
    obtain ⟨name, _, _, hfit⟩ := h.name
    omega
  have hkept : Block.rowKeepsWords o (spaces 2 ++ Block.commentOr p.comment) = true := by
    refine h.keepsWords_row (List.mem_append_left _ (List.mem_append_right _ ?_))
    rw [Option.mem_def.1 hp]
    exact List.mem_cons_of_mem _ (List.mem_singleton_self _)
  rw [hcomment] at hkept
  unfold returnRows
  rw [List.flatMap_cons, List.flatMap_singleton, texts_returnRow hreturn hwide, hcomment]
  refine Reads.of_each fun d hd => ?_
  have hopen : Reads step (· = d) [returnMark ++ trimEnd (' ' :: p.typename.getD [])]
      (· = d.setReturns { Param.named returnName with typename := p.typename }) := by
    rw [← result_returnType hreturn]
    refine Reads.of_step fun n => step_returnMark _ ?_ n
    rw [hd.returns]
    rfl
  have hname : (d.setReturns { Param.named returnName with typename := p.typename }).name.isSome
      = true := hd.isSome_name h
  have hpieces : ∀ t ∈ Block.texts o (spaces 2 ++ c), Markless t := fun _ ht =>
    markless_of_mem_texts hmarks ht
  have htail := reads_markless hname hpieces
  refine (hopen.cons htail).weaken fun e he => ?_
  rw [he, foldl_addText_result rfl rfl, foldl_addComment_row rfl hc hkept]
  refine ⟨hd.name, hd.description, ?_, hd.params⟩
  show some ({ typename := p.typename, name := returnName, comment := some c } : Param) = some p
  rw [← hreturn.named, ← hcomment, ← hreturn.undirected]

/-- **The rows of a record are read as the record.** -/
theorem reads_rows (h : Recoverable o r) :
    Reads step (· = {}) ((rows r).flatMap (Block.texts o)) (HasRead r r.returns r.params) := by
  have hreturns : Reads step (HasRead r none [])
      (((r.returns.map returnRows).getD []).flatMap (Block.texts o)) (HasRead r r.returns []) := by
    cases hr : r.returns with
    | none => exact Reads.nil _
    | some p => exact reads_returnRows h hr
  have hparams : Reads step (HasRead r r.returns [])
      ((r.params.flatMap paramRows).flatMap (Block.texts o)) (HasRead r r.returns r.params) := by
    rw [List.flatMap_assoc]
    exact Reads.entries (I := HasRead r r.returns) (fun p hp done => reads_paramRows h hp done) []
  unfold rows
  rw [List.flatMap_append, List.flatMap_append]
  exact ((reads_headRows h).append hreturns).append hparams

/-- Empty lines at the end are trimmed. -/
theorem trim_join_append_replicate {ls : List Text} (hne : ls ≠ []) (k : Nat) :
    trim (join ['\n'] (ls ++ List.replicate k [])) = trim (join ['\n'] ls) := by
  induction k with
  | zero => rw [List.replicate_zero, List.append_nil]
  | succ k ih =>
    have hfront : ls ++ List.replicate k [] ≠ [] := List.append_ne_nil_of_left_ne_nil hne _
    have hfeed : ∀ c ∈ ['\n'], isBlank c = true := by decide
    rw [List.replicate_succ', ← List.append_assoc, join_append hfront (List.cons_ne_nil _ _),
      join_singleton, List.append_nil, trim_append_blanks _ hfeed, ih]

/-- The lines of a trimmed text, with empty lines around them, are trimmed to the text. -/
theorem trim_join_lines {t : Text} (h : trim t = t) (k : Nat) :
    trim (join ['\n'] ([] :: (splitOn '\n' t ++ List.replicate k []))) = t := by
  have hfeed : ∀ c ∈ ['\n'], isBlank c = true := by decide
  have hfirst : join ['\n'] ([] :: splitOn '\n' t) = ['\n'] ++ t := by
    obtain ⟨l, ls, hls⟩ := List.exists_cons_of_ne_nil (splitWhere_ne_nil (· == '\n') t)
    have hjoin := join_splitOn '\n' t
    rw [show splitOn '\n' t = l :: ls from hls] at hjoin ⊢
    rw [join_cons_cons, hjoin]
    rfl
  rw [← List.cons_append, trim_join_append_replicate (List.cons_ne_nil _ _), hfirst,
    trim_blanks_append hfeed, h]

/-- **READING UNDOES WRITING.**  The block of a recoverable record is one comment, and
what is read of it is the record. -/
theorem parse_render (h : Recoverable o r) :
    ∃ c, Comment.locate .edt (lines (render r o)) = [c] ∧ parse c = .ok (some r) := by
  have hrows : rows r ≠ [] := List.cons_ne_nil _ _
  have hbody : Block.bodyTexts (text r) o = (rows r).flatMap (Block.texts o) := by
    rw [text_eq, Block.bodyTexts_flatMap_line hrows]
  obtain ⟨d, hsteps, hread⟩ := reads_rows h 2 {} rfl
  rw [← hbody, ← steps_eq_foldlM] at hsteps
  have hrecord : d.toRecord = r := by
    obtain ⟨k, hdescription⟩ := hread.description
    unfold toRecord
    rw [hread.name, hdescription, trim_join_lines h.described.2, hread.returns, hread.params,
      ← h.stated]
  refine ⟨Block.rendered (text r) .edt o, Block.locate_render _ _ _, ?_⟩
  unfold parse
  rw [Block.body_rendered]
  dsimp only
  rw [if_neg (Bool.eq_false_iff.1 (Comment.isReference_numbered h.pointsNowhere 2)), hsteps]
  dsimp only
  rw [if_pos (HasRead.isSome_name hread h), hrecord]

/-- A parameter with a direction. -/
def writtenEgg : Param :=
  { name := "egg".toList
    comment := some "What to fry, and for how long: four minutes.".toList
    direction := some .both }

/-- A parameter without one. -/
def writtenPan : Param :=
  { name := "pan".toList, comment := some "IN which to fry: a pan of iron.".toList }

/-- The return value. -/
def writtenTime : Param :=
  { Param.returning "unsigned long".toList with
    comment := some "The minutes that it took to fry the egg.".toList }

/-- A record of these, whose comments are wrapped. -/
def writtenRecord : DocRecord :=
  { name := some "fry".toList
    description := "Fries an egg\n\nin a pan.".toList
    returns := some writtenTime
    params := [writtenEgg, writtenPan] }

theorem parse_render_written :
    let o : WrapOptions := { width := 30, indent := 4 }
    Recoverable o writtenRecord
      ∧ ∃ c, Comment.locate .edt (lines (render writtenRecord o)) = [c]
        ∧ parse c = .ok (some writtenRecord) := by
  intro o
  have hegg : RecoverableParam o writtenEgg :=
    { nameWord := by decide
      nameFits := by decide
      untyped := rfl
      comment := ⟨_, rfl, by decide +kernel, by decide +kernel, fun hnone => by cases hnone⟩ }
  have hpan : RecoverableParam o writtenPan :=
    { nameWord := by decide
      nameFits := by decide
      untyped := rfl
      comment := ⟨_, rfl, by decide +kernel, by decide +kernel, fun _ d => by cases d <;> decide⟩ }
  have htime : RecoverableReturn o writtenTime :=
    { named := rfl
      undirected := rfl
      typeFits := by decide +kernel
      comment := ⟨_, rfl, by decide +kernel, by decide +kernel⟩ }
  have hrecoverable : Recoverable o writtenRecord :=
    { stated := rfl
      name := ⟨_, rfl, by decide, by decide⟩
      described := by decide +kernel
      descriptionFits := by decide +kernel
      descriptionMarkless := by decide +kernel
      returns := fun p hp => by
        cases hp
        exact htime
      params := fun p hp => by
        rcases List.mem_cons.1 hp with rfl | hp
        · exact hegg
        · cases List.mem_singleton.1 hp
          exact hpan
      keepsWords := by decide +kernel
      pointsNowhere := by decide +kernel }
  exact ⟨hrecoverable, parse_render hrecoverable⟩

end DocAudit.Edt
