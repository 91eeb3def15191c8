/-
  DocAudit.Proofs.Comment.Entries
  ───────────────────────────────
  **EVERY BODY LINE GOES TO ONE ENTRY.**

  Cut at its marker lines, a body is some lines before the first marker, and for each
  marker the lines below it up to the next one (`Segmented`).  What a record says of an
  entry is told by that one stretch of lines:

                   the marker line                       the lines below it
      Doxygen      name, direction, first text           texts
      EDT          name and type of a parameter,         texts, the first of which may
                   type of a return value                begin with a direction

  and the description by the lines before the first marker.  A reading keeps a cursor and
  writes into the entry opened last; that it says the same is `lines_go_to_their_entries`.
-/
import DocAudit.Proofs.Comment.Doxygen
import DocAudit.Proofs.Comment.EdtRecovery
import DocAudit.Proofs.Comment.Rules

namespace DocAudit

open Text

/-! ## §1. Cutting a body at its markers. -/

/-- A marker line, and the lines below it up to the next one. -/
structure Entry where
  /-- The marker line. -/
  head : BodyLine
  /-- The lines below it. -/
  below : List BodyLine
  deriving DecidableEq, Repr

/-- The lines of an entry. -/
def Entry.lines (e : Entry) : List BodyLine := e.head :: e.below

/-- **A body, cut at its marker lines**: nothing is lost, nothing stands twice, and only the
first line of an entry is a marker. -/
structure Segmented (marker : Text → Marker) (ls before : List BodyLine)
    (entries : List Entry) : Prop where
  /-- The stretches make up the body. -/
  whole : ls = before ++ entries.flatMap Entry.lines
  /-- No marker stands before the first entry. -/
  before : ∀ l ∈ before, marker l.text = .text
  /-- An entry begins with a marker. -/
  head : ∀ e ∈ entries, marker e.head.text ≠ .text
  /-- An entry holds no other marker. -/
  below : ∀ e ∈ entries, ∀ l ∈ e.below, marker l.text = .text

/-- **Every body can be cut at its markers.** -/
theorem exists_segmented (marker : Text → Marker) (ls : List BodyLine) :
    ∃ before entries, Segmented marker ls before entries := by
  -- from the last line up: a marker takes the lines that were before the first marker
  induction ls with
  | nil => exact ⟨[], [], rfl, by simp, by simp, by simp⟩
  | cons l ls ih =>
    obtain ⟨before, entries, hwhole, hbefore, hhead, hbelow⟩ := ih
    by_cases hl : marker l.text = .text
    · exact ⟨l :: before, entries, by rw [hwhole]; rfl,
        List.forall_mem_cons.2 ⟨hl, hbefore⟩, hhead, hbelow⟩
    · exact ⟨[], ⟨l, before⟩ :: entries, by rw [hwhole]; rfl, by simp,
        List.forall_mem_cons.2 ⟨hl, hhead⟩, List.forall_mem_cons.2 ⟨hbefore, hbelow⟩⟩

/-! ## §2. What texts say. -/

namespace Param

/-- What texts say: the trimmed ones that are not empty. -/
def gathered (ts : List Text) : List Text := (ts.map trim).filter (· ≠ [])

theorem gathered_cons_of_blank {t : Text} (h : trim t = []) (ts : List Text) :
    gathered (t :: ts) = gathered ts := by
  simp [gathered, h]

theorem gathered_append (ts us : List Text) : gathered (ts ++ us) = gathered ts ++ gathered us := by
  simp [gathered]

theorem gathered_cons {t : Text} (h : trim t ≠ []) (ts : List Text) :
    gathered (t :: ts) = trim t :: gathered ts := by
  simp [gathered, h]

/-- **Lines that are added to an entry** make up its comment: the trimmed texts that are not
empty, joined by single spaces. -/
theorem foldl_addComment_of_spoken {p : Param} {ws : List Text} (hp : p.comment = spoken ws)
    (ts : List Text) :
    ts.foldl addComment p = { p with comment := spoken (ws ++ gathered ts) } := by
  induction ts generalizing p ws with
  | nil =>
    show p = { p with comment := spoken (ws ++ []) }
    rw [List.append_nil, ← hp]
  | cons t ts ih =>
    rw [List.foldl_cons]
    by_cases ht : trim t = []
    · have hsame : p.addComment t = p := if_pos ht
      rw [hsame, gathered_cons_of_blank ht]
      exact ih hp
    · have hmore : p.addComment t = { p with comment := spoken (ws ++ [trim t]) } := by
        unfold addComment
        dsimp only
        rw [if_neg ht, hp]
        -- the first text stands alone, any other behind a space
        cases ws with
        | nil => rw [List.nil_append, spoken, spoken, if_pos rfl, if_neg (by simp), join_singleton]
        | cons w ws =>
          rw [spoken, spoken, if_neg (by simp), if_neg (by simp),
            join_append (List.cons_ne_nil w ws) (by simp), join_singleton, List.append_assoc]
          rfl
      rw [hmore, gathered_cons ht, ih rfl, List.append_assoc]
      rfl

theorem foldl_addComment_of_fresh {p : Param} (hp : p.comment = none) (ts : List Text) :
    ts.foldl addComment p = { p with comment := spoken (gathered ts) } := by
  have hnone : p.comment = spoken [] := hp
  rw [foldl_addComment_of_spoken hnone, List.nil_append]

end Param

/-- **Entries that a run of lines adds to a draft.** -/
structure Draft.Gains (d next : Draft) (params returns : List (Option Param)) : Prop where
  /-- The parameters, behind those that were there. -/
  params : next.params.map some = d.params.map some ++ params
  /-- The return entry, if there was none. -/
  returns : next.returns.toList.map some = d.returns.toList.map some ++ returns
  /-- The description is complete once there is an entry. -/
  description : next.description = d.description

/-- A definition is no entry. -/
theorem Draft.Gains.named {d next : Draft} {params returns : List (Option Param)}
    (h : d.Gains next params returns) (name : Option Text) :
    d.Gains { next with name } params returns := ⟨h.params, h.returns, h.description⟩

theorem Draft.Gains.trans {d e f : Draft} {ps qs rs ss : List (Option Param)}
    (h : d.Gains e ps rs) (k : e.Gains f qs ss) : d.Gains f (ps ++ qs) (rs ++ ss) where
  params := by rw [k.params, h.params, List.append_assoc]
  returns := by rw [k.returns, h.returns, List.append_assoc]
  description := k.description.trans h.description

/-- A run of lines, from its first line on. -/
theorem Draft.foldlM_cons_eq_ok {step : Draft.Step} {d next : Draft} {l : BodyLine}
    {ls : List BodyLine} :
    (l :: ls).foldlM step d = .ok next ↔ ∃ e, step d l = .ok e ∧ ls.foldlM step e = .ok next := by
  rw [List.foldlM_cons]
  cases step d l <;> simp [bind, Except.bind]

/-- A run of lines in two halves. -/
theorem Draft.foldlM_append_eq_ok {step : Draft.Step} {d next : Draft} {as bs : List BodyLine} :
    (as ++ bs).foldlM step d = .ok next
      ↔ ∃ e, as.foldlM step d = .ok e ∧ bs.foldlM step e = .ok next := by
  rw [List.foldlM_append]
  cases as.foldlM step d <;> simp [bind, Except.bind]

theorem Draft.cursor_foldl_addText {toParam : Param → Text → Param} (d : Draft)
    (ts : List Text) : (ts.foldl (Draft.addText toParam) d).cursor = d.cursor := by
  induction ts generalizing d with
  | nil => rfl
  | cons t ts ih =>
    rw [List.foldl_cons, ih]
    unfold Draft.addText
    split <;> rfl

/-- A parameter is opened, and text lines are added to it. -/
theorem Draft.gains_addParam (toParam : Param → Text → Param) (d : Draft) (p : Param)
    (ts : List Text) :
    d.Gains (ts.foldl (Draft.addText toParam) (d.addParam p)) [some (ts.foldl toParam p)] [] := by
  have hparams : (d.addParam p).params = d.params ++ [p] := rfl
  rw [Draft.foldl_addText_parameter rfl hparams]
  exact ⟨by simp, (List.append_nil _).symm, rfl⟩

/-- The return entry is opened, and text lines are added to it. -/
theorem Draft.gains_setReturns (toParam : Param → Text → Param) {d : Draft}
    (hd : d.returns = none) (p : Param) (ts : List Text) :
    d.Gains (ts.foldl (Draft.addText toParam) (d.setReturns p)) []
      [some (ts.foldl Param.addComment p)] := by
  rw [Draft.foldl_addText_result (p := p) rfl rfl]
  exact ⟨(List.append_nil _).symm, by rw [hd]; rfl, rfl⟩

/-! ## §3. Doxygen. -/

namespace Doxygen

/-- **What an entry says of a parameter.** -/
def entryParam? (e : Entry) : Option Param :=
  let (word, rest) := splitWord e.head.text
  let (name, behind) := splitWord rest
  if name = [] then none
  else some
    { name
      direction := markerDirection? word
      comment := Param.spoken (Param.gathered (behind :: e.below.map (·.text))) }

/-- **What an entry says of the return value.** -/
def entryResult? (e : Entry) : Option Param :=
  some
    { name := returnName
      comment := Param.spoken
        (Param.gathered ((splitWord e.head.text).2 :: e.below.map (·.text))) }

/-- Lines without a marker are added, one after another. -/
theorem foldlM_step_of_text {ls : List BodyLine} (h : ∀ l ∈ ls, marker l.text = .text)
    (d : Draft) :
    ls.foldlM step d = .ok ((ls.map (·.text)).foldl (Draft.addText Param.addComment) d) := by
  induction ls generalizing d with
  | nil => rfl
  | cons l ls ih =>
    have hone : step d l = .ok (d.addText Param.addComment l.text) := by
      unfold step
      rw [h l List.mem_cons_self]
    rw [List.foldlM_cons, hone]
    exact ih (fun u hu => h u (List.mem_cons_of_mem l hu)) _

theorem entryParam?_eq (e : Entry) :
    entryParam? e
      = (param? e.head.text).map fun p => (e.below.map (·.text)).foldl Param.addComment p := by
  unfold entryParam? param?
  dsimp only
  split
  · rfl
  · rw [Option.map_some, ← List.foldl_cons, Param.foldl_addComment_of_fresh rfl]

theorem entryResult?_eq (e : Entry) :
    entryResult? e
      = some ((e.below.map (·.text)).foldl Param.addComment (result e.head.text)) := by
  unfold entryResult? result
  rw [← List.foldl_cons, Param.foldl_addComment_of_fresh rfl]
  rfl

/-- **One entry** is read as what its own lines say. -/
theorem gains_entry {e : Entry} (hbelow : ∀ l ∈ e.below, marker l.text = .text)
    (hhead : marker e.head.text ≠ .text) {d next : Draft}
    (h : e.lines.foldlM step d = .ok next) :
    d.Gains next (([e].filter (marker ·.head.text = .parameter)).map entryParam?)
      (([e].filter (marker ·.head.text = .result)).map entryResult?) := by
  unfold Entry.lines at h
  rw [List.foldlM_cons] at h
  cases hmarker : marker e.head.text with
  | text => exact absurd hmarker hhead
  | parameter =>
    cases hparam : param? e.head.text with
    | none =>
      have hone : step d e.head = .error ⟨e.head.line, .paramWithoutName⟩ := by
        simp [step, hmarker, hparam]
      rw [hone] at h
      cases h
    | some p =>
      have hone : step d e.head = .ok (d.addParam p) := by simp [step, hmarker, hparam]
      rw [hone] at h
      have hnext := (foldlM_step_of_text hbelow (d.addParam p)).symm.trans h
      cases hnext
      simpa [hmarker, entryParam?_eq, hparam] using d.gains_addParam Param.addComment p _
  | result =>
    by_cases hsecond : d.returns.isSome = true
    · have hone : step d e.head = .error ⟨e.head.line, .secondReturn⟩ := by
        simp [step, hmarker, hsecond]
      rw [hone] at h
      cases h
    · have hone : step d e.head = .ok (d.setReturns (result e.head.text)) := by
        simp [step, hmarker, hsecond]
      rw [hone] at h
      have hnext := (foldlM_step_of_text hbelow _).symm.trans h
      cases hnext
      have hnone : d.returns = none := Option.not_isSome_iff_eq_none.1 hsecond
      simpa [hmarker, entryResult?_eq] using Draft.gains_setReturns Param.addComment hnone _ _

end Doxygen

/-! ## §4. EDT. -/

namespace Edt

/-- What a text introduces.  A definition opens no entry. -/
def marker (t : Text) : Marker :=
  match Line.ofText t with
  | .argument _ => .parameter
  | .result _ => .result
  | _ => .text

/-- The texts among lines; definitions are passed over. -/
def texts (ls : List BodyLine) : List Text :=
  ls.filterMap fun l =>
    match Line.ofText l.text with
    | .text t => some t
    | _ => none

theorem texts_append (as bs : List BodyLine) : texts (as ++ bs) = texts as ++ texts bs :=
  List.filterMap_append

/-- Whether a line is a definition. -/
def isDefinition (l : BodyLine) : Bool :=
  match Line.ofText l.text with
  | .definition _ => true
  | _ => false

/-- **The lines of a description**: the texts behind the definition. -/
def described (ls : List BodyLine) : List Text := texts (ls.dropWhile (!isDefinition ·))

/-- The labels of directions, with which a text may begin. -/
def labels : List Direction := [.input, .output, .both]

/-- The direction with whose label a text begins, and what follows the label. -/
def label? (t : Text) : Option (Direction × Text) :=
  labels.findSome? fun d => (after? (d.label ++ [':']) t).map (d, ·)

/-- **What texts say of a parameter**: the first that is not empty may state its direction. -/
def informed (p : Param) (ts : List Text) : Param :=
  match Param.gathered ts with
  | [] => p
  | first :: more =>
    match label? first with
    | some (d, rest) =>
      { p with direction := some d, comment := Param.spoken (Param.gathered [rest] ++ more) }
    | none => { p with comment := Param.spoken (first :: more) }

/-- **What an entry says of a parameter.** -/
def entryParam? (e : Entry) : Option Param :=
  match Line.ofText e.head.text with
  | .argument rest => (argument? rest).map (informed · (texts e.below))
  | _ => none

/-- **What an entry says of the return value.** -/
def entryResult? (e : Entry) : Option Param :=
  match Line.ofText e.head.text with
  | .result rest =>
    some
      { name := returnName
        typename := if trim rest = [] then none else some (trim rest)
        comment := Param.spoken (Param.gathered (texts e.below)) }
  | _ => none

/-- **A label is read where a text begins with one.** -/
theorem labelled?_eq (t : Text) : labelled? t = label? t := by
  have hlabel : ∀ (d : Direction) (rest : Text), label? (d.label ++ [':'] ++ rest) = some (d, rest) := by
    intro d rest
    cases d <;> rfl
  cases h : labelled? t with
  | some found =>
    obtain ⟨d, rest⟩ := found
    obtain ⟨more, rfl⟩ := label_begins h
    rw [labelled?_label] at h
    rw [hlabel, h]
  | none =>
    cases hl : label? t with
    | none => rfl
    | some found =>
      obtain ⟨d, _, hd⟩ := List.exists_of_findSome?_eq_some hl
      obtain ⟨rest, hrest, _⟩ := Option.map_eq_some_iff.1 hd
      -- what begins with a label is read as labelled
      have ht : t = d.label ++ [':'] ++ rest := by
        unfold after? at hrest
        split at hrest
        · next hbegins =>
          cases hrest
          obtain ⟨more, rfl⟩ := List.isPrefixOf_iff_prefix.1 hbegins
          rw [List.drop_left]
        · cases hrest
      rw [ht, labelled?_label] at h
      cases h

section Informed

variable {p : Param} (hcomment : p.comment = none) (hdirection : p.direction = none) {t : Text}

include hcomment hdirection

theorem addText_of_fresh (t : Text) :
    addText p t =
      match labelled? t with
      | some (d, rest) => { p with direction := some d }.addComment rest
      | none => p.addComment t := by
  unfold addText
  rw [hcomment, hdirection]
  rfl

/-- A first text with a label states the direction. -/
theorem foldl_addText_of_label {d : Direction} {rest : Text} (h : labelled? t = some (d, rest))
    (ts : List Text) :
    (t :: ts).foldl addText p = { p with
      direction := some d
      comment := Param.spoken (Param.gathered (rest :: ts)) } := by
  let directed : Param := { p with direction := some d }
  have hspoken : directed.comment = Param.spoken [] := hcomment
  have hbegun : (directed.comment.isNone && directed.direction.isNone) = false := Bool.and_false _
  have hone : addText p t = directed.addComment rest := by
    rw [addText_of_fresh hcomment hdirection, h]
  rw [List.foldl_cons, hone, ← addText_of_begun hbegun, ← List.foldl_cons,
    foldl_addText_of_begun hbegun, Param.foldl_addComment_of_spoken hspoken, List.nil_append]

/-- Without a label it is the beginning of the comment. -/
theorem foldl_addText_of_no_label (ht : trim t ≠ []) (h : labelled? t = none) (ts : List Text) :
    (t :: ts).foldl addText p
      = { p with comment := Param.spoken (Param.gathered (t :: ts)) } := by
  have hspoken : p.comment = Param.spoken [] := hcomment
  have hone : addText p t = p.addComment t := by
    rw [addText_of_fresh hcomment hdirection, h]
  have hbegun : ((p.addComment t).comment.isNone && (p.addComment t).direction.isNone) = false := by
    unfold Param.addComment
    dsimp only
    rw [if_neg ht, hcomment]
    rfl
  rw [List.foldl_cons, hone, foldl_addText_of_begun hbegun, ← List.foldl_cons,
    Param.foldl_addComment_of_spoken hspoken, List.nil_append]

/-- **Trimmed texts that are added to an argument** inform about it. -/
theorem foldl_addText_eq {ts : List Text} (hts : ∀ u ∈ ts, trim u = u) :
    ts.foldl addText p = informed p ts := by
  induction ts with
  | nil => rfl
  | cons t ts ih =>
    have ht : trim t = t := hts t List.mem_cons_self
    by_cases hnil : t = []
    · -- an empty text tells nothing
      have hsame : informed p (t :: ts) = informed p ts := by
        unfold informed
        rw [Param.gathered_cons_of_blank (by rw [ht, hnil])]
      rw [hsame, List.foldl_cons, hnil, addText_empty]
      exact ih fun u hu => hts u (List.mem_cons_of_mem t hu)
    have hsolid : trim t ≠ [] := by rwa [ht]
    unfold informed
    rw [Param.gathered_cons hsolid, ht]
    dsimp only
    cases hlabel : labelled? t with
    | some found =>
      obtain ⟨d, rest⟩ := found
      rw [foldl_addText_of_label hcomment hdirection hlabel, ← labelled?_eq, hlabel,
        ← List.singleton_append, Param.gathered_append]
    | none =>
      rw [foldl_addText_of_no_label hcomment hdirection hsolid hlabel, ← labelled?_eq, hlabel,
        Param.gathered_cons hsolid, ht]

end Informed

theorem foldl_addText_named (d : Draft) (name : Option Text) (ts : List Text) :
    ts.foldl (Draft.addText addText) { d with name }
      = { ts.foldl (Draft.addText addText) d with name } := by
  induction ts generalizing d with
  | nil => rfl
  | cons t ts ih =>
    have hone : ({ d with name } : Draft).addText addText t = { d.addText addText t with name } := by
      unfold Draft.addText
      cases d.cursor <;> rfl
    rw [List.foldl_cons, List.foldl_cons, hone, ih]

/-- A text line or a definition, read behind a marker. -/
theorem exists_step_of_text {l : BodyLine} (hl : marker l.text = .text) {d next : Draft}
    (hcursor : d.cursor ≠ .description) (h : step d l = .ok next) :
    ∃ name, next = { (texts [l]).foldl (Draft.addText addText) d with name } := by
  unfold marker at hl
  unfold step at h
  unfold texts
  cases hline : Line.ofText l.text with
  | argument rest => simp [hline] at hl
  | result rest => simp [hline] at hl
  | definition rest =>
    rw [hline] at h
    dsimp only at h
    split at h
    · cases h
    · split at h
      · next name _ =>
        cases h
        exact ⟨some name, by simp [hline]⟩
      · cases h
  | text t =>
    rw [hline] at h
    dsimp only at h
    rw [if_neg (fun hd => hcursor hd.1)] at h
    cases h
    have hname : (d.addText addText t).name = d.name := Draft.name_addText d t
    exact ⟨d.name, by simp [hline, ← hname]⟩

/-- Lines that open no entry, read behind a marker: texts are added, and a definition only
names the record. -/
theorem exists_foldlM_step_of_text {ls : List BodyLine} (h : ∀ l ∈ ls, marker l.text = .text)
    {d next : Draft} (hcursor : d.cursor ≠ .description) (hrun : ls.foldlM step d = .ok next) :
    ∃ name, next = { (texts ls).foldl (Draft.addText addText) d with name } := by
  induction ls generalizing d with
  | nil =>
    cases hrun
    exact ⟨next.name, rfl⟩
  | cons l ls ih =>
    obtain ⟨e, hone, hrest⟩ := Draft.foldlM_cons_eq_ok.1 hrun
    obtain ⟨name, rfl⟩ := exists_step_of_text (h l List.mem_cons_self) hcursor hone
    have hbehind : ((texts [l]).foldl (Draft.addText addText) d).cursor ≠ .description := by
      rwa [Draft.cursor_foldl_addText]
    obtain ⟨last, hlast⟩ := ih (fun u hu => h u (List.mem_cons_of_mem l hu)) (by exact hbehind) hrest
    refine ⟨last, ?_⟩
    rw [hlast, foldl_addText_named, ← List.foldl_append, ← texts_append]
    rfl

/-- A line before the first marker. -/
theorem exists_step_before {l : BodyLine} (hl : marker l.text = .text) {d next : Draft}
    (hcursor : d.cursor = .description) (h : step d l = .ok next) :
    (next.name.isSome = (d.name.isSome || isDefinition l))
      ∧ next = { d with
          name := next.name
          description := d.description ++ if d.name.isSome then texts [l] else [] } := by
  unfold marker at hl
  unfold step at h
  cases hline : Line.ofText l.text with
  | argument rest => simp [hline] at hl
  | result rest => simp [hline] at hl
  | definition rest =>
    rw [hline] at h
    dsimp only at h
    split at h
    · cases h
    · next hfirst =>
      split at h
      · cases h
        simp [isDefinition, hline, hfirst]
      · cases h
  | text t =>
    rw [hline] at h
    dsimp only at h
    rcases Option.eq_none_or_eq_some d.name with hname | ⟨name, hname⟩
    · rw [if_pos (by simp [hcursor, hname])] at h
      cases h
      have hsame : d.description ++ (if d.name.isSome then texts [l] else []) = d.description := by
        simp [hname]
      exact ⟨by simp [isDefinition, hline], by rw [hsame]⟩
    · have hadd : d.addText addText t = { d with description := d.description ++ [t] } :=
        Draft.foldl_addText_description hcursor [t]
      rw [if_neg (by simp [hname]), hadd] at h
      cases h
      simp [isDefinition, texts, hline, hname]

/-- **The lines before the first marker**: the definition names the record, and the texts
behind it are the description. -/
theorem foldlM_step_before {ls : List BodyLine} (h : ∀ l ∈ ls, marker l.text = .text)
    {d next : Draft} (hcursor : d.cursor = .description) (hrun : ls.foldlM step d = .ok next) :
    next = { d with
      name := next.name
      description := d.description ++ if d.name.isSome then texts ls else described ls } := by
  induction ls generalizing d with
  | nil =>
    cases hrun
    have hnone : (if next.name.isSome then texts [] else described []) = [] := ite_self []
    rw [hnone, List.append_nil]
  | cons l ls ih =>
    obtain ⟨e, hone, hrest⟩ := Draft.foldlM_cons_eq_ok.1 hrun
    obtain ⟨hname, he⟩ := exists_step_before (h l List.mem_cons_self) hcursor hone
    have hcursor' : e.cursor = .description := by rw [he]; exact hcursor
    have hnext := ih (fun u hu => h u (List.mem_cons_of_mem l hu)) hcursor' hrest
    have htexts : texts (l :: ls) = texts [l] ++ texts ls := texts_append [l] ls
    have hdescribed : (if d.name.isSome then texts [l] else [])
        ++ (if e.name.isSome then texts ls else described ls)
        = if d.name.isSome then texts (l :: ls) else described (l :: ls) := by
      rw [hname, htexts]
      cases hl : isDefinition l <;> cases d.name.isSome <;> simp [described, hl, htexts]
      -- a definition is no text
      unfold isDefinition at hl
      unfold texts
      split at hl
      · next hline => simp [hline]
      · cases hl
    rw [← hdescribed, ← List.append_assoc]
    rw [hnext]
    generalize (if e.name.isSome then texts ls else described ls) = more
    rw [he]

/-- The texts of trimmed lines are trimmed. -/
theorem trim_of_mem_texts {ls : List BodyLine} (h : ∀ l ∈ ls, trim l.text = l.text) {t : Text}
    (ht : t ∈ texts ls) : trim t = t := by
  obtain ⟨l, hl, htext⟩ := List.mem_filterMap.1 ht
  cases hline : Line.ofText l.text with
  | definition rest => simp [hline] at htext
  | argument rest => simp [hline] at htext
  | result rest => simp [hline] at htext
  | text u =>
    rw [hline] at htext
    cases htext
    have hsame : t = l.text := by
      unfold Line.ofText at hline
      split at hline
      · cases hline
      split at hline
      · cases hline
      split at hline
      · cases hline
      · cases hline
        rfl
    rw [hsame]
    exact h l hl

/-- The return value of a return line, and the texts below it. -/
theorem foldl_addComment_result (rest : Text) (ts : List Text) :
    ts.foldl Param.addComment (result rest)
      = { name := returnName
          typename := if trim rest = [] then none else some (trim rest)
          comment := Param.spoken (Param.gathered ts) } := by
  have hspoken : (result rest).comment = Param.spoken [] := by
    unfold result
    dsimp only
    split <;> rfl
  rw [Param.foldl_addComment_of_spoken hspoken]
  unfold result
  dsimp only
  split <;> rfl

/-- **One entry** is read as what its own lines say. -/
theorem gains_entry {e : Entry} (hbelow : ∀ l ∈ e.below, marker l.text = .text)
    (htrimmed : ∀ l ∈ e.below, trim l.text = l.text)
    (hhead : marker e.head.text ≠ .text) {d next : Draft}
    (h : e.lines.foldlM step d = .ok next) :
    d.Gains next (([e].filter (marker ·.head.text = .parameter)).map entryParam?)
      (([e].filter (marker ·.head.text = .result)).map entryResult?) := by
  obtain ⟨opened, hone, hrest⟩ := Draft.foldlM_cons_eq_ok.1 h
  unfold step at hone
  cases hline : Line.ofText e.head.text with
  | definition rest => simp [marker, hline] at hhead
  | text t => simp [marker, hline] at hhead
  | argument rest =>
    rw [hline] at hone
    dsimp only at hone
    split at hone
    · next p hp =>
      cases hone
      obtain ⟨name, rfl⟩ := exists_foldlM_step_of_text hbelow (by simp [Draft.addParam, Section.after]) hrest
      have hfresh : p.comment = none ∧ p.direction = none := by
        unfold argument? at hp
        split at hp <;> cases hp <;> exact ⟨rfl, rfl⟩
      have hinformed := foldl_addText_eq hfresh.1 hfresh.2
        fun t ht => trim_of_mem_texts htrimmed ht
      have hgains := d.gains_addParam addText p (texts e.below)
      rw [hinformed] at hgains
      have hparam : entryParam? e = some (informed p (texts e.below)) := by
        simp [entryParam?, hline, hp]
      simpa [hline, marker, hparam] using hgains.named name
    · cases hone
  | result rest =>
    rw [hline] at hone
    dsimp only at hone
    split at hone
    · cases hone
    · next hfirst =>
      cases hone
      have hnone : d.returns = none := Option.not_isSome_iff_eq_none.1 hfirst
      obtain ⟨name, rfl⟩ := exists_foldlM_step_of_text hbelow
        (by simp [Draft.setReturns, Section.after]) hrest
      have hgains := Draft.gains_setReturns addText hnone (result rest) (texts e.below)
      rw [foldl_addComment_result] at hgains
      simpa [hline, marker, entryResult?] using hgains.named name

end Edt

/-! ## §5. Both dialects. -/

namespace Dialect

/-- What a text of a body introduces. -/
def marker : Dialect → Text → Marker
  | doxygen => Doxygen.marker
  | edt => Edt.marker

/-- The texts of the description, among the lines before the first marker. -/
def described : Dialect → List BodyLine → List Text
  | doxygen => List.map (·.text)
  | edt => Edt.described

/-- What an entry says of a parameter. -/
def entryParam? : Dialect → Entry → Option Param
  | doxygen => Doxygen.entryParam?
  | edt => Edt.entryParam?

/-- What an entry says of the return value. -/
def entryResult? : Dialect → Entry → Option Param
  | doxygen => Doxygen.entryResult?
  | edt => Edt.entryResult?

/-- The entries that a marker opens. -/
def entriesOf (d : Dialect) (m : Marker) (entries : List Entry) : List Entry :=
  entries.filter (d.marker ·.head.text = m)

end Dialect

/-- **A record that says what the entries of a body say**, each of its own lines. -/
structure DocRecord.Tells (r : DocRecord) (d : Dialect) (before : List BodyLine)
    (entries : List Entry) : Prop where
  /-- The description is the text before the first marker. -/
  description : r.description = trim (join ['\n'] (d.described before))
  /-- There is one parameter for each parameter marker, in the same order. -/
  params : r.params.map some = (d.entriesOf .parameter entries).map d.entryParam?
  /-- There is a return entry if there is a return marker, and then there is one marker. -/
  returns : r.returns.toList.map some = (d.entriesOf .result entries).map d.entryResult?

variable {d : Dialect} {ls before : List BodyLine} {entries : List Entry}

/-- **Entries are read one after another**, each as what its own lines say. -/
theorem gains_entries (htrimmed : ∀ l ∈ entries.flatMap Entry.lines, trim l.text = l.text)
    (hhead : ∀ e ∈ entries, d.marker e.head.text ≠ .text)
    (hbelow : ∀ e ∈ entries, ∀ l ∈ e.below, d.marker l.text = .text) {draft next : Draft}
    (h : (entries.flatMap Entry.lines).foldlM d.step draft = .ok next) :
    draft.Gains next ((d.entriesOf .parameter entries).map d.entryParam?)
      ((d.entriesOf .result entries).map d.entryResult?) := by
  induction entries generalizing draft with
  | nil =>
    cases h
    exact ⟨(List.append_nil _).symm, (List.append_nil _).symm, rfl⟩
  | cons e es ih =>
    rw [List.flatMap_cons] at h htrimmed
    obtain ⟨middle, hone, hrest⟩ := Draft.foldlM_append_eq_ok.1 h
    have hfirst : draft.Gains middle ((d.entriesOf .parameter [e]).map d.entryParam?)
        ((d.entriesOf .result [e]).map d.entryResult?) := by
      have hown := hbelow e List.mem_cons_self
      have htexts : ∀ l ∈ e.below, trim l.text = l.text := fun l hl =>
        htrimmed l (List.mem_append_left _ (List.mem_cons_of_mem e.head hl))
      cases d with
      | doxygen => exact Doxygen.gains_entry hown (hhead e List.mem_cons_self) hone
      | edt => exact Edt.gains_entry hown htexts (hhead e List.mem_cons_self) hone
    have hothers := ih (fun l hl => htrimmed l (List.mem_append_right _ hl))
      (fun e' he' => hhead e' (List.mem_cons_of_mem e he'))
      (fun e' he' => hbelow e' (List.mem_cons_of_mem e he')) hrest
    have hsplit : ∀ m, d.entriesOf m (e :: es) = d.entriesOf m [e] ++ d.entriesOf m es := fun m =>
      List.filter_append [e] es
    rw [hsplit, hsplit, List.map_append, List.map_append]
    exact hfirst.trans hothers

/-- **The lines before the first marker** make up the description, and no entry. -/
theorem run_before (hbefore : ∀ l ∈ before, d.marker l.text = .text) {next : Draft}
    (h : before.foldlM d.step {} = .ok next) :
    next = { name := next.name, description := d.described before } := by
  cases d with
  | doxygen =>
    have hnext := (Doxygen.foldlM_step_of_text hbefore {}).symm.trans h
    rw [Draft.foldl_addText_description rfl] at hnext
    cases hnext
    rfl
  | edt => exact Edt.foldlM_step_before hbefore rfl h

/-! ## §6. Records. -/

/-- **A record is stated in a comment** by the stretches of its body. -/
def DocRecord.StatedIn (r : DocRecord) (d : Dialect) (c : Comment) : Prop :=
  ∃ ls before entries, c.body d.opening = .ok ls ∧ Segmented d.marker ls before entries
    ∧ r.Tells d before entries

/-- What is read from a body is stated in it. -/
theorem statedIn_of_run {c : Comment} (hbody : c.body d.opening = .ok ls) {draft : Draft}
    (hrun : ls.foldlM d.step {} = .ok draft) : draft.toRecord.StatedIn d c := by
  obtain ⟨before, entries, hcut⟩ := exists_segmented d.marker ls
  have htrimmed : ∀ l ∈ entries.flatMap Entry.lines, trim l.text = l.text := fun l hl =>
    Comment.trim_of_mem_body hbody (hcut.whole ▸ List.mem_append_right before hl)
  rw [hcut.whole] at hrun
  obtain ⟨begun, hbefore, hentries⟩ := Draft.foldlM_append_eq_ok.1 hrun
  have hbegun := run_before hcut.before hbefore
  have hgains := gains_entries htrimmed hcut.head hcut.below hentries
  have hdescription : draft.description = d.described before := by
    rw [hgains.description, hbegun]
  refine ⟨ls, before, entries, hbody, hcut, ?_, ?_, ?_⟩
  · show trim (join ['\n'] draft.description) = _
    rw [hdescription]
  · show draft.params.map some = _
    rw [hgains.params, hbegun]
    rfl
  · show draft.returns.toList.map some = _
    rw [hgains.returns, hbegun]
    rfl

/-- **Every body line goes to exactly one entry.**  A record that does not point elsewhere says
what its comment says: cut the body at its marker lines, and there is one parameter for each
parameter marker, a return entry for a return marker, and each of them says what the lines up
to the next marker say. -/
theorem lines_go_to_their_entries {c : Comment} {r : DocRecord} (hr : r.elsewhere = false) :
    (Doxygen.parse c = .ok r → r.StatedIn .doxygen c)
      ∧ (Edt.parse c = .ok (some r) → r.StatedIn .edt c) := by
  constructor
  · intro h
    unfold Doxygen.parse at h
    cases hbody : c.body (Dialect.opening .doxygen) with
    | error e =>
      rw [hbody] at h
      cases h
    | ok ls =>
      rw [hbody] at h
      dsimp only at h
      split at h
      · cases h
        cases hr
      · rw [Doxygen.steps_eq_foldlM] at h
        split at h
        · next draft hrun =>
          cases h
          exact statedIn_of_run (d := .doxygen) hbody hrun
        · cases h
  · intro h
    unfold Edt.parse at h
    cases hbody : c.body (Dialect.opening .edt) with
    | error e =>
      rw [hbody] at h
      dsimp only at h
      split at h <;> cases h
    | ok ls =>
      rw [hbody] at h
      dsimp only at h
      split at h
      · cases h
        cases hr
      · rw [Edt.steps_eq_foldlM] at h
        split at h
        · cases h
        · next draft hrun =>
          split at h
          · cases h
            exact statedIn_of_run (d := .edt) hbody hrun
          · cases h

/-- A return entry between two parameters, and a definition in the middle of an argument. -/
theorem lines_go_to_their_entries_fry :
    let doxygen : Comment := ⟨1, 8, ["/**", " * Fries.", " * @param[out] pan The", " *   pan.",
      " * @return Eggs.", " *  All of them.", " * @param egg", " */"].map String.toList⟩
    let edt : Comment := ⟨1, 9, ["/*", " * Argument: int n", " *   IN:", " * edt: * function fry",
      " *   How many.", " * Return: int", " * Argument: pan", " *   Hot.", " */"].map String.toList⟩
    let inDoxygen : DocRecord :=
      { description := "Fries.".toList
        returns := some { name := returnName, comment := some "Eggs. All of them.".toList }
        params :=
          [{ name := "pan".toList, comment := some "The pan.".toList, direction := some .output },
            { name := "egg".toList }] }
    let inEdt : DocRecord :=
      { name := some "fry".toList
        returns := some { typename := some "int".toList, name := returnName }
        params :=
          [{ typename := some "int".toList, name := "n".toList, comment := some "How many.".toList,
             direction := some .input },
            { name := "pan".toList, comment := some "Hot.".toList }] }
    (inDoxygen.elsewhere = false ∧ Doxygen.parse doxygen = .ok inDoxygen
        ∧ inDoxygen.StatedIn .doxygen doxygen)
      ∧ inEdt.elsewhere = false ∧ Edt.parse edt = .ok (some inEdt) ∧ inEdt.StatedIn .edt edt := by
  intro doxygen edt inDoxygen inEdt
  have hdoxygen : Doxygen.parse doxygen = .ok inDoxygen := by decide +kernel
  have hedt : Edt.parse edt = .ok (some inEdt) := by decide +kernel
  exact ⟨⟨rfl, hdoxygen, (lines_go_to_their_entries rfl).1 hdoxygen⟩,
    rfl, hedt, (lines_go_to_their_entries rfl).2 hedt⟩

end DocAudit
