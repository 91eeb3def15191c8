/-
  DocAudit.Proofs.Layout.ReadBack
  ───────────────────────────────
  **A LAYOUT IS READ BACK AS THE DECLARATION IT SHOWS.**

  The layout takes the spelling of a type apart: stars at its end, bounds from the first
  `[` on, or the first `(*)`.  What it took apart is what stood between two tokens,

      front · stars · bounds          (`ofParam_plain`)
      lead · `(*)` · groups           (`ofParam_pointer`)

  so what it writes for a parameter writes down the tokens of the parameter, in another
  order and with other blanks, and these are read as the same type and name
  (`exists_written_entry`).  Entries joined with commas write a parameter list down, and
  with a return type and a name in front a declaration (`scan_render`).
-/
import Mathlib.Tactic.Choose
import DocAudit.Proofs.Declaration.Param
import DocAudit.Proofs.Layout.Columns

namespace DocAudit

/-! ## §1. The first of several places. -/

namespace Text

theorem occursIn_eq_false {x : Char} {w t : Text} (h : x ∉ t) : occursIn (x :: w) t = false := by
  induction t with
  | nil => rfl
  | cons c t ih =>
    rw [List.mem_cons, not_or] at h
    simp [occursIn, ih h.2, List.isPrefixOf, h.1]

theorem occursIn_append (x : Char) (w a b : Text) : occursIn (x :: w) (a ++ x :: w ++ b) = true := by
  induction a with
  | nil => simp [occursIn]
  | cons c a ih =>
    rw [List.cons_append, List.cons_append, occursIn, ih, Bool.or_true]

/-- What begins with `x` is replaced where `x` first stands. -/
theorem replaceFirst_append {x : Char} {a : Text} (h : x ∉ a) (w put b : Text) :
    replaceFirst (x :: w) put (a ++ x :: w ++ b) = a ++ put ++ b := by
  induction a with
  | nil => simp [replaceFirst]
  | cons c a ih =>
    rw [List.mem_cons, not_or] at h
    rw [List.cons_append, List.cons_append, replaceFirst, if_neg (by simp [h.1]), ih h.2]
    rfl

/-- The end of a text is dropped up to where the test fails. -/
theorem dropEndWhile_append_of_stop {p : Char → Bool} {a b : Text}
    (ha : ∀ c ∈ a.getLast?, p c = false) (hb : ∀ c ∈ b, p c = true) : dropEndWhile p (a ++ b) = a := by
  have hstop : ∀ c ∈ a.reverse.head?, p c = false := by rwa [List.head?_reverse]
  have hall : ∀ c ∈ b.reverse, p c = true := fun c hc => hb c (List.mem_reverse.1 hc)
  unfold dropEndWhile
  rw [List.reverse_append, (takeWhile_append_of_stop hall hstop).2, List.reverse_reverse]

end Text

open Text Token Declaration

/-! ## §2. Types taken apart. -/

namespace Layout

/-- Tokens and the stars at their end. -/
theorem exists_stars (ts : List Token) : ∃ front stars, ts = front ++ stars
    ∧ (∀ t ∈ stars, t.isMark '*' = true) ∧ ∀ t ∈ front.getLast?, t.isMark '*' = false := by
  induction ts using List.reverseRecOn with
  | nil => exact ⟨[], [], rfl, by simp, by simp⟩
  | append_singleton ts t ih =>
    cases hstar : t.isMark '*' with
    | false => exact ⟨ts ++ [t], [], by simp, by simp, by simpa using hstar⟩
    | true =>
      obtain ⟨front, stars, rfl, hstars, hfront⟩ := ih
      refine ⟨front, stars ++ [t], by simp, fun u hu => ?_, hfront⟩
      rcases List.mem_append.1 hu with hu | hu
      · exact hstars u hu
      · cases List.mem_singleton.1 hu
        exact hstar

theorem spell_stars {stars : List Token} (h : ∀ t ∈ stars, t.isMark '*' = true) :
    spell stars = List.replicate stars.length '*' := by
  induction stars with
  | nil => rfl
  | cons t stars ih =>
    have ht := h t List.mem_cons_self
    rw [spell_cons_of_mark (kind_of_isMark ht) (isMark_of_isMark ht (by decide)),
      ih fun u hu => h u (List.mem_cons_of_mem t hu), text_of_isMark ht]
    rfl

/-- A mark stands in a spelling only as a token. -/
theorem not_mem_spell {ts : List Token} {c : Char} (hlex : ∀ t ∈ ts, t.isLexeme = true)
    (hc : isLoneMark c = true) (h : ∀ t ∈ ts, t.isMark c = false) : c ∉ spell ts := by
  intro hmem
  rcases mem_spell hmem with rfl | ⟨t, ht, hct⟩
  · exact absurd hc (by decide)
  · exact not_mem_text (hlex t ht) hc (h t ht) hct

/-- A spelling ends in a star only if its last token is one. -/
theorem getLast?_spell {ts : List Token} (hlex : ∀ t ∈ ts, t.isLexeme = true)
    (hlast : ∀ t ∈ ts.getLast?, t.isMark '*' = false) :
    ∀ c ∈ (spell ts).getLast?, (c == '*') = false := by
  intro c hc
  rcases List.eq_nil_or_concat ts with rfl | ⟨front, t, rfl⟩
  · cases hc
  · have ht := hlex t (by simp)
    obtain ⟨a, ha⟩ := exists_spell_concat front t
    rw [List.concat_eq_append, ha, List.getLast?_append_of_ne_nil a (solid_of_isLexeme ht).1] at hc
    rw [beq_eq_false_iff_ne]
    rintro rfl
    exact not_mem_text ht (by decide) (hlast t (by simp)) (List.mem_of_getLast? hc)

/-- Bounds begin with a bracket. -/
theorem head?_spell_bounds {bounds : List Token} (h : Bounds bounds) :
    ∀ c ∈ (spell bounds).head?, c = '[' := by
  intro c hc
  cases h with
  | nil => cases hc
  | @cons opening closing inner ts ho _ _ _ =>
    obtain ⟨b, hb⟩ := exists_spell_cons opening (inner ++ closing :: ts)
    rw [hb, text_of_isMark ho] at hc
    cases hc
    rfl

/-- The bounds are told apart at the first bracket: there is none before them. -/
theorem typeParts_plain {core bounds : List Token}
    (hlex : ∀ t ∈ core ++ bounds, t.isLexeme = true) (hcore : ∀ t ∈ core, isTypeToken t = true)
    (hbounds : Bounds bounds) (name : Text) : ∃ gap, (∀ c ∈ gap, isBlank c = true)
      ∧ Column.typeParts (.typed (spell (core ++ bounds)) name)
        = (spell core ++ gap, spell bounds) := by
  obtain ⟨gap, hgap, hspell⟩ := exists_spell_append core bounds
  have hround : '(' ∉ spell (core ++ bounds) := by
    refine not_mem_spell hlex (by decide) fun t ht => ?_
    rcases List.mem_append.1 ht with ht | ht
    · exact isMark_of_isTypeToken (hcore t ht) (by decide)
    · exact hbounds.isMark_eq_false t ht
  have hslot : occursIn pointerSlot (spell (core ++ bounds)) = false := occursIn_eq_false hround
  have hsquare : '[' ∉ spell core := not_mem_spell (fun t ht => hlex t (List.mem_append_left _ ht))
    (by decide) fun t ht => isMark_of_isTypeToken (hcore t ht) (by decide)
  have hbefore : ∀ c ∈ spell core ++ gap, (c != '[') = true := by
    intro c hc
    rw [bne_iff_ne]
    rintro rfl
    rcases List.mem_append.1 hc with hc | hc
    · exact hsquare hc
    · exact absurd (hgap _ hc) (by decide)
  have hbehind : ∀ c ∈ (spell bounds).head?, (c != '[') = false := fun c hc => by
    simp [head?_spell_bounds hbounds c hc]
  obtain ⟨htake, hdrop⟩ := takeWhile_append_of_stop hbefore hbehind
  refine ⟨gap, hgap, ?_⟩
  show Column.splitBounds (trim (spell (core ++ bounds))) = _
  rw [trim_spell hlex, Column.splitBounds, hslot, if_neg (by decide), hspell, htake, hdrop]

/-- The stars at the end of a type are dropped, and no others. -/
theorem dropEndWhile_spell {front stars : List Token} (hfront : ∀ t ∈ front, t.isLexeme = true)
    (hstars : ∀ t ∈ stars, t.isMark '*' = true)
    (hlast : ∀ t ∈ front.getLast?, t.isMark '*' = false) : ∃ gap, (∀ c ∈ gap, isBlank c = true)
      ∧ dropEndWhile (· == '*') (spell (front ++ stars)) = spell front ++ gap
      ∧ (spell (front ++ stars)).length = (spell front ++ gap).length + stars.length := by
  obtain ⟨gap, hgap, hspell⟩ := exists_spell_append front stars
  rw [spell_stars hstars] at hspell
  refine ⟨gap, hgap, ?_, by rw [hspell, List.length_append, List.length_replicate]⟩
  rw [hspell]
  refine dropEndWhile_append_of_stop (fun c hc => ?_) (by simp)
  -- what stands before the stars is a blank or the end of the front
  rcases List.eq_nil_or_concat gap with rfl | ⟨b, d, rfl⟩
  · rw [List.append_nil] at hc
    exact getLast?_spell hfront hlast c hc
  · have hd : isBlank d = true := hgap d (by simp)
    rw [List.concat_eq_append, ← List.append_assoc, List.getLast?_concat] at hc
    cases hc
    rw [beq_eq_false_iff_ne]
    rintro rfl
    exact absurd hd (by decide)

/-- **The spelling of a plain type, taken apart.** -/
theorem ofParam_plain {front stars bounds : List Token}
    (hlex : ∀ t ∈ front ++ stars ++ bounds, t.isLexeme = true)
    (htype : ∀ t ∈ front ++ stars, isTypeToken t = true)
    (hstars : ∀ t ∈ stars, t.isMark '*' = true)
    (hlast : ∀ t ∈ front.getLast?, t.isMark '*' = false) (hbounds : Bounds bounds) (name : Text) :
    Column.ofParam (.typed (spell (front ++ stars ++ bounds)) name)
      = ⟨spell front, stars.length, name, spell bounds⟩ := by
  have hcore : ∀ t ∈ front ++ stars, t.isLexeme = true :=
    fun t ht => hlex t (List.mem_append_left bounds ht)
  have hfront : ∀ t ∈ front, t.isLexeme = true := fun t ht => hcore t (List.mem_append_left stars ht)
  obtain ⟨gap, hgap, hparts⟩ := typeParts_plain hlex htype hbounds name
  obtain ⟨gap', hgap', hdrop, hlength⟩ := dropEndWhile_spell hfront hstars hlast
  rw [Column.ofParam_eq, hparts]
  dsimp only
  rw [trimEnd_append_blanks _ hgap, trimEnd_spell hcore, hdrop, trimEnd_append_blanks _ hgap',
    trimEnd_spell hfront, hlength, Nat.add_sub_cancel_left]
  rfl

/-- The spelling of a function pointer up to and behind the place of its name. -/
theorem exists_spell_pointer (lead groups : List Token) {opening star closing : Token}
    (ho : opening.isMark '(' = true) (hs : star.isMark '*' = true) (hc : closing.isMark ')' = true) :
    ∃ gap, (∀ c ∈ gap, isBlank c = true)
      ∧ spell (lead ++ opening :: star :: closing :: groups)
        = spell lead ++ gap ++ pointerSlot ++ spell groups := by
  obtain ⟨gap, hgap, hspell⟩ := exists_spell_append lead (opening :: star :: closing :: groups)
  refine ⟨gap, hgap, ?_⟩
  rw [hspell, spell_cons_of_mark (kind_of_isMark ho) (isMark_of_isMark ho (by decide)),
    spell_cons_of_mark (kind_of_isMark hs) (isMark_of_isMark hs (by decide)),
    spell_cons_of_mark (kind_of_isMark hc) (isMark_of_isMark hc (by decide)),
    text_of_isMark ho, text_of_isMark hs, text_of_isMark hc]
  simp [pointerSlot]

theorem occursIn_spell_pointer (lead groups : List Token) {opening star closing : Token}
    (ho : opening.isMark '(' = true) (hs : star.isMark '*' = true) (hc : closing.isMark ')' = true) :
    occursIn pointerSlot (spell (lead ++ opening :: star :: closing :: groups)) = true := by
  obtain ⟨gap, _, hspell⟩ := exists_spell_pointer lead groups ho hs hc
  rw [hspell]
  exact occursIn_append '(' "*)".toList _ _

/-- **The spelling of a function pointer, taken apart**: it stays in one piece. -/
theorem ofParam_pointer {lead groups : List Token} {opening star closing : Token}
    (hlex : ∀ t ∈ lead ++ opening :: star :: closing :: groups, t.isLexeme = true)
    (hlast : ∀ t ∈ (closing :: groups).getLast?, t.isMark '*' = false)
    (ho : opening.isMark '(' = true) (hs : star.isMark '*' = true) (hc : closing.isMark ')' = true)
    (name : Text) :
    Column.ofParam (.typed (spell (lead ++ opening :: star :: closing :: groups)) name)
      = ⟨spell (lead ++ opening :: star :: closing :: groups), 0, name, []⟩ := by
  have hslot := occursIn_spell_pointer lead groups ho hs hc
  have hparts : Column.typeParts (.typed (spell (lead ++ opening :: star :: closing :: groups)) name)
      = (spell (lead ++ opening :: star :: closing :: groups), []) := by
    show Column.splitBounds (trim (spell _)) = _
    rw [trim_spell hlex, Column.splitBounds, hslot, if_pos rfl]
  have hend : ∀ t ∈ (lead ++ opening :: star :: closing :: groups).getLast?,
      t.isMark '*' = false := by
    rwa [List.getLast?_append_of_ne_nil _ (List.cons_ne_nil _ _), List.getLast?_cons_cons,
      List.getLast?_cons_cons]
  have hdrop := dropEndWhile_append_of_stop (b := []) (getLast?_spell hlex hend) (by simp)
  rw [List.append_nil] at hdrop
  rw [Column.ofParam_eq, hparts]
  dsimp only
  rw [trimEnd_spell hlex, hdrop, trimEnd_spell hlex, Nat.sub_self]
  rfl

/-! ## §3. What is written for a parameter. -/

/-- The columns of a plain parameter write its tokens down. -/
theorem written_plain {front stars names bounds : List Token}
    (hlex : ∀ t ∈ front ++ stars ++ names ++ bounds, t.isLexeme = true)
    (hstars : ∀ t ∈ stars, t.isMark '*' = true) (hbounds : Bounds bounds) {pad : Nat}
    (hpad : 1 ≤ pad) :
    Written (front ++ stars ++ names ++ bounds)
      (spell front ++ spaces pad ++ List.replicate stars.length '*' ++ spell names
        ++ spell bounds) := by
  simp only [List.forall_mem_append] at hlex
  obtain ⟨⟨⟨hfront, hstarslex⟩, hnames⟩, hboundslex⟩ := hlex
  have hstops : Stops (spell bounds) := by
    intro c hc
    rw [head?_spell_bounds hbounds c hc]
    decide
  have hnamed := (written_spell hnames).append (written_spell hboundslex) hstops
  have hstarred := (written_spell hstarslex).append_of_marks
    (fun t ht => kind_of_isMark (hstars t ht)) hnamed
  rw [spell_stars hstars] at hstarred
  -- at least one blank comes behind the front, so its last word ends there
  obtain ⟨n, rfl⟩ := Nat.exists_eq_add_of_le' hpad
  have hall := (written_spell hfront).append (hstarred.spaces (n + 1))
    (stops_of_isBlank (show isBlank ' ' = true by decide) _)
  simpa [List.append_assoc] using hall

/-- The type of a function pointer writes its tokens down, with the name in its place. -/
theorem written_pointer {lead names groups : List Token} {opening star closing : Token}
    (hlex : ∀ t ∈ lead ++ opening :: star :: (names ++ closing :: groups), t.isLexeme = true)
    (hlead : ∀ t ∈ lead, isTypeToken t = true)
    (ho : opening.isMark '(' = true) (hs : star.isMark '*' = true) (hc : closing.isMark ')' = true) :
    Written (lead ++ opening :: star :: (names ++ closing :: groups))
      (replaceFirst pointerSlot ("(*".toList ++ spell names ++ [')'])
        (spell (lead ++ opening :: star :: closing :: groups))) := by
  simp only [List.forall_mem_append, List.forall_mem_cons] at hlex
  obtain ⟨hleadlex, holex, hslex, hnames, hclex, hgroups⟩ := hlex
  obtain ⟨gap, hgap, hspell⟩ := exists_spell_pointer lead groups ho hs hc
  have hround : '(' ∉ spell lead ++ gap := by
    have hnot : '(' ∉ spell lead := not_mem_spell hleadlex (by decide)
      fun t ht => isMark_of_isTypeToken (hlead t ht) (by decide)
    intro hmem
    rcases List.mem_append.1 hmem with hmem | hmem
    · exact hnot hmem
    · exact absurd (hgap _ hmem) (by decide)
  have hreplaced := replaceFirst_append hround "*)".toList ("(*".toList ++ spell names ++ [')'])
    (spell groups)
  -- from the end: the groups, the bracket, the name, and the two marks before it
  have hclosed : Written (closing :: groups) (closing.text ++ spell groups) :=
    .token hclex (.inl (kind_of_isMark hc)) (written_spell hgroups)
  have hnamed := (written_spell hnames).append hclosed (hclosed.stops_of_mark (kind_of_isMark hc))
  have hopened : Written (opening :: star :: (names ++ closing :: groups))
      (opening.text ++ (star.text ++ (spell names ++ (closing.text ++ spell groups)))) :=
    .token holex (.inl (kind_of_isMark ho)) (.token hslex (.inl (kind_of_isMark hs)) hnamed)
  have hspaced := hopened.blanks hgap
  have hall := (written_spell hleadlex).append hspaced (hspaced.stops_of_mark (kind_of_isMark ho))
  rw [text_of_isMark ho, text_of_isMark hs, text_of_isMark hc] at hall
  have hslot : pointerSlot = '(' :: "*)".toList := rfl
  rw [hspell, hslot, hreplaced]
  simpa [List.append_assoc] using hall

theorem written_entry_plain {s : Signature} {core names bounds : List Token}
    (hlex : ∀ t ∈ core ++ names ++ bounds, t.isLexeme = true)
    (hcore : ∀ t ∈ core, isTypeToken t = true) (hbounds : Bounds bounds)
    (hp : Param.typed (spell (core ++ bounds)) (spell names) ∈ s.params) :
    Written (core ++ names ++ bounds)
      (entry s (.typed (spell (core ++ bounds)) (spell names))) := by
  obtain ⟨front, stars, rfl, hstars, hlast⟩ := exists_stars core
  have htype : ∀ t ∈ front ++ stars ++ bounds, t.isLexeme = true := by
    intro t ht
    refine hlex t ?_
    simp only [List.mem_append] at ht ⊢
    tauto
  have hcolumn := ofParam_plain htype hcore hstars hlast hbounds (spell names)
  have halign : (Column.ofParam (.typed (spell (front ++ stars ++ bounds)) (spell names))).isFunctionPointer
      = false := by
    rw [hcolumn]
    refine occursIn_eq_false (not_mem_spell (fun t ht => htype t (by simp [ht])) (by decide) ?_)
    exact fun t ht => isMark_of_isTypeToken (hcore t (by simp [ht])) (by decide)
  have hpad := (width_pad_stars (mem_aligned hp halign)).2
  unfold entry
  rw [Column.text_of_aligned halign]
  rw [hcolumn] at hpad ⊢
  exact (written_plain hlex hstars hbounds hpad).trimEnd

theorem written_entry_pointer {s : Signature} {lead names groups : List Token}
    {opening star closing : Token}
    (hlex : ∀ t ∈ lead ++ opening :: star :: (names ++ closing :: groups), t.isLexeme = true)
    (hlead : ∀ t ∈ lead, isTypeToken t = true)
    (hlast : ∀ t ∈ (closing :: groups).getLast?, t.isMark '*' = false)
    (ho : opening.isMark '(' = true) (hs : star.isMark '*' = true) (hc : closing.isMark ')' = true) :
    Written (lead ++ opening :: star :: (names ++ closing :: groups))
      (entry s (.typed (spell (lead ++ opening :: star :: closing :: groups)) (spell names))) := by
  have htype : ∀ t ∈ lead ++ opening :: star :: closing :: groups, t.isLexeme = true := by
    intro t ht
    refine hlex t ?_
    simp only [List.mem_append, List.mem_cons] at ht ⊢
    tauto
  have hslot := occursIn_spell_pointer lead groups ho hs hc
  unfold entry
  rw [ofParam_pointer htype hlast ho hs hc, Column.text, Column.isFunctionPointer, hslot, if_pos rfl]
  exact (written_pointer hlex hlead ho hs hc).trimEnd

/-- **What is written for a regular parameter is read back**: it writes down tokens that
are a parameter of the same type and name. -/
theorem exists_written_entry {s : Signature} {g : List Token} (hne : g ≠ [])
    (hlex : ∀ t ∈ g, t.isLexeme = true) (hreg : Regular (typeRun g) (paramOf g).2)
    (hp : Param.typed (paramOf g).1 (paramOf g).2 ∈ s.params) :
    ∃ ts, ts ≠ [] ∧ Balanced isTypeToken ts ∧ paramOf ts = paramOf g
      ∧ Written ts (entry s (.typed (paramOf g).1 (paramOf g).2)) := by
  obtain ⟨names, hnames, hparam, hshape⟩ := exists_names hlex
  have hrun : ∀ t ∈ typeRun g, t.isLexeme = true := fun t ht => hlex t (mem_of_mem_typeRun ht)
  have hisName : ∀ n ∈ names, n.isName = true := fun n hn => (hnames n hn).1
  have hnameslex : ∀ n ∈ names, n.isLexeme = true := fun n hn => (hnames n hn).2
  rw [hparam] at hp hreg ⊢
  -- without a name the tokens are those of the type as they were
  have hsame : names = [] → typeRun g ≠ [] ∧ paramOf (typeRun g) = (spell (typeRun g), spell names) := by
    intro hnil
    rcases hshape with ⟨_, hall⟩ | ⟨n, hn⟩
    · rw [hall] at hparam ⊢
      exact ⟨hne, hparam⟩
    · rw [hn] at hnil
      cases hnil
  generalize typeRun g = run at hp hreg hrun hsame ⊢
  cases hreg with
  | @plain core bounds _ hcore hbounds hplace =>
    simp only [List.forall_mem_append] at hrun
    have htokens : ∀ t ∈ core ++ names ++ bounds, t.isLexeme = true := by
      simp only [List.forall_mem_append]
      exact ⟨⟨hrun.1, hnameslex⟩, hrun.2⟩
    have hread : core ++ names ++ bounds ≠ []
        ∧ paramOf (core ++ names ++ bounds) = (spell (core ++ bounds), spell names) := by
      rcases hshape with ⟨rfl, _⟩ | ⟨n, rfl⟩
      · rw [List.append_nil]
        exact hsame rfl
      · have hn : n.text ≠ [] := (solid_of_isLexeme (hnameslex n (by simp))).1
        obtain ⟨t, hlast, htag⟩ := hplace.resolve_left hn
        rw [List.append_assoc]
        exact ⟨by simp, paramOf_named hcore hbounds hlast htag (hisName n (by simp))⟩
    exact ⟨_, hread.1, balanced_named hcore hisName hbounds, hread.2,
      written_entry_plain htokens hcore hbounds hp⟩
  | @pointer lead groups opening star closing _ hlead ho hs hc hgroups =>
    simp only [List.forall_mem_append, List.forall_mem_cons] at hrun
    have htokens : ∀ t ∈ lead ++ opening :: star :: (names ++ closing :: groups),
        t.isLexeme = true := by
      simp only [List.forall_mem_append, List.forall_mem_cons]
      exact ⟨hrun.1, hrun.2.1, hrun.2.2.1, hnameslex, hrun.2.2.2⟩
    have hclosed : Balanced (fun t => t.isMark ')') (closing :: groups) :=
      .free hc (hgroups.mono fun t ht => absurd ht (by decide))
    have hlast := hclosed.isMark_getLast? fun t ht => isMark_of_isMark ht (by decide)
    refine ⟨_, by simp, balanced_pointer hlead ho hs hisName hc hgroups, ?_,
      written_entry_pointer htokens hlead hlast ho hs hc⟩
    rcases hshape with ⟨rfl, _⟩ | ⟨n, rfl⟩
    · simpa using (hsame rfl).2
    · exact paramOf_pointer hlead ho hs (hisName n (by simp)) (closing :: groups)

/-! ## §4. Parameter lists. -/

/-- Entries joined with commas write the groups joined by commas down. -/
theorem written_join {α : Type} {tokens : α → List Token} {text : α → Text} {indent : Text}
    (hindent : ∀ c ∈ indent, isBlank c = true) {ps : List α}
    (h : ∀ p ∈ ps, Written (tokens p) (text p)) :
    Written ([mark ','].intercalate (ps.map tokens)) (join (",\n".toList ++ indent) (ps.map text)) := by
  induction ps with
  | nil => exact .nil
  | cons p ps ih =>
    have hp := h p List.mem_cons_self
    cases ps with
    | nil =>
      rw [List.map_singleton, List.map_singleton, join_singleton]
      simpa using hp
    | cons q ps =>
      have hrest := ih fun x hx => h x (List.mem_cons_of_mem p hx)
      have hblank : ∀ c ∈ '\n' :: indent, isBlank c = true :=
        List.forall_mem_cons.2 ⟨by decide, hindent⟩
      have hcomma : Written (mark ',' :: [mark ','].intercalate ((q :: ps).map tokens))
          ([','] ++ ('\n' :: indent ++ join (",\n".toList ++ indent) ((q :: ps).map text))) :=
        .token (by decide) (.inl rfl) (hrest.blanks hblank)
      have hall := hp.append hcomma (hcomma.stops_of_mark rfl)
      simp only [List.map_cons] at hall ⊢
      rw [List.intercalate_cons_cons, join_cons_cons]
      simpa [List.append_assoc] using hall

/-- The parameter is read off tokens of the text, and those of its type are regular. -/
def ReadsRegular (t : Text) (p : Text × Text) : Prop :=
  ∃ g : List Token, g ≠ [] ∧ (∀ u ∈ g, u ∈ Token.ofText t) ∧ paramOf g = p
    ∧ Regular (typeRun g) p.2

/-- **What is written between the brackets is read back as the parameters.** -/
theorem exists_written_inside {t : Text} {s : Signature} {ps : List (Text × Text)}
    (hs : s.params = ps.map fun p => Param.typed p.1 p.2)
    (hps : ∀ p ∈ ps, p ≠ ("void".toList, []) ∧ ReadsRegular t p) (f : Form) :
    ∃ ts, Balanced isContent ts ∧ (paramGroups ts).map paramOf = ps ∧ Written ts (inside f s) := by
  by_cases hnil : ps = []
  · -- an empty list is written as `void`
    subst hnil
    have hinside : inside f s = spell [⟨.word, "void".toList, 0⟩] := by
      unfold inside
      rw [hs]
      rfl
    rw [hinside]
    exact ⟨[⟨.word, "void".toList, 0⟩], .of_forall (by decide), rfl, written_spell (by decide)⟩
  · have hentry : ∀ p ∈ ps, ∃ ts, ts ≠ [] ∧ Balanced isTypeToken ts ∧ paramOf ts = p
        ∧ Written ts (entry s (.typed p.1 p.2)) := by
      intro p hp
      obtain ⟨g, hne, hmem, rfl, hreg⟩ := (hps p hp).2
      have hparam : Param.typed (paramOf g).1 (paramOf g).2 ∈ s.params := by
        rw [hs]
        exact List.mem_map_of_mem (f := fun p => Param.typed p.1 p.2) hp
      exact exists_written_entry hne (hreg.isLexeme hmem) hreg hparam
    choose! tokens htokens using hentry
    have hgroups : ∀ g ∈ ps.map tokens,
        g ≠ [] ∧ Balanced isTypeToken g ∧ paramOf g ≠ ("void".toList, []) := by
      intro g hg
      obtain ⟨p, hp, rfl⟩ := List.mem_map.1 hg
      obtain ⟨hne, hbalanced, hparam, _⟩ := htokens p hp
      rw [hparam]
      exact ⟨hne, hbalanced, (hps p hp).1⟩
    refine ⟨[mark ','].intercalate (ps.map tokens), ?_, ?_, ?_⟩
    · refine Balanced.intercalate (by decide) fun g hg => ?_
      exact (hgroups g hg).2.1.mono fun _ => isContent_of_isTypeToken
    · rw [paramGroups_intercalate (by decide) (by simpa using hnil) hgroups, List.map_map]
      conv_rhs => rw [← List.map_id ps]
      exact List.map_congr_left fun p hp => (htokens p hp).2.2.1
    · have hinside : inside f s = join (",\n".toList ++ spaces (byteWidth (opening f s)))
          (ps.map fun p => entry s (.typed p.1 p.2)) := by
        unfold inside
        rw [if_neg (by simpa [hs] using hnil), entries_eq, hs, List.map_map, Function.comp_def]
      rw [hinside]
      exact written_join (blank_spaces _) fun p hp => (htokens p hp).2.2.2

/-! ## §5. The layout. -/

/-- What stands behind the name. -/
def afterName (f : Form) (s : Signature) : Text :=
  match f with
  | .definition => " (".toList ++ inside f s ++ f.closing
  | .prototype => '(' :: inside f s ++ f.closing

/-- What separates the return type from the name. -/
def Form.separator : Form → Char
  | definition => '\n'
  | prototype => ' '

theorem render_eq (f : Form) (s : Signature) :
    render f s = returnType s ++ f.separator :: (s.name ++ afterName f s) := by
  cases f <;> simp [render, lead, opening, Text.line, afterName, Form.separator]

theorem newlines_separator (f : Form) : newlines [f.separator] = f.linesAbove := by
  cases f <;> rfl

/-- What stands behind the name writes the parameters down, in brackets. -/
theorem exists_written_afterName {f : Form} {s : Signature} {ts : List Token}
    (h : Written ts (inside f s)) : ∃ tail, (tail = [] ∨ tail = [mark ';'])
      ∧ Written (mark '(' :: (ts ++ mark ')' :: tail)) (afterName f s) := by
  have hmarks : (mark '(').isLexeme = true ∧ (mark ')').isLexeme = true
      ∧ (mark ';').isLexeme = true := by decide
  cases f with
  | definition =>
    have hclosing : Written [mark ')'] [')'] := .token hmarks.2.1 (.inl rfl) .nil
    have hopened := Written.token hmarks.1 (.inl rfl) (h.append hclosing (hclosing.stops_of_mark rfl))
    refine ⟨[], .inl rfl, ?_⟩
    show Written _ (' ' :: '(' :: (inside .definition s ++ [')']))
    exact .blank (by decide) (by simpa [mark] using hopened)
  | prototype =>
    have hclosing : Written [mark ')', mark ';'] [')', ';'] :=
      .token hmarks.2.1 (.inl rfl) (.token hmarks.2.2 (.inl rfl) .nil)
    have hopened := Written.token hmarks.1 (.inl rfl) (h.append hclosing (hclosing.stops_of_mark rfl))
    exact ⟨[mark ';'], .inr rfl, by simpa [mark, afterName, Form.closing] using hopened⟩

/-- **A layout is read back as the declaration it shows.** -/
theorem scan_render {t file : Text} {d : Declaration} (hd : d ∈ (scan t).declarations)
    (hreturn : (words d.returnType).head? ≠ some typedefWord)
    (hparams : ∀ p ∈ d.params, p ≠ ("void".toList, []) ∧ ReadsRegular t p) (f : Form) :
    (scan (render f (d.toSignature file))).declarations = [{ d with line := 1 + f.linesAbove }] := by
  rw [declarations_scan, declared, List.mem_map] at hd
  obtain ⟨h, hh, rfl⟩ := hd
  obtain ⟨st, hst, hhead⟩ := List.mem_filterMap.1 hh
  have hmem : ∀ u ∈ st, u ∈ Token.ofText t := fun u hu => mem_of_mem_statements hst hu
  obtain ⟨hnameMem, hisName⟩ := (mem_of_headOf? hhead).1
  have hname := Piece.isIdentifier_of_isName (hmem h.name hnameMem) hisName
  obtain ⟨type, hne, htype, hspell⟩ := exists_returnType hmem hhead
  -- the type of the layout is the return type, and not `typedef`
  have hreturnType : returnType (h.declaration.toSignature file) = spell type := by
    show trim (returnSpelling h.type) = spell type
    rw [hspell, trim_spell fun u hu => (htype u hu).1]
  have hfirst : ∀ u ∈ type.head?, u.text ≠ typedefWord := by
    intro u hu htext
    obtain ⟨rest, rfl⟩ := List.head?_eq_some_iff.1 hu
    obtain ⟨hlex, hisType, _⟩ := htype u List.mem_cons_self
    have hword : u.kind = .word := by
      have hstar : (typedefWord == ['*']) = false := by decide
      simpa [isTypeToken, isMark, htext, hstar] using hisType
    have hhead := head?_words_spell hlex hword fun v hv =>
      (htype v (List.mem_cons_of_mem u hv)).2.1
    rw [htext, ← hspell] at hhead
    exact hreturn hhead
  obtain ⟨inner, hbalanced, hgroups, hinner⟩ :=
    exists_written_inside (s := h.declaration.toSignature file) rfl hparams f
  obtain ⟨tail, htail, hwritten⟩ := exists_written_afterName hinner
  have hblank : isBlank f.separator = true := by cases f <;> decide
  have hread := declarations_of_written hne htype hfirst hname hblank hbalanced htail hwritten
  rw [hgroups, newlines_separator, ← hreturnType] at hread
  rw [render_eq]
  show (scan (_ ++ _ :: (h.name.text ++ _))).declarations = _
  rw [hread, hreturnType, ← hspell]
  rfl

/-- An array of constant pointers, a function pointer and a parameter without a name. -/
theorem scan_render_kitchen :
    let t := "int fry (char *const egg[2], int (*cook)(int, char *[2]), unsigned);".toList
    let d : Declaration :=
      { name := "fry".toList, line := 1, returnType := "int".toList,
        params := [("char *const [2]".toList, "egg".toList),
          ("int (*)(int, char *[2])".toList, "cook".toList), ("unsigned".toList, [])] }
    d ∈ (scan t).declarations ∧ (words d.returnType).head? ≠ some typedefWord
      ∧ (∀ p ∈ d.params, p ≠ ("void".toList, []) ∧ ReadsRegular t p)
      ∧ render .definition (d.toSignature "pan.c".toList)
        = "int\nfry (char *const egg[2],\n     int (*cook)(int, char *[2]),\n     unsigned)".toList
      ∧ (scan (render .definition (d.toSignature "pan.c".toList))).declarations
        = [{ d with line := 2 }] := by
  intro t d
  let word (w : String) : Token := ⟨.word, w.toList, 1⟩
  let mark (c : Char) : Token := ⟨.mark, [c], 1⟩
  let two : List Token := [mark '[', ⟨.number, ['2'], 1⟩, mark ']']
  let egg : List Token := [word "char", mark '*', word "const", word "egg"] ++ two
  let cook : List Token := [word "int", mark '(', mark '*', word "cook", mark ')', mark '(',
    word "int", mark ',', word "char", mark '*'] ++ two ++ [mark ')']
  have htokens : Token.ofText t = [word "int", word "fry", mark '('] ++ egg ++ mark ',' :: cook
      ++ [mark ',', word "unsigned", mark ')', mark ';'] := by decide +kernel
  have hd : d ∈ (scan t).declarations := by
    rw [declarations_scan, htokens]
    decide +kernel
  have hreturn : (words d.returnType).head? ≠ some typedefWord := by decide
  have htwo : Bounds two :=
    @Bounds.cons (mark '[') (mark ']') [⟨.number, ['2'], 1⟩] [] rfl rfl (by decide) .nil
  have hegg : ReadsRegular t ("char *const [2]".toList, "egg".toList) := by
    have hrun : typeRun egg = [word "char", mark '*', word "const"] ++ two := by decide +kernel
    refine ⟨egg, List.cons_ne_nil _ _, fun u hu => by simp [htokens, hu], by decide +kernel, ?_⟩
    rw [hrun]
    exact .plain (by decide) htwo (.inr ⟨word "const", rfl, by decide⟩)
  have hcook : ReadsRegular t ("int (*)(int, char *[2])".toList, "cook".toList) := by
    have hinner : Balanced isContent ([word "int", mark ',', word "char", mark '*'] ++ two) :=
      (Balanced.of_forall (by decide)).append (htwo.balanced isContent)
    have hrun : typeRun cook = [word "int"] ++ mark '(' :: mark '*' :: mark ')' ::
        (mark '(' :: ([word "int", mark ',', word "char", mark '*'] ++ two ++ mark ')' :: [])) := by
      decide +kernel
    refine ⟨cook, List.cons_ne_nil _ _, fun u hu => by simp [htokens, hu], by decide +kernel, ?_⟩
    rw [hrun]
    exact .pointer (by decide) rfl rfl rfl (.group rfl hinner .nil)
  have hunsigned : ReadsRegular t ("unsigned".toList, []) := by
    have hrun : typeRun [word "unsigned"] = [word "unsigned"] ++ [] := by decide +kernel
    refine ⟨[word "unsigned"], List.cons_ne_nil _ _, by simp [htokens], by decide +kernel, ?_⟩
    rw [hrun]
    exact .plain (by decide) .nil (.inl rfl)
  have hparams : ∀ p ∈ d.params, p ≠ ("void".toList, []) ∧ ReadsRegular t p := by
    have hvoid : ∀ p ∈ d.params, p ≠ ("void".toList, []) := by decide
    refine fun p hp => ⟨hvoid p hp, ?_⟩
    simp only [d, List.mem_cons, List.not_mem_nil, or_false] at hp
    rcases hp with rfl | rfl | rfl
    · exact hegg
    · exact hcook
    · exact hunsigned
  exact ⟨hd, hreturn, hparams, by decide +kernel, scan_render hd hreturn hparams .definition⟩

/-- Bounds can stand between a tag word and a name.  The layout moves the name in front of
them, where it is read as the tag: the parameter loses its name. -/
theorem name_becomes_tag :
    let t := "int fry (struct [3] pan);".toList
    let d : Declaration :=
      { name := "fry".toList, line := 1, returnType := "int".toList,
        params := [("struct [3]".toList, "pan".toList)] }
    let g : List Token := [⟨.word, "struct".toList, 1⟩, ⟨.mark, ['['], 1⟩, ⟨.number, ['3'], 1⟩,
      ⟨.mark, [']'], 1⟩, ⟨.word, "pan".toList, 1⟩]
    (scan t).declarations = [d] ∧ (words d.returnType).head? ≠ some typedefWord
      ∧ ("struct [3]".toList, "pan".toList) ≠ ("void".toList, [])
      ∧ (∀ u ∈ g, u ∈ Token.ofText t) ∧ paramOf g = ("struct [3]".toList, "pan".toList)
      ∧ (∃ core bounds, typeRun g = core ++ bounds ∧ (∀ u ∈ core, isTypeToken u = true)
        ∧ Bounds bounds)
      ∧ render .prototype (d.toSignature "pan.c".toList) = "int fry(struct pan[3]);".toList
      ∧ (scan (render .prototype (d.toSignature "pan.c".toList))).declarations
        = [{ d with params := [("struct pan [3]".toList, [])] }]
      ∧ (scan (render .prototype (d.toSignature "pan.c".toList))).declarations
        ≠ [{ d with line := 1 }] := by
  intro t d g
  have htokens : Token.ofText t = [⟨.word, "int".toList, 1⟩, ⟨.word, "fry".toList, 1⟩,
      ⟨.mark, ['('], 1⟩] ++ g ++ [⟨.mark, [')'], 1⟩, ⟨.mark, [';'], 1⟩] := by decide +kernel
  have hbounds : Bounds [⟨.mark, ['['], 1⟩, ⟨.number, ['3'], 1⟩, ⟨.mark, [']'], 1⟩] :=
    @Bounds.cons ⟨.mark, ['['], 1⟩ ⟨.mark, [']'], 1⟩ [⟨.number, ['3'], 1⟩] [] rfl rfl (by decide) .nil
  have hrun : typeRun g = [⟨.word, "struct".toList, 1⟩]
      ++ [⟨.mark, ['['], 1⟩, ⟨.number, ['3'], 1⟩, ⟨.mark, [']'], 1⟩] := by decide +kernel
  have hd : (scan t).declarations = [d] := by
    rw [declarations_scan, htokens]
    decide +kernel
  have hrender : render .prototype (d.toSignature "pan.c".toList)
      = "int fry(struct pan[3]);".toList := by decide +kernel
  have hread : (scan (render .prototype (d.toSignature "pan.c".toList))).declarations
      = [{ d with params := [("struct pan [3]".toList, [])] }] := by
    rw [hrender]
    decide +kernel
  refine ⟨hd, by decide, by decide, fun u hu => by simp [htokens, hu], by decide +kernel,
    ⟨_, _, hrun, by decide, hbounds⟩, hrender, hread, ?_⟩
  rw [hread]
  decide

end Layout
end DocAudit
