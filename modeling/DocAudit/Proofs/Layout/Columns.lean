/-
  DocAudit.Proofs.Layout.Columns
  ──────────────────────────────
  **THE COLUMNS OF A SIGNATURE LINE UP.**

  The padding between a type and its stars is what the widest type and the most stars
  leave over, plus one space:

      byteWidth base + pad + stars = typeWidth + 1 + starWidth      (`width_pad_stars`)

  The subtraction stays in range because both maxima are over all aligned columns.  Each
  parameter has a line of its own (`getElem?_lines_render`), which begins with the opening
  text or with as many spaces, so the names begin at one byte column.
-/
import DocAudit.Layout
import DocAudit.Proofs.Text.Name
import DocAudit.Proofs.Text.Split
import DocAudit.Proofs.Text.Trim

namespace DocAudit

open Text

/-! ## §1. Measuring. -/

namespace Text

@[simp] theorem byteWidth_append (a b : Text) : byteWidth (a ++ b) = byteWidth a + byteWidth b := by
  induction a with
  | nil => simp [byteWidth]
  | cons c a ih =>
    rw [List.cons_append, byteWidth, byteWidth, ih]
    omega

theorem byteWidth_replicate {c : Char} (hc : c.utf8Size = 1) (n : Nat) :
    byteWidth (List.replicate n c) = n := by
  induction n with
  | zero => rfl
  | succ n ih =>
    rw [List.replicate_succ, byteWidth, ih, hc]
    omega

@[simp] theorem byteWidth_spaces (n : Nat) : byteWidth (spaces n) = n :=
  byteWidth_replicate (by decide) n

theorem mem_of_mem_trimEnd {c : Char} {t : Text} (h : c ∈ trimEnd t) : c ∈ t :=
  (trimEnd_begins t).subset h

theorem mem_of_mem_trim {c : Char} {t : Text} (h : c ∈ trim t) : c ∈ t :=
  (List.dropWhile_suffix isBlank).subset (mem_of_mem_trimEnd h)

theorem mem_of_mem_replaceFirst {needle put t : Text} {c : Char}
    (h : c ∈ replaceFirst needle put t) : c ∈ put ∨ c ∈ t := by
  induction t with
  | nil =>
    unfold replaceFirst at h
    split at h
    · exact .inl h
    · exact absurd h List.not_mem_nil
  | cons d t ih =>
    unfold replaceFirst at h
    split at h
    · rcases List.mem_append.1 h with h | h
      · exact .inl h
      · exact .inr (List.mem_of_mem_drop h)
    · rcases List.mem_cons.1 h with rfl | h
      · exact .inr List.mem_cons_self
      · exact (ih h).imp_right (List.mem_cons_of_mem d)

end Text

namespace Layout

theorem le_foldl_max (ns : List Nat) (m : Nat) : m ≤ ns.foldl max m ∧ ∀ n ∈ ns, n ≤ ns.foldl max m := by
  induction ns generalizing m with
  | nil => simp
  | cons k ns ih =>
    have hrest := ih (max m k)
    simp only [List.foldl_cons, List.mem_cons, forall_eq_or_imp]
    exact ⟨by omega, by omega, hrest.2⟩

theorem le_widest {ns : List Nat} {n : Nat} (h : n ∈ ns) : n ≤ widest ns := (le_foldl_max ns 0).2 n h

/-! ## §2. Columns. -/

def columns (s : Signature) : List Column := s.params.map Column.ofParam

/-- The columns that are aligned: those of all parameters but function pointers. -/
def aligned (s : Signature) : List Column := (columns s).filter (!·.isFunctionPointer)

/-- The width of the widest type. -/
def typeWidth (s : Signature) : Nat := widest ((aligned s).map fun c => byteWidth c.base)

/-- The greatest number of stars. -/
def starWidth (s : Signature) : Nat := widest ((aligned s).map (·.stars))

namespace Column

/-- The spaces between the type and the stars. -/
def pad (typeWidth starWidth : Nat) (c : Column) : Nat :=
  typeWidth + 1 + starWidth - byteWidth c.base - c.stars

theorem text_of_aligned {c : Column} (h : c.isFunctionPointer = false) (typeWidth starWidth : Nat) :
    c.text typeWidth starWidth
      = c.base ++ spaces (c.pad typeWidth starWidth) ++ List.replicate c.stars '*' ++ c.name
        ++ c.bounds := by
  simp [text, h, pad]

/-- The type of a parameter and its bounds, as they are told apart. -/
def typeParts (p : Param) : Text × Text := splitBounds (trim (p.typename.getD []))

theorem ofParam_eq (p : Param) : ofParam p =
    let type := trimEnd (typeParts p).1
    let core := dropEndWhile (· == '*') type
    { base := trimEnd core, stars := type.length - core.length, name := p.name,
      bounds := (typeParts p).2 } := by
  unfold ofParam typeParts
  cases splitBounds (trim (p.typename.getD []))
  rfl

/-- The texts of a column come from the type of the parameter. -/
theorem mem_of_mem_ofParam {p : Param} {c : Char}
    (h : c ∈ (ofParam p).base ∨ c ∈ (ofParam p).bounds) : c ∈ p.typename.getD [] := by
  have hsplit : ∀ t : Text, (c ∈ (splitBounds t).1 ∨ c ∈ (splitBounds t).2) → c ∈ t := by
    intro t ht
    unfold splitBounds at ht
    split at ht
    · exact ht.elim id fun hnil => absurd hnil List.not_mem_nil
    · exact ht.elim (fun h => (List.takeWhile_sublist _).subset h)
        fun h => (List.dropWhile_sublist _).subset h
  rw [ofParam_eq] at h
  dsimp only at h
  refine mem_of_mem_trim (hsplit _ (h.imp_left fun hbase => ?_))
  obtain ⟨b, hb, _⟩ := exists_dropEndWhile (· == '*') (trimEnd (typeParts p).1)
  refine mem_of_mem_trimEnd (t := (typeParts p).1) ?_
  rw [hb]
  exact List.mem_append_left b (mem_of_mem_trimEnd hbase)

end Column

theorem mem_aligned {s : Signature} {p : Param} (hp : p ∈ s.params)
    (h : (Column.ofParam p).isFunctionPointer = false) : Column.ofParam p ∈ aligned s :=
  List.mem_filter.2 ⟨List.mem_map.2 ⟨p, hp, rfl⟩, by simp [h]⟩

/-- No aligned column is wider than the widths that are reckoned with. -/
theorem width_le {s : Signature} {c : Column} (hc : c ∈ aligned s) :
    byteWidth c.base ≤ typeWidth s ∧ c.stars ≤ starWidth s := by
  have hbase : byteWidth c.base ∈ (aligned s).map fun c => byteWidth c.base :=
    List.mem_map_of_mem hc
  have hstars : c.stars ∈ (aligned s).map (·.stars) := List.mem_map_of_mem hc
  unfold typeWidth starWidth
  exact ⟨le_widest hbase, le_widest hstars⟩

/-- **The padding is what is left over**, and at least one space. -/
theorem width_pad_stars {s : Signature} {c : Column} (hc : c ∈ aligned s) :
    byteWidth c.base + c.pad (typeWidth s) (starWidth s) + c.stars = typeWidth s + 1 + starWidth s
      ∧ 1 ≤ c.pad (typeWidth s) (starWidth s) := by
  have hwidth := width_le hc
  unfold Column.pad
  omega

/-! ## §3. Lines. -/

/-- What is written for a parameter. -/
def entry (s : Signature) (p : Param) : Text :=
  trimEnd ((Column.ofParam p).text (typeWidth s) (starWidth s))

theorem entries_eq (s : Signature) : entries s = s.params.map (entry s) := by
  unfold entries
  dsimp only
  rw [List.map_map]
  refine List.map_congr_left fun p _ => ?_
  simp only [Function.comp_apply, entry, typeWidth, starWidth, aligned, columns]

/-- Entries joined with a comma, a line feed and the same indentation: the line of each. -/
theorem splitOn_rows {start indent closing : Text} {es : List Text} (hne : es ≠ [])
    (hstart : '\n' ∉ start) (hindent : '\n' ∉ indent) (hclosing : '\n' ∉ closing)
    (hes : ∀ e ∈ es, '\n' ∉ e) :
    let rows := splitOn '\n' (start ++ join (",\n".toList ++ indent) es ++ closing)
    rows.length = es.length
      ∧ ∀ i e, es[i]? = some e → rows[i]?
        = some ((if i = 0 then start else indent) ++ e
            ++ if i + 1 = es.length then closing else [',']) := by
  induction es generalizing start with
  | nil => exact absurd rfl hne
  | cons e es ih =>
    have he : '\n' ∉ e := hes e List.mem_cons_self
    cases es with
    | nil =>
      -- one line up to the closing
      have hline : '\n' ∉ start ++ e ++ closing := by simp [hstart, he, hclosing]
      rw [join_singleton, splitOn_of_not_mem hline]
      refine ⟨rfl, fun i e' hi => ?_⟩
      cases i with
      | zero =>
        cases hi
        simp
      | succ i => cases hi
    | cons e' rest =>
      have hline : '\n' ∉ start ++ e ++ [','] := by simp [hstart, he]
      have hsplit : start ++ join (",\n".toList ++ indent) (e :: e' :: rest) ++ closing
          = (start ++ e ++ [',']) ++ '\n'
            :: (indent ++ join (",\n".toList ++ indent) (e' :: rest) ++ closing) := by
        rw [join_cons_cons]
        simp
      obtain ⟨hlength, hget⟩ := ih (List.cons_ne_nil e' rest) hindent
        fun x hx => hes x (List.mem_cons_of_mem e hx)
      rw [hsplit, splitOn_append_cons hline]
      refine ⟨congrArg (· + 1) hlength, fun i x hi => ?_⟩
      cases i with
      | zero =>
        cases hi
        simp
      | succ i =>
        -- behind the first line the entries begin with the indentation
        rw [List.getElem?_cons_succ] at hi ⊢
        rw [hget i x hi]
        simp

/-- A signature whose spellings and names all stand on one line. -/
structure OneLine (s : Signature) : Prop where
  /-- The name. -/
  name : '\n' ∉ s.name
  /-- The return type. -/
  returns : '\n' ∉ s.returns.typename.getD []
  /-- The parameters: their types and their names. -/
  params : ∀ p ∈ s.params, '\n' ∉ p.typename.getD [] ∧ '\n' ∉ p.name

namespace OneLine

variable {s : Signature}

theorem not_mem_returnType (h : OneLine s) : '\n' ∉ returnType s :=
  fun hmem => h.returns (mem_of_mem_trim hmem)

theorem not_mem_opening (h : OneLine s) (f : Form) : '\n' ∉ opening f s := by
  cases f with
  | definition => simp [opening, h.name]
  | prototype => simp [opening, h.name, h.not_mem_returnType]

theorem not_mem_entry (h : OneLine s) {p : Param} (hp : p ∈ s.params) : '\n' ∉ entry s p := by
  obtain ⟨htype, hname⟩ := h.params p hp
  have hbase : '\n' ∉ (Column.ofParam p).base :=
    fun hmem => htype (Column.mem_of_mem_ofParam (.inl hmem))
  have hbounds : '\n' ∉ (Column.ofParam p).bounds :=
    fun hmem => htype (Column.mem_of_mem_ofParam (.inr hmem))
  have hname' : '\n' ∉ (Column.ofParam p).name := hname
  intro hmem
  have htext := mem_of_mem_trimEnd hmem
  cases hfp : (Column.ofParam p).isFunctionPointer with
  | true =>
    -- the name is put into the type
    unfold Column.text at htext
    rw [if_pos hfp] at htext
    rcases mem_of_mem_replaceFirst htext with hput | hin
    · simp [hname'] at hput
    · exact hbase hin
  | false =>
    rw [Column.text_of_aligned hfp] at htext
    simp [hbase, hname', hbounds, spaces, List.mem_replicate] at htext

end OneLine

/-- The number of lines before that of the opening bracket. -/
def Form.linesAbove : Form → Nat
  | definition => 1
  | prototype => 0

/-- What stands before a parameter on its line. -/
def lineStart (f : Form) (s : Signature) (i : Nat) : Text :=
  if i = 0 then opening f s else spaces (byteWidth (opening f s))

/-- What stands behind a parameter on its line. -/
def lineEnd (f : Form) (s : Signature) (i : Nat) : Text :=
  if i + 1 = s.params.length then f.closing else [',']

theorem byteWidth_lineStart (f : Form) (s : Signature) (i : Nat) :
    byteWidth (lineStart f s i) = byteWidth (opening f s) := by
  unfold lineStart
  split <;> simp

/-- **Each parameter has a line of its own.** -/
theorem getElem?_lines_render {s : Signature} (hne : s.params ≠ []) (h : OneLine s) (f : Form) :
    (splitOn '\n' (render f s)).length = f.linesAbove + s.params.length
      ∧ ∀ i p, s.params[i]? = some p → (splitOn '\n' (render f s))[f.linesAbove + i]?
        = some (lineStart f s i ++ entry s p ++ lineEnd f s i) := by
  have hinside : inside f s
      = join (",\n".toList ++ spaces (byteWidth (opening f s))) (s.params.map (entry s)) := by
    unfold inside
    rw [if_neg (by simpa using hne), entries_eq]
  have hes : ∀ e ∈ s.params.map (entry s), '\n' ∉ e := by
    intro e he
    obtain ⟨p, hp, rfl⟩ := List.mem_map.1 he
    exact h.not_mem_entry hp
  have hindent : '\n' ∉ spaces (byteWidth (opening f s)) := by simp [spaces, List.mem_replicate]
  have hclosing : '\n' ∉ f.closing := by cases f <;> decide
  obtain ⟨hlength, hget⟩ := splitOn_rows (by simpa using hne) (h.not_mem_opening f) hindent
    hclosing hes
  rw [List.length_map] at hlength hget
  have hrow : ∀ i p, s.params[i]? = some p →
      (splitOn '\n' (opening f s ++ inside f s ++ f.closing))[i]?
        = some (lineStart f s i ++ entry s p ++ lineEnd f s i) := by
    intro i p hi
    rw [hinside, hget i (entry s p) (by rw [List.getElem?_map, hi]; rfl)]
    rfl
  rw [← hinside] at hlength
  -- a definition has the line of its return type above
  cases f with
  | definition =>
    have hrender : splitOn '\n' (render .definition s) = returnType s
        :: splitOn '\n' (opening .definition s ++ inside .definition s ++ Form.closing .definition) := by
      rw [← splitOn_append_cons h.not_mem_returnType]
      simp [render, lead, line]
    rw [hrender]
    refine ⟨by rw [List.length_cons, hlength]; exact Nat.add_comm _ 1, fun i p hi => ?_⟩
    rw [show Form.definition.linesAbove + i = i + 1 from Nat.add_comm 1 i, List.getElem?_cons_succ]
    exact hrow i p hi
  | prototype =>
    have hrender : render .prototype s
        = opening .prototype s ++ inside .prototype s ++ Form.closing .prototype := rfl
    rw [hrender]
    refine ⟨by rw [hlength]; exact (Nat.zero_add _).symm, fun i p hi => ?_⟩
    rw [show Form.prototype.linesAbove + i = i from Nat.zero_add i]
    exact hrow i p hi

/-- A name without blanks at its ends is kept whole, at its place behind the stars. -/
theorem exists_entry_eq {s : Signature} {p : Param}
    (hfp : (Column.ofParam p).isFunctionPointer = false) (hne : p.name ≠ [])
    (htrim : trim p.name = p.name) :
    ∃ after, entry s p = (Column.ofParam p).base
      ++ spaces ((Column.ofParam p).pad (typeWidth s) (starWidth s))
      ++ List.replicate (Column.ofParam p).stars '*' ++ p.name ++ after := by
  have hlast : ∀ c ∈ p.name.getLast?, isBlank c = false := by
    rw [← htrim]
    exact getLast?_trimEnd _
  have hname : p.name.dropLast ++ [p.name.getLast hne] = p.name := List.dropLast_concat_getLast hne
  refine ⟨trimEnd (Column.ofParam p).bounds, ?_⟩
  have hsolid := hlast (p.name.getLast hne) (List.getLast?_eq_some_getLast hne)
  unfold entry
  rw [Column.text_of_aligned hfp]
  show trimEnd (_ ++ p.name ++ (Column.ofParam p).bounds) = _
  -- the last character of the name shields what stands before it
  rw [← hname, ← List.append_assoc, List.append_assoc _ [_], List.singleton_append,
    trimEnd_append_cons hsolid]
  simp

/-! ## §4. The layout. -/

/-- **Parameter columns line up.**  In both forms of a signature with parameters: the
padding of an aligned column is never cut off at zero, and is at least one space; every
parameter has a line of its own, and every one but the first stands there behind as many
spaces as the opening text has bytes; and a name, unless it is that of a function pointer,
begins at the same byte column of its line as all others, its stars directly before it. -/
theorem columns_line_up (f : Form) (s : Signature) (hne : s.params ≠ []) (h : OneLine s) :
    (∀ c ∈ aligned s, byteWidth c.base ≤ typeWidth s + 1 + starWidth s
      ∧ c.stars ≤ typeWidth s + 1 + starWidth s - byteWidth c.base
      ∧ 1 ≤ typeWidth s + 1 + starWidth s - byteWidth c.base - c.stars)
    ∧ (splitOn '\n' (render f s)).length = f.linesAbove + s.params.length
    ∧ (∀ i p, s.params[i]? = some p → (splitOn '\n' (render f s))[f.linesAbove + i]?
        = some ((if i = 0 then opening f s else spaces (byteWidth (opening f s)))
            ++ entry s p ++ if i + 1 = s.params.length then f.closing else [',']))
    ∧ ∀ i p, s.params[i]? = some p → (Column.ofParam p).isFunctionPointer = false →
      p.name ≠ [] → trim p.name = p.name →
      ∃ before after, (splitOn '\n' (render f s))[f.linesAbove + i]?
          = some (before ++ List.replicate (Column.ofParam p).stars '*' ++ p.name ++ after)
        ∧ byteWidth (before ++ List.replicate (Column.ofParam p).stars '*')
          = byteWidth (opening f s) + typeWidth s + 1 + starWidth s := by
  obtain ⟨hlength, hline⟩ := getElem?_lines_render hne h f
  refine ⟨fun c hc => ?_, hlength, hline, fun i p hi hfp hname htrim => ?_⟩
  · have hwidth := width_le hc
    omega
  · obtain ⟨after, hentry⟩ := exists_entry_eq (s := s) hfp hname htrim
    have hwidth := (width_pad_stars (mem_aligned (List.mem_of_getElem? hi) hfp)).1
    refine ⟨lineStart f s i ++ (Column.ofParam p).base
      ++ spaces ((Column.ofParam p).pad (typeWidth s) (starWidth s)), after ++ lineEnd f s i, ?_, ?_⟩
    · rw [hline i p hi, hentry]
      simp [List.append_assoc]
    · rw [byteWidth_append, byteWidth_append, byteWidth_append, byteWidth_lineStart,
        byteWidth_spaces, byteWidth_replicate (by decide)]
      omega

/-- A function pointer, which takes no part, a pointer to a pointer and an array. -/
theorem columns_line_up_stove :
    let size : Param := .typed "int [16]".toList "size".toList
    let s : Signature :=
      { name := "heat".toList, file := "stove.c".toList, line := 3,
        returns := .returning "void".toList,
        params := [.typed "int (*)(int)".toList "cb".toList,
          .typed "char **".toList "names".toList, size] }
    render .definition s
        = "void\nheat (int (*cb)(int),\n      char **names,\n      int    size[16])".toList
      ∧ s.params ≠ [] ∧ OneLine s ∧ s.params[2]? = some size
      ∧ (Column.ofParam size).isFunctionPointer = false
      ∧ size.name ≠ [] ∧ trim size.name = size.name
      ∧ ∃ before after, (splitOn '\n' (render .definition s))[Form.definition.linesAbove + 2]?
            = some (before ++ List.replicate (Column.ofParam size).stars '*' ++ size.name ++ after)
          ∧ byteWidth (before ++ List.replicate (Column.ofParam size).stars '*') = 13 := by
  intro size s
  have hne : s.params ≠ [] := List.cons_ne_nil _ _
  have hline : OneLine s := ⟨by decide, by decide, by decide⟩
  have hname : size.name ≠ [] := by decide
  obtain ⟨before, after, hget, hwidth⟩ := (columns_line_up .definition s hne hline).2.2.2 2 size rfl
    (by decide) hname (by decide)
  have hcolumn : byteWidth (opening .definition s) + typeWidth s + 1 + starWidth s = 13 := by decide
  exact ⟨by decide, hne, hline, rfl, by decide, hname, by decide, before, after, hget,
    hwidth.trans hcolumn⟩

end Layout
end DocAudit
