/-
  DocAudit.Proofs.Declaration.Param
  ─────────────────────────────────
  **A PARAMETER IS A TYPE WITH A NAME PUT INTO IT.**

  The scan takes the name out of the tokens of a parameter and spells the others as the
  type (`typeRun`).  Put back, the name is found again:

      before the bounds    `pan_t *pan[3]`         (`paramOf_named`)
      behind `(*`          `int (*cook)(pan_t *)`  (`paramOf_pointer`)

  The first needs a place where the scan looks for a name: behind a token that is no
  `struct`, `union` or `enum`.  A statement that is put together from such parameters
  declares them (`declared_of_head`).
-/
import DocAudit.Proofs.Declaration.Brackets
import DocAudit.Proofs.Text.Words

namespace DocAudit.Declaration

open Token

/-! ## §1. Looking for a pointer in brackets. -/

theorem pointerName?_eq_none {g : List Token} (h : ∀ t ∈ g, t.isMark '(' = false) :
    pointerName? g = none := by
  fun_induction pointerName? g with
  | case1 a b c rest hok =>
    simp [h a List.mem_cons_self] at hok
  | case2 a b c rest hok ih =>
    rw [ih fun t ht => h t (List.mem_cons_of_mem a ht)]
    rfl
  | case3 => rfl

theorem pointerName?_cons {t : Token} (h : t.isMark '(' = false) (ts : List Token) :
    pointerName? (t :: ts) = (pointerName? ts).map fun p => { p with lead := t :: p.lead } := by
  match ts with
  | [] => rfl
  | [a] => rfl
  | a :: b :: rest => rw [pointerName?, if_neg (by simp [h])]

theorem pointerName?_append {lead : List Token} (hlead : ∀ t ∈ lead, t.isMark '(' = false)
    {opening star name : Token} (ho : opening.isMark '(' = true) (hs : star.isMark '*' = true)
    (hn : name.isName = true) (rest : List Token) :
    pointerName? (lead ++ opening :: star :: name :: rest)
      = some ⟨lead, [opening, star], name, rest⟩ := by
  induction lead with
  | nil => rw [List.nil_append, pointerName?, if_pos (by simp [ho, hs, hn])]
  | cons t lead ih =>
    rw [List.cons_append, pointerName?_cons (hlead t List.mem_cons_self),
      ih fun u hu => hlead u (List.mem_cons_of_mem t hu)]
    rfl

theorem eq_of_pointerName? {g : List Token} {p : PointerName} (h : pointerName? g = some p) :
    g = p.lead ++ p.opening ++ p.name :: p.rest := by
  fun_induction pointerName? g generalizing p with
  | case1 a b c rest hok =>
    cases h
    rfl
  | case2 a b c rest hok ih =>
    obtain ⟨q, hq, rfl⟩ := Option.map_eq_some_iff.1 h
    rw [ih hq]
    rfl
  | case3 => cases h

/-! ## §2. The tokens of the type. -/

/-- The tokens of a parameter that its type is spelled from: all but the name. -/
def typeRun (g : List Token) : List Token :=
  match pointerName? g with
  | some p => p.lead ++ p.opening ++ p.rest
  | none =>
    let core := (dropBounds g.reverse).reverse
    (if endsInName core then core.dropLast else core) ++ g.drop core.length

theorem fst_paramOf (g : List Token) : (paramOf g).1 = spell (typeRun g) := by
  unfold paramOf scanParam typeRun
  cases pointerName? g <;> rfl

theorem mem_of_mem_typeRun {g : List Token} {t : Token} (h : t ∈ typeRun g) : t ∈ g := by
  unfold typeRun at h
  split at h
  · next p hp =>
    rw [eq_of_pointerName? hp]
    simp only [List.mem_append, List.mem_cons] at h ⊢
    tauto
  · dsimp only at h
    rcases List.mem_append.1 h with h | h
    · split at h
      · exact mem_of_mem_core (List.mem_of_mem_dropLast h)
      · exact mem_of_mem_core h
    · exact List.mem_of_mem_drop h

/-- What is left without the bounds begins the parameter. -/
theorem core_begins (g : List Token) : (dropBounds g.reverse).reverse <+: g := by
  rw [← List.reverse_suffix, List.reverse_reverse]
  exact dropBounds_suffix g.reverse

/-- Only the name is left out. -/
theorem mem_typeRun_or_isName {g : List Token} {t : Token} (h : t ∈ g) :
    t ∈ typeRun g ∨ t.isName = true := by
  unfold typeRun
  cases hp : pointerName? g with
  | some p =>
    rw [eq_of_pointerName? hp] at h
    simp only [List.mem_append, List.mem_cons] at h ⊢
    rcases h with h | rfl | h
    · exact .inl (.inl h)
    · exact .inr (mem_of_pointerName? hp).2.1
    · exact .inl (.inr h)
  | none =>
    dsimp only
    have hsplit := List.prefix_iff_eq_append.1 (core_begins g)
    rw [← hsplit, List.mem_append] at h
    rcases h with h | h
    · cases hends : endsInName (dropBounds g.reverse).reverse with
      | false => exact .inl (List.mem_append_left _ h)
      | true =>
        obtain ⟨u, hlast, hu⟩ := exists_getLast?_of_endsInName hends
        obtain ⟨front, hfront⟩ := List.getLast?_eq_some_iff.1 hlast
        rw [hfront] at h ⊢
        rcases List.mem_append.1 h with h | h
        · exact .inl (List.mem_append_left _ (by simpa using h))
        · cases List.mem_singleton.1 h
          exact .inr hu
    · exact .inl (List.mem_append_right _ h)

/-- A parameter without a name is all type. -/
theorem typeRun_of_unnamed {g : List Token} (hlex : ∀ t ∈ g, t.isLexeme = true)
    (h : (paramOf g).2 = []) : typeRun g = g := by
  unfold paramOf scanParam at h
  unfold typeRun
  -- wherever a name was found, its text would not be empty
  cases hp : pointerName? g with
  | some p =>
    rw [hp] at h
    exact absurd h (solid_of_isLexeme (hlex _ (mem_of_pointerName? hp).1)).1
  | none =>
    rw [hp] at h
    dsimp only at h ⊢
    cases hends : endsInName (dropBounds g.reverse).reverse with
    | true =>
      obtain ⟨t, hlast, _⟩ := exists_getLast?_of_endsInName hends
      rw [hends, hlast] at h
      have hmem : t ∈ g := mem_of_mem_core (List.mem_of_getLast? hlast)
      exact absurd h (solid_of_isLexeme (hlex t hmem)).1
    | false =>
      exact List.prefix_iff_eq_append.1 (core_begins g)

/-- A parameter is the tokens of its type and the one token of its name, if it has one. -/
theorem exists_names {g : List Token} (hlex : ∀ t ∈ g, t.isLexeme = true) :
    ∃ names : List Token, (∀ n ∈ names, n.isName = true ∧ n.isLexeme = true)
      ∧ paramOf g = (spell (typeRun g), spell names)
      ∧ (names = [] ∧ typeRun g = g ∨ ∃ n, names = [n]) := by
  have hfst := fst_paramOf g
  rcases name_paramOf g with hname | ⟨n, hn, hisName, hname⟩
  · exact ⟨[], by simp, Prod.ext hfst hname, .inl ⟨rfl, typeRun_of_unnamed hlex hname⟩⟩
  · exact ⟨[n], by simp [hisName, hlex n hn], Prod.ext hfst hname, .inr ⟨n, rfl⟩⟩

/-- The type tokens and the name of a parameter that a layout keeps.  The type is words and
stars, with array bounds behind them or with `(*)` and groups in brackets.  A name goes
before the bounds; there it must stand behind a token, and not behind `struct`, `union` or
`enum`, for it would be their tag. -/
inductive Regular : List Token → Text → Prop where
  /-- A plain parameter. -/
  | plain {core bounds : List Token} {name : Text} :
      (∀ t ∈ core, isTypeToken t = true) → Bounds bounds →
      (name = [] ∨ ∃ t, core.getLast? = some t ∧ t.isTagWord = false) →
      Regular (core ++ bounds) name
  /-- A function pointer. -/
  | pointer {lead groups : List Token} {opening star closing : Token} {name : Text} :
      (∀ t ∈ lead, isTypeToken t = true) → opening.isMark '(' = true → star.isMark '*' = true →
      closing.isMark ')' = true → Balanced (fun _ => false) groups →
      Regular (lead ++ opening :: star :: closing :: groups) name

theorem isTypeToken_of_isName {t : Token} (h : t.isName = true) : isTypeToken t = true := by
  simp [isName] at h
  simp [isTypeToken, h.1]

theorem isTypePart_of_isTypeToken {t : Token} (h : isTypeToken t = true) : t.isTypePart = true :=
  isTypePart_of_isContent (isContent_of_isTypeToken h)

theorem Regular.isTypePart {run : List Token} {name : Text} (h : Regular run name) :
    ∀ t ∈ run, t.isTypePart = true := by
  cases h with
  | plain hcore hbounds _ =>
    simp only [List.forall_mem_append]
    exact ⟨fun t ht => isTypePart_of_isTypeToken (hcore t ht),
      (hbounds.balanced isTypeToken).isTypePart fun _ => isTypePart_of_isTypeToken⟩
  | pointer hlead ho hs hc hgroups =>
    simp only [List.forall_mem_append, List.forall_mem_cons]
    exact ⟨fun t ht => isTypePart_of_isTypeToken (hlead t ht), isTypePart_of_isMark ho (by decide),
      isTypePart_of_isMark hs (by decide), isTypePart_of_isMark hc (by decide),
      hgroups.isTypePart fun t ht => absurd ht (by decide)⟩

/-- The tokens of a regular parameter are lexemes. -/
theorem Regular.isLexeme {s : Text} {g : List Token} {name : Text} (h : Regular (typeRun g) name)
    (hg : ∀ t ∈ g, t ∈ Token.ofText s) : ∀ t ∈ g, t.isLexeme = true := by
  intro t ht
  refine isLexeme_of_mem (hg t ht) ?_
  rcases mem_typeRun_or_isName ht with hrun | hname
  · exact h.isTypePart t hrun
  · exact isTypePart_of_isTypeToken (isTypeToken_of_isName hname)

/-! ## §3. Putting a name in. -/

theorem endsInName_concat {core : List Token} {t name : Token} (hlast : core.getLast? = some t)
    (htag : t.isTagWord = false) (hn : name.isName = true) :
    endsInName (core ++ [name]) = true := by
  obtain ⟨front, rfl⟩ := List.getLast?_eq_some_iff.1 hlast
  simp [endsInName, hn, htag]

/-- **A name before the bounds is found**, behind a token that is no tag word. -/
theorem paramOf_named {core bounds : List Token} {t name : Token}
    (hcore : ∀ t ∈ core, isTypeToken t = true) (hbounds : Bounds bounds)
    (hlast : core.getLast? = some t) (htag : t.isTagWord = false) (hn : name.isName = true) :
    paramOf (core ++ name :: bounds) = (spell (core ++ bounds), name.text) := by
  have hround : ∀ u ∈ core ++ name :: bounds, u.isMark '(' = false := by
    intro u hu
    rcases List.mem_append.1 hu with hu | hu
    · exact isMark_of_isTypeToken (hcore u hu) (by decide)
    rcases List.mem_cons.1 hu with rfl | hu
    · exact isMark_of_isName hn '('
    · exact hbounds.isMark_eq_false u hu
  -- the bounds are dropped, and the name stands at the end of what is left
  have hdrop : (dropBounds (core ++ name :: bounds).reverse).reverse = core ++ [name] := by
    have hrev : (core ++ name :: bounds).reverse = bounds.reverse ++ name :: core.reverse := by simp
    rw [hrev, dropBounds_reverse_append hbounds,
      dropBounds_of_isMark_eq_false (isMark_of_isName hn ']')]
    simp
  have hrest : (core ++ name :: bounds).drop (core ++ [name]).length = bounds := by
    rw [List.append_cons core name bounds, List.drop_left]
  unfold paramOf scanParam
  rw [pointerName?_eq_none hround]
  dsimp only
  rw [hdrop, endsInName_concat hlast htag hn, hrest]
  simp

/-- **A name behind the star of a pointer in brackets is found.** -/
theorem paramOf_pointer {lead : List Token} (hlead : ∀ t ∈ lead, isTypeToken t = true)
    {opening star name : Token} (ho : opening.isMark '(' = true) (hs : star.isMark '*' = true)
    (hn : name.isName = true) (rest : List Token) :
    paramOf (lead ++ opening :: star :: name :: rest)
      = (spell (lead ++ opening :: star :: rest), name.text) := by
  have hround : ∀ t ∈ lead, t.isMark '(' = false :=
    fun t ht => isMark_of_isTypeToken (hlead t ht) (by decide)
  unfold paramOf scanParam
  rw [pointerName?_append hround ho hs hn]
  simp

theorem balanced_named {core names bounds : List Token} (hcore : ∀ t ∈ core, isTypeToken t = true)
    (hnames : ∀ n ∈ names, n.isName = true) (hbounds : Bounds bounds) :
    Balanced isTypeToken (core ++ names ++ bounds) := by
  have hnames' : ∀ n ∈ names, isTypeToken n = true := fun n hn => isTypeToken_of_isName (hnames n hn)
  exact ((Balanced.of_forall hcore).append (Balanced.of_forall hnames')).append
    (hbounds.balanced isTypeToken)

theorem balanced_pointer {lead names groups : List Token} {opening star closing : Token}
    (hlead : ∀ t ∈ lead, isTypeToken t = true) (ho : opening.isMark '(' = true)
    (hs : star.isMark '*' = true) (hnames : ∀ n ∈ names, n.isName = true)
    (hc : closing.isMark ')' = true) (hgroups : Balanced (fun _ => false) groups) :
    Balanced isTypeToken (lead ++ opening :: star :: (names ++ closing :: groups)) := by
  have hstar : isTypeToken star = true := by simp [isTypeToken, hs]
  have hinner : Balanced isContent (star :: names) := by
    refine Balanced.of_forall fun t ht => isContent_of_isTypeToken ?_
    rcases List.mem_cons.1 ht with rfl | ht
    · exact hstar
    · exact isTypeToken_of_isName (hnames t ht)
  have hgroups' : Balanced isTypeToken groups := hgroups.mono fun t ht => absurd ht (by decide)
  have hgroup := Balanced.group (show isPair opening closing = true by simp [isPair, ho, hc])
    hinner hgroups'
  exact (Balanced.of_forall hlead).append hgroup

/-! ## §4. Lists of parameters. -/

theorem isTypeToken_of_balanced {t : Token} (h : Balanced isTypeToken [t]) :
    isTypeToken t = true := by
  generalize hg : [t] = g at h
  cases h with
  | nil => cases hg
  | free ht _ =>
    cases hg
    exact ht
  | group => simp at hg

/-- A balanced group that is not empty is a parameter. -/
theorem isParam_of_balanced {g : List Token} (hne : g ≠ []) (h : Balanced isTypeToken g) :
    isParam g = true := by
  match g with
  | [] => exact absurd rfl hne
  | [t] =>
    have ht := isTypeToken_of_balanced h
    show (!t.isEllipsis) = true
    simp [isTypeToken, isMark, isEllipsis] at ht ⊢
    grind
  | t :: u :: rest => rfl

/-- A single token is a type without a name. -/
theorem paramOf_singleton {t : Token} (h : t.isMark ']' = false) : paramOf [t] = (t.text, []) := by
  unfold paramOf scanParam
  simp [pointerName?, dropBounds_of_isMark_eq_false h, endsInName, spell]

/-- **The parameters between two brackets are the groups joined by commas**, unless they
are a single `void`. -/
theorem paramGroups_intercalate {comma : Token} (hcomma : comma.isMark ',' = true)
    {gs : List (List Token)} (hne : gs ≠ [])
    (hgs : ∀ g ∈ gs, g ≠ [] ∧ Balanced isTypeToken g ∧ paramOf g ≠ ("void".toList, [])) :
    paramGroups ([comma].intercalate gs) = gs := by
  have hempty : isEmptyList gs = false := by
    match gs with
    | [] => exact absurd rfl hne
    | [[]] => exact absurd rfl (hgs [] (by simp)).1
    | [[t]] =>
      obtain ⟨_, hbalanced, hvoid⟩ := hgs [t] (by simp)
      have ht := isMark_of_isTypeToken (isTypeToken_of_balanced hbalanced) (show ']' ≠ '*' by decide)
      rw [paramOf_singleton ht] at hvoid
      show (t.text == "void".toList) = false
      rw [beq_eq_false_iff_ne]
      rintro htext
      exact hvoid (by rw [htext])
    | [t :: u :: more] => rfl
    | [] :: b :: rest => rfl
    | [t] :: b :: rest => rfl
    | (t :: u :: more) :: b :: rest => rfl
  unfold paramGroups
  rw [splitCommas_intercalate hcomma hne fun g hg => (hgs g hg).2.1, hempty]
  exact List.filter_eq_self.2 fun g hg => isParam_of_balanced (hgs g hg).1 (hgs g hg).2.1

/-! ## §5. Whole statements. -/

/-- The tokens of the return type of a head. -/
theorem isTypeToken_of_headOf? {s : List Token} {h : Head} (hh : headOf? s = some h) :
    ∀ t ∈ h.type, isTypeToken t = true ∧ t.isSpecifier = false := by
  unfold headOf? head? at hh
  split at hh
  · cases hh
  split at hh
  · cases hh
  split at hh
  · next name u ts _ =>
    dsimp only at hh
    split at hh
    · next hok =>
      obtain ⟨_, _, rfl⟩ := Option.map_eq_some_iff.1 hh
      rw [Bool.and_eq_true, List.all_eq_true] at hok
      intro t ht
      obtain ⟨hmem, hspec⟩ := List.mem_filter.1 ht
      exact ⟨hok.2 t hmem, by simpa using hspec⟩
    · cases hh
  · cases hh

theorem statements_of_single {s tail : List Token} (hne : s ≠ [])
    (hs : ∀ t ∈ s, endsStatement t = false)
    (htail : tail = [] ∨ ∃ t, tail = [t] ∧ endsStatement t = true) : statements (s ++ tail) = [s] := by
  unfold statements
  rcases htail with rfl | ⟨t, rfl, ht⟩
  · rw [List.append_nil, Text.splitWhere_of_none hs]
    simp [hne]
  · rw [Text.splitWhere_append_cons hs ht]
    simp [Text.splitWhere, hne]

theorem head?_of_parts {type : List Token} {name opening : Token} (hne : type ≠ [])
    (htype : ∀ t ∈ type, isTypeToken t = true) (hname : name.isName = true)
    (ho : opening.isMark '(' = true) (rest : List Token) :
    head? (type ++ name :: opening :: rest)
      = (upToClosing 0 rest).map fun inside => ⟨type.filter (!·.isSpecifier), name, inside⟩ := by
  have hbefore : ∀ t ∈ type ++ [name], (!t.isMark '(') = true := by
    intro t ht
    rcases List.mem_append.1 ht with ht | ht
    · simp [isMark_of_isTypeToken (htype t ht) (show '(' ≠ '*' by decide)]
    · cases List.mem_singleton.1 ht
      simp [isMark_of_isName hname]
  unfold head?
  rw [List.span_eq_takeWhile_dropWhile, List.append_cons type name,
    List.takeWhile_append_of_pos hbefore, List.dropWhile_append_of_pos hbefore,
    List.takeWhile_cons_of_neg (by simp [ho]), List.dropWhile_cons_of_neg (by simp [ho]),
    List.append_nil]
  dsimp only
  -- read from its end, what stands before the bracket is the name and then the type
  have hrev : (type ++ [name]).reverse = name :: type.reverse := by simp
  obtain ⟨t, ts, hts⟩ := List.exists_cons_of_ne_nil (List.reverse_ne_nil_iff.2 hne)
  have hback : (t :: ts).reverse = type := by rw [← hts, List.reverse_reverse]
  rw [hrev, hts]
  dsimp only
  rw [hback, if_pos (by simp [hname]; exact htype)]

/-- The return type of a declaration is the spelling of some tokens, at least one. -/
theorem exists_returnType {t : Text} {s : List Token} (hs : ∀ u ∈ s, u ∈ Token.ofText t) {h : Head}
    (hh : headOf? s = some h) : ∃ type : List Token, type ≠ []
      ∧ (∀ u ∈ type, u.isLexeme = true ∧ isTypeToken u = true ∧ u.isSpecifier = false)
      ∧ returnSpelling h.type = spell type := by
  by_cases hnil : h.type = []
  · refine ⟨[⟨.word, "int".toList, 0⟩], by simp, by decide, ?_⟩
    rw [returnSpelling, hnil]
    rfl
  · refine ⟨h.type, hnil, fun u hu => ?_, by simp [returnSpelling, hnil]⟩
    obtain ⟨htype, hspecifier⟩ := isTypeToken_of_headOf? hh u hu
    have hmem := hs u ((mem_of_headOf? hh).2.1 u hu)
    exact ⟨isLexeme_of_mem hmem (isTypePart_of_isTypeToken htype), htype, hspecifier⟩

/-- The first word of a spelling of words and stars is the first token, if that is a word. -/
theorem head?_words_spell {t : Token} {ts : List Token} (hlex : t.isLexeme = true)
    (hword : t.kind = .word) (hts : ∀ u ∈ ts, isTypeToken u = true) :
    (Text.words (spell (t :: ts))).head? = some t.text := by
  obtain ⟨hne, hsolid⟩ := solid_of_isLexeme hlex
  have hwords := Text.words_of_solid hne hsolid
  cases ts with
  | nil => rw [spell, hwords, List.head?_cons]
  | cons u ts =>
    have hu := hts u List.mem_cons_self
    have hspace : spaced t u = true := by
      rw [isTypeToken, Bool.or_eq_true, beq_iff_eq] at hu
      rcases hu with hu | hu <;> simp [spaced, isWordlike, hword, hu]
    rw [spell, hspace, if_pos rfl, List.append_assoc, List.singleton_append,
      Text.words_append_blank (by decide), hwords, List.singleton_append, List.head?_cons]

/-- **A statement put together from its parts declares them.**  The type is not empty and
does not begin with `typedef`; behind the closing bracket at most the end of the statement
follows. -/
theorem declared_of_head {type inside tail : List Token} {name opening closing : Token}
    (hne : type ≠ []) (htype : ∀ t ∈ type, isTypeToken t = true ∧ t.isSpecifier = false)
    (hfirst : ∀ t ∈ type.head?, t.text ≠ typedefWord) (hname : name.isName = true)
    (ho : opening.isMark '(' = true) (hc : closing.isMark ')' = true)
    (hinside : Balanced isContent inside)
    (htail : tail = [] ∨ ∃ t, tail = [t] ∧ endsStatement t = true) :
    declared (type ++ name :: opening :: (inside ++ closing :: tail))
      = [{ name := name.text, line := name.line, returnType := spell type,
           params := (paramGroups inside).map paramOf }] := by
  have hends : ∀ t ∈ type ++ name :: opening :: (inside ++ [closing]), endsStatement t = false := by
    intro t ht
    refine endsStatement_of_isTypePart ?_
    simp only [List.mem_append, List.mem_cons, List.not_mem_nil, or_false] at ht
    rcases ht with ht | rfl | rfl | ht | rfl
    · exact isTypePart_of_isTypeToken (htype t ht).1
    · exact isTypePart_of_isTypeToken (isTypeToken_of_isName hname)
    · exact isTypePart_of_isMark ho (by decide)
    · exact hinside.isTypePart (fun _ => isTypePart_of_isContent) t ht
    · exact isTypePart_of_isMark hc (by decide)
  have hstatements : statements (type ++ name :: opening :: (inside ++ closing :: tail))
      = [type ++ name :: opening :: (inside ++ [closing])] := by
    have hsplit := statements_of_single (by simp) hends htail
    simpa using hsplit
  have hhead : headOf? (type ++ name :: opening :: (inside ++ [closing]))
      = some ⟨type, name, inside⟩ := by
    have htypedef : isTypedef (type ++ name :: opening :: (inside ++ [closing])) = false := by
      obtain ⟨t, ts, rfl⟩ := List.exists_cons_of_ne_nil hne
      exact beq_eq_false_iff_ne.2 (hfirst t rfl)
    have hfilter : type.filter (!·.isSpecifier) = type :=
      List.filter_eq_self.2 fun t ht => by simp [(htype t ht).2]
    unfold headOf?
    rw [htypedef, if_neg (by decide), head?_of_parts hne (fun t ht => (htype t ht).1) hname ho,
      upToClosing_of_balanced hinside (fun _ h => h) hc, hfilter]
    rfl
  unfold declared
  rw [hstatements]
  simp [hhead, Head.declaration, returnSpelling, hne]

/-! ## §6. Statements as text. -/

theorem Balanced.of_map_bare {free : Token → Bool} (hfree : ∀ t : Token, free t.bare = free t)
    {ts xs : List Token} (h : Balanced free ts) (heq : xs.map bare = ts.map bare) :
    Balanced free xs := by
  induction h generalizing xs with
  | nil =>
    cases List.map_eq_nil_iff.1 heq
    exact .nil
  | free ht _ ih =>
    obtain ⟨x, xs, rfl, hx, hxs⟩ := List.map_eq_cons_iff.1 heq
    exact .free (by rw [← hfree, hx, hfree, ht]) (ih hfree hxs)
  | @group _ opening closing inner ts hpair _ _ ihinner ih =>
    rw [List.map_cons, List.map_append, List.map_cons] at heq
    obtain ⟨o, l, rfl, ho, hl⟩ := List.map_eq_cons_iff.1 heq
    obtain ⟨i, r, rfl, hi, hr⟩ := List.map_eq_append_iff.1 hl
    obtain ⟨c, xs, rfl, hc, hxs⟩ := List.map_eq_cons_iff.1 hr
    have hpair' : isPair o c = isPair opening closing := by
      show isPair o.bare c.bare = isPair opening.bare closing.bare
      rw [ho, hc]
    exact .group (hpair'.trans hpair) (ihinner (fun _ => rfl) hi) (ih hfree hxs)

theorem map_paramOf_paramGroups {ts xs : List Token} (h : xs.map bare = ts.map bare) :
    (paramGroups xs).map paramOf = (paramGroups ts).map paramOf := by
  have hbare : ∀ ys : List Token,
      (paramGroups (ys.map bare)).map paramOf = (paramGroups ys).map paramOf := by
    intro ys
    show (paramGroups (ys.map (Token.onLine fun _ => 0))).map paramOf = _
    rw [paramGroups_map, List.map_map]
    exact List.map_congr_left fun g _ => paramOf_map _ g
  rw [← hbare xs, h, hbare ts]

/-- The tokens of a type, a name one blank behind it, and what follows. -/
theorem exists_ofText {type ts : List Token} {name rest : Text} {sep : Char}
    (hlex : ∀ t ∈ type, t.isLexeme = true) (hname : Text.isIdentifier name = true)
    (hsep : Text.isBlank sep = true) (hwritten : Written ts rest) (hstops : Stops rest) :
    ∃ xs ys : List Token, xs.map bare = type.map bare ∧ ys.map bare = ts.map bare
      ∧ Token.ofText (spell type ++ sep :: (name ++ rest))
        = xs ++ ⟨.word, name, 1 + Text.newlines [sep]⟩ :: ys := by
  obtain ⟨xs, hxs, htokens⟩ := (written_spell hlex).tokensFrom_append
    (stops_of_isBlank hsep (name ++ rest)) 1
  refine ⟨xs, _, hxs, hwritten.map_bare_tokensFrom (1 + Text.newlines [sep]), ?_⟩
  have hfeeds : Text.newlines name = 0 :=
    List.count_eq_zero.2 (Text.not_mem_of_isIdentifier hname (by decide))
  have hpiece : Piece.pieces (name ++ rest) = .token .word name :: Piece.pieces rest :=
    pieces_lexeme (t := ⟨.word, name, 0⟩) hname (.inr hstops)
  rw [Token.ofText, htokens, newlines_spell hlex, Piece.pieces_blank hsep, hpiece]
  show xs ++ _ :: Piece.tokensFrom (1 + Text.newlines [sep] + Text.newlines name) _ = _
  rw [hfeeds]
  rfl

/-- The same parts on other lines declare the same, on the line of the name. -/
theorem declared_of_map_bare {type inside tail xs ys : List Token} {name : Token} (hne : type ≠ [])
    (htype : ∀ t ∈ type, isTypeToken t = true ∧ t.isSpecifier = false)
    (hfirst : ∀ t ∈ type.head?, t.text ≠ typedefWord) (hname : name.isName = true)
    (hinside : Balanced isContent inside) (htail : tail = [] ∨ tail = [mark ';'])
    (hxs : xs.map bare = type.map bare)
    (hys : ys.map bare = (mark '(' :: (inside ++ mark ')' :: tail)).map bare) :
    declared (xs ++ name :: ys)
      = [{ name := name.text, line := name.line, returnType := spell type,
           params := (paramGroups inside).map paramOf }] := by
  rw [List.map_cons, List.map_append, List.map_cons] at hys
  obtain ⟨o, l, rfl, ho, hl⟩ := List.map_eq_cons_iff.1 hys
  obtain ⟨inner, r, rfl, hinner, hr⟩ := List.map_eq_append_iff.1 hl
  obtain ⟨c, more, rfl, hc, hmore⟩ := List.map_eq_cons_iff.1 hr
  -- what is asked of a token does not depend on its line
  have hxne : xs ≠ [] := by
    rintro rfl
    exact hne (List.map_eq_nil_iff.1 hxs.symm)
  have hxtype : ∀ t ∈ xs, isTypeToken t = true ∧ t.isSpecifier = false := by
    intro t ht
    have hbare := List.mem_map_of_mem (f := bare) ht
    rw [hxs, List.mem_map] at hbare
    obtain ⟨u, hu, hbare⟩ := hbare
    show isTypeToken t.bare = true ∧ t.bare.isSpecifier = false
    rw [← hbare]
    exact htype u hu
  have hxfirst : ∀ t ∈ xs.head?, t.text ≠ typedefWord := by
    intro t ht
    have hheads := congrArg List.head? hxs
    rw [List.head?_map, List.head?_map, Option.mem_def.1 ht] at hheads
    obtain ⟨u, hu, hbare⟩ := Option.map_eq_some_iff.1 hheads.symm
    show t.bare.text ≠ typedefWord
    rw [← hbare]
    exact hfirst u hu
  have hopen : o.isMark '(' = true := by
    show o.bare.isMark '(' = true
    rw [ho]
    rfl
  have hclose : c.isMark ')' = true := by
    show c.bare.isMark ')' = true
    rw [hc]
    rfl
  have hxtail : more = [] ∨ ∃ t, more = [t] ∧ endsStatement t = true := by
    rcases htail with rfl | rfl
    · exact .inl (List.map_eq_nil_iff.1 hmore)
    · obtain ⟨t, rest, rfl, ht, hnil⟩ := List.map_eq_cons_iff.1 hmore
      cases List.map_eq_nil_iff.1 hnil
      refine .inr ⟨t, rfl, ?_⟩
      show endsStatement t.bare = true
      rw [ht]
      rfl
  have hbalanced : Balanced isContent inner := hinside.of_map_bare (fun _ => rfl) hinner
  rw [declared_of_head hxne hxtype hxfirst hname hopen hclose hbalanced hxtail,
    spell_of_map_bare hxs, map_paramOf_paramGroups hinner]

/-- **A text that writes a statement down declares what the statement declares.**  The name
stands one blank behind the spelling of the type. -/
theorem declarations_of_written {type inside tail : List Token} {name rest : Text} {sep : Char}
    (hne : type ≠ [])
    (htype : ∀ t ∈ type, t.isLexeme = true ∧ isTypeToken t = true ∧ t.isSpecifier = false)
    (hfirst : ∀ t ∈ type.head?, t.text ≠ typedefWord)
    (hname : Text.isIdentifier name = true ∧ isKeyword name = false)
    (hsep : Text.isBlank sep = true) (hinside : Balanced isContent inside)
    (htail : tail = [] ∨ tail = [mark ';'])
    (hwritten : Written (mark '(' :: (inside ++ mark ')' :: tail)) rest) :
    (scan (spell type ++ sep :: (name ++ rest))).declarations
      = [{ name, line := 1 + Text.newlines [sep], returnType := spell type,
           params := (paramGroups inside).map paramOf }] := by
  obtain ⟨xs, ys, hxs, hys, hall⟩ := exists_ofText (fun t ht => (htype t ht).1) hname.1 hsep
    hwritten (hwritten.stops_of_mark rfl)
  have hisName : Token.isName ⟨.word, name, 1 + Text.newlines [sep]⟩ = true := by
    simp [isName, hname.2]
  rw [declarations_scan, hall]
  exact declared_of_map_bare hne (fun t ht => (htype t ht).2) hfirst hisName hinside htail hxs hys

end DocAudit.Declaration
