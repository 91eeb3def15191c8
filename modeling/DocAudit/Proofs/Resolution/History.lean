/-
  DocAudit.Proofs.Resolution.History
  ──────────────────────────────────
  **EVERY CALL IS ABOUT ALL THAT WAS LEARNED BEFORE IT.**

  The provider may answer as it likes.  A run of the resolution loop is told by its
  history: the outlines of its calls, as long as each brought a name that was not known.

      call k       asks about the bare skeleton, behind the definitions of the names
                   that the first k outlines quote
      settled      the first outline that brings no new name ends the run
      failed       so does the first failure, which is handed on as it is
      unfinished   nothing but the limit on the number of calls ended the run

  A history in which N names are quoted has N outlines at most, so that the run takes
  N + 1 calls at most (`run_told_by_history`).
-/
import Mathlib.Data.List.Perm.Subperm
import DocAudit.Proofs.Resolution.Insertion

namespace DocAudit

/-! ## §1. What a list of outlines teaches. -/

/-- The plain identifiers that the errors of an outline quote, as often as they do. -/
def Outline.quotedNames (o : Outline) : List Text :=
  ((o.notes.filter Note.isError).flatMap Note.quoted).filter Text.isIdentifier

namespace Resolution

/-- The names that outlines quote, each once, in order of first appearance. -/
def learnedNames (os : List Outline) : List Text := (os.flatMap Outline.quotedNames).eraseDups

/-- The text that is asked about once these outlines are known: the bare skeleton, behind
a definition of each name that they quote. -/
def question (source : Text) (os : List Outline) : Text :=
  (learnedNames os).flatMap Skeleton.aliasText ++ (Skeleton.ofSource source).text

/-- The texts that these outlines, one after another, are the answers to. -/
def asked (source : Text) (os : List Outline) : List Text :=
  (List.range os.length).map fun k => question source (os.take k)

/-- The skeleton of a source with the names aliased that outlines quote.  Its text is what
is asked about. -/
def skeletonAfter (source : Text) (os : List Outline) : Skeleton :=
  ⟨(Skeleton.ofSource source).lines, learnedNames os⟩

theorem mem_learnedNames {name : Text} {os : List Outline} :
    name ∈ learnedNames os ↔ ∃ o ∈ os, name ∈ o.quotedNames := by
  unfold learnedNames
  rw [List.mem_eraseDups, List.mem_flatMap]

theorem isIdentifier_of_mem_learnedNames {name : Text} {os : List Outline}
    (h : name ∈ learnedNames os) : Text.isIdentifier name = true := by
  obtain ⟨o, _, hname⟩ := mem_learnedNames.1 h
  exact (List.mem_filter.1 hname).2

theorem nodup_learnedNames (os : List Outline) : (learnedNames os).Nodup := by
  unfold learnedNames
  rw [← Text.distinct_eq_eraseDups]
  exact Text.nodup_distinct _

/-- One more outline brings the names that it quotes first. -/
theorem learnedNames_concat (os : List Outline) (o : Outline) :
    learnedNames (os ++ [o])
      = learnedNames os ++ (o.quotedNames.removeAll (os.flatMap Outline.quotedNames)).eraseDups := by
  unfold learnedNames
  rw [List.flatMap_append, List.flatMap_singleton, List.eraseDups_append]

/-- **One more outline adds to the names exactly if it quotes a new one.** -/
theorem length_learnedNames_concat (os : List Outline) (o : Outline) :
    (learnedNames (os ++ [o])).length = (learnedNames os).length
      ↔ ∀ name ∈ o.quotedNames, name ∈ learnedNames os := by
  have hknown : ∀ name, name ∈ learnedNames os ↔ name ∈ os.flatMap Outline.quotedNames :=
    fun name => List.mem_eraseDups
  rw [learnedNames_concat, List.length_append, Nat.add_eq_left, List.length_eq_zero_iff,
    List.eq_nil_iff_forall_not_mem]
  simp only [List.mem_eraseDups, hknown]
  simp [List.removeAll]

/-- **Aliasing what an outline asks for** is learning from that outline too. -/
theorem addAliases_skeletonAfter (source : Text) (os : List Outline) (o : Outline) :
    (skeletonAfter source os).addAliases o.unknownTypes = skeletonAfter source (os ++ [o]) := by
  have hnames : Text.addNew (learnedNames os) (o.unknownTypes.filter Text.isIdentifier)
      = learnedNames (os ++ [o]) := by
    unfold learnedNames Outline.unknownTypes
    rw [Text.addNew_filter_distinct, List.flatMap_append, List.flatMap_singleton]
    rfl
  unfold Skeleton.addAliases skeletonAfter
  rw [hnames]

theorem asked_concat (source : Text) (os : List Outline) (o : Outline) :
    asked source (os ++ [o]) = asked source os ++ [question source os] := by
  unfold asked
  rw [List.length_append, List.length_singleton, List.range_succ, List.map_append,
    List.map_singleton, List.take_left]
  -- earlier texts do not see the new outline
  refine congrArg (· ++ _) (List.map_congr_left fun k hk => ?_)
  rw [List.take_append_of_le_length (Nat.le_of_lt (List.mem_range.1 hk))]

theorem length_asked (source : Text) (os : List Outline) :
    (asked source os).length = os.length := by
  unfold asked
  rw [List.length_map, List.length_range]

/-- **The text of call `k`** is about the first `k` outlines. -/
theorem getElem?_asked {source : Text} {os : List Outline} {k : Nat} (h : k < os.length) :
    (asked source os)[k]? = some (question source (os.take k)) := by
  unfold asked
  rw [List.getElem?_map, List.getElem?_range h]
  rfl

/-- **The texts add no line**: there is one line feed for each line of the source. -/
theorem newlines_question (source : Text) (os : List Outline) :
    Text.newlines (question source os) = (Text.lines source).length := by
  have haliases : Text.newlines ((learnedNames os).flatMap Skeleton.aliasText) = 0 := by
    refine Text.newlines_of_not_mem fun hmem => ?_
    obtain ⟨name, hname, hfeed⟩ := List.mem_flatMap.1 hmem
    have hidentifier := isIdentifier_of_mem_learnedNames hname
    -- neither the name nor the text around it holds a line feed
    unfold Skeleton.aliasText at hfeed
    rw [List.mem_append, List.mem_append] at hfeed
    rcases hfeed with (hfeed | hfeed) | hfeed
    · exact absurd hfeed (by decide)
    · exact Text.not_mem_of_isIdentifier hidentifier (by decide) hfeed
    · exact absurd hfeed (by decide)
  have hlines : Text.newlines (Skeleton.ofSource source).text = (Text.lines source).length :=
    Skeleton.newlines_stubText fun _ hl => Text.not_mem_of_mem_lines hl
  unfold question
  rw [Text.newlines_append, haliases, hlines, Nat.zero_add]

/-! ## §2. Histories. -/

variable {ε : Type} {p : Provider ε} {source : Text} {os : List Outline}

/-- The outlines that a provider gives to the first calls of a run, none of which ends
the run. -/
inductive History (p : Provider ε) (source : Text) : List Outline → Prop
  /-- Before the first call there is none. -/
  | nil : History p source []
  /-- The answer to what is asked next joins them, if it quotes a name that they do not. -/
  | concat {os : List Outline} {o : Outline} (before : History p source os)
      (answer : p os.length (question source os) = .ok o)
      (fresh : ∃ name ∈ o.quotedNames, name ∉ learnedNames os) : History p source (os ++ [o])

/-- **Each outline of a history** is the answer to the text about those before it. -/
theorem History.answered (h : History p source os) {k : Nat} {o : Outline}
    (hk : os[k]? = some o) : p k (question source (os.take k)) = .ok o := by
  induction h with
  | nil => cases hk
  | @concat os last before answer fresh ih =>
    obtain ⟨hlt, _⟩ := List.getElem?_eq_some_iff.1 hk
    rw [List.length_append, List.length_singleton] at hlt
    rcases Nat.lt_succ_iff_lt_or_eq.1 hlt with hbefore | rfl
    · rw [List.getElem?_append_left hbefore] at hk
      rw [List.take_append_of_le_length (Nat.le_of_lt hbefore)]
      exact ih hk
    · rw [List.getElem?_concat_length] at hk
      rw [List.take_left, ← Option.some.inj hk]
      exact answer

/-- **Each outline of a history adds a name.** -/
theorem History.length_le (h : History p source os) : os.length ≤ (learnedNames os).length := by
  induction h with
  | nil => exact Nat.zero_le _
  | @concat os o before answer fresh ih =>
    obtain ⟨name, hname, hnew⟩ := fresh
    -- the last outline does not leave the number of names as it was
    have hne : (learnedNames (os ++ [o])).length ≠ (learnedNames os).length :=
      fun heq => hnew ((length_learnedNames_concat os o).1 heq name hname)
    have hle : (learnedNames os).length ≤ (learnedNames (os ++ [o])).length := by
      rw [learnedNames_concat, List.length_append]
      exact Nat.le_add_right _ _
    rw [List.length_append, List.length_singleton]
    omega

/-! ## §3. Runs. -/

/-- How a run with a limit on its calls ends behind its history. -/
inductive Told (p : Provider ε) (source : Text) (os : List Outline) : Nat → Run ε → Prop
  /-- One more outline quotes no name that is not aliased: the run returns it, with the
  skeleton it belongs to and the number of calls. -/
  | settled {limit : Nat} {o : Outline} (room : os.length < limit)
      (answer : p os.length (question source os) = .ok o)
      (known : ∀ name ∈ o.quotedNames, name ∈ learnedNames os) :
      Told p source os limit
        ⟨asked source os ++ [question source os],
          .settled ⟨skeletonAfter source os, o, os.length + 1⟩⟩
  /-- One more call fails: the run returns the error. -/
  | failed {limit : Nat} {e : ε} (room : os.length < limit)
      (answer : p os.length (question source os) = .error e) :
      Told p source os limit ⟨asked source os ++ [question source os], .failed e⟩
  /-- The limit allows for no more call. -/
  | unfinished : Told p source os os.length ⟨asked source os, .unfinished⟩

/-- A failure ends a run. -/
theorem runFrom_of_failed {done : Nat} {s : Skeleton} {e : ε} (limit : Nat)
    (hp : p done s.text = .error e) : runFrom p (limit + 1) done s = ⟨[s.text], .failed e⟩ := by
  rw [runFrom, hp]

/-- The loop goes on exactly if an outline quotes a new name. -/
theorem length_addAliases (source : Text) (os : List Outline) (o : Outline) :
    ((skeletonAfter source os).addAliases o.unknownTypes).aliases.length
        = (skeletonAfter source os).aliases.length
      ↔ ∀ name ∈ o.quotedNames, name ∈ learnedNames os := by
  rw [addAliases_skeletonAfter]
  exact length_learnedNames_concat os o

/-- **A run goes through every history of its provider**, as far as its limit allows, and
goes on behind it. -/
theorem run_of_history (h : History p source os) (limit : Nat) :
    run p (os.length + limit) source
      = ⟨asked source os ++ (runFrom p limit os.length (skeletonAfter source os)).calls,
          (runFrom p limit os.length (skeletonAfter source os)).ending⟩ := by
  induction h generalizing limit with
  | nil =>
    rw [List.length_nil, Nat.zero_add]
    rfl
  | @concat os o before answer fresh ih =>
    have hnew : ¬∀ name ∈ o.quotedNames, name ∈ learnedNames os := by
      simpa using fresh
    -- the call that the last outline answers is the first one behind the others
    have hstep := runFrom_of_learned limit answer fun heq => hnew ((length_addAliases _ _ _).1 heq)
    rw [List.length_append, List.length_singleton, Nat.add_assoc, Nat.add_comm 1 limit, ih, hstep,
      addAliases_skeletonAfter, asked_concat, List.append_assoc]
    rfl

/-- **A history tells the run.** -/
theorem Told.run_eq {limit : Nat} {r : Run ε} (htold : Told p source os limit r)
    (h : History p source os) : run p limit source = r := by
  cases htold with
  | settled room answer known =>
    obtain ⟨rest, rfl⟩ := Nat.exists_eq_add_of_lt room
    rw [Nat.add_assoc, run_of_history h,
      runFrom_of_settled rest answer ((length_addAliases _ _ _).2 known)]
    rfl
  | failed room answer =>
    obtain ⟨rest, rfl⟩ := Nat.exists_eq_add_of_lt room
    rw [Nat.add_assoc, run_of_history h, runFrom_of_failed rest answer]
    rfl
  | unfinished =>
    have hstop := run_of_history h 0
    rw [Nat.add_zero] at hstop
    rw [hstop]
    show Run.mk (asked source os ++ []) Ending.unfinished = _
    rw [List.append_nil]

/-- **A run that has come through a history is told by a longer one.** -/
theorem exists_told (limit : Nat) (h : History p source os) :
    ∃ longer r, History p source longer ∧ Told p source longer (os.length + limit) r := by
  induction limit generalizing os with
  | zero => exact ⟨os, _, h, .unfinished⟩
  | succ limit ih =>
    have hroom : os.length < os.length + (limit + 1) := by omega
    cases hanswer : p os.length (question source os) with
    | error e => exact ⟨os, _, h, .failed hroom hanswer⟩
    | ok o =>
      by_cases hknown : ∀ name ∈ o.quotedNames, name ∈ learnedNames os
      · exact ⟨os, _, h, .settled hroom hanswer hknown⟩
      · -- the outline joins the history
        have hfresh : ∃ name ∈ o.quotedNames, name ∉ learnedNames os := by
          simpa using hknown
        have hlength : (os ++ [o]).length + limit = os.length + (limit + 1) := by
          rw [List.length_append, List.length_singleton]
          omega
        rw [← hlength]
        exact ih (h.concat hanswer hfresh)

/-- The first calls of a run are those of its history. -/
theorem Told.asked_prefix {limit : Nat} {r : Run ε} (h : Told p source os limit r) :
    asked source os <+: r.calls := by
  cases h with
  | settled => exact List.prefix_append _ _
  | failed => exact List.prefix_append _ _
  | unfinished => exact List.prefix_refl _

/-- Every call is about some of the outlines of the history. -/
theorem Told.exists_of_mem {limit : Nat} {r : Run ε} (h : Told p source os limit r) {t : Text}
    (ht : t ∈ r.calls) : ∃ before, t = question source before := by
  have hall : t ∈ asked source os ++ [question source os] := by
    cases h with
    | settled => exact ht
    | failed => exact ht
    | unfinished => exact List.mem_append_left _ ht
  rcases List.mem_append.1 hall with hasked | hlast
  · obtain ⟨k, _, rfl⟩ := List.mem_map.1 hasked
    exact ⟨_, rfl⟩
  · exact ⟨os, List.mem_singleton.1 hlast⟩

/-- One call at most is no part of the history, and none if the limit was reached. -/
theorem Told.length_calls {limit : Nat} {r : Run ε} (h : Told p source os limit r) :
    r.calls.length ≤ os.length + 1 ∧ (r.ending = .unfinished → os.length = limit) := by
  cases h with
  | settled => simp [length_asked]
  | failed => simp [length_asked]
  | unfinished => simp [length_asked]

/-- The names that a history teaches are quoted in answers of the run. -/
theorem Told.learnedNames_subset {limit : Nat} {r : Run ε} (htold : Told p source os limit r)
    (h : History p source os) {names : List Text}
    (hnames : ∀ k t o, r.calls[k]? = some t → p k t = .ok o → ∀ name ∈ o.quotedNames, name ∈ names) :
    learnedNames os ⊆ names := by
  intro name hname
  obtain ⟨o, ho, hquoted⟩ := mem_learnedNames.1 hname
  obtain ⟨k, hk⟩ := List.mem_iff_getElem?.1 ho
  obtain ⟨hlt, _⟩ := List.getElem?_eq_some_iff.1 hk
  have hcall : r.calls[k]? = some (question source (os.take k)) := by
    obtain ⟨rest, hrest⟩ := htold.asked_prefix
    rw [← hrest, List.getElem?_append_left (by rwa [length_asked]), getElem?_asked hlt]
  exact hnames k _ o hcall (h.answered hk) name hquoted

/-- **EVERY CALL IS ABOUT ALL THAT WAS LEARNED BEFORE IT.**  A run is what one history of
its provider tells, and there always is one.  Each text that is asked about has one line
feed for each line of the source.  If the answers in the run quote no names but those of a
list, it takes at most one call more than there are names, and a limit that allows for so
many does not end it. -/
theorem run_told_by_history {ε : Type} (p : Provider ε) (limit : Nat) (source : Text) :
    (∀ r, run p limit source = r ↔ ∃ os, History p source os ∧ Told p source os limit r)
      ∧ (∀ t ∈ (run p limit source).calls, Text.newlines t = (Text.lines source).length)
      ∧ ∀ names : List Text,
          (∀ k t o, (run p limit source).calls[k]? = some t → p k t = .ok o →
            ∀ name ∈ o.quotedNames, name ∈ names) →
          (run p limit source).calls.length ≤ names.length + 1
            ∧ (names.length < limit → (run p limit source).ending ≠ .unfinished) := by
  obtain ⟨os, r, hhistory, htold⟩ := exists_told limit (@History.nil ε p source)
  rw [List.length_nil, Nat.zero_add] at htold
  have hrun : run p limit source = r := htold.run_eq hhistory
  refine ⟨fun q => ⟨?_, ?_⟩, fun t ht => ?_, fun names hnames => ?_⟩
  · rintro rfl
    exact ⟨os, hhistory, hrun ▸ htold⟩
  · rintro ⟨other, hother, htold'⟩
    exact htold'.run_eq hother
  · obtain ⟨before, rfl⟩ := htold.exists_of_mem (hrun ▸ ht)
    exact newlines_question source before
  · rw [hrun] at hnames ⊢
    have hsubset := htold.learnedNames_subset hhistory hnames
    have hcount : os.length ≤ names.length :=
      hhistory.length_le.trans (List.subperm_of_subset (nodup_learnedNames os) hsubset).length_le
    obtain ⟨hcalls, hreached⟩ := htold.length_calls
    constructor
    · omega
    · intro hlimit hunfinished
      have hlength := hreached hunfinished
      omega

/-- A provider that asks for a second name once the first one is aliased, and for the
first one again. -/
theorem run_told_by_history_twice :
    let first : Outline := ⟨[], [⟨.warning, 1, "'pan'".toList⟩, ⟨.error, 1, "no 'egg_t' yet".toList⟩]⟩
    let second : Outline := ⟨[], [⟨.fatal, 2, "'egg_t', 'pan_t' or '3'".toList⟩]⟩
    let third : Outline := ⟨[], [⟨.error, 2, "'pan_t'".toList⟩]⟩
    let p : Provider Unit := Provider.script (.ok first) [.ok second, .ok third]
    let source := "egg_t fry(void);\nint boil;\n".toList
    (run p 5 source).calls.map (Text.newlines ·) = [2, 2, 2]
      ∧ (run p 5 source).calls[2]?
          = some "typedef int egg_t;typedef int pan_t;egg_t fry(void);\nint boil;\n".toList
      ∧ (run p 5 source).calls.length ≤ ["egg_t".toList, "pan_t".toList].length + 1
      ∧ (run p 5 source).ending ≠ .unfinished := by
  intro first second third p source
  have hbound := (run_told_by_history p 5 source).2.2 ["egg_t".toList, "pan_t".toList] ?_
  · exact ⟨by decide +kernel, by decide +kernel, hbound.1, hbound.2 (by decide)⟩
  · rintro k t o - hp
    match k with
    | 0 => cases hp; decide +kernel
    | 1 => cases hp; decide +kernel
    | k + 2 => cases hp; decide +kernel

end Resolution
end DocAudit
