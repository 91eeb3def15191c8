/-
  DocAudit.Proofs.Output.Colour
  ─────────────────────────────
  **COLOUR ADDS CONTROL SEQUENCES AND NOTHING ELSE.**

  `Style.strip` deletes the control sequences of every style from a text.  A coloured
  text `Shows` a plain one when this leaves the plain one over, whatever follows:

      Shows a b   ↔   strip (a ++ rest) = b ++ strip rest   for every rest

  A text without an escape character shows itself, a control sequence shows nothing,
  and the relation goes through concatenation.  Where a line is worded twice, the
  coloured wording is followed piece by piece to what it shows, and that is the plain
  wording, whichever way the two are put together.
-/
import DocAudit.Output.Notice
import DocAudit.Output.Summary

namespace DocAudit

open Text

namespace Style

/-! ## §1. Deleting control sequences. -/

/-- The control sequences that coloured text is made with. -/
def sequences : List Text := [red, green, yellow, cyan, bold, dim].map start ++ [reset]

/-- The control sequence with which a text begins, if it begins with one. -/
def leading? (t : Text) : Option Text := sequences.find? (·.isPrefixOf t)

/-- A text without its control sequences. -/
def strip : Text → Text
  | [] => []
  | c :: rest =>
    match leading? (c :: rest) with
    | some s => strip (rest.drop (s.length - 1))
    | none => c :: strip rest
termination_by t => t.length
decreasing_by
  · simp only [List.length_drop, List.length_cons]
    omega
  · simp

@[simp] theorem strip_nil : strip [] = [] := by rw [strip]

/-- Every control sequence begins with the escape character. -/
theorem leading?_of_ne {c : Char} (h : c ≠ '\x1b') (rest : Text) : leading? (c :: rest) = none := by
  simp [leading?, sequences, start, reset, control, h.symm]

theorem strip_cons_of_ne {c : Char} (h : c ≠ '\x1b') (rest : Text) :
    strip (c :: rest) = c :: strip rest := by
  rw [strip, leading?_of_ne h]

/-- No control sequence begins with another one. -/
theorem leading?_append {s : Text} (h : s ∈ sequences) (rest : Text) :
    leading? (s ++ rest) = some s := by
  simp only [sequences, List.map_cons, List.map_nil, List.cons_append, List.nil_append,
    List.mem_cons, List.not_mem_nil, or_false] at h
  rcases h with rfl | rfl | rfl | rfl | rfl | rfl | rfl <;> rfl

theorem strip_append_of_mem {s : Text} (h : s ∈ sequences) (rest : Text) :
    strip (s ++ rest) = strip rest := by
  have hlead := leading?_append h rest
  cases s with
  | nil => exact absurd h (by decide)
  | cons c s =>
    rw [List.cons_append] at hlead ⊢
    rw [strip, hlead]
    simp

end Style

/-! ## §2. What a coloured text shows. -/

/-- Whether a text holds no escape character. -/
def Text.Escapeless (t : Text) : Prop := '\x1b' ∉ t

instance (t : Text) : Decidable t.Escapeless := inferInstanceAs (Decidable ('\x1b' ∉ t))

theorem Text.Escapeless.append {a b : Text} (ha : a.Escapeless) (hb : b.Escapeless) :
    Text.Escapeless (a ++ b) := fun h => (List.mem_append.1 h).elim ha hb

theorem Text.escapeless_ofNat (n : Nat) : (ofNat n).Escapeless := by
  intro h
  have hdigit := Nat.isDigit_of_mem_toDigits (by decide) (by decide) h
  exact absurd hdigit (by decide)

/-- A coloured text shows a plain one: without its control sequences it reads like the
plain one, and what follows is read as it stands. -/
def Shows (coloured plain : Text) : Prop :=
  ∀ rest, Style.strip (coloured ++ rest) = plain ++ Style.strip rest

namespace Shows

theorem strip_eq {a b : Text} (h : Shows a b) : Style.strip a = b := by
  simpa using h []

theorem of_escapeless {t : Text} (h : t.Escapeless) : Shows t t := by
  intro rest
  induction t with
  | nil => rfl
  | cons c t ih =>
    have hc : c ≠ '\x1b' := fun heq => h (heq ▸ List.mem_cons_self)
    have ht : Text.Escapeless t := fun hmem => h (List.mem_cons_of_mem c hmem)
    rw [List.cons_append, Style.strip_cons_of_ne hc, ih ht, List.cons_append]

theorem append {a b a' b' : Text} (h : Shows a b) (h' : Shows a' b') :
    Shows (a ++ a') (b ++ b') := by
  intro rest
  rw [List.append_assoc, h, h', List.append_assoc]

/-- More plain text behind. -/
theorem plain {a b t : Text} (h : Shows a b) (ht : t.Escapeless) : Shows (a ++ t) (b ++ t) :=
  h.append (of_escapeless ht)

theorem of_mem {s : Text} (h : s ∈ Style.sequences) : Shows s [] := Style.strip_append_of_mem h

/-- A control sequence behind. -/
theorem sequence {a b s : Text} (h : Shows a b) (hs : s ∈ Style.sequences) : Shows (a ++ s) b := by
  have happend := h.append (of_mem hs)
  rwa [List.append_nil] at happend

/-- A sign that is painted, and a text behind it that is not. -/
theorem sign {a b t u : Text} (h : Shows a b) (ht : t.Escapeless) (hu : u.Escapeless) :
    Shows (a ++ t ++ Style.reset ++ [' '] ++ u) (b ++ t ++ [' '] ++ u) :=
  (((h.plain ht).sequence (by decide)).plain (by decide)).plain hu

theorem nil : Shows [] [] := of_escapeless (by decide)

theorem flatMap {α : Type} {xs : List α} {f g : α → Text} (h : ∀ x ∈ xs, Shows (f x) (g x)) :
    Shows (xs.flatMap f) (xs.flatMap g) := by
  induction xs with
  | nil => exact nil
  | cons x xs ih =>
    rw [List.flatMap_cons, List.flatMap_cons]
    exact (h x List.mem_cons_self).append (ih fun y hy => h y (List.mem_cons_of_mem x hy))

theorem line {a b : Text} (h : Shows a b) : Shows (Text.line a) (Text.line b) :=
  h.append (of_escapeless (by decide))

/-- **A painted text shows what was painted**, in any styles. -/
theorem paint {t : Text} (h : t.Escapeless) (colour : Bool) (styles : List Style) :
    Shows (Style.paint colour styles t) (Style.paint false styles t) := by
  cases colour with
  | false => exact of_escapeless h
  | true =>
    have hstart : ∀ s : Style, s.start ∈ Style.sequences := by
      intro s
      cases s <;> decide
    have hstyles : Shows (styles.flatMap Style.start) [] := by
      have hall : Shows (styles.flatMap Style.start) (styles.flatMap fun _ => []) :=
        flatMap fun s _ => of_mem (hstart s)
      rwa [List.flatMap_eq_nil_iff.2 fun _ _ => rfl] at hall
    exact (hstyles.plain h).sequence (by decide)

end Shows

/-! ## §3. The report. -/

/-- The texts of a report that are printed for people hold no escape character. -/
def FileReport.Escapeless (r : FileReport) : Prop :=
  r.path.Escapeless
    ∧ ∀ f ∈ r.findings, f.signature.file.Escapeless ∧ f.signature.name.Escapeless
        ∧ ∀ p ∈ f.fault.parameter?, Text.Escapeless p

instance (r : FileReport) : Decidable r.Escapeless := inferInstanceAs (Decidable (_ ∧ _))

namespace Fault

/-- The wording of a fault is plain but for the parameter it names. -/
theorem escapeless_message {f : Fault} (h : ∀ p ∈ f.parameter?, Text.Escapeless p) :
    f.message.Escapeless := by
  cases f with
  | undocumented => show Text.Escapeless _; decide
  | missingParam name => exact Text.Escapeless.append (by decide) (h name rfl)
  | extraParam name => exact Text.Escapeless.append (by decide) (h name rfl)
  | differentParam name => exact Text.Escapeless.append (by decide) (h name rfl)
  | missingReturn => show Text.Escapeless _; decide

end Fault

namespace Summary

variable {colour : Bool} {verbose : Nat} {quiet : Bool}

/-- **Both wordings of a finding agree**: the parts that are painted, put together, show
the message. -/
theorem shows_findingLine {f : Finding} (hfile : f.signature.file.Escapeless)
    (hname : f.signature.name.Escapeless) (hparam : ∀ p ∈ f.fault.parameter?, Text.Escapeless p) :
    Shows (findingLine ⟨colour, verbose, quiet⟩ f) f.message := by
  have hlocation : Text.Escapeless (f.signature.file ++ [':'] ++ ofNat f.signature.line) :=
    (hfile.append (by decide)).append (escapeless_ofNat _)
  have hfault : f.fault.message.Escapeless := Fault.escapeless_message hparam
  unfold findingLine
  cases colour with
  | true =>
    have hhead : Shows
        (Style.paint true [.cyan] (f.signature.file ++ [':'] ++ ofNat f.signature.line)
          ++ " in function ".toList ++ f.signature.name ++ " - ".toList)
        (f.signature.file ++ [':'] ++ ofNat f.signature.line
          ++ " in function ".toList ++ f.signature.name ++ " - ".toList) :=
      (Shows.paint hlocation true _).plain (by decide) |>.plain hname |>.plain (by decide)
    exact hhead.append (.paint hfault true _)
  | false =>
    have hmessage : f.message.Escapeless :=
      (((hlocation.append (by decide)).append hname).append (by decide)).append hfault
    exact .of_escapeless hmessage

theorem shows_cleanLine {r : FileReport} (hpath : r.path.Escapeless) :
    Shows (cleanLine ⟨colour, verbose, quiet⟩ r) (cleanLine ⟨false, verbose, quiet⟩ r) :=
  (Shows.paint (by decide) colour _).plain (by decide) |>.plain hpath |>.plain (by decide)
    |>.plain (escapeless_ofNat _) |>.plain (by decide) |>.plain (escapeless_ofNat _)
    |>.plain (by decide)

theorem shows_summaryLine (rs : List FileReport) :
    Shows (summaryLine ⟨colour, verbose, quiet⟩ rs) (summaryLine ⟨false, verbose, quiet⟩ rs) := by
  have hcount : ∀ n styles, Shows (Style.paint colour styles (ofNat n))
      (Style.paint false styles (ofNat n)) := fun n styles =>
    .paint (escapeless_ofNat n) colour styles
  have hclean := ((Shows.of_escapeless (t := "Summary: ".toList) (by decide)).plain
    (escapeless_ofNat rs.length)).plain (t := " files checked, ".toList) (by decide)
    |>.plain (escapeless_ofNat (FileReport.total (·.declarations) rs))
    |>.plain (t := " declarations, ".toList) (by decide)
    |>.append (hcount (rs.filter FileReport.isClean).length [.green])
  exact (hclean.plain (t := " clean, ".toList) (by decide) |>.append (hcount _ _)).plain (by decide)

/-- The lines above the summary, one after another. -/
theorem shows_bodyLines {rs : List FileReport} (h : ∀ r ∈ rs, r.Escapeless) :
    Shows ((bodyLines ⟨colour, verbose, quiet⟩ rs).flatMap line)
      ((bodyLines ⟨false, verbose, quiet⟩ rs).flatMap line) := by
  have hfindings : ∀ f ∈ rs.flatMap (·.findings),
      Shows (line (findingLine ⟨colour, verbose, quiet⟩ f))
        (line (findingLine ⟨false, verbose, quiet⟩ f)) := by
    intro f hf
    obtain ⟨r, hr, hmem⟩ := List.mem_flatMap.1 hf
    obtain ⟨hfile, hname, hparam⟩ := (h r hr).2 f hmem
    exact (shows_findingLine hfile hname hparam).line
  have hclean : ∀ r ∈ rs.filter FileReport.isClean,
      Shows (line (cleanLine ⟨colour, verbose, quiet⟩ r))
        (line (cleanLine ⟨false, verbose, quiet⟩ r)) := fun r hr =>
    (shows_cleanLine (h r (List.mem_filter.1 hr).1).1).line
  unfold bodyLines
  rw [List.flatMap_append, List.flatMap_append, List.flatMap_map, List.flatMap_map]
  refine (Shows.flatMap hfindings).append ?_
  by_cases hverbose : 1 ≤ verbose
  · rw [if_pos hverbose, if_pos hverbose, List.flatMap_map, List.flatMap_map]
    exact .flatMap hclean
  · rw [if_neg hverbose, if_neg hverbose]
    exact .of_escapeless (by decide)

/-- Whether anything stands above the summary does not depend on colour. -/
theorem bodyLines_eq_nil_iff (rs : List FileReport) :
    (bodyLines ⟨colour, verbose, quiet⟩ rs).flatMap line = []
      ↔ (bodyLines ⟨false, verbose, quiet⟩ rs).flatMap line = [] := by
  have hline : ∀ t : Text, line t ≠ [] := fun t => by simp [line]
  have hempty : ∀ ls : List Text, ls.flatMap line = [] ↔ ls = [] := by
    intro ls
    cases ls with
    | nil => simp
    | cons l ls => simp [hline]
  rw [hempty, hempty, ← List.length_eq_zero_iff, ← List.length_eq_zero_iff]
  have hlength : (bodyLines ⟨colour, verbose, quiet⟩ rs).length
      = (bodyLines ⟨false, verbose, quiet⟩ rs).length := by
    by_cases hverbose : 1 ≤ verbose <;> simp [bodyLines, hverbose]
  rw [hlength]

/-- **The coloured report shows the plain one.** -/
theorem shows_text {rs : List FileReport} (h : ∀ r ∈ rs, r.Escapeless) :
    Shows (text ⟨colour, verbose, quiet⟩ rs) (text ⟨false, verbose, quiet⟩ rs) := by
  have hbody : Shows ((bodyLines ⟨colour, verbose, quiet⟩ rs).flatMap line)
      ((bodyLines ⟨false, verbose, quiet⟩ rs).flatMap line) := shows_bodyLines h
  unfold text
  dsimp only
  by_cases hquiet : quiet = true
  · rw [if_pos hquiet, if_pos hquiet]
    exact hbody
  · rw [if_neg hquiet, if_neg hquiet]
    refine (hbody.append ?_).append (shows_summaryLine rs).line
    -- the empty line is there in both outputs or in neither
    have hnil : (bodyLines ⟨colour, verbose, quiet⟩ rs).flatMap line = [] ↔ _ :=
      bodyLines_eq_nil_iff rs
    simp only [hnil]
    split <;> exact .of_escapeless (by decide)

end Summary

/-! ## §4. Notices. -/

namespace Notice

/-- The texts of a notice hold no escape character. -/
def Escapeless (n : Notice) : Prop :=
  (∀ heading, n.level = .failure heading → Text.Escapeless heading)
    ∧ n.message.Escapeless ∧ (∀ t ∈ n.detail, Text.Escapeless t) ∧ ∀ t ∈ n.help, Text.Escapeless t

variable {colour : Bool}

/-- **Both wordings of a headline agree**, at each level. -/
theorem shows_headline {n : Notice} (h : n.Escapeless) :
    Shows (headline colour n) (headline false n) := by
  have hmessage : Text.Escapeless n.message := h.2.1
  unfold headline
  cases hlevel : n.level with
  | failure heading =>
    have hheading : Text.Escapeless heading := h.1 heading hlevel
    cases colour with
    | true =>
      have hpainted : Shows (Style.bold.start ++ Style.red.start) [] :=
        (Shows.of_mem (by decide)).sequence (by decide)
      have hsign : Text.Escapeless ("✖ ".toList ++ heading ++ [':']) :=
        (Text.Escapeless.append (by decide) hheading).append (by decide)
      simpa using hpainted.sign hsign hmessage
    | false =>
      have hfront : Text.Escapeless ("✖ ".toList ++ heading ++ ": ".toList) :=
        (Text.Escapeless.append (by decide) hheading).append (by decide)
      exact .of_escapeless (hfront.append hmessage)
  | warning =>
    cases colour with
    | true =>
      have hpainted : Shows (Style.bold.start ++ Style.yellow.start) [] :=
        (Shows.of_mem (by decide)).sequence (by decide)
      simpa using hpainted.sign (t := "⚠ Warning:".toList) (by decide) hmessage
    | false => exact .of_escapeless (.append (by decide) hmessage)
  | info =>
    cases colour with
    | true =>
      have hpainted : Shows Style.cyan.start [] := .of_mem (by decide)
      simpa using hpainted.sign (t := "ℹ".toList) (by decide) hmessage
    | false => exact .of_escapeless (.append (by decide) hmessage)

theorem shows_detailLine {t : Text} (h : t.Escapeless) :
    Shows (detailLine colour t) (detailLine false t) := by
  unfold detailLine
  cases colour with
  | true =>
    have hpainted : Shows ("  ".toList ++ Style.dim.start) "  ".toList :=
      (Shows.of_escapeless (by decide)).sequence (by decide)
    have hmarked : Text.Escapeless ("× ".toList ++ t) := .append (by decide) h
    simpa using (hpainted.plain hmarked).sequence (s := Style.reset) (by decide)
  | false => exact .of_escapeless (.append (by decide) h)

theorem shows_helpLine {t : Text} (h : t.Escapeless) :
    Shows (helpLine colour t) (helpLine false t) := by
  unfold helpLine
  cases colour with
  | true =>
    have hpainted : Shows ("  ".toList ++ Style.cyan.start) "  ".toList :=
      (Shows.of_escapeless (by decide)).sequence (by decide)
    simpa using hpainted.sign (t := "help:".toList) (by decide) h
  | false => exact .of_escapeless (.append (by decide) h)

/-- **A coloured notice shows the plain one.** -/
theorem shows_render {n : Notice} (h : n.Escapeless) :
    Shows (render colour n) (render false n) := by
  -- a part that may be missing shows nothing where it is missing
  have hoption : ∀ {o : Option Text} {f g : Text → Text}, (∀ t ∈ o, Shows (f t) (g t)) →
      Shows ((o.map f).toList.flatMap line) ((o.map g).toList.flatMap line) := by
    intro o f g hfg
    cases o with
    | none => exact .nil
    | some t => simpa using (hfg t rfl).line
  unfold render lines
  rw [List.flatMap_append, List.flatMap_append, List.flatMap_cons, List.flatMap_cons]
  refine ((shows_headline h).line.append ?_).append ?_
  · exact hoption fun t ht => shows_detailLine (h.2.2.1 t ht)
  · exact hoption fun t ht => shows_helpLine (h.2.2.2 t ht)

end Notice

/-! ## §5. Both outputs. -/

/-- **Coloured and plain output say the same**: without its control sequences, what is
written when colour is always used is what is written when it never is, on a terminal
and elsewhere.  This holds of every report, at any verbosity, quiet or not, and of
every run of notices, whatever details and help they have. -/
theorem coloured_shows_plain (terminal : Bool) :
    (∀ (rs : List FileReport) (verbose : Nat) (quiet : Bool), (∀ r ∈ rs, r.Escapeless) →
      Style.strip (Summary.text ⟨ColourMode.always.allows terminal, verbose, quiet⟩ rs)
        = Summary.text ⟨ColourMode.never.allows terminal, verbose, quiet⟩ rs)
    ∧ ∀ ns : List Notice, (∀ n ∈ ns, n.Escapeless) →
      Style.strip (Notice.renderAll (ColourMode.always.allows terminal) ns)
        = Notice.renderAll (ColourMode.never.allows terminal) ns := by
  constructor
  · intro rs verbose quiet h
    exact (Summary.shows_text h).strip_eq
  · intro ns h
    exact (Shows.flatMap fun n hn => Notice.shows_render (h n hn)).strip_eq

/-- A report with a finding and a clean file, listed file by file, and a warning with
detail and help. -/
theorem coloured_shows_plain_kitchen :
    let fry : Signature := ⟨"fry".toList, "egg.c".toList, 3, .returning "int".toList, []⟩
    let egg : FileReport := ⟨"egg.c".toList, 1, 1, [⟨.missingReturn, fry⟩], [], [], [], 1⟩
    let pan : FileReport := ⟨"pan.c".toList, 2, 2, [], [], [], [], 1⟩
    let skipped : Notice :=
      ⟨.warning, "Failed to read file: pot.c".toList, some "is a directory".toList,
        some "the file was skipped".toList⟩
    let coloured := Summary.text ⟨ColourMode.always.allows false, 1, false⟩ [egg, pan]
    let plain := Summary.text ⟨ColourMode.never.allows false, 1, false⟩ [egg, pan]
    (∀ r ∈ [egg, pan], r.Escapeless) ∧ skipped.Escapeless
      ∧ coloured ≠ plain ∧ Style.strip coloured = plain
      ∧ Style.strip (Notice.renderAll (ColourMode.always.allows true) [skipped])
        = ("⚠ Warning: Failed to read file: pot.c\n  × is a directory\n".toList
            ++ "  help: the file was skipped\n".toList) := by
  intro fry egg pan skipped coloured plain
  have hreports : ∀ r ∈ [egg, pan], r.Escapeless := by decide
  have hskipped : skipped.Escapeless := by
    refine ⟨fun heading h => ?_, by decide, by decide, by decide⟩
    cases h
  have hnotices : ∀ n ∈ [skipped], n.Escapeless := fun n hn => List.mem_singleton.1 hn ▸ hskipped
  refine ⟨hreports, hskipped, by decide, (coloured_shows_plain false).1 _ 1 false hreports, ?_⟩
  exact ((coloured_shows_plain true).2 [skipped] hnotices).trans (by decide)

end DocAudit
