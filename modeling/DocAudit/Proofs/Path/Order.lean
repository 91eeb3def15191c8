/-
  DocAudit.Proofs.Path.Order
  ──────────────────────────
  **PATHS IN ORDER, EACH NAMED ONCE.**

  Paths are compared by keys, which are lists of numbers in lexicographic order (`le_eq`),
  so their order is linear up to spelling.  Of paths in order only neighbours can name the
  same path, and what is left when repeats are dropped grows strictly (`pairwise_sorted`).
  A path that is dropped is named by one that is kept (`exists_mem_sorted`).
-/
import DocAudit.Path
import Mathlib.Data.List.Lex
import Mathlib.Order.Lattice
import Mathlib.Order.Nat

namespace DocAudit

/-! ## §1. Keys. -/

section Lexicographic

variable {α : Type} [LinearOrder α] {a b : α} {s t : List α}

theorem nil_lexicographic_le (s : List α) : [] ≤ s := by
  rw [le_iff_lt_or_eq]
  cases s with
  | nil => exact .inr rfl
  | cons a s => exact .inl List.Lex.nil

theorem not_cons_lexicographic_le_nil : ¬a :: s ≤ [] := by
  intro h
  rcases le_iff_lt_or_eq.1 h with hlt | heq
  · cases hlt
  · cases heq

/-- Where the first elements agree the others decide. -/
theorem cons_lexicographic_le_cons : a :: s ≤ b :: t ↔ a < b ∨ a = b ∧ s ≤ t := by
  rw [le_iff_lt_or_eq, le_iff_lt_or_eq, List.cons.injEq]
  constructor
  · rintro (h | ⟨rfl, rfl⟩)
    · rcases List.cons_lt_cons_iff.1 h with hlt | ⟨rfl, hlt⟩
      · exact .inl hlt
      · exact .inr ⟨rfl, .inl hlt⟩
    · exact .inr ⟨rfl, .inr rfl⟩
  · rintro (h | ⟨rfl, h | rfl⟩)
    · exact .inl (List.cons_lt_cons_iff.2 (.inl h))
    · exact .inl (List.cons_lt_cons_iff.2 (.inr ⟨rfl, h⟩))
    · exact .inr ⟨rfl, rfl⟩

end Lexicographic

namespace Component

/-- What the order of components looks at: the kind, then the characters. -/
def key : Component → List Nat
  | name n => 3 :: n.map Char.toNat
  | c => [c.rank]

theorem map_toNat_injective : Function.Injective (List.map Char.toNat) :=
  List.map_injective_iff.2 fun _ _ h => Char.ext (UInt32.toNat_inj.1 h)

theorem key_injective : Function.Injective key := by
  intro a b h
  cases a <;> cases b <;> simp [key, rank] at h ⊢
  exact map_toNat_injective h

theorem textLe_eq (s t : Text) : textLe s t = decide (s.map Char.toNat ≤ t.map Char.toNat) := by
  induction s generalizing t with
  | nil => exact (decide_eq_true (nil_lexicographic_le _)).symm
  | cons a s ih =>
    cases t with
    | nil => exact (decide_eq_false not_cons_lexicographic_le_nil).symm
    | cons b t =>
      have hchar : a.toNat = b.toNat ↔ a = b := by
        constructor
        · exact fun h => Char.ext (UInt32.toNat_inj.1 h)
        · rintro rfl
          rfl
      unfold textLe
      rw [ih]
      simp [cons_lexicographic_le_cons, hchar, Bool.beq_eq_decide_eq]

/-- **Components are compared by their keys.** -/
theorem le_eq (a b : Component) : a.le b = decide (a.key ≤ b.key) := by
  cases a <;> cases b <;>
    simp [le, key, rank, cons_lexicographic_le_cons, nil_lexicographic_le, textLe_eq]

end Component

namespace Path

theorem componentsLe_eq (s t : List Component) :
    componentsLe s t = decide (s.map Component.key ≤ t.map Component.key) := by
  induction s generalizing t with
  | nil => exact (decide_eq_true (nil_lexicographic_le _)).symm
  | cons a s ih =>
    cases t with
    | nil => exact (decide_eq_false not_cons_lexicographic_le_nil).symm
    | cons b t =>
      unfold componentsLe
      rw [List.map_cons, List.map_cons]
      by_cases heq : a = b
      · subst heq
        rw [if_pos rfl, ih]
        simp [cons_lexicographic_le_cons]
      · have hne : a.key ≠ b.key := fun h => heq (Component.key_injective h)
        rw [if_neg heq, Component.le_eq]
        refine decide_eq_decide.2 ?_
        rw [cons_lexicographic_le_cons, le_iff_lt_or_eq]
        simp [hne]

/-- What the order of paths looks at. -/
def key (p : Text) : List (List Nat) := (components p).map Component.key

variable {p q : Text} {ps : List Text}

/-- **Paths are compared by their keys.** -/
theorem le_eq (p q : Text) : le p q = decide (key p ≤ key q) := componentsLe_eq _ _

/-- Paths with equal keys are the same. -/
theorem key_eq_iff : key p = key q ↔ components p = components q :=
  (List.map_injective_iff.2 Component.key_injective).eq_iff

theorem same_eq_true_iff : same p q = true ↔ key p = key q := by
  rw [key_eq_iff]
  exact beq_iff_eq

/-! ## §2. Dropping repeats. -/

theorem dropRepeats_sublist (ps : List Text) : (dropRepeats ps).Sublist ps := by
  fun_induction dropRepeats ps with
  | case1 => exact List.Sublist.refl _
  | case2 p => exact List.Sublist.refl _
  | case3 p q rest _ ih => exact ih.trans ((List.sublist_cons_self q rest).cons_cons p)
  | case4 p q rest _ ih => exact ih.cons_cons p

/-- **What is dropped has the key of what is kept.** -/
theorem exists_mem_dropRepeats (h : p ∈ ps) : ∃ q ∈ dropRepeats ps, key q = key p := by
  fun_induction dropRepeats ps generalizing p with
  | case1 => exact absurd h List.not_mem_nil
  | case2 q => exact ⟨p, h, rfl⟩
  | case3 q r rest hsame ih =>
    rcases List.mem_cons.1 h with rfl | h
    · exact ih List.mem_cons_self
    rcases List.mem_cons.1 h with rfl | h
    · -- the second of two spellings is dropped
      obtain ⟨k, hk, hkey⟩ := ih List.mem_cons_self
      exact ⟨k, hk, hkey.trans (same_eq_true_iff.1 hsame)⟩
    · exact ih (List.mem_cons_of_mem _ h)
  | case4 q r rest _ ih =>
    rcases List.mem_cons.1 h with rfl | h
    · exact ⟨p, List.mem_cons_self, rfl⟩
    · obtain ⟨k, hk, hkey⟩ := ih h
      exact ⟨k, List.mem_cons_of_mem _ hk, hkey⟩

/-- **Without repeats an order is strict.** -/
theorem pairwise_dropRepeats (h : ps.Pairwise fun p q => key p ≤ key q) :
    (dropRepeats ps).Pairwise fun p q => key p < key q := by
  fun_induction dropRepeats ps with
  | case1 => exact List.Pairwise.nil
  | case2 p => exact List.pairwise_singleton _ _
  | case3 p q rest _ ih => exact ih (h.sublist ((List.sublist_cons_self q rest).cons_cons p))
  | case4 p q rest hsame ih =>
    obtain ⟨hp, hrest⟩ := List.pairwise_cons.1 h
    refine List.pairwise_cons.2 ⟨fun r hr => ?_, ih hrest⟩
    have hlt : key p < key q := by
      refine lt_of_le_of_ne (hp q List.mem_cons_self) fun heq => ?_
      exact hsame (same_eq_true_iff.2 heq)
    rcases List.mem_cons.1 ((dropRepeats_sublist _).subset hr) with rfl | hr
    · exact hlt
    · exact hlt.trans_le ((List.pairwise_cons.1 hrest).1 r hr)

theorem dropRepeats_of_pairwise (h : ps.Pairwise fun p q => key p < key q) :
    dropRepeats ps = ps := by
  fun_induction dropRepeats ps with
  | case1 => rfl
  | case2 p => rfl
  | case3 p q rest hsame ih =>
    have hlt := (List.pairwise_cons.1 h).1 q List.mem_cons_self
    exact absurd (same_eq_true_iff.1 hsame) hlt.ne
  | case4 p q rest hsame ih => rw [ih (List.pairwise_cons.1 h).2]

/-! ## §3. Putting in order. -/

theorem pairwise_mergeSort_le (ps : List Text) :
    (ps.mergeSort le).Pairwise fun p q => key p ≤ key q := by
  have htrans : ∀ p q r, le p q = true → le q r = true → le p r = true := by
    intro p q r
    simp only [le_eq, decide_eq_true_eq]
    exact le_trans
  have htotal : ∀ p q, (le p q || le q p) = true := by
    intro p q
    simp only [le_eq, Bool.or_eq_true, decide_eq_true_eq]
    exact le_total _ _
  refine (List.pairwise_mergeSort htrans htotal ps).imp fun h => ?_
  rwa [le_eq, decide_eq_true_eq] at h

/-- **Paths in order grow strictly**, so no path is named twice. -/
theorem pairwise_sorted (ps : List Text) : (sorted ps).Pairwise fun p q => key p < key q :=
  pairwise_dropRepeats (pairwise_mergeSort_le ps)

/-- Nothing is added. -/
theorem mem_of_mem_sorted (h : p ∈ sorted ps) : p ∈ ps :=
  List.mem_mergeSort.1 ((dropRepeats_sublist _).subset h)

/-- **Nothing is lost**: what is dropped is a spelling of what is kept. -/
theorem exists_mem_sorted (h : p ∈ ps) : ∃ q ∈ sorted ps, components q = components p := by
  obtain ⟨q, hq, hkey⟩ := exists_mem_dropRepeats (List.mem_mergeSort.2 h)
  exact ⟨q, hq, key_eq_iff.1 hkey⟩

/-- Paths that are in order stay as they are. -/
theorem sorted_of_pairwise (h : ps.Pairwise fun p q => key p < key q) : sorted ps = ps := by
  have hsort : ps.mergeSort le = ps :=
    List.mergeSort_of_pairwise (h.imp fun hlt => by rw [le_eq]; exact decide_eq_true hlt.le)
  unfold sorted
  rw [hsort, dropRepeats_of_pairwise h]

end Path
end DocAudit
