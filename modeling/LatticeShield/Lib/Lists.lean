import Mathlib.Data.List.Forall2
import Mathlib.Data.List.Induction
import Mathlib.Data.List.Nodup

/-!
# Lists that grow at the end

Runs are read from the right: the last step is split off and compared with everything before it.
So a property of pairs is wanted in its `snoc` form; some lists end with elements that are there
only under a condition. Names that are given out one after the other (`Drawn`) stay different
however they are moved about. A list may also be compared with another one
element by element (`Forall₂`), and what holds of the pairs of the one is carried to the other. The
last lemma is the one about reading out of order: what is taken from an ordered list with strictly
increasing keys is a sublist of it.
-/

set_option autoImplicit false

namespace Lib

universe u v w

variable {α : Type u} {β : Type v} {γ : Type w}

theorem nodup_snoc (l : List α) (a : α) : (l ++ [a]).Nodup ↔ l.Nodup ∧ a ∉ l := by
  simp [List.nodup_append, imp_not_comm]

theorem pairwise_snoc {R : α → α → Prop} (l : List α) (a : α) :
    (l ++ [a]).Pairwise R ↔ l.Pairwise R ∧ ∀ x ∈ l, R x a := by
  simp [List.pairwise_append]

theorem forall_mem_snoc {P : α → Prop} {l : List α} {a : α} :
    (∀ x ∈ l ++ [a], P x) ↔ (∀ x ∈ l, P x) ∧ P a := by
  rw [List.forall_mem_append, List.forall_mem_singleton]

/-! ## Elements that are there under a condition -/

theorem forall_mem_append_ite {P : α → Prop} {l : List α} {on : Bool} {a : α} :
    (∀ x ∈ l ++ if on then [a] else [], P x) ↔ (∀ x ∈ l, P x) ∧ (on = true → P a) := by
  rw [List.forall_mem_append]
  cases on <;> simp

/-- An element that is in no one's way. -/
theorem nodup_append_ite {l : List α} {on : Bool} {a : α} (h : on = true → ∀ x ∈ l, a ≠ x) :
    (l ++ if on then [a] else []).Nodup ↔ l.Nodup := by
  cases on with
  | false => simp
  | true =>
    rw [if_pos rfl, nodup_snoc]
    exact and_iff_left fun hmem => h rfl a hmem rfl

/-! ## Counting -/

/-- Names that are all different and have been given out: those from `next` on have not. Names
that are kept in several places are drawn together, as one list. -/
structure Drawn (next : Nat) (ids : List Nat) : Prop where
  nodup : ids.Nodup
  lt : ∀ id ∈ ids, id < next

/-- Some of them are dropped, moved about, and the next `k` are drawn. -/
theorem Drawn.of_count_le {next k : Nat} {ids ids' : List Nat} (h : Drawn next ids)
    (hle : ∀ id, ids'.count id ≤ (ids ++ List.range' next k).count id) :
    Drawn (next + k) ids' := by
  have hnodup : (ids ++ List.range' next k).Nodup := by
    refine List.nodup_append.mpr ⟨h.nodup, List.nodup_range', ?_⟩
    intro a ha b hb hab
    have := h.lt a ha
    have := (List.mem_range'_1.mp hb).1
    omega
  refine ⟨?_, ?_⟩
  · rw [List.nodup_iff_count_le_one] at hnodup ⊢
    intro id
    exact Nat.le_trans (hle id) (hnodup id)
  · intro id hid
    have hpos := Nat.lt_of_lt_of_le (List.count_pos_iff.mpr hid) (hle id)
    have hmem := List.count_pos_iff.mp hpos
    rcases List.mem_append.mp hmem with hold | hnew
    · exact Nat.lt_add_right k (h.lt id hold)
    · exact (List.mem_range'_1.mp hnew).2

/-! ## Splitting at an index -/

theorem eq_take_cons_drop {l : List α} {i : Nat} {a : α} (h : l[i]? = some a) :
    l = l.take i ++ a :: l.drop (i + 1) := by
  obtain ⟨hi, rfl⟩ := List.getElem?_eq_some_iff.mp h
  rw [← List.drop_eq_getElem_cons hi, List.take_append_drop]

theorem exists_split_of_getElem? {l : List α} {i : Nat} {a : α} (h : l[i]? = some a) :
    ∃ l₁ l₂, l = l₁ ++ a :: l₂ ∧ l.eraseIdx i = l₁ ++ l₂ :=
  ⟨l.take i, l.drop (i + 1), eq_take_cons_drop h, List.eraseIdx_eq_take_drop_succ l i⟩

/-- The elements of one list belong to those of another, and to their numbers from `n` on. Both
ends of a queue of numbered items can be described so. -/
inductive Numbered (R : Nat → α → β → Prop) : Nat → List α → List β → Prop where
  | nil (n : Nat) : Numbered R n [] []
  | cons {n : Nat} {a : α} {b : β} {l : List α} {l' : List β} (h : R n a b)
      (hs : Numbered R (n + 1) l l') : Numbered R n (a :: l) (b :: l')

theorem Numbered.snoc {R : Nat → α → β → Prop} {n : Nat} {l : List α} {l' : List β}
    (hs : Numbered R n l l') {a : α} {b : β} (h : R (n + l'.length) a b) :
    Numbered R n (l ++ [a]) (l' ++ [b]) := by
  induction hs with
  | nil n => exact .cons h (.nil _)
  | @cons n a' b' l l' h' _ ih =>
    refine .cons h' (ih ?_)
    rw [List.length_cons, ← Nat.add_assoc, Nat.add_right_comm] at h
    exact h

section Forall₂

variable {R : α → β → Prop} {l : List α} {l' : List β}

theorem forall₂_getElem? (h : List.Forall₂ R l l') {i : Nat} {b : β} (hb : l'[i]? = some b) :
    ∃ a, l[i]? = some a ∧ R a b := by
  induction h generalizing i with
  | nil => exact absurd hb (by simp)
  | @cons a b' l l' hab _ ih =>
    cases i with
    | zero =>
      rw [List.getElem?_cons_zero, Option.some.injEq] at hb
      exact ⟨a, List.getElem?_cons_zero, hb ▸ hab⟩
    | succ i =>
      rw [List.getElem?_cons_succ] at hb
      obtain ⟨a', ha', hab'⟩ := ih hb
      exact ⟨a', by rw [List.getElem?_cons_succ]; exact ha', hab'⟩

theorem forall₂_exists_of_mem (h : List.Forall₂ R l l') {b : β} (hb : b ∈ l') :
    ∃ a ∈ l, R a b := by
  obtain ⟨i, hi⟩ := List.mem_iff_getElem?.mp hb
  obtain ⟨a, ha, hab⟩ := forall₂_getElem? h hi
  exact ⟨a, List.mem_of_getElem? ha, hab⟩

theorem forall₂_pairwise (h : List.Forall₂ R l l') {P : α → α → Prop} {Q : β → β → Prop}
    (hP : l.Pairwise P) (hPQ : ∀ a a' b b', R a b → R a' b' → P a a' → Q b b') :
    l'.Pairwise Q := by
  induction h with
  | nil => exact List.Pairwise.nil
  | @cons a b l l' hab hrest ih =>
    obtain ⟨ha, hl⟩ := List.pairwise_cons.mp hP
    refine List.pairwise_cons.mpr ⟨?_, ih hl⟩
    intro b' hb'
    obtain ⟨a', ha', hab'⟩ := forall₂_exists_of_mem hrest hb'
    exact hPQ a a' b b' hab hab' (ha a' ha')

end Forall₂

/-- Every `a ∈ A` shows an entry of `L` with its key and its value; the keys of `L` never decrease
and those of `A` increase, so `A` shows the entries of `L` in order and none of them twice. -/
theorem map_sublist_of_sorted (f : α → Nat) (g : β → Nat) (p : α → γ) (q : β → γ)
    {L : List α} (hL : L.Pairwise fun x y => f x ≤ f y) {A : List β}
    (hA : A.Pairwise fun x y => g x < g y)
    (hmem : ∀ a ∈ A, ∃ c ∈ L, f c = g a ∧ p c = q a) : (A.map q).Sublist (L.map p) := by
  -- along `L`: its head is shown by the head of `A`, or it is skipped
  induction L generalizing A with
  | nil =>
    cases A with
    | nil => exact List.Sublist.slnil
    | cons a A =>
      obtain ⟨c, hc, -⟩ := hmem a List.mem_cons_self
      exact absurd hc (by simp)
  | cons c L ih =>
    obtain ⟨hcL, hL⟩ := List.pairwise_cons.mp hL
    cases A with
    | nil => exact List.nil_sublist _
    | cons a A =>
      obtain ⟨haA, hA'⟩ := List.pairwise_cons.mp hA
      by_cases hac : f c = g a ∧ p c = q a
      · -- `a` shows `c`; what comes later has larger keys and shows later entries
        rw [List.map_cons, List.map_cons, ← hac.2]
        refine (ih hL hA' ?_).cons_cons _
        intro b hb
        obtain ⟨d, hd, hfd, hpd⟩ := hmem b (List.mem_cons_of_mem _ hb)
        rcases List.mem_cons.mp hd with rfl | hd
        · have := haA b hb
          omega
        · exact ⟨d, hd, hfd, hpd⟩
      · -- `c` is skipped: nothing in `A` has its key any more
        obtain ⟨d₀, hd₀, hfd₀, hpd₀⟩ := hmem a List.mem_cons_self
        have hd₀L : d₀ ∈ L := by
          rcases List.mem_cons.mp hd₀ with rfl | h
          · exact absurd ⟨hfd₀, hpd₀⟩ hac
          · exact h
        have hle : f c ≤ g a := hfd₀ ▸ hcL d₀ hd₀L
        refine (ih hL hA ?_).cons _
        intro b hb
        rcases List.mem_cons.mp hb with rfl | hb
        · exact ⟨d₀, hd₀L, hfd₀, hpd₀⟩
        · obtain ⟨d, hd, hfd, hpd⟩ := hmem b (List.mem_cons_of_mem _ hb)
          rcases List.mem_cons.mp hd with rfl | hd
          · have := haA b hb
            omega
          · exact ⟨d, hd, hfd, hpd⟩

end Lib
