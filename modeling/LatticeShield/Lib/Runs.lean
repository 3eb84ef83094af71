import Mathlib.Data.List.Induction

/-!
# Runs whose steps meet a condition

A system is a state and a step function, and a run is a list of steps. Some properties hold of
every run; others hold of the runs in which every step was taken in a state that allowed it, and
`Meets` is that: the condition is asked of each step in the state before it. A property proved
of all such runs holds in every state they reach, because a run's beginning meets the condition
too (`meets_append`).
-/

set_option autoImplicit false

namespace Lib

universe u v

variable {σ : Type u} {ι : Type v} (step : σ → ι → σ) (ok : σ → ι → Prop)

def Meets : σ → List ι → Prop
  | _, [] => True
  | s, i :: is => ok s i ∧ Meets (step s i) is

instance [∀ s i, Decidable (ok s i)] : ∀ s is, Decidable (Meets step ok s is)
  | _, [] => .isTrue trivial
  | s, i :: is =>
    have := instDecidableMeets (step s i) is
    inferInstanceAs (Decidable (ok s i ∧ Meets step ok (step s i) is))

variable {step ok}

theorem meets_append {s : σ} {is js : List ι} :
    Meets step ok s (is ++ js) ↔ Meets step ok s is ∧ Meets step ok (is.foldl step s) js := by
  induction is generalizing s with
  | nil => simp [Meets]
  | cons i is ih => simp only [List.cons_append, Meets, ih, List.foldl_cons, and_assoc]

theorem meets_snoc {s : σ} {is : List ι} {i : ι} :
    Meets step ok s (is ++ [i]) ↔ Meets step ok s is ∧ ok (is.foldl step s) i := by
  simp [meets_append, Meets]

/-- A condition on the steps alone is one more condition. -/
theorem Meets.and_mem {p : ι → Prop} {s : σ} {is : List ι} (h : Meets step ok s is)
    (hp : ∀ i ∈ is, p i) : Meets step (fun s i => ok s i ∧ p i) s is := by
  induction is generalizing s with
  | nil => trivial
  | cons i is ih =>
    exact ⟨⟨h.1, hp i List.mem_cons_self⟩, ih h.2 fun j hj => hp j (List.mem_cons_of_mem i hj)⟩

/-- What every allowed step preserves, every run of allowed steps preserves. The condition is
asked of the state before each step. -/
theorem Meets.invariant {I : σ → Prop} (hstep : ∀ s i, I s → ok s i → I (step s i)) {s : σ}
    {is : List ι} (h : Meets step ok s is) (hs : I s) : I (is.foldl step s) := by
  induction is generalizing s with
  | nil => exact hs
  | cons i is ih => exact ih h.2 (hstep s i hs h.1)

end Lib
