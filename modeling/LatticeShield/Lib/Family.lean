import Mathlib.Data.List.Basic

/-!
# Machines side by side

A server with many connections is a family of machines, one for each connection, of which any may
move next. When a part of a system moves only by what the events select for it, what becomes of it
is what it makes of that alone, whatever came in between (`foldl_trace`); for a member of a family
this is what was selected under its name (`Family.foldl_apply`).
-/

set_option autoImplicit false

namespace Lib

universe u v w

/-! ## A part of a system -/

section Trace

variable {ρ σ ε ι : Type*} (step : ρ → ε → ρ) (select : ρ → ε → Option ι)

/-- What the events of a run select. The choice may depend on the state before the event. -/
def trace : ρ → List ε → List ι
  | _, [] => []
  | r, e :: es => (select r e).toList ++ trace (step r e) es

/-- A part that is moved by what the events select runs on that. The selection may depend on the
whole state, so it is read off the run. -/
theorem foldl_trace {step : ρ → ε → ρ} {select : ρ → ε → Option ι} {part : ρ → σ}
    {move : σ → ι → σ} (h : ∀ r e, part (step r e) = (select r e).elim (part r) (move (part r)))
    (es : List ε) (r : ρ) :
    part (es.foldl step r) = (trace step select r es).foldl move (part r) := by
  induction es generalizing r with
  | nil => rfl
  | cons e es ih =>
    rw [List.foldl_cons, ih, h, trace, List.foldl_append]
    cases select r e with
    | none => rfl
    | some i => rfl

end Trace

/-! ## Families -/

namespace Family

variable {κ : Type u} [DecidableEq κ] {σ : Type v} {ι : Type w}

/-- The member `e.1` makes its move. -/
def step (move : σ → ι → σ) (s : κ → σ) (e : κ × ι) : κ → σ :=
  Function.update s e.1 (move (s e.1) e.2)

/-- What an event is to the member `k`. -/
def eventFor (k : κ) (e : κ × ι) : Option ι := if e.1 = k then some e.2 else none

/-- The events of the member `k`, in order. -/
def eventsOf (k : κ) (es : List (κ × ι)) : List ι := es.filterMap (eventFor k)

variable {move : σ → ι → σ}

/-- **A member runs on its own events.** -/
theorem foldl_apply (es : List (κ × ι)) (s : κ → σ) (k : κ) :
    es.foldl (step move) s k = (eventsOf k es).foldl move (s k) := by
  induction es generalizing s with
  | nil => rfl
  | cons e es ih =>
    rw [List.foldl_cons, ih]
    unfold eventsOf
    rw [List.filterMap_cons]
    unfold step eventFor
    by_cases h : e.1 = k
    · subst h
      rw [Function.update_self, if_pos rfl]
      rfl
    · rw [Function.update_of_ne (Ne.symm h), if_neg h]

end Family

end Lib
