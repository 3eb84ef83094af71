import Mathlib.Init

/-!
# Programs that stop at their first error

A sequence of `?`s succeeds when every part of it does, and the parts can be taken off one at a
time. `refuseIf` is the guard such sequences are made of, and `okOr` the value that may be missing.
-/

set_option autoImplicit false

namespace Lib

universe u v

variable {ε ε' : Type u} {α β : Type v}

def refuseIf (cond : Bool) (e : ε) : Except ε Unit := if cond then .error e else .ok ()

def okOr (x : Option α) (e : ε) : Except ε α := x.elim (.error e) .ok

theorem refuseIf_eq_ok {cond : Bool} {e : ε} : refuseIf cond e = .ok () ↔ cond = false := by
  cases cond <;> simp [refuseIf]

theorem okOr_eq_ok {x : Option α} {e : ε} {a : α} : okOr x e = .ok a ↔ x = some a := by
  cases x <;> simp [okOr]

theorem bind_eq_ok {x : Except ε α} {f : α → Except ε β} {b : β} :
    x >>= f = .ok b ↔ ∃ a, x = .ok a ∧ f a = .ok b := by
  cases x with
  | error e =>
    have herr : Except.error e >>= f = .error e := rfl
    rw [herr]
    exact iff_of_false (by simp) (by simp)
  | ok a =>
    refine ⟨fun h => ⟨a, rfl, h⟩, ?_⟩
    rintro ⟨a', ha, h⟩
    rw [Except.ok.inj ha]
    exact h

theorem mapError_eq_ok {x : Except ε α} {f : ε → ε'} {a : α} :
    x.mapError f = .ok a ↔ x = .ok a := by
  cases x with
  | error e =>
    have herr : (Except.error e : Except ε α).mapError f = .error (f e) := rfl
    rw [herr]
    exact iff_of_false (by simp) (by simp)
  | ok b =>
    have hok : (Except.ok b : Except ε α).mapError f = .ok b := rfl
    rw [hok, Except.ok.injEq, Except.ok.injEq]

theorem exists_ok_of_map {x : Except ε α} {f : α → β} {b : β} (h : x.toOption.map f = some b) :
    ∃ a, x = .ok a ∧ f a = b := by
  cases x with
  | error e => exact absurd h (by simp [Except.toOption])
  | ok a => exact ⟨a, rfl, Option.some.inj h⟩

theorem isOk_eq_true {x : Except ε α} : x.isOk = true ↔ ∃ a, x = .ok a := by
  cases x <;> simp [Except.isOk, Except.toBool]

theorem isOk_eq_false {x : Except ε α} : x.isOk = false ↔ ∃ e, x = .error e := by
  cases x <;> simp [Except.isOk, Except.toBool]

end Lib
