import Mathlib.Algebra.Group.Nat.Defs
import Mathlib.Data.List.Basic

/-!
# Waiting for jobs one after the other

A queue of jobs is waited for in order, for each until it is done or for `timeout` at most, counted
from where the wait for it begins. A job that is done when its turn comes takes no time. So the wait
takes `timeout` for each job that was not done at its start, less what those save that get done
while it lasts (`Waits.wake`).
-/

set_option autoImplicit false

namespace Lib

universe u

/-- The wait for the first job of the queue ends at the deadline. The others have theirs only when
it is their turn. -/
structure Drain (κ : Type u) where
  queue : List κ
  deadline : Nat

namespace Drain

variable {κ : Type u} (timeout : Nat) (done : κ → Bool)

/-- The waiter goes on as far as it can. A job that is done, or whose deadline has passed, is left
behind, and the next one gets a deadline of its own. -/
def settle (now : Nat) : List κ → Nat → Drain κ
  | [], deadline => ⟨[], deadline⟩
  | k :: ks, deadline =>
    if done k = true ∨ deadline ≤ now then settle now ks (now + timeout) else ⟨k :: ks, deadline⟩

def start (now : Nat) (queue : List κ) : Drain κ := settle timeout done now queue (now + timeout)

def wake (now : Nat) (d : Drain κ) : Drain κ := settle timeout done now d.queue d.deadline

/-- How many jobs are not done. -/
def pending (ks : List κ) : Nat := ks.countP fun k => !done k

variable {timeout done} {now : Nat} {ks : List κ}

theorem pending_cons_of_not_done {k : κ} (h : done k = false) :
    pending done (k :: ks) = pending done ks + 1 :=
  List.countP_cons_of_pos (by rw [h]; rfl)

theorem pending_cons_of_done {k : κ} (h : done k = true) :
    pending done (k :: ks) = pending done ks :=
  List.countP_cons_of_neg (by rw [h]; decide)

theorem pending_dropWhile : pending done (ks.dropWhile done) = pending done ks := by
  induction ks with
  | nil => rfl
  | cons k ks ih =>
    cases h : done k with
    | false => rw [List.dropWhile_cons_of_neg (by rw [h]; decide)]
    | true => rw [List.dropWhile_cons_of_pos h, ih, pending_cons_of_done h]

/-- More jobs are done as time goes by. -/
theorem pending_mono {done' : κ → Bool} (h : ∀ k, done k = true → done' k = true) (ks : List κ) :
    pending done' ks ≤ pending done ks := by
  refine List.countP_mono_left ?_
  intro k _ hk
  cases hd : done k with
  | false => rfl
  | true => rw [h k hd] at hk; exact hk

/-- From a fresh deadline on the waiter passes by the jobs that are done. With a timeout of 0 it
passes by all of them. -/
theorem start_eq : start timeout done now ks =
    ⟨if timeout = 0 then [] else ks.dropWhile done, now + timeout⟩ := by
  unfold start
  induction ks with
  | nil => simp [settle]
  | cons k ks ih =>
    rw [settle]
    by_cases hzero : timeout = 0
    · rw [if_pos (Or.inr (by omega)), ih]
      simp only [hzero, if_true]
    · cases hk : done k with
      | false => rw [if_neg (by simp; omega), List.dropWhile_cons_of_neg (by rw [hk]; decide),
          if_neg hzero]
      | true => rw [if_pos (Or.inl rfl), ih, List.dropWhile_cons_of_pos hk]

theorem wake_cons (k : κ) (deadline : Nat) : wake timeout done now ⟨k :: ks, deadline⟩ =
    if done k = true ∨ deadline ≤ now then start timeout done now ks else ⟨k :: ks, deadline⟩ := rfl

/-! ## How long it takes -/

/-- When the wait ends, if no other job gets done until then. Jobs that get done can only bring it
forward. -/
def ends (timeout : Nat) (done : κ → Bool) (d : Drain κ) : Nat :=
  d.deadline + timeout * pending done d.queue.tail

/-- The first job is waited for, and no deadline is before `since + timeout`. -/
structure Waits (timeout : Nat) (done : κ → Bool) (since now : Nat) (d : Drain κ) : Prop where
  first : ∃ k ks, d.queue = k :: ks ∧ done k = false
  early : now < d.deadline
  late : since + timeout ≤ d.deadline

theorem start_waits {since : Nat} (hsince : since ≤ now) (ks : List κ) :
    ((start timeout done now ks).queue = [] ∧ timeout * pending done ks = 0) ∨
      ((start timeout done now ks).Waits timeout done since now ∧
        (start timeout done now ks).ends timeout done = now + timeout * pending done ks) := by
  rw [start_eq]
  by_cases hzero : timeout = 0
  · rw [if_pos hzero, hzero, Nat.zero_mul]
    exact Or.inl ⟨rfl, rfl⟩
  · rw [if_neg hzero, ← pending_dropWhile]
    cases hdrop : ks.dropWhile done with
    | nil => exact Or.inl ⟨rfl, rfl⟩
    | cons k rest =>
      have hk : done k = false := by
        have := List.head?_dropWhile_not done ks
        rw [hdrop] at this
        simpa using this
      refine Or.inr ⟨⟨⟨k, rest, rfl, hk⟩, ?_, Nat.add_le_add_right hsince timeout⟩, ?_⟩
      · show now < now + timeout
        omega
      · rw [pending_cons_of_not_done hk, Nat.mul_succ]
        show now + timeout + timeout * pending done rest = _
        omega

/-- **From one tick of the clock to the next** the end of the wait is put off by nothing, and
comes no earlier unless a job gets done. -/
theorem Waits.wake {since now' : Nat} {done' : κ → Bool} {d : Drain κ}
    (h : d.Waits timeout done since now) (hdone : ∀ k, done k = true → done' k = true)
    (hnow : now ≤ now') (htick : now' ≤ now + 1) (hsince : since ≤ now) :
    ((d.wake timeout done' now').queue = [] ∧ now' ≤ d.ends timeout done ∧
        (done' = done → now' = d.ends timeout done)) ∨
      ((d.wake timeout done' now').Waits timeout done' since now' ∧
        (d.wake timeout done' now').ends timeout done' ≤ d.ends timeout done ∧
        (done' = done → (d.wake timeout done' now').ends timeout done = d.ends timeout done)) := by
  obtain ⟨queue, deadline⟩ := d
  obtain ⟨⟨k, rest, hqueue, hk⟩, hearly, hlate⟩ := h
  obtain rfl : queue = k :: rest := hqueue
  have hpending := Nat.mul_le_mul_left timeout (pending_mono hdone rest)
  have hends : (⟨k :: rest, deadline⟩ : Drain κ).ends timeout done =
      deadline + timeout * pending done rest := rfl
  dsimp only at hearly hlate
  rw [wake_cons, hends]
  by_cases hgo : done' k = true ∨ deadline ≤ now'
  · rw [if_pos hgo]
    -- without another job done, it is the deadline that has come
    have hdeadline : done' = done → now' = deadline := by
      intro heq
      rcases hgo with hfinished | hpassed
      · rw [heq, hk] at hfinished
        cases hfinished
      · omega
    rcases start_waits (Nat.le_trans hsince hnow) rest with ⟨hempty, hzero⟩ | ⟨hwaits, hnext⟩
    · refine Or.inl ⟨hempty, by omega, ?_⟩
      intro heq
      rw [← heq, hzero, hdeadline heq, Nat.add_zero]
    · refine Or.inr ⟨hwaits, by omega, ?_⟩
      intro heq
      have hat := hdeadline heq
      subst heq
      rw [hnext, hat]
  · rw [if_neg hgo]
    rw [not_or, Bool.not_eq_true] at hgo
    refine Or.inr ⟨⟨⟨k, rest, rfl, hgo.1⟩, ?_, hlate⟩, ?_, fun _ => rfl⟩
    · show now' < deadline
      omega
    · show deadline + _ ≤ _
      exact Nat.add_le_add_left hpending deadline

/-! ## What is left behind -/

variable (timeout done now) in
theorem mem_start {k : κ} (hk : k ∈ ks) : k ∈ (start timeout done now ks).queue ∨ done k = true ∨
    timeout = 0 := by
  rw [start_eq]
  by_cases hzero : timeout = 0
  · exact Or.inr (Or.inr hzero)
  · rw [if_neg hzero]
    induction ks with
    | nil => exact absurd hk List.not_mem_nil
    | cons first rest ih =>
      cases hfirst : done first with
      | false =>
        rw [List.dropWhile_cons_of_neg (by rw [hfirst]; decide)]
        exact Or.inl hk
      | true =>
        rw [List.dropWhile_cons_of_pos hfirst]
        rcases List.mem_cons.mp hk with rfl | hrest
        · exact Or.inr (Or.inl hfirst)
        · exact ih hrest

/-- A job that is left behind is done, or has had its time. The deadline of a job is at least a
timeout behind the beginning. -/
theorem Waits.mem_wake {since now' : Nat} {done' : κ → Bool} {d : Drain κ}
    (h : d.Waits timeout done since now) (hnow : now ≤ now') (hsince : since ≤ now) {k : κ}
    (hk : k ∈ d.queue) : k ∈ (d.wake timeout done' now').queue ∨ done' k = true ∨
      since + timeout ≤ now' := by
  obtain ⟨queue, deadline⟩ := d
  obtain ⟨⟨first, rest, hqueue, -⟩, hearly, hlate⟩ := h
  obtain rfl : queue = first :: rest := hqueue
  dsimp only at hearly hlate hk
  rw [wake_cons]
  by_cases hgo : done' first = true ∨ deadline ≤ now'
  · rw [if_pos hgo]
    rcases List.mem_cons.mp hk with rfl | hrest
    · rcases hgo with hdone | hdeadline
      · exact Or.inr (Or.inl hdone)
      · exact Or.inr (Or.inr (Nat.le_trans hlate hdeadline))
    · rcases mem_start timeout done' now' hrest with hin | hdone | hzero
      · exact Or.inl hin
      · exact Or.inr (Or.inl hdone)
      · exact Or.inr (Or.inr (by omega))
  · rw [if_neg hgo]
    exact Or.inl hk

end Drain

end Lib
