import Mathlib.Data.List.Pairwise
import Mathlib.Order.Nat
import LatticeShield.Bridge.Admin
import LatticeShield.Lib.Lists
import LatticeShield.Proof.Validate

/-!
# What the admin listener lets through in a second

The limiter counts arrivals in windows, and a window begins with the first arrival that finds the
last one a second old. Inside a window the count decides: the first `rate_limit_per_second` are
handed over and the rest are dropped (`Inv.handed`, with what a `u32` that wraps around adds to
it). A second that two windows share has what both let through. It cannot have part in three,
because the one in the middle lasts a second itself (`Inv.apart`). So the limit is one for the
windows, and for a second it is twice as much.
-/

set_option autoImplicit false

namespace LatticeShield.Admin

open Lib

/-- The clock does not go back: neither between the two readings of it in one call, nor from one
call to the next. -/
def Ordered (now : Nat) (arrivals : List Arrival) : Prop :=
  (∀ a ∈ arrivals, now ≤ a.comparedAt ∧ a.comparedAt ≤ a.restartedAt) ∧
    arrivals.Pairwise fun a b => a.restartedAt ≤ b.comparedAt

instance (now : Nat) (arrivals : List Arrival) : Decidable (Ordered now arrivals) :=
  inferInstanceAs (Decidable (_ ∧ _))

namespace Listener

variable {limit : UInt32} {l : Listener} {a : Arrival}

/-! ## What is counted -/

def arrivedIn (window : Nat) (log : List Admission) : Nat :=
  log.countP fun e => e.window = window

def handedIn (window : Nat) (log : List Admission) : Nat :=
  log.countP fun e => e.handed ∧ e.window = window

/-- How many of the first `n` of a window are handed over: the first `limit`, and another `limit +
1` each time the count has come to zero again. -/
def handedOf (limit : UInt32) (n : Nat) : Nat :=
  n / 2 ^ 32 * (limit.toNat + 1) + min (n % 2 ^ 32) limit.toNat

theorem handedOf_succ (limit : UInt32) (n : Nat) :
    handedOf limit (n + 1) =
      handedOf limit n + if (n + 1) % 2 ^ 32 ≤ limit.toNat then 1 else 0 := by
  have hlimit := limit.toNat_lt
  unfold handedOf
  by_cases hwrap : n % 2 ^ 32 + 1 = 2 ^ 32
  · have hdiv : (n + 1) / 2 ^ 32 = n / 2 ^ 32 + 1 := by omega
    have hmod : (n + 1) % 2 ^ 32 = 0 := by omega
    rw [hdiv, hmod, Nat.succ_mul, if_pos (Nat.zero_le _)]
    omega
  · have hdiv : (n + 1) / 2 ^ 32 = n / 2 ^ 32 := by omega
    have hmod : (n + 1) % 2 ^ 32 = n % 2 ^ 32 + 1 := by omega
    rw [hdiv, hmod]
    split <;> omega

/-! ## The windows -/

structure Inv (limit : UInt32) (l : Listener) : Prop where
  begun : ∀ e ∈ l.log, e.window ≤ l.window
  young : ∀ e ∈ l.log, e.window = l.window → e.time < l.rateWindowStart + second
  old : ∀ e ∈ l.log, e.window < l.window → e.time < l.rateWindowStart
  older : ∀ e ∈ l.log, e.window + 2 ≤ l.window → e.time + second < l.rateWindowStart
  /-- What is two windows apart is more than a second apart. -/
  apart : ∀ e ∈ l.log, ∀ e' ∈ l.log, e.window + 2 ≤ e'.window → e.time + second < e'.time
  count : l.rateCount.toNat = arrivedIn l.window l.log % 2 ^ 32
  handed : ∀ j, handedIn j l.log = handedOf limit (arrivedIn j l.log)

theorem inv_start (now : Nat) : Inv limit (start now) where
  begun := by simp [start]
  young := by simp [start]
  old := by simp [start]
  older := by simp [start]
  apart := by simp [start]
  count := rfl
  handed := fun _ => by simp [start, handedIn, arrivedIn, handedOf]

/-- The arrival is in its window: it is young there, and far from what is two windows back. This
is what makes two windows cover any second, although a window has no fixed length: it ends with
the first arrival that finds it a second old. -/
structure InWindow (l : Listener) (a : Arrival) : Prop where
  young : a.comparedAt < l.rateWindowStart + second
  apart : ∀ e ∈ l.log, e.window + 2 ≤ l.window → e.time + second < a.comparedAt

theorem Inv.restart (inv : Inv limit l) (hnow : l.rateWindowStart ≤ a.comparedAt)
    (hclock : a.comparedAt ≤ a.restartedAt) :
    Inv limit (l.restart a) ∧ InWindow (l.restart a) a ∧
      (l.restart a).rateWindowStart ≤ a.restartedAt := by
  unfold Listener.restart
  split
  · rename_i hexpired
    have hstart : l.rateWindowStart + second ≤ a.comparedAt := by omega
    have hback : ∀ e ∈ l.log, e.window < l.window + 1 → e.time < a.comparedAt := by
      intro e he hlt
      rcases Nat.lt_or_eq_of_le (Nat.le_of_lt_succ hlt) with hlt | heq
      · exact Nat.lt_of_lt_of_le (inv.old e he hlt) hnow
      · exact Nat.lt_of_lt_of_le (inv.young e he heq) hstart
    have hfar : ∀ e ∈ l.log, e.window + 2 ≤ l.window + 1 → e.time + second < a.comparedAt := by
      intro e he hle
      have hlt := inv.old e he (by omega)
      omega
    -- nothing has arrived in the window that begins
    have hempty : arrivedIn (l.window + 1) l.log = 0 := by
      rw [arrivedIn, List.countP_eq_zero]
      intro e he
      have hle := inv.begun e he
      simp only [decide_eq_true_eq]
      omega
    refine ⟨⟨?_, ?_, ?_, ?_, inv.apart, ?_, inv.handed⟩, ⟨?_, hfar⟩, Nat.le_refl _⟩
    · intro e he
      exact Nat.le_succ_of_le (inv.begun e he)
    · intro e he heq
      have hle := inv.begun e he
      have heq : e.window = l.window + 1 := heq
      omega
    · intro e he hlt
      exact Nat.lt_of_lt_of_le (hback e he hlt) hclock
    · intro e he hle
      exact Nat.lt_of_lt_of_le (hfar e he hle) hclock
    · show (0 : UInt32).toNat = arrivedIn (l.window + 1) l.log % 2 ^ 32
      rw [hempty]
      rfl
    · show a.comparedAt < a.restartedAt + second
      unfold second
      omega
  · rename_i hexpired
    refine ⟨inv, ⟨?_, ?_⟩, Nat.le_trans hnow hclock⟩
    · omega
    · intro e he hle
      exact Nat.lt_of_lt_of_le (inv.older e he hle) hnow

theorem arrivedIn_snoc (j : Nat) (log : List Admission) (e : Admission) :
    arrivedIn j (log ++ [e]) = arrivedIn j log + if e.window = j then 1 else 0 := by
  simp [arrivedIn, List.countP_append, List.countP_singleton]

theorem handedIn_snoc (j : Nat) (log : List Admission) (e : Admission) :
    handedIn j (log ++ [e]) = handedIn j log + if e.handed ∧ e.window = j then 1 else 0 := by
  simp [handedIn, List.countP_append, List.countP_singleton]

theorem Inv.count_step (inv : Inv limit l) (h : InWindow l a) : Inv limit (l.count limit a) := by
  -- the counter is a `u32` that wraps, so it counts the window's arrivals modulo 2^32
  have hcount : (l.rateCount + 1).toNat = (arrivedIn l.window l.log + 1) % 2 ^ 32 := by
    rw [UInt32.toNat_add, inv.count]
    exact Nat.mod_add_mod _ _ _
  refine ⟨?_, ?_, ?_, ?_, ?_, ?_, ?_⟩
  · exact forall_mem_snoc.mpr ⟨inv.begun, Nat.le_refl _⟩
  · exact forall_mem_snoc.mpr ⟨inv.young, fun _ => h.young⟩
  · exact forall_mem_snoc.mpr ⟨inv.old, fun hlt => absurd hlt (Nat.lt_irrefl _)⟩
  · refine forall_mem_snoc.mpr ⟨inv.older, ?_⟩
    intro hle
    have hle : l.window + 2 ≤ l.window := hle
    omega
  · refine forall_mem_snoc.mpr ⟨?_, ?_⟩
    · intro e he
      exact forall_mem_snoc.mpr ⟨inv.apart e he, h.apart e he⟩
    · -- nothing is two windows ahead of the last one
      refine forall_mem_snoc.mpr ⟨?_, ?_⟩
      · intro e he hle
        have hbegun := inv.begun e he
        have hle : l.window + 2 ≤ e.window := hle
        omega
      · intro hle
        have hle : l.window + 2 ≤ l.window := hle
        omega
  · show (l.rateCount + 1).toNat = arrivedIn l.window (l.log ++ [_]) % 2 ^ 32
    rw [arrivedIn_snoc, if_pos rfl, hcount]
  · intro j
    show handedIn j (l.log ++ [_]) = handedOf limit (arrivedIn j (l.log ++ [_]))
    rw [handedIn_snoc, arrivedIn_snoc]
    -- only the current window's counts change
    by_cases hj : l.window = j
    · have hgt : (l.rateCount + 1 > limit) ↔
          ¬ (arrivedIn l.window l.log + 1) % 2 ^ 32 ≤ limit.toNat := by
        rw [← hcount, Nat.not_le]
        exact UInt32.lt_iff_toNat_lt
      subst hj
      simp only [if_true, and_true, handedOf_succ, inv.handed]
      simp [hgt]
    · simp [hj, inv.handed]

theorem Inv.step (inv : Inv limit l) (hnow : l.rateWindowStart ≤ a.comparedAt)
    (hclock : a.comparedAt ≤ a.restartedAt) :
    Inv limit (l.step limit a) ∧ (l.step limit a).rateWindowStart ≤ a.restartedAt := by
  obtain ⟨hinv, hwindow, hstart⟩ := inv.restart hnow hclock
  exact ⟨hinv.count_step hwindow, hstart⟩

theorem Inv.foldl {arrivals : List Arrival} (inv : Inv limit l)
    (hordered : Ordered l.rateWindowStart arrivals) :
    Inv limit (arrivals.foldl (Listener.step limit) l) := by
  induction arrivals generalizing l with
  | nil => exact inv
  | cons a arrivals ih =>
    obtain ⟨htimes, hpairs⟩ := hordered
    rw [List.forall_mem_cons] at htimes
    rw [List.pairwise_cons] at hpairs
    obtain ⟨hstep, hstart⟩ := inv.step htimes.1.1 htimes.1.2
    refine ih hstep ⟨?_, hpairs.2⟩
    intro b hb
    exact ⟨Nat.le_trans hstart (hpairs.1 b hb), (htimes.2 b hb).2⟩

theorem inv_run {now : Nat} {arrivals : List Arrival} (hordered : Ordered now arrivals) :
    Inv limit (run limit now arrivals) :=
  (inv_start now).foldl hordered

end Listener

open Listener

end LatticeShield.Admin
