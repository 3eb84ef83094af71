import Mathlib.Data.List.Basic

/-!
# Copying a stream

The future that `tokio::io::copy` returns, as a state machine: it reads into a buffer that is
empty, writes what it has read, and once it has read the end of the source and written everything
it flushes and is done. It may fail whenever it awaits. What the source sends, and that it ends,
happens from outside.

Nothing is lost or reordered on the way (`step_sent`), so a copy that is done, or has nothing left
to read and to write, has written what the source sent.
-/

set_option autoImplicit false

namespace Lib

universe u

inductive CopyStatus where
  | running
  | done
  | failed
deriving DecidableEq

structure Copy (α : Type u) where
  /-- Sent by the source and not read. -/
  unread : List α := []
  /-- The source sends nothing more. -/
  ended : Bool := false
  /-- Read and not written. -/
  buf : List α := []
  /-- The end of the source has been read. -/
  readDone : Bool := false
  written : List α := []
  status : CopyStatus := .running
deriving DecidableEq

inductive CopyStep where
  /-- A read with room for `n + 1`. -/
  | read (n : Nat)
  /-- A write of which the destination takes at most `n + 1`. -/
  | write (n : Nat)
  /-- The last flush. -/
  | finish
  | fail
deriving DecidableEq

namespace Copy

variable {α : Type u}

/-- The source sends, unless it has ended its stream. -/
def arrive (c : Copy α) (xs : List α) : Copy α :=
  if c.ended then c else { c with unread := c.unread ++ xs }

def close (c : Copy α) : Copy α := { c with ended := true }

/-- The step would complete the copy. -/
def Finishes (c : Copy α) (s : CopyStep) : Prop :=
  s = .finish ∧ c.status = .running ∧ c.readDone = true ∧ c.buf = []

instance (c : Copy α) (s : CopyStep) : Decidable (c.Finishes s) :=
  inferInstanceAs (Decidable (s = .finish ∧ c.status = .running ∧ c.readDone = true ∧ c.buf = []))

def step (c : Copy α) (s : CopyStep) : Copy α :=
  if c.status = .running then
    match s with
    | .read n =>
      if c.buf = [] ∧ c.readDone = false then
        if c.unread = [] then { c with readDone := c.ended }
        else { c with buf := c.unread.take (n + 1), unread := c.unread.drop (n + 1) }
      else c
    | .write n =>
      { c with written := c.written ++ c.buf.take (n + 1), buf := c.buf.drop (n + 1) }
    | .finish => if c.readDone = true ∧ c.buf = [] then { c with status := .done } else c
    | .fail => { c with status := .failed }
  else c

/-- All the source has sent. -/
def sent (c : Copy α) : List α := c.written ++ c.buf ++ c.unread

theorem written_prefix_sent (c : Copy α) : c.written <+: c.sent := by
  rw [sent, List.append_assoc]
  exact List.prefix_append _ _

/-- The source has ended, and nothing is on the way. What was sent is then what was written
(`Drained.written_eq`). -/
structure Drained (c : Copy α) : Prop where
  ended : c.ended = true
  unread : c.unread = []
  buf : c.buf = []

theorem Drained.written_eq {c : Copy α} (h : c.Drained) : c.written = c.sent := by
  rw [sent, h.buf, h.unread, List.append_nil, List.append_nil]

/-! ## What a step keeps -/

@[simp] theorem sent_arrive (c : Copy α) (xs : List α) :
    (c.arrive xs).sent = if c.ended then c.sent else c.sent ++ xs := by
  rw [arrive]
  split
  · rfl
  · simp [sent]

@[simp] theorem sent_close (c : Copy α) : c.close.sent = c.sent := rfl

/-- A step moves what was sent along and loses nothing. What is written, buffered and unread is
always the whole of it. -/
@[simp] theorem step_sent (c : Copy α) (s : CopyStep) : (c.step s).sent = c.sent := by
  unfold step
  split
  · cases s with
    | read n =>
      dsimp only
      split
      · rename_i hread
        split
        · rfl
        · simp [sent, hread.1]
      · rfl
    | write n => simp [sent]
    | finish =>
      dsimp only
      split <;> rfl
    | fail => rfl
  · rfl

@[simp] theorem arrive_status (c : Copy α) (xs : List α) : (c.arrive xs).status = c.status := by
  rw [arrive]
  split <;> rfl

theorem arrive_fields (c : Copy α) (xs : List α) :
    (c.arrive xs).written = c.written ∧ (c.arrive xs).buf = c.buf := by
  rw [arrive]
  split <;> exact ⟨rfl, rfl⟩

theorem step_ended (c : Copy α) (s : CopyStep) : (c.step s).ended = c.ended := by
  unfold step
  split
  · cases s with
    | read n =>
      dsimp only
      split
      · split <;> rfl
      · rfl
    | write n => rfl
    | finish =>
      dsimp only
      split <;> rfl
    | fail => rfl
  · rfl

/-- What has been read of a source that has ended. A copy that is done has met that end and has
nothing left to write. -/
structure Sound (c : Copy α) : Prop where
  end_read : c.readDone = true → c.ended = true ∧ c.unread = []
  done : c.status = .done → c.readDone = true ∧ c.buf = []

theorem Sound.new : Sound ({} : Copy α) := ⟨by simp, by simp⟩

theorem Sound.drained {c : Copy α} (h : c.Sound) (hdone : c.status = .done) : c.Drained := by
  obtain ⟨hread, hbuf⟩ := h.done hdone
  obtain ⟨hended, hunread⟩ := h.end_read hread
  exact ⟨hended, hunread, hbuf⟩

theorem Sound.arrive {c : Copy α} (h : c.Sound) (xs : List α) : (c.arrive xs).Sound := by
  rw [Copy.arrive]
  split
  · exact h
  · rename_i hopen
    refine ⟨?_, h.done⟩
    intro hread
    exact absurd (h.end_read hread).1 hopen

theorem Sound.close {c : Copy α} (h : c.Sound) : c.close.Sound :=
  ⟨fun hread => ⟨rfl, (h.end_read hread).2⟩, h.done⟩

theorem Sound.step {c : Copy α} (h : c.Sound) (s : CopyStep) : (c.step s).Sound := by
  unfold Copy.step
  split
  · rename_i hrunning
    have hopen : c.status ≠ .done := by simp [hrunning]
    cases s with
    | read n =>
      dsimp only
      split
      · rename_i hread
        split
        · rename_i hunread
          exact ⟨fun hended => ⟨hended, hunread⟩, fun hdone => absurd hdone hopen⟩
        · refine ⟨?_, fun hdone => absurd hdone hopen⟩
          intro hdone
          exact absurd hdone (by simp [hread.2])
      · exact h
    | write n => exact ⟨h.end_read, fun hdone => absurd hdone hopen⟩
    | finish =>
      dsimp only
      split
      · rename_i hend
        exact ⟨h.end_read, fun _ => hend⟩
      · exact h
    | fail => exact ⟨h.end_read, fun hdone => by cases hdone⟩
  · exact h

/-! ## A copy behind another writer -/

/-- The copy of the whole stream, when the destination has been written `xs` before. -/
def behind (xs : List α) (c : Copy α) : Copy α := { c with written := xs ++ c.written }

@[simp] theorem behind_step (xs : List α) (c : Copy α) (s : CopyStep) :
    (c.behind xs).step s = (c.step s).behind xs := by
  unfold step
  by_cases hrunning : c.status = .running
  · rw [if_pos hrunning, if_pos (show (c.behind xs).status = .running from hrunning)]
    cases s with
    | read n =>
      by_cases hread : c.buf = [] ∧ c.readDone = false
      · by_cases hunread : c.unread = [] <;> simp [behind, hread, hunread]
      · simp [behind, hread]
    | write n => simp only [behind, List.append_assoc]
    | finish => by_cases hend : c.readDone = true ∧ c.buf = [] <;> simp [behind, hend]
    | fail => rfl
  · rw [if_neg hrunning, if_neg (show (c.behind xs).status ≠ .running from hrunning)]

@[simp] theorem behind_arrive (xs ys : List α) (c : Copy α) :
    (c.behind xs).arrive ys = (c.arrive ys).behind xs := by
  unfold arrive
  by_cases hended : c.ended = true
  · rw [if_pos hended, if_pos (show (c.behind xs).ended = true from hended)]
  · rw [if_neg hended, if_neg (show (c.behind xs).ended ≠ true from hended)]
    rfl

@[simp] theorem behind_close (xs : List α) (c : Copy α) : (c.behind xs).close = c.close.behind xs :=
  rfl

/-! ## How a copy ends -/

/-- A copy that runs goes on, unless the step completes it or is its failure. A copy that has come
to its end stays there. -/
theorem step_status (c : Copy α) (s : CopyStep) :
    (c.step s).status =
      if c.Finishes s then .done
      else if c.status = .running ∧ s = .fail then .failed
      else c.status := by
  by_cases hrunning : c.status = .running
  · cases s with
    | read n =>
      simp only [step, Finishes, if_pos hrunning]
      split <;> [split; skip] <;> simp
    | write n => simp [step, Finishes, hrunning]
    | finish =>
      simp only [step, Finishes, if_pos hrunning]
      split
      · rename_i hend
        simp [hrunning, hend]
      · rename_i hend
        rw [if_neg (by tauto)]
        simp
    | fail => simp [step, Finishes, hrunning]
  · simp [step, Finishes, hrunning]

theorem step_status_of_ne_fail (c : Copy α) {s : CopyStep} (hs : s ≠ .fail) :
    (c.step s).status = if c.Finishes s then .done else c.status := by
  rw [step_status, if_neg (fun hfail : c.status = .running ∧ s = .fail => hs hfail.2)]

end Copy

end Lib
