import Mathlib.Data.List.Perm.Basic
import LatticeShield.Lib.Lists

/-!
# Handlers that wait once

An event loop with shared state. A handler is started by a message, reads the state and either
answers at once or waits for a call; when the call is done it is resumed, writes the state and
answers. In between the loop starts and resumes others.

The answer is a matter of the call alone, and so of what the handler read when it was started
(`reply`). Messages are numbered as they arrive, so that an answer can be told from another.

`sequential` is the reference: each message handled to its end before the next one. `Tracks` says
that a loop is on its way there, and it is kept by a message that reads, as far as it matters, what
it would read after everything that waits (`Tracks.message`), and by a handler whose write may come
before those of the handlers that arrived earlier (`Tracks.resume`).
-/

set_option autoImplicit false

namespace Lib

universe u

structure Handlers (σ μ π ο : Type u) where
  /-- From the message to the wait: an answer, or what is waited for. -/
  start : σ → μ → ο ⊕ π
  /-- From the wait on. -/
  write : σ → π → σ
  reply : π → ο

namespace Handlers

variable {σ μ π ο : Type u}

/-- One turn of the loop: a message comes, or the `i`-th of the handlers that wait goes on. -/
inductive Turn (μ : Type u) where
  | message (m : μ)
  | resume (i : Nat)

structure Loop (σ π ο : Type u) where
  state : σ
  arrived : Nat
  /-- In the order of arrival. -/
  waiting : List (π × Nat)
  results : List (ο × Nat)

def idle (s : σ) : Loop σ π ο := ⟨s, 0, [], []⟩

def messages (turns : List (Turn μ)) : List μ :=
  turns.filterMap fun
    | .message m => some m
    | .resume _ => none

theorem messages_message (turns : List (Turn μ)) (m : μ) :
    messages (turns ++ [.message m]) = messages turns ++ [m] := by
  simp [messages]

theorem messages_resume (turns : List (Turn μ)) (i : Nat) :
    messages (turns ++ [.resume i]) = messages turns := by
  simp [messages]

variable (H : Handlers σ μ π ο)

def step (l : Loop σ π ο) : Turn μ → Loop σ π ο
  | .message m =>
    match H.start l.state m with
    | .inl out => { l with arrived := l.arrived + 1, results := l.results ++ [(out, l.arrived)] }
    | .inr p => { l with arrived := l.arrived + 1, waiting := l.waiting ++ [(p, l.arrived)] }
  | .resume i =>
    match l.waiting[i]? with
    | none => l
    | some (p, n) =>
      { l with
        state := H.write l.state p
        waiting := l.waiting.eraseIdx i
        results := l.results ++ [(H.reply p, n)] }

def run (s : σ) (turns : List (Turn μ)) : Loop σ π ο := turns.foldl H.step (idle s)

theorem run_snoc (s : σ) (turns : List (Turn μ)) (t : Turn μ) :
    H.run s (turns ++ [t]) = H.step (H.run s turns) t := by
  simp [run]

/-! ## One after the other -/

/-- The rest of a handler, from the state that is there. -/
def finish (s : σ) : ο ⊕ π → σ × ο
  | .inl out => (s, out)
  | .inr p => (H.write s p, H.reply p)

def handle (s : σ) (m : μ) : σ × ο := H.finish s (H.start s m)

def sequential (s : σ) (msgs : List μ) : σ × List ο :=
  msgs.foldl (fun x m => ((H.handle x.1 m).1, x.2 ++ [(H.handle x.1 m).2])) (s, [])

theorem sequential_snoc (s : σ) (msgs : List μ) (m : μ) :
    H.sequential s (msgs ++ [m]) =
      ((H.handle (H.sequential s msgs).1 m).1,
        (H.sequential s msgs).2 ++ [(H.handle (H.sequential s msgs).1 m).2]) := by
  rw [sequential, List.foldl_append]
  rfl

theorem length_sequential (s : σ) (msgs : List μ) :
    (H.sequential s msgs).2.length = msgs.length := by
  induction msgs using List.reverseRecOn with
  | nil => rfl
  | append_singleton msgs m ih =>
    rw [sequential_snoc, List.length_append, ih, List.length_append]
    rfl

/-! ## Where a loop is heading -/

/-- The state once everything that waits has gone on, in the order of arrival. The invariant of
the loop is about this state, not about the present one. -/
def settled (l : Loop σ π ο) : σ := l.waiting.foldl (fun s x => H.write s x.1) l.state

/-- Every answer, those still to come included, each with the number of its message. -/
def answers (l : Loop σ π ο) : List (ο × Nat) :=
  l.results ++ l.waiting.map fun x => (H.reply x.1, x.2)

/-- The loop ends where `msgs`, one after the other, would have led. The answers may come in
another order, so they are compared as a permutation. -/
structure Tracks (s : σ) (msgs : List μ) (l : Loop σ π ο) : Prop where
  arrived : l.arrived = msgs.length
  settled : H.settled l = (H.sequential s msgs).1
  answers : (H.answers l).Perm (H.sequential s msgs).2.zipIdx

theorem tracks_idle (s : σ) : H.Tracks s [] (idle s) := ⟨rfl, rfl, .refl _⟩

theorem settled_message (l : Loop σ π ο) (m : μ) :
    H.settled (H.step l (.message m)) = (H.finish (H.settled l) (H.start l.state m)).1 := by
  cases hstart : H.start l.state m with
  | inl out => simp only [step, hstart, settled, finish]
  | inr p => simp only [step, hstart, settled, finish, List.foldl_append, List.foldl_cons,
      List.foldl_nil]

theorem answers_message (l : Loop σ π ο) (m : μ) :
    (H.answers (H.step l (.message m))).Perm
      (H.answers l ++ [((H.finish (H.settled l) (H.start l.state m)).2, l.arrived)]) := by
  cases hstart : H.start l.state m with
  | inl out =>
    simp only [step, hstart, answers, finish, List.append_assoc]
    exact List.Perm.append_left _ (List.perm_append_comm)
  | inr p =>
    simp only [step, hstart, answers, finish, List.map_append, List.map_cons, List.map_nil,
      List.append_assoc]
    exact .refl _

variable {H} {s : σ} {msgs : List μ} {l : Loop σ π ο}

/-- **A message.** What it read makes no difference to reading after all that waits. Then handling
it now is as good as handling it last. -/
theorem Tracks.message (h : H.Tracks s msgs l) {m : μ}
    (hread : H.finish (H.settled l) (H.start l.state m) = H.handle (H.settled l) m) :
    H.Tracks s (msgs ++ [m]) (H.step l (.message m)) := by
  have harrived : (H.step l (.message m)).arrived = l.arrived + 1 := by
    simp only [step]
    split <;> rfl
  refine ⟨?_, ?_, ?_⟩
  · rw [harrived, h.arrived, List.length_append]
    rfl
  · rw [settled_message, hread, sequential_snoc, h.settled]
  · have hanswers := H.answers_message l m
    rw [hread] at hanswers
    rw [sequential_snoc, List.zipIdx_append, length_sequential, ← h.settled, ← h.arrived,
      Nat.zero_add, List.zipIdx_singleton]
    exact hanswers.trans (h.answers.append_right _)

theorem step_resume {i : Nat} {x : π × Nat} (hi : l.waiting[i]? = some x) :
    H.step l (.resume i) =
      { l with
        state := H.write l.state x.1
        waiting := l.waiting.eraseIdx i
        results := l.results ++ [(H.reply x.1, x.2)] } := by
  simp only [step, hi]

theorem answers_resume (l : Loop σ π ο) (i : Nat) :
    (H.answers (H.step l (.resume i))).Perm (H.answers l) := by
  cases hi : l.waiting[i]? with
  | none => simp only [step, hi]; exact .refl _
  | some x =>
    obtain ⟨l₁, l₂, hsplit, herase⟩ := exists_split_of_getElem? hi
    rw [step_resume hi]
    simp only [answers]
    rw [herase, hsplit]
    simp only [List.map_append, List.map_cons, List.append_assoc, List.singleton_append]
    exact List.Perm.append_left _ List.perm_middle.symm

/-- **A handler that goes on** early enough not to be missed. -/
theorem Tracks.resume (h : H.Tracks s msgs l) {i : Nat}
    (hkeeps : H.settled (H.step l (.resume i)) = H.settled l) :
    H.Tracks s msgs (H.step l (.resume i)) := by
  refine ⟨?_, hkeeps.trans h.settled, (answers_resume l i).trans h.answers⟩
  rw [← h.arrived]
  simp only [step]
  split <;> rfl

/-- A handler may go on if it writes nothing, or those before it do. In either case the order of
the remaining writes is not changed. -/
theorem settled_resume {i : Nat}
    (h : ∀ x, l.waiting[i]? = some x → (∀ s, H.write s x.1 = s) ∨
      ∀ y ∈ l.waiting.take i, ∀ s, H.write s y.1 = s) :
    H.settled (H.step l (.resume i)) = H.settled l := by
  cases hi : l.waiting[i]? with
  | none => simp only [step, hi]
  | some x =>
    have hstep : H.settled (H.step l (.resume i)) =
        (l.waiting.take i ++ l.waiting.drop (i + 1)).foldl (fun s x => H.write s x.1)
          (H.write l.state x.1) := by
      rw [step_resume hi]
      simp only [settled, List.eraseIdx_eq_take_drop_succ]
    rw [hstep, settled]
    conv_rhs => rw [eq_take_cons_drop hi]
    rw [List.foldl_append, List.foldl_append, List.foldl_cons]
    rcases h x hi with hidle | hidle
    · rw [hidle, hidle]
    · have hskip : ∀ s, (l.waiting.take i).foldl (fun s x => H.write s x.1) s = s := fun s =>
        List.foldlRecOn _ _ (motive := fun s' => s' = s) rfl fun s' hs' y hy => by
          rw [hidle y hy, hs']
      rw [hskip, hskip]

/-- At the end every message has its answer, and the state is as it should be. -/
theorem Tracks.finished (h : H.Tracks s msgs l) (hnone : l.waiting = []) :
    l.results.Perm (H.sequential s msgs).2.zipIdx ∧ l.state = (H.sequential s msgs).1 := by
  refine ⟨?_, ?_⟩
  · simpa [Handlers.answers, hnone] using h.answers
  · simpa [Handlers.settled, hnone] using h.settled

/-- Before the end, what has been answered was answered right. -/
theorem Tracks.result (h : H.Tracks s msgs l) {out : ο} {n : Nat} (hmem : (out, n) ∈ l.results) :
    (H.sequential s msgs).2[n]? = some out :=
  List.mem_zipIdx_iff_getElem?.mp (h.answers.subset (List.mem_append_left _ hmem))

end Handlers

end Lib
