import LatticeShield.Lib.Reader

/-!
# A byte stream between a writer of frames and a parser

One direction of a connection: whole frames go in at one end, single bytes come out at the other,
nothing is lost, added or reordered. `frames` is everything ever written, so what is unread is
what lies behind the first `consumed` bytes. A parser that is dropped in the middle of a frame
does not put bytes back, and the stream does not know about it; what it does record is the offset
at which each parse began (`starts`).

`Aligned` is the state of a stream whose parser has never been dropped that way: the frames
split into those parsed and those to come, and the bytes the parser holds are where the second
group begins. `Aligned.feed` is the one rule about parsing: a byte either completes the first
pending frame, or leaves the parser suspended inside it.
-/

set_option autoImplicit false

namespace Lib

universe u

structure Wire where
  frames : List Bytes
  consumed : Nat
  /-- The offset of the first byte of every parse. -/
  starts : List Nat
deriving DecidableEq

namespace Wire

def empty : Wire := ⟨[], 0, []⟩

def unread (w : Wire) : Bytes := w.frames.flatten.drop w.consumed

def write (w : Wire) (out : List Bytes) : Wire := { w with frames := w.frames ++ out }

@[simp] theorem write_nil (w : Wire) : w.write [] = w := by simp [write]

theorem write_append (w : Wire) (out more : List Bytes) :
    w.write (out ++ more) = (w.write out).write more := by simp [write]

/-- One byte leaves the stream. `fresh` says that it is the first one of a parse, and then the
offset is noted. -/
def advance (w : Wire) (fresh : Bool) : Wire where
  frames := w.frames
  consumed := w.consumed + 1
  starts := if fresh then w.starts ++ [w.consumed] else w.starts

/-- The offsets where a frame begins, and the end of the stream. -/
def boundaries (w : Wire) : List Nat :=
  (List.range (w.frames.length + 1)).map fun k => (w.frames.take k).flatten.length

theorem mem_boundaries {w : Wire} {o : Nat} :
    o ∈ w.boundaries ↔ ∃ k ≤ w.frames.length, (w.frames.take k).flatten.length = o := by
  simp only [boundaries, List.mem_map, List.mem_range, Nat.lt_succ_iff]

theorem mem_boundaries_of_append {w : Wire} {done pending : List Bytes}
    (h : w.frames = done ++ pending) : done.flatten.length ∈ w.boundaries :=
  mem_boundaries.mpr ⟨done.length, by simp [h], by simp [h]⟩

theorem boundaries_subset_write (w : Wire) (out : List Bytes) :
    w.boundaries ⊆ (w.write out).boundaries := by
  intro o ho
  obtain ⟨k, hk, rfl⟩ := mem_boundaries.mp ho
  refine mem_boundaries.mpr ⟨k, by simp [write]; omega, ?_⟩
  simp only [write]
  rw [List.take_append_of_le_length hk]

/-! ## Parsing in step with the frames -/

/-- Every parse so far began at a frame. The reader does not know where frames begin; it can only
keep in step. -/
def StartsAligned (w : Wire) : Prop := ∀ o ∈ w.starts, o ∈ w.boundaries

theorem StartsAligned.write {w : Wire} (h : w.StartsAligned) (out : List Bytes) :
    (w.write out).StartsAligned :=
  fun o ho => boundaries_subset_write w out (h o ho)

/-- The parser has been through `done` and holds the first bytes of `pending`. An empty `pending`
is a reader between two frames that waits. -/
structure Aligned (w : Wire) (taken : Bytes) (done pending : List Bytes) : Prop where
  frames_eq : w.frames = done ++ pending
  consumed_eq : w.consumed = done.flatten.length + taken.length
  unread_eq : taken ++ w.unread = pending.flatten
  starts : w.StartsAligned

theorem aligned_empty : Aligned empty [] [] [] where
  frames_eq := rfl
  consumed_eq := rfl
  unread_eq := rfl
  starts := fun _ ho => absurd ho (by simp [empty])

namespace Aligned

variable {w : Wire} {taken : Bytes} {done pending : List Bytes}

theorem write (h : Aligned w taken done pending) (out : List Bytes) :
    Aligned (w.write out) taken done (pending ++ out) where
  frames_eq := by simp [Wire.write, h.frames_eq]
  consumed_eq := h.consumed_eq
  unread_eq := by
    have hle : w.consumed ≤ w.frames.flatten.length := by
      have hlen := congrArg List.length h.unread_eq
      rw [List.length_append] at hlen
      rw [h.consumed_eq, h.frames_eq, List.flatten_append, List.length_append]
      omega
    have hun : (w.write out).unread = w.unread ++ out.flatten := by
      simp only [unread, Wire.write, List.flatten_append]
      rw [List.drop_append_of_le_length hle]
    rw [hun, ← List.append_assoc, h.unread_eq, List.flatten_append]
  starts := h.starts.write out

theorem advance (h : Aligned w taken done pending) {b : UInt8} {more : Bytes}
    (hb : w.unread = b :: more) :
    Aligned (w.advance (decide (taken = []))) (taken ++ [b]) done pending where
  frames_eq := h.frames_eq
  consumed_eq := by simp [Wire.advance, h.consumed_eq, Nat.add_assoc]
  unread_eq := by
    have hun : (w.advance (decide (taken = []))).unread = more := by
      have hdrop : w.frames.flatten.drop w.consumed = b :: more := hb
      simp only [unread, Wire.advance]
      rw [← List.drop_drop, hdrop, List.drop_one, List.tail_cons]
    rw [hun, ← h.unread_eq, hb, List.append_assoc, List.singleton_append]
  starts := by
    intro o ho
    by_cases ht : taken = []
    · -- the parse that begins here begins behind the frames already parsed
      subst ht
      rcases List.mem_append.mp (show o ∈ w.starts ++ [w.consumed] from by
        simpa [Wire.advance] using ho) with ho | ho
      · exact h.starts o ho
      · rw [List.mem_singleton.mp ho, h.consumed_eq, List.length_nil, Nat.add_zero]
        exact mem_boundaries_of_append h.frames_eq
    · exact h.starts o (by simpa [Wire.advance, ht] using ho)

theorem finish {f : Bytes} (h : Aligned w f done (f :: pending)) :
    Aligned w [] (done ++ [f]) pending where
  frames_eq := by rw [h.frames_eq, List.append_assoc, List.singleton_append]
  consumed_eq := by simp [h.consumed_eq]
  unread_eq := by
    have hun := h.unread_eq
    rw [List.flatten_cons] at hun
    exact List.append_cancel_left hun
  starts := h.starts

/-- **One byte of an aligned stream.** It completes the first pending frame, or the parser waits
for more of that frame. -/
theorem feed {α : Type u} {r : Reader α} {f : Bytes} {a : α} {b : UInt8} {more : Bytes}
    (h : Aligned w taken done (f :: pending)) (hf : r.run f = some (a, []))
    (hsusp : r.run taken = none) (hb : w.unread = b :: more) :
    (r.run (taken ++ [b]) = some (a, []) ∧
      Aligned (w.advance (decide (taken = []))) [] (done ++ [f]) pending) ∨
    (r.run (taken ++ [b]) = none ∧
      Aligned (w.advance (decide (taken = []))) (taken ++ [b]) done (f :: pending)) := by
  have hadv := h.advance hb
  have hcut : taken ++ b :: more = f ++ pending.flatten := by
    rw [← hb, h.unread_eq, List.flatten_cons]
  rcases Reader.run_feed hf hsusp hcut with ⟨hdone, -⟩ | hnone
  · rw [hdone] at hadv ⊢
    exact Or.inl ⟨hf, hadv.finish⟩
  · exact Or.inr ⟨hnone, hadv⟩

/-- With nothing pending nothing is unread, and the parser holds nothing: a boundary between two
frames. -/
theorem nil_iff (h : Aligned w taken done []) : taken = [] ∧ w.unread = [] := by
  simpa using h.unread_eq

/-- A suspended parser waits for bytes of the first pending frame. -/
theorem length_taken_lt {α : Type u} {r : Reader α} {f : Bytes} {a : α}
    (h : Aligned w taken done (f :: pending)) (hf : r.run f = some (a, []))
    (hsusp : r.run taken = none) : taken.length < f.length :=
  Reader.length_lt_of_run_eq_none hf hsusp (by rw [h.unread_eq, List.flatten_cons])

theorem unread_ne_nil {α : Type u} {r : Reader α} {f : Bytes} {a : α}
    (h : Aligned w taken done (f :: pending)) (hf : r.run f = some (a, []))
    (hsusp : r.run taken = none) : w.unread ≠ [] := by
  intro hun
  have hlt := h.length_taken_lt hf hsusp
  have hlen := congrArg List.length h.unread_eq
  rw [hun, List.append_nil, List.flatten_cons, List.length_append] at hlen
  omega

end Aligned

/-! ## Delivery -/

/-- No more than the first `n` frames have been read to their last byte, whatever else has been
written. -/
structure Delivered (w : Wire) (n : Nat) : Prop where
  consumed_le : w.consumed ≤ w.frames.flatten.length
  whole : ∀ k ≤ w.frames.length, (w.frames.take k).flatten.length ≤ w.consumed → k ≤ n

theorem length_flatten_take_succ_le {l : List Bytes} {done : List Bytes} {f : Bytes}
    {rest : List Bytes} (hl : l = done ++ f :: rest) {k : Nat} (hk : done.length < k) :
    done.flatten.length + f.length ≤ (l.take k).flatten.length := by
  have hsplit : l = (done ++ [f]) ++ rest := by rw [hl, List.append_assoc, List.singleton_append]
  rw [hsplit, List.take_append, List.take_of_length_le (by simp; omega)]
  simp only [List.flatten_append, List.length_append, List.flatten_singleton]
  omega

theorem Delivered.write {w : Wire} {n : Nat} (h : Delivered w n) {out : List Bytes}
    (hout : [] ∉ out) : Delivered (w.write out) n where
  consumed_le := by
    have := h.consumed_le
    simp only [Wire.write, List.flatten_append, List.length_append]
    omega
  whole := by
    intro k hk hlen
    by_cases hold : k ≤ w.frames.length
    · refine h.whole k hold ?_
      simpa only [Wire.write, List.take_append_of_le_length hold] using hlen
    · -- a new frame has at least one byte, and none of its bytes has been consumed
      cases out with
      | nil => exact absurd (by simpa [Wire.write] using hk) hold
      | cons f fs =>
        have hle := length_flatten_take_succ_le (l := (w.write (f :: fs)).frames) rfl
          (Nat.lt_of_not_le hold)
        have hpos : 0 < f.length :=
          List.length_pos_iff.mpr fun hf => hout (hf ▸ List.mem_cons_self)
        have hcons : (w.write (f :: fs)).consumed = w.consumed := rfl
        have := h.consumed_le
        omega

/-- A parser that is suspended, with `done` behind it, has had no more than `done` delivered. -/
theorem Aligned.delivered {w : Wire} {taken : Bytes} {done pending : List Bytes} {α : Type u}
    {r : Reader α} (h : Aligned w taken done pending)
    (hfirst : ∀ f ∈ pending.head?, ∃ a, r.run f = some (a, [])) (hsusp : r.run taken = none) :
    Delivered w done.length where
  consumed_le := by
    have hlen := congrArg List.length h.unread_eq
    rw [List.length_append] at hlen
    rw [h.consumed_eq, h.frames_eq, List.flatten_append, List.length_append]
    omega
  whole := by
    intro k hk hlen
    by_contra hgt
    cases pending with
    | nil => exact hgt (by simpa [h.frames_eq] using hk)
    | cons f fs =>
      obtain ⟨a, hf⟩ := hfirst f rfl
      have hlt := h.length_taken_lt hf hsusp
      have hle := length_flatten_take_succ_le h.frames_eq (Nat.lt_of_not_le hgt)
      have hcons := h.consumed_eq
      omega

end Wire

end Lib
