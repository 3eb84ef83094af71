import LatticeShield.Lib.Bytes

/-!
# Programs of exact reads

A stream parser written with `read_exact` is a tree: each node asks for a fixed number of
bytes and continues with what it got, each leaf is an answer. `Reader` is that tree, and
`Reader.run` is what it does to the bytes that have arrived: `none` means *still suspended in
some `read_exact`* (or, once the stream has ended, *failed with an unexpected end of file*), and
`some (a, rest)` means the program answered `a` and left `rest` unread.

A suspended reader holds no state but the bytes it has already taken, so `run` on a growing
prefix is also its resumable semantics. Two facts make that precise, and neither mentions what is
being parsed: an answer never depends on bytes after the ones it consumed (`run_append`), and no
shorter prefix answers (`run_eq_none_of_proper`).
-/

set_option autoImplicit false

namespace Lib

universe u

/-- A stream parser as the tree of its `read_exact` calls. What it does next depends only on the
bytes it has got, so it can be run on a whole input and byte by byte. -/
inductive Reader (α : Type u) where
  | pure (a : α)
  | readExact (n : Nat) (k : ByteArr n → Reader α)

namespace Reader

variable {α : Type u}

/-- What the parser does with the bytes that have arrived. `none` is a parser that still waits,
with all of them. -/
def run : Reader α → Bytes → Option (α × Bytes)
  | pure a, bs => some (a, bs)
  | readExact n k, bs =>
    if h : n ≤ bs.length then
      (k ⟨bs.take n, by rw [List.length_take, Nat.min_eq_left h]⟩).run (bs.drop n)
    else none

@[simp] theorem run_pure (a : α) (bs : Bytes) : (pure a).run bs = some (a, bs) := rfl

@[simp] theorem run_readExact_append {n : Nat} (k : ByteArr n → Reader α) (v : ByteArr n)
    (rest : Bytes) : (readExact n k).run (v.toList ++ rest) = (k v).run rest := by
  have hv : v.toList.length = n := v.toList_length
  have htake : (v.toList ++ rest).take n = v.toList := by
    rw [List.take_append_of_le_length (by omega), List.take_of_length_le (by omega)]
  have hdrop : (v.toList ++ rest).drop n = rest := by
    rw [List.drop_append_of_le_length (by omega), List.drop_of_length_le (by omega),
      List.nil_append]
  have hle : n ≤ (v.toList ++ rest).length := by rw [List.length_append]; omega
  rw [run, dif_pos hle]
  congr 1
  congr 1
  exact Subtype.ext htake

/-- A read answers exactly when its bytes are there and the continuation answers. It is the
inversion every parser lemma begins with. -/
theorem run_readExact_eq_some {n : Nat} {k : ByteArr n → Reader α} {bs : Bytes}
    {r : α × Bytes} :
    (readExact n k).run bs = some r ↔
      ∃ (v : ByteArr n) (rest : Bytes), bs = v.toList ++ rest ∧ (k v).run rest = some r := by
  constructor
  · intro h
    rw [run] at h
    split at h
    · rename_i hle
      exact ⟨⟨bs.take n, by simp [hle]⟩, bs.drop n, by simp, h⟩
    · exact absurd h (by simp)
  · rintro ⟨v, rest, rfl, h⟩
    rw [run_readExact_append]
    exact h

/-! ## Resuming -/

/-- More bytes behind an answer stay unread. -/
theorem run_append {r : Reader α} {bs more : Bytes} {a : α} {rest : Bytes}
    (h : r.run bs = some (a, rest)) : r.run (bs ++ more) = some (a, rest ++ more) := by
  induction r generalizing bs with
  | pure b =>
    simp only [run_pure, Option.some.injEq, Prod.mk.injEq] at h ⊢
    exact ⟨h.1, by rw [h.2]⟩
  | readExact n k ih =>
    obtain ⟨v, tail, rfl, hk⟩ := run_readExact_eq_some.mp h
    rw [List.append_assoc, run_readExact_append]
    exact ih v hk

/-- Before its last byte arrives the parser is suspended. It has decided nothing, and another byte
can be fed. -/
theorem run_eq_none_of_proper {r : Reader α} {pre post : Bytes} {a : α}
    (h : r.run (pre ++ post) = some (a, [])) (hpost : post ≠ []) : r.run pre = none := by
  cases hp : r.run pre with
  | none => rfl
  | some x =>
    obtain ⟨b, rest⟩ := x
    rw [run_append hp, Option.some.injEq, Prod.mk.injEq] at h
    exact absurd (List.append_eq_nil_iff.mp h.2).2 hpost

/-- A suspended parser has not yet taken the whole of what it will answer to. -/
theorem length_lt_of_run_eq_none {r : Reader α} {taken more used rest : Bytes} {a : α}
    (hused : r.run used = some (a, [])) (hsusp : r.run taken = none)
    (h : taken ++ more = used ++ rest) : taken.length < used.length := by
  by_contra hlen
  obtain ⟨t, rfl⟩ := List.prefix_of_prefix_length_le (List.prefix_append used rest)
    ⟨more, h⟩ (Nat.le_of_not_lt hlen)
  rw [run_append hused] at hsusp
  exact absurd hsusp (by simp)

/-- One more byte of a stream that starts with `used`: the parser has now taken exactly `used`, or
it is still suspended. -/
theorem run_feed {r : Reader α} {taken more used rest : Bytes} {b : UInt8} {a : α}
    (hused : r.run used = some (a, [])) (hsusp : r.run taken = none)
    (h : taken ++ b :: more = used ++ rest) :
    (taken ++ [b] = used ∧ more = rest) ∨ r.run (taken ++ [b]) = none := by
  have hlt := length_lt_of_run_eq_none hused hsusp h
  have h' : (taken ++ [b]) ++ more = used ++ rest := by simpa using h
  obtain ⟨post, rfl⟩ := List.prefix_of_prefix_length_le ⟨more, h'⟩ (List.prefix_append used rest)
    (by rw [List.length_append, List.length_singleton]; exact hlt)
  by_cases hpost : post = []
  · subst hpost
    exact Or.inl ⟨by simp, by simpa using h'⟩
  · exact Or.inr (run_eq_none_of_proper hused hpost)

end Reader

end Lib
