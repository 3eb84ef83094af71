import Mathlib.Data.List.AList

/-!
# Hash maps

A hash map without its order: Mathlib's association lists with distinct keys, under the names a
program uses. What is added to Mathlib's lemmas is `retain` and how the number of entries moves,
which is what a store with a capacity is about; and maps whose entries are counts, in which no
entry stands at zero.
-/

set_option autoImplicit false

namespace Lib

universe u v

abbrev Table (α : Type u) (β : Type v) := AList fun _ : α => β

namespace Table

variable {α : Type u} {β : Type v}

def len (t : Table α β) : Nat := t.entries.length

/-- Keep the entries `p` holds of. -/
def retain (p : α → β → Bool) (t : Table α β) : Table α β :=
  ⟨t.entries.filter fun e => p e.1 e.2, t.nodupKeys.sublist List.filter_sublist⟩

theorem len_retain_le (p : α → β → Bool) (t : Table α β) : (retain p t).len ≤ t.len :=
  List.length_filter_le _ _

theorem len_eq_keys (t : Table α β) : t.len = t.keys.length := by
  simp [len, AList.keys, List.keys]

variable [DecidableEq α]

theorem lookup_retain (p : α → β → Bool) (t : Table α β) (a : α) :
    (retain p t).lookup a = (t.lookup a).filter (p a) := by
  apply Option.ext
  intro b
  rw [← Option.mem_def, AList.mem_lookup_iff, ← Option.mem_def, Option.mem_filter_iff,
    AList.mem_lookup_iff]
  exact List.mem_filter

/-- An entry that is not kept makes the table smaller. -/
theorem len_retain_lt {p : α → β → Bool} {t : Table α β} {a : α} {b : β}
    (h : t.lookup a = some b) (hp : p a b = false) : (retain p t).len < t.len := by
  apply List.length_filter_lt_length_iff_exists.mpr
  refine ⟨⟨a, b⟩, AList.mem_lookup_iff.mp h, ?_⟩
  simp [hp]

theorem len_retain_mono {p q : α → β → Bool} {t : Table α β}
    (h : ∀ a b, t.lookup a = some b → p a b = true → q a b = true) :
    (retain p t).len ≤ (retain q t).len := by
  simp only [len, retain, ← List.countP_eq_length_filter]
  apply List.countP_mono_left
  rintro ⟨a, b⟩ hmem hp
  exact h a b (AList.mem_lookup_iff.mpr hmem) hp

theorem len_insert_le (t : Table α β) (a : α) (b : β) : len (t.insert a b) ≤ t.len + 1 := by
  rw [len_eq_keys, len_eq_keys, AList.keys_insert, List.length_cons]
  have := List.length_erase_le (a := a) (l := t.keys)
  omega

theorem len_insert_of_lookup {t : Table α β} {a : α} {b : β} (h : t.lookup a = some b) (b' : β) :
    len (t.insert a b') = t.len := by
  have hmem : a ∈ t.keys := AList.lookup_isSome.mp (by rw [h]; rfl)
  have hpos : 0 < t.keys.length := List.length_pos_of_mem hmem
  rw [len_eq_keys, len_eq_keys, AList.keys_insert, List.length_cons, List.length_erase_of_mem hmem]
  omega

theorem len_erase_le (t : Table α β) (a : α) : len (t.erase a) ≤ t.len := by
  rw [len_eq_keys, len_eq_keys, AList.keys_erase]
  exact List.length_erase_le

/-! ## Maps that count -/

/-- The entries are the numbers `n` that are not zero. A table of this kind has no entry that
counts nothing. -/
def Counts (t : Table α Nat) (n : α → Nat) : Prop :=
  ∀ a, t.lookup a = if n a = 0 then none else some (n a)

theorem counts_empty : Counts (∅ : Table α Nat) fun _ => 0 := fun _ => rfl

namespace Counts

variable {t : Table α Nat} {n n' : α → Nat}

/-- What `entry(a).or_insert(0)` points to: the count of a key, and 0 for one that is not there. -/
theorem getD_lookup (h : Counts t n) (a : α) : (t.lookup a).getD 0 = n a := by
  rw [h a]
  by_cases hn : n a = 0
  · rw [if_pos hn, hn]; rfl
  · rw [if_neg hn]; rfl

theorem insert (h : Counts t n) {a : α} {m : Nat} (hpos : 0 < m) (hself : n' a = m)
    (hne : ∀ b, b ≠ a → n' b = n b) : Counts (t.insert a m) n' := by
  intro b
  by_cases hb : b = a
  · subst hb
    rw [AList.lookup_insert, hself, if_neg (Nat.pos_iff_ne_zero.mp hpos)]
  · rw [AList.lookup_insert_ne hb, h b, hne b hb]

theorem erase (h : Counts t n) {a : α} (hzero : n' a = 0) (hne : ∀ b, b ≠ a → n' b = n b) :
    Counts (t.erase a) n' := by
  intro b
  by_cases hb : b = a
  · subst hb
    rw [AList.lookup_erase, if_pos hzero]
  · rw [AList.lookup_erase_ne hb, h b, hne b hb]

theorem mem_iff (h : Counts t n) (a : α) : a ∈ t ↔ 0 < n a := by
  rw [← AList.lookup_isSome, h a]
  by_cases hn : n a = 0
  · simp [hn]
  · simp [hn, Nat.pos_iff_ne_zero]

end Counts

end Table

end Lib
