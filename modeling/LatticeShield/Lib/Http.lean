import LatticeShield.Lib.Bytes

/-!
# What a client reads of an HTTP response

The head ends at the first blank line, the body is what comes behind it, and `Content-Length` says
how long that is.
-/

set_option autoImplicit false

namespace Lib.Http

def blankLine : Bytes := [13, 10, 13, 10]

/-- The head of a message and what is behind the blank line. Without a blank line there is no head
yet. -/
def splitHead : Bytes → Option (Bytes × Bytes)
  | [] => none
  | b :: rest =>
    if blankLine.isPrefixOf (b :: rest) then some ([], (b :: rest).drop 4)
    else (splitHead rest).map fun (head, body) => (b :: head, body)

/-- The lines of a head; `line` is the beginning of the first. -/
def linesFrom (line : Bytes) : Bytes → List Bytes
  | [] => [line]
  | 13 :: 10 :: rest => line :: linesFrom [] rest
  | b :: rest => linesFrom (line ++ [b]) rest

/-- A number in decimal. -/
def decimal (bs : Bytes) : Option Nat :=
  if !bs.isEmpty && bs.all (fun b => 48 ≤ b && b ≤ 57) then
    some (bs.foldl (fun n b => n * 10 + (b.toNat - 48)) 0)
  else none

/-- `Content-Length: `. -/
def contentLengthName : Bytes :=
  [67, 111, 110, 116, 101, 110, 116, 45, 76, 101, 110, 103, 116, 104, 58, 32]

def contentLength (head : Bytes) : Option Nat :=
  (linesFrom [] head).findSome? fun line =>
    if contentLengthName.isPrefixOf line then decimal (line.drop contentLengthName.length)
    else none

theorem length_of_splitHead {bs head body : Bytes} (h : splitHead bs = some (head, body)) :
    4 ≤ bs.length := by
  induction bs generalizing head body with
  | nil => cases h
  | cons b rest ih =>
    rw [splitHead] at h
    split at h
    · rename_i hblank
      exact (List.isPrefixOf_iff_prefix.mp hblank).length_le
    · obtain ⟨⟨head', body'⟩, hrest, -⟩ := Option.map_eq_some_iff.mp h
      exact (ih hrest).trans (Nat.le_succ rest.length)

/-- What comes behind a message with a blank line belongs to its body. -/
theorem splitHead_append {bs head body : Bytes} (h : splitHead bs = some (head, body))
    (more : Bytes) : splitHead (bs ++ more) = some (head, body ++ more) := by
  induction bs generalizing head body with
  | nil => cases h
  | cons b rest ih =>
    have hlength : 4 ≤ (b :: rest).length := length_of_splitHead h
    have hblank : blankLine.isPrefixOf (b :: (rest ++ more)) =
        blankLine.isPrefixOf (b :: rest) := by
      rw [Bool.eq_iff_iff, List.isPrefixOf_iff_prefix, List.isPrefixOf_iff_prefix,
        ← List.cons_append]
      constructor
      · intro hbegins
        exact List.prefix_of_prefix_length_le hbegins (List.prefix_append _ _) hlength
      · intro hbegins
        exact hbegins.trans (List.prefix_append _ _)
    rw [splitHead] at h
    rw [List.cons_append, splitHead, hblank]
    split at h
    · rename_i hfound
      obtain ⟨rfl, rfl⟩ := Prod.mk.inj (Option.some.inj h)
      rw [if_pos hfound, ← List.cons_append, List.drop_append_of_le_length hlength]
    · rename_i hfound
      obtain ⟨⟨head', body'⟩, hrest, hpair⟩ := Option.map_eq_some_iff.mp h
      obtain ⟨rfl, rfl⟩ := Prod.mk.inj hpair
      rw [if_neg hfound, ih hrest]
      rfl

end Lib.Http
