import LatticeShield.Bridge.TlsListener

/-!
# Where the reads end, and what becomes of a head

`read_http_head_inplace` looks for the end of the head in all it has, but only after a read. A
head that ends within 8 KiB is always found, whatever the reads: nothing gives up before it. Where
no head ends within the 12287 bytes that can be there when it gives up (8191, and one read more),
it always gives up, or meets the end of the stream. In between, the reads decide: one that stops
at 8192 bytes is told the head is too large, and one that goes past the end of the head is not.
-/

set_option autoImplicit false

namespace LatticeShield.Bridge

open Lib

/-! ## Looking for the end of the head -/

theorem hasEndOfHead_iff (buf : Bytes) : hasEndOfHead buf = true ↔ endOfHead <:+: buf := by
  simp only [hasEndOfHead, windows, List.any_map, List.any_eq_true, List.mem_range,
    Function.comp_apply, beq_iff_eq]
  constructor
  · rintro ⟨i, -, hwindow⟩
    rw [← hwindow]
    exact (List.take_prefix 4 _).isInfix.trans (List.drop_suffix i buf).isInfix
  · rintro ⟨before, behind, rfl⟩
    refine ⟨before.length, ?_, ?_⟩
    · simp only [List.length_append, endOfHead, List.length_cons, List.length_nil]
      omega
    · rw [List.append_assoc, List.drop_left]
      rfl

/-- What has been found stays found: more bytes behind it do not hide an end of the head. This is
why only the bytes up to the limit matter, and not the reads in which they come. -/
theorem hasEndOfHead_mono {buf more : Bytes} (hbegins : buf <+: more)
    (h : hasEndOfHead buf = true) : hasEndOfHead more = true := by
  rw [hasEndOfHead_iff] at h ⊢
  exact h.trans hbegins.isInfix

/-! ## Reads that cut a stream -/

/-- The reads of a stream: none is empty, none is larger than its buffer. Every such list of
pieces is what a socket may return, whatever the client has written at a time. -/
structure Cuts (stream : Bytes) (chunks : List Bytes) : Prop where
  flatten_eq : chunks.flatten = stream
  ne_nil : ∀ chunk ∈ chunks, chunk ≠ []
  length_le : ∀ chunk ∈ chunks, chunk.length ≤ headChunkLen

/-- The head of a stream that comes in these pieces, one a `read`. None of the reads fails. -/
def headOf (chunks : List Bytes) : HeadResult := readHttpHead [] (chunks.map .ok)

inductive HeadKind where
  | complete
  | tooLarge
  | eof
deriving DecidableEq

def HeadResult.kind : HeadResult → HeadKind
  | .complete _ => .complete
  | .tooLarge => .tooLarge
  | .eof => .eof

/-- One read of a chunk, while the limit has not been reached. The end of the head is looked for
before the length is compared. -/
theorem readHttpHead_chunk {buf chunk : Bytes} (hbuf : buf.length < maxHeadBytes)
    (hne : chunk ≠ []) (hlen : chunk.length ≤ headChunkLen) (reads : List SocketRead) :
    readHttpHead buf (.ok chunk :: reads) =
      if hasEndOfHead (buf ++ chunk) then .complete (buf ++ chunk)
      else if maxHeadBytes ≤ (buf ++ chunk).length then .tooLarge
      else readHttpHead (buf ++ chunk) reads := by
  have hinto : (SocketRead.ok chunk).into headChunkLen = .ok chunk := by
    rw [SocketRead.into, List.take_of_length_le hlen]
  rw [readHttpHead, if_neg (by omega), hinto]
  obtain ⟨b, bs, rfl⟩ := List.exists_cons_of_ne_nil hne
  by_cases hfull : maxHeadBytes ≤ (buf ++ b :: bs).length
  · simp only [if_pos hfull]
  · simp only [if_neg hfull]

/-- A head that ends within the limit is found, however it is cut: the search goes over all bytes
read so far. -/
theorem readHttpHead_complete {buf : Bytes} {chunks : List Bytes}
    (hbuf : buf.length < maxHeadBytes) (hnone : hasEndOfHead buf = false)
    (hne : ∀ chunk ∈ chunks, chunk ≠ []) (hlen : ∀ chunk ∈ chunks, chunk.length ≤ headChunkLen)
    (hend : hasEndOfHead ((buf ++ chunks.flatten).take maxHeadBytes) = true) :
    (readHttpHead buf (chunks.map .ok)).kind = .complete := by
  induction chunks generalizing buf with
  | nil =>
    rw [List.flatten_nil, List.append_nil, List.take_of_length_le hbuf.le, hnone] at hend
    cases hend
  | cons chunk chunks ih =>
    rw [List.forall_mem_cons] at hne hlen
    rw [List.flatten_cons, ← List.append_assoc] at hend
    rw [List.map_cons, readHttpHead_chunk hbuf hne.1 hlen.1]
    by_cases hfound : hasEndOfHead (buf ++ chunk) = true
    · rw [if_pos hfound]
      rfl
    · -- a read that reaches the limit has the whole head
      have hsmall : ¬ maxHeadBytes ≤ (buf ++ chunk).length := by
        intro hfull
        rw [List.take_append_of_le_length hfull] at hend
        exact hfound (hasEndOfHead_mono (List.take_prefix _ _) hend)
      rw [if_neg hfound, if_neg hsmall]
      exact ih (by omega) (by simpa using hfound) hne.2 hlen.2 hend

/-- The most bytes there can be when the limit is noticed: one byte below it, and a whole read
more. The loop looks for the end of the head before it looks at the limit. -/
def maxReadBytes : Nat := maxHeadBytes - 1 + headChunkLen

/-- Where no head ends among the bytes there can be, none is found. These are the limit's and
those one more read may bring. -/
theorem readHttpHead_incomplete {buf : Bytes} {chunks : List Bytes}
    (hbuf : buf.length < maxHeadBytes) (hne : ∀ chunk ∈ chunks, chunk ≠ [])
    (hlen : ∀ chunk ∈ chunks, chunk.length ≤ headChunkLen)
    (hend : hasEndOfHead ((buf ++ chunks.flatten).take maxReadBytes) = false) :
    readHttpHead buf (chunks.map .ok) =
      if maxHeadBytes ≤ (buf ++ chunks.flatten).length then .tooLarge else .eof := by
  induction chunks generalizing buf with
  | nil =>
    rw [List.flatten_nil, List.append_nil]
    rfl
  | cons chunk chunks ih =>
    rw [List.forall_mem_cons] at hne hlen
    rw [List.flatten_cons, ← List.append_assoc] at hend ⊢
    have hroom : (buf ++ chunk).length ≤ maxReadBytes := by
      rw [List.length_append, maxReadBytes]
      omega
    have hnone : ¬ hasEndOfHead (buf ++ chunk) = true := by
      intro hfound
      have hbegins : buf ++ chunk <+: (buf ++ chunk ++ chunks.flatten).take maxReadBytes :=
        List.prefix_take_iff.mpr ⟨List.prefix_append _ _, hroom⟩
      rw [hasEndOfHead_mono hbegins hfound] at hend
      cases hend
    rw [List.map_cons, readHttpHead_chunk hbuf hne.1 hlen.1, if_neg hnone]
    by_cases hfull : maxHeadBytes ≤ (buf ++ chunk).length
    · have htotal : maxHeadBytes ≤ (buf ++ chunk ++ chunks.flatten).length := by
        rw [List.length_append]
        omega
      rw [if_pos hfull, if_pos htotal]
    · rw [if_neg hfull]
      exact ih (by omega) hne.2 hlen.2 hend

/-! ## A head that ends in between -/

/-- Some first reads, and the rest byte by byte. -/
theorem cuts_bytewise {parts : List Bytes} (rest : Bytes) (hne : ∀ chunk ∈ parts, chunk ≠ [])
    (hlen : ∀ chunk ∈ parts, chunk.length ≤ headChunkLen) :
    Cuts (parts.flatten ++ rest) (parts ++ rest.map fun b => [b]) := by
  have hrest : ∀ chunk ∈ rest.map fun b => [b], chunk ≠ [] ∧ chunk.length ≤ headChunkLen := by
    intro chunk hmem
    obtain ⟨b, -, rfl⟩ := List.mem_map.mp hmem
    exact ⟨by simp, by simp [headChunkLen]⟩
  constructor
  · rw [List.flatten_append]
    congr 1
    induction rest with
    | nil => rfl
    | cons b rest ih => simp_all
  · exact List.forall_mem_append.mpr ⟨hne, fun chunk hmem => (hrest chunk hmem).1⟩
  · exact List.forall_mem_append.mpr ⟨hlen, fun chunk hmem => (hrest chunk hmem).2⟩

section Late

variable {stream : Bytes} (hnone : hasEndOfHead (stream.take maxHeadBytes) = false)
  (hlong : maxHeadBytes < stream.length)

include hnone in
theorem not_hasEndOfHead_take {n : Nat} (hn : n ≤ maxHeadBytes) :
    ¬ hasEndOfHead (stream.take n) = true := by
  intro hfound
  have hbegins : stream.take n <+: stream.take maxHeadBytes := List.take_prefix_take_left hn
  rw [hasEndOfHead_mono hbegins hfound] at hnone
  cases hnone

def piece (stream : Bytes) (i j : Nat) : Bytes := (stream.drop i).take (j - i)

theorem take_append_piece (stream : Bytes) {i j : Nat} (h : i ≤ j) :
    stream.take i ++ piece stream i j = stream.take j := by
  rw [piece, ← List.take_add, Nat.add_sub_cancel' h]

theorem length_piece_le (stream : Bytes) (i j : Nat) : (piece stream i j).length ≤ j - i :=
  List.length_take_le _ _

theorem piece_ne_nil {stream : Bytes} {i j : Nat} (h : i < j) (hlong : i < stream.length) :
    piece stream i j ≠ [] := by
  intro hnil
  have hlength := congrArg List.length hnil
  rw [piece, List.length_take, List.length_drop, List.length_nil] at hlength
  omega

include hlong in
theorem readHttpHead_piece {i j : Nat} (hi : i < maxHeadBytes) (hij : i < j)
    (hchunk : j - i ≤ headChunkLen) (reads : List SocketRead) :
    readHttpHead (stream.take i) (.ok (piece stream i j) :: reads) =
      if hasEndOfHead (stream.take j) then .complete (stream.take j)
      else if maxHeadBytes ≤ (stream.take j).length then .tooLarge
      else readHttpHead (stream.take j) reads := by
  have hbuf : (stream.take i).length < maxHeadBytes :=
    (List.length_take_le i stream).trans_lt hi
  rw [readHttpHead_chunk hbuf (piece_ne_nil hij (hi.trans hlong))
    ((length_piece_le stream i j).trans hchunk), take_append_piece stream hij.le]

include hnone hlong in
theorem readHttpHead_below {i j : Nat} (hij : i < j) (hj : j < maxHeadBytes)
    (hchunk : j - i ≤ headChunkLen) (reads : List SocketRead) :
    readHttpHead (stream.take i) (.ok (piece stream i j) :: reads) =
      readHttpHead (stream.take j) reads := by
  have hlength : ¬ maxHeadBytes ≤ (stream.take j).length :=
    Nat.not_le.mpr ((List.length_take_le j stream).trans_lt hj)
  rw [readHttpHead_piece hlong (hij.trans hj) hij hchunk,
    if_neg (not_hasEndOfHead_take hnone hj.le), if_neg hlength]

include hnone hlong in
/-- Reads that stop at the limit are told that the head is too large. Together with the next lemma
this makes the answer depend on the cut. -/
theorem readHttpHead_stops (reads : List SocketRead) :
    readHttpHead [] (.ok (piece stream 0 headChunkLen) ::
      .ok (piece stream headChunkLen maxHeadBytes) :: reads) = .tooLarge := by
  have hfirst : readHttpHead (stream.take 0) _ = _ :=
    readHttpHead_below hnone hlong (i := 0) (j := headChunkLen) (by decide) (by decide) (by decide)
      (.ok (piece stream headChunkLen maxHeadBytes) :: reads)
  have hlength : maxHeadBytes ≤ (stream.take maxHeadBytes).length := by
    rw [List.length_take_of_le hlong.le]
  rw [List.take_zero] at hfirst
  rw [hfirst, readHttpHead_piece hlong (by decide) (by decide) (by decide),
    if_neg (not_hasEndOfHead_take hnone le_rfl), if_pos hlength]

include hnone hlong in
/-- Reads that go from just below the limit to the end of the head find it. -/
theorem readHttpHead_passes (hend : hasEndOfHead (stream.take maxReadBytes) = true)
    (reads : List SocketRead) :
    readHttpHead [] (.ok (piece stream 0 headChunkLen) ::
      .ok (piece stream headChunkLen (maxHeadBytes - 1)) ::
      .ok (piece stream (maxHeadBytes - 1) maxReadBytes) :: reads) =
        .complete (stream.take maxReadBytes) := by
  have hfirst : readHttpHead (stream.take 0) _ = _ :=
    readHttpHead_below hnone hlong (i := 0) (j := headChunkLen) (by decide) (by decide) (by decide)
      (.ok (piece stream headChunkLen (maxHeadBytes - 1)) ::
        .ok (piece stream (maxHeadBytes - 1) maxReadBytes) :: reads)
  rw [List.take_zero] at hfirst
  rw [hfirst, readHttpHead_below hnone hlong (by decide) (by decide) (by decide),
    readHttpHead_piece hlong (by decide) (by decide) (by decide), if_pos hend]

end Late

theorem cuts_pieces {stream : Bytes} {parts : List Bytes} {n : Nat}
    (hparts : parts.flatten = stream.take n)
    (h : ∀ chunk ∈ parts, chunk ≠ [] ∧ chunk.length ≤ headChunkLen) :
    Cuts stream (parts ++ (stream.drop n).map fun b => [b]) := by
  have hcuts := cuts_bytewise (stream.drop n) (fun chunk hmem => (h chunk hmem).1)
    (fun chunk hmem => (h chunk hmem).2)
  rwa [hparts, List.take_append_drop] at hcuts

/-- A head that ends behind the limit and can still be there when the limit is noticed: two ways
to cut the stream are answered differently. -/
theorem kinds_differ {stream : Bytes} (hnone : hasEndOfHead (stream.take maxHeadBytes) = false)
    (hend : hasEndOfHead (stream.take maxReadBytes) = true) :
    ∃ chunks chunks', Cuts stream chunks ∧ Cuts stream chunks' ∧
      (headOf chunks).kind = .tooLarge ∧ (headOf chunks').kind = .complete := by
  have hlong : maxHeadBytes < stream.length := by
    by_contra hshort
    have hle : stream.length ≤ maxHeadBytes := Nat.le_of_not_lt hshort
    rw [List.take_of_length_le hle] at hnone
    rw [List.take_of_length_le (hle.trans (by decide)), hnone] at hend
    cases hend
  have hpiece : ∀ {i j : Nat}, i < j → j - i ≤ headChunkLen → i < maxHeadBytes →
      piece stream i j ≠ [] ∧ (piece stream i j).length ≤ headChunkLen := by
    intro i j hij hchunk hi
    exact ⟨piece_ne_nil hij (hi.trans hlong), (length_piece_le stream i j).trans hchunk⟩
  have hzero : piece stream 0 headChunkLen = stream.take headChunkLen := rfl
  -- The two cuts differ in one border. A chunk that ends exactly at the limit is refused before the
  -- next read; a chunk that ends one byte earlier leaves room for a read that brings the end of the
  -- head.
  refine ⟨[piece stream 0 headChunkLen, piece stream headChunkLen maxHeadBytes] ++
      (stream.drop maxHeadBytes).map fun b => [b],
    [piece stream 0 headChunkLen, piece stream headChunkLen (maxHeadBytes - 1),
      piece stream (maxHeadBytes - 1) maxReadBytes] ++
      (stream.drop maxReadBytes).map fun b => [b], ?_, ?_, ?_, ?_⟩
  · apply cuts_pieces
    · rw [List.flatten_cons, List.flatten_cons, List.flatten_nil, List.append_nil, hzero,
        take_append_piece stream (by decide)]
    · intro chunk hmem
      rcases List.mem_pair.mp hmem with rfl | rfl
      · exact hpiece (by decide) (by decide) (by decide)
      · exact hpiece (by decide) (by decide) (by decide)
  · apply cuts_pieces
    · rw [List.flatten_cons, List.flatten_cons, List.flatten_cons, List.flatten_nil,
        List.append_nil, hzero, ← List.append_assoc, take_append_piece stream (by decide),
        take_append_piece stream (by decide)]
    · intro chunk hmem
      rcases List.mem_cons.mp hmem with rfl | hmem
      · exact hpiece (by decide) (by decide) (by decide)
      · rcases List.mem_pair.mp hmem with rfl | rfl
        · exact hpiece (by decide) (by decide) (by decide)
        · exact hpiece (by decide) (by decide) (by decide)
  · rw [headOf, List.map_append]
    exact congrArg HeadResult.kind (readHttpHead_stops hnone hlong _)
  · rw [headOf, List.map_append]
    exact congrArg HeadResult.kind (readHttpHead_passes hnone hlong hend _)

/-! ## When the cuts do not matter -/

/-- **How a head is cut does not matter, unless it ends between the two limits.** Any two ways to
cut a stream are answered alike, if and only if its head ends within `MAX_HEAD_BYTES`, or has not
ended by the most bytes that a loop can have read when it gives up. -/
theorem read_http_head_segmentation_iff (stream : Bytes) :
    (∀ chunks chunks', Cuts stream chunks → Cuts stream chunks' →
      (headOf chunks).kind = (headOf chunks').kind) ↔
    hasEndOfHead (stream.take maxHeadBytes) = true ∨
      hasEndOfHead (stream.take maxReadBytes) = false := by
  constructor
  · intro h
    by_contra hbetween
    rw [not_or, Bool.not_eq_true, Bool.not_eq_false] at hbetween
    obtain ⟨chunks, chunks', hcut, hcut', hlarge, hcomplete⟩ :=
      kinds_differ hbetween.1 hbetween.2
    have hkinds := h chunks chunks' hcut hcut'
    rw [hlarge, hcomplete] at hkinds
    cases hkinds
  · rintro (hend | hend) chunks chunks' hcut hcut'
    · have hkind : ∀ {cut}, Cuts stream cut → (headOf cut).kind = .complete := by
        intro cut h
        apply readHttpHead_complete (by decide) (by decide) h.ne_nil h.length_le
        rw [List.nil_append, h.flatten_eq]
        exact hend
      rw [hkind hcut, hkind hcut']
    · have hresult : ∀ {cut}, Cuts stream cut →
          headOf cut = if maxHeadBytes ≤ stream.length then .tooLarge else .eof := by
        intro cut h
        have hend' : hasEndOfHead (([] ++ cut.flatten).take maxReadBytes) = false := by
          rw [List.nil_append, h.flatten_eq]
          exact hend
        have hread := readHttpHead_incomplete (by decide) h.ne_nil h.length_le hend'
        rw [List.nil_append, h.flatten_eq] at hread
        exact hread
      rw [hresult hcut, hresult hcut']

/-- 8190 letters and the end of the head: it ends at byte 8194, and whether it is read or refused
depends on the reads. -/
theorem read_http_head_depends_on_reads :
    ¬ ∀ (stream : Bytes) (chunks chunks' : List Bytes), Cuts stream chunks → Cuts stream chunks' →
      (headOf chunks).kind = (headOf chunks').kind := by
  intro h
  have htake : (List.replicate 8190 88 ++ endOfHead).take maxHeadBytes =
      List.replicate 8190 88 ++ [13, 10] := by
    have hsmall : ¬ maxHeadBytes ≤ (List.replicate 8190 (88 : UInt8)).length := by
      rw [List.length_replicate]
      decide
    rw [List.take_append, List.take_of_length_le (by omega), List.length_replicate]
    rfl
  -- two carriage returns do not fit
  have hnone : hasEndOfHead ((List.replicate 8190 88 ++ endOfHead).take maxHeadBytes) = false := by
    rw [htake, ← Bool.not_eq_true, hasEndOfHead_iff]
    intro hinfix
    have hcount := hinfix.sublist.count_le 13
    rw [List.count_append, List.count_replicate] at hcount
    exact absurd hcount (by decide)
  have hend : hasEndOfHead ((List.replicate 8190 88 ++ endOfHead).take maxReadBytes) = true := by
    rw [List.take_of_length_le (by rw [List.length_append, List.length_replicate]; decide),
      hasEndOfHead_iff]
    exact List.infix_append_right
  obtain ⟨chunks, chunks', hcut, hcut', hlarge, hcomplete⟩ := kinds_differ hnone hend
  have hkinds := h _ chunks chunks' hcut hcut'
  rw [hlarge, hcomplete] at hkinds
  cases hkinds

end LatticeShield.Bridge
