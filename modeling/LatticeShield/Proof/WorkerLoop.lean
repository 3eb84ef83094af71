import LatticeShield.Crypto.Sample
import LatticeShield.Lib.Lists
import LatticeShield.Lib.Runs
import LatticeShield.Proof.JsFrames

/-!
# The worker's event loop and its nonces

`handleEncrypt` reads `sendSeq`, awaits the encryption, and moves `sendSeq` when it resumes. Two
`ENCRYPT` messages handled back to back read the same value. So do two `KEY_ROTATE` messages:
handled back to back they derive the *same* new key, and the second one to finish sets `sendSeq` to
zero under a key that is already in use.

`seqs_distinct` is what is left. It needs of every turn of the loop that an `ENCRYPT` is not started
while another one holds the same key and seq, and a `KEY_ROTATE` not while another one is under
way. The invariant counts the pairs (key, seq) that are spoken for, whether still in flight or
already in a frame: no pair twice, and under the current key none above `sendSeq`.
-/

set_option autoImplicit false

namespace LatticeShield.Js

open Lib EncryptedChannel

/-! ## The loop -/

/-- A DATA frame that was posted, with the arguments `encodeFrame` was called with. -/
structure Posted where
  key : Key
  seq : Nat
  frame : Bytes
deriving DecidableEq

/-- A rotation that went through: the HKDF base key it started from and the key it installed. -/
structure Rotation where
  base : Key
  installed : Key
deriving DecidableEq

structure Loop where
  worker : Worker
  pending : List Pending
  posts : List OutMessage
  /-- History: the frames in `ENCRYPTED` posts, in order. -/
  frames : List Posted
  /-- History: the rotations behind the `KEY_ROTATED` posts, in order. -/
  rotations : List Rotation

/-- One turn of the event loop: a message reaches its handler, or the `i`-th suspended handler
resumes. -/
inductive Turn where
  | message (msg : InMessage)
  | resume (i : Nat)

namespace Loop

def start (key : SessionKey) : Loop where
  worker := .initialised key
  pending := []
  posts := []
  frames := []
  rotations := []

/-- The frame a resumed handler posted, if it was an `ENCRYPT` that went well. -/
def framesOf : Pending → OutMessage → List Posted
  | .encodeFrame _ key seq _, .encrypted _ frame => [⟨key.aes, seq, frame⟩]
  | _, _ => []

def rotationsOf : Pending → OutMessage → Worker → List Rotation
  | .processKeyRotate key _ _, .keyRotated, w =>
    (w.sessionKey.map fun new => ⟨key.hkdf, new.aes⟩).toList
  | _, _, _ => []

def step (C : CipherSuite) (st : Loop) : Turn → Loop
  | .message msg =>
    match st.worker.start msg with
    | .inl out => { st with posts := st.posts ++ [out] }
    | .inr p => { st with pending := st.pending ++ [p] }
  | .resume i =>
    match st.pending[i]? with
    | none => st
    | some p =>
      let (w, out) := st.worker.resume C p
      { worker := w
        pending := st.pending.eraseIdx i
        posts := st.posts ++ [out]
        frames := st.frames ++ framesOf p out
        rotations := st.rotations ++ rotationsOf p out w }

def run (C : CipherSuite) (key : SessionKey) (turns : List Turn) : Loop :=
  turns.foldl (step C) (start key)

theorem run_snoc (C : CipherSuite) (key : SessionKey) (turns : List Turn) (t : Turn) :
    run C key (turns ++ [t]) = (run C key turns).step C t := by
  simp [run]

end Loop

/-! ## What is on the wire -/

def frameSeq (frame : Bytes) : Bytes := (frame.drop 5).take 8

def frameNonce (frame : Bytes) : Bytes := (frame.drop 13).take 12

/-- Frames under one key carry different seqs, and different nonces. The first is what the peer
needs, the second what the cipher needs. -/
def SeqsDistinct (frames : List Posted) : Prop :=
  frames.Pairwise fun x y => x.key = y.key →
    frameSeq x.frame ≠ frameSeq y.frame ∧ frameNonce x.frame ≠ frameNonce y.frame

instance (frames : List Posted) : Decidable (SeqsDistinct frames) :=
  inferInstanceAs (Decidable (List.Pairwise _ _))

/-- An encoded frame carries its seq, twice, and the seq was in range. The second copy is the
nonce, with zeros where Rust has the epoch. -/
theorem fields_of_encodeFrame {C : CipherSuite} {key : SessionKey} {seq : Nat} {p frame : Bytes}
    (h : encodeFrame C key seq p = .ok frame) :
    seq < 2 ^ 64 ∧ frameSeq frame = beBytes 8 seq ∧
      frameNonce frame = beBytes 8 seq ++ [0, 0, 0, 0] := by
  by_cases hgt : seq > maxU64
  · rw [encodeFrame_of_gt C key p hgt] at h
    exact absurd h (by simp)
  · have hlt : seq < 2 ^ 64 := by
      unfold maxU64 at hgt
      omega
    have hx : (UInt64.ofNat seq).toNat = seq := by
      rw [UInt64.toNat_ofNat_of_lt' hlt]
    rw [← hx, encodeFrame_toNat] at h
    split at h
    · exact absurd h (by simp)
    · rename_i ct tag henc
      rw [← Except.ok.inj h]
      have hseq : (u64ToBe (UInt64.ofNat seq)).toList = beBytes 8 seq := by
        rw [u64ToBe, List.Vector.toList_mk, hx]
      have hnonce : (dataNonce (UInt64.ofNat seq) 0).toList = beBytes 8 seq ++ [0, 0, 0, 0] := by
        rw [dataNonce, List.Vector.toList_mk, hseq]
        rfl
      refine ⟨hlt, ?_, ?_⟩
      · rw [frameSeq, dataFrame_seq_field, hseq]
      · rw [frameNonce, dataFrame_nonce_field, hnonce]

theorem beBytes_inj {a b : Nat} (ha : a < 2 ^ 64) (hb : b < 2 ^ 64)
    (h : beBytes 8 a = beBytes 8 b) : a = b := by
  rw [← beNat_beBytes (w := 8) (n := a) (by omega), h, beNat_beBytes (by omega)]

/-- Every posted frame carries the seq it was encoded with, in the header and in the nonce. The
nonce of the worker has zeros behind it. -/
structure FrameOk (x : Posted) : Prop where
  lt : x.seq < 2 ^ 64
  seq : frameSeq x.frame = beBytes 8 x.seq
  nonce : frameNonce x.frame = beBytes 8 x.seq ++ [0, 0, 0, 0]

theorem frameOk_framesOf {C : CipherSuite} {w : Worker} {p : Pending} :
    ∀ x ∈ Loop.framesOf p (w.resume C p).2, FrameOk x := by
  intro x hx
  cases p with
  | encodeFrame id key seq plaintext =>
    cases henc : encodeFrame C key seq plaintext with
    | error e => simp [Worker.resume, henc, Loop.framesOf] at hx
    | ok frame =>
      simp only [Worker.resume, henc, Loop.framesOf, List.mem_singleton] at hx
      obtain ⟨hlt, hseq, hnonce⟩ := fields_of_encodeFrame henc
      rw [hx]
      exact ⟨hlt, hseq, hnonce⟩
  | decodeFrame id key buf recvSeq recvInitialized => exact absurd hx (by simp [Loop.framesOf])
  | processKeyRotate key frame seq => exact absurd hx (by simp [Loop.framesOf])

theorem frameOk_run (C : CipherSuite) (key : SessionKey) (turns : List Turn) :
    ∀ x ∈ (Loop.run C key turns).frames, FrameOk x := by
  induction turns using List.reverseRecOn with
  | nil => intro x hx; exact absurd hx (by simp [Loop.run, Loop.start])
  | append_singleton turns t ih =>
    rw [Loop.run_snoc]
    intro x hx
    cases t with
    | message msg =>
      simp only [Loop.step] at hx
      split at hx <;> exact ih x hx
    | resume i =>
      simp only [Loop.step] at hx
      split at hx
      · exact ih x hx
      · rcases List.mem_append.mp hx with hx | hx
        · exact ih x hx
        · exact frameOk_framesOf x hx

theorem seqsDistinct_of_nodup {frames : List Posted} (hok : ∀ x ∈ frames, FrameOk x)
    (h : (frames.map fun x => (x.key, x.seq)).Nodup) : SeqsDistinct frames := by
  rw [List.Nodup, List.pairwise_map] at h
  apply h.imp_of_mem
  intro x y hx hy hne hkey
  have hx := hok x hx
  have hy := hok y hy
  have hseq : x.seq ≠ y.seq := fun h => hne (Prod.ext hkey h)
  refine ⟨fun h => hseq ?_, fun h => hseq ?_⟩
  · rw [hx.seq, hy.seq] at h
    exact beBytes_inj hx.lt hy.lt h
  · rw [hx.nonce, hy.nonce] at h
    exact beBytes_inj hx.lt hy.lt (List.append_cancel_right h)

/-! ## Which turns are safe -/

/-- The key and the seq a suspended `handleEncrypt` holds. -/
def Pending.held : Pending → Option (Key × Nat)
  | .encodeFrame _ key seq _ => some (key.aes, seq)
  | _ => none

def Pending.rotating : Pending → Bool
  | .processKeyRotate _ _ _ => true
  | _ => false

/-- No `ENCRYPT` is started on a key and seq that a suspended one holds, and no `KEY_ROTATE` while
another one is suspended. A handler takes the seq before its `await` and counts it behind, so a
second one started in between takes the same. -/
def Calm (st : Loop) : Turn → Prop
  | .message (.encrypt _ _) => ∀ p ∈ st.pending,
      p.held ≠ st.worker.sessionKey.map fun key => (key.aes, st.worker.sendSeq)
  | .message (.keyRotate _) => ∀ p ∈ st.pending, p.rotating = false
  | _ => True

instance (st : Loop) : ∀ t, Decidable (Calm st t)
  | .message (.encrypt _ _) => inferInstanceAs (Decidable (∀ p ∈ st.pending, _))
  | .message (.decrypt _ _) => .isTrue trivial
  | .message (.keyRotate _) => inferInstanceAs (Decidable (∀ p ∈ st.pending, _))
  | .resume _ => .isTrue trivial

/-- The HKDF derives no key twice from different keys, and never the first one. -/
def HkdfFresh (key : Key) (rotations : List Rotation) : Prop :=
  ∀ a ∈ rotations, a.installed ≠ key ∧ ∀ b ∈ rotations, a.installed = b.installed → a.base = b.base

instance (key : Key) (rotations : List Rotation) : Decidable (HkdfFresh key rotations) :=
  inferInstanceAs (Decidable (∀ a ∈ rotations, _))

/-! ## The invariant -/

namespace Loop

def keys (key : Key) (st : Loop) : List Key := key :: st.rotations.map (·.installed)

/-- The pairs in flight and the pairs on the wire. A pair in flight can be held twice, and that is
how a seq comes to be used twice. -/
def held (st : Loop) : List (Key × Nat) := st.pending.filterMap Pending.held

def spent (st : Loop) : List (Key × Nat) := st.frames.map fun x => (x.key, x.seq)

end Loop

/-- `cur` is the session key, it is not one that was rotated away from, and the rotation under
way, if there is one, starts from it. So the key that comes next is a new one as well. -/
structure KeysOk (key cur : Key) (st : Loop) : Prop where
  session : st.worker.sessionKey = some ⟨cur, cur⟩
  mem : cur ∈ st.keys key
  base : ∀ a ∈ st.rotations, a.base ∈ st.keys key ∧ a.base ≠ cur
  rotating : ∀ k frame seq, .processKeyRotate k frame seq ∈ st.pending → k = ⟨cur, cur⟩
  one : st.pending.countP Pending.rotating ≤ 1

/-- No pair is spoken for twice, and under the current key none is above `sendSeq`. A pair is
spoken for by a suspended handler or by a frame that has been posted. -/
structure SeqsOk (key cur : Key) (st : Loop) : Prop where
  known : ∀ x ∈ st.held ++ st.spent, x.1 ∈ st.keys key
  nodup : (st.held ++ st.spent).Nodup
  below : ∀ x ∈ st.spent, x.1 = cur → x.2 < st.worker.sendSeq
  upto : ∀ x ∈ st.held, x.1 = cur → x.2 ≤ st.worker.sendSeq

theorem keysOk_start (key : Key) : KeysOk key key (Loop.start ⟨key, key⟩) := by
  constructor <;> simp [Loop.start, Loop.keys, Worker.initialised]

theorem seqsOk_start (key : Key) : SeqsOk key key (Loop.start ⟨key, key⟩) := by
  constructor <;> simp [Loop.start, Loop.held, Loop.spent]

/-! ## What a resumed handler does -/

/-- Both halves of a derived session key are one HKDF output. -/
theorem processKeyRotate_ok {C : CipherSuite} {key new : SessionKey} {frame : Bytes} {seq : Nat}
    (h : processKeyRotate C key frame seq = .ok new) : new = ⟨new.aes, new.aes⟩ := by
  unfold processKeyRotate at h
  simp only [bind, Except.bind] at h
  split at h
  · exact absurd h (by simp)
  split at h
  · exact absurd h (by simp)
  split at h
  · exact absurd h (by simp)
  split at h
  · rw [← Except.ok.inj h]
  · exact absurd h (by simp [throw, throwThe, MonadExceptOf.throw])

/-- **A turn that resumes a handler** takes it off the list, and then the handler ends without
touching key or seq, posts a frame and moves `sendSeq`, or installs a key. The three invariant
lemmas below are about these three. -/
inductive Resumed (st st' : Loop) : Prop
  | idle (same : st' = st)
  | settled (p : Pending) (l₁ l₂ : List Pending) (split : st.pending = l₁ ++ p :: l₂)
      (pending : st'.pending = l₁ ++ l₂) (frames : st'.frames = st.frames)
      (rotations : st'.rotations = st.rotations)
      (sessionKey : st'.worker.sessionKey = st.worker.sessionKey)
      (sendSeq : st'.worker.sendSeq = st.worker.sendSeq)
  | posted (p : Pending) (l₁ l₂ : List Pending) (x : Posted)
      (split : st.pending = l₁ ++ p :: l₂) (holds : p.held = some (x.key, x.seq))
      (pending : st'.pending = l₁ ++ l₂) (frames : st'.frames = st.frames ++ [x])
      (rotations : st'.rotations = st.rotations)
      (sessionKey : st'.worker.sessionKey = st.worker.sessionKey)
      (sendSeq : st'.worker.sendSeq = st.worker.sendSeq + 1)
  | rotated (k : SessionKey) (frame : Bytes) (seq : Nat) (l₁ l₂ : List Pending) (d : Key)
      (split : st.pending = l₁ ++ .processKeyRotate k frame seq :: l₂)
      (pending : st'.pending = l₁ ++ l₂) (frames : st'.frames = st.frames)
      (rotations : st'.rotations = st.rotations ++ [⟨k.hkdf, d⟩])
      (sessionKey : st'.worker.sessionKey = some ⟨d, d⟩)

theorem resumed_step (C : CipherSuite) (st : Loop) (i : Nat) :
    Resumed st (st.step C (.resume i)) := by
  rw [Loop.step]
  cases hp : st.pending[i]? with
  | none => exact .idle rfl
  | some p =>
    obtain ⟨l₁, l₂, hsplit, herase⟩ := exists_split_of_getElem? hp
    dsimp only
    rw [herase]
    -- only a finished encryption posts a frame, and only a finished rotation changes the key
    cases p with
    | encodeFrame id key seq plaintext =>
      cases henc : encodeFrame C key seq plaintext with
      | error e =>
        refine .settled _ l₁ l₂ hsplit rfl ?_ ?_ ?_ ?_ <;>
          simp [Worker.resume, henc, Loop.framesOf, Loop.rotationsOf]
      | ok frame =>
        refine .posted _ l₁ l₂ ⟨key.aes, seq, frame⟩ hsplit rfl rfl ?_ ?_ ?_ ?_ <;>
          simp [Worker.resume, henc, Loop.framesOf, Loop.rotationsOf]
    | decodeFrame id key buf recvSeq recvInitialized =>
      cases hdec : decodeFrame C key buf recvSeq recvInitialized with
      | error e =>
        refine .settled _ l₁ l₂ hsplit rfl ?_ ?_ ?_ ?_ <;>
          simp [Worker.resume, hdec, Loop.framesOf, Loop.rotationsOf]
      | ok r =>
        refine .settled _ l₁ l₂ hsplit rfl ?_ ?_ ?_ ?_ <;>
          simp [Worker.resume, hdec, Loop.framesOf, Loop.rotationsOf]
    | processKeyRotate key frame seq =>
      cases hrot : processKeyRotate C key frame seq with
      | error e =>
        refine .settled _ l₁ l₂ hsplit rfl ?_ ?_ ?_ ?_ <;>
          simp [Worker.resume, hrot, Loop.framesOf, Loop.rotationsOf]
      | ok new =>
        refine .rotated key frame seq l₁ l₂ new.aes hsplit rfl ?_ ?_ ?_ <;>
          simp [Worker.resume, hrot, Loop.framesOf, Loop.rotationsOf]
        exact processKeyRotate_ok hrot

/-! ## Steps -/

section Steps

variable {key cur : Key} {st st' : Loop} {l₁ l₂ : List Pending} {p : Pending}

theorem KeysOk.settle (h : KeysOk key cur st) (hsplit : st.pending = l₁ ++ p :: l₂)
    (hpending : st'.pending = l₁ ++ l₂) (hrot : st'.rotations = st.rotations)
    (hsession : st'.worker.sessionKey = st.worker.sessionKey) : KeysOk key cur st' where
  session := by rw [hsession, h.session]
  mem := by rw [Loop.keys, hrot]; exact h.mem
  base := by rw [Loop.keys, hrot]; exact h.base
  rotating k frame seq hmem := by
    refine h.rotating k frame seq ?_
    rw [hpending] at hmem
    rw [hsplit]
    simp only [List.mem_append, List.mem_cons] at hmem ⊢
    rcases hmem with hmem | hmem
    · exact Or.inl hmem
    · exact Or.inr (Or.inr hmem)
  one := by
    have hone := h.one
    rw [hsplit, List.countP_append, List.countP_cons] at hone
    rw [hpending, List.countP_append]
    omega

/-- After the one rotation under way is done, none is. Two of them at once would both derive from
the same key. -/
theorem KeysOk.none_rotating (h : KeysOk key cur st) {k : SessionKey} {frame : Bytes} {seq : Nat}
    (hsplit : st.pending = l₁ ++ .processKeyRotate k frame seq :: l₂) :
    (l₁ ++ l₂).countP Pending.rotating = 0 := by
  have hone := h.one
  rw [hsplit, List.countP_append, List.countP_cons, Pending.rotating, if_pos rfl] at hone
  rw [List.countP_append]
  omega

/-- The new key is none of the old ones. -/
theorem KeysOk.fresh (h : KeysOk key cur st) {d : Key}
    (hfresh : HkdfFresh key (st.rotations ++ [⟨cur, d⟩])) : d ∉ st.keys key := by
  have hd := hfresh ⟨cur, d⟩ (by simp)
  intro hmem
  rcases List.mem_cons.mp hmem with heq | hmem
  · exact hd.1 heq
  · obtain ⟨b, hb, heq⟩ := List.mem_map.mp hmem
    have hbase := hd.2 b (List.mem_append_left _ hb) heq.symm
    exact (h.base b hb).2 hbase.symm

theorem KeysOk.rotate (h : KeysOk key cur st) {frame : Bytes} {seq : Nat} {d : Key}
    (hsplit : st.pending = l₁ ++ .processKeyRotate ⟨cur, cur⟩ frame seq :: l₂)
    (hpending : st'.pending = l₁ ++ l₂) (hrot : st'.rotations = st.rotations ++ [⟨cur, d⟩])
    (hsession : st'.worker.sessionKey = some ⟨d, d⟩) (hd : d ∉ st.keys key) :
    KeysOk key d st' := by
  have hkeys : st'.keys key = st.keys key ++ [d] := by simp [Loop.keys, hrot]
  have hnone := h.none_rotating hsplit
  refine ⟨hsession, by simp [hkeys], ?_, ?_, ?_⟩
  · intro a ha
    rw [hkeys]
    rw [hrot, List.mem_append, List.mem_singleton] at ha
    rcases ha with ha | rfl
    · refine ⟨List.mem_append_left _ (h.base a ha).1, fun heq => hd ?_⟩
      exact heq ▸ (h.base a ha).1
    · exact ⟨List.mem_append_left _ h.mem, fun heq => hd (heq ▸ h.mem)⟩
  · intro k f s hmem
    rw [hpending] at hmem
    exact absurd rfl (List.countP_eq_zero.mp hnone _ hmem)
  · rw [hpending, hnone]
    exact Nat.zero_le _

theorem held_sublist (hsplit : st.pending = l₁ ++ p :: l₂) (hpending : st'.pending = l₁ ++ l₂) :
    st'.held.Sublist st.held := by
  rw [Loop.held, Loop.held, hpending, hsplit]
  exact (List.Sublist.append_left (List.sublist_cons_self p l₂) l₁).filterMap _

/-- A handler that ends without a frame gives its pair up. -/
theorem pairs_sublist (hsplit : st.pending = l₁ ++ p :: l₂) (hpending : st'.pending = l₁ ++ l₂)
    (hframes : st'.frames = st.frames) :
    (st'.held ++ st'.spent).Sublist (st.held ++ st.spent) := by
  have hspent : st'.spent = st.spent := by rw [Loop.spent, hframes, Loop.spent]
  rw [hspent]
  exact (held_sublist hsplit hpending).append_right _

theorem SeqsOk.settle (h : SeqsOk key cur st) (hsplit : st.pending = l₁ ++ p :: l₂)
    (hpending : st'.pending = l₁ ++ l₂) (hframes : st'.frames = st.frames)
    (hrot : st'.rotations = st.rotations) (hseq : st'.worker.sendSeq = st.worker.sendSeq) :
    SeqsOk key cur st' := by
  have hsub := held_sublist hsplit hpending
  have hspent : st'.spent = st.spent := by rw [Loop.spent, hframes, Loop.spent]
  have hkeys : st'.keys key = st.keys key := by rw [Loop.keys, hrot, Loop.keys]
  have hboth := pairs_sublist hsplit hpending hframes
  refine ⟨?_, h.nodup.sublist hboth, ?_, ?_⟩
  · intro x hx
    rw [hkeys]; exact h.known x (hboth.subset hx)
  · rw [hspent, hseq]; exact h.below
  · intro x hx
    rw [hseq]; exact h.upto x (hsub.subset hx)

/-- The pair moves from the suspended handler to the wire. -/
theorem SeqsOk.post (h : SeqsOk key cur st) {x : Posted} (hsplit : st.pending = l₁ ++ p :: l₂)
    (hholds : p.held = some (x.key, x.seq)) (hpending : st'.pending = l₁ ++ l₂)
    (hframes : st'.frames = st.frames ++ [x]) (hrot : st'.rotations = st.rotations)
    (hseq : st'.worker.sendSeq = st.worker.sendSeq + 1) : SeqsOk key cur st' := by
  have hheld : st.held = l₁.filterMap Pending.held ++ (x.key, x.seq) ::
      l₂.filterMap Pending.held := by
    rw [Loop.held, hsplit, List.filterMap_append, List.filterMap_cons_some hholds]
  have hheld' : st'.held = l₁.filterMap Pending.held ++ l₂.filterMap Pending.held := by
    rw [Loop.held, hpending, List.filterMap_append]
  have hspent : st'.spent = st.spent ++ [(x.key, x.seq)] := by
    rw [Loop.spent, hframes, List.map_append]
    rfl
  have hkeys : st'.keys key = st.keys key := by rw [Loop.keys, hrot, Loop.keys]
  -- the pair only moves from the held ones to the spent ones
  have hperm : (st'.held ++ st'.spent).Perm (st.held ++ st.spent) := by
    rw [hheld', hspent, hheld]
    simp only [List.append_assoc, List.cons_append]
    refine List.Perm.append_left _ ?_
    rw [← List.append_assoc]
    exact List.perm_append_singleton _ _
  have hmem : (x.key, x.seq) ∈ st.held := by rw [hheld]; simp
  refine ⟨?_, hperm.nodup_iff.mpr h.nodup, ?_, ?_⟩
  · intro y hy
    rw [hkeys]; exact h.known y (hperm.subset hy)
  -- a pair spent under the current key was held at the counter at most, and the counter moves past
  -- it
  · intro y hy hcur
    rw [hseq]
    rw [hspent, List.mem_append, List.mem_singleton] at hy
    rcases hy with hy | rfl
    · have := h.below y hy hcur
      omega
    · have := h.upto _ hmem hcur
      dsimp only at this ⊢
      omega
  · intro y hy hcur
    rw [hseq]
    have hy' : y ∈ st.held := by
      rw [hheld]
      rw [hheld'] at hy
      simp only [List.mem_append, List.mem_cons] at hy ⊢
      rcases hy with hy | hy
      · exact Or.inl hy
      · exact Or.inr (Or.inr hy)
    have := h.upto y hy' hcur
    omega

/-- Nothing is spoken for under a key that is new. -/
theorem SeqsOk.rotate (h : SeqsOk key cur st) {d base : Key} (hsplit : st.pending = l₁ ++ p :: l₂)
    (hpending : st'.pending = l₁ ++ l₂) (hframes : st'.frames = st.frames)
    (hrot : st'.rotations = st.rotations ++ [⟨base, d⟩]) (hd : d ∉ st.keys key) :
    SeqsOk key d st' := by
  have hsub := held_sublist hsplit hpending
  have hspent : st'.spent = st.spent := by rw [Loop.spent, hframes, Loop.spent]
  have hkeys : st'.keys key = st.keys key ++ [d] := by simp [Loop.keys, hrot]
  have hboth := pairs_sublist hsplit hpending hframes
  refine ⟨?_, h.nodup.sublist hboth, ?_, ?_⟩
  · intro x hx
    rw [hkeys]; exact List.mem_append_left _ (h.known x (hboth.subset hx))
  · intro x hx hcur
    rw [hspent] at hx
    exact absurd (hcur ▸ h.known x (List.mem_append_right _ hx)) hd
  · intro x hx hcur
    exact absurd (hcur ▸ h.known x (List.mem_append_left _ (hsub.subset hx))) hd

theorem KeysOk.enqueue (h : KeysOk key cur st) (p : Pending)
    (hp : p.rotating = true → (∃ frame seq, p = .processKeyRotate ⟨cur, cur⟩ frame seq) ∧
      ∀ q ∈ st.pending, q.rotating = false) :
    KeysOk key cur { st with pending := st.pending ++ [p] } := by
  refine ⟨h.session, h.mem, h.base, ?_, ?_⟩
  · intro k frame seq hmem
    rcases List.mem_append.mp hmem with hmem | hmem
    · exact h.rotating k frame seq hmem
    · rw [← List.mem_singleton.mp hmem] at hp
      obtain ⟨⟨frame', seq', heq⟩, -⟩ := hp rfl
      injection heq
  · rw [List.countP_append, List.countP_singleton]
    split
    · rename_i hrot
      have hnone : st.pending.countP Pending.rotating = 0 :=
        List.countP_eq_zero.mpr fun q hq => by simp [(hp hrot).2 q hq]
      omega
    · exact h.one

theorem SeqsOk.enqueue_none (h : SeqsOk key cur st) (hp : p.held = none) :
    SeqsOk key cur { st with pending := st.pending ++ [p] } := by
  have hheld : Loop.held { st with pending := st.pending ++ [p] } = st.held := by
    simp [Loop.held, hp]
  refine ⟨?_, ?_, h.below, ?_⟩
  · rw [hheld]; exact h.known
  · rw [hheld]; exact h.nodup
  · rw [hheld]; exact h.upto

/-- The pair `(cur, sendSeq)` is new: frames are below it, and no suspended handler holds it. The
second is what the condition on the turns gives. -/
theorem SeqsOk.enqueue_encrypt (h : SeqsOk key cur st) (hcur : cur ∈ st.keys key)
    (hp : p.held = some (cur, st.worker.sendSeq))
    (hcalm : ∀ q ∈ st.pending, q.held ≠ some (cur, st.worker.sendSeq)) :
    SeqsOk key cur { st with pending := st.pending ++ [p] } := by
  have hheld : Loop.held { st with pending := st.pending ++ [p] } =
      st.held ++ [(cur, st.worker.sendSeq)] := by
    simp [Loop.held, hp]
  have hperm : ((st.held ++ [(cur, st.worker.sendSeq)]) ++ st.spent).Perm
      ((cur, st.worker.sendSeq) :: (st.held ++ st.spent)) := by
    rw [List.append_assoc]
    exact List.perm_middle
  refine ⟨?_, ?_, h.below, ?_⟩
  · intro x hx
    rw [hheld] at hx
    rcases List.mem_cons.mp (hperm.subset hx) with rfl | hx
    · exact hcur
    · exact h.known x hx
  · rw [hheld]
    refine hperm.nodup_iff.mpr (List.nodup_cons.mpr ⟨?_, h.nodup⟩)
    intro hmem
    rcases List.mem_append.mp hmem with hmem | hmem
    · obtain ⟨q, hq, hholds⟩ := List.mem_filterMap.mp hmem
      exact hcalm q hq hholds
    · exact absurd (h.below _ hmem rfl) (Nat.lt_irrefl _)
  · intro x hx hxcur
    rw [hheld] at hx
    rcases List.mem_append.mp hx with hx | hx
    · exact h.upto x hx hxcur
    · rw [List.mem_singleton.mp hx]

end Steps

theorem loop_message {C : CipherSuite} {key cur : Key} {st : Loop} (hkeys : KeysOk key cur st)
    (hseqs : SeqsOk key cur st) {msg : InMessage} (hcalm : Calm st (.message msg)) :
    KeysOk key cur (st.step C (.message msg)) ∧ SeqsOk key cur (st.step C (.message msg)) := by
  cases msg with
  | encrypt id plaintext =>
    have hstep : st.step C (.message (.encrypt id plaintext)) = { st with
        pending := st.pending ++ [.encodeFrame id ⟨cur, cur⟩ st.worker.sendSeq plaintext] } := by
      simp only [Loop.step, Worker.start, Worker.handleEncrypt, hkeys.session]
    rw [hstep]
    refine ⟨hkeys.enqueue _ (by simp [Pending.rotating]), ?_⟩
    apply hseqs.enqueue_encrypt hkeys.mem rfl
    intro q hq
    have := hcalm q hq
    rwa [hkeys.session] at this
  | decrypt id ciphertext =>
    simp only [Loop.step, Worker.start, Worker.handleDecrypt, hkeys.session]
    split
    · rename_i out hout
      exact ⟨⟨hkeys.session, hkeys.mem, hkeys.base, hkeys.rotating, hkeys.one⟩,
        ⟨hseqs.known, hseqs.nodup, hseqs.below, hseqs.upto⟩⟩
    · rename_i p hp
      split at hp
      · exact absurd hp (by simp)
      · rw [← Sum.inr.inj hp]
        exact ⟨hkeys.enqueue _ (by simp [Pending.rotating]), hseqs.enqueue_none rfl⟩
  | keyRotate frame =>
    have hstep : st.step C (.message (.keyRotate frame)) = { st with
        pending := st.pending ++
          [.processKeyRotate ⟨cur, cur⟩ frame st.worker.keyRotateRecvSeq] } := by
      simp only [Loop.step, Worker.start, Worker.handleKeyRotate, hkeys.session]
    rw [hstep]
    exact ⟨hkeys.enqueue _ fun _ => ⟨⟨_, _, rfl⟩, hcalm⟩, hseqs.enqueue_none rfl⟩

theorem loop_resume {C : CipherSuite} {key cur : Key} {st : Loop} (hkeys : KeysOk key cur st)
    (hseqs : SeqsOk key cur st) {i : Nat}
    (hfresh : HkdfFresh key (st.step C (.resume i)).rotations) :
    ∃ cur', KeysOk key cur' (st.step C (.resume i)) ∧ SeqsOk key cur' (st.step C (.resume i)) := by
  cases resumed_step C st i with
  | idle same => rw [same]; exact ⟨cur, hkeys, hseqs⟩
  | settled p l₁ l₂ split pending frames rotations sessionKey sendSeq =>
    exact ⟨cur, hkeys.settle split pending rotations sessionKey,
      hseqs.settle split pending frames rotations sendSeq⟩
  | posted p l₁ l₂ x split holds pending frames rotations sessionKey sendSeq =>
    exact ⟨cur, hkeys.settle split pending rotations sessionKey,
      hseqs.post split holds pending frames rotations sendSeq⟩
  | rotated k frame seq l₁ l₂ d split pending frames rotations sessionKey =>
    -- the rotation started from the current key, so the HKDF has not been here before
    obtain rfl := hkeys.rotating k frame seq (by rw [split]; simp)
    rw [rotations] at hfresh
    have hd := hkeys.fresh hfresh
    exact ⟨d, hkeys.rotate split pending rotations sessionKey hd,
      hseqs.rotate split pending frames rotations hd⟩

/-- **One turn.** A rotation may change the current key; everything else leaves it. -/
theorem loop_step {C : CipherSuite} {key cur : Key} {st : Loop} (hkeys : KeysOk key cur st)
    (hseqs : SeqsOk key cur st) {t : Turn} (hcalm : Calm st t)
    (hfresh : HkdfFresh key (st.step C t).rotations) :
    ∃ cur', KeysOk key cur' (st.step C t) ∧ SeqsOk key cur' (st.step C t) := by
  cases t with
  | message msg => exact ⟨cur, loop_message hkeys hseqs hcalm⟩
  | resume i => exact loop_resume hkeys hseqs hfresh

theorem rotations_subset_step (C : CipherSuite) (st : Loop) (t : Turn) :
    ∀ a ∈ st.rotations, a ∈ (st.step C t).rotations := by
  intro a ha
  cases t with
  | message msg =>
    simp only [Loop.step]
    split <;> exact ha
  | resume i =>
    simp only [Loop.step]
    split
    · exact ha
    · exact List.mem_append_left _ ha

theorem loop_run (C : CipherSuite) (key : Key) (turns : List Turn)
    (hcalm : Meets (Loop.step C) Calm (.start ⟨key, key⟩) turns)
    (hfresh : HkdfFresh key (Loop.run C ⟨key, key⟩ turns).rotations) :
    ∃ cur, KeysOk key cur (Loop.run C ⟨key, key⟩ turns) ∧
      SeqsOk key cur (Loop.run C ⟨key, key⟩ turns) := by
  induction turns using List.reverseRecOn with
  | nil => exact ⟨key, keysOk_start key, seqsOk_start key⟩
  | append_singleton turns t ih =>
    obtain ⟨hcalm, ht⟩ := meets_snoc.mp hcalm
    rw [Loop.run_snoc] at hfresh ⊢
    have hsub := rotations_subset_step C (Loop.run C ⟨key, key⟩ turns) t
    have hfresh' : HkdfFresh key (Loop.run C ⟨key, key⟩ turns).rotations := fun a ha =>
      ⟨(hfresh a (hsub a ha)).1, fun b hb => (hfresh a (hsub a ha)).2 b (hsub b hb)⟩
    obtain ⟨cur, hkeys, hseqs⟩ := ih hcalm hfresh'
    exact loop_step hkeys hseqs ht hfresh

/-- **A calm loop reuses no seq under a key.** In whatever order the handlers resume, the frames
that have been posted under one key carry different seqs, and with them different nonces. That no
key comes twice is asked of HKDF, as `HkdfFresh`. -/
theorem seqs_distinct (C : CipherSuite) (key : Key) (turns : List Turn)
    (hcalm : Meets (Loop.step C) Calm (.start ⟨key, key⟩) turns)
    (hfresh : HkdfFresh key (Loop.run C ⟨key, key⟩ turns).rotations) :
    SeqsDistinct (Loop.run C ⟨key, key⟩ turns).frames := by
  obtain ⟨cur, -, hseqs⟩ := loop_run C key turns hcalm hfresh
  exact seqsDistinct_of_nodup (frameOk_run C _ turns)
    (hseqs.nodup.sublist (List.sublist_append_right _ _))

/-- Two `ENCRYPT` messages with a rotation between them, each handled to its end. -/
def calmTurns : List Turn :=
  [.message (.encrypt "a" [1]), .resume 0, .message (.encrypt "b" [2]), .resume 0,
    .message (.keyRotate
      (sendKeyRotate Sample.suite Sample.channel .accepts (Sample.gcm 1) (Sample.rot 1)).bytes),
    .resume 0, .message (.encrypt "c" [3]), .resume 0]

theorem seqs_distinct_calm :
    SeqsDistinct (Loop.run Sample.suite ⟨Sample.key, Sample.key⟩ calmTurns).frames ∧
    (Loop.run Sample.suite ⟨Sample.key, Sample.key⟩ calmTurns).frames.length = 3 :=
  ⟨seqs_distinct Sample.suite Sample.key calmTurns (by decide +kernel) (by decide +kernel),
    by decide +kernel⟩

/-- Two `ENCRYPT` messages, the second handled before the first resumes. Both frames carry seq 0
under the same key. -/
theorem overlapping_encrypts_reuse_seq :
    HkdfFresh Sample.key (Loop.run Sample.suite ⟨Sample.key, Sample.key⟩
      [.message (.encrypt "a" [1]), .message (.encrypt "b" [2]), .resume 0, .resume 0]).rotations ∧
    ¬ SeqsDistinct (Loop.run Sample.suite ⟨Sample.key, Sample.key⟩
      [.message (.encrypt "a" [1]), .message (.encrypt "b" [2]), .resume 0, .resume 0]).frames := by
  decide +kernel

end LatticeShield.Js
