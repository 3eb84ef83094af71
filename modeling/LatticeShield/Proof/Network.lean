import Mathlib.Logic.Function.Basic
import LatticeShield.Proof.Frames

/-!
# Two channels and a network that owns the wire

The setting of every authenticity result. Two channels of one session write, rotate and read in
any order; whatever they write goes to the adversary, and a read is fed *any* bytes, so dropping,
reordering, replaying, re-typing and rewriting are all one thing here: choosing the bytes.

What the adversary cannot do is make a ciphertext. The endpoints' AES-GCM calls are logged
(`Net.calls`), and a reader opens through `idealDecrypt` over that log: decryption answers only
for a ciphertext that an endpoint produced under the same key, nonce and associated data.

`readFrame_opened` is the one fact the results share. Whatever `read_frame` answered `Ok` to, an
endpoint had sealed it, with that payload, under the reader's key and under the counter the reader
checked — and *nothing more*: neither the kind of the call nor the side that made it can be told
from an accepted frame.
-/

set_option autoImplicit false

namespace LatticeShield

open Lib EncryptedChannel

/-! ## What is on record -/

/-- The bytes under the encryption, whichever kind of frame carries them. The kind is in the clear
and not covered by the tag. -/
def FrameResult.payload : FrameResult → Bytes
  | .data p => p
  | .keyRotate n => n.toList

/-- What a decryption is asked to open: the key, the counter that is the associated data, and
nonce, ciphertext and tag as they stand in the frame. -/
structure Opened where
  key : Key
  seq : UInt64
  body : Bytes
deriving DecidableEq

/-- What reading `frame` asks to open. In a DATA frame the counter is on the wire; for a
KEY_ROTATE frame it is the reader's own. -/
def openedBy (ch : EncryptedChannel) (frame : Bytes) : Opened :=
  if frame.take 1 = [frameData] then
    ⟨ch.keyBytes, UInt64.ofNat (beNat ((frame.drop 5).take 8)), frame.drop 13⟩
  else ⟨ch.keyBytes, ch.keyRotateRecvSeq, frame.drop 1⟩

/-- One encryption by an endpoint: `.data p` for `write_frame(p)`, `.keyRotate n` for
`send_key_rotate(n)`, and the counter it authenticated. -/
structure Call where
  side : Side
  what : FrameResult
  seq : UInt64
  sealed : Ciphertext
deriving DecidableEq

def Call.opened (c : Call) : Opened :=
  ⟨c.sealed.key, c.seq, c.sealed.nonce.toList ++ (c.sealed.ct ++ c.sealed.tag.toList)⟩

/-- One `read_frame` that returned: who read, after how many rotations of its own, what the frame
asked to open, and the answer. -/
structure Read where
  side : Side
  epoch : Nat
  opened : Opened
  result : Except FrameError FrameResult

/-! ## Runs -/

structure Net where
  ch : Side → EncryptedChannel
  /-- The keys an endpoint has left behind, oldest first. -/
  past : Side → List Key
  calls : List Call
  reads : List Read

/-- `read s bytes rotates`: endpoint `s` calls `read_frame` on a stream that holds `bytes`, and
follows an `Ok(KeyRotate(n))` with `rotate_key(n)` if `rotates`. -/
inductive NetOp where
  | write (s : Side) (w : Writer) (data : Bytes)
  | sendKeyRotate (s : Side) (w : Writer) (gcmNonce : Nonce) (nonce : RotationNonce)
  | rotate (s : Side) (nonce : RotationNonce)
  | read (s : Side) (bytes : Bytes) (rotates : Bool)

namespace Net

def start (key : Key) (size : Side → Nat) : Net where
  ch s := .new key (size s)
  past _ := []
  calls := []
  reads := []

/-- The cipher of an ideal network: what opens is what has been sealed in this run, with the key,
the nonce and the authenticated data that it was sealed with. -/
def opener (C : CipherSuite) (st : Net) : Opener Key Nonce 16 :=
  C.aead.idealDecrypt (st.calls.map (·.sealed))

def rotate (C : CipherSuite) (st : Net) (s : Side) (nonce : RotationNonce) : Net :=
  { st with
    ch := Function.update st.ch s (rotateKey C (st.ch s) nonce)
    past := Function.update st.past s (st.past s ++ [(st.ch s).keyBytes]) }

/-- A `read_frame` that has not got its bytes yet has changed nothing. The bytes are for the
adversary to choose. -/
def read (C : CipherSuite) (st : Net) (s : Side) (bytes : Bytes) (rotates : Bool) : Net :=
  match (readFrame (st.opener C) (st.ch s)).run bytes with
  | none => st
  | some ((result, ch'), rest) =>
    let frame := bytes.take (bytes.length - rest.length)
    let st' := { st with
      ch := Function.update st.ch s ch'
      reads := st.reads ++ [⟨s, (st.past s).length, openedBy (st.ch s) frame, result⟩] }
    match result with
    | .ok (.keyRotate n) => if rotates then st'.rotate C s n else st'
    | _ => st'

def step (C : CipherSuite) (st : Net) : NetOp → Net
  | .write s w data =>
    { st with
      ch := Function.update st.ch s (writeFrame C (st.ch s) w data).channel
      calls := st.calls ++ ((sealData C (st.ch s) data).map fun e =>
        ⟨s, .data data, (st.ch s).sendSeq, e⟩).toList }
  | .sendKeyRotate s w gcmNonce nonce =>
    { st with
      ch := Function.update st.ch s (sendKeyRotate C (st.ch s) w gcmNonce nonce).channel
      calls := st.calls ++ ((sealKeyRotate C (st.ch s) gcmNonce nonce).map fun e =>
        ⟨s, .keyRotate nonce, (st.ch s).keyRotateSendSeq, e⟩).toList }
  | .rotate s nonce => st.rotate C s nonce
  | .read s bytes rotates => st.read C s bytes rotates

def run (C : CipherSuite) (st : Net) (ops : List NetOp) : Net := ops.foldl (step C) st

def session (C : CipherSuite) (key : Key) (size : Side → Nat) (ops : List NetOp) : Net :=
  run C (start key size) ops

theorem session_snoc (C : CipherSuite) (key : Key) (size : Side → Nat) (ops : List NetOp)
    (op : NetOp) : session C key size (ops ++ [op]) = (session C key size ops).step C op := by
  simp [session, run]

@[simp] theorem read_calls (C : CipherSuite) (st : Net) (s : Side) (bytes : Bytes)
    (rotates : Bool) : (st.read C s bytes rotates).calls = st.calls := by
  unfold read
  split
  · rfl
  · split
    · split <;> rfl
    · rfl

end Net

/-! ## Calls are encryptions of their payload -/

/-- The call's ciphertext is an encryption of its payload, with its counter authenticated. The
type of the frame is not. -/
structure CallOk (C : CipherSuite) (c : Call) : Prop where
  seals : C.aead.Seals c.sealed c.what.payload
  aad : c.sealed.aad = (u64ToBe c.seq).toList

theorem callOk_write {C : CipherSuite} {ch : EncryptedChannel} {data : Bytes} {e : Ciphertext}
    (h : sealData C ch data = some e) (s : Side) : CallOk C ⟨s, .data data, ch.sendSeq, e⟩ := by
  obtain ⟨⟨ct, tag⟩, henc, rfl⟩ := Option.map_eq_some_iff.mp h
  exact ⟨henc, rfl⟩

theorem callOk_sendKeyRotate {C : CipherSuite} {ch : EncryptedChannel} {gcmNonce : Nonce}
    {nonce : RotationNonce} {e : Ciphertext} (h : sealKeyRotate C ch gcmNonce nonce = some e)
    (s : Side) : CallOk C ⟨s, .keyRotate nonce, ch.keyRotateSendSeq, e⟩ := by
  obtain ⟨⟨ct, tag⟩, henc, rfl⟩ := Option.map_eq_some_iff.mp h
  exact ⟨henc, rfl⟩

theorem callOk_step {C : CipherSuite} {st : Net} (h : ∀ c ∈ st.calls, CallOk C c) (op : NetOp) :
    ∀ c ∈ (st.step C op).calls, CallOk C c := by
  intro c hc
  cases op with
  | write s w data =>
    simp only [Net.step, List.mem_append, Option.mem_toList,
      Option.map_eq_some_iff] at hc
    rcases hc with hc | ⟨e, he, rfl⟩
    · exact h c hc
    · exact callOk_write he s
  | sendKeyRotate s w gcmNonce nonce =>
    simp only [Net.step, List.mem_append, Option.mem_toList,
      Option.map_eq_some_iff] at hc
    rcases hc with hc | ⟨e, he, rfl⟩
    · exact h c hc
    · exact callOk_sendKeyRotate he s
  | rotate s nonce => exact h c hc
  | read s bytes rotates =>
    rw [Net.step, Net.read_calls] at hc
    exact h c hc

theorem callOk_run (C : CipherSuite) (key : Key) (size : Side → Nat) (ops : List NetOp) :
    ∀ c ∈ (Net.session C key size ops).calls, CallOk C c := by
  induction ops using List.reverseRecOn with
  | nil => intro c hc; exact absurd hc (by simp [Net.session, Net.run, Net.start])
  | append_singleton ops op ih =>
    rw [Net.session_snoc]
    exact callOk_step ih op

/-! ## What an accepted frame opened -/

theorem openedBy_key (ch : EncryptedChannel) (frame : Bytes) :
    (openedBy ch frame).key = ch.keyBytes := by
  unfold openedBy
  split <;> rfl

theorem openedBy_dataFrame (ch : EncryptedChannel) (len : UInt32) (seq : UInt64) (nonce : Nonce)
    (ct : Bytes) (tag : Tag) :
    openedBy ch (dataFrame len (u64ToBe seq) nonce ct tag) =
      ⟨ch.keyBytes, seq, nonce.toList ++ (ct ++ tag.toList)⟩ := by
  have htype : (dataFrame len (u64ToBe seq) nonce ct tag).take 1 = [frameData] := rfl
  have hseq : UInt64.ofNat (beNat (u64ToBe seq).toList) = seq := u64OfBe_u64ToBe seq
  rw [openedBy, if_pos htype, dataFrame_seq_field, dataFrame_drop_seq, hseq]

theorem openedBy_keyRotateFrame (ch : EncryptedChannel) (gcmNonce : Nonce) (ct : Bytes)
    (tag : Tag) :
    openedBy ch (keyRotateFrame gcmNonce ct tag) =
      ⟨ch.keyBytes, ch.keyRotateRecvSeq, gcmNonce.toList ++ (ct ++ tag.toList)⟩ := by
  simp [openedBy, keyRotateFrame, frameData, frameKeyRotate]

/-- Decryption answers with the payload of a call under the same key, counter and body. An
adversary can bring frames about, but not calls. -/
theorem Net.opener_eq_some {C : CipherSuite} {st : Net} (hcalls : ∀ c ∈ st.calls, CallOk C c)
    {k : Key} {nonce : Nonce} {seq : UInt64} {ct p : Bytes} {tag : Tag}
    (h : st.opener C k nonce (u64ToBe seq).toList ct tag = some p) :
    ∃ c ∈ st.calls, c.opened = ⟨k, seq, nonce.toList ++ (ct ++ tag.toList)⟩ ∧
      c.what.payload = p ∧ p.length = ct.length := by
  obtain ⟨hmem, hdec⟩ := C.aead.idealDecrypt_eq_some.mp h
  obtain ⟨c, hc, hsealed⟩ := List.mem_map.mp hmem
  obtain ⟨hseals, haad⟩ := hcalls c hc
  rw [hsealed] at hseals haad
  have hseq : c.seq = seq := u64ToBe_inj.mp (ByteArr.toList_inj.mp haad.symm)
  have hagain := C.aead.decrypt_encrypt _ _ _ _ _ _ hseals
  rw [hdec] at hagain
  refine ⟨c, hc, ?_, (Option.some.inj hagain).symm, C.aead.length_plain _ _ _ _ _ _ hdec⟩
  rw [Call.opened, hsealed, hseq]

/-- What the reader checked before it answered `Ok` to the payload of `c`, and what it changed. -/
inductive Accepts (ch ch' : EncryptedChannel) (c : Call) : FrameResult → Prop
  | data (p : Bytes) (fresh : ch.recvInitialized = true → ch.recvSeq < c.seq)
      (len_le : p.length ≤ ch.maxFrameSize) (len_lt : p.length + 16 < 2 ^ 32)
      (after : ch' = ch.acceptData c.seq) : Accepts ch ch' c (.data p)
  | keyRotate (n : RotationNonce) (expected : c.seq = ch.keyRotateRecvSeq)
      (after : ch' = ch.acceptKeyRotate) : Accepts ch ch' c (.keyRotate n)

/-- **An accepted frame was sealed by an endpoint**, under the reader's current key and the
counter the reader checked. -/
theorem readFrame_opened {C : CipherSuite} {st : Net} (hcalls : ∀ c ∈ st.calls, CallOk C c)
    {ch ch' : EncryptedChannel} {bytes rest : Bytes} {r : FrameResult}
    (h : (readFrame (st.opener C) ch).run bytes = some ((.ok r, ch'), rest)) :
    ∃ frame c, bytes = frame ++ rest ∧ c ∈ st.calls ∧ c.opened = openedBy ch frame ∧
      c.what.payload = r.payload ∧ Accepts ch ch' c r := by
  rcases readFrame_ok_cases h with
    ⟨len, seq, nonce, ct, tag, p, rfl, hbytes, hacc, hch'⟩ |
    ⟨gcmNonce, ct, tag, n, rfl, hbytes, -, ho, hch'⟩
  · obtain ⟨c, hc, hopened, hpay, hplen⟩ := Net.opener_eq_some hcalls hacc.opens
    obtain rfl : c.seq = seq := congrArg Opened.seq hopened
    have hlen := hacc.len_eq
    have hlt := len.toNat_lt
    refine ⟨_, c, hbytes, hc, by rw [openedBy_dataFrame, hopened], hpay, ?_⟩
    exact .data p hacc.fresh (hplen ▸ hacc.len_le) (by omega) hch'
  · obtain ⟨c, hc, hopened, hpay, -⟩ := Net.opener_eq_some hcalls ho
    refine ⟨_, c, hbytes, hc, by rw [openedBy_keyRotateFrame, hopened], hpay, ?_⟩
    exact .keyRotate n (congrArg Opened.seq hopened) hch'

/-- A call under the reader's key is opened by the reader, whoever made it. There is nothing in it
that says which side has sealed. -/
theorem Net.opener_call {C : CipherSuite} {st : Net} (hcalls : ∀ c ∈ st.calls, CallOk C c)
    {c : Call} (hc : c ∈ st.calls) :
    st.opener C c.sealed.key c.sealed.nonce (u64ToBe c.seq).toList c.sealed.ct c.sealed.tag =
      some c.what.payload := by
  obtain ⟨hseals, haad⟩ := hcalls c hc
  refine C.aead.idealDecrypt_eq_some.mpr ⟨?_, ?_⟩
  · exact List.mem_map.mpr ⟨c, hc, by rw [← haad]⟩
  · exact haad ▸ C.aead.decrypt_encrypt _ _ _ _ _ _ hseals

/-! ## What a read can do -/

namespace Net

/-- The state once `s` has accepted the ciphertext of `c` as `r`. The other side is as it was. -/
def accept (st : Net) (s : Side) (ch' : EncryptedChannel) (c : Call) (r : FrameResult) : Net :=
  { st with
    ch := Function.update st.ch s ch'
    reads := st.reads ++ [⟨s, (st.past s).length, c.opened, .ok r⟩] }

/-- **A read changes nothing, records an error, or accepts the payload of a call** and then
rotates if it was a KEY_ROTATE and the caller applies it. -/
theorem read_cases {C : CipherSuite} {st : Net} (hcalls : ∀ c ∈ st.calls, CallOk C c) (s : Side)
    (bytes : Bytes) (rotates : Bool) :
    st.read C s bytes rotates = st ∨
    (∃ opened e, st.read C s bytes rotates =
      { st with reads := st.reads ++ [⟨s, (st.past s).length, opened, .error e⟩] }) ∨
    (∃ c ∈ st.calls, ∃ ch' p, c.what.payload = p ∧ Accepts (st.ch s) ch' c (.data p) ∧
      c.sealed.key = (st.ch s).keyBytes ∧
      st.read C s bytes rotates = st.accept s ch' c (.data p)) ∨
    (∃ c ∈ st.calls, ∃ ch' n, c.what.payload = n.toList ∧ Accepts (st.ch s) ch' c (.keyRotate n) ∧
      c.sealed.key = (st.ch s).keyBytes ∧
      st.read C s bytes rotates =
        if rotates then (st.accept s ch' c (.keyRotate n)).rotate C s n
        else st.accept s ch' c (.keyRotate n)) := by
  unfold read
  cases hrun : (readFrame (st.opener C) (st.ch s)).run bytes with
  | none => exact Or.inl rfl
  | some x =>
    obtain ⟨⟨result, ch'⟩, rest⟩ := x
    cases result with
    | error e =>
      refine Or.inr (Or.inl ⟨openedBy (st.ch s) (bytes.take (bytes.length - rest.length)), e, ?_⟩)
      simp [readFrame_error hrun]
    | ok r =>
      obtain ⟨frame, c, rfl, hc, hopened, hpay, hacc⟩ := readFrame_opened hcalls hrun
      have hframe : (frame ++ rest).take ((frame ++ rest).length - rest.length) = frame := by simp
      have hkey : c.sealed.key = (st.ch s).keyBytes := by
        rw [← openedBy_key (st.ch s) frame, ← hopened]
        rfl
      dsimp only
      rw [hframe, ← hopened]
      cases r with
      | data p => exact Or.inr (Or.inr (Or.inl ⟨c, hc, ch', p, hpay, hacc, hkey, rfl⟩))
      | keyRotate n => exact Or.inr (Or.inr (Or.inr ⟨c, hc, ch', n, hpay, hacc, hkey, rfl⟩))

end Net

end LatticeShield
