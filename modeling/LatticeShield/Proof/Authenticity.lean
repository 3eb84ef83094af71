import LatticeShield.Crypto.Sample
import LatticeShield.Proof.Network

/-!
# What an accepted frame says about its origin

Two things a receiver might hope to learn from `Ok`, and does not. The *kind*: DATA and
KEY_ROTATE are sealed under one key with an 8-byte counter as associated data, and the type byte is
outside it, so a 32-byte DATA payload can come back as a rotation nonce and a rotation nonce as
data (`payload_authentic`). The *direction*: both endpoints share key and counters, so an
endpoint's own frame, sent back, is judged by the same test as its peer's (`reflected_iff`).

In both cases the authenticated part is what the file proves: payload, key and counter.
-/

set_option autoImplicit false

namespace LatticeShield

open Lib EncryptedChannel

/-! ## Kind -/

/-- The operation is not an encryption by anyone but `sender`. A run of such operations is the
setting of a reflection: all that is ever sent is one side's own. -/
def NetOp.SentBy (sender : Side) : NetOp → Prop
  | .write s _ _ => s = sender
  | .sendKeyRotate s _ _ _ => s = sender
  | .rotate _ _ => True
  | .read _ _ _ => True

theorem side_of_mem_calls (C : CipherSuite) (key : Key) (size : Side → Nat) {sender : Side}
    {ops : List NetOp} (hops : ∀ op ∈ ops, op.SentBy sender) :
    ∀ c ∈ (Net.session C key size ops).calls, c.side = sender := by
  induction ops using List.reverseRecOn with
  | nil => intro c hc; exact absurd hc (by simp [Net.session, Net.run, Net.start])
  | append_singleton ops op ih =>
    have hop : op.SentBy sender := hops op (by simp)
    have ih := ih fun op' h => hops op' (List.mem_append_left _ h)
    intro c hc
    rw [Net.session_snoc] at hc
    cases op with
    | write s w data =>
      simp only [Net.step, List.mem_append, Option.mem_toList, Option.map_eq_some_iff] at hc
      rcases hc with hc | ⟨e, -, rfl⟩
      · exact ih c hc
      · exact hop
    | sendKeyRotate s w gcmNonce nonce =>
      simp only [Net.step, List.mem_append, Option.mem_toList, Option.map_eq_some_iff] at hc
      rcases hc with hc | ⟨e, -, rfl⟩
      · exact ih c hc
      · exact hop
    | rotate s nonce => exact ih c hc
    | read s bytes rotates =>
      rw [Net.step, Net.read_calls] at hc
      exact ih c hc

/-- A payload comes from the call of its own kind, or from the other kind's: a rotation nonce is
32 bytes like any other, and what is decrypted does not say for which it was sealed. -/
theorem FrameResult.eq_or_of_payload_data {w : FrameResult} {p : Bytes} (h : w.payload = p) :
    w = .data p ∨ ∃ n : RotationNonce, w = .keyRotate n ∧ n.toList = p := by
  cases w with
  | data q => exact Or.inl (congrArg FrameResult.data h)
  | keyRotate n => exact Or.inr ⟨n, rfl, h⟩

theorem FrameResult.eq_or_of_payload_keyRotate {w : FrameResult} {n : RotationNonce}
    (h : w.payload = n.toList) : w = .keyRotate n ∨ w = .data n.toList := by
  cases w with
  | data q => exact Or.inr (congrArg FrameResult.data h)
  | keyRotate m => exact Or.inl (congrArg FrameResult.keyRotate (ByteArr.toList_inj.mp h))

/-- **The payload, the key and the counter are authentic; the kind is not.** Whatever the
adversary presents in a session in which only `sender` has encrypted: what the peer accepts,
`sender` has sealed under the peer's current key and with the very counter that the peer has
checked. The type byte is outside the authenticated data, so a frame may come back as the other
kind. -/
theorem payload_authentic (C : CipherSuite) (key : Key) (size : Side → Nat) (sender : Side)
    (ops : List NetOp) (hops : ∀ op ∈ ops, op.SentBy sender) (bytes rest : Bytes)
    (r : FrameResult) (ch' : EncryptedChannel)
    (h : (readFrame ((Net.session C key size ops).opener C)
      ((Net.session C key size ops).ch sender.peer)).run bytes =
        some ((.ok r, ch'), rest)) :
    (∀ n, r = .keyRotate n → ∃ c ∈ (Net.session C key size ops).calls, c.side = sender ∧
      c.sealed.key = ((Net.session C key size ops).ch sender.peer).keyBytes ∧
      c.seq = ((Net.session C key size ops).ch sender.peer).keyRotateRecvSeq ∧
      (c.what = .keyRotate n ∨ c.what = .data n.toList)) ∧
    (∀ p, r = .data p → ∃ c ∈ (Net.session C key size ops).calls, c.side = sender ∧
      c.sealed.key = ((Net.session C key size ops).ch sender.peer).keyBytes ∧
      c.seq = ch'.recvSeq ∧
      (c.what = .data p ∨ ∃ n : RotationNonce, c.what = .keyRotate n ∧ n.toList = p)) := by
  obtain ⟨frame, c, -, hc, hopened, hpay, hacc⟩ :=
    readFrame_opened (callOk_run C key size ops) h
  have hside := side_of_mem_calls C key size hops c hc
  have hkey : c.sealed.key = ((Net.session C key size ops).ch sender.peer).keyBytes := by
    rw [← openedBy_key _ frame, ← hopened]
    rfl
  cases hacc with
  | data p hfresh hle hlt hafter =>
    refine ⟨fun n hr => absurd hr (by simp), fun q hq => ⟨c, hc, hside, hkey, ?_, ?_⟩⟩
    · rw [hafter]; rfl
    · rw [← FrameResult.data.inj hq]
      exact FrameResult.eq_or_of_payload_data hpay
  | keyRotate n hexp hafter =>
    refine ⟨fun m hm => ⟨c, hc, hside, hkey, hexp, ?_⟩, fun p hr => absurd hr (by simp)⟩
    rw [← FrameResult.keyRotate.inj hm]
    exact FrameResult.eq_or_of_payload_keyRotate hpay

/-- The sample session after the bridge wrote one 32-byte payload. -/
def Sample.wroteRotation : Net :=
  .session Sample.suite Sample.key (fun _ => Sample.frameSize)
    [.write .bridge .accepts (Sample.rot 7).toList]

/-- That frame as the adversary re-types it: the KEY_ROTATE type byte, then nonce, ciphertext and
tag as they were. -/
def Sample.retyped : Bytes :=
  frameKeyRotate ::
    (writeFrame Sample.suite Sample.channel .accepts (Sample.rot 7).toList).bytes.drop 13

/-- The client takes it for a rotation, and the sender never asked for one. It goes on with a key
that the bridge has not got. -/
theorem retyped_data_accepted :
    ((readFrame (Sample.wroteRotation.opener Sample.suite) (Sample.wroteRotation.ch .client)).run
      Sample.retyped).map (·.1.1) = some (.ok (.keyRotate (Sample.rot 7))) ∧
    ∀ c ∈ Sample.wroteRotation.calls, c.what ≠ .keyRotate (Sample.rot 7) := by
  decide +kernel

theorem payload_authentic_retyped :
    ∃ c ∈ Sample.wroteRotation.calls, c.side = .bridge ∧
      (c.what = .keyRotate (Sample.rot 7) ∨ c.what = .data (Sample.rot 7).toList) := by
  obtain ⟨hrotate, -⟩ := payload_authentic Sample.suite Sample.key (fun _ => Sample.frameSize)
    .bridge [.write .bridge .accepts (Sample.rot 7).toList] (by simp [NetOp.SentBy])
    Sample.retyped [] (.keyRotate (Sample.rot 7)) Sample.channel.acceptKeyRotate
    (by decide +kernel)
  obtain ⟨c, hc, hside, -, -, hwhat⟩ := hrotate _ rfl
  exact ⟨c, hc, hside, hwhat⟩

/-! ## Direction -/

theorem length_opened_body {C : CipherSuite} {c : Call} (h : CallOk C c) :
    c.opened.body.length = c.what.payload.length + 28 := by
  have hct := C.aead.length_ct _ _ _ _ _ _ h.seals
  simp only [Call.opened, List.length_append, List.Vector.toList_length, hct]
  omega

/-- The reader's own checks, asked of a ciphertext that is on record: the key it was sealed under
is the reader's current one, and presented as DATA it fits and has a new seq, or presented as
KEY_ROTATE it is 32 bytes long and has the expected counter. -/
def Passes (ch : EncryptedChannel) (c : Call) : Prop :=
  c.sealed.key = ch.keyBytes ∧
    ((c.what.payload.length ≤ ch.maxFrameSize ∧ c.what.payload.length + 16 < 2 ^ 32 ∧
        (ch.recvInitialized = true → ch.recvSeq < c.seq)) ∨
      (c.what.payload.length = 32 ∧ c.seq = ch.keyRotateRecvSeq))

instance (ch : EncryptedChannel) (c : Call) : Decidable (Passes ch c) :=
  inferInstanceAs (Decidable (_ ∧ _))

theorem passes_of_accepted {C : CipherSuite} {st : Net} (hcalls : ∀ c ∈ st.calls, CallOk C c)
    {ch ch' : EncryptedChannel} {c : Call} (hc : c ∈ st.calls) {frame : Bytes} {r : FrameResult}
    (h : (readFrame (st.opener C) ch).run frame = some ((.ok r, ch'), []))
    (hopened : openedBy ch frame = c.opened) : Passes ch c := by
  obtain ⟨frame', c', hframe, hc', hopened', hpay, hacc⟩ := readFrame_opened hcalls h
  rw [List.append_nil] at hframe
  -- the call that was opened may be another one, but it has the same key, counter and length
  have hsame : c'.opened = c.opened := by rw [hopened', ← hframe, hopened]
  have hseq : c'.seq = c.seq := congrArg Opened.seq hsame
  have hlen : c.what.payload.length = r.payload.length := by
    have h₁ := length_opened_body (hcalls c hc)
    have h₂ := length_opened_body (hcalls c' hc')
    rw [hsame] at h₂
    rw [← hpay]
    omega
  refine ⟨?_, ?_⟩
  · rw [← openedBy_key ch frame, hopened]
    rfl
  · rw [hlen, ← hseq]
    cases hacc with
    | data p hfresh hle hlt hafter => exact Or.inl ⟨hle, hlt, hfresh⟩
    | keyRotate n hexp hafter => exact Or.inr ⟨n.toList_length, hexp⟩

theorem accepted_of_passes {C : CipherSuite} {st : Net} (hcalls : ∀ c ∈ st.calls, CallOk C c)
    {ch : EncryptedChannel} {c : Call} (hc : c ∈ st.calls) (h : Passes ch c) :
    ∃ frame r ch', (readFrame (st.opener C) ch).run frame = some ((.ok r, ch'), []) ∧
      openedBy ch frame = c.opened := by
  obtain ⟨hkey, hcase⟩ := h
  have hopens := Net.opener_call hcalls hc
  have hct : c.sealed.ct.length = c.what.payload.length :=
    C.aead.length_ct _ _ _ _ _ _ (hcalls c hc).seals
  rw [hkey] at hopens
  rcases hcase with ⟨hle, hlt, hfresh⟩ | ⟨h32, hexp⟩
  · have hacc : AcceptsData (st.opener C) ch (UInt32.ofNat (c.sealed.ct.length + 16)) c.seq
        c.sealed.nonce c.sealed.ct c.sealed.tag c.what.payload := by
      refine ⟨?_, hct ▸ hle, hfresh, hopens⟩
      rw [UInt32.toNat_ofNat', Nat.mod_eq_of_lt (by omega)]
    refine ⟨_, _, _, by simpa using run_readDataFrame [] hacc, ?_⟩
    rw [openedBy_dataFrame, Call.opened, hkey]
  · rw [hexp] at hopens
    have hrun := run_readKeyRotateFrame (n := ⟨c.what.payload, h32⟩) [] (hct.trans h32) hopens
    refine ⟨_, _, _, by simpa using hrun, ?_⟩
    rw [openedBy_keyRotateFrame, Call.opened, hkey, hexp]

/-- **An endpoint accepts a ciphertext of the session, its own or its peer's, exactly when it
passes the reader's checks**: none of them asks who made it. Both directions use one key, and
neither the nonce nor the authenticated data names a sender. -/
theorem reflected_iff (C : CipherSuite) (key : Key) (size : Side → Nat) (ops : List NetOp)
    (s : Side) (c : Call) (hc : c ∈ (Net.session C key size ops).calls) :
    (∃ frame r ch',
      (readFrame ((Net.session C key size ops).opener C) ((Net.session C key size ops).ch s)).run
        frame = some ((.ok r, ch'), []) ∧
      openedBy ((Net.session C key size ops).ch s) frame = c.opened) ↔
    Passes ((Net.session C key size ops).ch s) c := by
  have hcalls := callOk_run C key size ops
  constructor
  · rintro ⟨frame, r, ch', hrun, hopened⟩
    exact passes_of_accepted hcalls hc hrun hopened
  · intro h
    exact accepted_of_passes hcalls hc h

/-- The sample session after the bridge wrote one frame. -/
def Sample.wroteOne : Net :=
  .session Sample.suite Sample.key (fun _ => Sample.frameSize) [.write .bridge .accepts [1, 2, 3]]

def Sample.wroteOneFrame : Bytes :=
  (writeFrame Sample.suite Sample.channel .accepts [1, 2, 3]).bytes

/-- The bridge reads back the frame it has just written. For the seq its receive counter is the
one of the other direction, and it has not moved yet. -/
theorem own_frame_accepted :
    ((readFrame (Sample.wroteOne.opener Sample.suite) (Sample.wroteOne.ch .bridge)).run
      Sample.wroteOneFrame).map (·.1.1) = some (.ok (.data [1, 2, 3])) ∧
    ∃ c ∈ Sample.wroteOne.calls, c.side = .bridge ∧
      c.opened = openedBy (Sample.wroteOne.ch .bridge) Sample.wroteOneFrame := by
  decide +kernel

theorem reflected_iff_first_frame :
    ∃ c ∈ Sample.wroteOne.calls, c.side = .bridge ∧ ∃ frame r ch',
      (readFrame (Sample.wroteOne.opener Sample.suite) (Sample.wroteOne.ch .bridge)).run frame =
        some ((.ok r, ch'), []) ∧
      openedBy (Sample.wroteOne.ch .bridge) frame = c.opened := by
  obtain ⟨c, hc, hside, hpass⟩ : ∃ c ∈ Sample.wroteOne.calls, c.side = .bridge ∧
      Passes (Sample.wroteOne.ch .bridge) c := by decide +kernel
  refine ⟨c, hc, hside, ?_⟩
  exact (reflected_iff Sample.suite Sample.key (fun _ => Sample.frameSize)
    [.write .bridge .accepts [1, 2, 3]] .bridge c hc).mpr hpass

end LatticeShield
