import LatticeShield.Bridge.Admin
import LatticeShield.Client.Config
import LatticeShield.Crypto.Sample
import LatticeShield.Js.Worker
import LatticeShield.Proof.JsFrames
import LatticeShield.Proof.SessionSteps
import LatticeShield.Proof.Validate

/-!
# Which frames the other side takes

A sender cuts its payloads by its own `max_frame_size`, if it has one, and a receiver checks a
frame against its own. The limit is a setting of each program, neither side tells the other, and
nothing makes them equal: two configurations that are both accepted need not fit. `PQCSession.send`
has no limit, and an empty payload, which no relay loop ever sends, is for the bridge the end of the
session.

What is left is exact: a frame of a sender the receiver is in step with is taken if and only if its
payload is within the receiver's limit and, at the bridge, not empty.
-/

set_option autoImplicit false

namespace LatticeShield

open Lib EncryptedChannel

/-! ## One frame and one channel -/

namespace EncryptedChannel

/-- The receiver has the sender's key and has seen no seq that is still to come. So whatever is
refused is refused for its size or for being empty. -/
structure Follows (rx tx : EncryptedChannel) : Prop where
  key : rx.keyBytes = tx.keyBytes
  fresh : rx.recvInitialized = true → rx.recvSeq < tx.sendSeq

/-- `read_frame` returns the payload, and nothing is left of the frame. What the caller does with
an empty one is not asked here. -/
def Accepts (C : CipherSuite) (rx : EncryptedChannel) (frame payload : Bytes) : Prop :=
  ∃ ch, (rx.readFrame C.aead.decrypt).run frame = some ((.ok (.data payload), ch), [])

variable {C : CipherSuite} {rx tx : EncryptedChannel}

/-- Whatever was read, no payload is longer than the limit. The check is on the field of the
header, before the payload is read. -/
theorem length_le_of_readFrame {bs rest p : Bytes} {ch : EncryptedChannel}
    (h : (rx.readFrame C.aead.decrypt).run bs = some ((.ok (.data p), ch), rest)) :
    p.length ≤ rx.maxFrameSize := by
  rcases readFrame_ok_cases h with
    ⟨len, seq, nonce, ct, tag, q, hq, -, hacc, -⟩ | ⟨gcmNonce, ct, tag, n, hn, -⟩
  · obtain rfl := FrameResult.data.inj hq
    rw [C.aead.length_plain _ _ _ _ _ _ hacc.opens]
    exact hacc.len_le
  · exact absurd hn (by simp)

/-- A DATA frame as both senders make it. Everything but the length is given, so the limit alone
decides. -/
theorem accepts_dataFrame_iff {seq : UInt64} {nonce : Nonce} {ct p : Bytes} {tag : Tag}
    (hmax : rx.maxFrameSize + 16 < 2 ^ 32) (hct : ct.length = p.length)
    (hopens : C.aead.decrypt rx.keyBytes nonce (u64ToBe seq).toList ct tag = some p)
    (hfresh : rx.recvInitialized = true → rx.recvSeq < seq) :
    rx.Accepts C (dataFrame (UInt32.ofNat (ct.length + 16)) (u64ToBe seq) nonce ct tag) p ↔
      p.length ≤ rx.maxFrameSize := by
  constructor
  · rintro ⟨ch, hrun⟩
    exact length_le_of_readFrame hrun
  · intro hp
    have hlen : ct.length + 16 = (UInt32.ofNat (ct.length + 16)).toNat := by
      rw [UInt32.toNat_ofNat', Nat.mod_eq_of_lt (by omega)]
    have hacc : AcceptsData C.aead.decrypt rx (UInt32.ofNat (ct.length + 16)) seq nonce ct tag p :=
      ⟨hlen, hct ▸ hp, hfresh, hopens⟩
    have hrun := run_readDataFrame [] hacc
    rw [List.append_nil] at hrun
    exact ⟨_, hrun⟩

theorem accepts_writeFrame_iff (hmax : rx.maxFrameSize + 16 < 2 ^ 32) (h : rx.Follows tx)
    (p : Bytes) : rx.Accepts C (tx.writeFrame C .accepts p).bytes p ↔
      p.length ≤ rx.maxFrameSize := by
  by_cases hgcm : p.length ≤ gcmPMax
  · obtain ⟨ct, tag, hct, hdec, hwrite⟩ := writeFrame_accepts C tx hgcm
    rw [hwrite]
    exact accepts_dataFrame_iff hmax hct (h.key ▸ hdec) h.fresh
  · -- such a payload cannot be encrypted, nor would it fit
    refine iff_of_false ?_ ?_
    · rintro ⟨ch, hrun⟩
      have := length_le_of_readFrame hrun
      unfold gcmPMax at hgcm
      omega
    · unfold gcmPMax at hgcm
      omega

end EncryptedChannel

/-! ## The receivers -/

/-- The bridge's loop reads this payload from this frame and goes on, with a backend that takes
what it writes. -/
def Bridge.Relay.Takes (C : CipherSuite) (r : Relay) (frame payload : Bytes) : Prop :=
  ∃ ch, (r.channel.readFrame C.aead.decrypt).run frame = some ((.ok (.data payload), ch), []) ∧
    ({ r with channel := ch, taken := [] }.onFrame true (.ok (.data payload))).finished = none

/-- The client's loop, with a user that takes what it writes. Unlike the bridge's it goes on
behind an empty frame. -/
def Client.Relay.Takes (C : CipherSuite) (r : Relay) (frame payload : Bytes) : Prop :=
  ∃ ch, (r.channel.readFrame C.aead.decrypt).run frame = some ((.ok (.data payload), ch), []) ∧
    ({ r with channel := ch, taken := [] }.onFrame C true (.ok (.data payload))).outcome = none

variable {C : CipherSuite}

/-- For the bridge an empty payload ends the session: `Data` with no bytes is the peer's way to
say that it is done, and the loop breaks. -/
theorem Bridge.Relay.takes_iff {r : Relay} (hlive : r.finished = none) (frame payload : Bytes) :
    r.Takes C frame payload ↔ payload ≠ [] ∧ r.channel.Accepts C frame payload := by
  constructor
  · rintro ⟨ch, hrun, hgo⟩
    refine ⟨?_, ch, hrun⟩
    rintro rfl
    exact absurd hgo (by simp [onFrame, finish])
  · rintro ⟨hne, ch, hrun⟩
    exact ⟨ch, hrun, by simp [onFrame, hne, hlive]⟩

theorem Client.Relay.takes_iff {r : Relay} (hlive : r.outcome = none) (frame payload : Bytes) :
    r.Takes C frame payload ↔ r.channel.Accepts C frame payload := by
  constructor
  · rintro ⟨ch, hrun, -⟩
    exact ⟨ch, hrun⟩
  · rintro ⟨ch, hrun⟩
    exact ⟨ch, hrun, by simp [onFrame, hlive]⟩

theorem ValidFrameSize.add_tag_lt {n : Nat} (h : ValidFrameSize n) : n + 16 < 2 ^ 32 := by
  have := h.2
  omega

/-- From the bridge's backend to the client. -/
theorem Client.Relay.takes_writeFrame_iff {cfg : ValidClientConfig} {r : Relay}
    (hlive : r.outcome = none) (hsize : r.channel.maxFrameSize = cfg.maxFrameSize)
    {tx : EncryptedChannel} (h : r.channel.Follows tx) (p : Bytes) :
    r.Takes C (tx.writeFrame C .accepts p).bytes p ↔ p.length ≤ cfg.maxFrameSize := by
  have hmax := cfg.validFrameSize.add_tag_lt
  rw [← hsize] at hmax ⊢
  rw [takes_iff hlive, accepts_writeFrame_iff hmax h]

/-- From the client's user to the bridge. -/
theorem Bridge.Relay.takes_writeFrame_iff {cfg : ValidConfig} {r : Relay}
    (hlive : r.finished = none) (hsize : r.channel.maxFrameSize = cfg.maxFrameSize)
    {tx : EncryptedChannel} (h : r.channel.Follows tx) (p : Bytes) :
    r.Takes C (tx.writeFrame C .accepts p).bytes p ↔
      p ≠ [] ∧ p.length ≤ cfg.maxFrameSize := by
  have hmax := cfg.validFrameSize.add_tag_lt
  rw [← hsize] at hmax ⊢
  rw [takes_iff hlive, accepts_writeFrame_iff hmax h]

namespace Js

/-- The bridge is in step with a browser's worker: it has the key the worker encrypts with, and
has seen no seq that is still to come. -/
structure Worker.FollowedBy (w : Worker) (rx : EncryptedChannel) : Prop where
  key : ∀ key, w.sessionKey = some key → rx.keyBytes = key.aes
  fresh : rx.recvInitialized = true → rx.recvSeq.toNat < w.sendSeq

/-- The frame of an ENCRYPT is a DATA frame that opens, with the worker's key and its seq. The
worker has no limit of its own. -/
theorem Worker.handle_encrypt {w w' : Worker} {id : String} {p frame : Bytes}
    (h : w.handle C (.encrypt id p) = (w', .encrypted id frame)) :
    ∃ key seq nonce ct tag, w.sessionKey = some key ∧ w.sendSeq = UInt64.toNat seq ∧
      ct.length = p.length ∧
      C.aead.decrypt key.aes nonce (u64ToBe seq).toList ct tag = some p ∧
      frame = dataFrame (UInt32.ofNat (ct.length + 16)) (u64ToBe seq) nonce ct tag := by
  unfold handle start handleEncrypt at h
  cases hkey : w.sessionKey with
  | none => rw [hkey] at h; exact absurd h (by simp)
  | some key =>
    rw [hkey] at h
    simp only [resume] at h
    have hseq : w.sendSeq ≤ maxU64 := by
      by_contra hgt
      rw [encodeFrame_of_gt C key p (Nat.not_le.mp hgt)] at h
      exact absurd h (by simp)
    have hto : w.sendSeq = (UInt64.ofNat w.sendSeq).toNat := by
      rw [UInt64.toNat_ofNat', Nat.mod_eq_of_lt]
      unfold maxU64 at hseq
      omega
    generalize UInt64.ofNat w.sendSeq = seq at hto
    rw [hto, encodeFrame_toNat] at h
    cases henc : C.aead.encrypt key.aes (dataNonce seq 0) (u64ToBe seq).toList p with
    | none => rw [henc] at h; exact absurd h (by simp)
    | some sealed =>
      obtain ⟨ct, tag⟩ := sealed
      rw [henc] at h
      simp only [Prod.mk.injEq, OutMessage.encrypted.injEq, true_and] at h
      exact ⟨key, seq, dataNonce seq 0, ct, tag, rfl, hto, C.aead.length_ct _ _ _ _ _ _ henc,
        C.aead.decrypt_encrypt _ _ _ _ _ _ henc, h.2.symm⟩

/-- From a browser to the bridge. -/
theorem takes_encrypted_iff {cfg : Bridge.ValidConfig} {r : Bridge.Relay}
    (hlive : r.finished = none) (hsize : r.channel.maxFrameSize = cfg.maxFrameSize)
    {w w' : Worker} (h : w.FollowedBy r.channel) {id : String} {p frame : Bytes}
    (henc : w.handle C (.encrypt id p) = (w', .encrypted id frame)) :
    r.Takes C frame p ↔ p ≠ [] ∧ p.length ≤ cfg.maxFrameSize := by
  have hmax := cfg.validFrameSize.add_tag_lt
  obtain ⟨key, seq, nonce, ct, tag, hkey, hseq, hct, hopens, rfl⟩ := Worker.handle_encrypt henc
  rw [← hsize] at hmax ⊢
  rw [Bridge.Relay.takes_iff hlive, accepts_dataFrame_iff hmax hct ((h.key key hkey).symm ▸ hopens)]
  intro hinit
  have hlt := h.fresh hinit
  rw [hseq] at hlt
  exact UInt64.lt_iff_toNat_lt.mpr hlt

end Js

/-- From the admin handler to the command line. -/
theorem Admin.cliRead_respond_iff (serialize : AdminResponse → Bytes) {tx rx : EncryptedChannel}
    (hsize : rx.maxFrameSize = cliMaxFrameSize) (h : rx.Follows tx) (response : AdminResponse) :
    cliRead C rx (respond C serialize tx response).bytes = some (serialize response) ↔
      (serialize response).length ≤ cliMaxFrameSize := by
  have hmax : rx.maxFrameSize + 16 < 2 ^ 32 := by rw [hsize]; decide
  rw [← hsize]
  constructor
  · intro hread
    unfold cliRead at hread
    split at hread
    · rename_i b ch rest hrun
      obtain rfl := Option.some.inj hread
      exact length_le_of_readFrame hrun
    · exact absurd hread (by simp)
  · intro hlen
    obtain ⟨ch, hrun⟩ := (accepts_writeFrame_iff (C := C) hmax h (serialize response)).mpr hlen
    simp only [cliRead, respond, hrun]

/-! ## All pairs -/

/-- What becomes of the frames of honest senders: `atClient`, `atBridge` and `atCli` say which
payloads the receiver takes. A receiver runs with its own configuration's limit and is in step
with its sender. -/
structure Taken (C : CipherSuite) (bridge : Bridge.ValidConfig) (client : Client.ValidClientConfig)
    (serialize : Admin.AdminResponse → Bytes) (atClient atBridge atCli : Bytes → Prop) :
    Prop where
  fromBackend : ∀ (tx : EncryptedChannel) (r : Client.Relay) (read : SocketRead) (p : Bytes),
    r.outcome = none → r.channel.maxFrameSize = client.maxFrameSize → r.channel.Follows tx →
    read.chunk bridge.maxFrameSize = some p →
    (r.Takes C (tx.writeFrame C .accepts p).bytes p ↔ atClient p)
  fromUser : ∀ (tx : EncryptedChannel) (r : Bridge.Relay) (read : SocketRead) (p : Bytes),
    r.finished = none → r.channel.maxFrameSize = bridge.maxFrameSize → r.channel.Follows tx →
    read.chunk client.maxFrameSize = some p →
    (r.Takes C (tx.writeFrame C .accepts p).bytes p ↔ atBridge p)
  fromBrowser : ∀ (w w' : Js.Worker) (r : Bridge.Relay) (id : String) (p frame : Bytes),
    r.finished = none → r.channel.maxFrameSize = bridge.maxFrameSize →
    w.FollowedBy r.channel → w.handle C (.encrypt id p) = (w', .encrypted id frame) →
    (r.Takes C frame p ↔ atBridge p)
  fromAdmin : ∀ (tx rx : EncryptedChannel) (response : Admin.AdminResponse),
    rx.maxFrameSize = Admin.cliMaxFrameSize → rx.Follows tx →
    (Admin.cliRead C rx (Admin.respond C serialize tx response).bytes =
      some (serialize response) ↔ atCli (serialize response))

/-- **The receiver's limit decides.** For any two accepted configurations, a frame is taken if and
only if its payload is within the limit of the side that reads it, and not empty where that is the
bridge. The limits are read from each program's own file and the handshake does not exchange them,
so what one side may send the other may refuse; the command line has a limit of its own. -/
theorem frames_taken_iff (C : CipherSuite) (serialize : Admin.AdminResponse → Bytes)
    {host : Bridge.Host} {config : Bridge.Config} {valid : Bridge.RunConfig}
    {clientConfig : Client.ClientConfig} {clientValid : Client.RunConfig}
    (hbridge : config.validate host = .ok valid)
    (hclient : clientConfig.validate = .ok clientValid) :
    Taken C valid.toValidConfig clientValid.toValidClientConfig serialize
      (fun p => p.length ≤ clientConfig.client.maxFrameSize)
      (fun p => p ≠ [] ∧ p.length ≤ config.server.maxFrameSize)
      (fun p => p.length ≤ 64 * 1024) := by
  obtain ⟨-, -, carried⟩ := Bridge.Config.validate_eq_ok hbridge
  obtain ⟨-, -, -, hsize⟩ := Client.ClientConfig.validate_eq_ok hclient
  rw [← carried.maxFrameSize, ← hsize]
  constructor
  · intro tx r read p hlive hr h _
    exact Client.Relay.takes_writeFrame_iff hlive hr h p
  · intro tx r read p hlive hr h _
    exact Bridge.Relay.takes_writeFrame_iff hlive hr h p
  · intro w w' r id p frame hlive hr h henc
    exact Js.takes_encrypted_iff hlive hr h henc
  · intro tx rx response hr h
    exact Admin.cliRead_respond_iff serialize hr h response

/-! ## Two pairs of configurations -/

namespace Sample

/-- The defaults, but clients are not authenticated, so that no key is needed. -/
def openBridge : Bridge.Config := { auth := { requireClientAuth := false } }

/-- The defaults, with the smallest frames there are. -/
def smallFrames : Client.ClientConfig := { client := { maxFrameSize := 1024 } }

theorem openBridge_accepted : ∃ valid, openBridge.validate Bridge.sampleHost = .ok valid ∧
    valid.maxFrameSize = 65536 := by
  have h : (openBridge.validate Bridge.sampleHost).toOption.map (·.maxFrameSize) = some 65536 := by
    decide +kernel
  exact exists_ok_of_map h

/-- A read of the backend that a frame of 64 KiB holds and one of 1 KiB does not. -/
def answer : Bytes := List.replicate 1025 0

end Sample

theorem frames_taken_by_default : ∃ valid clientValid,
    Sample.openBridge.validate Bridge.sampleHost = .ok valid ∧
    ({} : Client.ClientConfig).validate = .ok clientValid ∧
    (Client.Relay.new clientValid.toValidClientConfig Sample.key).Takes Sample.suite
      ((EncryptedChannel.new Sample.key valid.maxFrameSize).writeFrame Sample.suite .accepts
        [1, 2, 3]).bytes [1, 2, 3] := by
  obtain ⟨valid, hvalid, hsize⟩ := Sample.openBridge_accepted
  have h : ({} : Client.ClientConfig).validate.toOption.map (·.maxFrameSize) = some 65536 := by
    decide +kernel
  obtain ⟨clientValid, hclient, -⟩ := exists_ok_of_map h
  refine ⟨valid, clientValid, hvalid, hclient, ?_⟩
  refine ((frames_taken_iff Sample.suite (fun _ => []) hvalid hclient).fromBackend
    (.new Sample.key valid.maxFrameSize) (.new clientValid.toValidClientConfig Sample.key)
    (.ok [1, 2, 3]) [1, 2, 3] rfl rfl ⟨rfl, ?_⟩ ?_).mpr (by decide)
  · intro hinit
    exact absurd hinit (by simp [Client.Relay.new, EncryptedChannel.new])
  · rw [hsize]; decide

/-- **Unfit.** Two accepted configurations, and a read of the backend whose frame the client
refuses; and an empty message of a browser, which ends its session at the bridge. -/
theorem frames_refused_between_accepted : ∃ valid clientValid,
    Sample.openBridge.validate Bridge.sampleHost = .ok valid ∧
    Sample.smallFrames.validate = .ok clientValid ∧
    SocketRead.chunk valid.maxFrameSize (.ok Sample.answer) = some Sample.answer ∧
    ¬ (Client.Relay.new clientValid.toValidClientConfig Sample.key).Takes Sample.suite
      ((EncryptedChannel.new Sample.key valid.maxFrameSize).writeFrame Sample.suite .accepts
        Sample.answer).bytes Sample.answer ∧
    (∃ w' frame, (Js.Worker.initialised ⟨Sample.key, Sample.key⟩).handle Sample.suite
        (.encrypt "op-0" []) = (w', .encrypted "op-0" frame) ∧
      ¬ (Bridge.Relay.new valid.toValidConfig Sample.key).Takes Sample.suite frame []) ∧
    ¬ Taken Sample.suite valid.toValidConfig clientValid.toValidClientConfig (fun _ => [])
      (fun _ => True) (fun _ => True) (fun _ => True) := by
  obtain ⟨valid, hvalid, hsize⟩ := Sample.openBridge_accepted
  have h : Sample.smallFrames.validate.toOption.map (·.maxFrameSize) = some 1024 := by
    decide +kernel
  obtain ⟨clientValid, hclient, hsmall⟩ := exists_ok_of_map h
  have hfollows : (Client.Relay.new clientValid.toValidClientConfig Sample.key).channel.Follows
      (EncryptedChannel.new Sample.key valid.maxFrameSize) :=
    ⟨rfl, fun hinit => absurd hinit (by simp [Client.Relay.new, EncryptedChannel.new])⟩
  have hchunk : SocketRead.chunk valid.maxFrameSize (.ok Sample.answer) = some Sample.answer := by
    rw [hsize]; decide +kernel
  have hrefused : ¬ (Client.Relay.new clientValid.toValidClientConfig Sample.key).Takes Sample.suite
      ((EncryptedChannel.new Sample.key valid.maxFrameSize).writeFrame Sample.suite .accepts
        Sample.answer).bytes Sample.answer := by
    intro htakes
    have hlen : Sample.answer.length ≤ clientValid.maxFrameSize :=
      (Client.Relay.takes_writeFrame_iff rfl rfl hfollows _).mp htakes
    rw [hsmall] at hlen
    exact absurd hlen (by decide +kernel)
  refine ⟨valid, clientValid, hvalid, hclient, hchunk, hrefused, ?_, ?_⟩
  · refine ⟨_, _, rfl, ?_⟩
    intro htakes
    exact ((Bridge.Relay.takes_iff rfl _ _).mp htakes).1 rfl
  · intro hall
    exact hrefused ((hall.fromBackend _ _ _ _ rfl rfl hfollows hchunk).mpr trivial)

end LatticeShield
