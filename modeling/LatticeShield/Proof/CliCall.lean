import LatticeShield.Cli.VkShare
import LatticeShield.Proof.KeyExchange

/-!
# What a call of `vk-share` has read and written

A call that has got behind its handshake has read one hello and written the response it made to it;
one that waits for its reply has written its command behind that; and one that printed a token has
read it out of what followed the hello. `Call.At` says so phase by phase, of the bytes that have
arrived so far.
-/

set_option autoImplicit false

namespace LatticeShield.Cli

open Lib

variable {H : HandshakeSuite} {C : CipherSuite} {serde : Serde} {command : Command}

/-- The keys of the command, as the handshake of a client has them. -/
def Command.own (command : Command) : Client.ClientIdentity :=
  ⟨command.adminIdentity.signingKey, command.adminIdentity.verifyingKey⟩

/-- The response is the one that a client with the same keys makes. So what is known of the
client's answer holds of the command line's. -/
theorem answer_of_respond {helloBuf : ByteArr serverHelloSignedLen} {rng : Rng}
    {a : Client.Answer} (h : respond H command helloBuf rng = .ok a) :
    Client.answer H command.bridgeVk (some command.own) helloBuf rng = .ok a := by
  unfold respond at h
  dsimp only at h
  split at h
  · cases h
  · rename_i hello hparse
    split at h
    · cases h
    · rename_i response sessionKey rng' hrespond
      split at h
      · cases h
      · rename_i signed rng'' hsigned
        rw [← Except.ok.inj h]
        exact Client.answer_of_signed command.own hparse hrespond hsigned

theorem respond_of_answer {helloBuf : ByteArr serverHelloSignedLen} {rng : Rng}
    {a : Client.Answer}
    (h : Client.answer H command.bridgeVk (some command.own) helloBuf rng = .ok a) :
    respond H command helloBuf rng = .ok a := by
  revert h
  unfold Client.answer respond
  dsimp only [Command.own]
  cases parseServerHelloSigned H helloBuf command.bridgeVk with
  | error e => exact nofun
  | ok hello =>
    dsimp only
    rcases clientRespond hello rng with ⟨e | ⟨response, sessionKey⟩, rng'⟩
    · exact nofun
    · dsimp only
      rcases serializeClientResponseSigned H response command.adminIdentity.signingKey
        (helloBuf.slice 0 serverHelloLen) rng' with ⟨e | signed, rng''⟩
      · exact nofun
      · intro h
        exact congrArg Except.ok (Except.ok.inj h)

theorem respond_hello {helloBuf : ByteArr serverHelloSignedLen} {rng : Rng}
    {a : Client.Answer} (h : respond H command helloBuf rng = .ok a) :
    a.hello = helloBuf.slice 0 serverHelloLen := by
  unfold respond at h
  dsimp only at h
  split at h
  · cases h
  · split at h
    · cases h
    · split at h
      · cases h
      · rw [← Except.ok.inj h]

namespace Call

/-- The call has answered the hello that it read first; the rest of what has arrived is `rest`. So
the hello it answered is the beginning of its input, whoever sent that. -/
structure Behind (c : Call) (a : Client.Answer) (rest : Bytes) : Prop where
  answered : c.answered = some a
  hello : ∃ helloBuf : ByteArr serverHelloSignedLen,
    c.arrived = helloBuf.toList ++ rest ∧ a.hello = helloBuf.slice 0 serverHelloLen

/-- The command that a call writes at some time, on the channel of its handshake. The time is the
seq of the command, and all of it that is not fixed. -/
def commandFrame (C : CipherSuite) (serde : Serde) (a : Client.Answer) (writer : Writer)
    (micros : Nat) : EncryptedChannel.Written FrameError :=
  (EncryptedChannel.new a.sessionKey (64 * 1024)).writeFrame C writer
    (serde.toVec { seq := UInt64.ofNat micros, cmd := "GetVkToken" })

/-- The command is written, and `channel` is what the reply is read on. -/
def Sent (C : CipherSuite) (serde : Serde) (c : Call) (a : Client.Answer)
    (channel : EncryptedChannel) : Prop :=
  ∃ writer micros, (commandFrame C serde a writer micros).result = .ok () ∧
    channel = (commandFrame C serde a writer micros).channel ∧
    c.wrote = a.wire ++ (commandFrame C serde a writer micros).bytes

/-- What the call has read and written, by its phase. Before it has answered it has written
nothing. -/
def At (C : CipherSuite) (serde : Serde) (c : Call) : Phase → Prop
  | .connecting => c.answered = none ∧ c.inbox = c.arrived ∧ c.wrote = []
  | .reading => c.answered = none ∧ c.inbox = c.arrived ∧ c.wrote = []
  | .answering a => c.Behind a c.inbox ∧ c.wrote = a.wire
  | .commanding channel => ∃ a, c.Behind a c.inbox ∧ c.wrote = a.wire ∧
    channel = .new a.sessionKey (64 * 1024)
  | .awaiting channel => ∃ a, c.Behind a c.inbox ∧ c.Sent C serde a channel
  | .printed token url => ∃ a channel taken later respBytes channel' rest,
    c.Behind a (taken ++ later) ∧ c.Sent C serde a channel ∧
    (channel.readFrame C.aead.decrypt).run taken =
      some ((.ok (.data respBytes), channel'), rest) ∧
    serde.fromSlice respBytes = some (.vkToken token url)
  | .failed _ => True

/-- What was answered has been made, and the bytes are as they should be. -/
structure Sound (H : HandshakeSuite) (C : CipherSuite) (serde : Serde) (command : Command)
    (c : Call) : Prop where
  made : ∀ a, c.answered = some a → a.Made H command.bridgeVk (some command.own)
  bytes : c.At C serde c.phase

theorem Sound.start : start.Sound H C serde command :=
  ⟨by simp [Call.start], rfl, rfl, rfl⟩

section Steps

variable {c : Call}

theorem Sound.failed (h : c.Sound H C serde command) (context : String) (inbox : Bytes) :
    ({ c with phase := .failed context, inbox } : Call).Sound H C serde command :=
  ⟨h.made, trivial⟩

theorem Sound.arrive (h : c.Sound H C serde command) (bytes : Bytes) :
    (c.step H C serde command (.arrive bytes)).Sound H C serde command := by
  refine ⟨h.made, ?_⟩
  have hbytes := h.bytes
  -- what arrives is appended to the unread bytes and read by none of the phases yet
  have hmore : ∀ {a rest}, c.Behind a rest →
      (c.step H C serde command (.arrive bytes)).Behind a (rest ++ bytes) := by
    rintro a rest ⟨hanswered, helloBuf, harrived, hhello⟩
    refine ⟨hanswered, helloBuf, ?_, hhello⟩
    show c.arrived ++ bytes = _
    rw [harrived, List.append_assoc]
  show (c.step H C serde command (.arrive bytes)).At C serde c.phase
  cases hp : c.phase with
  | connecting =>
    rw [hp] at hbytes
    exact ⟨hbytes.1, congrArg (· ++ bytes) hbytes.2.1, hbytes.2.2⟩
  | reading =>
    rw [hp] at hbytes
    exact ⟨hbytes.1, congrArg (· ++ bytes) hbytes.2.1, hbytes.2.2⟩
  | answering a =>
    rw [hp] at hbytes
    exact ⟨hmore hbytes.1, hbytes.2⟩
  | commanding channel =>
    rw [hp] at hbytes
    obtain ⟨a, hbehind, hwrote, hchannel⟩ := hbytes
    exact ⟨a, hmore hbehind, hwrote, hchannel⟩
  | awaiting channel =>
    rw [hp] at hbytes
    obtain ⟨a, hbehind, hsent⟩ := hbytes
    exact ⟨a, hmore hbehind, hsent⟩
  | printed token url =>
    rw [hp] at hbytes
    obtain ⟨a, channel, taken, later, respBytes, channel', rest, hbehind, hsent, hread⟩ := hbytes
    refine ⟨a, channel, taken, later ++ bytes, respBytes, channel', rest, ?_, hsent, hread⟩
    rw [← List.append_assoc]
    exact hmore hbehind
  | failed context => trivial

theorem Sound.readHello (h : c.Sound H C serde command) (rng : Rng) :
    (c.step H C serde command (.readHello rng)).Sound H C serde command ∧
    (c.answered = none ∨ (c.step H C serde command (.readHello rng)).answered = c.answered) := by
  unfold step
  dsimp only
  split
  · rename_i helloBuf hp htake
    have hbytes := h.bytes
    rw [hp] at hbytes
    obtain ⟨hnone, hinbox, hwrote⟩ := hbytes
    split
    · exact ⟨h.failed _ _, Or.inr rfl⟩
    · rename_i a ha
      refine ⟨⟨?_, ⟨rfl, helloBuf, ?_, respond_hello ha⟩, ?_⟩, Or.inl hnone⟩
      · rintro a' ⟨⟩
        exact Client.answer_eq_ok (answer_of_respond ha)
      · show c.arrived = _ ++ c.inbox.drop _
        rw [← ByteArr.tryInto_eq_some.mp htake, List.take_append_drop, hinbox]
      · show c.wrote ++ a.wire = a.wire
        rw [hwrote, List.nil_append]
  · exact ⟨h, Or.inr rfl⟩

/-- The steps that write: the response has been taken, and the command goes out. -/
theorem Sound.written (h : c.Sound H C serde command) (ok : Bool) :
    (c.step H C serde command (.written ok)).Sound H C serde command ∧
    (c.step H C serde command (.written ok)).answered = c.answered := by
  unfold step
  dsimp only
  split
  · rename_i a hp
    have hbytes := h.bytes
    rw [hp] at hbytes
    split
    · exact ⟨⟨h.made, a, ⟨hbytes.1.answered, hbytes.1.hello⟩, hbytes.2, rfl⟩, rfl⟩
    · exact ⟨h.failed _ c.inbox, rfl⟩
  · exact ⟨h, rfl⟩

theorem Sound.send (h : c.Sound H C serde command) (micros : Nat) (writer : Writer) :
    (c.step H C serde command (.send micros writer)).Sound H C serde command ∧
    (c.step H C serde command (.send micros writer)).answered = c.answered := by
  unfold step
  dsimp only
  split
  · rename_i channel hp
    have hbytes := h.bytes
    rw [hp] at hbytes
    obtain ⟨a, hbehind, hwrote, rfl⟩ := hbytes
    split
    · rename_i hresult
      refine ⟨⟨h.made, a, ⟨hbehind.answered, hbehind.hello⟩, writer, micros, hresult, rfl, ?_⟩, rfl⟩
      show c.wrote ++ _ = _
      rw [hwrote]
      rfl
    · exact ⟨⟨h.made, trivial⟩, rfl⟩
  · exact ⟨h, rfl⟩

theorem Sound.readResponse (h : c.Sound H C serde command) :
    (c.step H C serde command .readResponse).Sound H C serde command ∧
    (c.step H C serde command .readResponse).answered = c.answered := by
  unfold step
  dsimp only
  split
  · rename_i channel hp
    have hbytes := h.bytes
    rw [hp] at hbytes
    obtain ⟨a, hbehind, hsent⟩ := hbytes
    split
    · exact ⟨h, rfl⟩
    · exact ⟨h.failed _ _, rfl⟩
    · exact ⟨h.failed _ _, rfl⟩
    · rename_i respBytes channel' rest hread
      split
      · exact ⟨h.failed _ _, rfl⟩
      · rename_i resp hresp
        refine ⟨⟨h.made, ?_⟩, rfl⟩
        show At C serde _ (finish resp)
        cases resp with
        | vkToken token url =>
          refine ⟨a, channel, c.inbox, [], respBytes, channel', rest, ?_, hsent, hread, hresp⟩
          rw [List.append_nil]
          exact ⟨hbehind.answered, hbehind.hello⟩
        | error message => trivial
        | unknown => trivial
  · exact ⟨h, rfl⟩

/-- A step answers, once and for all, or leaves the answer alone. What is signed is therefore one
response for each call. -/
theorem Sound.step (h : c.Sound H C serde command) (event : Event) :
    (c.step H C serde command event).Sound H C serde command ∧
    (c.answered = none ∨ (c.step H C serde command event).answered = c.answered) := by
  cases event with
  | connected result =>
    unfold Call.step
    dsimp only
    split
    · rename_i hp
      have hbytes := h.bytes
      rw [hp] at hbytes
      exact ⟨⟨h.made, hbytes⟩, Or.inr rfl⟩
    · exact ⟨h.failed _ c.inbox, Or.inr rfl⟩
    · exact ⟨h.failed _ c.inbox, Or.inr rfl⟩
    · exact ⟨h, Or.inr rfl⟩
  | arrive bytes => exact ⟨h.arrive bytes, Or.inr rfl⟩
  | readHello rng => exact h.readHello rng
  | readFailed =>
    unfold Call.step
    dsimp only
    split
    · exact ⟨h.failed _ c.inbox, Or.inr rfl⟩
    · exact ⟨h.failed _ c.inbox, Or.inr rfl⟩
    · exact ⟨h, Or.inr rfl⟩
  | written ok => exact ⟨(h.written ok).1, Or.inr (h.written ok).2⟩
  | send micros writer => exact ⟨(h.send micros writer).1, Or.inr (h.send micros writer).2⟩
  | readResponse => exact ⟨h.readResponse.1, Or.inr h.readResponse.2⟩
  | timeout =>
    unfold Call.step
    dsimp only
    split
    · exact ⟨h, Or.inr rfl⟩
    · exact ⟨h, Or.inr rfl⟩
    · exact ⟨h.failed _ c.inbox, Or.inr rfl⟩

end Steps

end Call

end LatticeShield.Cli
