import LatticeShield.Proof.JsFrames
import LatticeShield.Proof.SessionSteps
import LatticeShield.Crypto.Sample
import LatticeShield.Js.Session
import LatticeShield.Relay.WsSession

/-!
# One WebSocket message per flush

`messages` says what the adapter is for: the calls made on it are cut at the flushes, and what was
written in between is one message, unless it is nothing. `OneMessagePerFlush` is the invariant of
a task that awaits its calls in order, and it holds under every pattern of back-pressure. A flush
may be `Pending` at two points. Before the buffer is taken nothing has happened yet; after it the
message is out and the buffer is empty, so the next poll finds nothing to send again. The second
disjunct of the invariant is that state.

A session makes its calls in units that end in a flush, and what it writes in a unit is a whole
frame. So what the browser receives are the signed hello and then the frames, one a message.
-/

set_option autoImplicit false

namespace LatticeShield.Bridge

open Lib EncryptedChannel

/-! ## The messages of a list of calls -/

namespace WriterCall

/-- The messages of the calls, with `pending` written before them and not flushed. A message ends
where a flush is, not where a write ends. -/
def messagesFrom (pending : Bytes) : List WriterCall → List Bytes
  | [] => []
  | .writeAll buf :: rest => messagesFrom (pending ++ buf) rest
  | .flush :: rest => (if pending = [] then [] else [pending]) ++ messagesFrom [] rest

/-- What the calls leave behind that is not flushed. -/
def unflushedFrom (pending : Bytes) : List WriterCall → Bytes
  | [] => pending
  | .writeAll buf :: rest => unflushedFrom (pending ++ buf) rest
  | .flush :: rest => unflushedFrom [] rest

def messages (calls : List WriterCall) : List Bytes := messagesFrom [] calls

def unflushed (calls : List WriterCall) : Bytes := unflushedFrom [] calls

theorem messagesFrom_append (pending : Bytes) (calls more : List WriterCall) :
    messagesFrom pending (calls ++ more) =
      messagesFrom pending calls ++ messagesFrom (unflushedFrom pending calls) more := by
  induction calls generalizing pending with
  | nil => rfl
  | cons call calls ih =>
    cases call with
    | writeAll buf => exact ih (pending ++ buf)
    | flush => simp only [List.cons_append, messagesFrom, unflushedFrom, ih, List.append_assoc]

theorem unflushedFrom_append (pending : Bytes) (calls more : List WriterCall) :
    unflushedFrom pending (calls ++ more) = unflushedFrom (unflushedFrom pending calls) more := by
  induction calls generalizing pending with
  | nil => rfl
  | cons call calls ih =>
    cases call with
    | writeAll buf => exact ih (pending ++ buf)
    | flush => exact ih []

theorem messages_append (calls more : List WriterCall) :
    messages (calls ++ more) = messages calls ++ messagesFrom (unflushed calls) more :=
  messagesFrom_append [] calls more

theorem messages_flush (calls : List WriterCall) :
    messages (calls ++ [.flush]) =
      messages calls ++ if unflushed calls = [] then [] else [unflushed calls] := by
  simp [messages_append, messagesFrom]

@[simp] theorem unflushed_writeAll (calls : List WriterCall) (buf : Bytes) :
    unflushed (calls ++ [.writeAll buf]) = unflushed calls ++ buf := by
  simp [unflushed, unflushedFrom_append, unflushedFrom]

@[simp] theorem unflushed_flush (calls : List WriterCall) : unflushed (calls ++ [.flush]) = [] := by
  simp [unflushed, unflushedFrom_append, unflushedFrom]

@[simp] theorem messages_writeAll (calls : List WriterCall) (buf : Bytes) :
    messages (calls ++ [.writeAll buf]) = messages calls := by
  simp [messages_append, messagesFrom]

end WriterCall

open WriterCall

/-! ## One poll -/

namespace WsStream

/-- The sink may be busy; it does not fail. A busy sink makes the writer wait and loses nothing. -/
structure SinkAnswers.NoError (sink : SinkAnswers) : Prop where
  pollReady : sink.pollReady ≠ .err
  startSend : sink.startSend = true
  pollFlush : sink.pollFlush ≠ .err

instance (sink : SinkAnswers) : Decidable sink.NoError :=
  decidable_of_iff (sink.pollReady ≠ .err ∧ sink.startSend = true ∧ sink.pollFlush ≠ .err)
    ⟨fun h => ⟨h.1, h.2.1, h.2.2⟩, fun h => ⟨h.pollReady, h.startSend, h.pollFlush⟩⟩

/-- The stream once its buffer has been handed to the sink. -/
def handedOver (s : WsStream) : WsStream :=
  { s with writeBuf := [], sent := s.sent ++ if s.writeBuf = [] then [] else [s.writeBuf] }

theorem handedOver_of_empty {s : WsStream} (h : s.writeBuf = []) : s.handedOver = s := by
  cases s
  simp_all [handedOver]

theorem flushSink_cases {sink : SinkAnswers} (hsink : sink.NoError) (s : WsStream) :
    s.flushSink sink = (.pending, s) ∨ s.flushSink sink = (.ready, s) := by
  rw [flushSink]
  cases hflush : sink.pollFlush with
  | pending => exact .inl rfl
  | ready => exact .inr rfl
  | err => exact absurd hflush hsink.pollFlush

/-- A poll of a flush has done nothing, or it has handed over the buffer, and is done or waits for
the sink. That the buffer goes over as one message is the whole point: it is not split, and
nothing is added behind it. -/
theorem pollFlush_cases {sink : SinkAnswers} (hsink : sink.NoError) (s : WsStream) :
    s.pollFlush sink = (.pending, s) ∨ s.pollFlush sink = (.pending, s.handedOver) ∨
      s.pollFlush sink = (.ready, s.handedOver) := by
  by_cases hbuf : s.writeBuf = []
  · rw [pollFlush, if_pos (by simp [hbuf]), handedOver_of_empty hbuf]
    rcases flushSink_cases hsink s with h | h
    · exact .inl h
    · exact .inr (.inr h)
  · rw [pollFlush, if_neg (by simp [hbuf])]
    cases hready : sink.pollReady with
    | pending => exact .inl rfl
    | err => exact absurd hready hsink.pollReady
    | ready =>
      have hover : s.handedOver = { s with writeBuf := [], sent := s.sent ++ [s.writeBuf] } := by
        rw [handedOver, if_neg hbuf]
      rw [if_pos hsink.startSend, ← hover]
      exact .inr (flushSink_cases hsink s.handedOver)

end WsStream

/-! ## The task -/

/-- Where a task stands in its calls. Those it is done with have given their messages; the flush
it awaits may have given its own already, since it hands over the buffer before it waits. -/
def OneMessagePerFlush (calls : List WriterCall) (t : WriterTask) : Prop :=
  ∃ done, calls = done ++ t.todo ∧
    (t.stream.sent = messages done ∧ t.stream.writeBuf = unflushed done ∨
      (∃ rest, t.todo = .flush :: rest) ∧ t.stream.sent = messages (done ++ [.flush]) ∧
        t.stream.writeBuf = [])

namespace WriterTask

open WsStream

theorem poll_oneMessage {calls : List WriterCall} {t : WriterTask} {sink : SinkAnswers}
    (hsink : sink.NoError) (h : OneMessagePerFlush calls t) :
    OneMessagePerFlush calls (t.poll sink) := by
  obtain ⟨stream, todo⟩ := t
  obtain ⟨done, hcalls, hsent⟩ := h
  cases todo with
  | nil => exact ⟨done, hcalls, hsent⟩
  | cons call rest =>
    cases call with
    | writeAll buf =>
      rcases hsent with ⟨hsent, hbuf⟩ | ⟨⟨_, hflush⟩, -⟩
      · refine ⟨done ++ [.writeAll buf], ?_, .inl ⟨?_, ?_⟩⟩
        · rw [List.append_assoc]
          exact hcalls
        · rw [messages_writeAll]
          exact hsent
        · rw [unflushed_writeAll, ← hbuf]
          rfl
      · cases hflush
    | flush =>
      -- whether or not the buffer is out already, once it is the messages are those of the flush
      have hover : stream.handedOver.sent = messages (done ++ [.flush]) ∧
          stream.handedOver.writeBuf = [] := by
        rcases hsent with ⟨hsent, hbuf⟩ | ⟨-, hsent, hbuf⟩
        · refine ⟨?_, rfl⟩
          rw [messages_flush, ← hbuf, ← hsent]
          rfl
        · rw [handedOver_of_empty hbuf]
          exact ⟨hsent, hbuf⟩
      rcases pollFlush_cases hsink stream with hpoll | hpoll | hpoll
      · simp only [poll, hpoll]
        exact ⟨done, hcalls, hsent⟩
      · simp only [poll, hpoll]
        exact ⟨done, hcalls, .inr ⟨⟨rest, rfl⟩, hover⟩⟩
      · simp only [poll, hpoll]
        refine ⟨done ++ [.flush], by simpa using hcalls, .inl ⟨hover.1, ?_⟩⟩
        rw [unflushed_flush]
        exact hover.2

theorem run_oneMessage (calls : List WriterCall) {sinks : List SinkAnswers}
    (hsinks : ∀ sink ∈ sinks, sink.NoError) : OneMessagePerFlush calls (run calls sinks) := by
  have hstart : OneMessagePerFlush calls ⟨{ events := [] }, calls⟩ := ⟨[], rfl, .inl ⟨rfl, rfl⟩⟩
  rw [run]
  induction sinks using List.reverseRecOn with
  | nil => exact hstart
  | append_singleton sinks sink ih =>
    rw [List.forall_mem_append] at hsinks
    rw [List.foldl_append]
    exact poll_oneMessage (hsinks.2 sink List.mem_cons_self) (ih hsinks.1)

def free : SinkAnswers := ⟨.ready, true, .ready⟩

theorem free_noError : free.NoError := ⟨by decide, rfl, by decide⟩

theorem pollFlush_free (s : WsStream) : s.pollFlush free = (.ready, s.handedOver) := by
  by_cases hbuf : s.writeBuf = []
  · rw [handedOver_of_empty hbuf]
    simp [pollFlush, hbuf, flushSink, free]
  · simp [pollFlush, handedOver, hbuf, flushSink, free]

/-- Such a sink is done with a call at once. -/
theorem poll_free (t : WriterTask) : (t.poll free).todo = t.todo.tail := by
  obtain ⟨stream, todo⟩ := t
  cases todo with
  | nil => rfl
  | cons call rest =>
    cases call with
    | writeAll buf => rfl
    | flush => simp only [poll, pollFlush_free, List.tail_cons]

theorem foldl_poll_free (n : Nat) (t : WriterTask) :
    ((List.replicate n free).foldl poll t).todo = t.todo.drop n := by
  induction n generalizing t with
  | zero => rfl
  | succ n ih =>
    rw [List.replicate_succ, List.foldl_cons, ih, poll_free, List.drop_tail]

/-- Whatever the sink has done so far, the calls can be completed. So a busy sink delays a frame
and does not cut it. -/
theorem run_completes (calls : List WriterCall) (sinks : List SinkAnswers) :
    ∃ more, (∀ sink ∈ more, sink.NoError) ∧ (run calls (sinks ++ more)).todo = [] := by
  refine ⟨List.replicate (run calls sinks).todo.length free, ?_, ?_⟩
  · intro sink hsink
    rw [List.eq_of_mem_replicate hsink]
    exact free_noError
  · rw [run, List.foldl_append]
    rw [foldl_poll_free]
    exact List.drop_length

/-- At every time the messages out are the first of those the calls are to give, and they are all
out once the calls are made. -/
theorem sent_isPrefix {calls : List WriterCall} {t : WriterTask} (h : OneMessagePerFlush calls t) :
    t.stream.sent <+: messages calls ∧ (t.todo = [] → t.stream.sent = messages calls) := by
  obtain ⟨done, hcalls, ⟨hsent, -⟩ | ⟨⟨rest, htodo⟩, hsent, -⟩⟩ := h
  · refine ⟨?_, ?_⟩
    · rw [hcalls, messages_append, hsent]
      exact List.prefix_append _ _
    · intro htodo
      rw [hcalls, htodo, List.append_nil, hsent]
  · refine ⟨?_, ?_⟩
    · have hsplit : calls = (done ++ [.flush]) ++ rest := by
        rw [hcalls, htodo, List.append_assoc]
        rfl
      rw [hsplit, messages_append, hsent]
      exact List.prefix_append _ _
    · intro hnil
      rw [htodo] at hnil
      cases hnil

end WriterTask

/-! ## The units of a session -/

/-- The calls give these messages and leave nothing behind. -/
structure Gives (calls : List WriterCall) (out : List Bytes) : Prop where
  messages_eq : messages calls = out
  unflushed_eq : unflushed calls = []

theorem Gives.nil : Gives [] [] := ⟨rfl, rfl⟩

theorem Gives.append {calls more : List WriterCall} {out out' : List Bytes} (h : Gives calls out)
    (h' : Gives more out') : Gives (calls ++ more) (out ++ out') := by
  constructor
  · rw [messages_append, h.unflushed_eq, h.messages_eq]
    exact congrArg (out ++ ·) h'.messages_eq
  · show unflushedFrom [] _ = _
    rw [unflushedFrom_append, show unflushedFrom [] calls = [] from h.unflushed_eq]
    exact h'.unflushed_eq

theorem gives_hello {hello : Bytes} (h : hello ≠ []) :
    Gives [.writeAll hello, .flush] [hello] := by
  constructor
  · simp [messages, messagesFrom, h]
  · rfl

/-- `write_frame` writes its frame in six pieces, and they are one message, since only the flush
at the end sends. -/
theorem gives_writeFrame (C : CipherSuite) (ch : EncryptedChannel) {p : Bytes}
    (hp : p.length ≤ gcmPMax) :
    Gives (writeFrameCalls C ch p) [(writeFrame C ch .accepts p).bytes] := by
  obtain ⟨ct, tag, henc⟩ := C.aead.exists_encrypt ch.keyBytes (dataNonce ch.sendSeq ch.epoch)
    (u64ToBe ch.sendSeq).toList (p := p) (by rw [C.pMax]; exact hp)
  simp only [writeFrameCalls, writeFrame, henc]
  constructor
  · simp [messages, messagesFrom, dataFrame]
  · rfl

theorem gives_sendKeyRotate (C : CipherSuite) (ch : EncryptedChannel) (gcmNonce : Nonce)
    (nonce : RotationNonce) :
    Gives (sendKeyRotateCalls C ch gcmNonce nonce)
      [(sendKeyRotate C ch .accepts gcmNonce nonce).bytes] := by
  obtain ⟨ct, tag, henc⟩ := C.aead.exists_encrypt (p := nonce.toList) ch.keyBytes gcmNonce
    (u64ToBe ch.keyRotateSendSeq).toList (by rw [C.pMax, nonce.toList_length]; decide)
  simp only [sendKeyRotateCalls, sendKeyRotate, henc]
  constructor
  · simp [messages, messagesFrom, keyRotateFrame]
  · rfl

/-- What the browser asks of a message: `decodeFrame` takes the length from the header and finds
its frame to end with the message, `parseKeyRotateFrame` accepts it. Nothing in the browser would
put two messages together. -/
def CompleteFrame (message : Bytes) : Prop :=
  message.headD 0 = frameData ∧
      message.length = 1 + 4 + 8 + 12 + beNat ((message.drop 1).take 4) ∨
    message.headD 0 = frameKeyRotate ∧ ∃ parts, Js.parseKeyRotateFrame message = .ok parts

theorem completeFrame_writeFrame (C : CipherSuite) (ch : EncryptedChannel) {p : Bytes}
    (hp : p.length ≤ 16 * 1024 * 1024) :
    CompleteFrame (writeFrame C ch .accepts p).bytes := by
  obtain ⟨ct, tag, hct, -, hwrite⟩ := writeFrame_accepts C ch (p := p) (by unfold gcmPMax; omega)
  rw [hwrite]
  refine .inl ⟨rfl, ?_⟩
  rw [length_dataFrame, dataFrame_len_field, u32ToBe, List.Vector.toList_mk,
    beNat_beBytes (by have := (UInt32.ofNat (ct.length + 16)).toNat_lt; omega)]
  have hlen : (UInt32.ofNat (ct.length + 16)).toNat = ct.length + 16 :=
    UInt32.toNat_ofNat_of_lt' (by simp [UInt32.size]; omega)
  rw [hlen]

theorem completeFrame_sendKeyRotate (C : CipherSuite) (ch : EncryptedChannel) (gcmNonce : Nonce)
    (nonce : RotationNonce) :
    CompleteFrame (sendKeyRotate C ch .accepts gcmNonce nonce).bytes := by
  obtain ⟨ct, tag, hct, -, hsend⟩ := sendKeyRotate_accepts C ch gcmNonce nonce
  rw [hsend]
  exact .inr ⟨rfl, _, Js.parseKeyRotateFrame_eq gcmNonce tag hct⟩

/-- Calls that give the frames of some writes, each of them complete. -/
structure GivesFrames (calls : List WriterCall) (wrote : List Sent) : Prop where
  gives : Gives calls (wrote.map Sent.bytes)
  complete : ∀ sent ∈ wrote, CompleteFrame sent.bytes

theorem GivesFrames.nil : GivesFrames [] [] := ⟨.nil, by simp⟩

theorem GivesFrames.append {calls more : List WriterCall} {wrote wrote' : List Sent}
    (h : GivesFrames calls wrote) (h' : GivesFrames more wrote') :
    GivesFrames (calls ++ more) (wrote ++ wrote') := by
  constructor
  · rw [List.map_append]
    exact h.gives.append h'.gives
  · exact List.forall_mem_append.mpr ⟨h.complete, h'.complete⟩

theorem givesFrames_writeFrame (C : CipherSuite) (cfg : ValidConfig) (ch : EncryptedChannel)
    {p : Bytes} (hp : p.length ≤ cfg.maxFrameSize) :
    GivesFrames (writeFrameCalls C ch p) [⟨.data p, (writeFrame C ch .accepts p).bytes⟩] := by
  have hsize : p.length ≤ 16 * 1024 * 1024 := hp.trans cfg.validFrameSize.2
  refine ⟨gives_writeFrame C ch (length_le_gcmPMax cfg.validFrameSize hp), ?_⟩
  intro sent hsent
  rw [List.mem_singleton.mp hsent]
  exact completeFrame_writeFrame C ch hsize

theorem givesFrames_sendKeyRotate (C : CipherSuite) (ch : EncryptedChannel) (draw : Draw) :
    GivesFrames (sendKeyRotateCalls C ch draw.gcmNonce draw.nonce)
      [⟨.keyRotate draw.nonce,
        (sendKeyRotate C ch .accepts draw.gcmNonce draw.nonce).bytes⟩] := by
  refine ⟨gives_sendKeyRotate C ch draw.gcmNonce draw.nonce, ?_⟩
  intro sent hsent
  rw [List.mem_singleton.mp hsent]
  exact completeFrame_sendKeyRotate C ch draw.gcmNonce draw.nonce

theorem givesFrames_select (C : CipherSuite) (cfg : ValidConfig) (r : Relay) (arm : Arm) :
    GivesFrames (r.selectCalls C cfg arm) (r.select C cfg .accepts arm).wrote := by
  cases arm with
  | timer => exact .nil
  | manual alive => exact .nil
  | backend read =>
    simp only [Relay.selectCalls, Relay.select]
    cases hread : read.into cfg.maxFrameSize with
    | err => exact .nil
    | ok buf =>
      cases buf with
      | nil => exact .nil
      | cons b bs =>
        have hchunk : read.chunk cfg.maxFrameSize = some (b :: bs) :=
          SocketRead.chunk_eq_some.mpr ⟨hread, List.cons_ne_nil b bs⟩
        have hle := SocketRead.length_chunk_le hchunk
        have hgives := givesFrames_writeFrame C cfg r.channel hle
        obtain ⟨ct, tag, -, -, hwrite⟩ :=
          writeFrame_accepts C r.channel (length_le_gcmPMax cfg.validFrameSize hle)
        rw [hwrite] at hgives
        simp only [Relay.onBackend, hwrite]
        exact hgives

/-- The calls of an iteration give its frames. -/
theorem givesFrames_iterate (C : CipherSuite) (cfg : ValidConfig) (r : Relay) (arm : Arm)
    (draw : Draw) :
    GivesFrames (r.calls C cfg arm (Session.reliable draw))
      (r.iterate C cfg arm (Session.reliable draw)).2 := by
  have hselect := givesFrames_select C cfg r arm
  have hwriter : (Session.reliable draw).dataWriter = .accepts := rfl
  by_cases hen : arm.enabled cfg = true
  · by_cases hrotate : (r.select C cfg .accepts arm).shouldRotate = true
    · simp only [Relay.calls, Relay.iterate, if_pos hen, hwriter, if_pos hrotate,
        Session.rotate_reliable]
      exact hselect.append
        (givesFrames_sendKeyRotate C (r.select C cfg .accepts arm).relay.channel draw)
    · simp only [Relay.calls, Relay.iterate, if_pos hen, hwriter, if_neg hrotate]
      exact hselect
  · simp only [Relay.calls, Relay.iterate, if_neg hen]
    exact .nil

/-! ## A session -/

namespace WsSession

variable (C : CipherSuite) (cfg : ValidConfig) (hello : ByteArr serverHelloSignedLen)

/-- The calls made so far are the hello's and those of whole frames, each flushed by itself. The
order is that of the frames. -/
def Framed (s : WsSession) : Prop :=
  ∃ calls, s.calls = [.writeAll hello.toList, .flush] ++ calls ∧ GivesFrames calls s.frames

theorem Framed.step {s : WsSession} (h : Framed hello s) (step : WsStep) :
    Framed hello (s.step C cfg step) := by
  rw [WsSession.step]
  split
  · obtain ⟨calls, hcalls, hframes⟩ := h
    cases step with
    | byte b takes => exact ⟨calls, hcalls, hframes⟩
    | eof => exact ⟨calls, hcalls, hframes⟩
    | arm arm draw =>
      have hiterate := givesFrames_iterate C cfg s.relay arm draw
      refine ⟨calls ++ s.relay.calls C cfg arm (Session.reliable draw), ?_, ?_⟩
      · rw [← List.append_assoc, ← hcalls]
        rfl
      · exact hframes.append hiterate
  · exact h

theorem framed_after (sessionKey : Key) (steps : List WsStep) :
    Framed hello (after C cfg hello sessionKey steps) := by
  induction steps using List.reverseRecOn with
  | nil => exact ⟨[], rfl, .nil⟩
  | append_singleton steps step ih =>
    rw [after, List.foldl_append]
    exact ih.step C cfg hello step

/-- The messages of the calls of a session. -/
theorem Framed.messages_eq {s : WsSession} (h : Framed hello s) :
    messages s.calls = hello.toList :: s.frames.map Sent.bytes := by
  obtain ⟨calls, hcalls, hframes⟩ := h
  have hne : hello.toList ≠ [] := by
    intro hnil
    have hlength := hello.toList_length
    rw [hnil] at hlength
    exact absurd hlength (by decide)
  rw [hcalls]
  exact ((gives_hello hne).append hframes.gives).messages_eq

theorem Framed.complete {s : WsSession} (h : Framed hello s) :
    ∀ message ∈ s.frames.map Sent.bytes, CompleteFrame message := by
  obtain ⟨calls, -, hframes⟩ := h
  intro message hmem
  obtain ⟨sent, hsent, rfl⟩ := List.mem_map.mp hmem
  exact hframes.complete sent hsent

/-- **One message a unit.** Calls that are awaited in order give one message a flush, under every
pattern of back-pressure; and what a session hands to the sink are its signed hello, whatever
`server_hello_signed_bytes` returned, and its frames, one a message: at every time the first of
them, and all of them once its calls are made, which they always can be. -/
theorem one_message_per_unit (sessionKey : Key) (steps : List WsStep)
    {sinks : List WsStream.SinkAnswers} (hsinks : ∀ sink ∈ sinks, sink.NoError) :
    (∀ calls, OneMessagePerFlush calls (WriterTask.run calls sinks)) ∧
    let s := after C cfg hello sessionKey steps
    let t := WriterTask.run s.calls sinks
    t.stream.sent <+: hello.toList :: s.frames.map Sent.bytes ∧
    (t.todo = [] → t.stream.sent = hello.toList :: s.frames.map Sent.bytes) ∧
    (∃ more, (∀ sink ∈ more, sink.NoError) ∧ (WriterTask.run s.calls (sinks ++ more)).todo = []) ∧
    hello.toList.length = Js.serverHelloSignedLen ∧
    ∀ message ∈ s.frames.map Sent.bytes, CompleteFrame message := by
  refine ⟨?_, ?_⟩
  · intro calls
    exact WriterTask.run_oneMessage calls hsinks
  · intro s t
    have hframed : Framed hello s := framed_after C cfg hello sessionKey steps
    have hrun : OneMessagePerFlush s.calls t := WriterTask.run_oneMessage s.calls hsinks
    obtain ⟨hbegins, hall⟩ := WriterTask.sent_isPrefix hrun
    rw [hframed.messages_eq] at hbegins hall
    exact ⟨hbegins, hall, WriterTask.run_completes s.calls sinks, hello.toList_length,
      hframed.complete⟩

/-- A session that has sent its hello, one frame and a rotation, over a sink that was busy twice:
before it took a message and after. -/
theorem one_message_per_unit_busy :
    let cfg : ValidConfig := ⟨Sample.frameSize, true, 1048576, by decide, by decide⟩
    let hello : ByteArr serverHelloSignedLen := ⟨List.replicate serverHelloSignedLen 7, by simp⟩
    let sinks : List WsStream.SinkAnswers :=
      [⟨.ready, true, .ready⟩, ⟨.pending, true, .ready⟩, ⟨.ready, true, .pending⟩]
    let s := after Sample.suite cfg hello Sample.key
      [.arm (.backend (.ok [1, 2, 3])) ⟨Sample.rot 1, Sample.gcm 1⟩,
        .arm .timer ⟨Sample.rot 2, Sample.gcm 2⟩]
    (∀ sink ∈ sinks, sink.NoError) ∧ s.frames.length = 2 ∧
      (WriterTask.run s.calls sinks).stream.sent <+: hello.toList :: s.frames.map Sent.bytes := by
  intro cfg hello sinks s
  have hsinks : ∀ sink ∈ sinks, sink.NoError := by
    intro sink hsink
    simp only [sinks, List.mem_cons, List.not_mem_nil, or_false] at hsink
    rcases hsink with rfl | rfl | rfl <;> exact ⟨by decide, rfl, by decide⟩
  refine ⟨hsinks, by decide +kernel, ?_⟩
  exact (one_message_per_unit Sample.suite cfg hello Sample.key _ hsinks).2.1

end WsSession

end LatticeShield.Bridge
