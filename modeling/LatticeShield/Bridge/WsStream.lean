import LatticeShield.Lib.Bytes

/-!
# The WebSocket adapter (`latticeshield-bridge/src/ws.rs`, `WsStream`)

A `WebSocketStream` carries messages and a session wants bytes. `WsStream` reads a message into a
buffer and hands it out piece by piece, and collects what is written until a flush sends it as one
binary message. The socket below is tungstenite's: what its `poll_next` calls give is the list
`events` (a list that has run out is a socket with nothing more to say yet), what its sink answers
is an argument of each flush, and the messages given to `start_send` are `sent`.
-/

set_option autoImplicit false

namespace LatticeShield.Bridge

open Lib

/-- `tungstenite::Message`. Only the payloads of the data messages matter here; those of the
control messages are left out. -/
inductive Message where
  | binary (data : Bytes)
  | text (text : String)
  | close
  | ping
  | pong
  | frame
deriving DecidableEq

/-- One answer of `poll_next`. `none` is the end of the message stream, which is not the close
message that comes before it. -/
inductive WsEvent where
  | pending
  | none
  | err
  | message (msg : Message)
deriving DecidableEq

structure WsStream where
  events : List WsEvent
  sent : List Bytes := []
  readBuf : Bytes := []
  readPos : Nat := 0
  writeBuf : Bytes := []
deriving DecidableEq

/-! ## Reading -/

/-- What a `poll_read` returns, with the bytes it has put into the caller's buffer. A `ready`
without bytes is what a reader takes for the end of the stream. -/
inductive PollRead where
  | pending
  | ready (bytes : Bytes)
  | brokenPipe
deriving DecidableEq

namespace WsStream

/-- Copy what is buffered into a buffer with room for `remaining` bytes. The buffer is given back
once all of it has been handed out. -/
def drain (s : WsStream) (remaining : Nat) : PollRead × WsStream :=
  let buffered := s.readBuf.drop s.readPos
  let toCopy := min buffered.length remaining
  let readPos := s.readPos + toCopy
  (.ready (buffered.take toCopy),
    if s.readBuf.length ≤ readPos then { s with readBuf := [], readPos := 0 }
    else { s with readPos := readPos })

/-- The loop of `poll_read`, on the events that are still to come. A data message is buffered and
drained from the buffer, or is a read of nothing when it is empty; pings and pongs are passed
over, and a close is the end of the stream. -/
def pollLoop (remaining : Nat) (events : List WsEvent) (s : WsStream) : PollRead × WsStream :=
  if s.readPos < s.readBuf.length then drain { s with events := events } remaining
  else
    match events with
    | [] => (.pending, { s with events := [] })
    | .pending :: rest => (.pending, { s with events := rest })
    | .none :: rest => (.ready [], { s with events := rest })
    | .err :: rest => (.brokenPipe, { s with events := rest })
    | .message msg :: rest =>
      match msg with
      | .binary data =>
        if data.isEmpty then (.ready [], { s with events := rest })
        else pollLoop remaining rest { s with events := rest, readBuf := data, readPos := 0 }
      | .text text =>
        let data := text.toUTF8.toList
        if data.isEmpty then (.ready [], { s with events := rest })
        else pollLoop remaining rest { s with events := rest, readBuf := data, readPos := 0 }
      | .close => (.ready [], { s with events := rest })
      -- tungstenite has answered a ping already, and raw frames do not come up this far
      | .ping | .pong | .frame => pollLoop remaining rest { s with events := rest }

def pollRead (s : WsStream) (remaining : Nat) : PollRead × WsStream :=
  pollLoop remaining s.events s

/-! ## Writing -/

/-- One answer of the sink: to `poll_ready`, or to `poll_flush`. -/
inductive SinkPoll where
  | pending
  | ready
  | err
deriving DecidableEq

/-- What the sink answers while one `poll_flush` runs. All three are given, and a flush that stops
early does not look at the later ones. -/
structure SinkAnswers where
  pollReady : SinkPoll
  startSend : Bool
  pollFlush : SinkPoll
deriving DecidableEq

inductive PollFlush where
  | pending
  | ready
  | brokenPipe
deriving DecidableEq

/-- `poll_write`: the bytes are buffered, all of them, and nothing is sent. So a write never
waits, and a message ends where a flush does. -/
def pollWrite (s : WsStream) (buf : Bytes) : Nat × WsStream :=
  (buf.length, { s with writeBuf := s.writeBuf ++ buf })

/-- The last part of `poll_flush`: flush the sink. -/
def flushSink (s : WsStream) (sink : SinkAnswers) : PollFlush × WsStream :=
  match sink.pollFlush with
  | .pending => (.pending, s)
  | .ready => (.ready, s)
  | .err => (.brokenPipe, s)

/-- `poll_flush`. The buffer is taken only once the sink is ready, and is gone from then on: a
`start_send` that fails loses it. -/
def pollFlush (s : WsStream) (sink : SinkAnswers) : PollFlush × WsStream :=
  if s.writeBuf.isEmpty then flushSink s sink
  else
    match sink.pollReady with
    | .pending => (.pending, s)
    | .err => (.brokenPipe, s)
    | .ready =>
      let payload := s.writeBuf
      if sink.startSend then
        flushSink { s with writeBuf := [], sent := s.sent ++ [payload] } sink
      else (.brokenPipe, { s with writeBuf := [] })

end WsStream

end LatticeShield.Bridge
