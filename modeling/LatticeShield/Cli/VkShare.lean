import LatticeShield.Bridge.Identity
import LatticeShield.Client.Handshake

/-!
# The command line's `vk-share` (`latticeshield-cli/src/main.rs`)

One call of `run_admin_command`: a mutually authenticated handshake with the admin channel, one
`GetVkToken` command, one response, all under the timeout of `cmd_vk_share`. The call is cut where
it waits, at the connect, the three reads and writes, and the read of the response. Its errors are
`anyhow` contexts; a call that fails has the outermost one.

`serde_json` is outside the repository and a parameter. `arrived`, `wrote` and `answered` are
history: what the stream has given so far, what it was given, and the response that was signed.
-/

set_option autoImplicit false

namespace LatticeShield.Cli

open Lib

/-- The command line's own mirror of the bridge's type: the command is a text. That the bridge
understands it is a matter of the two sides' `serde` names. -/
structure CommandFrame where
  seq : UInt64
  cmd : String
deriving DecidableEq, Repr

/-- Only what the command line reads; every other `type` is `unknown`. A response to another
command is one of those, and fails the call. -/
inductive AdminResponse where
  | vkToken (token url : String)
  | error (message : String)
  | unknown
deriving DecidableEq, Repr

/-- `serde_json::to_vec` and `from_slice`, at these two types. Writing does not fail for a frame
of a number and a text; reading may. -/
structure Serde where
  toVec : CommandFrame → Bytes
  fromSlice : Bytes → Option AdminResponse

/-- The arguments of a call, with the keys loaded. The admin identity is what the bridge knows as
its control plane. -/
structure Command where
  adminAddr : String
  bridgeVk : VerifyingKey
  adminIdentity : Bridge.ServerIdentity

def adminTimeoutSecs : Nat := 10

/-- From the hello to the signed response. Here the response is always signed, as the admin
channel accepts no other. -/
def respond (H : HandshakeSuite) (command : Command) (helloBuf : ByteArr serverHelloSignedLen)
    (rng : Rng) : Except String Client.Answer :=
  let serverHelloRaw := helloBuf.slice 0 serverHelloLen Client.serverHelloLen_le
  match parseServerHelloSigned H helloBuf command.bridgeVk with
  | .error _ => .error "bridge authentication failed — is --bridge-vk correct?"
  | .ok hello =>
    match clientRespond hello rng with
    | (.error _, _) => .error "client_respond failed"
    | (.ok (response, sessionKey), rng) =>
      match serializeClientResponseSigned H response command.adminIdentity.signingKey
        serverHelloRaw rng with
      | (.error e, _) => .error s!"signing client response: {e.debug}"
      | (.ok signed, _) =>
        .ok { hello := serverHelloRaw, response, sessionKey, wire := signed.toList }

inductive Phase where
  | connecting
  /-- `read_exact` waits for the hello. -/
  | reading
  /-- `write_all` of the signed response is under way. -/
  | answering (answer : Client.Answer)
  /-- The channel is made and the command comes next. -/
  | commanding (channel : EncryptedChannel)
  /-- `read_frame` waits for the response. -/
  | awaiting (channel : EncryptedChannel)
  /-- `Ok(())`, with the URL and the token on standard output. -/
  | printed (token url : String)
  | failed (context : String)

structure Call where
  phase : Phase
  /-- What has arrived and was not read. -/
  inbox : Bytes
  arrived : Bytes
  wrote : Bytes
  answered : Option Client.Answer

/-- What `TcpStream::connect` and `set_nodelay` came to. -/
inductive Connected where
  | ok
  | refused
  | noDelayFailed
deriving DecidableEq, Repr

inductive Event where
  | connected (result : Connected)
  | arrive (bytes : Bytes)
  /-- The pending `read_exact` finds its bytes; `rng` is what `OsRng` gives. -/
  | readHello (rng : Rng)
  /-- The pending read fails, or finds the end of the stream. -/
  | readFailed
  /-- The pending `write_all` ends. -/
  | written (ok : Bool)
  /-- `write_frame` of the command; the clock is at so many microseconds. -/
  | send (micros : Nat) (writer : Writer)
  /-- The pending `read_frame` finds its bytes. -/
  | readResponse
  | timeout

/-- `match resp`: only a token is printed, and every other response is a failure with a text of
its own. -/
def finish : AdminResponse → Phase
  | .vkToken token url => .printed token url
  | .error message => .failed s!"admin error: {message}"
  | .unknown => .failed "unexpected response type from bridge"

namespace Call

def start : Call := ⟨.connecting, [], [], [], none⟩

variable (H : HandshakeSuite) (C : CipherSuite) (serde : Serde) (command : Command)

/-- An event that does not fit the phase does nothing. The timeout is around the whole call, so it
may come in any phase but the last two. -/
def step (c : Call) : Event → Call
  | .connected result =>
    match c.phase, result with
    | .connecting, .ok => { c with phase := .reading }
    | .connecting, .refused =>
      { c with phase := .failed s!"connecting to admin channel at {command.adminAddr}" }
    | .connecting, .noDelayFailed => { c with phase := .failed "set_nodelay" }
    | _, _ => c
  | .arrive bytes => { c with inbox := c.inbox ++ bytes, arrived := c.arrived ++ bytes }
  | .readHello rng =>
    match c.phase, ByteArr.tryInto serverHelloSignedLen (c.inbox.take serverHelloSignedLen) with
    | .reading, some helloBuf =>
      let c := { c with inbox := c.inbox.drop serverHelloSignedLen }
      match respond H command helloBuf rng with
      | .error context => { c with phase := .failed context }
      | .ok a => { c with phase := .answering a, wrote := c.wrote ++ a.wire, answered := some a }
    | _, _ => c
  | .readFailed =>
    match c.phase with
    | .reading => { c with phase := .failed "reading server hello" }
    | .awaiting _ => { c with phase := .failed "reading response frame" }
    | _ => c
  | .written ok =>
    match c.phase with
    | .answering a =>
      if ok then { c with phase := .commanding (.new a.sessionKey (64 * 1024)) }
      else { c with phase := .failed "writing client response" }
    | _ => c
  | .send micros writer =>
    match c.phase with
    | .commanding channel =>
      -- `as u64` truncates
      let cmd := serde.toVec { seq := UInt64.ofNat micros, cmd := "GetVkToken" }
      let written := channel.writeFrame C writer cmd
      let c := { c with wrote := c.wrote ++ written.bytes }
      match written.result with
      | .ok () => { c with phase := .awaiting written.channel }
      | .error _ => { c with phase := .failed "writing command frame" }
    | _ => c
  | .readResponse =>
    match c.phase with
    | .awaiting channel =>
      match (channel.readFrame C.aead.decrypt).run c.inbox with
      | none => c
      | some ((.error _, _), rest) =>
        { c with phase := .failed "reading response frame", inbox := rest }
      | some ((.ok (.keyRotate _), _), rest) =>
        { c with phase := .failed "unexpected KEY_ROTATE frame from admin channel", inbox := rest }
      | some ((.ok (.data respBytes), _), rest) =>
        match serde.fromSlice respBytes with
        | none => { c with phase := .failed "parsing admin response", inbox := rest }
        | some resp => { c with phase := finish resp, inbox := rest }
    | _ => c
  | .timeout =>
    match c.phase with
    | .printed _ _ => c
    | .failed _ => c
    | _ => { c with phase := .failed (s!"admin channel timed out after {adminTimeoutSecs}s" ++
        s!" — is {command.adminAddr} reachable?") }

end Call

end LatticeShield.Cli
