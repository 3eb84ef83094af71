import LatticeShield.Client.Reconnect
import LatticeShield.Crypto.Handshake

/-!
# The client's handshake (`do_handshake` in `latticeshield-client/src/client_session.rs`)

It reads the signed hello, checks it against the bridge's verifying key, derives the session key,
writes a response (signed, when the client has an identity of its own) and makes the channel. What
is between the read and the write does not wait for anything, so the function is two steps: it
takes the hello out of what has arrived, and its write ends. A failed verification is an `Auth`
error, which is never retried; every other failure is a `Transport` error.

`answered` is history: the response this call has made, whether or not it was then written.
-/

set_option autoImplicit false

namespace LatticeShield

open Lib

/-- The `Debug` name of an error, which `do_handshake` puts into two of its messages. The others
have the `Display` text. -/
def HandshakeError.debug : HandshakeError → String
  | .encapsulate => "Encapsulate"
  | .decapsulate => "Decapsulate"
  | .hkdf => "Hkdf"
  | .authenticationFailed => "AuthenticationFailed"
  | .clientAuthFailed => "ClientAuthFailed"

def HandshakeError.display : HandshakeError → String
  | .encapsulate => "ML-KEM encapsulation failed"
  | .decapsulate => "ML-KEM decapsulation failed"
  | .hkdf => "HKDF key derivation failed"
  | .authenticationFailed => "server authentication failed: invalid ML-DSA-65 signature"
  | .clientAuthFailed => "client authentication failed: invalid ML-DSA-65 signature"

namespace Client

structure ClientIdentity where
  signingKey : SigningKey
  verifyingKey : VerifyingKey

/-- A `HandshakeError` with the text of the error it carries. The kind is what the retry loop
looks at; the text goes to the log. -/
structure HandshakeFailure where
  kind : HandshakeError
  message : String
deriving DecidableEq, Repr

/-- A response, and what it was made from. The hello is kept without its signature, since that is
what the response's own signature covers. -/
structure Answer where
  hello : ByteArr serverHelloLen
  response : ClientResponse
  sessionKey : Key
  /-- What `write_all` is called with. -/
  wire : Bytes

/-- The hello is the beginning of what is sent of it with its signature. -/
theorem serverHelloLen_le : 0 + serverHelloLen ≤ serverHelloSignedLen := by decide

variable (H : HandshakeSuite)

/-- From the hello to the response. The signature is checked before anything of the hello is used,
and its failure is the one error that is not retried. -/
def answer (vk : VerifyingKey) (identity : Option ClientIdentity)
    (helloBuf : ByteArr serverHelloSignedLen) (rng : Rng) : Except HandshakeFailure Answer :=
  let serverHelloRaw := helloBuf.slice 0 serverHelloLen serverHelloLen_le
  match parseServerHelloSigned H helloBuf vk with
  | .error e => .error ⟨.auth, s!"verify: {e.debug}"⟩
  | .ok hello =>
    match clientRespond hello rng with
    | (.error e, _) => .error ⟨.transport, s!"client_respond: {e.display}"⟩
    | (.ok (response, sessionKey), rng) =>
      match identity with
      | none =>
        .ok { hello := serverHelloRaw, response, sessionKey
              wire := (serializeClientResponse response).toList }
      | some identity =>
        match serializeClientResponseSigned H response identity.signingKey serverHelloRaw rng with
        | (.error e, _) => .error ⟨.transport, s!"client response signing: {e.debug}"⟩
        | (.ok signed, _) =>
          .ok { hello := serverHelloRaw, response, sessionKey, wire := signed.toList }

inductive HandshakePhase where
  /-- `read_exact` waits for the hello. -/
  | reading
  /-- `write_all` is under way. -/
  | writing (answer : Answer)
  | established (answer : Answer) (channel : EncryptedChannel)
  | failed (e : HandshakeFailure)

/-- One call of `do_handshake`, from its first read to the channel. What arrives behind the hello
stays in the inbox, for the channel to read. -/
structure Handshaking where
  phase : HandshakePhase
  /-- What has arrived from the bridge and was not read. -/
  inbox : Bytes
  answered : Option Answer

inductive HandshakeEvent where
  | arrive (bytes : Bytes)
  /-- The pending `read_exact` finds its bytes; `rng` is what `OsRng` gives. -/
  | readHello (rng : Rng)
  /-- The pending read fails, or finds the end of the stream, with the error's text. -/
  | readFailed (e : String)
  /-- The pending write ends. -/
  | written (result : Except String Unit)

namespace Handshaking

def start : Handshaking := ⟨.reading, [], none⟩

/-- An event that does not fit the phase does nothing. A call that has failed or is established
has no step left but to receive. -/
def step (vk : VerifyingKey) (identity : Option ClientIdentity) (cfg : ValidClientConfig)
    (s : Handshaking) : HandshakeEvent → Handshaking
  | .arrive bytes => { s with inbox := s.inbox ++ bytes }
  | .readHello rng =>
    match s.phase, ByteArr.tryInto serverHelloSignedLen (s.inbox.take serverHelloSignedLen) with
    | .reading, some helloBuf =>
      let s := { s with inbox := s.inbox.drop serverHelloSignedLen }
      match answer H vk identity helloBuf rng with
      | .error e => { s with phase := .failed e }
      | .ok a => { s with phase := .writing a, answered := some a }
    | _, _ => s
  | .readFailed e =>
    match s.phase with
    | .reading => { s with phase := .failed ⟨.transport, s!"server hello read: {e}"⟩ }
    | _ => s
  | .written result =>
    match s.phase with
    | .writing a =>
      match result with
      | .error e => { s with phase := .failed ⟨.transport, e⟩ }
      | .ok () => { s with phase := .established a (.new a.sessionKey cfg.maxFrameSize) }
    | _ => s

end Handshaking

end Client

end LatticeShield
