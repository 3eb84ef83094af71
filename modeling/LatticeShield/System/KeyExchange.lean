import LatticeShield.Bridge.Server
import LatticeShield.Client.Handshake
import LatticeShield.Lib.Family

/-!
# The key exchange over a hostile network

The bridge with all its connections (`Bridge/Server.lean`) beside any number of calls of
`do_handshake`, of any clients, with and without an identity. Whatever arrives at either of them is
an event of its own, with any bytes: the network delivers what it likes, to whom it likes, and
nothing ties a connection of the bridge to a call of a client but the bytes that get through.

`signed` is history: what was signed, in order, and by which connection or call.
-/

set_option autoImplicit false

namespace LatticeShield.KeyExchange

open Lib

/-- What the two sides were configured with. Every call may have a verifying key and an identity
of its own, so clients that trust other bridges are among them. -/
structure Parties where
  C : CipherSuite
  server : Bridge.Server
  clientConfig : Client.ValidClientConfig
  /-- The `server.vk` that each client has. -/
  serverVk : Nat → VerifyingKey
  identity : Nat → Option Client.ClientIdentity

inductive Signer where
  | bridge (conn : Nat)
  | client (call : Nat)
deriving DecidableEq, Repr

abbrev Event := (Nat × Bridge.Event) ⊕ (Nat × Client.HandshakeEvent)

variable (H : HandshakeSuite)

/-- The bridge and all calls, with what has been signed. There is no network: what arrives
anywhere is in the events. -/
structure World where
  bridge : Bridge.State H
  calls : Nat → Client.Handshaking
  signed : List (Signer × MlDsa.Signed)

variable {H}

/-- The signature a connection of the bridge makes in its step: its hello. It is logged when it is
made, whether or not it could be sent. -/
def bridgeSigns (server : Bridge.Server) (c : Bridge.Connection H) :
    Bridge.Event → Option MlDsa.Signed
  | .hello rng _ =>
    match c.phase with
    | .entered listener =>
      let (handshake, rng) := ServerHandshake.new (H := H) rng
      let identity := (server.context listener).identity
      match handshake.serverHelloSignedBytes identity.signingKey rng with
      | (.error _, _) => none
      | (.ok _, _) => some ⟨identity.verifyingKey, handshake.serverHelloBytes.toList⟩
    | _ => none
  | _ => none

/-- The signature of a client's step that has made an answer. It covers the response and the hello
together, and a client without an identity makes none. -/
def clientSigns (identity : Option Client.ClientIdentity) (before after : Client.Handshaking) :
    Option MlDsa.Signed :=
  match before.answered, after.answered, identity with
  | none, some a, some identity =>
    some ⟨identity.verifyingKey, (serializeClientResponse a.response).toList ++ a.hello.toList⟩
  | _, _, _ => none

namespace World

def start : World H := ⟨.new, fun _ => .start, []⟩

def step (P : Parties) (w : World H) : Event → World H
  | .inl (i, event) =>
    { w with
      bridge := w.bridge.step P.C P.server (i, event)
      signed := w.signed ++
        (bridgeSigns P.server (w.bridge.conns i) event).toList.map (.bridge i, ·) }
  | .inr (j, event) =>
    let call := (w.calls j).step H (P.serverVk j) (P.identity j) P.clientConfig event
    { w with
      calls := Function.update w.calls j call
      signed := w.signed ++
        (clientSigns (P.identity j) (w.calls j) call).toList.map (.client j, ·) }

def run (P : Parties) (events : List Event) : World H := events.foldl (step P) start

/-- Everything that was signed, by anyone. An ideal signature scheme verifies nothing that is not
in it. -/
def log (w : World H) : Set MlDsa.Signed := {e | ∃ s, (s, e) ∈ w.signed}

/-- No two connections were sent the same hello. Each hello has fresh keys and random bytes in it,
so this is a matter of the random generator. -/
def FreshHellos (w : World H) : Prop :=
  ∀ i j hello, (w.bridge.conns i).hello = some hello → (w.bridge.conns j).hello = some hello → i = j

end World

end LatticeShield.KeyExchange
