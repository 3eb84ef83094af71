import LatticeShield.Bridge.Admin
import LatticeShield.Bridge.TlsListener
import LatticeShield.Cli.VkShare

/-!
# How the bridge's verifying key gets out

Three programs share one store of tokens: calls of `vk-share` (`Cli/VkShare.lean`), the connections
of the admin channel (`Bridge/Admin.lean`), which make a token for the command of such a call, and
the HTTPS listener (`Bridge/TlsListener.lean`), which answers a request for `/vk/:token`. They run
concurrently and the network between the first two is not assumed to be anything: what arrives is
an event with any bytes.

`wires`, `history` and `signed` are history: what a connection of the admin channel has read and
written, every call of the store by whichever of the two, and every signature.
-/

set_option autoImplicit false

namespace LatticeShield.VkDistribution

open Lib

structure Parties where
  services : Admin.Services
  /-- `serde_json::to_vec`, in the bridge. -/
  serialize : Admin.AdminResponse → Bytes
  parse : Bridge.HttpParser
  serde : Cli.Serde
  command : Nat → Cli.Command

/-- A TLS connection, and what its task finds outside: the time, whether the backend is up, and
what the reads return. -/
structure Request where
  now : Nat
  backendUp : Bool
  reads : List SocketRead

inductive Event where
  | admin (conn : Nat) (action : Admin.Action)
  | cli (call : Nat) (event : Cli.Event)
  | https (request : Request)

inductive Signer where
  | admin (conn : Nat)
  | cli (call : Nat)
deriving DecidableEq, Repr

/-! ## One connection of the admin channel -/

/-- What it has read and written, with the channel that it writes its reply on. It is history: no
step of the bridge looks at it. -/
structure Wire where
  hello : Option (ByteArr serverHelloSignedLen)
  response : Option (ByteArr clientResponseSignedLen)
  frame : Option (Bytes × EncryptedChannel)
  reply : Option Admin.AdminResponse

namespace Wire

def new : Wire := ⟨none, none, none, none⟩

variable (P : Parties)

def read (wire : Wire) : Bytes :=
  wire.response.elim [] (·.toList) ++ wire.frame.elim [] Prod.fst

def wrote (wire : Wire) : Bytes :=
  wire.hello.elim [] (·.toList) ++
    match wire.frame, wire.reply with
    | some (_, channel), some reply => (Admin.respond P.services.C P.serialize channel reply).bytes
    | _, _ => []

/-- The bytes of a step of a connection in the phase `phase`. Only steps that read or write change
anything. -/
def next (wire : Wire) (shared : Admin.Shared) (phase : Admin.Phase P.services) :
    Admin.Action → Wire
  | .accept rng _ =>
    match phase with
    | .absent =>
      let (server, rng) := ServerHandshake.new (H := P.services.H) rng
      match server.serverHelloSignedBytes P.services.signingKey rng with
      | (.error _, _) => wire
      | (.ok buf, _) => { wire with hello := some buf }
    | _ => wire
  | .response bytes =>
    match phase with
    | .handshake _ => { wire with response := some bytes }
    | _ => wire
  | .frame bytes =>
    match phase with
    | .reading channel =>
      match (channel.readFrame P.services.C.aead.decrypt).run bytes with
      | none => wire
      | some ((_, channel), _) => { wire with frame := some (bytes, channel) }
    | _ => wire
  | .giveUp => wire
  | .advance env =>
    match phase with
    | .dispatching frame =>
      { wire with reply := (Admin.dispatch P.services shared env frame.cmd).1 }
    | _ => wire

end Wire

/-! ## The system -/

/-- The three programs and what they share. The admin channel and the listener run in one process
and have the store in common; a call has only the network. -/
structure World (P : Parties) where
  admin : Admin.State P.services
  wires : Nat → Wire
  calls : Nat → Cli.Call
  /-- Every call of the store, with the admin connection that made it, if one did. -/
  history : List (Option Nat × VkShare.Event)
  signed : List (Signer × MlDsa.Signed)

variable {P : Parties}

/-- `DEFAULT_TOKEN_TTL_SECS`, in ticks. -/
def ttl : Nat := VkShare.defaultTokenTtlSecs * 10 ^ 9

/-- The call of `create_token` in a step of an admin connection. It is the dispatch of a
`GetVkToken`, and the time and the UUID are that step's. -/
def creates (shared : Admin.Shared) (phase : Admin.Phase P.services) :
    Admin.Action → Option VkShare.Event
  | .advance env =>
    match phase with
    | .dispatching ⟨_, .getVkToken⟩ =>
      let vkBytes := P.services.verifyingKey.toList
      let (created, _) :=
        VkShare.createToken P.services.vkEnv shared.vkStore env.uuid env.now vkBytes ttl
      some ⟨env.now, .create env.uuid vkBytes ttl, .created created⟩
    | _ => none
  | _ => none

/-- The token that a TLS connection asks for, if its head is complete and is such a request. -/
def requested (parse : Bridge.HttpParser) (reads : List SocketRead) : Option String :=
  match Bridge.readHttpHead [] reads with
  | .complete headBytes => Bridge.extractVkToken parse headBytes
  | _ => none

/-- The call of `vk_response` in a TLS connection that was routed so. -/
def fetches (parse : Bridge.HttpParser) (request : Request) :
    Bridge.Routed → Option VkShare.Event
  | .answered response =>
    (requested parse request.reads).map fun token =>
      ⟨request.now, .fetch token, .response response⟩
  | _ => none

/-- The signature of an admin connection's step: its hello. The key is the bridge's own, the same
that is shared through the store. -/
def adminSigns (phase : Admin.Phase P.services) : Admin.Action → Option MlDsa.Signed
  | .accept rng _ =>
    match phase with
    | .absent =>
      let (server, rng) := ServerHandshake.new (H := P.services.H) rng
      match server.serverHelloSignedBytes P.services.signingKey rng with
      | (.error _, _) => none
      | (.ok _, _) => some ⟨P.services.verifyingKey, server.serverHelloBytes.toList⟩
    | _ => none
  | _ => none

/-- The signature of a call's step that has made a response. The command line always signs. -/
def cliSigns (command : Cli.Command) (before after : Cli.Call) : Option MlDsa.Signed :=
  match before.answered, after.answered with
  | none, some a =>
    some ⟨command.adminIdentity.verifyingKey,
      (serializeClientResponse a.response).toList ++ a.hello.toList⟩
  | _, _ => none

namespace World

def start : World P := ⟨.new VkShare.newStore, fun _ => .new, fun _ => .start, [], []⟩

def step (w : World P) : Event → World P
  | .admin i action =>
    let phase := w.admin.phase i
    { w with
      admin := w.admin.step (i, action)
      wires := Function.update w.wires i ((w.wires i).next P w.admin.shared phase action)
      history := w.history ++ (creates w.admin.shared phase action).toList.map (some i, ·)
      signed := w.signed ++ (adminSigns phase action).toList.map (.admin i, ·) }
  | .cli j event =>
    let call := (w.calls j).step P.services.H P.services.C P.serde (P.command j) event
    { w with
      calls := Function.update w.calls j call
      signed := w.signed ++ (cliSigns (P.command j) (w.calls j) call).toList.map (.cli j, ·) }
  | .https request =>
    let (routed, vkStore) := Bridge.routeTls P.parse w.admin.shared.vkStore request.now
      request.backendUp request.reads
    { w with
      admin := { w.admin with shared := { w.admin.shared with vkStore } }
      history := w.history ++ (fetches P.parse request routed).toList.map (none, ·) }

def run (P : Parties) (events : List Event) : World P := events.foldl step start

/-- Everything that was signed. -/
def log (w : World P) : Set MlDsa.Signed := {e | ∃ s, (s, e) ∈ w.signed}

/-- No two admin connections have sent the same hello. -/
def FreshHellos (w : World P) : Prop :=
  ∀ i j buf buf', (w.wires i).hello = some buf → (w.wires j).hello = some buf' →
    buf.slice 0 serverHelloLen Client.serverHelloLen_le =
      buf'.slice 0 serverHelloLen Client.serverHelloLen_le → i = j

/-- The UUIDs that were drawn for a token. -/
def uuids (w : World P) : List String :=
  w.history.filterMap fun e =>
    match e.2.call with
    | .create uuid _ _ => some uuid
    | .fetch _ => none

end World

end LatticeShield.VkDistribution
