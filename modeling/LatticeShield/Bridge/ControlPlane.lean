import LatticeShield.Bridge.Config
import LatticeShield.Bridge.Identity

/-!
# The heartbeat client (`latticeshield-bridge/src/control_plane.rs`)

`start` loads the cloud's verifying key, registers the bridge and then posts a heartbeat at every
interval; the answer may carry commands. Whether an answer must be signed is decided once, by
whether the key could be loaded, and handed to `send_heartbeat` as an `Option`.

`serde_json` and `base64` are outside the repository: what they make of bytes and texts is the
`Codec`. A heartbeat is one `Beat`: what the clock says, what comes back from the network. What the
loop does to `cmd_tx` is kept as a history, one entry for each heartbeat. The network's answer is
whatever it is, so nothing is said about how it depends on the request.
-/

set_option autoImplicit false

namespace LatticeShield.ControlPlane

open Lib Bridge

/-! ## Wire types -/

structure RegistrationPayload where
  name : String
  version : String
  capabilities : List String
  listenAddr : SocketAddr
  serverVk : String
  installToken : Option String
deriving DecidableEq

structure HeartbeatMetrics where
  connectionsActive : UInt64
  connectionsTotal : UInt64
  bytesTransmittedTotal : UInt64
  channelErrorsTotal : UInt64
deriving DecidableEq, Repr

structure SignableHeartbeatPayload where
  timestampUnix : UInt64
  uptimeSecs : UInt64
  status : String
  version : String
  metrics : HeartbeatMetrics
deriving DecidableEq, Repr

structure SignedHeartbeatPayload extends SignableHeartbeatPayload where
  signature : String
deriving DecidableEq, Repr

/-- The commands of a response. `serde(other)` maps every type that is not known to `Unknown`, and
the loop does not send those on. -/
inductive BridgeCommand where
  | rotate
  | unknown
deriving DecidableEq, Repr

/-- The answer as it is parsed. Signed and unsigned commands are two fields, and which one counts
is decided by whether there is a cloud key. -/
structure HeartbeatResponse where
  /-- Used only without a cloud key. -/
  pendingCommands : Option (List BridgeCommand) := none
  signedPayload : Option String := none
  responseSignature : Option String := none
deriving DecidableEq, Repr

structure SignedResponsePayload where
  pendingCommands : Option (List BridgeCommand)
  ts : Int64
deriving DecidableEq

/-- How far the timestamp of a signed payload may be from the bridge's clock, in seconds and in
either direction. Nothing else keeps a payload from being used twice. -/
def signedResponseFreshnessSecs : Int64 := 300

def maxHeartbeatResponseBytes : Nat := 1024 * 1024

/-- `CARGO_PKG_VERSION`. -/
def version : String := "0.3.7"

/-- What `serde_json` and `base64` make of bytes and texts, as functions without assumptions.
`none` is an error of the parser or of the serialiser. -/
structure Codec where
  heartbeatToVec : SignableHeartbeatPayload → Option Bytes
  parseRegistration : Bytes → Option String
  parseResponse : Bytes → Option HeartbeatResponse
  parsePayload : String → Option SignedResponsePayload
  base64Encode : Bytes → String
  base64Decode : String → Option Bytes

/-- What a POST comes back with; `body` is missing if it could not be read. `failed` is every
error of the request itself, a timeout included. -/
inductive HttpResponse where
  | failed
  | answered (status : Nat) (contentLength : Option UInt64) (body : Option Bytes)
deriving DecidableEq

def isSuccess (status : Nat) : Bool := decide (200 ≤ status ∧ status < 300)

inductive HeartbeatError where
  | serialize
  | sign (e : SigningError)
  | request
  | non2xx (status : Nat)
  | advertisedTooLarge (len : Nat)
  | readBody
  | tooLarge (len : Nat)
deriving DecidableEq

/-! ## The cloud's key -/

/-- The key is read as raw bytes and must have its exact length. Both failures have a text of
their own, which `start` only logs. -/
def loadCloudVk (fs : FileSystem) (path : String) : Except String VerifyingKey := do
  let bytes ← (fs.read path).mapError fun e => s!"cannot read cloud_vk_path '{path}': {e}"
  refuseIf (bytes.length ≠ verifyingKeyLen)
    s!"cloud_vk_path '{path}' has {bytes.length} bytes; expected {verifyingKeyLen} (ML-DSA-65 VerifyingKey)"
  (VerifyingKey.fromBytes bytes).mapError fun _ =>
    s!"cloud_vk_path '{path}' parse failed: InvalidLength"

/-! ## Registration -/

variable (codec : Codec) (D : MlDsa)

def registrationPayload (config : RunConfig) (identity : ServerIdentity) : RegistrationPayload where
  name := config.controlPlaneAgentName
  version := version
  capabilities := ["pqc-proxy", "ml-kem-768", "ml-dsa-65"]
  listenAddr := config.listenAddr
  serverVk := VkShare.hexEncode identity.verifyingKey.toList
  installToken := config.controlPlaneInstallToken

/-- What is posted and where, and the id the control plane gives the bridge. -/
def tryRegister (config : RunConfig) (identity : ServerIdentity) (resp : HttpResponse) :
    (String × RegistrationPayload) × Option String :=
  let url := s!"{config.controlPlaneEndpoint}/api/v1/agents/register"
  let agentId := match resp with
    | .failed => none
    | .answered status _ body =>
      if isSuccess status then body.bind codec.parseRegistration else none
  ((url, registrationPayload config identity), agentId)

/-! ## One heartbeat -/

/-- `d.as_secs() as i64`, and 0 before the epoch. The cast wraps above `2 ^ 63`, as Rust's does. -/
def nowSecs (clock : Option UInt64) : Int64 := (clock.map UInt64.toInt64).getD 0

/-- `i64::checked_sub`. -/
def checkedSub (a b : Int64) : Option Int64 :=
  let d := a.toInt - b.toInt
  if -2 ^ 63 ≤ d ∧ d < 2 ^ 63 then some (Int64.ofInt d) else none

/-- `i64::saturating_abs`. -/
def saturatingAbs (a : Int64) : Int64 :=
  if a = Int64.minValue then Int64.maxValue else if a < 0 then -a else a

/-- The distance of a timestamp from the clock. Where `checked_sub` overflows it is the largest
`i64`, so a payload with an extreme timestamp is never fresh. -/
def drift (now ts : Int64) : Int64 := ((checkedSub now ts).map saturatingAbs).getD Int64.maxValue

/-- Steps 1 to 5: what is posted, and where. The signature is over the payload without its
`signature` field; a failure here ends the heartbeat before anything is sent. -/
def heartbeatRequest (config : RunConfig) (agentId : String) (signable : SignableHeartbeatPayload)
    (identity : ServerIdentity) (rng : Rng) :
    Except HeartbeatError (String × SignedHeartbeatPayload) × Rng :=
  match codec.heartbeatToVec signable with
  | none => (.error .serialize, rng)
  | some canonical =>
    match sign D identity.signingKey canonical rng with
    | (.error e, rng) => (.error (.sign e), rng)
    | (.ok sig, rng) =>
      let endpoint := String.ofList
        (config.controlPlaneEndpoint.toList.reverse.dropWhile (· = '/')).reverse
      (.ok (s!"{endpoint}/api/v1/agents/{agentId}/heartbeat",
        { signable with signature := codec.base64Encode sig.toList }), rng)

/-- Step 6: the answer within its bounds. What does not parse is the default, as with
`unwrap_or_default`: a response without a signed payload and without commands. -/
def readResponse : HttpResponse → Except HeartbeatError HeartbeatResponse
  | .failed => .error .request
  | .answered status contentLength body => do
    refuseIf (!isSuccess status) (.non2xx status)
    refuseIf (contentLength.any fun len => maxHeartbeatResponseBytes < len.toNat)
      (.advertisedTooLarge ((contentLength.map UInt64.toNat).getD 0))
    let body ← okOr body .readBody
    refuseIf (maxHeartbeatResponseBytes < body.length) (.tooLarge body.length)
    return (codec.parseResponse body).getD {}

/-- Step 7: the commands of the signed payload, if everything about it is right. Every check that
fails gives the empty response; the source logs which one it was. -/
def verifyResponse (vk : VerifyingKey) (resp : HeartbeatResponse) (clock : Option UInt64) :
    HeartbeatResponse :=
  match resp.signedPayload, resp.responseSignature with
  | some signedPayload, some sigB64 =>
    match codec.base64Decode sigB64 with
    | none => {}
    | some sigBytes =>
      match Signature.fromBytes sigBytes with
      | .error _ => {}
      | .ok sig =>
        match verify D vk signedPayload.toUTF8.toList sig with
        | .error _ => {}
        | .ok () =>
          match codec.parsePayload signedPayload with
          | none => {}
          | some inner =>
            if drift (nowSecs clock) inner.ts > signedResponseFreshnessSecs then {}
            else { pendingCommands := inner.pendingCommands }
  | _, _ => {}

/-- Steps 7 and 8. The key decides, not the response: with a key an unsigned answer has no
commands, and without one a signed answer is not looked at. -/
def acceptResponse (cloudVk : Option VerifyingKey) (resp : HeartbeatResponse)
    (clock : Option UInt64) : HeartbeatResponse :=
  match cloudVk with
  | some vk => verifyResponse codec D vk resp clock
  -- backward compatibility: nothing is verified
  | none => resp

/-- The whole of a heartbeat, if the POST comes back with `answer`. The answer is a parameter and
does not depend on the request, as a network may answer whatever it wants. -/
def sendHeartbeat (config : RunConfig) (agentId : String) (signable : SignableHeartbeatPayload)
    (identity : ServerIdentity) (rng : Rng) (cloudVk : Option VerifyingKey) (answer : HttpResponse)
    (clock : Option UInt64) : Except HeartbeatError HeartbeatResponse × Rng :=
  match heartbeatRequest codec D config agentId signable identity rng with
  | (.error e, rng) => (.error e, rng)
  | (.ok _, rng) =>
    ((readResponse codec answer).map fun resp => acceptResponse codec D cloudVk resp clock, rng)

/-! ## The loop -/

/-- What one turn of the loop finds outside. The clock is read twice, once for the heartbeat's own
timestamp and once when the answer is checked. -/
structure Beat where
  metrics : HeartbeatMetrics
  /-- The wall clock when the heartbeat is made. -/
  timestamp : Option UInt64
  uptimeSecs : UInt64
  response : HttpResponse
  /-- The wall clock when the answer is checked. -/
  clock : Option UInt64

/-- What one turn did: the `signed_payload` it was given, and every command it sent on `cmd_tx`. -/
structure Entry where
  request : Option (String × SignedHeartbeatPayload)
  payload : Option String
  commands : List BridgeCommand
deriving DecidableEq

structure LoopState where
  rng : Rng
  history : List Entry

def signable (beat : Beat) : SignableHeartbeatPayload where
  timestampUnix := beat.timestamp.getD 0
  uptimeSecs := beat.uptimeSecs
  status := "healthy"
  version := version
  metrics := beat.metrics

/-- The commands of a response that are sent on, in their order. A receiver that is gone is not
noticed: the source ignores the result of `send`. -/
def dispatched (resp : HeartbeatResponse) : List BridgeCommand :=
  (resp.pendingCommands.getD []).filter (· ≠ .unknown)

variable (config : RunConfig) (identity : ServerIdentity)

def heartbeat (agentId : String) (cloudVk : Option VerifyingKey) (s : LoopState) (beat : Beat) :
    LoopState :=
  match heartbeatRequest codec D config agentId (signable beat) identity s.rng with
  | (.error _, rng) => { rng, history := s.history ++ [⟨none, none, []⟩] }
  | (.ok request, rng) =>
    match readResponse codec beat.response with
    | .error _ => { rng, history := s.history ++ [⟨some request, none, []⟩] }
    | .ok resp =>
      { rng
        history := s.history ++ [⟨some request, resp.signedPayload,
          dispatched (acceptResponse codec D cloudVk resp beat.clock)⟩] }

/-- What `start` finds outside before its loop. -/
structure Boot where
  clientBuilt : Bool
  registration : HttpResponse
  rng : Rng

/-- The key `start` hands to every heartbeat. A path that is configured and cannot be loaded is,
from here on, the same as no path. -/
def cloudVk (fs : FileSystem) : Option VerifyingKey :=
  match config.cloudVkPath with
  | none => none
  | some path =>
    match loadCloudVk fs path with
    | .ok vk => some vk
    -- only a warning: "BridgeCommand verification disabled"
    | .error _ => none

/-- The history of a run that ends after `beats`. The loop of the source has no end of its own; a
run is what it has done by some heartbeat. -/
def start (fs : FileSystem) (boot : Boot) (beats : List Beat) : List Entry :=
  if boot.clientBuilt then
    match (tryRegister codec config identity boot.registration).2 with
    | none => []
    | some agentId =>
      (beats.foldl (heartbeat codec D config identity agentId (cloudVk config fs))
        ⟨boot.rng, []⟩).history
  else []

end LatticeShield.ControlPlane
