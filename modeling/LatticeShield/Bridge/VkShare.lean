import LatticeShield.Lib.Bytes
import LatticeShield.Lib.Table

/-!
# One-time download tokens (`latticeshield-bridge/src/vk_share.rs`)

The store behind `GET /vk/:token`: a hash map from token to entry, under one mutex, so each of the
two operations on it is one step. `create_token` evicts what has expired, refuses when the store is
full, and inserts; `vk_response` answers for one token, marking it used or removing it on the way.

An `Instant` is a number of clock ticks. `now + ttl` panics when the clock type cannot hold the sum
(`maxInstant`); the panic happens after the eviction, and the poisoned lock is recovered, so the
evicted store is what the next call finds. The UUID and the time are what the environment gives a
call. SHA-256 is outside the repository and a parameter.
-/

set_option autoImplicit false

namespace LatticeShield.VkShare

open Lib

def defaultTokenTtlSecs : Nat := 600
def defaultTokenMax : Nat := 1000

/-- What the store has of a token: the two texts of its answer, made when the token was created,
and when and whether it stops being answered. -/
structure VkShareEntry where
  vkHex : String
  fingerprint : String
  expiresAt : Nat
  used : Bool
deriving DecidableEq, Repr

/-- `HashMap<String, VkShareEntry>` behind its mutex. The order of the entries is never looked at.
-/
abbrev VkShareStore := Table String VkShareEntry

def newStore : VkShareStore := ∅

/-- What the store is built on and run with: SHA-256, which is a crate's, the end of the clock,
and the configured capacity. -/
structure Env where
  sha256 : Bytes → ByteArr 32
  /-- The largest `Instant`. -/
  maxInstant : Nat
  maxTokens : Nat

/-! ## Text -/

/-- `{b:02x}` of every byte: two digits each, in lower case, without a separator. -/
def hexEncode (bytes : Bytes) : String :=
  String.ofList (bytes.flatMap fun b =>
    [Nat.digitChar (b.toNat / 16), Nat.digitChar (b.toNat % 16)])

def sha256Hex (env : Env) (bytes : Bytes) : String := hexEncode (env.sha256 bytes).toList

structure HttpResponse where
  status : Nat
  body : String
deriving DecidableEq, Repr

/-- The reason phrase `http_json_response` looks up. The handler knows three codes, and `Error` is
for all the others. -/
def HttpResponse.reason (r : HttpResponse) : String :=
  match r.status with
  | 200 => "OK"
  | 404 => "Not Found"
  | 410 => "Gone"
  | _ => "Error"

/-- The bytes `http_json_response` writes; `body.len()` counts UTF-8 bytes. -/
def HttpResponse.toBytes (r : HttpResponse) : Bytes :=
  (s!"HTTP/1.1 {r.status} {r.reason}\r\nContent-Type: application/json\r\n" ++
    s!"Content-Length: {r.body.utf8ByteSize}\r\nConnection: close\r\n\r\n{r.body}").toUTF8.toList

def httpJsonResponse (status : Nat) (body : String) : HttpResponse := ⟨status, body⟩

/-- The body of a download, by `format!`: an object with two members, neither of which is escaped.
Both are hexadecimal, so nothing in them would need it. -/
def vkBody (vkHex fingerprint : String) : String :=
  "\x7b\"server_vk\":\"" ++ vkHex ++ "\",\"fingerprint\":\"" ++ fingerprint ++ "\"\x7d"

/-! ## The two operations -/

/-- What `create_token` returns: the token with the fingerprint, or `TooManyTokens`. A panic
unwinds through the caller; the lock it poisons is recovered by the next call. -/
inductive Created where
  | ok (token fingerprint : String)
  | tooManyTokens
  /-- `now + ttl` overflowed. -/
  | panicked
deriving DecidableEq, Repr

/-- `create_token`. Eviction keeps the entries that expire after `now`, used or not, and what it
keeps counts against the capacity. -/
def createToken (env : Env) (store : VkShareStore) (uuid : String) (now : Nat) (vkBytes : Bytes)
    (ttl : Nat) : Created × VkShareStore :=
  let vkHex := hexEncode vkBytes
  let fingerprint := sha256Hex env vkBytes
  let store := Table.retain (fun _ v => decide (v.expiresAt > now)) store
  if Table.len store ≥ env.maxTokens then (.tooManyTokens, store)
  else if now + ttl > env.maxInstant then (.panicked, store)
  else
    let entry : VkShareEntry := { vkHex, fingerprint, expiresAt := now + ttl, used := false }
    (.ok uuid fingerprint, store.insert uuid entry)

/-- `vk_response`. A token expires behind its instant here, where `create_token` evicts it at the
instant itself. A token that was used stays in the store, marked, until it expires. -/
def vkResponse (store : VkShareStore) (token : String) (now : Nat) : HttpResponse × VkShareStore :=
  match store.lookup token with
  | none => (httpJsonResponse 404 "\x7b\"error\":\"token not found\"\x7d", store)
  | some entry =>
    if entry.expiresAt < now then
      (httpJsonResponse 410 "\x7b\"error\":\"token expired\"\x7d", store.erase token)
    else if entry.used then
      (httpJsonResponse 410 "\x7b\"error\":\"token already used\"\x7d", store)
    else
      (httpJsonResponse 200 (vkBody entry.vkHex entry.fingerprint),
        store.insert token { entry with used := true })

/-! ## Runs -/

/-- A call of one of the two, with what the environment gives it. -/
inductive Call where
  | create (uuid : String) (vkBytes : Bytes) (ttl : Nat)
  | fetch (token : String)
deriving DecidableEq, Repr

inductive Reply where
  | created (r : Created)
  | response (r : HttpResponse)
deriving DecidableEq, Repr

/-- A call that was answered, and when. The reply is recorded whole, so that a history says which
bytes have left the bridge. -/
structure Event where
  now : Nat
  call : Call
  reply : Reply
deriving DecidableEq, Repr

structure World where
  store : VkShareStore
  events : List Event

def World.new : World := ⟨newStore, []⟩

def World.step (env : Env) (w : World) : Nat × Call → World
  | (now, .create uuid vkBytes ttl) =>
    let (r, store) := createToken env w.store uuid now vkBytes ttl
    ⟨store, w.events ++ [⟨now, .create uuid vkBytes ttl, .created r⟩]⟩
  | (now, .fetch token) =>
    let (r, store) := vkResponse w.store token now
    ⟨store, w.events ++ [⟨now, .fetch token, .response r⟩]⟩

def World.run (env : Env) (calls : List (Nat × Call)) : World := calls.foldl (World.step env) .new

/-- The UUIDs drawn, one for each `create_token`, also for the calls that were refused: the draw
comes before the check. -/
def uuids (calls : List (Nat × Call)) : List String :=
  calls.filterMap fun c =>
    match c.2 with
    | .create uuid _ _ => some uuid
    | .fetch _ => none

end LatticeShield.VkShare
