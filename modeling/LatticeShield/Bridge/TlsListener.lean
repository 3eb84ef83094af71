import LatticeShield.Bridge.VkShare
import LatticeShield.Relay.Bridge

/-!
# The HTTPS listener (`latticeshield-bridge/src/server.rs`, `http_relay.rs`)

The task of a TLS connection: it reads until it has the head of the first request, answers
`GET /vk/:token` itself, and relays everything else. What the connection gives is a list of reads;
a list that has run out is a client that has closed.

`httparse` is outside the repository and a parameter: what it makes of a buffer, with room for so
many headers. The copying behind the head is in `Relay.Duplex`.
-/

set_option autoImplicit false

namespace LatticeShield.Bridge

open Lib

/-! ## Reading the head -/

/-- The limit of a head. It is compared with what has been read, so a head may end behind it in
the read that passes it. -/
def maxHeadBytes : Nat := 8 * 1024

/-- The size of the buffer of one read, a stack array. The buffer the head is collected in grows
by what a read has returned. -/
def headChunkLen : Nat := 4096

/-- How the reading of a head ended. A client that closes and a read that fails are the same
result, `eof`, and the connection is closed without a word. -/
inductive HeadResult where
  | complete (buf : Bytes)
  | tooLarge
  | eof
deriving DecidableEq

/-- `\r\n\r\n`. -/
def endOfHead : Bytes := [13, 10, 13, 10]

/-- `buf.windows(n)`: all slices of `n` neighbouring bytes, from the left. A buffer shorter than
`n` has none. -/
def windows (n : Nat) (buf : Bytes) : List Bytes :=
  (List.range (buf.length + 1 - n)).map fun i => (buf.drop i).take n

/-- Whether a blank line has been read. The search begins at the front of the buffer every time,
so one that is cut by two reads is found by the second. -/
def hasEndOfHead (buf : Bytes) : Bool := (windows 4 buf).any (· == endOfHead)

/-- `read_http_head_inplace`: behind every read it looks for the end of the head in all it has,
and only in front of the next read at the limit. -/
def readHttpHead (buf : Bytes) : List SocketRead → HeadResult
  | [] => if maxHeadBytes ≤ buf.length then .tooLarge else .eof
  | read :: reads =>
    if maxHeadBytes ≤ buf.length then .tooLarge
    else
      match read.into headChunkLen with
      | .err => .eof
      | .ok [] => .eof
      | .ok chunk =>
        let buf := buf ++ chunk
        if maxHeadBytes ≤ buf.length then
          if hasEndOfHead buf then .complete buf else .tooLarge
        else if hasEndOfHead buf then .complete buf
        else readHttpHead buf reads

/-! ## Routing -/

/-- `httparse::Error`. -/
inductive HttparseError where
  | headerName
  | headerValue
  | newLine
  | status
  | token
  | tooManyHeaders
  | version
deriving DecidableEq

/-- `httparse::Result<Status<usize>>`. -/
inductive ParseStatus where
  | complete (consumed : Nat)
  | incomplete
  | err (e : HttparseError)
deriving DecidableEq

/-- What a `parse` leaves in its `Request`, with what it returns. `method` and `path` may be set
where the status is an error: `httparse` fills them in as it goes. -/
structure ParsedRequest where
  status : ParseStatus
  method : Option String
  path : Option String
deriving DecidableEq

/-- `Request::new(&mut [EMPTY_HEADER; headers]).parse(buf)`. -/
abbrev HttpParser := (headers : Nat) → (buf : Bytes) → ParsedRequest

/-- The room `extract_vk_token` gives the parser. A request with more headers is the error
`TooManyHeaders`, whatever its first line is. -/
def maxHeaders : Nat := 64

/-- `strip_prefix("/vk/")`. -/
def stripVk (path : String) : Option String :=
  if "/vk/".toList.isPrefixOf path.toList then some (String.ofList (path.toList.drop 4)) else none

/-- `extract_vk_token`: the rest of the path behind `/vk/`, of a request that parses and is a GET.
An error of the parser and a request for something else are the same `None`. -/
def extractVkToken (parse : HttpParser) (buf : Bytes) : Option String :=
  let req := parse maxHeaders buf
  match req.status with
  | .err _ => none
  | .incomplete => none
  | .complete _ =>
    match req.method, req.path with
    | some method, some path => if method = "GET" then stripVk path else none
    | _, _ => none

/-- What the task does with a connection, up to the copying. The bytes of `relayed` are those that
were read to find the head, and they are written to the backend first. -/
inductive Routed where
  /-- `400 Bad Request`. -/
  | badRequest
  | closed
  | answered (response : VkShare.HttpResponse)
  /-- `502 Bad Gateway`: no connection to the backend. -/
  | badGateway
  /-- `backend_w.write_all(&preread)`, and the copying behind it. -/
  | relayed (preread : Bytes)
deriving DecidableEq

/-- `handle_with_preread`, as far as it depends on the backend being there. It does not look at
the bytes; its caller is documented to have parsed them. -/
def handleWithPreread (backendUp : Bool) (preread : Bytes) : Routed :=
  if backendUp then .relayed preread else .badGateway

/-- The task of a TLS connection whose handshake has succeeded: a head that is a VK request is
answered from the store, and every other one goes to the backend, parsed or not. -/
def routeTls (parse : HttpParser) (store : VkShare.VkShareStore) (now : Nat) (backendUp : Bool)
    (reads : List SocketRead) : Routed × VkShare.VkShareStore :=
  match readHttpHead [] reads with
  | .tooLarge => (.badRequest, store)
  | .eof => (.closed, store)
  | .complete headBytes =>
    match extractVkToken parse headBytes with
    | some token =>
      let (response, store) := VkShare.vkResponse store token now
      (.answered response, store)
    | none => (handleWithPreread backendUp headBytes, store)

end LatticeShield.Bridge
