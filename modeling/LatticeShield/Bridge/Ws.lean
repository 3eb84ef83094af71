import LatticeShield.Lib.Bytes
import LatticeShield.Lib.Fallible
import LatticeShield.Lib.Text

/-!
# Origins (`latticeshield-bridge/src/ws.rs`)

The allowlist of a WebSocket listener: what an origin is reduced to before two of them are
compared, and the check of an upgrade request. `url::Url::parse` is outside the repository and a
parameter: it gives the parts of a URL, the scheme in lower case and the port only where it is not
the scheme's own.
-/

set_option autoImplicit false

namespace LatticeShield.Bridge

open Lib

/-- The parts of a URL as the `url` crate has them: the port is missing where it is the scheme's
own, and the path of a special URL is never empty. -/
structure Url where
  scheme : String
  host : Option String
  port : Option UInt16
  path : String
  query : Option String
  fragment : Option String
deriving DecidableEq, Repr

/-- `"scheme://host:port"`, the port written out even where it is the scheme's own. Two origins
are the same when these texts are. -/
structure NormalizedOrigin where
  normalized : String
deriving DecidableEq, Repr

/-- Why a string is no origin, with what the message quotes besides it. The order of the checks
decides which of several reasons is given. -/
inductive OriginError where
  | invalidUrl
  | scheme (got : String)
  | missingHost
  | path (got : String)
  | query
  | fragment
deriving DecidableEq, Repr

variable (parseUrl : String → Option Url)

/-- `parse`, for the allowlist and for the header alike. `to_lowercase` is on a host, which
`Url::parse` has made ASCII already. -/
def NormalizedOrigin.parse (s : String) : Except OriginError NormalizedOrigin := do
  let url ← okOr (parseUrl s) .invalidUrl
  refuseIf (decide (url.scheme ≠ "https" ∧ url.scheme ≠ "http")) (.scheme url.scheme)
  let host ← okOr url.host .missingHost
  refuseIf (decide (url.path ≠ "" ∧ url.path ≠ "/")) (.path url.path)
  refuseIf url.query.isSome .query
  refuseIf url.fragment.isSome .fragment
  let port := url.port.getD (if url.scheme = "https" then 443 else 80)
  return ⟨s!"{url.scheme}://{host.toLower}:{port}"⟩

/-- `matches_header`: the header is reduced as the entry was, so they differ only where the
triples do. A header that is no origin matches nothing. -/
def NormalizedOrigin.matchesHeader (origin : NormalizedOrigin) (header : String) : Bool :=
  match NormalizedOrigin.parse parseUrl header with
  | .ok parsed => decide (parsed.normalized = origin.normalized)
  | .error _ => false

/-- `OriginCheck::on_request`, with the `Origin` header if there is one that is text; a refusal is
a 403. -/
def originAllowed (allowedOrigins : List NormalizedOrigin) (header : Option String) : Bool :=
  if allowedOrigins = [] then true
  else match header with
    | none => false
    | some header => allowedOrigins.any fun origin => origin.matchesHeader parseUrl header

/-- An upgrade request, with what `HeaderMap::get` finds under a name: the value of the first such
header, as bytes. -/
structure Request where
  headers : String → Option Bytes

structure ErrorResponse where
  status : Nat
  body : Option String
deriving DecidableEq, Repr

structure OriginCheck where
  allowedOrigins : List NormalizedOrigin
deriving DecidableEq, Repr

/-- The response, which the callback hands back as it is, or the refusal that is sent in its
place. `toStr` is `HeaderValue::to_str`. -/
def OriginCheck.onRequest {ρ : Type} (toStr : Bytes → Option String) (self : OriginCheck)
    (request : Request) (response : ρ) : Except ErrorResponse ρ := do
  let originHeader := (request.headers "Origin").bind toStr
  refuseIf (!originAllowed parseUrl self.allowedOrigins originHeader) ⟨403, none⟩
  return response

end LatticeShield.Bridge
