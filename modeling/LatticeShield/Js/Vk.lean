import LatticeShield.Js.Framing
import LatticeShield.Lib.Json
import LatticeShield.Lib.Utf8

/-!
# Fetching the verifying key (`latticeshield-js/src/vk.ts`)

`fetchVK` from the answer of its `fetch` on: the URL it builds goes to `fetch` and nowhere else. A
JavaScript string is a list of UTF-16 code units, which is what the regular expression, `length`
and `slice` count.
-/

set_option autoImplicit false

namespace LatticeShield.Js

open Lib Json

/-! ## Strings -/

/-- The code units of a character. -/
def utf16Units (c : Char) : JsString :=
  if c.val < 0x10000 then [c.val.toUInt16]
  else
    let v := c.val - 0x10000
    [((0xD800 : UInt32) + (v >>> 10)).toUInt16, ((0xDC00 : UInt32) + (v &&& 0x3FF)).toUInt16]

def toJsString (s : String) : JsString := s.toList.flatMap utf16Units

/-- `await response.text()` of a body in UTF-8 without a byte order mark; anything else is not
modelled. -/
def responseText (body : Bytes) : Option JsString := (decodeUtf8 body).map toJsString

/-- `/^[0-9a-fA-F]+$/.test(s)`. -/
def isHex (s : JsString) : Bool := !s.isEmpty && s.all fun c => (hexDigit c).isSome

/-- White space and line terminators. -/
def isWhite (c : UInt16) : Bool :=
  (9 ≤ c && c ≤ 13) || c == 0x20 || c == 0xA0 || c == 0x1680 || (0x2000 ≤ c && c ≤ 0x200A) ||
    c == 0x2028 || c == 0x2029 || c == 0x202F || c == 0x205F || c == 0x3000 || c == 0xFEFF

def stripSign : JsString → Bool × JsString
  | 43 :: rest => (false, rest)
  | 45 :: rest => (true, rest)
  | s => (false, s)

/-- A leading `0x` or `0X`. -/
def strip0x : JsString → JsString
  | 48 :: 120 :: rest => rest
  | 48 :: 88 :: rest => rest
  | s => s

/-- `parseInt(s, 16)`; `none` is `NaN`. -/
def parseInt16 (s : JsString) : Option Int :=
  let (negative, s) := stripSign (s.dropWhile isWhite)
  match (strip0x s).map hexDigit |>.takeWhile Option.isSome |>.filterMap id with
  | [] => none
  | digits =>
    let n : Int := digits.foldl (fun n d => n * 16 + d) 0
    some (if negative then -n else n)

/-- What a `Uint8Array` stores of a number. -/
def toUint8 : Option Int → UInt8
  | none => 0
  | some n => UInt8.ofNat (n % 256).toNat

/-- The bytes of the loop: one for every slice of two. -/
def decodeHex : JsString → Bytes
  | a :: b :: rest => toUint8 (parseInt16 [a, b]) :: decodeHex rest
  | [a] => [toUint8 (parseInt16 [a])]
  | [] => []

/-! ## The answer -/

structure FetchResponse where
  status : Nat
  statusText : String
  text : JsString

/-- `response.ok`. -/
def FetchResponse.ok (r : FetchResponse) : Bool := 200 ≤ r.status && r.status ≤ 299

def vkHexLen : Nat := 3904

/-- `'server_vk' in json` and the value it has there. An array has no such property. -/
def serverVk : Json → Option Json
  | .object members => property members (toJsString "server_vk")
  | _ => none

def fetchVK (baseUrl : String) (response : FetchResponse) : Except JsError Bytes :=
  if !"https://".toList.isPrefixOf baseUrl.toList then
    .error (.error "fetchVK: baseUrl must start with https://")
  else if !response.ok then
    .error (.error s!"fetchVK: server returned {response.status} {response.statusText}")
  else
    match parse response.text with
    | none => .error (.error "fetchVK: response is not valid JSON")
    | some json =>
      match serverVk json with
      | some (.string hex) =>
        if !isHex hex then .error (.error "fetchVK: server_vk is not valid hex")
        else if hex.length ≠ vkHexLen then
          .error (.error ("fetchVK: server_vk has wrong length: expected 3904 hex chars " ++
            s!"(1952 bytes), got {hex.length}"))
        else .ok (decodeHex hex)
      | _ => .error (.error "fetchVK: missing server_vk field")

end LatticeShield.Js
