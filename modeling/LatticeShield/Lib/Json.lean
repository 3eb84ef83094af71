import Mathlib.Data.List.Basic

/-!
# `JSON.parse`

A text of JavaScript is a list of UTF-16 code units, and so are its strings: an escape may put a
lone surrogate into one. The parser has two stages, both of which look at their input once from
left to right, so neither needs a bound on its length. `scan` makes tokens of the text: the
punctuation, and the values that contain no others. `parseTokens` builds the value, with a stack of
the arrays and objects that are still open.

A number is kept as its text. An object keeps its members in the order they came; of two with one
name the later counts (`property`).
-/

set_option autoImplicit false

namespace Lib

abbrev JsString := List UInt16

inductive Json where
  | null
  | bool (b : Bool)
  | number (text : JsString)
  | string (s : JsString)
  | array (items : List Json)
  | object (members : List (JsString × Json))

namespace Json

/-- The value of the last member with this name. `JSON.parse` lets a later member replace an
earlier one. -/
def property (members : List (JsString × Json)) (name : JsString) : Option Json :=
  (members.reverse.find? fun member => member.1 == name).map Prod.snd

/-! ## Tokens -/

inductive Token where
  | lbrace
  | rbrace
  | lbracket
  | rbracket
  | colon
  | comma
  | value (v : Json)

def isDigit (c : UInt16) : Bool := 48 ≤ c && c ≤ 57

def hexDigit (c : UInt16) : Option Nat :=
  if 48 ≤ c && c ≤ 57 then some (c.toNat - 48)
  else if 97 ≤ c && c ≤ 102 then some (c.toNat - 97 + 10)
  else if 65 ≤ c && c ≤ 70 then some (c.toNat - 65 + 10)
  else none

/-- `[eE][+-]?[0-9]+`, or nothing. -/
def isExponent : JsString → Bool
  | [] => true
  | e :: rest =>
    let digits := match rest with
      | sign :: digits => if sign == 43 || sign == 45 then digits else rest
      | [] => []
    (e == 101 || e == 69) && !digits.isEmpty && digits.all isDigit

/-- What may stand behind the integer part of a number. -/
def isFraction : JsString → Bool
  | 46 :: d :: rest => isDigit d && isExponent (rest.dropWhile isDigit)
  | rest => isExponent rest

def isUnsigned : JsString → Bool
  | [] => false
  | d :: rest =>
    if d == 48 then isFraction rest
    else isDigit d && isFraction (rest.dropWhile isDigit)

def isNumber : JsString → Bool
  | 45 :: rest => isUnsigned rest
  | rest => isUnsigned rest

/-- What the scanner is in the middle of: a string, a number or a word, or nothing. -/
inductive Scan where
  | start
  | string (s : JsString)
  | escape (s : JsString)
  /-- `\u`, with the digits read so far and their value. -/
  | unicode (s : JsString) (digits value : Nat)
  | number (text : JsString)
  /-- `true`, `false` or `null`, with what must still come of it. -/
  | word (rest : JsString) (v : Json)

/-- Characters a number may have. -/
def isNumberPart (c : UInt16) : Bool :=
  isDigit c || c == 43 || c == 45 || c == 46 || c == 69 || c == 101

def scanStart (c : UInt16) : Option (List Token × Scan) :=
  if c == 9 || c == 10 || c == 13 || c == 32 then some ([], .start)
  else if c == 123 then some ([.lbrace], .start)
  else if c == 125 then some ([.rbrace], .start)
  else if c == 91 then some ([.lbracket], .start)
  else if c == 93 then some ([.rbracket], .start)
  else if c == 58 then some ([.colon], .start)
  else if c == 44 then some ([.comma], .start)
  else if c == 34 then some ([], .string [])
  else if c == 116 then some ([], .word [114, 117, 101] (.bool true))
  else if c == 102 then some ([], .word [97, 108, 115, 101] (.bool false))
  else if c == 110 then some ([], .word [117, 108, 108] .null)
  else if isDigit c || c == 45 then some ([], .number [c])
  else none

/-- The character an escape with one letter stands for. -/
def unescape (c : UInt16) : Option UInt16 :=
  if c == 34 || c == 92 || c == 47 then some c
  else if c == 98 then some 8
  else if c == 102 then some 12
  else if c == 110 then some 10
  else if c == 114 then some 13
  else if c == 116 then some 9
  else none

def scanStep : Scan → UInt16 → Option (List Token × Scan)
  | .start, c => scanStart c
  | .string s, c =>
    if c == 34 then some ([.value (.string s)], .start)
    else if c == 92 then some ([], .escape s)
    else if c < 32 then none
    else some ([], .string (s ++ [c]))
  | .escape s, c =>
    if c == 117 then some ([], .unicode s 0 0)
    else (unescape c).map fun c => ([], .string (s ++ [c]))
  | .unicode s digits value, c =>
    (hexDigit c).map fun d =>
      if digits == 3 then ([], .string (s ++ [UInt16.ofNat (value * 16 + d)]))
      else ([], .unicode s (digits + 1) (value * 16 + d))
  | .number text, c =>
    if isNumberPart c then some ([], .number (text ++ [c]))
    else if isNumber text then
      (scanStart c).map fun (tokens, next) => (.value (.number text) :: tokens, next)
    else none
  | .word [] _, _ => none
  | .word (w :: rest) v, c =>
    if c == w then some (if rest.isEmpty then ([.value v], .start) else ([], .word rest v))
    else none

/-- The tokens of a text, from where the scanner is. -/
def scan : Scan → JsString → Option (List Token)
  | .start, [] => some []
  | .number text, [] => if isNumber text then some [.value (.number text)] else none
  | _, [] => none
  | state, c :: cs =>
    match scanStep state c with
    | none => none
    | some (tokens, next) => (scan next cs).map (tokens ++ ·)

/-! ## Values -/

/-- An array or an object that is open: what it has so far, and the name of the member that is
being read. -/
inductive Frame where
  | array (items : List Json)
  | object (members : List (JsString × Json)) (name : JsString)

/-- What must come next, with what is open around it. Nesting is the length of the stack, so the
parser is a loop over the tokens. -/
inductive Parse where
  | value (stack : List Frame)
  /-- Behind `[`. -/
  | items (stack : List Frame)
  /-- Behind the brace that opens an object. -/
  | members (stack : List Frame)
  | name (stack : List Frame) (members : List (JsString × Json))
  | colon (stack : List Frame) (members : List (JsString × Json)) (name : JsString)
  /-- A value has been read; it is the whole text, or another comes, or a bracket. -/
  | done (stack : List Frame) (v : Json)

def parseValue (stack : List Frame) : Token → Option Parse
  | .value v => some (.done stack v)
  | .lbracket => some (.items stack)
  | .lbrace => some (.members stack)
  | _ => none

def parseStep : Parse → Token → Option Parse
  | .value stack, token => parseValue stack token
  | .items stack, .rbracket => some (.done stack (.array []))
  | .items stack, token => parseValue (.array [] :: stack) token
  | .members stack, .rbrace => some (.done stack (.object []))
  | .members stack, .value (.string name) => some (.colon stack [] name)
  | .name stack members, .value (.string name) => some (.colon stack members name)
  | .colon stack members name, .colon => some (.value (.object members name :: stack))
  | .done (.array items :: stack) v, .comma => some (.value (.array (items ++ [v]) :: stack))
  | .done (.array items :: stack) v, .rbracket => some (.done stack (.array (items ++ [v])))
  | .done (.object members name :: stack) v, .comma =>
    some (.name stack (members ++ [(name, v)]))
  | .done (.object members name :: stack) v, .rbrace =>
    some (.done stack (.object (members ++ [(name, v)])))
  | _, _ => none

def parseTokens (tokens : List Token) : Option Json :=
  match tokens.foldlM parseStep (.value []) with
  | some (.done [] v) => some v
  | _ => none

/-- `JSON.parse(text)`; `none` is a `SyntaxError`. -/
def parse (text : JsString) : Option Json := (scan .start text).bind parseTokens

/-- `[-0.5e+1, "\u0041"]`. -/
example : parse [91, 45, 48, 46, 53, 101, 43, 49, 44, 32, 34, 92, 117, 48, 48, 52, 49, 34, 93] =
    some (.array [.number [45, 48, 46, 53, 101, 43, 49], .string [65]]) := rfl

/-- `[01]` is no JSON. -/
example : parse [91, 48, 49, 93] = none := rfl

/-! ## Strings without escapes -/

/-- A character that stands for itself in a string. -/
def IsPlain (c : UInt16) : Prop := 32 ≤ c ∧ c ≠ 34 ∧ c ≠ 92

instance : DecidablePred IsPlain := fun c =>
  inferInstanceAs (Decidable (32 ≤ c ∧ c ≠ 34 ∧ c ≠ 92))

theorem scan_cons (state : Scan) (c : UInt16) (cs : JsString) :
    scan state (c :: cs) = match scanStep state c with
      | none => none
      | some (tokens, next) => (scan next cs).map (tokens ++ ·) := by
  cases state <;> rfl

theorem scanStep_plain {c : UInt16} (hc : IsPlain c) (s : JsString) :
    scanStep (.string s) c = some ([], .string (s ++ [c])) := by
  obtain ⟨hlow, hquote, hescape⟩ := hc
  have hnot : ¬ c < 32 := UInt16.not_lt.mpr hlow
  simp [scanStep, hquote, hescape, hnot]

/-- A string of plain characters is scanned as it stands. -/
theorem scan_string {s : JsString} (hs : ∀ c ∈ s, IsPlain c) (read rest : JsString) :
    scan (.string read) (s ++ 34 :: rest) =
      (scan .start rest).map (.value (.string (read ++ s)) :: ·) := by
  induction s generalizing read with
  | nil =>
    rw [List.nil_append, scan_cons, List.append_nil]
    rfl
  | cons c s ih =>
    rw [List.forall_mem_cons] at hs
    rw [List.cons_append, scan_cons, scanStep_plain hs.1]
    simp only [ih hs.2, List.append_assoc, List.singleton_append, List.nil_append]
    cases scan .start rest <;> rfl

theorem scan_quote (rest : JsString) : scan .start (34 :: rest) = scan (.string []) rest := by
  rw [scan_cons]
  show (scan (.string []) rest).map ([] ++ ·) = _
  simp

/-- A character that is a token by itself. -/
theorem scan_token {c : UInt16} {token : Token} (hc : scanStart c = some ([token], .start))
    (rest : JsString) : scan .start (c :: rest) = (scan .start rest).map (token :: ·) := by
  rw [scan_cons]
  show (match scanStart c with
    | none => none
    | some (tokens, next) => (scan next rest).map (tokens ++ ·)) = _
  rw [hc]
  rfl

end Json

end Lib
