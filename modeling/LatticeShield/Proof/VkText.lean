import LatticeShield.Crypto.Signing
import LatticeShield.Bridge.VkShare
import LatticeShield.Js.Vk

/-!
# The text of a download

`vk_response` writes the key and its fingerprint in hexadecimal into a JSON object with `format!`,
and no escaping: that is sound only because a hexadecimal digit is never a quote or a backslash.
`fetchVK` takes the text apart again with `JSON.parse`, a regular expression and `parseInt`. What a
parser finds in the text is what was written into it, for any bytes (`vkBody_tells`), and what
`fetchVK` returns is always what the text it was given says (`fetchVK_ok`): a string that passes
its checks has one reading.

Everything about single digits is a fact about 16 values or 128 code units and is checked on all
of them.
-/

set_option autoImplicit false

namespace LatticeShield.Js

open Lib Json VkShare

/-! ## Digits -/

/-- The code unit of a digit, in lower case. -/
def hexUnit (d : Nat) : UInt16 := (Nat.digitChar d).val.toUInt16

/-- `toLowerCase` of an ASCII code unit. -/
def lowerUnit (c : UInt16) : UInt16 := if 65 ≤ c ∧ c ≤ 90 then c + 32 else c

/-- What is known of a code unit that is a hexadecimal digit. `parseInt` would take white space
and signs for something else, so they are excluded here. -/
structure HexUnit (c : UInt16) (d : Nat) : Prop where
  lt : d < 16
  unit : hexUnit d = lowerUnit c
  notWhite : isWhite c = false
  notSign : c ≠ 43 ∧ c ≠ 45
  notX : c ≠ 120 ∧ c ≠ 88

instance (c : UInt16) (d : Nat) : Decidable (HexUnit c d) :=
  decidable_of_iff (d < 16 ∧ hexUnit d = lowerUnit c ∧ isWhite c = false ∧ (c ≠ 43 ∧ c ≠ 45) ∧
      c ≠ 120 ∧ c ≠ 88)
    ⟨fun h => ⟨h.1, h.2.1, h.2.2.1, h.2.2.2.1, h.2.2.2.2⟩,
      fun h => ⟨h.lt, h.unit, h.notWhite, h.notSign, h.notX⟩⟩

theorem hexUnit_ascii : ∀ n : Fin 128,
    ((hexDigit (UInt16.ofNat n)).all fun d => decide (HexUnit (UInt16.ofNat n) d)) = true := by
  decide +kernel

theorem hexUnit_of_hexDigit {c : UInt16} {d : Nat} (h : hexDigit c = some d) : HexUnit c d := by
  have hsmall : c.toNat < 128 := by
    by_contra hlarge
    have hlow : ¬ c ≤ 57 ∧ ¬ c ≤ 102 ∧ ¬ c ≤ 70 := by
      simp only [UInt16.le_iff_toNat_le]
      refine ⟨?_, ?_, ?_⟩ <;> simp <;> omega
    simp [hexDigit, hlow] at h
  have hall := hexUnit_ascii ⟨c.toNat, hsmall⟩
  rw [show UInt16.ofNat (⟨c.toNat, hsmall⟩ : Fin 128).val = c from UInt16.ofNat_toNat, h] at hall
  simpa using hall

/-- What is known of a digit that a key is written in, from the digit to the character, the code
unit and back. -/
structure Written (d : Nat) : Prop where
  read : hexDigit (hexUnit d) = some d
  plain : IsPlain (hexUnit d)
  units : utf16Units (Nat.digitChar d) = [hexUnit d]
  ascii : (Nat.digitChar d).val ≤ 127

theorem written_of_lt {d : Nat} (hd : d < 16) : Written d := by
  have hall : ∀ d : Fin 16, hexDigit (hexUnit d) = some d.val ∧ IsPlain (hexUnit d) ∧
      utf16Units (Nat.digitChar d) = [hexUnit d] ∧ (Nat.digitChar d).val ≤ 127 := by
    decide +kernel
  obtain ⟨hread, hplain, hunits, hascii⟩ := hall ⟨d, hd⟩
  exact ⟨hread, hplain, hunits, hascii⟩

theorem written_div (b : UInt8) : Written (b.toNat / 16) :=
  written_of_lt (Nat.div_lt_of_lt_mul b.toNat_lt)

theorem written_mod (b : UInt8) : Written (b.toNat % 16) :=
  written_of_lt (Nat.mod_lt _ (by decide))

/-- Whatever is written of a key, digit by digit, is written of one of these. -/
theorem exists_written {α : Type} {f : Nat → α} {bytes : Bytes} {c : α}
    (hc : c ∈ bytes.flatMap fun b => [f (b.toNat / 16), f (b.toNat % 16)]) :
    ∃ d, Written d ∧ c = f d := by
  obtain ⟨b, -, hb⟩ := List.mem_flatMap.mp hc
  rcases List.mem_pair.mp hb with rfl | rfl
  · exact ⟨_, written_div b, rfl⟩
  · exact ⟨_, written_mod b, rfl⟩

/-! ## Pairs of digits -/

theorem parseInt16_pair {a b : UInt16} {x y : Nat} (ha : hexDigit a = some x)
    (hb : hexDigit b = some y) : parseInt16 [a, b] = some ((x * 16 + y : Nat) : Int) := by
  have hua := hexUnit_of_hexDigit ha
  have hub := hexUnit_of_hexDigit hb
  have hwhite : [a, b].dropWhile isWhite = [a, b] := by
    simp [hua.notWhite]
  have hsign : stripSign [a, b] = (false, [a, b]) := by
    unfold stripSign
    split
    · rename_i heq
      exact absurd (List.cons.inj heq).1 hua.notSign.1
    · rename_i heq
      exact absurd (List.cons.inj heq).1 hua.notSign.2
    · rfl
  have hprefix : strip0x [a, b] = [a, b] := by
    unfold strip0x
    split
    · rename_i heq
      exact absurd (List.cons.inj (List.cons.inj heq).2).1 hub.notX.1
    · rename_i heq
      exact absurd (List.cons.inj (List.cons.inj heq).2).1 hub.notX.2
    · rfl
  simp [parseInt16, hwhite, hsign, hprefix, ha, hb]

theorem toUint8_pair {x y : Nat} (hx : x < 16) (hy : y < 16) :
    toUint8 (some ((x * 16 + y : Nat) : Int)) = UInt8.ofNat (x * 16 + y) := by
  have hsmall : (((x * 16 + y : Nat) : Int) % 256).toNat = x * 16 + y := by omega
  rw [toUint8, hsmall]

theorem decodeHex_pair {a b : UInt16} {x y : Nat} (ha : hexDigit a = some x)
    (hb : hexDigit b = some y) (rest : JsString) :
    decodeHex (a :: b :: rest) = UInt8.ofNat (x * 16 + y) :: decodeHex rest := by
  rw [decodeHex, parseInt16_pair ha hb,
    toUint8_pair (hexUnit_of_hexDigit ha).lt (hexUnit_of_hexDigit hb).lt]

/-- The code units of a key in hexadecimal. -/
def hexUnits (bytes : Bytes) : JsString :=
  bytes.flatMap fun b => [hexUnit (b.toNat / 16), hexUnit (b.toNat % 16)]

theorem toJsString_hexEncode (bytes : Bytes) : toJsString (hexEncode bytes) = hexUnits bytes := by
  rw [toJsString, hexEncode, String.toList_ofList, List.flatMap_assoc, hexUnits]
  congr 1
  funext b
  simp only [List.flatMap_cons, List.flatMap_nil, List.append_nil]
  rw [(written_div b).units, (written_mod b).units]
  rfl

/-- What `fetchVK` makes of a key in hexadecimal is the key. `parseInt` reads two digits at a
time, and the text has two for every byte. -/
theorem decodeHex_hexUnits (bytes : Bytes) : decodeHex (hexUnits bytes) = bytes := by
  induction bytes with
  | nil => rfl
  | cons b bytes ih =>
    rw [hexUnits, List.flatMap_cons, List.cons_append, List.cons_append, List.nil_append,
      decodeHex_pair (written_div b).read (written_mod b).read, Nat.div_add_mod', UInt8.ofNat_toNat]
    congr 1

/-- And what it returns, in hexadecimal, is the string it read. -/
theorem hexUnits_decodeHex {s : JsString} (hs : ∀ c ∈ s, (hexDigit c).isSome = true)
    (heven : s.length % 2 = 0) : hexUnits (decodeHex s) = s.map lowerUnit := by
  induction s using decodeHex.induct with
  | case1 a b rest ih =>
    rw [List.forall_mem_cons, List.forall_mem_cons] at hs
    obtain ⟨x, ha⟩ := Option.isSome_iff_exists.mp hs.1
    obtain ⟨y, hb⟩ := Option.isSome_iff_exists.mp hs.2.1
    have hua := hexUnit_of_hexDigit ha
    have hub := hexUnit_of_hexDigit hb
    have hlt : x * 16 + y < 256 := by
      have := hua.lt
      have := hub.lt
      omega
    have hnat : (UInt8.ofNat (x * 16 + y)).toNat = x * 16 + y := UInt8.toNat_ofNat_of_lt' hlt
    have hdiv : (x * 16 + y) / 16 = x := by
      have := hub.lt
      omega
    have hmod : (x * 16 + y) % 16 = y := by
      have := hub.lt
      omega
    rw [decodeHex_pair ha hb, hexUnits, List.flatMap_cons, hnat, hdiv, hmod, hua.unit, hub.unit]
    rw [List.length_cons, List.length_cons] at heven
    have hrest := ih hs.2.2 (by omega)
    rw [hexUnits] at hrest
    rw [hrest]
    rfl
  | case2 a => simp at heven
  | case3 => rfl

/-! ## The body -/

theorem toJsString_append (s t : String) : toJsString (s ++ t) = toJsString s ++ toJsString t := by
  rw [toJsString, String.toList_append, List.flatMap_append]
  rfl

theorem hexUnits_plain (bytes : Bytes) : ∀ c ∈ hexUnits bytes, IsPlain c := by
  intro c hc
  obtain ⟨d, hd, rfl⟩ := exists_written hc
  exact hd.plain

theorem vkBody_eq (vkHex fingerprint : String) :
    vkBody vkHex fingerprint = "\x7b\"server_vk\":\"" ++ vkHex ++ "\",\"fingerprint\":\"" ++
      fingerprint ++ "\"\x7d" := by
  delta vkBody
  rfl

def serverVkName : JsString := [115, 101, 114, 118, 101, 114, 95, 118, 107]

def fingerprintName : JsString := [102, 105, 110, 103, 101, 114, 112, 114, 105, 110, 116]

theorem toJsString_vkBody (vk digest : Bytes) :
    toJsString (vkBody (hexEncode vk) (hexEncode digest)) =
      123 :: 34 :: (serverVkName ++ 34 :: 58 :: 34 :: (hexUnits vk ++ 34 :: 44 :: 34 ::
        (fingerprintName ++ 34 :: 58 :: 34 :: (hexUnits digest ++ 34 :: [125])))) := by
  have hopen : toJsString "\x7b\"server_vk\":\"" = 123 :: 34 :: (serverVkName ++ [34, 58, 34]) := by
    decide +kernel
  have hmiddle : toJsString "\",\"fingerprint\":\"" =
      34 :: 44 :: 34 :: (fingerprintName ++ [34, 58, 34]) := by
    decide +kernel
  have hclose : toJsString "\"\x7d" = [34, 125] := by decide +kernel
  simp only [vkBody_eq, toJsString_append, toJsString_hexEncode, hopen, hmiddle, hclose]
  simp

theorem parse_vkBody (vk digest : Bytes) :
    parse (toJsString (vkBody (hexEncode vk) (hexEncode digest))) =
      some (.object [(serverVkName, .string (hexUnits vk)),
        (fingerprintName, .string (hexUnits digest))]) := by
  have hname : ∀ c ∈ serverVkName, IsPlain c := by simp [serverVkName, IsPlain]
  have hfingerprint : ∀ c ∈ fingerprintName, IsPlain c := by simp [fingerprintName, IsPlain]
  have hbrace : scanStart 123 = some ([.lbrace], .start) := rfl
  have hcolon : scanStart 58 = some ([.colon], .start) := rfl
  have hcomma : scanStart 44 = some ([.comma], .start) := rfl
  have hend : scanStart 125 = some ([.rbrace], .start) := rfl
  rw [parse, toJsString_vkBody, scan_token hbrace, scan_quote, scan_string hname,
    scan_token hcolon, scan_quote, scan_string (hexUnits_plain vk), scan_token hcomma, scan_quote,
    scan_string hfingerprint, scan_token hcolon, scan_quote, scan_string (hexUnits_plain digest),
    scan_token hend]
  rfl

/-- What a JSON parser finds in a body: an object of two strings and nothing else, which are the
key and its fingerprint once their pairs of digits are read as bytes. It says nothing of how the
text is laid out, so it holds a body to its meaning where `vkBody_eq` holds it to its letters. -/
def Tells (body : String) (vk digest : Bytes) : Prop :=
  ∃ hex fingerprint, parse (toJsString body) =
      some (.object [(toJsString "server_vk", .string hex),
        (toJsString "fingerprint", .string fingerprint)]) ∧
    decodeHex hex = vk ∧ decodeHex fingerprint = digest

/-- **A download says what was put into it**, whatever the key's bytes are: the digits need no
escaping, so the text between two quotation marks is the string that the parser finds. -/
theorem vkBody_tells (vk digest : Bytes) :
    Tells (vkBody (hexEncode vk) (hexEncode digest)) vk digest := by
  have hname : toJsString "server_vk" = serverVkName := by decide +kernel
  have hfingerprint : toJsString "fingerprint" = fingerprintName := by decide +kernel
  refine ⟨hexUnits vk, hexUnits digest, ?_, decodeHex_hexUnits vk, decodeHex_hexUnits digest⟩
  rw [parse_vkBody, hname, hfingerprint]

theorem length_hexUnits (bytes : Bytes) : (hexUnits bytes).length = 2 * bytes.length := by
  induction bytes with
  | nil => rfl
  | cons b bytes ih =>
    rw [hexUnits, List.flatMap_cons, List.length_append]
    rw [hexUnits] at ih
    rw [ih, List.length_cons, List.length_cons, List.length_cons, List.length_nil]
    omega

theorem isHex_hexUnits {bytes : Bytes} (hne : bytes ≠ []) : isHex (hexUnits bytes) = true := by
  have hall : (hexUnits bytes).all (fun c => (hexDigit c).isSome) = true := by
    rw [List.all_eq_true]
    intro c hc
    obtain ⟨d, hd, rfl⟩ := exists_written hc
    rw [hd.read]
    rfl
  obtain ⟨b, bs, rfl⟩ := List.exists_cons_of_ne_nil hne
  rw [isHex, hall]
  rfl

/-- `fetchVK` reads the key out of the text of its download. -/
theorem fetchVK_vkBody {baseUrl : String}
    (hurl : "https://".toList.isPrefixOf baseUrl.toList = true) (vk : VerifyingKey)
    (digest : Bytes) :
    fetchVK baseUrl ⟨200, "OK", toJsString (vkBody (hexEncode vk.toList) (hexEncode digest))⟩ =
      .ok vk.toList := by
  have hlength : vk.toList.length = 1952 := vk.toList_length
  have hne : vk.toList ≠ [] := by
    intro hnil
    rw [hnil] at hlength
    cases hlength
  have hserver : serverVk (.object [(serverVkName, .string (hexUnits vk.toList)),
      (fingerprintName, .string (hexUnits digest))]) = some (.string (hexUnits vk.toList)) := by
    have hname : toJsString "server_vk" = serverVkName := by decide +kernel
    rw [serverVk, hname]
    rfl
  have hhex : (hexUnits vk.toList).length = vkHexLen := by
    rw [length_hexUnits, hlength]
    rfl
  have hok : FetchResponse.ok ⟨200, "OK",
      toJsString (vkBody (hexEncode vk.toList) (hexEncode digest))⟩ = true := rfl
  simp only [fetchVK, hurl, hok, parse_vkBody, hserver, isHex_hexUnits hne, hhex,
    decodeHex_hexUnits]
  rfl

/-- What `fetchVK` returns is what the text says: the digits of the member `server_vk`, in either
case. -/
theorem fetchVK_ok {baseUrl : String} {answer : FetchResponse} {b : Bytes}
    (h : fetchVK baseUrl answer = .ok b) :
    ∃ json hex, parse answer.text = some json ∧ serverVk json = some (.string hex) ∧
      toJsString (hexEncode b) = hex.map lowerUnit := by
  rw [fetchVK] at h
  split at h
  · cases h
  · split at h
    · cases h
    · split at h
      · cases h
      · rename_i json hparse
        split at h
        · rename_i hex hserver
          split at h
          · cases h
          · rename_i hhex
            split at h
            · cases h
            · rename_i hlength
              obtain rfl : decodeHex hex = b := Except.ok.inj h
              rw [Bool.not_eq_true, Bool.not_eq_false'] at hhex
              rw [isHex, Bool.and_eq_true, List.all_eq_true] at hhex
              rw [not_not] at hlength
              refine ⟨json, hex, hparse, hserver, ?_⟩
              rw [toJsString_hexEncode]
              apply hexUnits_decodeHex hhex.2
              rw [hlength]
              rfl
        · cases h

end LatticeShield.Js
