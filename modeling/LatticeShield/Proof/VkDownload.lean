import LatticeShield.Lib.Http
import LatticeShield.Proof.VkText

/-!
# The verifying key on its way to the browser

`vk_response` puts the text of a download behind an HTTP head. The head announces how long the
text is, and every download is equally long, because a key and a fingerprint have a fixed number of
digits. So a client that reads the head, then as many bytes as it says, has the text of
`Proof/VkText.lean`, and the key arrives (`vk_download_round_trip`).
-/

set_option autoImplicit false

namespace LatticeShield.Js

open Lib Json VkShare

/-! ## The response -/

theorem length_hexEncode (bytes : Bytes) :
    (hexEncode bytes).toUTF8.toList.length = 2 * bytes.length := by
  have hascii : ∀ c ∈ bytes.flatMap fun b =>
      [Nat.digitChar (b.toNat / 16), Nat.digitChar (b.toNat % 16)], c.val ≤ 127 := by
    intro c hc
    obtain ⟨d, hd, rfl⟩ := exists_written hc
    exact hd.ascii
  rw [hexEncode, length_toUTF8_ascii hascii, List.length_flatMap]
  simp [Nat.mul_comm]

/-- The length of every download. -/
def vkBodyLen : Nat := 4001

theorem length_vkBody (vk : VerifyingKey) (digest : ByteArr 32) :
    (vkBody (hexEncode vk.toList) (hexEncode digest.toList)).toUTF8.toList.length = vkBodyLen := by
  have hvk : vk.toList.length = 1952 := vk.toList_length
  have hdigest : digest.toList.length = 32 := digest.toList_length
  have hopen : "\x7b\"server_vk\":\"".toUTF8.toList.length = 14 := by decide +kernel
  have hmiddle : "\",\"fingerprint\":\"".toUTF8.toList.length = 17 := by decide +kernel
  have hclose : "\"\x7d".toUTF8.toList.length = 2 := by decide +kernel
  simp only [vkBody_eq, toUTF8_append, List.length_append, length_hexEncode, hvk, hdigest, hopen,
    hmiddle, hclose]
  rfl

/-- The head of every download, with its blank line. -/
def vkHead : String :=
  "HTTP/1.1 200 OK\r\nContent-Type: application/json\r\n" ++
    "Content-Length: 4001\r\nConnection: close\r\n\r\n"

theorem toBytes_vkBody {body : String} (hlength : body.toUTF8.toList.length = vkBodyLen) :
    (HttpResponse.mk 200 body).toBytes = vkHead.toUTF8.toList ++ body.toUTF8.toList := by
  have hsize : body.utf8ByteSize = 4001 := (length_toUTF8 body).symm.trans hlength
  have hhead : ∀ reason : String, reason = "OK" →
      s!"HTTP/1.1 {200} {reason}\r\nContent-Type: application/json\r\n" ++
        s!"Content-Length: {4001}\r\nConnection: close\r\n\r\n" = vkHead := by
    rintro _ rfl
    decide +kernel
  rw [← toUTF8_append, ← hhead "OK" rfl]
  delta HttpResponse.toBytes
  dsimp only
  have hreason : HttpResponse.reason ⟨200, body⟩ = "OK" := rfl
  rw [hsize, hreason]
  exact congrArg (fun text : String => text.toUTF8.toList) String.append_assoc.symm

theorem splitHead_vkHead : ∃ head, Http.splitHead vkHead.toUTF8.toList = some (head, []) ∧
    Http.contentLength head = some vkBodyLen :=
  ⟨vkHead.toUTF8.toList.take (vkHead.toUTF8.toList.length - 4), by decide +kernel⟩

/-! ## The round trip -/

/-- A token that has just been made is answered with its key. -/
theorem vkResponse_created {env : Env} {store : VkShareStore} {uuid token fingerprint : String}
    {created ttl now : Nat} {vkBytes : Bytes}
    (hcreated : (createToken env store uuid created vkBytes ttl).1 = .ok token fingerprint)
    (hnow : now ≤ created + ttl) :
    (vkResponse (createToken env store uuid created vkBytes ttl).2 token now).1 =
      ⟨200, vkBody (hexEncode vkBytes) (sha256Hex env vkBytes)⟩ := by
  simp only [createToken] at hcreated ⊢
  split at hcreated
  · cases hcreated
  · rename_i hroom
    split at hcreated
    · cases hcreated
    · rename_i hclock
      obtain ⟨rfl, -⟩ := Created.ok.inj hcreated
      rw [if_neg hroom, if_neg hclock, vkResponse, AList.lookup_insert]
      simp only [if_neg (Nat.not_lt.mpr hnow)]
      rfl

/-- **The key arrives.** The response to a token that has just been made for a key says how long
its body is, its body is JSON, and `fetchVK` reads the key out of it. And whatever `fetchVK` is
answered, the bytes it returns are those of the text, up to the case of its letters; so it returns
no key that was not served. -/
theorem vk_download_round_trip {env : Env} {store : VkShareStore}
    {uuid token fingerprint : String} {created ttl now : Nat} {vk : VerifyingKey}
    (hcreated : (createToken env store uuid created vk.toList ttl).1 = .ok token fingerprint)
    (hnow : now ≤ created + ttl) :
    let response := (vkResponse (createToken env store uuid created vk.toList ttl).2 token now).1
    response.status = 200 ∧
    (∃ head body text, Http.splitHead response.toBytes = some (head, body) ∧
      Http.contentLength head = some body.length ∧ responseText body = some text ∧
      (parse text).isSome = true ∧
      ∀ baseUrl : String, "https://".toList.isPrefixOf baseUrl.toList = true →
        fetchVK baseUrl ⟨200, "OK", text⟩ = .ok vk.toList) ∧
    ∀ baseUrl answer b, fetchVK baseUrl answer = .ok b →
      ∃ json hex, parse answer.text = some json ∧ serverVk json = some (.string hex) ∧
        toJsString (hexEncode b) = hex.map lowerUnit := by
  intro response
  have hresponse : response = ⟨200, vkBody (hexEncode vk.toList) (sha256Hex env vk.toList)⟩ :=
    vkResponse_created hcreated hnow
  have hlength : (vkBody (hexEncode vk.toList) (sha256Hex env vk.toList)).toUTF8.toList.length =
      vkBodyLen := length_vkBody vk (env.sha256 vk.toList)
  obtain ⟨head, hsplit, hcontent⟩ := splitHead_vkHead
  refine ⟨by rw [hresponse], ?_, ?_⟩
  · refine ⟨head, (vkBody (hexEncode vk.toList) (sha256Hex env vk.toList)).toUTF8.toList,
      toJsString (vkBody (hexEncode vk.toList) (sha256Hex env vk.toList)), ?_, ?_, ?_, ?_, ?_⟩
    · rw [hresponse, toBytes_vkBody hlength, Http.splitHead_append hsplit]
      rfl
    · rw [hcontent, hlength]
    · rw [responseText, decodeUtf8_toUTF8]
      rfl
    · rw [sha256Hex, parse_vkBody]
      rfl
    · intro baseUrl hurl
      exact fetchVK_vkBody hurl vk (env.sha256 vk.toList).toList
  · intro baseUrl answer b hfetch
    exact fetchVK_ok hfetch

/-- A key of zeros, fetched at the last instant. -/
theorem vk_download_round_trip_zeros :
    let env : Env := ⟨fun _ => ⟨List.replicate 32 0, rfl⟩, 2 ^ 63, 1⟩
    let vk : VerifyingKey := ⟨List.replicate 1952 0, List.length_replicate⟩
    let made := createToken env newStore "t" 5 vk.toList 600
    made.1 = .ok "t" (sha256Hex env vk.toList) ∧ 605 ≤ 5 + 600 ∧
      (vkResponse made.2 "t" 605).1.status = 200 := by
  intro env vk made
  have hmade : made.1 = .ok "t" (sha256Hex env vk.toList) := rfl
  exact ⟨hmade, le_rfl, (vk_download_round_trip hmade le_rfl).1⟩

end LatticeShield.Js
