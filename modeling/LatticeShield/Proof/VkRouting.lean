import LatticeShield.Lib.Utf8
import LatticeShield.Proof.HttpHead

/-!
# Which requests stay at the bridge

A `GET /vk/:token` is meant for the bridge. The task asks the parser what the request is, and takes
every refusal for "not a VK request", so a head the parser does not accept is relayed, token and
all, to a backend that is told it was checked. `vk_requests_stay_iff` says that the routing is
right exactly for the heads the parser accepts.

What is asked of the parser (`ReadsRequestLine`) is only that method and path are those of the
request line, once it has found the request complete.
-/

set_option autoImplicit false

namespace LatticeShield.Bridge

open Lib VkShare

/-- Text that can stand between the spaces of a request line. It may be any Unicode: only a space
or a line end would cut it. -/
def OneWord (s : String) : Prop :=
  32 ∉ s.toUTF8.toList ∧ 13 ∉ s.toUTF8.toList ∧ 10 ∉ s.toUTF8.toList

instance (s : String) : Decidable (OneWord s) :=
  inferInstanceAs (Decidable (32 ∉ s.toUTF8.toList ∧ 13 ∉ s.toUTF8.toList ∧ 10 ∉ s.toUTF8.toList))

/-- `method path HTTP/1.x`, with its line end. -/
def requestLine (method path : String) (minor : UInt8) : Bytes :=
  method.toUTF8.toList ++ 32 :: (path.toUTF8.toList ++ 32 ::
    ([72, 84, 84, 80, 47, 49, 46] ++ [minor, 13, 10]))

/-- The parser found the request complete. -/
def Accepts (parse : HttpParser) (buf : Bytes) : Prop :=
  ∃ consumed, (parse maxHeaders buf).status = .complete consumed

/-- What `httparse` documents of `method` and `path`: they are those of the request line. Of heads
that it does not accept nothing is asked. -/
def ReadsRequestLine (parse : HttpParser) : Prop :=
  ∀ buf, Accepts parse buf → ∀ method path minor rest, OneWord method → OneWord path →
    buf = requestLine method path minor ++ rest →
    (parse maxHeaders buf).method = some method ∧ (parse maxHeaders buf).path = some path

/-- The first request on the connection is `GET /vk/<token>`. -/
def VkRequest (token : String) (buf : Bytes) : Prop :=
  OneWord ("/vk/" ++ token) ∧
    ∃ minor rest, buf = requestLine "GET" ("/vk/" ++ token) minor ++ rest

/-! ## The token -/

theorem stripVk_append (token : String) : stripVk ("/vk/" ++ token) = some token := by
  have hprefix : "/vk/".toList.isPrefixOf ("/vk/" ++ token).toList = true := by
    rw [String.toList_append, List.isPrefixOf_iff_prefix]
    exact List.prefix_append _ _
  have hdrop : ("/vk/" ++ token).toList.drop 4 = token.toList := by
    rw [String.toList_append]
    rfl
  rw [stripVk, if_pos hprefix, hdrop, String.ofList_toList]

theorem extractVkToken_of_vkRequest {parse : HttpParser} (hparse : ReadsRequestLine parse)
    {token : String} {buf : Bytes} (hrequest : VkRequest token buf) (haccepts : Accepts parse buf) :
    extractVkToken parse buf = some token := by
  obtain ⟨hword, minor, rest, hbuf⟩ := hrequest
  obtain ⟨hmethod, hpath⟩ :=
    hparse buf haccepts "GET" ("/vk/" ++ token) minor rest (by decide +kernel) hword hbuf
  obtain ⟨consumed, hstatus⟩ := haccepts
  simp only [extractVkToken, hstatus, hmethod, hpath, if_true, stripVk_append]

theorem extractVkToken_of_refused {parse : HttpParser} {buf : Bytes}
    (hrefused : ¬ Accepts parse buf) : extractVkToken parse buf = none := by
  rw [extractVkToken]
  cases hstatus : (parse maxHeaders buf).status with
  | err e => rfl
  | incomplete => rfl
  | complete consumed => exact absurd ⟨consumed, hstatus⟩ hrefused

/-! ## The routing -/

/-- What the routing of a head is meant to do, whatever the store and the backend: a VK request is
answered and nothing of it goes to the backend, and what does go there has been accepted. -/
def RoutesRight (parse : HttpParser) (reads : List SocketRead) (buf : Bytes) : Prop :=
  ∀ store now backendUp,
    (∀ token, VkRequest token buf →
      routeTls parse store now backendUp reads =
        (.answered (vkResponse store token now).1, (vkResponse store token now).2)) ∧
    ∀ preread, (routeTls parse store now backendUp reads).1 = .relayed preread →
      Accepts parse preread

theorem routeTls_relayed {parse : HttpParser} {reads : List SocketRead} {buf : Bytes}
    (hread : readHttpHead [] reads = .complete buf) {store : VkShareStore} {now : Nat}
    {backendUp : Bool} {preread : Bytes}
    (h : (routeTls parse store now backendUp reads).1 = .relayed preread) : preread = buf := by
  rw [routeTls, hread] at h
  cases htoken : extractVkToken parse buf with
  | some token =>
    simp only [htoken] at h
    cases h
  | none =>
    simp only [htoken, handleWithPreread] at h
    cases backendUp with
    | false => cases h
    | true => exact (Routed.relayed.inj h).symm

/-- **A VK request stays at the bridge exactly when the parser accepts the whole head.** The
request line may be read long before: a head that `httparse` refuses for its number of headers, or
for one of them, is no VK request to the bridge, and goes to the backend as it is. -/
theorem vk_requests_stay_iff {parse : HttpParser} (hparse : ReadsRequestLine parse)
    {reads : List SocketRead} {buf : Bytes} (hread : readHttpHead [] reads = .complete buf) :
    RoutesRight parse reads buf ↔ Accepts parse buf := by
  constructor
  · intro h
    by_contra hrefused
    -- with the backend there, a head that is refused is relayed
    have hrelayed : (routeTls parse newStore 0 true reads).1 = .relayed buf := by
      rw [routeTls, hread]
      simp only [extractVkToken_of_refused hrefused, handleWithPreread, if_true]
    exact hrefused ((h newStore 0 true).2 buf hrelayed)
  · intro haccepts store now backendUp
    refine ⟨?_, ?_⟩
    · intro token hrequest
      rw [routeTls, hread]
      simp only [extractVkToken_of_vkRequest hparse hrequest haccepts]
    · intro preread hrelayed
      rw [routeTls_relayed hread hrelayed]
      exact haccepts

/-! ## A request with too many headers -/

/-- A parser of plain requests: it wants the end of the head, counts the lines before it, and reads
the two words of the request line. -/
def sampleParse : HttpParser := fun headers buf =>
  let method := buf.takeWhile (· ≠ 32)
  let path := (buf.drop (method.length + 1)).takeWhile (· ≠ 32)
  if hasEndOfHead buf then
    if buf.count 10 ≤ headers + 2 then
      match decodeUtf8 method, decodeUtf8 path with
      | some method, some path => ⟨.complete buf.length, some method, some path⟩
      | _, _ => ⟨.err .token, none, none⟩
    else ⟨.err .tooManyHeaders, none, none⟩
  else ⟨.incomplete, none, none⟩

theorem takeWhile_word {word rest : Bytes} (h : 32 ∉ word) :
    (word ++ 32 :: rest).takeWhile (· ≠ 32) = word := by
  rw [List.takeWhile_append_of_pos (by
    intro b hb
    simpa using fun heq : b = 32 => h (heq ▸ hb))]
  simp

theorem sampleParse_requestLine {buf rest : Bytes} {method path : String} {minor : UInt8}
    (hmethod : OneWord method) (hpath : OneWord path)
    (hbuf : buf = requestLine method path minor ++ rest) (headers : Nat) :
    sampleParse headers buf =
      if hasEndOfHead buf then
        if buf.count 10 ≤ headers + 2 then ⟨.complete buf.length, some method, some path⟩
        else ⟨.err .tooManyHeaders, none, none⟩
      else ⟨.incomplete, none, none⟩ := by
  have hfirst : buf.takeWhile (· ≠ 32) = method.toUTF8.toList := by
    rw [hbuf, requestLine, List.append_assoc, List.cons_append]
    exact takeWhile_word hmethod.1
  have hsecond : (buf.drop (method.toUTF8.toList.length + 1)).takeWhile (· ≠ 32) =
      path.toUTF8.toList := by
    rw [hbuf, requestLine, List.append_assoc, ← List.drop_drop, List.drop_left,
      List.cons_append, List.drop_one, List.tail_cons, List.append_assoc, List.cons_append]
    exact takeWhile_word hpath.1
  simp only [sampleParse, hfirst, hsecond, decodeUtf8_toUTF8]

theorem sampleParse_readsRequestLine : ReadsRequestLine sampleParse := by
  rintro buf ⟨consumed, hstatus⟩ method path minor rest hmethod hpath hbuf
  rw [sampleParse_requestLine hmethod hpath hbuf] at hstatus ⊢
  split at hstatus
  · rename_i hend
    split at hstatus
    · rename_i hcount
      rw [if_pos hend, if_pos hcount]
      exact ⟨rfl, rfl⟩
    · cases hstatus
  · cases hstatus

/-- `GET /vk/t HTTP/1.1` with `n` headers. -/
def sampleRequest (n : Nat) : Bytes :=
  requestLine "GET" ("/vk/" ++ "t") 49 ++
    ((List.replicate n [97, 58, 98, 13, 10]).flatten ++ [13, 10])

theorem sampleRequest_words : OneWord "GET" ∧ OneWord ("/vk/" ++ "t") := by decide +kernel

theorem hasEndOfHead_sampleRequest (n : Nat) : hasEndOfHead (sampleRequest (n + 1)) = true := by
  have hend : endOfHead <:+ (List.replicate (n + 1) [97, 58, 98, 13, 10]).flatten ++ [13, 10] := by
    refine ⟨(List.replicate n [97, 58, 98, 13, 10]).flatten ++ [97, 58, 98], ?_⟩
    rw [List.replicate_succ', List.flatten_append]
    simp [endOfHead]
  rw [hasEndOfHead_iff]
  exact (hend.trans (List.suffix_append _ _)).isInfix

theorem readHttpHead_sampleRequest {n : Nat}
    (hlength : (sampleRequest (n + 1)).length ≤ headChunkLen) :
    readHttpHead [] [.ok (sampleRequest (n + 1))] = .complete (sampleRequest (n + 1)) := by
  have hne : sampleRequest (n + 1) ≠ [] := by
    intro hnil
    have hend := hasEndOfHead_sampleRequest n
    rw [hnil] at hend
    exact absurd hend (by decide)
  rw [readHttpHead_chunk (by decide) hne hlength, List.nil_append,
    if_pos (hasEndOfHead_sampleRequest n)]

theorem sampleParse_sampleRequest (n : Nat) :
    sampleParse maxHeaders (sampleRequest (n + 1)) =
      if (sampleRequest (n + 1)).count 10 ≤ maxHeaders + 2 then
        ⟨.complete (sampleRequest (n + 1)).length, some "GET", some ("/vk/" ++ "t")⟩
      else ⟨.err .tooManyHeaders, none, none⟩ := by
  rw [sampleParse_requestLine sampleRequest_words.1 sampleRequest_words.2 (sampleRequest.eq_1 _),
    if_pos (hasEndOfHead_sampleRequest n)]

theorem vkRequest_sampleRequest (n : Nat) : VkRequest "t" (sampleRequest n) :=
  ⟨sampleRequest_words.2, 49, _, rfl⟩

/-- With too many headers the request is relayed. -/
theorem routeTls_sampleRequest {n : Nat}
    (hlength : (sampleRequest (n + 1)).length ≤ headChunkLen)
    (hcount : ¬ (sampleRequest (n + 1)).count 10 ≤ maxHeaders + 2) (store : VkShareStore)
    (now : Nat) :
    (routeTls sampleParse store now true [.ok (sampleRequest (n + 1))]).1 =
      .relayed (sampleRequest (n + 1)) := by
  have hrefused : ¬ Accepts sampleParse (sampleRequest (n + 1)) := by
    rintro ⟨consumed, hstatus⟩
    rw [sampleParse_sampleRequest, if_neg hcount] at hstatus
    cases hstatus
  rw [routeTls, readHttpHead_sampleRequest hlength]
  simp only [extractVkToken_of_refused hrefused, handleWithPreread, if_true]

/-- The parser accepts a request with 64 headers, and the bridge answers it. -/
theorem vk_request_with_64_headers_stays :
    ReadsRequestLine sampleParse ∧
      readHttpHead [] [.ok (sampleRequest 64)] = .complete (sampleRequest 64) ∧
      RoutesRight sampleParse [.ok (sampleRequest 64)] (sampleRequest 64) := by
  have hread := readHttpHead_sampleRequest (n := 63) (by decide +kernel)
  have haccepts : Accepts sampleParse (sampleRequest 64) := by
    refine ⟨(sampleRequest 64).length, ?_⟩
    rw [sampleParse_sampleRequest, if_pos (by decide +kernel)]
  exact ⟨sampleParse_readsRequestLine, hread,
    (vk_requests_stay_iff sampleParse_readsRequestLine hread).mpr haccepts⟩

/-- One header more and the parser refuses it; the bridge relays it to the backend, token and all.
-/
theorem vk_request_with_65_headers_leaves :
    ¬ ∀ (parse : HttpParser) (reads : List SocketRead) (buf : Bytes), ReadsRequestLine parse →
      readHttpHead [] reads = .complete buf → RoutesRight parse reads buf := by
  intro h
  have hlength : (sampleRequest (64 + 1)).length ≤ headChunkLen := by decide +kernel
  have hcount : ¬ (sampleRequest (64 + 1)).count 10 ≤ maxHeaders + 2 := by decide +kernel
  have hright := h sampleParse _ _ sampleParse_readsRequestLine (readHttpHead_sampleRequest hlength)
  have hanswered := (hright newStore 0 true).1 "t" (vkRequest_sampleRequest _)
  have hrelayed := routeTls_sampleRequest hlength hcount newStore 0
  rw [hanswered] at hrelayed
  cases hrelayed

end LatticeShield.Bridge
