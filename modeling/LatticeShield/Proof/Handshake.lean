import LatticeShield.Crypto.SampleHandshake

/-!
# Both ends of a handshake derive one key

The handshake passes through four buffers that one side writes and the other reads, so the first
half is the layouts: what a reader finds at its own offsets in a buffer is what the writer put
there at *its* offsets (`parseServerHello_new`, `completeFromWire_serialize`, and the two signed
forms). After that nothing depends on bytes any more and the agreement is three laws in a row:
Diffie-Hellman commutes, decapsulation inverts encapsulation, and the KDF is the same function of
the same input on both sides.
-/

set_option autoImplicit false

namespace LatticeShield

open Lib

variable {H : HandshakeSuite}

/-! ## Layouts -/

section Layouts

/-- The hello at the offsets a parser uses. They are the ones it was written at, which is all that
the byte layout is about. -/
theorem parseServerHello_new (hH : H.Lawful) (rng : Rng) :
    parseServerHello H (ServerHandshake.new (H := H) rng).1.serverHelloRaw =
      { x25519Public := H.x25519Public (ServerHandshake.new (H := H) rng).1.x25519Secret
        kemEncapKey := (ServerHandshake.new (H := H) rng).1.kemEncapKey
        nonce := (ServerHandshake.new (H := H) rng).1.nonce } := by
  simp only [parseServerHello, ServerHandshake.new, ClientHello.mk.injEq]
  refine ⟨?_, ?_, ?_⟩
  · rw [ByteArr.slice_copyFromSlice_before _ _ _ _ (by decide),
      ByteArr.slice_copyFromSlice_before _ _ _ _ (by decide), ByteArr.slice_copyFromSlice]
  · rw [ByteArr.slice_copyFromSlice_before _ _ _ _ (by decide), ByteArr.slice_copyFromSlice,
      hH.encapKey_roundTrip]
  · rw [ByteArr.slice_copyFromSlice]

theorem completeFromWire_serialize (server : ServerHandshake H) (resp : ClientResponse) :
    server.completeFromWire (serializeClientResponse resp) = server.complete resp := by
  simp only [ServerHandshake.completeFromWire, serializeClientResponse]
  rw [ByteArr.slice_copyFromSlice_before _ _ _ _ (by decide), ByteArr.slice_copyFromSlice,
    ByteArr.slice_copyFromSlice]

theorem toList_signedMessage (crBytes : ByteArr clientResponseLen)
    (hello : ByteArr serverHelloLen) :
    (ServerHandshake.signedMessage crBytes hello).toList = crBytes.toList ++ hello.toList :=
  ByteArr.toList_fill _ _ _ (by decide) le_rfl

theorem serverHelloSignedBytes_eq_ok {server : ServerHandshake H} {sk : SigningKey} {rng rng' : Rng}
    {buf : ByteArr serverHelloSignedLen}
    (h : server.serverHelloSignedBytes sk rng = (.ok buf, rng')) :
    ∃ sig, sign H.toMlDsa sk server.serverHelloRaw.toList rng = (.ok sig, rng') ∧
      buf.slice 0 serverHelloLen = server.serverHelloRaw ∧
      buf.slice serverHelloLen signatureLen = sig := by
  unfold ServerHandshake.serverHelloSignedBytes ServerHandshake.serverHelloBytes at h
  dsimp only at h
  split at h
  · exact absurd (Prod.mk.inj h).1 (by simp)
  · rename_i sig rng₁ hsign
    obtain ⟨hbuf, rfl⟩ := Prod.mk.inj h
    refine ⟨sig, hsign, ?_, ?_⟩
    · rw [← Except.ok.inj hbuf, ByteArr.slice_copyFromSlice_before _ _ _ _ (by decide),
        ByteArr.slice_copyFromSlice]
    · rw [← Except.ok.inj hbuf, ByteArr.slice_copyFromSlice]

theorem serializeClientResponseSigned_eq_ok {resp : ClientResponse} {sk : SigningKey}
    {hello : ByteArr serverHelloLen} {rng rng' : Rng} {buf : ByteArr clientResponseSignedLen}
    (h : serializeClientResponseSigned H resp sk hello rng = (.ok buf, rng')) :
    ∃ sig, sign H.toMlDsa sk ((serializeClientResponse resp).toList ++ hello.toList) rng =
        (.ok sig, rng') ∧
      buf.slice 0 clientResponseLen = serializeClientResponse resp ∧
      buf.slice clientResponseLen signatureLen = sig := by
  unfold serializeClientResponseSigned at h
  dsimp only at h
  rw [toList_signedMessage] at h
  split at h
  · exact absurd (Prod.mk.inj h).1 (by simp)
  · rename_i sig rng₁ hsign
    obtain ⟨hbuf, rfl⟩ := Prod.mk.inj h
    refine ⟨sig, hsign, ?_, ?_⟩
    · rw [← Except.ok.inj hbuf, ByteArr.slice_copyFromSlice_before _ _ _ _ (by decide),
        ByteArr.slice_copyFromSlice]
    · rw [← Except.ok.inj hbuf, ByteArr.slice_copyFromSlice]

end Layouts

/-! ## Signed messages -/

/-- A signed hello is parsed exactly when its signature verifies over its first 1248 bytes.
Nothing else is checked, and nothing else can fail. -/
theorem parseServerHelloSigned_eq (bytes : ByteArr serverHelloSignedLen) (vk : VerifyingKey) :
    parseServerHelloSigned H bytes vk =
      if H.verify vk (bytes.slice 0 serverHelloLen).toList signingContext
          (bytes.slice serverHelloLen signatureLen) then
        .ok (parseServerHello H (bytes.slice 0 serverHelloLen))
      else .error .authenticationFailed := by
  simp only [parseServerHelloSigned, Signature.fromBytes, arrayFromBytes_toList, verify]
  cases H.verify vk (bytes.slice 0 serverHelloLen).toList signingContext
      (bytes.slice serverHelloLen signatureLen) with
  | true => rfl
  | false => rfl

/-- A signed response is completed exactly when its signature verifies over the response bytes
followed by this server's hello. Everything about replayed responses comes from this one equation.
-/
theorem completeFromWireSigned_eq (server : ServerHandshake H)
    (bytes : ByteArr clientResponseSignedLen) (vk : VerifyingKey) :
    server.completeFromWireSigned bytes vk =
      if H.verify vk
          ((bytes.slice 0 clientResponseLen).toList ++ server.serverHelloBytes.toList)
          signingContext (bytes.slice clientResponseLen signatureLen) then
        server.completeFromWire (bytes.slice 0 clientResponseLen)
      else .error .clientAuthFailed := by
  unfold ServerHandshake.completeFromWireSigned verify ServerHandshake.serverHelloBytes
  simp only [Signature.fromBytes, arrayFromBytes_toList, toList_signedMessage]
  by_cases hv : H.verify vk
      ((bytes.slice 0 clientResponseLen).toList ++ server.serverHelloRaw.toList)
      signingContext (bytes.slice clientResponseLen signatureLen) = true
  · simp only [hv, if_true]
  · simp only [hv, Bool.false_eq_true, if_false]

/-! ## Agreement -/

/-- What the client computed, when it answered: its public share, the ciphertext, and the key from
both secrets and the hello's nonce. -/
theorem clientRespond_eq_ok {hello : ClientHello H} {rng rng' : Rng} {resp : ClientResponse}
    {key : Key} (h : clientRespond hello rng = (.ok (resp, key), rng')) :
    ∃ kemShared, resp.x25519Public = H.x25519Public (H.randomFromRng rng).1 ∧
      H.encapsulate hello.kemEncapKey (H.randomFromRng rng).2 =
        (some (resp.kemCiphertext, kemShared), rng') ∧
      deriveSessionKey H (H.diffieHellman (H.randomFromRng rng).1 hello.x25519Public).toList
        kemShared.toList hello.nonce = .ok key := by
  unfold clientRespond at h
  dsimp only at h
  split at h
  · exact absurd (Prod.mk.inj h).1 (by simp)
  · rename_i ct ss rng₁ henc
    split at h
    · exact absurd (Prod.mk.inj h).1 (by simp)
    · rename_i sessionKey hderive
      obtain ⟨hok, rfl⟩ := Prod.mk.inj h
      obtain ⟨rfl, rfl⟩ := Prod.mk.inj (Except.ok.inj hok)
      exact ⟨ss, rfl, henc, hderive⟩

/-- The server derives what the client derived: by `H.Lawful` the two ways to either shared secret
agree, and the rest of the derivation is one function of what both of them have. -/
theorem complete_of_clientRespond (hH : H.Lawful) (rng₀ : Rng) {rng rng' : Rng}
    {resp : ClientResponse} {key : Key}
    (h : clientRespond (parseServerHello H (ServerHandshake.new (H := H) rng₀).1.serverHelloRaw)
      rng = (.ok (resp, key), rng')) :
    (ServerHandshake.new (H := H) rng₀).1.complete resp = .ok key := by
  rw [parseServerHello_new hH] at h
  obtain ⟨kemShared, hpublic, henc, hderive⟩ := clientRespond_eq_ok h
  have hdecaps : H.decapsulate (ServerHandshake.new (H := H) rng₀).1.kemDecapKey
      resp.kemCiphertext = some kemShared :=
    hH.decapsulate_encapsulate _ _ _ _ rfl _ _ _ _ henc
  simp only [ServerHandshake.complete, hpublic, hdecaps]
  rw [hH.diffieHellman_comm]
  exact hderive

/-- The same from the wire, signed. -/
theorem completeFromWireSigned_of_clientRespond (hH : H.Lawful) {sk : SigningKey}
    {vk : VerifyingKey} (hpair : H.Matches sk vk) (rng₀ : Rng) {rng rng' rng₁ rng₂ : Rng}
    {resp : ClientResponse} {key : Key} {signed : ByteArr clientResponseSignedLen}
    (h : clientRespond (parseServerHello H (ServerHandshake.new (H := H) rng₀).1.serverHelloRaw)
      rng = (.ok (resp, key), rng'))
    (hsigned : serializeClientResponseSigned H resp sk
      (ServerHandshake.new (H := H) rng₀).1.serverHelloRaw rng₁ = (.ok signed, rng₂)) :
    (ServerHandshake.new (H := H) rng₀).1.completeFromWireSigned signed vk = .ok key := by
  obtain ⟨sig, hsign, hcr, hsig⟩ := serializeClientResponseSigned_eq_ok hsigned
  rw [completeFromWireSigned_eq, hcr, hsig, ServerHandshake.serverHelloBytes,
    if_pos (verify_eq_ok.mp (verify_of_sign hH.signatures hpair hsign)),
    completeFromWire_serialize]
  exact complete_of_clientRespond hH rng₀ h

/-- The sample client answers any hello so that it is accepted. -/
theorem Sample.exists_response (rng : Rng) :
    ∃ signed key, (ServerHandshake.new (H := Sample.allSigned) rng).1.completeFromWireSigned signed
      Sample.clientKeys.2 = .ok key := by
  obtain ⟨resp, key, _, hrespond⟩ := Sample.clientRespond_succeeds (fun _ _ => true)
    (parseServerHello _ (ServerHandshake.new (H := Sample.allSigned) rng).1.serverHelloRaw)
    (Sample.rng 5)
  obtain ⟨signed, _, hsigned⟩ := Sample.serializeClientResponseSigned_succeeds (fun _ _ => true)
    resp Sample.clientKeys.1
    (ServerHandshake.new (H := Sample.allSigned) rng).1.serverHelloRaw rfl (Sample.rng 6)
  exact ⟨signed, key, completeFromWireSigned_of_clientRespond (Sample.handshake_lawful _)
    (Sample.clientKeys_matches _) rng hrespond hsigned⟩

/-- **Both ends derive the same key from each other's bytes**, whatever random bytes either of
them draws: the client parses the server's signed hello, and what it answers, signed or not,
completes the handshake that made the hello with the client's own key. -/
theorem handshake_agrees (hH : H.Lawful) {serverSk clientSk : SigningKey}
    {serverVk clientVk : VerifyingKey} (hserver : H.Matches serverSk serverVk)
    (hclient : H.Matches clientSk clientVk) (rng : Rng) {rng₁ rng₂ : Rng}
    {buf : ByteArr serverHelloSignedLen}
    (hbuf : (ServerHandshake.new (H := H) rng).1.serverHelloSignedBytes serverSk rng₁ =
      (.ok buf, rng₂)) :
    buf.toList.length = 4557 ∧
    ∃ hello, parseServerHelloSigned H buf serverVk = .ok hello ∧
      ∀ rng₃ rng₄ resp key, clientRespond hello rng₃ = (.ok (resp, key), rng₄) →
        (serializeClientResponse resp).toList.length = 1120 ∧
        (ServerHandshake.new (H := H) rng).1.completeFromWire (serializeClientResponse resp) =
          .ok key ∧
        key.toList.length = 32 ∧
        ∀ rng₅ rng₆ signed,
          serializeClientResponseSigned H resp clientSk (buf.slice 0 serverHelloLen) rng₅ =
            (.ok signed, rng₆) →
          signed.toList.length = 4429 ∧
          (ServerHandshake.new (H := H) rng).1.completeFromWireSigned signed clientVk =
            .ok key := by
  obtain ⟨sig, hsign, hhello, hsig⟩ := serverHelloSignedBytes_eq_ok hbuf
  refine ⟨buf.toList_length,
    parseServerHello H (ServerHandshake.new (H := H) rng).1.serverHelloRaw, ?_, ?_⟩
  · rw [parseServerHelloSigned_eq, hhello, hsig,
      if_pos (verify_eq_ok.mp (verify_of_sign hH.signatures hserver hsign))]
  · intro rng₃ rng₄ resp key hrespond
    refine ⟨(serializeClientResponse resp).toList_length, ?_, key.toList_length, ?_⟩
    · rw [completeFromWire_serialize]
      exact complete_of_clientRespond hH rng hrespond
    · intro rng₅ rng₆ signed hsigned
      rw [hhello] at hsigned
      exact ⟨signed.toList_length,
        completeFromWireSigned_of_clientRespond hH hclient rng hrespond hsigned⟩

/-- The sample primitives, with everything signed. -/
theorem handshake_agrees_sample :
    ∃ buf hello resp key signed,
      parseServerHelloSigned Sample.allSigned buf Sample.serverKeys.2 =
        .ok hello ∧
      (∃ rng, clientRespond hello (Sample.rng 5) = (.ok (resp, key), rng)) ∧
      (ServerHandshake.new (H := Sample.allSigned) (Sample.rng 3)).1.completeFromWire
        (serializeClientResponse resp) = .ok key ∧
      (ServerHandshake.new (H := Sample.allSigned)
        (Sample.rng 3)).1.completeFromWireSigned signed Sample.clientKeys.2 = .ok key := by
  obtain ⟨buf, rng₂, hbuf⟩ := Sample.serverHelloSignedBytes_succeeds (fun _ _ => true)
    (ServerHandshake.new (Sample.rng 3)).1 Sample.serverKeys.1 rfl (Sample.rng 4)
  obtain ⟨-, hello, hparse, hrest⟩ := handshake_agrees (Sample.handshake_lawful fun _ _ => true)
    (Sample.serverKeys_matches _) (Sample.clientKeys_matches _) (Sample.rng 3) hbuf
  obtain ⟨resp, key, rng₄, hrespond⟩ := Sample.clientRespond_succeeds _ hello (Sample.rng 5)
  obtain ⟨-, hwire, -, hsigned⟩ := hrest _ _ _ _ hrespond
  obtain ⟨signed, rng₆, hser⟩ := Sample.serializeClientResponseSigned_succeeds (fun _ _ => true)
    resp Sample.clientKeys.1 (buf.slice 0 serverHelloLen) rfl (Sample.rng 6)
  exact ⟨buf, hello, resp, key, signed, hparse, ⟨rng₄, hrespond⟩, hwire, (hsigned _ _ _ hser).2⟩

/-! ## A signed response answers one hello

The signature covers the response bytes followed by the hello. Both parts have a fixed length, so
the two of them can be read off the message, and a signature on one message is a signature on no
other. -/

/-- What a response's signature covers determines response and hello. The two have fixed lengths,
so no byte of one can be taken for a byte of the other. -/
theorem signedMessage_inj {cr cr' : ByteArr clientResponseLen}
    {hello hello' : ByteArr serverHelloLen}
    (h : cr.toList ++ hello.toList = cr'.toList ++ hello'.toList) : cr = cr' ∧ hello = hello' := by
  obtain ⟨hcr, hhello⟩ := ByteArr.append_inj h
  exact ⟨hcr, ByteArr.toList_inj.mp hhello⟩

/-- `bytes` is a signed response recorded in the handshake `server`: the server accepted it, or
the client made it for this server's hello. -/
inductive Recorded (server : ServerHandshake H) (vk : VerifyingKey) :
    ByteArr clientResponseSignedLen → Prop where
  | accepted {bytes : ByteArr clientResponseSignedLen} {key : Key}
      (h : server.completeFromWireSigned bytes vk = .ok key) : Recorded server vk bytes
  | made {bytes : ByteArr clientResponseSignedLen} {sk : SigningKey} {resp : ClientResponse}
      {rng rng' : Rng} (hpair : H.Matches sk vk)
      (h : serializeClientResponseSigned H resp sk server.serverHelloBytes rng =
        (.ok bytes, rng')) : Recorded server vk bytes

/-- An accepted response carries a signature over its own bytes and this hello. The bytes are
those of the wire, and the hello is the server's own copy. -/
theorem completeFromWireSigned_eq_ok {server : ServerHandshake H} {vk : VerifyingKey}
    {bytes : ByteArr clientResponseSignedLen} {key : Key}
    (h : server.completeFromWireSigned bytes vk = .ok key) :
    H.verify vk ((bytes.slice 0 clientResponseLen).toList ++ server.serverHelloBytes.toList)
      signingContext (bytes.slice clientResponseLen signatureLen) = true := by
  rw [completeFromWireSigned_eq] at h
  split at h
  · assumption
  · exact absurd h (by simp)

theorem Recorded.verifies (hD : H.Correct) {server : ServerHandshake H} {vk : VerifyingKey}
    {bytes : ByteArr clientResponseSignedLen} (h : Recorded server vk bytes) :
    H.verify vk ((bytes.slice 0 clientResponseLen).toList ++ server.serverHelloBytes.toList)
      signingContext (bytes.slice clientResponseLen signatureLen) = true := by
  cases h with
  | accepted h => exact completeFromWireSigned_eq_ok h
  | made hpair h =>
    obtain ⟨sig, hsign, hcr, hsig⟩ := serializeClientResponseSigned_eq_ok h
    rw [hcr, hsig]
    exact verify_eq_ok.mp (verify_of_sign hD hpair hsign)

/-- The signature of a recorded response verifies for no other response bytes and no other hello.
With an ideal scheme a signature verifies only for what was signed, and with a correct one a
signature is of one message only. -/
theorem Recorded.rejected {log : Set MlDsa.Signed} (hideal : H.Ideal log) (hD : H.Correct)
    {server server' : ServerHandshake H} {vk : VerifyingKey}
    {bytes bytes' : ByteArr clientResponseSignedLen} (h : Recorded server vk bytes)
    (hsig : bytes'.slice clientResponseLen signatureLen = bytes.slice clientResponseLen signatureLen)
    (hne : bytes'.slice 0 clientResponseLen ≠ bytes.slice 0 clientResponseLen ∨
      server'.serverHelloBytes ≠ server.serverHelloBytes) :
    server'.completeFromWireSigned bytes' vk = .error .clientAuthFailed := by
  rw [completeFromWireSigned_eq, if_neg]
  intro hv
  rw [hsig] at hv
  obtain ⟨hcr, hhello⟩ := signedMessage_inj (hideal.bound _ _ _ _ hv (h.verifies hD))
  rcases hne with hne | hne
  · exact hne hcr
  · exact hne hhello

/-- **A signed response is bound to the hello it answers.** What `complete_from_wire_signed`
accepts, the holder of the pinned key signed, as these response bytes followed by this server's
own hello; and in any run of handshakes with distinct hellos a response recorded in one of them is
rejected by every other, and by all of them once a byte of its key-exchange part has changed. -/
theorem response_bound_to_hello {log : Set MlDsa.Signed} (hideal : H.Ideal log) (hD : H.Correct)
    (vk : VerifyingKey) :
    (∀ (server : ServerHandshake H) bytes key, server.completeFromWireSigned bytes vk = .ok key →
      ⟨vk, (bytes.slice 0 clientResponseLen).toList ++ server.serverHelloBytes.toList⟩ ∈ log) ∧
    ∀ run : List (ServerHandshake H),
      run.Pairwise (fun a b => a.serverHelloBytes ≠ b.serverHelloBytes) →
      ∀ (i j : Nat) (a b : ServerHandshake H), run[i]? = some a → run[j]? = some b →
      ∀ bytes, Recorded a vk bytes →
        (i ≠ j → b.completeFromWireSigned bytes vk = .error .clientAuthFailed) ∧
        ∀ bytes' : ByteArr clientResponseSignedLen,
          bytes'.slice clientResponseLen signatureLen =
            bytes.slice clientResponseLen signatureLen →
          bytes'.slice 0 clientResponseLen ≠ bytes.slice 0 clientResponseLen →
          b.completeFromWireSigned bytes' vk = .error .clientAuthFailed := by
  refine ⟨?_, ?_⟩
  · intro server bytes key h
    exact hideal.signed _ _ _ (completeFromWireSigned_eq_ok h)
  · intro run hrun i j a b hi hj bytes hrec
    refine ⟨?_, ?_⟩
    · intro hij
      refine hrec.rejected hideal hD rfl (Or.inr ?_)
      obtain ⟨hilt, rfl⟩ := List.getElem?_eq_some_iff.mp hi
      obtain ⟨hjlt, rfl⟩ := List.getElem?_eq_some_iff.mp hj
      rw [List.pairwise_iff_getElem] at hrun
      rcases Nat.lt_or_gt_of_ne hij with hlt | hgt
      · exact (hrun i j hilt hjlt hlt).symm
      · exact hrun j i hjlt hilt hgt
    · intro bytes' hsig hcr
      exact hrec.rejected hideal hD hsig (Or.inl hcr)

/-- Two sample handshakes; the client answers the first. -/
theorem response_bound_to_hello_two_servers :
    ∃ bytes, Recorded (H := Sample.allSigned)
        (ServerHandshake.new (Sample.rng 3)).1 Sample.clientKeys.2 bytes ∧
      (ServerHandshake.new (H := Sample.allSigned)
        (Sample.rng 4)).1.completeFromWireSigned bytes Sample.clientKeys.2 =
          .error .clientAuthFailed := by
  obtain ⟨resp, _, _, -⟩ := Sample.clientRespond_succeeds (fun _ _ => true)
    (parseServerHello _ (ServerHandshake.new (H := Sample.allSigned) (Sample.rng 3)).1.serverHelloRaw)
    (Sample.rng 5)
  obtain ⟨bytes, rng, hser⟩ := Sample.serializeClientResponseSigned_succeeds (fun _ _ => true) resp
    Sample.clientKeys.1 (ServerHandshake.new (H := Sample.allSigned) (Sample.rng 3)).1.serverHelloRaw
    rfl (Sample.rng 6)
  refine ⟨bytes, .made (Sample.clientKeys_matches _) hser, ?_⟩
  have hbound := (response_bound_to_hello (Sample.dsa_ideal fun _ _ => true)
    (Sample.dsa_correct fun _ _ => true) (H := Sample.allSigned)
    Sample.clientKeys.2).2
  refine (hbound [(ServerHandshake.new (Sample.rng 3)).1, (ServerHandshake.new (Sample.rng 4)).1]
    ?_ 0 1 _ _ rfl rfl bytes (.made (Sample.clientKeys_matches _) hser)).1 (by decide)
  -- the two hellos start with different X25519 keys
  refine List.pairwise_pair.mpr ?_
  intro h
  have hpublic := congrArg (fun v => (v.toList.take 1)) h
  exact absurd hpublic (by decide +kernel)

end LatticeShield
