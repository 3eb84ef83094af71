import LatticeShield.Proof.ControlPlane

/-!
# What one heartbeat accepts

With a key, an answer of the cloud passes eight checks one after the other, and a body carries
commands in two places: in the envelope, which anyone can write, and in the signed payload.
`Verified` is the conjunction of the checks, with the time as a distance of integers, and
`send_heartbeat` returns the commands of the payload exactly when it holds and none at all when it
does not.

The subtraction in the last check is of two `i64`s, one of them the cloud's. What it computes is the
distance of the two, cut off at the largest `i64` (`toInt_drift`), so nothing wraps.
-/

set_option autoImplicit false

namespace LatticeShield.ControlPlane

open Lib Bridge

variable {codec : Codec} {D : MlDsa} {config : RunConfig} {identity : ServerIdentity}

/-! ## The arithmetic of the window -/

/-- `checked_sub` is the difference, where there is one: an `i64` holds it or nothing is returned.
-/
theorem checkedSub_eq_some {now ts d : Int64} :
    checkedSub now ts = some d ↔ d.toInt = now.toInt - ts.toInt := by
  have hlo := d.le_toInt
  have hhi := d.toInt_lt
  simp only [checkedSub]
  constructor
  · intro h
    split at h
    · rename_i hrange
      rw [← Option.some.inj h, Int64.toInt_ofInt_of_le (by omega) (by omega)]
    · cases h
  · intro h
    rw [if_pos (by omega), ← h, Int64.ofInt_toInt]

theorem toInt_saturatingAbs_eq (d : Int64) :
    (saturatingAbs d).toInt = min d.toInt.natAbs (2 ^ 63 - 1) := by
  have hlo := d.le_toInt
  have hhi := d.toInt_lt
  by_cases hmin : d = Int64.minValue
  · rw [hmin]
    decide
  · have hne : d.toInt ≠ -2 ^ 63 := by
      intro h
      apply hmin
      rw [← Int64.toInt_inj, h]
      rfl
    have habs := toInt_saturatingAbs (d := d.toInt) (by omega) hhi
    rw [Int64.ofInt_toInt] at habs
    rw [habs]
    omega

/-- The drift is the distance, cut off at `i64::MAX`. Where the subtraction overflows the source
puts `i64::MAX`, and the absolute value is the saturating one. -/
theorem toInt_drift (now ts : Int64) :
    (drift now ts).toInt = min (now.toInt - ts.toInt).natAbs (2 ^ 63 - 1) := by
  unfold drift
  cases hsub : checkedSub now ts with
  | some d =>
    rw [Option.map_some, Option.getD_some, toInt_saturatingAbs_eq, checkedSub_eq_some.mp hsub]
  | none =>
    have hout : ¬ (-2 ^ 63 ≤ now.toInt - ts.toInt ∧ now.toInt - ts.toInt < 2 ^ 63) := by
      intro hrange
      rw [checkedSub, if_pos hrange] at hsub
      cases hsub
    have hmax : Int64.maxValue.toInt = 2 ^ 63 - 1 := by decide
    rw [Option.map_none, Option.getD_none, hmax]
    omega

/-! ## The checks -/

/-- Everything `send_heartbeat` asks of a body before it takes the commands of `inner`. The steps
are listed as the source makes them, from the body to the parsed payload. -/
structure Verified (codec : Codec) (D : MlDsa) (vk : VerifyingKey) (body : Bytes)
    (clock : Option UInt64) (inner : SignedResponsePayload) : Prop where
  accepted : ∃ envelope signedPayload sigB64 sigBytes,
    codec.parseResponse body = some envelope ∧
    envelope.signedPayload = some signedPayload ∧
    envelope.responseSignature = some sigB64 ∧
    codec.base64Decode sigB64 = some sigBytes ∧
    (∃ h : sigBytes.length = 3309,
      D.verify vk signedPayload.toUTF8.toList signingContext ⟨sigBytes, h⟩ = true) ∧
    codec.parsePayload signedPayload = some inner
  fresh : ((nowSecs clock).toInt - inner.ts.toInt).natAbs ≤ 300

theorem verifyResponse_of_verified {vk : VerifyingKey} {body : Bytes} {clock : Option UInt64}
    {inner : SignedResponsePayload} (h : Verified codec D vk body clock inner) :
    verifyResponse codec D vk ((codec.parseResponse body).getD {}) clock =
      { pendingCommands := inner.pendingCommands } := by
  obtain ⟨envelope, text, sigB64, sigBytes, hbody, htext, hsig, hdecode, ⟨hlen, hverify⟩, hparse⟩ :=
    h.accepted
  rw [hbody, Option.getD_some]
  have hfresh : Fresh clock inner.ts := h.fresh
  let sig : Signature := ⟨sigBytes, hlen⟩
  have hdecoded : codec.base64Decode sigB64 = some sig.toList := hdecode
  exact verifyResponse_accepted codec D htext hsig hdecoded (verify_eq_ok.mpr hverify) hparse hfresh

theorem verifyResponse_of_not_verified {vk : VerifyingKey} {body : Bytes} {clock : Option UInt64}
    (h : ¬ ∃ inner, Verified codec D vk body clock inner) :
    verifyResponse codec D vk ((codec.parseResponse body).getD {}) clock = {} := by
  cases hbody : codec.parseResponse body with
  | none => rfl
  | some envelope =>
    rw [Option.getD_some]
    unfold verifyResponse
    split
    · rename_i text sigB64 htext hsig
      split
      · rfl
      · rename_i sigBytes hdecode
        split
        · rfl
        · rename_i sig hbytes
          split
          · rfl
          · rename_i hverify
            split
            · rfl
            · rename_i inner hparse
              split
              · rfl
              · -- nothing was wrong with it
                rename_i hdrift
                refine absurd ⟨inner, ⟨envelope, text, sigB64, sigBytes, hbody, htext, hsig,
                  hdecode, ?_, hparse⟩, ?_⟩ h
                · obtain rfl := arrayFromBytes_eq_ok.mp hbytes
                  exact ⟨sig.toList_length, verify_eq_ok.mp hverify⟩
                · exact (fresh_iff clock inner.ts).mpr hdrift
    · rfl

/-! ## `send_heartbeat` -/

theorem readResponse_success {status : Nat} {contentLength : Option UInt64} {body : Bytes}
    (hstatus : isSuccess status = true)
    (hlength : ∀ len ∈ contentLength, len.toNat ≤ maxHeartbeatResponseBytes)
    (hbody : body.length ≤ maxHeartbeatResponseBytes) :
    readResponse codec (.answered status contentLength (some body)) =
      .ok ((codec.parseResponse body).getD {}) := by
  have hany : (contentLength.any fun len => maxHeartbeatResponseBytes < len.toNat) = false := by
    cases contentLength with
    | none => rfl
    | some len => simpa using hlength len rfl
  refine bind_eq_ok.mpr ⟨(), refuseIf_eq_ok.mpr (by rw [hstatus]; rfl), ?_⟩
  refine bind_eq_ok.mpr ⟨(), refuseIf_eq_ok.mpr hany, bind_eq_ok.mpr ⟨body, rfl, ?_⟩⟩
  exact bind_eq_ok.mpr ⟨(), refuseIf_eq_ok.mpr (by simpa using hbody), rfl⟩

/-- The loop dispatches what `send_heartbeat` returns, and records it: the model of a single call
and the model of the loop are about the same commands. -/
theorem heartbeat_eq_sendHeartbeat (agentId : String) (key : Option VerifyingKey) (s : LoopState)
    (beat : Beat) :
    ∃ entry, (heartbeat codec D config identity agentId key s beat).history =
      s.history ++ [entry] ∧
      entry.commands = match (sendHeartbeat codec D config agentId (signable beat) identity s.rng
          key beat.response beat.clock).1 with
        | .ok resp => dispatched resp
        | .error _ => [] := by
  unfold heartbeat sendHeartbeat
  cases heartbeatRequest codec D config agentId (signable beat) identity s.rng with
  | mk request rng =>
    cases request with
    | error e => exact ⟨_, rfl, rfl⟩
    | ok request =>
      simp only
      cases readResponse codec beat.response with
      | error e => exact ⟨_, rfl, rfl⟩
      | ok resp => exact ⟨_, rfl, rfl⟩

/-- **The commands of a heartbeat.** With a loaded key, whatever the body of a 2xx answer within
the cap and whatever the time: `send_heartbeat` returns the commands of the signed payload if all
checks pass and none otherwise; and its arithmetic on `ts` is that of the integers, cut off at
`i64::MAX`, for every `i64`. -/
theorem heartbeat_commands_exact (codec : Codec) (D : MlDsa) (config : RunConfig)
    (identity : ServerIdentity) (agentId : String) (signable : SignableHeartbeatPayload) (rng : Rng)
    (vk : VerifyingKey) (request : String × SignedHeartbeatPayload)
    (hrequest : (heartbeatRequest codec D config agentId signable identity rng).1 = .ok request)
    (status : Nat) (contentLength : Option UInt64) (body : Bytes) (clock : Option UInt64)
    (hstatus : isSuccess status = true)
    (hlength : ∀ len ∈ contentLength, len.toNat ≤ maxHeartbeatResponseBytes)
    (hbody : body.length ≤ maxHeartbeatResponseBytes) :
    (∃ resp, (sendHeartbeat codec D config agentId signable identity rng (some vk)
        (.answered status contentLength (some body)) clock).1 = .ok resp ∧
      (resp.pendingCommands.getD [] ≠ [] → ∃ inner, Verified codec D vk body clock inner) ∧
      (∀ inner, Verified codec D vk body clock inner →
        resp = { pendingCommands := inner.pendingCommands }) ∧
      ((¬ ∃ inner, Verified codec D vk body clock inner) → resp = {})) ∧
    ∀ ts : Int64,
      (∀ d, checkedSub (nowSecs clock) ts = some d → d.toInt = (nowSecs clock).toInt - ts.toInt) ∧
      (drift (nowSecs clock) ts).toInt =
        min ((nowSecs clock).toInt - ts.toInt).natAbs (2 ^ 63 - 1) := by
  constructor
  · refine ⟨verifyResponse codec D vk ((codec.parseResponse body).getD {}) clock, ?_, ?_, ?_, ?_⟩
    · unfold sendHeartbeat
      cases hmade : heartbeatRequest codec D config agentId signable identity rng with
      | mk made rng' =>
        rw [hmade] at hrequest
        obtain rfl : made = .ok request := hrequest
        simp only [readResponse_success hstatus hlength hbody]
        rfl
    · intro hne
      by_contra hnot
      rw [verifyResponse_of_not_verified hnot] at hne
      exact hne rfl
    · intro inner hverified
      exact verifyResponse_of_verified hverified
    · intro hnot
      exact verifyResponse_of_not_verified hnot
  · intro ts
    refine ⟨?_, toInt_drift _ ts⟩
    intro d hd
    exact checkedSub_eq_some.mp hd

/-- The sample answer, ten seconds after it was signed. -/
theorem heartbeat_commands_of_sample :
    ∃ resp, (sendHeartbeat sampleCodec Sample.allSigned.toMlDsa sampleRunConfig "agent-1"
        (signable (sampleBeat 1735776010)) sampleIdentity (.ofBytes []) (some Sample.clientKeys.2)
        (.answered 200 none (some sampleBody)) (some 1735776010)).1 = .ok resp ∧
      resp.pendingCommands = some [.rotate] := by
  obtain ⟨request, rng', hrequest⟩ := heartbeatRequest_sampleBeat "agent-1" (.ofBytes []) 1735776010
  have hbody : sampleCodec.parseResponse sampleBody =
      some { signedPayload := some samplePayload
             responseSignature := some (base64Encode sampleSignature.toList) } := by
    simp only [sampleCodec, if_neg sampleBody_ne, if_true]
  have hverified : Verified sampleCodec Sample.allSigned.toMlDsa Sample.clientKeys.2 sampleBody
      (some 1735776010) ⟨some [.rotate], 1735776000⟩ :=
    ⟨⟨_, _, _, _, hbody, rfl, rfl, sampleCodec_base64Decode, ⟨sampleSignature.toList_length,
      verify_eq_ok.mp sampleSignature_verifies⟩, sampleCodec_parsePayload⟩, by decide⟩
  obtain ⟨⟨resp, hresp, -, hall, -⟩, -⟩ := heartbeat_commands_exact sampleCodec
    Sample.allSigned.toMlDsa sampleRunConfig sampleIdentity "agent-1"
    (signable (sampleBeat 1735776010)) (.ofBytes []) Sample.clientKeys.2 request
    (congrArg Prod.fst hrequest) 200 none sampleBody (some 1735776010) rfl (by simp)
    length_sampleBody_le
  refine ⟨resp, hresp, ?_⟩
  rw [hall _ hverified]

end LatticeShield.ControlPlane
