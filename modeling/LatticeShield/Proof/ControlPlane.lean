import LatticeShield.Bridge.ControlPlane
import LatticeShield.Crypto.SampleHandshake
import LatticeShield.Lib.Lists
import LatticeShield.Lib.Utf8

/-!
# Which commands of the cloud are executed

A heartbeat's answer goes one of two ways, and the key decides which. With a key, what is
dispatched is what a signed payload lists, and its time is within 300 seconds of the clock
(`verifyResponse_cases`). Without one everything is dispatched. The second way is meant for a
bridge that has no `cloud_vk_path`; it is also taken by one whose key file cannot be loaded, and so
commands are verified exactly when the file is in order (`commands_verified_iff`).

The clock is all that is remembered of a signed payload, so a payload that comes back within its
window is executed again.
-/

set_option autoImplicit false

namespace LatticeShield.ControlPlane

open Lib Bridge

/-! ## The window -/

/-- The clock is within 300 seconds of `ts`, on either side: a payload may come from the future. -/
def Fresh (clock : Option UInt64) (ts : Int64) : Prop :=
  ((nowSecs clock).toInt - ts.toInt).natAbs ≤ 300

instance (clock : Option UInt64) (ts : Int64) : Decidable (Fresh clock ts) :=
  inferInstanceAs (Decidable (_ ≤ _))

theorem toInt_saturatingAbs {d : Int} (hlo : -2 ^ 63 < d) (hhi : d < 2 ^ 63) :
    (saturatingAbs (Int64.ofInt d)).toInt = d.natAbs := by
  have hd : (Int64.ofInt d).toInt = d := Int64.toInt_ofInt_of_le (by omega) (by omega)
  have hmin : Int64.ofInt d ≠ Int64.minValue := by
    intro h
    have := congrArg Int64.toInt h
    rw [hd, Int64.toInt_minValue] at this
    omega
  have hneg : Int64.ofInt d < 0 ↔ d < 0 := by rw [Int64.lt_iff_toInt_lt, hd, Int64.toInt_zero]
  rw [saturatingAbs, if_neg hmin]
  by_cases h : d < 0
  · rw [if_pos (hneg.mpr h), ← Int64.ofInt_neg, Int64.toInt_ofInt_of_le (by omega) (by omega)]
    omega
  · rw [if_neg fun h' => h (hneg.mp h'), hd]
    omega

/-- The check of the source, overflow and all, is a distance: `checked_sub`, `saturating_abs` and
the cut at `i64::MAX` decide the 300 seconds as the integers would. -/
theorem fresh_iff (clock : Option UInt64) (ts : Int64) :
    Fresh clock ts ↔ ¬ drift (nowSecs clock) ts > signedResponseFreshnessSecs := by
  unfold Fresh
  generalize nowSecs clock = now
  have hmax : Int64.maxValue > signedResponseFreshnessSecs := by decide
  have hnow := now.toInt_lt
  have hts := ts.le_toInt
  by_cases hrange : -2 ^ 63 ≤ now.toInt - ts.toInt ∧ now.toInt - ts.toInt < 2 ^ 63
  · have hsub : checkedSub now ts = some (Int64.ofInt (now.toInt - ts.toInt)) := if_pos hrange
    rw [drift, hsub, Option.map_some, Option.getD_some]
    by_cases hlo : now.toInt - ts.toInt = -2 ^ 63
    · -- the one difference without an absolute value
      have hsat : saturatingAbs (Int64.ofInt (-2 ^ 63)) = Int64.maxValue := by decide
      rw [hlo, hsat]
      exact iff_of_false (by omega) (fun h => h hmax)
    · have habs := toInt_saturatingAbs (d := now.toInt - ts.toInt) (by omega) hrange.2
      have h300 : signedResponseFreshnessSecs.toInt = 300 := by decide
      rw [gt_iff_lt, Int64.lt_iff_toInt_lt, habs, h300]
      omega
  · have hsub : checkedSub now ts = none := if_neg hrange
    rw [drift, hsub, Option.map_none, Option.getD_none]
    exact iff_of_false (by omega) (fun h => h hmax)

/-! ## One answer -/

variable (codec : Codec) (D : MlDsa) (config : RunConfig) (identity : ServerIdentity)

/-- What a signed response is accepted for: it carries this payload, which verifies and is fresh.
Nothing is asked of payloads accepted before. -/
structure Accepts (codec : Codec) (D : MlDsa) (vk : VerifyingKey) (payload : Option String)
    (clock : Option UInt64) (text : String) (inner : SignedResponsePayload) : Prop where
  payload : payload = some text
  verifies : ∃ sig, D.verify vk text.toUTF8.toList signingContext sig = true
  parses : codec.parsePayload text = some inner
  fresh : Fresh clock inner.ts

/-- **A verified answer** is empty, or the commands of an accepted payload. What the outer object
of the answer lists besides its signed payload is never looked at. -/
theorem verifyResponse_cases (vk : VerifyingKey) (resp : HeartbeatResponse)
    (clock : Option UInt64) :
    verifyResponse codec D vk resp clock = {} ∨
    ∃ text inner, Accepts codec D vk resp.signedPayload clock text inner ∧
      verifyResponse codec D vk resp clock = { pendingCommands := inner.pendingCommands } := by
  unfold verifyResponse
  split
  · rename_i text sigB64 hpayload _
    split
    · exact Or.inl rfl
    · split
      · exact Or.inl rfl
      · split
        · exact Or.inl rfl
        · rename_i sig _ _ hverify
          split
          · exact Or.inl rfl
          · rename_i inner hparse
            split
            · exact Or.inl rfl
            · rename_i hdrift
              exact Or.inr ⟨text, inner, ⟨hpayload, ⟨sig, verify_eq_ok.mp hverify⟩, hparse,
                (fresh_iff clock inner.ts).mpr hdrift⟩, rfl⟩
  · exact Or.inl rfl

/-- And everything of the payload, if nothing is wrong with it. -/
theorem verifyResponse_accepted {vk : VerifyingKey} {resp : HeartbeatResponse}
    {text sigB64 : String} {sig : Signature} {inner : SignedResponsePayload} {clock : Option UInt64}
    (htext : resp.signedPayload = some text) (hsig : resp.responseSignature = some sigB64)
    (hdecode : codec.base64Decode sigB64 = some sig.toList)
    (hverify : verify D vk text.toUTF8.toList sig = .ok ())
    (hparse : codec.parsePayload text = some inner) (hfresh : Fresh clock inner.ts) :
    verifyResponse codec D vk resp clock = { pendingCommands := inner.pendingCommands } := by
  simp only [verifyResponse, htext, hsig, hdecode, Signature.fromBytes, arrayFromBytes_toList,
    hverify, hparse, if_neg ((fresh_iff _ _).mp hfresh)]

/-! ## A run -/

/-- What the history's entry owes to its beat: it is empty, or what was dispatched of the answer
that came. -/
def Produced (codec : Codec) (D : MlDsa) (key : Option VerifyingKey) (beat : Beat)
    (entry : Entry) : Prop :=
  entry.commands = [] ∨ ∃ resp, readResponse codec beat.response = .ok resp ∧
    entry.payload = resp.signedPayload ∧
    entry.commands = dispatched (acceptResponse codec D key resp beat.clock)

theorem heartbeat_produced (agentId : String) (key : Option VerifyingKey) (s : LoopState)
    (beat : Beat) :
    ∃ entry, (heartbeat codec D config identity agentId key s beat).history =
      s.history ++ [entry] ∧ Produced codec D key beat entry := by
  unfold heartbeat
  split
  · exact ⟨_, rfl, Or.inl rfl⟩
  · split
    · exact ⟨_, rfl, Or.inl rfl⟩
    · rename_i resp hread
      exact ⟨_, rfl, Or.inr ⟨resp, hread, rfl, rfl⟩⟩

theorem run_produced (agentId : String) (key : Option VerifyingKey) (s : LoopState)
    (beats : List Beat) :
    ∃ entries, (beats.foldl (heartbeat codec D config identity agentId key) s).history =
      s.history ++ entries ∧ List.Forall₂ (Produced codec D key) beats entries := by
  induction beats generalizing s with
  | nil => exact ⟨[], (List.append_nil _).symm, .nil⟩
  | cons beat beats ih =>
    obtain ⟨entry, hentry, hprod⟩ := heartbeat_produced codec D config identity agentId key s beat
    obtain ⟨entries, hentries, hall⟩ := ih (heartbeat codec D config identity agentId key s beat)
    refine ⟨entry :: entries, ?_, .cons hprod hall⟩
    rw [List.foldl_cons, hentries, hentry, List.append_assoc, List.singleton_append]

/-- A run has one entry for each beat, unless the loop is never entered. The two theorems below
are about entries, and by this about the beat that each one is the entry of. -/
theorem start_produced (fs : FileSystem) (boot : Boot) (beats : List Beat) :
    start codec D config identity fs boot beats = [] ∨
    List.Forall₂ (Produced codec D (cloudVk config fs)) beats
      (start codec D config identity fs boot beats) := by
  unfold start
  split
  · split
    · exact Or.inl rfl
    · rename_i agentId _
      obtain ⟨entries, hentries, hall⟩ := run_produced codec D config identity agentId
        (cloudVk config fs) ⟨boot.rng, []⟩ beats
      rw [hentries]
      exact Or.inr hall
  · exact Or.inl rfl

variable {codec D config identity}

/-- A beat whose heartbeat is sent and whose answer can be read. -/
theorem heartbeat_answered {agentId : String} {key : Option VerifyingKey} {s : LoopState}
    {beat : Beat} {request : String × SignedHeartbeatPayload} {rng : Rng} {resp : HeartbeatResponse}
    (hrequest : heartbeatRequest codec D config agentId (signable beat) identity s.rng =
      (.ok request, rng))
    (hread : readResponse codec beat.response = .ok resp) :
    (heartbeat codec D config identity agentId key s beat).history =
      s.history ++ [⟨some request, resp.signedPayload,
        dispatched (acceptResponse codec D key resp beat.clock)⟩] := by
  rw [heartbeat, hrequest]
  simp only [hread]

/-- With a key, a beat that dispatches something was given a payload to accept, and dispatches its
commands. -/
theorem Produced.accepts {vk : VerifyingKey} {beat : Beat} {entry : Entry}
    (h : Produced codec D (some vk) beat entry) (hne : entry.commands ≠ []) :
    ∃ resp text inner, readResponse codec beat.response = .ok resp ∧
      Accepts codec D vk resp.signedPayload beat.clock text inner ∧
      entry.payload = some text ∧
      entry.commands = (inner.pendingCommands.getD []).filter (· ≠ .unknown) := by
  rcases h with hempty | ⟨resp, hread, hpayload, hcommands⟩
  · exact absurd hempty hne
  · rw [acceptResponse, dispatched] at hcommands
    rcases verifyResponse_cases codec D vk resp beat.clock with heq |
      ⟨text, inner, haccepts, heq⟩
    · rw [heq] at hcommands
      exact absurd hcommands hne
    · rw [heq] at hcommands
      exact ⟨resp, text, inner, hread, haccepts, hpayload.trans haccepts.payload, hcommands⟩

/-! ## Commands are verified exactly when the key file is in order -/

theorem loadCloudVk_eq_ok {fs : FileSystem} {path : String} {vk : VerifyingKey} :
    loadCloudVk fs path = .ok vk ↔ fs.read path = .ok vk.toList := by
  constructor
  · intro h
    obtain ⟨bytes, hread, h⟩ := bind_eq_ok.mp h
    obtain ⟨_, -, h⟩ := bind_eq_ok.mp h
    rw [mapError_eq_ok.mp hread, arrayFromBytes_eq_ok.mp (mapError_eq_ok.mp h)]
  · intro h
    refine bind_eq_ok.mpr ⟨vk.toList, mapError_eq_ok.mpr h, bind_eq_ok.mpr ⟨(), ?_, ?_⟩⟩
    · exact refuseIf_eq_ok.mpr (by simp)
    · exact mapError_eq_ok.mpr (arrayFromBytes_toList vk)

theorem cloudVk_of_path {path : String} (hpath : config.cloudVkPath = some path)
    (fs : FileSystem) :
    cloudVk config fs = (loadCloudVk fs path).toOption := by
  rw [cloudVk, hpath]
  cases h : loadCloudVk fs path <;> simp [h, Except.toOption]

/-- `cmd` is listed in the `signed_payload` of this entry, which the holder of the key that is in
the file signed. -/
def Authorised (codec : Codec) (D : MlDsa) (log : Set MlDsa.Signed) (fs : FileSystem)
    (path : String) (entry : Entry) (cmd : BridgeCommand) : Prop :=
  ∃ (vk : VerifyingKey) (text : String) (inner : SignedResponsePayload),
    fs.read path = .ok vk.toList ∧ entry.payload = some text ∧
    (∃ sig, D.verify vk text.toUTF8.toList signingContext sig = true) ∧
    ⟨vk, text.toUTF8.toList⟩ ∈ log ∧
    codec.parsePayload text = some inner ∧ cmd ∈ inner.pendingCommands.getD []

/-- The answer of a control plane that signs nothing. -/
def rotateBody : Bytes := "\x7b\"pending_commands\":[\x7b\"type\":\"Rotate\"\x7d]\x7d".toUTF8.toList

def registrationBody : Bytes := "\x7b\"agent_id\":\"agent-1\"\x7d".toUTF8.toList

/-- What the parts outside the repository do: the two bodies above parse as what they say, and
some heartbeat can be serialised and signed. Without this no beat would bring an answer, and there
would be nothing to verify. -/
structure Works (codec : Codec) (D : MlDsa) (key : SigningKey) : Prop where
  registers : codec.parseRegistration registrationBody = some "agent-1"
  rotates : codec.parseResponse rotateBody = some { pendingCommands := some [.rotate] }
  posts : ∃ metrics timestamp uptimeSecs canonical randomness,
    codec.heartbeatToVec (signable ⟨metrics, timestamp, uptimeSecs, .failed, none⟩) =
      some canonical ∧
    (D.sign key canonical signingContext randomness).isSome = true

theorem readResponse_answered {body : Bytes} (h : body.length ≤ maxHeartbeatResponseBytes) :
    readResponse codec (.answered 200 none (some body)) =
      .ok ((codec.parseResponse body).getD {}) := by
  refine bind_eq_ok.mpr ⟨(), rfl, bind_eq_ok.mpr ⟨(), rfl, bind_eq_ok.mpr ⟨body, rfl, ?_⟩⟩⟩
  exact bind_eq_ok.mpr ⟨(), refuseIf_eq_ok.mpr (by simpa using h), rfl⟩

theorem length_rotateBody_le : rotateBody.length ≤ 100 := by
  rw [rotateBody, length_toUTF8]
  decide +kernel

variable (config) in
/-- Without a key, an unsigned command is executed: with `None` for the cloud's key the loop does
not look for a signature, however the `None` has come about. -/
theorem exists_unverified (hworks : Works codec D identity.signingKey) (fs : FileSystem)
    (hkey : cloudVk config fs = none) :
    ∃ boot beats, ∃ entry ∈ start codec D config identity fs boot beats,
      entry.payload = none ∧ entry.commands = [.rotate] := by
  obtain ⟨metrics, timestamp, uptimeSecs, canonical, randomness, hvec, hsign⟩ := hworks.posts
  obtain ⟨sig, hsign⟩ := Option.isSome_iff_exists.mp hsign
  have hsign' : sign D identity.signingKey canonical (.ofBytes randomness.toList) =
      (.ok sig, ((Rng.ofBytes randomness.toList).fill 32).2) := by
    rw [← Rng.fill_ofBytes randomness] at hsign
    simp only [sign, hsign]
  have hread : readResponse codec (.answered 200 none (some rotateBody)) =
      .ok { pendingCommands := some [.rotate] } := by
    rw [readResponse_answered (length_rotateBody_le.trans (by decide)), hworks.rotates,
      Option.getD_some]
  have hregister : (tryRegister codec config identity
      (.answered 200 none (some registrationBody))).2 = some "agent-1" := by
    simp only [tryRegister, isSuccess, Option.bind_some, hworks.registers]
    rfl
  refine ⟨⟨true, .answered 200 none (some registrationBody), .ofBytes randomness.toList⟩,
    [⟨metrics, timestamp, uptimeSecs, .answered 200 none (some rotateBody), none⟩], ?_⟩
  have hvec' : codec.heartbeatToVec (signable ⟨metrics, timestamp, uptimeSecs,
      .answered 200 none (some rotateBody), none⟩) = some canonical := hvec
  simp only [start, if_true, hregister, List.foldl_cons, List.foldl_nil, heartbeat,
    heartbeatRequest, hvec', hsign', hread, hkey, acceptResponse, List.nil_append,
    List.mem_singleton]
  exact ⟨_, rfl, rfl, rfl⟩

/-- **Commands are verified exactly when the key can be loaded.** For a bridge with a
`cloud_vk_path`: every command it sends on, in every run, was signed by the holder of the key in
that file, if and only if the file can be read and has exactly the length of a key. `start` logs a
file that does not load and goes on without the key. -/
theorem commands_verified_iff (hworks : Works codec D identity.signingKey)
    {log : Set MlDsa.Signed} (hideal : D.Ideal log) {path : String}
    (hpath : config.cloudVkPath = some path) (fs : FileSystem) :
    (∀ boot beats, ∀ entry ∈ start codec D config identity fs boot beats,
      ∀ cmd ∈ entry.commands, Authorised codec D log fs path entry cmd) ↔
    ∃ bytes, fs.read path = .ok bytes ∧ bytes.length = verifyingKeyLen := by
  have hvk := cloudVk_of_path hpath fs
  constructor
  · intro hall
    by_contra hbad
    have hnone : cloudVk config fs = none := by
      rw [hvk]
      cases hload : loadCloudVk fs path with
      | error e => rfl
      | ok vk => exact absurd ⟨_, loadCloudVk_eq_ok.mp hload, vk.toList_length⟩ hbad
    obtain ⟨boot, beats, entry, hentry, hpayload, hcommands⟩ :=
      exists_unverified config hworks fs hnone
    obtain ⟨vk, text, inner, -, htext, -⟩ := hall boot beats entry hentry .rotate
      (by rw [hcommands]; exact List.mem_singleton_self _)
    rw [hpayload] at htext
    exact absurd htext (by simp)
  · rintro ⟨bytes, hread, hlen⟩ boot beats entry hentry cmd hcmd
    let vk : VerifyingKey := ⟨bytes, hlen⟩
    have hfile : fs.read path = .ok vk.toList := hread
    have hkey : cloudVk config fs = some vk := by
      rw [hvk, loadCloudVk_eq_ok.mpr hfile]
      rfl
    rcases start_produced codec D config identity fs boot beats with hempty | hall
    · rw [hempty] at hentry
      exact absurd hentry (by simp)
    · rw [hkey] at hall
      obtain ⟨beat, -, hprod⟩ := forall₂_exists_of_mem hall hentry
      obtain ⟨resp, text, inner, -, haccepts, hpayload, hcommands⟩ :=
        hprod.accepts (List.ne_nil_of_mem hcmd)
      obtain ⟨sig, hverify⟩ := haccepts.verifies
      have hmem : cmd ∈ inner.pendingCommands.getD [] :=
        List.mem_of_mem_filter (hcommands ▸ hcmd)
      exact ⟨vk, text, inner, hfile, hpayload, ⟨sig, hverify⟩, hideal.signed _ _ _ hverify,
        haccepts.parses, hmem⟩

/-! ## A sample control plane -/

/-- The text the cloud signs. -/
def samplePayload : String :=
  "\x7b\"pending_commands\":[\x7b\"type\":\"Rotate\"\x7d],\"ts\":1735776000\x7d"

/-- The cloud's keys are those of the sample client. -/
def sampleSignature : Signature :=
  (Sample.encodeMessage samplePayload.toUTF8.toList).getD (ByteArr.zeros signatureLen)

/-- The standard alphabet of base64. -/
def base64Digit (n : Nat) : UInt8 :=
  "ABCDEFGHIJKLMNOPQRSTUVWXYZabcdefghijklmnopqrstuvwxyz0123456789+/".toUTF8.toList.getD n 61

def base64Bytes : Bytes → Bytes
  | a :: b :: c :: rest =>
    let n := (a.toNat * 256 + b.toNat) * 256 + c.toNat
    [n / 262144, n / 4096 % 64, n / 64 % 64, n % 64].map base64Digit ++ base64Bytes rest
  | [a, b] =>
    let n := (a.toNat * 256 + b.toNat) * 4
    [n / 4096, n / 64 % 64, n % 64].map base64Digit ++ [61]
  | [a] => [a.toNat / 4, a.toNat % 4 * 16].map base64Digit ++ [61, 61]
  | [] => []

def base64Encode (bytes : Bytes) : String :=
  String.ofList ((base64Bytes bytes).map fun b => Char.ofNat b.toNat)

/-- The body that carries them. -/
def sampleBody : Bytes :=
  "\x7b\"signed_payload\":\"\x7b\\\"pending_commands\\\":".toUTF8.toList ++
  ("[\x7b\\\"type\\\":\\\"Rotate\\\"\x7d],".toUTF8.toList ++
  ("\\\"ts\\\":1735776000\x7d\",\"response_signature\":\"".toUTF8.toList ++
  (base64Bytes sampleSignature.toList ++ "\"\x7d".toUTF8.toList)))

/-- What the real codecs make of the texts of the sample runs. -/
def sampleCodec : Codec where
  heartbeatToVec p := some (String.toUTF8 (
    s!"\x7b\"timestamp_unix\":{p.timestampUnix},\"uptime_secs\":{p.uptimeSecs}," ++
    s!"\"status\":\"{p.status}\",\"version\":\"{p.version}\"," ++
    s!"\"metrics\":\x7b\"connections_active\":{p.metrics.connectionsActive}," ++
    s!"\"connections_total\":{p.metrics.connectionsTotal}," ++
    s!"\"bytes_transmitted_total\":{p.metrics.bytesTransmittedTotal}," ++
    s!"\"channel_errors_total\":{p.metrics.channelErrorsTotal}\x7d\x7d")).toList
  parseRegistration body := if body = registrationBody then some "agent-1" else none
  parseResponse body :=
    if body = rotateBody then some { pendingCommands := some [.rotate] }
    else if body = sampleBody then
      some { signedPayload := some samplePayload
             responseSignature := some (base64Encode sampleSignature.toList) }
    else none
  parsePayload text := if text = samplePayload then some ⟨some [.rotate], 1735776000⟩ else none
  base64Encode := base64Encode
  base64Decode text :=
    if text = base64Encode sampleSignature.toList then some sampleSignature.toList else none

def sampleIdentity : ServerIdentity := ⟨Sample.serverKeys.1, Sample.serverKeys.2⟩

def sampleRunConfig : RunConfig :=
  (Config.validate
    ⟨fun _ => none, fun _ => some ⟨"https", some "cloud.example", none, "/", none, none⟩,
      fun _ => none⟩
    { auth := { requireClientAuth := false }
      controlPlane := {
        enabled := true
        endpoint := "https://cloud.example"
        cloudVkPath := some "./keys/cloud.vk" } }).toOption.get (by decide +kernel)

theorem sampleRunConfig_cloudVkPath : sampleRunConfig.cloudVkPath = some "./keys/cloud.vk" := by
  decide +kernel

/-- A directory in which the cloud's key has this content, or none. -/
def sampleFs (content : Except String Bytes) : FileSystem :=
  ⟨fun _ => .ok 0o100644, fun _ => content⟩

theorem sample_ideal : Sample.allSigned.Ideal Set.univ :=
  ⟨fun _ _ _ _ => trivial, (Sample.dsa_ideal fun _ _ => true).bound⟩

/-- A heartbeat is short enough for the sample signatures. Its text is evaluated once, with all
numbers zero, and every other has at most twenty digits more for each of the six. -/
theorem heartbeat_fits (beat : Beat) :
    ((sampleCodec.heartbeatToVec (signable beat)).getD []).length ≤ 3305 := by
  have hzero : ((sampleCodec.heartbeatToVec
      (signable ⟨⟨0, 0, 0, 0⟩, none, 0, .failed, none⟩)).getD []).length ≤ 3185 := by
    show (String.toUTF8 _).toList.length ≤ _
    rw [length_toUTF8]
    decide +kernel
  have htimestamp := utf8ByteSize_toString_le (beat.timestamp.getD 0)
  have huptime := utf8ByteSize_toString_le beat.uptimeSecs
  have hactive := utf8ByteSize_toString_le beat.metrics.connectionsActive
  have htotal := utf8ByteSize_toString_le beat.metrics.connectionsTotal
  have hbytes := utf8ByteSize_toString_le beat.metrics.bytesTransmittedTotal
  have herrors := utf8ByteSize_toString_le beat.metrics.channelErrorsTotal
  simp only [sampleCodec, Option.getD_some, length_toUTF8, String.utf8ByteSize_append, signable]
    at hzero ⊢
  omega

theorem sample_works : Works sampleCodec Sample.allSigned.toMlDsa sampleIdentity.signingKey where
  registers := if_pos rfl
  rotates := if_pos rfl
  posts := by
    let beat : Beat := ⟨⟨0, 0, 0, 0⟩, some 0, 0, .failed, none⟩
    let canonical : Bytes := (sampleCodec.heartbeatToVec (signable beat)).getD []
    refine ⟨beat.metrics, beat.timestamp, beat.uptimeSecs, canonical, Sample.rot 0, rfl, ?_⟩
    have hsign : Sample.allSigned.toMlDsa.sign sampleIdentity.signingKey canonical signingContext
        (Sample.rot 0) = Sample.encodeMessage canonical := if_pos ⟨rfl, rfl⟩
    rw [hsign, Sample.encodeMessage, dif_pos (heartbeat_fits beat)]
    rfl

/-- With the key in its file, only signed commands are executed. -/
theorem commands_verified_iff_loaded :
    (∃ bytes, (sampleFs (.ok Sample.clientKeys.2.toList)).read "./keys/cloud.vk" = .ok bytes ∧
      bytes.length = verifyingKeyLen) ∧
    ∀ boot beats, ∀ entry ∈ start sampleCodec Sample.allSigned.toMlDsa sampleRunConfig
      sampleIdentity (sampleFs (.ok Sample.clientKeys.2.toList)) boot beats,
      ∀ cmd ∈ entry.commands, Authorised sampleCodec Sample.allSigned.toMlDsa Set.univ
        (sampleFs (.ok Sample.clientKeys.2.toList)) "./keys/cloud.vk" entry cmd := by
  have hfile : ∃ bytes, (sampleFs (.ok Sample.clientKeys.2.toList)).read "./keys/cloud.vk" =
      .ok bytes ∧ bytes.length = verifyingKeyLen := ⟨_, rfl, Sample.clientKeys.2.toList_length⟩
  exact ⟨hfile, (commands_verified_iff sample_works sample_ideal sampleRunConfig_cloudVkPath _).mpr
    hfile⟩

/-- **Without it, every command is**: the file is missing, the cloud's answer has no signature,
and the command in it is executed. -/
theorem unsigned_command_executed :
    ∃ boot beats, ∃ entry ∈ start sampleCodec Sample.allSigned.toMlDsa sampleRunConfig
      sampleIdentity (sampleFs (.error "No such file or directory (os error 2)")) boot beats,
      ∃ cmd ∈ entry.commands, ¬ Authorised sampleCodec Sample.allSigned.toMlDsa Set.univ
        (sampleFs (.error "No such file or directory (os error 2)")) "./keys/cloud.vk" entry
        cmd := by
  obtain ⟨boot, beats, entry, hentry, hpayload, hcommands⟩ :=
    exists_unverified sampleRunConfig sample_works
      (sampleFs (.error "No such file or directory (os error 2)"))
      (by rw [cloudVk_of_path sampleRunConfig_cloudVkPath]; rfl)
  refine ⟨boot, beats, entry, hentry, .rotate, by rw [hcommands]; exact List.mem_singleton_self _,
    ?_⟩
  rintro ⟨vk, text, inner, -, htext, -⟩
  rw [hpayload] at htext
  exact absurd htext (by simp)

/-! ## How often one payload is executed -/

/-- The payload whose commands a beat dispatched. A beat without commands has none, even if it got
one that verified. -/
def Entry.source (entry : Entry) : Option String :=
  if entry.commands = [] then none else entry.payload

/-- The beat is given this payload. -/
def Beat.Delivers (codec : Codec) (beat : Beat) (text : String) : Prop :=
  ∃ resp, readResponse codec beat.response = .ok resp ∧ resp.signedPayload = some text

/-- No payload comes at both beats with its time within 300 seconds of the clock. It is a
condition on the answers and the clock alone, and says nothing about what the bridge makes of
them. -/
def Apart (codec : Codec) (a b : Beat) : Prop :=
  ∀ text inner, a.Delivers codec text → b.Delivers codec text →
    codec.parsePayload text = some inner → ¬ (Fresh a.clock inner.ts ∧ Fresh b.clock inner.ts)

theorem Entry.source_eq_some {entry : Entry} {text : String} :
    entry.source = some text ↔ entry.commands ≠ [] ∧ entry.payload = some text := by
  unfold Entry.source
  split
  · rename_i h; exact iff_of_false (by simp) (fun h' => h'.1 h)
  · rename_i h; exact ⟨fun h' => ⟨h, h'⟩, And.right⟩

/-- Two beats that are apart do not dispatch the same payload. -/
theorem Apart.source_ne {vk : VerifyingKey} {a b : Beat} (h : Apart codec a b) {e f : Entry}
    (he : Produced codec D (some vk) a e) (hf : Produced codec D (some vk) b f) :
    ∀ text, e.source = some text → ∀ text', f.source = some text' → text ≠ text' := by
  rintro text htext text' htext' rfl
  obtain ⟨hne, hpayload⟩ := Entry.source_eq_some.mp htext
  obtain ⟨hne', hpayload'⟩ := Entry.source_eq_some.mp htext'
  obtain ⟨resp, t, inner, hread, haccepts, hp, -⟩ := he.accepts hne
  obtain ⟨resp', t', inner', hread', haccepts', hp', -⟩ := hf.accepts hne'
  obtain rfl := Option.some.inj (hpayload.symm.trans hp)
  obtain rfl := Option.some.inj (hpayload'.symm.trans hp')
  obtain rfl := Option.some.inj (haccepts.parses.symm.trans haccepts'.parses)
  exact h text inner ⟨resp, hread, haccepts.payload⟩ ⟨resp', hread', haccepts'.payload⟩
    haccepts.parses ⟨haccepts.fresh, haccepts'.fresh⟩

/-- **A signed payload is executed only within its window**: with the cloud's key loaded, whatever
answers come and whatever the clock does, a heartbeat that sends commands on was given a payload
that verifies under the key and lists them, and whose time is within 300 seconds of the clock. So
its commands are dispatched at most once, unless it comes back within that window. -/
theorem payload_dispatched_in_window {path : String} (hpath : config.cloudVkPath = some path)
    {fs : FileSystem} {vk : VerifyingKey} (hload : loadCloudVk fs path = .ok vk) (boot : Boot)
    (beats : List Beat) :
    (∀ (i : Nat) (entry : Entry), (start codec D config identity fs boot beats)[i]? = some entry →
      entry.commands ≠ [] → ∃ (beat : Beat) (text : String) (inner : SignedResponsePayload),
        beats[i]? = some beat ∧
        entry.source = some text ∧ beat.Delivers codec text ∧
        (∃ sig, D.verify vk text.toUTF8.toList signingContext sig = true) ∧
        codec.parsePayload text = some inner ∧ Fresh beat.clock inner.ts ∧
        entry.commands = (inner.pendingCommands.getD []).filter (· ≠ .unknown)) ∧
    (beats.Pairwise (Apart codec) →
      ((start codec D config identity fs boot beats).filterMap Entry.source).Nodup) := by
  have hkey : cloudVk config fs = some vk := by
    rw [cloudVk_of_path hpath, hload]
    rfl
  rcases start_produced codec D config identity fs boot beats with hempty | hall
  · rw [hempty]
    exact ⟨fun i entry h => absurd h (by simp), fun _ => List.nodup_nil⟩
  · rw [hkey] at hall
    refine ⟨?_, ?_⟩
    · intro i entry hentry hne
      obtain ⟨beat, hbeat, hprod⟩ := forall₂_getElem? hall hentry
      obtain ⟨resp, text, inner, hread, haccepts, hpayload, hcommands⟩ := hprod.accepts hne
      exact ⟨beat, text, inner, hbeat, Entry.source_eq_some.mpr ⟨hne, hpayload⟩,
        ⟨resp, hread, haccepts.payload⟩, haccepts.verifies, haccepts.parses, haccepts.fresh,
        hcommands⟩
    · intro hapart
      refine List.pairwise_filterMap.mpr ?_
      exact forall₂_pairwise hall hapart fun a b e f he hf hab => hab.source_ne he hf

/-- The sample answer comes, at this time. -/
def sampleBeat (clock : UInt64) : Beat where
  metrics := ⟨0, 0, 0, 0⟩
  timestamp := some clock
  uptimeSecs := 0
  response := .answered 200 none (some sampleBody)
  clock := some clock

theorem length_base64Bytes (bs : Bytes) :
    (base64Bytes bs).length = (bs.length + 2) / 3 * 4 := by
  fun_induction base64Bytes bs with
  | case1 a b c rest n ih =>
    rw [List.length_append, ih, List.length_map]
    simp only [List.length_cons, List.length_nil]
    omega
  | case2 a b n => simp
  | case3 a => simp
  | case4 => rfl

/-- The signature is most of the body. -/
theorem length_sampleBody : 4412 ≤ sampleBody.length ∧ sampleBody.length ≤ 4612 := by
  have htext : "\x7b\"signed_payload\":\"\x7b\\\"pending_commands\\\":".utf8ByteSize +
      "[\x7b\\\"type\\\":\\\"Rotate\\\"\x7d],".utf8ByteSize +
      "\\\"ts\\\":1735776000\x7d\",\"response_signature\":\"".utf8ByteSize +
      "\"\x7d".utf8ByteSize ≤ 200 := by decide +kernel
  have hsignature : (base64Bytes sampleSignature.toList).length = 4412 := by
    rw [length_base64Bytes, sampleSignature.toList_length]
    rfl
  simp only [sampleBody, List.length_append, length_toUTF8, hsignature]
  omega

theorem sampleBody_ne : sampleBody ≠ rotateBody := by
  intro h
  have hlong := length_sampleBody.1
  have hshort := length_rotateBody_le
  rw [h] at hlong
  omega

theorem length_sampleBody_le : sampleBody.length ≤ maxHeartbeatResponseBytes :=
  length_sampleBody.2.trans (by decide)

theorem sampleBeat_response (clock : UInt64) :
    readResponse sampleCodec (sampleBeat clock).response =
    .ok { signedPayload := some samplePayload
          responseSignature := some (base64Encode sampleSignature.toList) } := by
  rw [sampleBeat, readResponse_answered length_sampleBody_le]
  simp only [sampleCodec, if_neg sampleBody_ne, if_true, Option.getD_some]

theorem sampleSignature_verifies : verify Sample.allSigned.toMlDsa Sample.clientKeys.2
    samplePayload.toUTF8.toList sampleSignature = .ok () := by
  have hlen : samplePayload.toUTF8.toList.length ≤ 3305 := by
    rw [length_toUTF8]
    decide +kernel
  have hsome : (Sample.encodeMessage samplePayload.toUTF8.toList).isSome = true := by
    rw [Sample.encodeMessage, dif_pos hlen, Option.isSome_some]
  have hsig : Sample.encodeMessage samplePayload.toUTF8.toList = some sampleSignature := by
    obtain ⟨sig, hsig⟩ := Option.isSome_iff_exists.mp hsome
    rw [sampleSignature, hsig, Option.getD_some]
  rw [verify_eq_ok]
  simp only [Sample.handshake, Sample.dsa, hsig, decide_true, Bool.and_self]

theorem sampleCodec_parsePayload :
    sampleCodec.parsePayload samplePayload = some ⟨some [.rotate], 1735776000⟩ := by
  simp only [sampleCodec, if_true]

theorem sampleCodec_base64Decode :
    sampleCodec.base64Decode (base64Encode sampleSignature.toList) =
      some sampleSignature.toList := by
  simp only [sampleCodec, if_true]

/-- The sample answer is accepted as long as it is fresh. -/
theorem sampleBeat_accepted {clock : UInt64} (h : Fresh (some clock) 1735776000) :
    acceptResponse sampleCodec Sample.allSigned.toMlDsa (some Sample.clientKeys.2)
      { signedPayload := some samplePayload
        responseSignature := some (base64Encode sampleSignature.toList) } (some clock) =
      { pendingCommands := some [.rotate] } := by
  rw [acceptResponse]
  exact verifyResponse_accepted sampleCodec Sample.allSigned.toMlDsa rfl rfl
    sampleCodec_base64Decode sampleSignature_verifies sampleCodec_parsePayload h

theorem heartbeatRequest_sampleBeat (agentId : String) (rng : Rng) (clock : UInt64) :
    ∃ request rng', heartbeatRequest sampleCodec Sample.allSigned.toMlDsa sampleRunConfig agentId
      (signable (sampleBeat clock)) sampleIdentity rng = (.ok request, rng') := by
  obtain ⟨sig, rng', hsign⟩ : ∃ sig rng', sign Sample.allSigned.toMlDsa sampleIdentity.signingKey
      ((sampleCodec.heartbeatToVec (signable (sampleBeat clock))).getD []) rng =
        (.ok sig, rng') :=
    Sample.sign_succeeds (fun _ _ => true) rfl (heartbeat_fits (sampleBeat clock)) rng
  have hvec : sampleCodec.heartbeatToVec (signable (sampleBeat clock)) =
    some ((sampleCodec.heartbeatToVec (signable (sampleBeat clock))).getD []) := rfl
  rw [heartbeatRequest, hvec]
  simp only [hsign]
  exact ⟨_, _, rfl⟩

theorem heartbeat_sampleBeat (agentId : String) (s : LoopState) (clock : UInt64)
    (h : Fresh (some clock) 1735776000) :
    ∃ request, (heartbeat sampleCodec Sample.allSigned.toMlDsa sampleRunConfig sampleIdentity
      agentId (some Sample.clientKeys.2) s (sampleBeat clock)).history =
        s.history ++ [⟨some request, some samplePayload, [.rotate]⟩] := by
  obtain ⟨request, rng, hrequest⟩ := heartbeatRequest_sampleBeat agentId s.rng clock
  refine ⟨request, ?_⟩
  rw [heartbeat_answered hrequest (sampleBeat_response clock),
    show (sampleBeat clock).clock = some clock from rfl, sampleBeat_accepted h]
  rfl

/-- A bridge that registers, and has the cloud's key. -/
def sampleStart (beats : List Beat) : List Entry :=
  start sampleCodec Sample.allSigned.toMlDsa sampleRunConfig sampleIdentity
    (sampleFs (.ok Sample.clientKeys.2.toList))
    ⟨true, .answered 200 none (some registrationBody), .ofBytes []⟩ beats

theorem sampleFs_loads : loadCloudVk (sampleFs (.ok Sample.clientKeys.2.toList)) "./keys/cloud.vk" =
    .ok Sample.clientKeys.2 :=
  loadCloudVk_eq_ok.mpr rfl

theorem sampleStart_eq (beats : List Beat) : sampleStart beats =
    (beats.foldl (heartbeat sampleCodec Sample.allSigned.toMlDsa sampleRunConfig sampleIdentity
      "agent-1" (some Sample.clientKeys.2)) ⟨.ofBytes [], []⟩).history := by
  have hkey : cloudVk sampleRunConfig (sampleFs (.ok Sample.clientKeys.2.toList)) =
      some Sample.clientKeys.2 := by
    rw [cloudVk_of_path sampleRunConfig_cloudVkPath, sampleFs_loads]
    rfl
  have hregister : (tryRegister sampleCodec sampleRunConfig sampleIdentity
      (.answered 200 none (some registrationBody))).2 = some "agent-1" := by
    simp only [tryRegister, isSuccess, Option.bind_some, sample_works.registers]
    rfl
  simp only [sampleStart, start, if_true, hregister, hkey]

/-- At the first beat the payload is dispatched. -/
theorem sampleStart_cons (clock : UInt64) (h : Fresh (some clock) 1735776000)
    (beats : List Beat) :
    ∃ entries, (sampleStart (sampleBeat clock :: beats)).filterMap Entry.source =
      samplePayload :: entries := by
  obtain ⟨request, hrequest⟩ := heartbeat_sampleBeat "agent-1" ⟨.ofBytes [], []⟩ clock h
  obtain ⟨entries, hentries, -⟩ := run_produced sampleCodec Sample.allSigned.toMlDsa
    sampleRunConfig sampleIdentity "agent-1" (some Sample.clientKeys.2)
    (heartbeat sampleCodec Sample.allSigned.toMlDsa sampleRunConfig sampleIdentity "agent-1"
      (some Sample.clientKeys.2) ⟨.ofBytes [], []⟩ (sampleBeat clock)) beats
  rw [sampleStart_eq, List.foldl_cons, hentries, hrequest, List.nil_append, List.singleton_append]
  exact ⟨_, rfl⟩

/-- A payload that comes back after its window is not executed again. -/
theorem payload_dispatched_in_window_once :
    ((sampleStart [sampleBeat 1735776000, sampleBeat 1735777000]).filterMap Entry.source).Nodup ∧
    samplePayload ∈ (sampleStart [sampleBeat 1735776000, sampleBeat 1735777000]).filterMap
      Entry.source := by
  have hapart : [sampleBeat 1735776000, sampleBeat 1735777000].Pairwise (Apart sampleCodec) := by
    refine List.pairwise_pair.mpr ?_
    rintro text inner - ⟨resp, hread, htext⟩ hparse ⟨-, hfresh⟩
    rw [sampleBeat_response] at hread
    obtain rfl := Except.ok.inj hread
    obtain rfl := Option.some.inj htext
    simp only [sampleCodec, if_true, Option.some.injEq] at hparse
    obtain rfl := hparse
    exact absurd hfresh (by decide)
  refine ⟨(payload_dispatched_in_window sampleRunConfig_cloudVkPath sampleFs_loads _ _).2 hapart,
    ?_⟩
  obtain ⟨entries, hentries⟩ := sampleStart_cons 1735776000 (by decide)
    [sampleBeat 1735777000]
  rw [hentries]
  exact List.mem_cons_self

/-- **One that comes back within it is**: the same answer at two heartbeats, 30 seconds apart. -/
theorem payload_dispatched_twice :
    (sampleStart [sampleBeat 1735776000, sampleBeat 1735776030]).filterMap Entry.source =
      [samplePayload, samplePayload] := by
  obtain ⟨request, hrequest⟩ := heartbeat_sampleBeat "agent-1" ⟨.ofBytes [], []⟩
    1735776000 (by decide)
  obtain ⟨request', hrequest'⟩ := heartbeat_sampleBeat "agent-1"
    (heartbeat sampleCodec Sample.allSigned.toMlDsa sampleRunConfig sampleIdentity "agent-1"
      (some Sample.clientKeys.2) ⟨.ofBytes [], []⟩ (sampleBeat 1735776000))
    1735776030 (by decide)
  rw [sampleStart_eq, List.foldl_cons, List.foldl_cons, List.foldl_nil, hrequest', hrequest]
  rfl

end LatticeShield.ControlPlane
