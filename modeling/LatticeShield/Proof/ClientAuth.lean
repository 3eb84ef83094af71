import LatticeShield.Proof.Validate
import LatticeShield.Bridge.Server
import LatticeShield.Lib.Fallible
import LatticeShield.Proof.Handshake
import LatticeShield.Proof.KeyFiles

/-!
# Nobody reaches the backend unauthenticated

With `require_client_auth` set the guarantee passes through four places, and each of them could
lose it: validation, the loading of the client's key, the two listeners' contexts, and the
handshake with its early returns. The first three say that every session has the configured key in
its context (`start_clientVk`, `context_clientAuth`). In the fourth, the only way out of the
handshake that is not `closed` is a response that verified (`Connection.step_cases`); and a call to
the backend is made on that way or behind it.
-/

set_option autoImplicit false

namespace LatticeShield.Bridge

open Lib

/-! ## Configuration and start -/

/-- What a valid configuration says about client authentication: required without a key file is
refused, and the flag that the server reads is set exactly when both are there. -/
theorem Config.validate_auth {host : Host} {config : Config} {valid : RunConfig}
    (h : config.validate host = .ok valid) :
    (config.auth.requireClientAuth && config.auth.clientVkPath.isNone) = false ∧
    valid.clientAuthEnabled =
      (config.auth.requireClientAuth && config.auth.clientVkPath.isSome) ∧
    valid.clientVkPath = config.auth.clientVkPath := by
  obtain ⟨passed, -, carried⟩ := Config.validate_eq_ok h
  exact ⟨refuseIf_eq_ok.mp passed.auth, carried.clientAuthEnabled, carried.clientVkPath⟩

theorem start_eq_ok {env : Startup} {config : RunConfig} {server : Server}
    (h : Server.start env config = .ok server) :
    server.config = config ∧ loadClientVk env.fs config = .ok server.clientVk := by
  unfold Server.start at h
  obtain ⟨_, -, h⟩ := bind_eq_ok.mp h
  obtain ⟨_, -, h⟩ := bind_eq_ok.mp h
  obtain ⟨_, hvk, h⟩ := bind_eq_ok.mp h
  obtain ⟨_, -, h⟩ := bind_eq_ok.mp h
  obtain ⟨_, -, h⟩ := bind_eq_ok.mp h
  obtain rfl := Except.ok.inj h
  exact ⟨rfl, hvk⟩

/-- A server that was started with client authentication has the configured key. `start` fails if
the file does not load, so there is no server that checks against nothing. -/
theorem start_clientVk {host : Host} {config : Config} {env : Startup} {valid : RunConfig}
    {server : Server} (hreq : config.auth.requireClientAuth = true)
    (hvalid : config.validate host = .ok valid) (hstart : Server.start env valid = .ok server) :
    ∃ path vk, config.auth.clientVkPath = some path ∧ env.fs.read path = .ok vk.toList ∧
      server.clientVk = some vk := by
  obtain ⟨hsome, henabled, hpath⟩ := Config.validate_auth hvalid
  obtain ⟨-, hload⟩ := start_eq_ok hstart
  cases hvk : config.auth.clientVkPath with
  | none => simp [hreq, hvk] at hsome
  | some path =>
    have hon : valid.clientAuthEnabled = true := by rw [henabled, hreq, hvk]; rfl
    rw [loadClientVk, if_pos hon, hpath, hvk] at hload
    obtain ⟨path', hpath', hload⟩ := bind_eq_ok.mp hload
    obtain rfl := Except.ok.inj hpath'
    obtain ⟨vk, hfile, hload⟩ := bind_eq_ok.mp hload
    exact ⟨path, vk, rfl, loadVerifyingKey_eq_ok.mp (mapError_eq_ok.mp hfile),
      (Except.ok.inj hload).symm⟩

/-- Either listener hands it to its sessions, though each builds the context by itself. -/
theorem context_clientAuth (server : Server) (listener : Listener) :
    (server.context listener).clientAuth = server.clientVk := by
  cases listener <;> rfl

/-! ## What one connection does -/

variable {H : HandshakeSuite} {C : CipherSuite} {server : Server}

/-- The response is still to come. There is no session key yet, and nothing has been said to the
backend. -/
def Phase.early : Phase H → Bool
  | .absent => true
  | .upgrading => true
  | .entered _ => true
  | .handshake _ _ => true
  | .connecting _ => false
  | .relaying _ => false
  | .closed => false

/-- The handshake has been completed. -/
def Phase.passed : Phase H → Bool
  | .connecting _ => true
  | .relaying _ => true
  | _ => false

theorem passed_afterRelay {relay : Relay} : (afterRelay relay : Phase H).early = false := by
  unfold afterRelay
  split <;> rfl

namespace Connection

/-- A step that is not about the handshake: the history stays, and nothing is gained. The
connection is not earlier than it was, waits with no other handshake, has passed only if it had,
and calls the backend only then. -/
structure Plain (c c' : Connection H) (calls : List BackendCall) : Prop where
  hello : c'.hello = c.hello
  response : c'.response = c.response
  early : c'.phase.early = true → c.phase.early = true
  handshake : ∀ listener hs, c'.phase = .handshake listener hs → c.phase = .handshake listener hs
  passed : c'.phase.passed = true → c.phase.passed = true
  calls : calls ≠ [] → c.phase.passed = true

theorem Plain.same (c : Connection H) : Plain c c [] :=
  ⟨rfl, rfl, id, fun _ _ h => h, id, fun h => absurd rfl h⟩

theorem Plain.close (c : Connection H) : Plain c (c.goto .closed) [] :=
  ⟨rfl, rfl, by simp [goto, Phase.early], by simp [goto], by simp [goto, Phase.passed], by simp⟩

/-- Before the response the phases follow each other, and none of these steps calls the backend. -/
theorem Plain.early_of {c : Connection H} (hearly : c.phase.early = true) {p : Phase H}
    (hpassed : p.passed = false) (hhs : ∀ listener hs, p ≠ .handshake listener hs) :
    Plain c (c.goto p) [] :=
  ⟨rfl, rfl, fun _ => hearly, fun listener hs h => absurd h (hhs listener hs),
    fun h => absurd (hpassed.symm.trans h) (by simp), by simp⟩

theorem Plain.relay {c : Connection H} {relay : Relay} (hp : c.phase = .relaying relay)
    (relay' : Relay) (inbox : Bytes) (calls : List BackendCall) :
    Plain c { c.goto (afterRelay relay') with inbox } calls where
  hello := rfl
  response := rfl
  early := fun h => absurd (passed_afterRelay.symm.trans h) (by simp)
  handshake := fun listener hs h => by
    unfold goto afterRelay at h
    dsimp only at h
    split at h <;> exact absurd h (by simp)
  passed := fun _ => by rw [hp]; rfl
  calls := fun _ => by rw [hp]; rfl

/-! ### Event by event

Only two of the events are about the handshake, and each of those in one phase. -/

section Events

variable (C server)

theorem plain_accept (c : Connection H) (listener : Listener) :
    Plain c (c.step C server (.accept listener)).1 (c.step C server (.accept listener)).2 := by
  cases listener with
  | pqc =>
    cases hp : c.phase with
    | absent => unfold step; simp only [hp]; exact .early_of (by rw [hp]; rfl) rfl (by simp)
    | _ => unfold step; simp only [hp]; exact .same c
  | ws =>
    cases hp : c.phase with
    | absent =>
      unfold step
      simp only [hp]
      split
      · exact .early_of (by rw [hp]; rfl) rfl (by simp)
      · exact .same c
    | _ => unfold step; simp only [hp]; exact .same c

theorem plain_upgraded (c : Connection H) (ok : Bool) :
    Plain c (c.step C server (.upgraded ok)).1 (c.step C server (.upgraded ok)).2 := by
  cases hp : c.phase with
  | upgrading =>
    unfold step
    simp only [hp]
    cases ok with
    | true => exact .early_of (by rw [hp]; rfl) rfl (by simp)
    | false => exact .close c
  | _ => unfold step; simp only [hp]; exact .same c

theorem plain_timeout (c : Connection H) :
    Plain c (c.step C server .timeout).1 (c.step C server .timeout).2 := by
  cases hp : c.phase with
  | entered listener => unfold step; simp only [hp]; exact .close c
  | handshake listener hs => unfold step; simp only [hp]; exact .close c
  | _ => unfold step; simp only [hp]; exact .same c

theorem plain_readFailed (c : Connection H) :
    Plain c (c.step C server .readFailed).1 (c.step C server .readFailed).2 := by
  cases hp : c.phase with
  | handshake listener hs => unfold step; simp only [hp]; exact .close c
  | relaying relay => unfold step; simp only [hp]; exact .relay hp relay.receiveEof.1 c.inbox []
  | _ => unfold step; simp only [hp]; exact .same c

theorem plain_connected (c : Connection H) (ok : Bool) :
    Plain c (c.step C server (.connected ok)).1 (c.step C server (.connected ok)).2 := by
  cases hp : c.phase with
  | connecting sessionKey =>
    unfold step
    simp only [hp]
    cases ok with
    | true =>
      exact ⟨rfl, rfl, by simp [goto, Phase.early], by simp [goto], by simp [hp, Phase.passed],
        by simp⟩
    | false => exact .close c
  | _ => unfold step; simp only [hp]; exact .same c

theorem plain_frameByte (c : Connection H) (takes : Bool) :
    Plain c (c.step C server (.frameByte takes)).1 (c.step C server (.frameByte takes)).2 := by
  cases hp : c.phase with
  | relaying relay =>
    unfold step
    simp only [hp]
    split
    · exact .same c
    · exact .relay hp _ _ _
  | _ => unfold step; simp only [hp]; exact .same c

theorem plain_arm (c : Connection H) (arm : Arm) (env : Env) :
    Plain c (c.step C server (.arm arm env)).1 (c.step C server (.arm arm env)).2 := by
  cases hp : c.phase with
  | relaying relay => unfold step; simp only [hp]; exact .relay hp _ c.inbox []
  | _ => unfold step; simp only [hp]; exact .same c

/-- The hello goes out, and the connection waits with the handshake it was made for. If it cannot
be written the connection is closed. -/
theorem step_hello (c : Connection H) (rng : Rng) (sent : Bool) :
    Plain c (c.step C server (.hello rng sent)).1 (c.step C server (.hello rng sent)).2 ∨
    ∃ listener hs, c.phase = .entered listener ∧ (c.step C server (.hello rng sent)).2 = [] ∧
      (c.step C server (.hello rng sent)).1 =
        { c.goto (.handshake listener hs) with hello := some hs.serverHelloBytes } := by
  cases hp : c.phase with
  | entered listener =>
    unfold step
    simp only [hp]
    split
    · exact Or.inl (.close c)
    · split
      · exact Or.inr ⟨listener, _, rfl, rfl, rfl⟩
      · exact Or.inl (.close c)
  | _ => unfold step; simp only [hp]; exact Or.inl (.same c)

/-- The response has arrived, and the session goes on with its key or ends. This is the one step
in which the backend is called for the first time. -/
theorem step_readResponse (c : Connection H) :
    Plain c (c.step C server .readResponse).1 (c.step C server .readResponse).2 ∨
    ∃ listener hs response result, c.phase = .handshake listener hs ∧
      respond (server.context listener).clientAuth hs c.inbox = some (response, result) ∧
      (c.step C server .readResponse).1.hello = c.hello ∧
      (c.step C server .readResponse).1.response = response ∧
      (((c.step C server .readResponse).1.phase = .closed ∧
          (c.step C server .readResponse).2 = []) ∨
        ∃ key, result = .ok key ∧ (c.step C server .readResponse).1.phase = .connecting key) := by
  cases hp : c.phase with
  | handshake listener hs =>
    unfold step
    simp only [hp]
    split
    · exact Or.inl (.same c)
    · rename_i response result hrespond
      refine Or.inr ⟨listener, hs, response, result, rfl, hrespond, ?_⟩
      cases result with
      | error e => exact ⟨rfl, rfl, Or.inl ⟨rfl, rfl⟩⟩
      | ok key => exact ⟨rfl, rfl, Or.inr ⟨key, rfl, rfl⟩⟩
  | _ => unfold step; simp only [hp]; exact Or.inl (.same c)

/-- **What a step can do**: nothing for the handshake, send the hello, or read the response. The
other events, of which there are many more, are all `Plain`; so each invariant of a connection has
three cases. -/
theorem step_cases (c : Connection H) (event : Event) :
    Plain c (c.step C server event).1 (c.step C server event).2 ∨
    (∃ listener hs, c.phase = .entered listener ∧ (c.step C server event).2 = [] ∧
      (c.step C server event).1 =
        { c.goto (.handshake listener hs) with hello := some hs.serverHelloBytes }) ∨
    (∃ listener hs response result, c.phase = .handshake listener hs ∧
      respond (server.context listener).clientAuth hs c.inbox = some (response, result) ∧
      (c.step C server event).1.hello = c.hello ∧
      (c.step C server event).1.response = response ∧
      (((c.step C server event).1.phase = .closed ∧ (c.step C server event).2 = []) ∨
        ∃ key, result = .ok key ∧ (c.step C server event).1.phase = .connecting key)) := by
  cases event with
  | accept listener => exact Or.inl (plain_accept C server c listener)
  | upgraded ok => exact Or.inl (plain_upgraded C server c ok)
  | hello rng sent =>
    rcases step_hello C server c rng sent with hplain | hhello
    · exact Or.inl hplain
    · exact Or.inr (Or.inl hhello)
  | arrive bytes =>
    simp only [step]
    exact Or.inl ⟨rfl, rfl, id, fun _ _ h => h, id, by simp⟩
  | readResponse =>
    rcases step_readResponse C server c with hplain | hresponse
    · exact Or.inl hplain
    · exact Or.inr (Or.inr hresponse)
  | timeout => exact Or.inl (plain_timeout C server c)
  | readFailed => exact Or.inl (plain_readFailed C server c)
  | connected ok => exact Or.inl (plain_connected C server c ok)
  | frameByte takes => exact Or.inl (plain_frameByte C server c takes)
  | arm arm env => exact Or.inl (plain_arm C server c arm env)

end Events

/-- The peer presented a response signed, over this connection's own hello, with the key of `vk`.
The hello is the one recorded when it went out, and the signature is looked up in the log of an
ideal scheme. -/
def Presented (log : Set MlDsa.Signed) (vk : VerifyingKey) (c : Connection H) : Prop :=
  ∃ (hello : ByteArr serverHelloLen) (cr : ByteArr clientResponseLen) (sig : Signature),
    c.hello = some hello ∧ c.response = cr.toList ++ sig.toList ∧
    H.verify vk (cr.toList ++ hello.toList) signingContext sig = true ∧
    ⟨vk, cr.toList ++ hello.toList⟩ ∈ log

/-- A connection whose handshake checks responses against `vk`: it has passed only if it has
presented one, and the handshake it waits with is the one of its hello. -/
structure Checked (log : Set MlDsa.Signed) (vk : VerifyingKey) (c : Connection H) : Prop where
  early : c.phase.early = true → c.response = []
  handshake : ∀ listener hs, c.phase = .handshake listener hs → c.hello = some hs.serverHelloBytes
  passed : c.phase.passed = true → c.Presented log vk

variable {log : Set MlDsa.Signed} {vk : VerifyingKey}

theorem Checked.new : Checked log vk (.new : Connection H) :=
  ⟨fun _ => rfl, by simp [Connection.new], by simp [Connection.new, Phase.passed]⟩

/-- An early connection has presented nothing: its response is empty, and no signed response is. -/
theorem Checked.not_presented {c : Connection H} (h : Checked log vk c)
    (hearly : c.phase.early = true) : ¬ c.Presented log vk := by
  rintro ⟨hello, cr, sig, -, hresponse, -⟩
  rw [h.early hearly] at hresponse
  have hlen := congrArg List.length hresponse
  simp at hlen

theorem presented_of_respond (hideal : H.Ideal log) {hs : ServerHandshake H}
    {inbox response : Bytes} {key : Key}
    (h : respond (some vk) hs inbox = some (response, .ok key)) {c : Connection H}
    (hhello : c.hello = some hs.serverHelloBytes) (hresponse : c.response = response) :
    c.Presented log vk := by
  obtain ⟨buf, -, hbuf⟩ := Option.map_eq_some_iff.mp h
  obtain ⟨rfl, hcomplete⟩ := Prod.mk.inj hbuf
  have hverify := completeFromWireSigned_eq_ok hcomplete
  refine ⟨hs.serverHelloBytes, buf.slice 0 clientResponseLen,
    buf.slice clientResponseLen signatureLen, hhello, ?_, hverify, hideal.signed _ _ _ hverify⟩
  rw [hresponse]
  exact ByteArr.toList_eq_slices buf

/-- **One step of one connection**: it stays checked, what it has presented stays presented, and
it calls the backend only when it has. -/
theorem Checked.step (hideal : H.Ideal log) (hvk : server.clientVk = some vk) {c : Connection H}
    (h : Checked log vk c) (event : Event) :
    Checked log vk (c.step C server event).1 ∧
    (c.Presented log vk → (c.step C server event).1.Presented log vk) ∧
    ((c.step C server event).2 ≠ [] → (c.step C server event).1.Presented log vk) := by
  -- a step that leaves the handshake alone, the one that sends the hello, or the one that answers
  -- it
  rcases step_cases C server c event with hplain |
    ⟨listener, hs, hp, hcalls, heq⟩ | ⟨listener, hs, response, result, hp, hrespond, hhello,
      hresponse, hend⟩
  · have hkeep : c.Presented log vk → (c.step C server event).1.Presented log vk := by
      unfold Presented
      rw [hplain.hello, hplain.response]
      exact id
    refine ⟨⟨?_, ?_, ?_⟩, hkeep, fun hcalls => hkeep (h.passed (hplain.calls hcalls))⟩
    · intro hearly
      rw [hplain.response]
      exact h.early (hplain.early hearly)
    · intro listener hs hp
      rw [hplain.hello]
      exact h.handshake listener hs (hplain.handshake listener hs hp)
    · intro hpassed
      exact hkeep (h.passed (hplain.passed hpassed))
  · have hearly : c.phase.early = true := by rw [hp]; rfl
    rw [heq, hcalls]
    refine ⟨⟨fun _ => h.early hearly, ?_, by simp [goto, Phase.passed]⟩,
      fun hpres => absurd hpres (h.not_presented hearly), fun hne => absurd rfl hne⟩
    intro listener' hs' hp'
    obtain ⟨-, rfl⟩ := Phase.handshake.inj hp'
    rfl
  · have hearly : c.phase.early = true := by rw [hp]; rfl
    rw [context_clientAuth, hvk] at hrespond
    have hnot := h.not_presented hearly
    -- the answer is refused and the connection closed, or its signature was verified
    rcases hend with ⟨hclosed, hcalls⟩ | ⟨key, rfl, hconnecting⟩
    · refine ⟨⟨?_, ?_, ?_⟩, fun hpres => absurd hpres hnot, fun hne => absurd hcalls hne⟩
      · simp [hclosed, Phase.early]
      · simp [hclosed]
      · simp [hclosed, Phase.passed]
    · have hpres : (c.step C server event).1.Presented log vk :=
        presented_of_respond hideal hrespond (hhello.trans (h.handshake listener hs hp)) hresponse
      refine ⟨⟨?_, ?_, fun _ => hpres⟩, fun _ => hpres, fun _ => hpres⟩
      · simp [hconnecting, Phase.early]
      · simp [hconnecting]

end Connection

/-! ## Every run -/

structure State.Inv (log : Set MlDsa.Signed) (vk : VerifyingKey) (s : State H) : Prop where
  checked : ∀ i, (s.conns i).Checked log vk
  presented : ∀ i call, (i, call) ∈ s.calls → (s.conns i).Presented log vk

theorem State.Inv.step {log : Set MlDsa.Signed} {vk : VerifyingKey} (hideal : H.Ideal log)
    (hvk : server.clientVk = some vk) {s : State H} (h : s.Inv log vk) (ie : Nat × Event) :
    (s.step C server ie).Inv log vk := by
  obtain ⟨i, event⟩ := ie
  obtain ⟨hchecked, hkeep, hcalls⟩ := (h.checked i).step (C := C) hideal hvk event
  have hself : (s.step C server (i, event)).conns i = ((s.conns i).step C server event).1 :=
    Function.update_self ..
  have hother : ∀ j, j ≠ i → (s.step C server (i, event)).conns j = s.conns j :=
    fun j hj => Function.update_of_ne hj ..
  refine ⟨?_, ?_⟩
  · intro j
    by_cases hj : j = i
    · rw [hj, hself]
      exact hchecked
    · rw [hother j hj]
      exact h.checked j
  · intro j call hcall
    rcases List.mem_append.mp hcall with hold | hnew
    · by_cases hj : j = i
      · rw [hj, hself]
        exact hkeep (hj ▸ h.presented j call hold)
      · rw [hother j hj]
        exact h.presented j call hold
    · -- a new call is this connection's
      obtain ⟨call', hmem, heq⟩ := List.mem_map.mp hnew
      obtain ⟨rfl, rfl⟩ := Prod.mk.inj heq
      rw [hself]
      exact hcalls (List.ne_nil_of_mem hmem)

theorem State.inv_run {log : Set MlDsa.Signed} {vk : VerifyingKey} (hideal : H.Ideal log)
    (hvk : server.clientVk = some vk) (events : List (Nat × Event)) :
    (State.run C server events : State H).Inv log vk := by
  induction events using List.reverseRecOn with
  | nil => exact ⟨fun _ => .new, fun _ _ h => absurd h (by simp [State.run, State.new])⟩
  | append_singleton events ie ih =>
    rw [State.run, List.foldl_append]
    exact ih.step hideal hvk ie

/-- **Client authentication cannot be bypassed.** With `require_client_auth` set, the bridge does
not start; or it starts with the key that is in the file `client_vk_path`, and then in every run a
connection for which the backend was connected to or written to, on whichever listener it was
accepted, has presented a response to its own hello signed with that key. -/
theorem client_auth_enforced (C : CipherSuite) {log : Set MlDsa.Signed} (hideal : H.Ideal log)
    (host : Host) (config : Config) (hreq : config.auth.requireClientAuth = true)
    (env : Startup) :
    (∃ e, config.validate host = .error e) ∨
    ∃ valid, config.validate host = .ok valid ∧
      ((∃ e, Server.start env valid = .error e) ∨
        ∃ server path vk, Server.start env valid = .ok server ∧
          config.auth.clientVkPath = some path ∧ env.fs.read path = .ok vk.toList ∧
          ∀ events i call, (i, call) ∈ (State.run C server events : State H).calls →
            ((State.run C server events : State H).conns i).Presented log vk) := by
  cases hvalid : config.validate host with
  | error e => exact Or.inl ⟨e, rfl⟩
  | ok valid =>
    refine Or.inr ⟨valid, rfl, ?_⟩
    cases hstart : Server.start env valid with
    | error e => exact Or.inl ⟨e, rfl⟩
    | ok server =>
      obtain ⟨path, vk, hpath, hfile, hvk⟩ := start_clientVk hreq hvalid hstart
      refine Or.inr ⟨server, path, vk, rfl, hpath, hfile, ?_⟩
      intro events i call hcall
      exact (State.inv_run hideal hvk events).presented i call hcall

/-! ## A client that authenticates -/

def sampleConfig : Config := { auth := { clientVkPath := some "./keys/client.vk" } }

def sampleStartup : Startup where
  fs := {
    mode := fun _ => .ok 0o100600
    read := fun path =>
      if path = "./keys/server.sk" then .ok Sample.serverKeys.1.toList
      else if path = "./keys/server.vk" then .ok Sample.serverKeys.2.toList
      else if path = "./keys/client.vk" then .ok Sample.clientKeys.2.toList
      else .error "No such file or directory (os error 2)" }
  metricsInit := .ok ()
  tlsAcceptor := .error "not used"

theorem sample_identity : ServerIdentity.load sampleStartup.fs (skPathIn "./keys") =
    .ok ⟨Sample.serverKeys.1, Sample.serverKeys.2⟩ := by
  refine KeyDir.load_iff.mpr ⟨0o100600, _, _, rfl, rfl, rfl, rfl, ?_, ?_, ?_, ?_⟩
  · exact Nat.le_of_eq Sample.serverKeys.1.toList_length.symm
  · exact Nat.le_of_eq Sample.serverKeys.2.toList_length.symm
  · exact List.take_of_length_le (Nat.le_of_eq Sample.serverKeys.1.toList_length)
  · exact List.take_of_length_le (Nat.le_of_eq Sample.serverKeys.2.toList_length)

/-- The sample bridge starts with the key of the sample client. It is the configuration that is
evaluated; what is in the files is loaded by `KeyDir.load_iff` and `loadVerifyingKey_eq_ok`. -/
theorem sample_starts : ∃ valid server, sampleConfig.validate sampleHost = .ok valid ∧
    Server.start sampleStartup valid = .ok server ∧
    server.clientVk = some Sample.clientKeys.2 := by
  have hfields : (sampleConfig.validate sampleHost).toOption.map (fun valid =>
      (valid.signingKeyPath, valid.clientAuthEnabled, valid.clientVkPath, valid.tlsEnabled,
        valid.adminEnabled)) =
      some (skPathIn "./keys", true, some "./keys/client.vk", false, false) := by
    decide +kernel
  obtain ⟨valid, hvalid, hfields⟩ := Option.map_eq_some_iff.mp hfields
  simp only [Prod.mk.injEq] at hfields
  obtain ⟨hsk, hauth, hpath, htls, hadmin⟩ := hfields
  have hread : sampleStartup.fs.read "./keys/client.vk" = .ok Sample.clientKeys.2.toList := rfl
  have hclient : loadClientVk sampleStartup.fs valid = .ok (some Sample.clientKeys.2) := by
    rw [loadClientVk, if_pos hauth, hpath]
    refine bind_eq_ok.mpr ⟨_, rfl, bind_eq_ok.mpr ⟨Sample.clientKeys.2, ?_, rfl⟩⟩
    exact mapError_eq_ok.mpr (loadVerifyingKey_eq_ok.mpr hread)
  refine ⟨valid, ⟨valid, ⟨Sample.serverKeys.1, Sample.serverKeys.2⟩, some Sample.clientKeys.2⟩,
    ?_, ?_, rfl⟩
  · cases hv : sampleConfig.validate sampleHost with
    | error e =>
      rw [hv] at hvalid
      cases hvalid
    | ok valid' =>
      rw [hv] at hvalid
      exact congrArg Except.ok (Option.some.inj hvalid)
  · unfold Server.start
    refine bind_eq_ok.mpr ⟨(), rfl, bind_eq_ok.mpr
      ⟨⟨Sample.serverKeys.1, Sample.serverKeys.2⟩, ?_, bind_eq_ok.mpr ⟨_, hclient, ?_⟩⟩⟩
    · rw [hsk]
      exact mapError_eq_ok.mpr sample_identity
    · rw [checkTlsAcceptor, htls, loadAdminVk, hadmin]
      rfl

/-- The backend is connected to for a client that answers with its key, by the run of a TCP
connection from its accept to the connect. -/
theorem exists_connect (server : Server) (hvk : server.clientVk = some Sample.clientKeys.2) :
    ∃ events, (0, .connect) ∈
      (State.run Sample.suite server events : State Sample.allSigned).calls := by
  obtain ⟨_, _, hhello⟩ := Sample.serverHelloSignedBytes_succeeds (fun _ _ => true)
    (ServerHandshake.new (Sample.rng 3)).1 server.identity.signingKey rfl
    (ServerHandshake.new (H := Sample.allSigned) (Sample.rng 3)).2
  obtain ⟨signed, key, hcomplete⟩ := Sample.exists_response (Sample.rng 3)
  have hrespond : respond (some Sample.clientKeys.2)
      (ServerHandshake.new (H := Sample.allSigned) (Sample.rng 3)).1 signed.toList =
        some (signed.toList, .ok key) := by
    have htake : signed.toList.take clientResponseSignedLen = signed.toList :=
      List.take_of_length_le signed.toList_length.le
    rw [respond, htake, ByteArr.tryInto_toList, Option.map_some, hcomplete]
  refine ⟨[(0, .accept .pqc), (0, .hello (Sample.rng 3) true), (0, .arrive signed.toList),
    (0, .readResponse)], ?_⟩
  simp only [State.run, List.foldl_cons, List.foldl_nil, State.step, State.new,
    Function.update_self, Connection.new, Connection.step, Connection.goto, Server.context, hhello,
    if_true, hvk, hrespond, List.map_cons, List.map_nil, List.nil_append, List.mem_singleton]

/-- The sample bridge starts, and its client gets through. -/
theorem client_auth_enforced_sample :
    ∃ server events, (∃ valid, sampleConfig.validate sampleHost = .ok valid ∧
        Server.start sampleStartup valid = .ok server) ∧
      (0, .connect) ∈ (State.run Sample.suite server events : State Sample.allSigned).calls ∧
      ((State.run Sample.suite server events : State Sample.allSigned).conns 0).Presented
        Set.univ Sample.clientKeys.2 := by
  have hideal : Sample.allSigned.Ideal Set.univ :=
    ⟨fun _ _ _ _ => trivial, (Sample.dsa_ideal fun _ _ => true).bound⟩
  obtain ⟨valid, server, hvalid, hstart, hvk⟩ := sample_starts
  obtain ⟨events, hconnect⟩ := exists_connect server hvk
  rcases client_auth_enforced Sample.suite hideal sampleHost sampleConfig rfl sampleStartup with
    ⟨e, herr⟩ | ⟨valid', hvalid', ⟨e, herr⟩ | ⟨server', path, vk, hstart', hpath, hfile, hall⟩⟩
  · exact absurd (hvalid.symm.trans herr) (by simp)
  · obtain rfl := Except.ok.inj (hvalid.symm.trans hvalid')
    exact absurd (hstart.symm.trans herr) (by simp)
  · obtain rfl := Except.ok.inj (hvalid.symm.trans hvalid')
    obtain rfl := Except.ok.inj (hstart.symm.trans hstart')
    obtain rfl := Option.some.inj hpath
    have hread : sampleStartup.fs.read "./keys/client.vk" = .ok Sample.clientKeys.2.toList := rfl
    obtain rfl := ByteArr.toList_inj.mp (Except.ok.inj (hfile.symm.trans hread))
    exact ⟨server, events, ⟨valid, hvalid, hstart⟩, hconnect, hall events 0 .connect hconnect⟩

end LatticeShield.Bridge
