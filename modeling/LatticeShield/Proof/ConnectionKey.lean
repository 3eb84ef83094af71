import LatticeShield.Proof.ClientAuth
import LatticeShield.Proof.KeyUsage

/-!
# The key of a connection of the bridge

A connection that has sent its hello waits for a response to it. What it reads either completes
the handshake it has made for that hello, or closes the connection; a completed handshake makes
one session key, and from then on the relay's key is that key or what rotations have made of it.
Nothing leads back: a connection sends one hello, reads one response and passes once. So what a
connection does with a response is decided by the handshake it had when it sent its hello
(`Behind.step`), however long ago that was and whatever else has happened.
-/

set_option autoImplicit false

namespace LatticeShield

open Lib EncryptedChannel Session

namespace Bridge

/-! ## The key of a relay -/

section Relay

variable (C : CipherSuite) (cfg : ValidConfig) (r : Relay)

theorem Relay.select_key (w : Writer) (arm : Arm) :
    (r.select C cfg w arm).relay.channel.keyBytes = r.channel.keyBytes := by
  have hwrite : ∀ data, (writeFrame C r.channel w data).channel.keyBytes = r.channel.keyBytes := by
    intro data
    rw [writeFrame_channel]
    split <;> rfl
  cases arm with
  | backend read =>
    unfold Relay.select Relay.onBackend
    dsimp only
    split
    · rfl
    · split
      · exact hwrite _
      · exact hwrite _
    · rfl
  | timer => rfl
  | manual alive => rfl

/-- A rotation that fails leaves the key as it is, and one that succeeds names the nonce that it
was made with; so a run of a relay is a list of names. -/
theorem Relay.rotate_key (env : Env) :
    ∃ name, (r.rotate C env).1.channel.keyBytes = rotateAll C r.channel.keyBytes name := by
  have hsent : (sendKeyRotate C r.channel env.rotateWriter env.gcmNonce env.nonce).channel.keyBytes =
      r.channel.keyBytes := by
    rw [sendKeyRotate_channel]
    split <;> rfl
  unfold Relay.rotate doRotate
  dsimp only
  cases hresult : (sendKeyRotate C r.channel env.rotateWriter env.gcmNonce env.nonce).result with
  | ok u =>
    refine ⟨[env.nonce], ?_⟩
    simp only [rotateKey, hsent]
    rfl
  | error e =>
    refine ⟨[], ?_⟩
    simp only [Relay.finish]
    exact hsent

theorem Relay.iterate_key (arm : Arm) (env : Env) :
    ∃ name, (r.iterate C cfg arm env).1.channel.keyBytes = rotateAll C r.channel.keyBytes name := by
  unfold Relay.iterate
  split
  · dsimp only
    split
    · obtain ⟨name, hname⟩ := Relay.rotate_key C (r.select C cfg env.dataWriter arm).relay env
      rw [Relay.select_key] at hname
      exact ⟨name, hname⟩
    · exact ⟨[], Relay.select_key C cfg r env.dataWriter arm⟩
  · exact ⟨[], rfl⟩

end Relay

/-! ## The key of a connection -/

variable {H : HandshakeSuite} {C : CipherSuite} {server : Server}

/-- The connection runs on `key`, or on what `key` has been rotated to. Of a connection that has
no session nothing is said. -/
def Phase.KeyFrom (C : CipherSuite) (key : Key) : Phase H → Prop
  | .connecting sessionKey => sessionKey = key
  | .relaying relay => ∃ name, relay.channel.keyBytes = rotateAll C key name
  | _ => True

theorem afterRelay_cases (relay : Relay) :
    (afterRelay relay : Phase H) = .closed ∨ (afterRelay relay : Phase H) = .relaying relay := by
  unfold afterRelay
  split
  · exact Or.inl rfl
  · exact Or.inr rfl

namespace Connection

/-- A relay that moves ends, or goes on with what its key has been rotated to. So every key of a
connection comes of its session key by rotations. -/
theorem step_relaying (C : CipherSuite) (server : Server) {c : Connection H} {relay : Relay}
    (hp : c.phase = .relaying relay) (event : Event) : (c.step C server event).1.phase = .closed ∨
      ∃ relay' more, (c.step C server event).1.phase = .relaying relay' ∧
        relay'.channel.keyBytes = rotateAll C relay.channel.keyBytes more := by
  have hsame : c.phase = .closed ∨ ∃ relay' more, c.phase = .relaying relay' ∧
      relay'.channel.keyBytes = rotateAll C relay.channel.keyBytes more :=
    Or.inr ⟨relay, [], hp, rfl⟩
  have hafter : ∀ relay' : Relay,
      (∃ more, relay'.channel.keyBytes = rotateAll C relay.channel.keyBytes more) →
      (afterRelay relay' : Phase H) = .closed ∨ ∃ relay'' more,
        (afterRelay relay' : Phase H) = .relaying relay'' ∧
        relay''.channel.keyBytes = rotateAll C relay.channel.keyBytes more := by
    rintro relay' ⟨more, hmore⟩
    rcases afterRelay_cases (H := H) relay' with hclosed | hrelaying
    · exact Or.inl hclosed
    · exact Or.inr ⟨relay', more, hrelaying, hmore⟩
  cases event with
  | accept listener => cases listener <;> simpa only [step, hp] using hsame
  | readFailed =>
    simp only [step, hp, goto]
    exact hafter relay.receiveEof.1 ⟨[], rfl⟩
  | frameByte takes =>
    simp only [step, hp]
    split
    · exact hsame
    · refine hafter _ ⟨[], ?_⟩
      rw [(bridge_receive_sending_half C relay _ takes).1]
      rfl
  | arm arm env =>
    simp only [step, hp]
    exact hafter _ (Relay.iterate_key C server.config.toValidConfig relay arm env)
  | _ => simpa only [step, hp] using hsame

theorem step_keyFrom_relaying {c : Connection H} {relay : Relay} (hp : c.phase = .relaying relay)
    {key : Key} (h : ∃ name, relay.channel.keyBytes = rotateAll C key name) (event : Event) :
    (c.step C server event).1.phase.KeyFrom C key := by
  obtain ⟨name, hname⟩ := h
  rcases step_relaying C server hp event with hclosed |
    ⟨relay', more, hrelaying, hmore⟩
  · rw [hclosed]
    trivial
  · rw [hrelaying]
    exact ⟨name ++ more, by rw [hmore, hname, rotateAll_append]⟩

theorem step_keyFrom_connecting {c : Connection H} {key : Key} (hp : c.phase = .connecting key)
    (event : Event) : (c.step C server event).1.phase.KeyFrom C key := by
  have hsame : c.phase.KeyFrom C key := by rw [hp]; exact rfl
  cases event with
  | accept listener => cases listener <;> simpa only [step, hp] using hsame
  | connected ok =>
    simp only [step, hp, goto]
    cases ok with
    | true => exact ⟨[], rfl⟩
    | false => trivial
  | _ => simpa only [step, hp] using hsame

/-- Behind its handshake a connection keeps to the key it made: to the key itself until it has
reached the backend, and then to what the relay's rotations make of it. -/
theorem step_keyFrom {c : Connection H} (hpassed : c.phase.passed = true) {key : Key}
    (h : c.phase.KeyFrom C key) (event : Event) :
    (c.step C server event).1.phase.KeyFrom C key := by
  cases hp : c.phase with
  | connecting sessionKey =>
    rw [hp] at h
    obtain rfl : sessionKey = key := h
    exact step_keyFrom_connecting hp event
  | relaying relay =>
    rw [hp] at h
    exact step_keyFrom_relaying hp h event
  | _ => simp [hp, Phase.passed] at hpassed

/-- A handshake is made from random bytes, when the hello is sent. -/
theorem step_hello_new {c : Connection H} {listener : Listener} (hp : c.phase = .entered listener)
    {event : Event} {listener' : Listener} {hs : ServerHandshake H}
    (h : (c.step C server event).1.phase = .handshake listener' hs) :
    ∃ rng, hs = (ServerHandshake.new (H := H) rng).1 := by
  cases event with
  | accept l => cases l <;> simp [step, hp] at h
  | hello rng sent =>
    simp only [step, hp] at h
    split at h
    · exact absurd h (by simp [goto])
    · split at h
      · exact ⟨rng, (Phase.handshake.inj h).2.symm⟩
      · exact absurd h (by simp [goto])
  | timeout => simp [step, hp, goto] at h
  | _ => simp [step, hp] at h

/-! ## The way of a connection -/

theorem late_cases {p : Phase H} (h : p.early = false) : p.passed = true ∨ p = .closed := by
  cases p with
  | connecting sessionKey => exact Or.inl rfl
  | relaying relay => exact Or.inl rfl
  | closed => exact Or.inr rfl
  | _ => cases h

theorem early_of_passed {p : Phase H} (h : p.passed = true) : p.early = false := by
  cases p with
  | connecting sessionKey => rfl
  | relaying relay => rfl
  | _ => cases h

/-- Behind its handshake nothing a connection does is about the handshake. The two steps that are,
by `step_cases`, are those of a connection that has still to be greeted or to answer. -/
theorem plain_of_late (C : CipherSuite) (server : Server) {c : Connection H}
    (h : c.phase.early = false) (event : Event) :
    Plain c (c.step C server event).1 (c.step C server event).2 := by
  rcases step_cases C server c event with hplain | ⟨listener, hs, hp, -⟩ |
    ⟨listener, hs, response, result, hp, -⟩
  · exact hplain
  · rw [hp] at h
    cases h
  · rw [hp] at h
    cases h

/-- There is no way back in front of it. -/
theorem late_of_late (C : CipherSuite) (server : Server) {c : Connection H}
    (h : c.phase.early = false) (event : Event) :
    (c.step C server event).1.phase.early = false := by
  cases hearly : (c.step C server event).1.phase.early with
  | false => rfl
  | true =>
    rw [(plain_of_late C server h event).early hearly] at h
    cases h

theorem closed_of_closed (C : CipherSuite) (server : Server) {c : Connection H}
    (h : c.phase = .closed) (event : Event) : (c.step C server event).1.phase = .closed := by
  have hlate : c.phase.early = false := by
    rw [h]
    rfl
  rcases late_cases (late_of_late C server hlate event) with hpassed | hclosed
  · have hbefore := (plain_of_late C server hlate event).passed hpassed
    rw [h] at hbefore
    cases hbefore
  · exact hclosed

/-- A connection that waits for a response goes on waiting, ends, or passes with the key that its
own handshake makes of what it has read. -/
theorem step_handshake (C : CipherSuite) (server : Server) {c : Connection H} {listener : Listener}
    {hs : ServerHandshake H} (hp : c.phase = .handshake listener hs) (event : Event) :
    (c.step C server event).1.phase = .handshake listener hs ∨
    (c.step C server event).1.phase = .closed ∨
    ∃ response key,
      respond (server.context listener).clientAuth hs c.inbox = some (response, .ok key) ∧
      (c.step C server event).1.response = response ∧
      (c.step C server event).1.phase = .connecting key := by
  cases event with
  | accept l => cases l <;> exact Or.inl (by simp only [step, hp])
  | readResponse =>
    simp only [step, hp]
    split
    · exact Or.inl hp
    · rename_i response result hrespond
      cases result with
      | error e => exact Or.inr (Or.inl rfl)
      | ok key => exact Or.inr (Or.inr ⟨response, key, hrespond, rfl, rfl⟩)
  | timeout => exact Or.inr (Or.inl (by simp only [step, hp, goto]))
  | readFailed => exact Or.inr (Or.inl (by simp only [step, hp, goto]))
  | _ => exact Or.inl (by simp only [step, hp])

/-- Signed or not, a response completes a handshake by its key exchange values, which it begins
with. -/
theorem respond_eq_ok {auth : Option VerifyingKey} {hs : ServerHandshake H}
    {inbox response : Bytes} {key : Key} (h : respond auth hs inbox = some (response, .ok key)) :
    ∃ cr : ByteArr clientResponseLen, response.take clientResponseLen = cr.toList ∧
      hs.completeFromWire cr = .ok key := by
  cases auth with
  | none =>
    obtain ⟨buf, -, hbuf⟩ := Option.map_eq_some_iff.mp h
    obtain ⟨rfl, hcomplete⟩ := Prod.mk.inj hbuf
    exact ⟨buf, List.take_of_length_le buf.toList_length.le, hcomplete⟩
  | some vk =>
    obtain ⟨buf, -, hbuf⟩ := Option.map_eq_some_iff.mp h
    obtain ⟨rfl, hcomplete⟩ := Prod.mk.inj hbuf
    have hverify := completeFromWireSigned_eq_ok hcomplete
    rw [completeFromWireSigned_eq, if_pos hverify] at hcomplete
    exact ⟨buf.slice 0 clientResponseLen, rfl, hcomplete⟩

/-- A connection since it sent the hello of `hs`. It waits; or it has passed, by completing `hs`
with the response it presented, and runs on the key that this made; or it is over. -/
inductive Behind (C : CipherSuite) (listener : Listener) (hs : ServerHandshake H)
    (c : Connection H) : Prop where
  | waits (phase : c.phase = .handshake listener hs)
  | passed (cr : ByteArr clientResponseLen) (key : Key)
      (response : c.response.take clientResponseLen = cr.toList)
      (complete : hs.completeFromWire cr = .ok key) (passed : c.phase.passed = true)
      (runs : c.phase.KeyFrom C key)
  | closed (phase : c.phase = .closed)

/-- **A connection keeps to the handshake of its hello.** The handshake that was made for the hello
is the one that completes, if any does, and the key of the connection is the key which this made.
So what a client knows of the hello it answered says which key it shares (`Behind.keyFrom`). -/
theorem Behind.step {listener : Listener} {hs : ServerHandshake H} {c : Connection H}
    (h : Behind C listener hs c) (server : Server) (event : Event) :
    Behind C listener hs (c.step C server event).1 := by
  cases h with
  | waits hp =>
    rcases step_handshake C server hp event with hwaits | hclosed |
      ⟨response, key, hrespond, hresponse, hconnecting⟩
    · exact .waits hwaits
    · exact .closed hclosed
    · obtain ⟨cr, hcr, hcomplete⟩ := respond_eq_ok hrespond
      refine .passed cr key (hresponse ▸ hcr) hcomplete ?_ ?_
      · rw [hconnecting]
        rfl
      · rw [hconnecting]
        rfl
  | passed cr key hresponse hcomplete hpassed hruns =>
    have hlate := early_of_passed hpassed
    rcases late_cases (late_of_late C server hlate event) with hstill | hclosed
    · refine .passed cr key ?_ hcomplete hstill (step_keyFrom hpassed hruns event)
      rw [(plain_of_late C server hlate event).response]
      exact hresponse
    · exact .closed hclosed
  | closed hclosed => exact .closed (closed_of_closed C server hclosed event)

/-- Once it has passed, with the response the client gave, it runs on the key the client has. -/
theorem Behind.keyFrom {listener : Listener} {hs : ServerHandshake H} {c : Connection H}
    (h : Behind C listener hs c) {cr : ByteArr clientResponseLen} {key : Key}
    (hcomplete : hs.completeFromWire cr = .ok key) (hpassed : c.phase.passed = true)
    (hresponse : c.response.take clientResponseLen = cr.toList) : c.phase.KeyFrom C key := by
  cases h with
  | waits hp =>
    rw [hp] at hpassed
    cases hpassed
  | passed cr' key' hcr' hcomplete' _ hruns =>
    obtain rfl := ByteArr.toList_inj.mp (hcr'.symm.trans hresponse)
    obtain rfl := Except.ok.inj (hcomplete'.symm.trans hcomplete)
    exact hruns
  | closed hp =>
    rw [hp] at hpassed
    cases hpassed

/-! ## What a connection has become by its handshake -/

/-- A connection that checks responses against `vk`: its handshake is its hello's, and once it has
been completed the connection runs on the key it made of the response. -/
structure Keyed (C : CipherSuite) (vk : VerifyingKey) (c : Connection H) : Prop where
  handshake : ∀ listener hs, c.phase = .handshake listener hs →
    c.hello = some hs.serverHelloBytes ∧ ∃ rng, hs = (ServerHandshake.new (H := H) rng).1
  passed : c.phase.passed = true → ∃ rng buf key,
    c.hello = some (ServerHandshake.new (H := H) rng).1.serverHelloBytes ∧
    c.response = buf.toList ∧
    (ServerHandshake.new (H := H) rng).1.completeFromWireSigned buf vk = .ok key ∧
    c.phase.KeyFrom C key

variable {vk : VerifyingKey}

theorem Keyed.new : Keyed C vk (.new : Connection H) :=
  ⟨by simp [Connection.new], by simp [Connection.new, Phase.passed]⟩

theorem Keyed.step (hvk : server.clientVk = some vk) {c : Connection H} (h : Keyed C vk c)
    (event : Event) : Keyed C vk (c.step C server event).1 := by
  rcases step_cases C server c event with hplain |
    ⟨listener, hs, hp, -, heq⟩ | ⟨listener, hs, response, result, hp, hrespond, hhello, hresponse,
      hend⟩
  · constructor
    · intro listener hs hp
      rw [hplain.hello]
      exact h.handshake listener hs (hplain.handshake listener hs hp)
    · intro hpassed
      rw [hplain.hello, hplain.response]
      obtain ⟨rng, buf, key, hh, hr, hcomplete, hkey⟩ := h.passed (hplain.passed hpassed)
      exact ⟨rng, buf, key, hh, hr, hcomplete,
        step_keyFrom (hplain.passed hpassed) hkey event⟩
  · have hphase : (c.step C server event).1.phase = .handshake listener hs := by rw [heq]; rfl
    refine ⟨?_, by simp [hphase, Phase.passed]⟩
    intro listener' hs' hp'
    obtain ⟨-, rfl⟩ := Phase.handshake.inj (hphase.symm.trans hp')
    exact ⟨by rw [heq], step_hello_new hp hphase⟩
  · rcases hend with ⟨hclosed, -⟩ | ⟨key, rfl, hconnecting⟩
    · exact ⟨by simp [hclosed], by simp [hclosed, Phase.passed]⟩
    · refine ⟨by simp [hconnecting], fun _ => ?_⟩
      obtain ⟨hh, rng, rfl⟩ := h.handshake listener hs hp
      rw [context_clientAuth, hvk] at hrespond
      obtain ⟨buf, -, hbuf⟩ := Option.map_eq_some_iff.mp hrespond
      obtain ⟨rfl, hcomplete⟩ := Prod.mk.inj hbuf
      exact ⟨rng, buf, key, hhello.trans hh, hresponse, hcomplete, by rw [hconnecting]; rfl⟩

end Connection

end Bridge

end LatticeShield
