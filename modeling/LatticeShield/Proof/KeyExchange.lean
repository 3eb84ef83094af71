import LatticeShield.Proof.ConnectionKey
import LatticeShield.System.KeyExchange

/-!
# Every key of the bridge is shared with the client that answered

An accepted response is signed, so in a world in which nothing verifies but what was signed, some
honest party has signed the very bytes that the signature covers: the key exchange values of the
response, and the hello of the connection that accepted it. The bridge signs only hellos, which
are shorter, so a client has; and a client signs only responses to the hello that is in them. From
there `complete_of_clientRespond` gives one key on both sides.

The invariant has three parts: what a connection of the bridge has become by its handshake
(`Keyed`, `Behind`), what an answer was made from (`Answer.Made`), and where a signature comes from
(`Inv.ofBridge`, `Inv.ofClient`).

Connections come to an end, and the agreement is about all there have been: it is stated of every
beginning of the run, and so of a connection for as long as it has been past its handshake.
-/

set_option autoImplicit false

namespace LatticeShield

open Lib

/-! ## What a client has answered -/

namespace Client

variable {H : HandshakeSuite}

/-- An answer to a hello that verified: the hello carries a signature of the bridge's key, the
response and the session key are the client's to that hello, and with an identity the response is
signed over both. -/
structure Answer.Made (H : HandshakeSuite) (vk : VerifyingKey) (identity : Option ClientIdentity)
    (a : Answer) : Prop where
  verified : ∃ sig, H.verify vk a.hello.toList signingContext sig = true
  responded : ∃ rng rng', clientRespond (parseServerHello H a.hello) rng =
    (.ok (a.response, a.sessionKey), rng')
  unsigned : identity = none → a.wire = (serializeClientResponse a.response).toList
  signed : ∀ own, identity = some own → ∃ buf rng rng',
    serializeClientResponseSigned H a.response own.signingKey a.hello rng = (.ok buf, rng') ∧
      a.wire = buf.toList

theorem answer_eq_ok {vk : VerifyingKey} {identity : Option ClientIdentity}
    {helloBuf : ByteArr serverHelloSignedLen} {rng : Rng} {a : Answer}
    (h : answer H vk identity helloBuf rng = .ok a) : a.Made H vk identity := by
  unfold answer at h
  rw [parseServerHelloSigned_eq] at h
  by_cases hverify : H.verify vk (helloBuf.slice 0 serverHelloLen).toList signingContext
      (helloBuf.slice serverHelloLen signatureLen) = true
  · simp only [if_pos hverify] at h
    split at h
    · exact absurd h (by simp)
    · rename_i response sessionKey rng₁ hrespond
      cases identity with
      | none =>
        obtain rfl := Except.ok.inj h
        exact ⟨⟨_, hverify⟩, ⟨_, _, hrespond⟩, fun _ => rfl, by simp⟩
      | some own =>
        dsimp only at h
        split at h
        · exact absurd h (by simp)
        · rename_i signed rng₂ hsigned
          obtain rfl := Except.ok.inj h
          refine ⟨⟨_, hverify⟩, ⟨_, _, hrespond⟩, by simp, ?_⟩
          intro own' hown
          obtain rfl := Option.some.inj hown
          exact ⟨signed, _, _, hsigned, rfl⟩
  · simp only [if_neg hverify] at h
    exact absurd h (by simp)

theorem answer_of_signed {vk : VerifyingKey} (own : ClientIdentity)
    {helloBuf : ByteArr serverHelloSignedLen} {hello : ClientHello H} {rng rng₁ rng₂ : Rng}
    {response : ClientResponse} {sessionKey : Key} {signed : ByteArr clientResponseSignedLen}
    (hparse : parseServerHelloSigned H helloBuf vk = .ok hello)
    (hrespond : clientRespond hello rng = (.ok (response, sessionKey), rng₁))
    (hsigned : serializeClientResponseSigned H response own.signingKey
      (helloBuf.slice 0 serverHelloLen) rng₁ = (.ok signed, rng₂)) :
    answer H vk (some own) helloBuf rng =
      .ok ⟨helloBuf.slice 0 serverHelloLen, response, sessionKey, signed.toList⟩ := by
  simp only [answer, hparse, hrespond, hsigned]

/-- A call that has not answered is still reading, or has failed; and what it answered it has
made. -/
structure Handshaking.Sound (H : HandshakeSuite) (vk : VerifyingKey)
    (identity : Option ClientIdentity) (s : Handshaking) : Prop where
  reading : s.phase = .reading → s.answered = none
  writing : ∀ a, s.phase = .writing a → s.answered = some a
  established : ∀ a ch, s.phase = .established a ch →
    s.answered = some a ∧ ch.keyBytes = a.sessionKey
  made : ∀ a, s.answered = some a → a.Made H vk identity

namespace Handshaking

variable {vk : VerifyingKey} {identity : Option ClientIdentity} {cfg : ValidClientConfig}
  {s : Handshaking}

theorem Sound.start : start.Sound H vk identity :=
  ⟨fun _ => rfl, by simp [Handshaking.start], by simp [Handshaking.start],
    by simp [Handshaking.start]⟩

/-- A step answers, once and for all, or leaves the answer alone. So the answer of a call is the
one that was signed for it. -/
theorem Sound.step (h : s.Sound H vk identity) (cfg : ValidClientConfig) (event : HandshakeEvent) :
    (s.step H vk identity cfg event).Sound H vk identity ∧
    (s.answered = none ∨ (s.step H vk identity cfg event).answered = s.answered) := by
  cases event with
  | arrive bytes => exact ⟨⟨h.reading, h.writing, h.established, h.made⟩, Or.inr rfl⟩
  | readHello rng =>
    unfold Handshaking.step
    dsimp only
    split
    · rename_i helloBuf hphase htake
      split
      · exact ⟨⟨by simp, by simp, by simp, h.made⟩, Or.inr rfl⟩
      · rename_i a ha
        refine ⟨⟨by simp, by simp, by simp, ?_⟩, Or.inl (h.reading hphase)⟩
        rintro a' ⟨⟩
        exact answer_eq_ok ha
    · exact ⟨h, Or.inr rfl⟩
  | readFailed e =>
    unfold Handshaking.step
    dsimp only
    split
    · exact ⟨⟨by simp, by simp, by simp, h.made⟩, Or.inr rfl⟩
    · exact ⟨h, Or.inr rfl⟩
  | written result =>
    unfold Handshaking.step
    dsimp only
    split
    · rename_i a hphase
      cases result with
      | error e => exact ⟨⟨by simp, by simp, by simp, h.made⟩, Or.inr rfl⟩
      | ok u =>
        refine ⟨⟨by simp, by simp, ?_, h.made⟩, Or.inr rfl⟩
        rintro a' ch ⟨⟩
        exact ⟨h.writing a hphase, rfl⟩
    · exact ⟨h, Or.inr rfl⟩

end Handshaking

end Client

/-! ## Where a signature comes from -/

namespace KeyExchange

variable {H : HandshakeSuite} {P : Parties} {w : World H}

/-- What the signature on an answer covers: the response, and the hello behind it. The hello ties
it to one handshake. -/
def covered (a : Client.Answer) : Bytes :=
  (serializeClientResponse a.response).toList ++ a.hello.toList

theorem context_identity (server : Bridge.Server) (listener : Bridge.Listener) :
    (server.context listener).identity = server.identity := by
  cases listener <;> rfl

theorem bridgeSigns_eq_some {c : Bridge.Connection H} {event : Bridge.Event} {e : MlDsa.Signed}
    (h : bridgeSigns P.server c event = some e) :
    ∃ rng, e = ⟨P.server.identity.verifyingKey,
      (ServerHandshake.new (H := H) rng).1.serverHelloBytes.toList⟩ := by
  unfold bridgeSigns at h
  split at h
  · rename_i rng sent
    split at h
    · rename_i listener hp
      dsimp only at h
      rw [context_identity] at h
      split at h
      · exact absurd h (by simp)
      · exact ⟨rng, (Option.some.inj h).symm⟩
    · exact absurd h (by simp)
  · exact absurd h (by simp)

theorem clientSigns_eq_some {identity : Option Client.ClientIdentity}
    {before after : Client.Handshaking} {e : MlDsa.Signed}
    (h : clientSigns identity before after = some e) :
    ∃ a own, after.answered = some a ∧ identity = some own ∧ e = ⟨own.verifyingKey, covered a⟩ := by
  unfold clientSigns at h
  split at h
  · rename_i a own hbefore hafter
    exact ⟨a, own, hafter, rfl, (Option.some.inj h).symm⟩
  · exact absurd h (by simp)

/-- A run so far: the calls have made what they answered, and every signature is the bridge's on a
hello or a client's on its own answer. -/
structure Inv (P : Parties) (w : World H) : Prop where
  calls : ∀ j, (w.calls j).Sound H (P.serverVk j) (P.identity j)
  ofBridge : ∀ i e, (Signer.bridge i, e) ∈ w.signed → ∃ rng,
    e = ⟨P.server.identity.verifyingKey,
      (ServerHandshake.new (H := H) rng).1.serverHelloBytes.toList⟩
  ofClient : ∀ j e, (Signer.client j, e) ∈ w.signed → ∃ a own,
    (w.calls j).answered = some a ∧ P.identity j = some own ∧ e = ⟨own.verifyingKey, covered a⟩

theorem Inv.start : Inv P (.start : World H) :=
  ⟨fun _ => .start, by simp [World.start], by simp [World.start]⟩

theorem Inv.step (h : Inv P w) (event : Event) : Inv P (w.step P event) := by
  cases event with
  | inl ie =>
    -- an event of the bridge moves no call, and signs only for the bridge
    obtain ⟨i, event⟩ := ie
    refine ⟨h.calls, ?_, ?_⟩
    · intro i' e he
      rcases List.mem_append.mp he with hold | hnew
      · exact h.ofBridge i' e hold
      -- the new entry is what the connection signs in this step
      · obtain ⟨e', he', hpair⟩ := List.mem_map.mp hnew
        obtain ⟨-, rfl⟩ := Prod.mk.inj hpair
        exact bridgeSigns_eq_some (Option.mem_toList.mp he')
    · intro j e he
      rcases List.mem_append.mp he with hold | hnew
      · exact h.ofClient j e hold
      · obtain ⟨e', -, hpair⟩ := List.mem_map.mp hnew
        exact absurd (Prod.mk.inj hpair).1 (by simp)
  | inr je =>
    obtain ⟨j, event⟩ := je
    have hself : (w.step P (.inr (j, event))).calls j =
        (w.calls j).step H (P.serverVk j) (P.identity j) P.clientConfig event :=
      Function.update_self ..
    have hother : ∀ k, k ≠ j → (w.step P (.inr (j, event))).calls k = w.calls k :=
      fun k hk => Function.update_of_ne hk ..
    obtain ⟨hsound, hanswered⟩ := (h.calls j).step P.clientConfig event
    refine ⟨?_, ?_, ?_⟩
    · intro k
      by_cases hk : k = j
      · rw [hk, hself]; exact hsound
      · rw [hother k hk]; exact h.calls k
    · intro i e he
      rcases List.mem_append.mp he with hold | hnew
      · exact h.ofBridge i e hold
      · obtain ⟨e', -, hpair⟩ := List.mem_map.mp hnew
        exact absurd (Prod.mk.inj hpair).1 (by simp)
    · intro k e he
      rcases List.mem_append.mp he with hold | hnew
      -- an older signature of a client: the answer it is on is still that call's answer
      · obtain ⟨a, own, ha, hown, he⟩ := h.ofClient k e hold
        refine ⟨a, own, ?_, hown, he⟩
        by_cases hk : k = j
        · subst hk
          rcases hanswered with hnone | hkept
          · exact absurd (hnone.symm.trans ha) (by simp)
          · rw [hself, hkept, ha]
        · rw [hother k hk, ha]
      · obtain ⟨e', he', hpair⟩ := List.mem_map.mp hnew
        obtain ⟨hk, rfl⟩ := Prod.mk.inj hpair
        obtain rfl := Signer.client.inj hk
        obtain ⟨a, own, ha, hown, he⟩ := clientSigns_eq_some (Option.mem_toList.mp he')
        exact ⟨a, own, by rw [hself, ha], hown, he⟩

theorem inv_run (events : List Event) : Inv P (World.run P events : World H) := by
  induction events using List.reverseRecOn with
  | nil => exact .start
  | append_singleton events event ih =>
    rw [World.run, List.foldl_append]
    exact ih.step event

theorem World.run_snoc (P : Parties) (events : List Event) (event : Event) :
    (World.run P (events ++ [event]) : World H) = (World.run P events).step P event := by
  rw [World.run, List.foldl_append]
  rfl

/-- An event moves one connection of the bridge at most. -/
theorem World.conns_step (P : Parties) (w : World H) (event : Event) (i : Nat) :
    (w.step P event).bridge.conns i = w.bridge.conns i ∨
    ∃ e, event = .inl (i, e) ∧
      (w.step P event).bridge.conns i = ((w.bridge.conns i).step P.C P.server e).1 := by
  cases event with
  | inl ie =>
    obtain ⟨k, e⟩ := ie
    by_cases hk : i = k
    · subst hk
      exact Or.inr ⟨e, rfl, Function.update_self ..⟩
    · exact Or.inl (Function.update_of_ne hk ..)
  | inr je => exact Or.inl rfl

/-- What every step of a connection keeps, every event of the world keeps, since an event moves
one connection of the bridge at most. -/
theorem World.conns_step_keeps {I : Bridge.Connection H → Prop} (P : Parties)
    (hstep : ∀ c e, I c → I (c.step P.C P.server e).1) (w : World H) (event : Event) {i : Nat}
    (h : I (w.bridge.conns i)) : I ((w.step P event).bridge.conns i) := by
  rcases w.conns_step P event i with hsame | ⟨e, -, hmoved⟩
  · rw [hsame]
    exact h
  · rw [hmoved]
    exact hstep _ e h

theorem World.conns_run_keeps {I : Bridge.Connection H → Prop} (P : Parties)
    (hstep : ∀ c e, I c → I (c.step P.C P.server e).1) {i : Nat} {pre : List Event}
    (h : I ((World.run P pre : World H).bridge.conns i)) (post : List Event) :
    I ((World.run P (pre ++ post) : World H).bridge.conns i) := by
  induction post using List.reverseRecOn with
  | nil => rwa [List.append_nil]
  | append_singleton post event ih =>
    rw [← List.append_assoc, World.run_snoc]
    exact World.conns_step_keeps P hstep _ event ih

theorem keyed_run {vk : VerifyingKey} (hvk : P.server.clientVk = some vk) (events : List Event)
    (i : Nat) : ((World.run P events : World H).bridge.conns i).Keyed P.C vk := by
  have hstart : ((World.run P [] : World H).bridge.conns i).Keyed P.C vk := .new
  exact World.conns_run_keeps P (fun c e h => h.step hvk e) hstart events

/-! ## Both ends -/

/-- The connection `c` and the call `call`, which has the identity `identity` and the bridge's key
`serverVk`, have authenticated each other. The call has the client's key `vk`. It verified a
hello, answered it and runs on the session key of its answer. The connection was sent that very
hello to begin with, completed its handshake with that very response, and runs on that key or on
what it has rotated it to. -/
def Matched (C : CipherSuite) (serverVk : VerifyingKey) (identity : Option Client.ClientIdentity)
    (vk : VerifyingKey) (c : Bridge.Connection H) (call : Client.Handshaking) : Prop :=
  ∃ a own, call.answered = some a ∧ identity = some own ∧ own.verifyingKey = vk ∧
    (∃ sig, H.verify serverVk a.hello.toList signingContext sig = true) ∧
    (∀ a' ch, call.phase = .established a' ch → a' = a ∧ ch.keyBytes = a.sessionKey) ∧
    c.hello = some a.hello ∧
    c.response.take clientResponseLen = (serializeClientResponse a.response).toList ∧
    c.phase.KeyFrom C a.sessionKey

/-- A connection that is past its handshake keeps its partner for as long as it lives. Its key
moves on by rotations only. -/
theorem Matched.step {C : CipherSuite} {serverVk vk : VerifyingKey}
    {identity : Option Client.ClientIdentity} {c : Bridge.Connection H} {call : Client.Handshaking}
    (h : Matched C serverVk identity vk c call) (hpassed : c.phase.passed = true)
    (server : Bridge.Server) (e : Bridge.Event) :
    Matched C serverVk identity vk (c.step C server e).1 call := by
  obtain ⟨a, own, ha, hown, hvk, hverified, hkey, hhello, hresponse, hruns⟩ := h
  have hplain := Bridge.Connection.plain_of_late C server
    (Bridge.Connection.early_of_passed hpassed) e
  refine ⟨a, own, ha, hown, hvk, hverified, hkey, ?_, ?_,
    Bridge.Connection.step_keyFrom hpassed hruns e⟩
  · rw [hplain.hello]
    exact hhello
  · rw [hplain.response]
    exact hresponse

variable {vk : VerifyingKey} {events : List Event} {i : Nat}

/-- A connection that has passed at some time of a run has done so with a call of that run. The
signature may be of any time: that it is in the log of the whole run is all that an ideal scheme
promises. -/
theorem exists_matched (hH : H.Lawful) (hvk : P.server.clientVk = some vk)
    (hideal : H.Ideal (World.run P events : World H).log) {pre : List Event}
    (hpassed : ((World.run P pre : World H).bridge.conns i).phase.passed = true) :
    ∃ j, Matched P.C (P.serverVk j) (P.identity j) vk ((World.run P pre : World H).bridge.conns i)
      ((World.run P events : World H).calls j) := by
  obtain ⟨rng, buf, key, hhello, hresponse, hcomplete, hkey⟩ :=
    (keyed_run (H := H) hvk pre i).passed hpassed
  have hverify := completeFromWireSigned_eq_ok hcomplete
  obtain ⟨signer, hsigned⟩ := hideal.signed _ _ _ hverify
  cases signer with
  | bridge k =>
    -- the bridge signs nothing as long as a response and a hello
    obtain ⟨rng', he⟩ := (inv_run events).ofBridge k _ hsigned
    have hlen := congrArg List.length (congrArg MlDsa.Signed.msg he)
    simp only [List.length_append, List.Vector.toList_length] at hlen
    exact absurd hlen (by decide)
  | client j =>
    obtain ⟨a, own, ha, hown, he⟩ := (inv_run events).ofClient j _ hsigned
    obtain ⟨hcr, hh⟩ := signedMessage_inj (congrArg MlDsa.Signed.msg he)
    have hsound := (inv_run (P := P) (H := H) events).calls j
    have hmade := hsound.made a ha
    obtain ⟨rngc, rngc', hrespond⟩ := hmade.responded
    -- so the handshake was completed with what the client made of the hello
    rw [completeFromWireSigned_eq, if_pos hverify, hcr, completeFromWire_serialize] at hcomplete
    rw [← hh] at hrespond
    rw [complete_of_clientRespond hH rng hrespond] at hcomplete
    obtain rfl := Except.ok.inj hcomplete
    refine ⟨j, a, own, ha, hown, (congrArg MlDsa.Signed.vk he).symm, hmade.verified, ?_, ?_, ?_,
      hkey⟩
    · intro a' ch hphase
      obtain ⟨ha', hch⟩ := hsound.established a' ch hphase
      obtain rfl := Option.some.inj (ha'.symm.trans ha)
      exact ⟨rfl, hch⟩
    · rw [hhello, hh]
    · rw [hresponse, ← hcr]
      rfl

/-- **One partner for the whole life of a connection.** By induction on the run: when a connection
has passed just now, it has never done so before, and any call it agrees with will do; from then
on it keeps that one. -/
theorem exists_partner (hH : H.Lawful) (hvk : P.server.clientVk = some vk)
    (hideal : H.Ideal (World.run P events : World H).log) (i : Nat) (past : List Event) :
    ∃ j, ∀ pre, pre <+: past →
      ((World.run P pre : World H).bridge.conns i).phase.passed = true →
      Matched P.C (P.serverVk j) (P.identity j) vk ((World.run P pre : World H).bridge.conns i)
        ((World.run P events : World H).calls j) := by
  -- along the history: the partner is chosen when the connection passes, and kept from then on
  induction past using List.reverseRecOn with
  | nil =>
    refine ⟨0, ?_⟩
    intro pre hpre hpassed
    obtain rfl := List.prefix_nil.mp hpre
    cases hpassed
  | append_singleton past event ih =>
    obtain ⟨j, hj⟩ := ih
    by_cases hnow : ((World.run P (past ++ [event]) : World H).bridge.conns i).phase.passed = true
    · by_cases hbefore : ((World.run P past : World H).bridge.conns i).phase.passed = true
      · refine ⟨j, ?_⟩
        intro pre hpre hpassed
        rcases List.prefix_concat_iff.mp hpre with rfl | hpre
        · have hmatched := hj past List.prefix_rfl hbefore
          rw [World.run_snoc]
          rcases (World.run P past : World H).conns_step P event i with hsame | ⟨e, -, hmoved⟩
          · rw [hsame]
            exact hmatched
          · rw [hmoved]
            exact hmatched.step hbefore P.server e
        · exact hj pre hpre hpassed
      · -- it had not passed at any time before
        obtain ⟨j', hj'⟩ := exists_matched (H := H) hH hvk hideal hnow
        refine ⟨j', ?_⟩
        intro pre hpre hpassed
        rcases List.prefix_concat_iff.mp hpre with rfl | ⟨more, rfl⟩
        · exact hj'
        -- had it passed once, it would be late, and a late connection passes only if it had just
        -- passed
        · have hlate := World.conns_run_keeps (H := H) (I := fun c => c.phase.early = false) P
            (fun c e h => Bridge.Connection.late_of_late P.C P.server h e)
            (Bridge.Connection.early_of_passed hpassed) more
          rw [World.run_snoc] at hnow
          rcases (World.run P (pre ++ more) : World H).conns_step P event i with
            hsame | ⟨e, -, hmoved⟩
          · rw [hsame] at hnow
            exact absurd hnow hbefore
          · rw [hmoved] at hnow
            exact absurd ((Bridge.Connection.plain_of_late P.C P.server hlate e).passed hnow)
              hbefore
    · refine ⟨j, ?_⟩
      intro pre hpre hpassed
      rcases List.prefix_concat_iff.mp hpre with rfl | hpre
      · exact absurd hpassed hnow
      · exact hj pre hpre hpassed

/-- The hello of a connection past its handshake is its hello for good. Closing does not clear it.
-/
theorem hello_run {pre : List Event} {hello : ByteArr serverHelloLen}
    (hpassed : ((World.run P pre : World H).bridge.conns i).phase.passed = true)
    (h : ((World.run P pre : World H).bridge.conns i).hello = some hello) (post : List Event) :
    ((World.run P (pre ++ post) : World H).bridge.conns i).hello = some hello := by
  have hkeeps := World.conns_run_keeps (H := H)
    (I := fun c => c.phase.early = false ∧ c.hello = some hello) P
    (fun c e h => ⟨Bridge.Connection.late_of_late P.C P.server h.1 e, by
      rw [(Bridge.Connection.plain_of_late P.C P.server h.1 e).hello]
      exact h.2⟩)
    ⟨Bridge.Connection.early_of_passed hpassed, h⟩ post
  exact hkeeps.2

/-! ## One honest exchange -/

section Sample

/-- What the sample primitives do does not depend on what is signed. The witness needs this: only
when the answer is known can it be said which two messages are signed. -/
theorem sample_respond (signs : VerifyingKey → Bytes → Bool) (hello : ByteArr serverHelloLen)
    (rng : Rng) : clientRespond (parseServerHello (Sample.handshake signs) hello) rng =
      clientRespond (parseServerHello Sample.allSigned hello) rng := rfl

/-- The sample bridge, and one client with the key that the bridge asks for. -/
def sampleParties (server : Bridge.Server) : Parties where
  C := Sample.suite
  server := { server with identity := ⟨Sample.serverKeys.1, Sample.serverKeys.2⟩ }
  clientConfig := ⟨Sample.frameSize, Sample.frameSize_valid⟩
  serverVk _ := Sample.serverKeys.2
  identity _ := some ⟨Sample.clientKeys.1, Sample.clientKeys.2⟩

/-- The client answers a hello that the bridge has signed. -/
theorem sample_answer {signs : VerifyingKey → Bytes → Bool} {hello : ByteArr serverHelloLen}
    {server : ServerHandshake (Sample.handshake signs)} {buf : ByteArr serverHelloSignedLen}
    {rng rng₁ rng₂ rng₃ rng₄ : Rng} {resp : ClientResponse} {key : Key}
    {signed : ByteArr clientResponseSignedLen} (hhello : server.serverHelloRaw = hello)
    (hbuf : server.serverHelloSignedBytes Sample.serverKeys.1 rng = (.ok buf, rng₁))
    (hrespond : clientRespond (parseServerHello (Sample.handshake signs) hello) rng₂ =
      (.ok (resp, key), rng₃))
    (hsigned : serializeClientResponseSigned (Sample.handshake signs) resp Sample.clientKeys.1
      hello rng₃ = (.ok signed, rng₄)) :
    Client.answer (Sample.handshake signs) Sample.serverKeys.2
      (some ⟨Sample.clientKeys.1, Sample.clientKeys.2⟩) buf rng₂ =
        .ok ⟨hello, resp, key, signed.toList⟩ := by
  obtain ⟨sig, hsign, hslice, hsig⟩ := serverHelloSignedBytes_eq_ok hbuf
  rw [hhello] at hslice hsign
  have hparse : parseServerHelloSigned (Sample.handshake signs) buf Sample.serverKeys.2 =
      .ok (parseServerHello (Sample.handshake signs) hello) := by
    rw [parseServerHelloSigned_eq, hslice, hsig, if_pos (verify_eq_ok.mp (verify_of_sign
      (Sample.handshake_lawful signs).signatures (Sample.serverKeys_matches signs) hsign))]
  rw [← hslice] at hsigned
  rw [Client.answer_of_signed ⟨Sample.clientKeys.1, Sample.clientKeys.2⟩ hparse hrespond hsigned,
    hslice]

/-- One handshake in a world in which its hello and the answer to it are signed, and nothing else
is. -/
theorem sample_handshake : ∃ (signs : VerifyingKey → Bytes → Bool)
    (buf : ByteArr serverHelloSignedLen) (rng : Rng) (a : Client.Answer)
    (signed : ByteArr clientResponseSignedLen),
    (ServerHandshake.new (H := Sample.handshake signs) (Sample.rng 3)).1.serverHelloSignedBytes
      Sample.serverKeys.1 (ServerHandshake.new (H := Sample.handshake signs) (Sample.rng 3)).2 =
        (.ok buf, rng) ∧
    a.hello = (ServerHandshake.new (H := Sample.handshake signs) (Sample.rng 3)).1.serverHelloBytes ∧
    Client.answer (Sample.handshake signs) Sample.serverKeys.2
      (some ⟨Sample.clientKeys.1, Sample.clientKeys.2⟩) buf (Sample.rng 5) = .ok a ∧
    a.wire = signed.toList ∧
    (ServerHandshake.new (H := Sample.handshake signs) (Sample.rng 3)).1.completeFromWireSigned
      signed Sample.clientKeys.2 = .ok a.sessionKey ∧
    ∀ log : Set MlDsa.Signed, ⟨Sample.serverKeys.2, a.hello.toList⟩ ∈ log →
      ⟨Sample.clientKeys.2, covered a⟩ ∈ log → (Sample.handshake signs).Ideal log := by
  let hello := (ServerHandshake.new (H := Sample.allSigned) (Sample.rng 3)).1.serverHelloBytes
  obtain ⟨resp, key, rngc, hrespond⟩ := Sample.clientRespond_succeeds (fun _ _ => true)
    (parseServerHello _ hello) (Sample.rng 5)
  -- the two messages are known by now, and the scheme signs them and nothing else
  let signs : VerifyingKey → Bytes → Bool := fun vk msg =>
    decide ((vk = Sample.serverKeys.2 ∧ msg = hello.toList) ∨
      (vk = Sample.clientKeys.2 ∧
        msg = (ServerHandshake.signedMessage (serializeClientResponse resp) hello).toList))
  have hserver : Sample.publicOf Sample.serverKeys.1 = Sample.serverKeys.2 :=
    Sample.publicOf_keyPair _
  have hclient : Sample.publicOf Sample.clientKeys.1 = Sample.clientKeys.2 :=
    Sample.publicOf_keyPair _
  obtain ⟨buf, rng₂, hbuf⟩ := Sample.serverHelloSignedBytes_succeeds signs
    (ServerHandshake.new (Sample.rng 3)).1 Sample.serverKeys.1
    (by rw [hserver]; exact decide_eq_true (Or.inl ⟨rfl, rfl⟩))
    (ServerHandshake.new (H := Sample.handshake signs) (Sample.rng 3)).2
  replace hrespond := (sample_respond signs hello (Sample.rng 5)).trans hrespond
  obtain ⟨signed, rng₃, hsigned⟩ := Sample.serializeClientResponseSigned_succeeds signs resp
    Sample.clientKeys.1 hello
    (by rw [hclient]; exact decide_eq_true (Or.inr ⟨rfl, rfl⟩)) rngc
  have hanswer := sample_answer rfl hbuf hrespond hsigned
  have hcomplete := completeFromWireSigned_of_clientRespond (Sample.handshake_lawful signs)
    (Sample.clientKeys_matches signs) (Sample.rng 3) hrespond hsigned
  refine ⟨signs, buf, rng₂, ⟨hello, resp, key, signed.toList⟩, signed, hbuf, rfl, hanswer, rfl,
    hcomplete, ?_⟩
  intro log hhello hresponse
  refine ⟨?_, (Sample.dsa_ideal signs).bound⟩
  intro vk msg sig hverify
  -- what verifies in this world is one of the two
  rcases of_decide_eq_true ((Sample.dsa_ideal signs).signed vk msg sig hverify) with
    ⟨rfl, rfl⟩ | ⟨rfl, rfl⟩
  · exact hhello
  · rw [toList_signedMessage]
    exact hresponse

theorem World.freshHellos_of_one {w : World H}
    (h : ∀ i, i ≠ 0 → (w.bridge.conns i).hello = none) : w.FreshHellos := by
  intro i j hello hi hj
  by_cases hi0 : i = 0
  · by_cases hj0 : j = 0
    · rw [hi0, hj0]
    · rw [h j hj0] at hj
      cases hj
  · rw [h i hi0] at hi
    cases hi

/-- In that world the exchange goes through. -/
theorem sample_exchange : ∃ (signs : VerifyingKey → Bytes → Bool) (server : Bridge.Server)
    (events : List Event) (a : Client.Answer),
    server.clientVk = some Sample.clientKeys.2 ∧
    (∀ i rng sent, .inl (i, .hello rng sent) ∈ events → sent = true) ∧
    (Sample.handshake signs).Ideal
      (World.run (sampleParties server) events : World (Sample.handshake signs)).log ∧
    (World.run (sampleParties server) events : World (Sample.handshake signs)).FreshHellos ∧
    ((World.run (sampleParties server) events :
      World (Sample.handshake signs)).bridge.conns 0).phase.passed = true ∧
    ((World.run (sampleParties server) events :
      World (Sample.handshake signs)).calls 0).answered = some a := by
  obtain ⟨-, server, -, -, hvk⟩ := Bridge.sample_starts
  obtain ⟨signs, buf, rng, a, signed, hbuf, hhello, hanswer, hwire, hcomplete, hideal⟩ :=
    sample_handshake
  have hbuf' : buf.toList.take serverHelloSignedLen = buf.toList :=
    List.take_of_length_le buf.toList_length.le
  have hsigned' : signed.toList.take clientResponseSignedLen = signed.toList :=
    List.take_of_length_le signed.toList_length.le
  have hready : Bridge.respond (some Sample.clientKeys.2)
      (ServerHandshake.new (H := Sample.handshake signs) (Sample.rng 3)).1 signed.toList =
        some (signed.toList, .ok a.sessionKey) := by
    rw [Bridge.respond, hsigned', ByteArr.tryInto_toList, Option.map_some, hcomplete]
  refine ⟨signs, server, [.inl (0, .accept .pqc), .inl (0, .hello (Sample.rng 3) true),
    .inr (0, .arrive buf.toList), .inr (0, .readHello (Sample.rng 5)),
    .inl (0, .arrive signed.toList), .inl (0, .readResponse)], a, hvk, by simp, ?_⟩
  generalize hw : World.run (H := Sample.handshake signs) (sampleParties server) _ = w
  have hlog : w.signed = [(.bridge 0, ⟨Sample.serverKeys.2, a.hello.toList⟩),
      (.client 0, ⟨Sample.clientKeys.2, covered a⟩)] := by
    rw [← hw, hhello]
    simp only [World.run, List.foldl_cons, List.foldl_nil, World.step, World.start,
      Bridge.State.step, Bridge.State.new, Function.update_self, Bridge.Connection.new,
      Bridge.Connection.step, Bridge.Connection.goto, Bridge.Server.context, hbuf, if_true, hvk,
      bridgeSigns, clientSigns, Client.Handshaking.step, Client.Handshaking.start, sampleParties,
      List.nil_append, hbuf', ByteArr.tryInto_toList, hanswer, Option.toList, List.map_nil,
      List.map_cons, List.append_nil, List.cons_append]
    rfl
  have hpassed : (w.bridge.conns 0).phase.passed = true := by
    rw [← hw]
    simp only [World.run, List.foldl_cons, List.foldl_nil, World.step, World.start,
      Bridge.State.step, Bridge.State.new, Function.update_self, Bridge.Connection.new,
      Bridge.Connection.step, Bridge.Connection.goto, Bridge.Server.context, hbuf, if_true, hvk,
      sampleParties, List.nil_append, hready]
    rfl
  have hanswered : (w.calls 0).answered = some a := by
    rw [← hw]
    simp only [World.run, List.foldl_cons, List.foldl_nil, World.step, World.start,
      Function.update_self, Client.Handshaking.step, Client.Handshaking.start, sampleParties,
      List.nil_append, hbuf', ByteArr.tryInto_toList, hanswer]
  have hothers : ∀ i, i ≠ 0 → (w.bridge.conns i).hello = none := by
    intro i hi
    rw [← hw]
    simp only [World.run, List.foldl_cons, List.foldl_nil, World.step, World.start,
      Bridge.State.step, Bridge.State.new, Function.update_of_ne hi, Bridge.Connection.new]
  refine ⟨hideal w.log ⟨.bridge 0, ?_⟩ ⟨.client 0, ?_⟩, World.freshHellos_of_one hothers, hpassed,
    hanswered⟩
  · rw [hlog]
    exact List.mem_cons_self
  · rw [hlog]
    exact List.mem_cons_of_mem _ List.mem_cons_self

end Sample

/-! ## Agreement -/

/-- **Every session of the bridge has one client of its own.** With client authentication, and an
ideal signature scheme, take all connections that have completed their handshakes at any time of a
run, whether they still live or not. They are matched, no two with the same call, with calls that
verified and answered the very hello of their connection and run on the same key; and a connection
keeps to its partner at all times. -/
theorem injective_agreement (hH : H.Lawful) (P : Parties) {vk : VerifyingKey}
    (hvk : P.server.clientVk = some vk) (events : List Event)
    (hideal : H.Ideal (World.run P events : World H).log)
    (hfresh : (World.run P events : World H).FreshHellos) :
    ∃ partner : Nat → Nat,
      Set.InjOn partner {i | ∃ pre, pre <+: events ∧
        ((World.run P pre : World H).bridge.conns i).phase.passed = true} ∧
      ∀ pre, pre <+: events → ∀ i,
        ((World.run P pre : World H).bridge.conns i).phase.passed = true →
        Matched P.C (P.serverVk (partner i)) (P.identity (partner i)) vk
          ((World.run P pre : World H).bridge.conns i)
          ((World.run P events : World H).calls (partner i)) := by
  choose partner hpartner using fun i => exists_partner (H := H) hH hvk hideal i events
  refine ⟨partner, ?_, fun pre hpre i hpassed => hpartner i pre hpre hpassed⟩
  rintro i ⟨pre, ⟨post, hpost⟩, hi⟩ k ⟨pre', ⟨post', hpost'⟩, hk⟩ heq
  obtain ⟨a, _, ha, -, -, -, -, hhello, -⟩ := hpartner i pre ⟨post, hpost⟩ hi
  obtain ⟨a', _, ha', -, -, -, -, hhello', -⟩ := hpartner k pre' ⟨post', hpost'⟩ hk
  rw [heq, ha'] at ha
  obtain rfl := Option.some.inj ha
  have hlast := hello_run hi hhello post
  have hlast' := hello_run hk hhello' post'
  rw [hpost] at hlast
  rw [hpost'] at hlast'
  exact hfresh i k _ hlast hlast'

theorem injective_agreement_sample : ∃ (signs : VerifyingKey → Bytes → Bool)
    (server : Bridge.Server) (events : List Event) (j : Nat),
    ((World.run (sampleParties server) events :
      World (Sample.handshake signs)).bridge.conns 0).phase.passed = true ∧
    Matched (H := Sample.handshake signs) Sample.suite Sample.serverKeys.2
      ((sampleParties server).identity j) Sample.clientKeys.2
      ((World.run (sampleParties server) events).bridge.conns 0)
      ((World.run (sampleParties server) events : World (Sample.handshake signs)).calls j) := by
  obtain ⟨signs, server, events, a, hvk, -, hideal, hfresh, hpassed, -⟩ := sample_exchange
  obtain ⟨partner, -, hmatched⟩ := injective_agreement (Sample.handshake_lawful signs)
    (sampleParties server) hvk events hideal hfresh
  exact ⟨signs, server, events, partner 0, hpassed, hmatched events List.prefix_rfl 0 hpassed⟩

/-! ## What a client's key is worth -/

/-- Where a signature of the bridge comes from: a connection that sends its hello, at some time of
the run. -/
theorem exists_hello_event {i : Nat} {e : MlDsa.Signed}
    (h : (Signer.bridge i, e) ∈ (World.run P events : World H).signed) :
    ∃ pre post event, events = pre ++ .inl (i, event) :: post ∧
      bridgeSigns P.server ((World.run P pre : World H).bridge.conns i) event = some e := by
  induction events using List.reverseRecOn with
  | nil => simp [World.run, World.start] at h
  | append_singleton events event ih =>
    rw [World.run_snoc] at h
    have hearlier : (Signer.bridge i, e) ∈ (World.run P events : World H).signed →
        ∃ pre post e', events ++ [event] = pre ++ .inl (i, e') :: post ∧
          bridgeSigns P.server ((World.run P pre : World H).bridge.conns i) e' = some e := by
      intro hold
      obtain ⟨pre, post, e', rfl, hsigns⟩ := ih hold
      exact ⟨pre, post ++ [event], e', by rw [List.append_assoc]; rfl, hsigns⟩
    cases event with
    | inl ie =>
      obtain ⟨k, e'⟩ := ie
      rcases List.mem_append.mp h with hold | hnew
      · exact hearlier hold
      · obtain ⟨e'', he, hpair⟩ := List.mem_map.mp hnew
        obtain ⟨hk, rfl⟩ := Prod.mk.inj hpair
        obtain rfl := Signer.bridge.inj hk
        exact ⟨events, [], e', rfl, Option.mem_toList.mp he⟩
    | inr je =>
      rcases List.mem_append.mp h with hold | hnew
      · exact hearlier hold
      · obtain ⟨e'', -, hpair⟩ := List.mem_map.mp hnew
        exact absurd (Prod.mk.inj hpair).1 (by simp)

/-- What a connection that has signed does next: it waits with the handshake whose hello it
signed, or has failed to send it. There is no third case: the bridge signs no hello but one of a
handshake of its own. -/
theorem step_of_bridgeSigns {c : Bridge.Connection H} {event : Bridge.Event} {e : MlDsa.Signed}
    (h : bridgeSigns P.server c event = some e) :
    ∃ rng sent listener, event = .hello rng sent ∧ c.phase = .entered listener ∧
      e = ⟨P.server.identity.verifyingKey,
        (ServerHandshake.new (H := H) rng).1.serverHelloBytes.toList⟩ ∧
      ((sent = false ∧ (c.step P.C P.server event).1.phase = .closed) ∨
        ((c.step P.C P.server event).1.phase =
            .handshake listener (ServerHandshake.new (H := H) rng).1 ∧
          (c.step P.C P.server event).1.hello =
            some (ServerHandshake.new (H := H) rng).1.serverHelloBytes)) := by
  unfold bridgeSigns at h
  split at h
  · rename_i rng sent
    split at h
    · rename_i listener hp
      dsimp only at h
      split at h
      · cases h
      · rename_i buf rng' hbuf
        rw [context_identity] at h
        refine ⟨rng, sent, listener, rfl, hp, (Option.some.inj h).symm, ?_⟩
        simp only [Bridge.Connection.step, hp, hbuf]
        cases sent with
        | false => exact Or.inl ⟨rfl, rfl⟩
        | true => exact Or.inr ⟨rfl, rfl⟩
    · cases h
  · cases h

/-- The handshake `hs` makes of an answer the session key that the client has, whether the client
signed its response or not. -/
def Completes (hs : ServerHandshake H) (identity : Option Client.ClientIdentity)
    (a : Client.Answer) : Prop :=
  hs.completeFromWire (serializeClientResponse a.response) = .ok a.sessionKey ∧
  (identity = none → a.wire = (serializeClientResponse a.response).toList) ∧
  ∀ own, identity = some own → H.Matches own.signingKey own.verifyingKey →
    ∃ buf, a.wire = buf.toList ∧ hs.completeFromWireSigned buf own.verifyingKey = .ok a.sessionKey

theorem completes_of_made (hH : H.Lawful) {serverVk : VerifyingKey}
    {identity : Option Client.ClientIdentity} {a : Client.Answer} (h : a.Made H serverVk identity)
    {rng : Rng} (hhello : a.hello = (ServerHandshake.new (H := H) rng).1.serverHelloBytes) :
    Completes (ServerHandshake.new (H := H) rng).1 identity a := by
  obtain ⟨rngc, rngc', hrespond⟩ := h.responded
  rw [hhello] at hrespond
  refine ⟨?_, h.unsigned, ?_⟩
  · rw [completeFromWire_serialize]
    exact complete_of_clientRespond hH rng hrespond
  · intro own hown hpair
    obtain ⟨buf, rng₁, rng₂, hsign, hwire⟩ := h.signed own hown
    rw [hhello] at hsign
    exact ⟨buf, hwire, completeFromWireSigned_of_clientRespond hH hpair rng hrespond hsign⟩

/-- **A client shares its key with nobody but the bridge.** Whatever reached a call that has
answered: its hello was signed by a connection of the bridge when it sent it. Unless its write
failed and it closed, that connection then waited with a handshake that makes of the answer,
signed or not, the session key of the call. And if ever it passed with this answer, then it has
run on that key, or what it was rotated to, ever since. -/
theorem client_key_from_bridge (hH : H.Lawful) (P : Parties) (events : List Event)
    (hideal : H.Ideal (World.run P events : World H).log) (j : Nat) (a : Client.Answer)
    (ha : ((World.run P events : World H).calls j).answered = some a) :
    P.serverVk j = P.server.identity.verifyingKey ∧
    (∀ a' ch, ((World.run P events : World H).calls j).phase = .established a' ch →
      a' = a ∧ ch.keyBytes = a.sessionKey) ∧
    ∃ i pre post rng sent listener, events = (pre ++ [.inl (i, .hello rng sent)]) ++ post ∧
      ((World.run P pre : World H).bridge.conns i).phase = .entered listener ∧
      (.bridge i, ⟨P.serverVk j, a.hello.toList⟩) ∈ (World.run P events : World H).signed ∧
      let conn := fun more =>
        (World.run P ((pre ++ [.inl (i, .hello rng sent)]) ++ more) : World H).bridge.conns i
      ((sent = false ∧ (conn []).phase = .closed) ∨
        ∃ hs, (conn []).phase = .handshake listener hs ∧ (conn []).hello = some a.hello ∧
          Completes hs (P.identity j) a) ∧
      ∀ more, (conn more).phase.passed = true →
        (conn more).response.take clientResponseLen =
          (serializeClientResponse a.response).toList →
        (conn more).phase.KeyFrom P.C a.sessionKey := by
  have hsound := (inv_run (P := P) (H := H) events).calls j
  have hmade := hsound.made a ha
  obtain ⟨sig, hverify⟩ := hmade.verified
  obtain ⟨signer, hsigned⟩ := hideal.signed _ _ _ hverify
  cases signer with
  | client k =>
    -- a client signs nothing as short as a hello
    obtain ⟨a', own, -, -, he⟩ := (inv_run events).ofClient k _ hsigned
    have hlen := congrArg List.length (congrArg MlDsa.Signed.msg he)
    simp only [covered, List.length_append, List.Vector.toList_length] at hlen
    exact absurd hlen (by decide)
  | bridge i =>
    -- the signature is the bridge's, so the hello is that of the handshake which its connection
    -- made
    obtain ⟨pre, post, event, hevents, hsigns⟩ := exists_hello_event hsigned
    obtain ⟨rng, sent, listener, rfl, hentered, he, hstep⟩ := step_of_bridgeSigns hsigns
    have hhello : a.hello = (ServerHandshake.new (H := H) rng).1.serverHelloBytes :=
      ByteArr.toList_inj.mp (congrArg MlDsa.Signed.msg he)
    have hcompletes := completes_of_made hH hmade hhello
    have hnow : (World.run P ((pre ++ [.inl (i, .hello rng sent)]) ++ []) :
        World H).bridge.conns i = (((World.run P pre : World H).bridge.conns i).step P.C P.server
          (.hello rng sent)).1 := by
      rw [List.append_nil, World.run_snoc]
      exact Function.update_self ..
    refine ⟨congrArg MlDsa.Signed.vk he, ?_, i, pre, post, rng, sent, listener,
      by rw [hevents, List.append_assoc]; rfl, hentered, hsigned, ?_, ?_⟩
    · intro a' ch hphase
      obtain ⟨ha', hkey⟩ := hsound.established a' ch hphase
      obtain rfl := Option.some.inj (ha'.symm.trans ha)
      exact ⟨rfl, hkey⟩
    · rcases hstep with hclosed | ⟨hwaits, hsent⟩
      · exact Or.inl ⟨hclosed.1, (congrArg Bridge.Connection.phase hnow).trans hclosed.2⟩
      · refine Or.inr ⟨_, (congrArg Bridge.Connection.phase hnow).trans hwaits, ?_, hcompletes⟩
        rw [hhello]
        exact (congrArg Bridge.Connection.hello hnow).trans hsent
    · -- what the connection has become since, by its own handshake
      have hbehind : Bridge.Connection.Behind P.C listener (ServerHandshake.new (H := H) rng).1
          ((World.run P (pre ++ [.inl (i, .hello rng sent)]) : World H).bridge.conns i) := by
        rw [List.append_nil] at hnow
        rw [hnow]
        rcases hstep with hclosed | hwaits
        · exact .closed hclosed.2
        · exact .waits hwaits.1
      intro more hpassed hresponse
      exact (World.conns_run_keeps P (fun c e h => h.step P.server e) hbehind more).keyFrom
        hcompletes.1 hpassed hresponse

theorem client_key_from_bridge_sample : ∃ (signs : VerifyingKey → Bytes → Bool)
    (server : Bridge.Server) (events : List Event) (a : Client.Answer),
    ((World.run (sampleParties server) events :
      World (Sample.handshake signs)).calls 0).answered = some a ∧
    ∃ i pre listener hs, pre <+: events ∧
      ((World.run (sampleParties server) pre :
        World (Sample.handshake signs)).bridge.conns i).phase = .handshake listener hs ∧
      Completes hs ((sampleParties server).identity 0) a := by
  obtain ⟨signs, server, events, a, -, hsent, hideal, -, -, hanswered⟩ := sample_exchange
  refine ⟨signs, server, events, a, hanswered, ?_⟩
  obtain ⟨-, -, i, pre, post, rng, sent, listener, hevents, -, -, hnow, -⟩ :=
    client_key_from_bridge (Sample.handshake_lawful signs) (sampleParties server) events hideal 0 a
      hanswered
  rcases hnow with ⟨hfailed, -⟩ | ⟨hs, hphase, -, hcompletes⟩
  · have htrue := hsent i rng sent (by rw [hevents]; simp)
    exact absurd (htrue.symm.trans hfailed) (by simp)
  · exact ⟨i, _, listener, hs, ⟨post, by rw [List.append_nil]; exact hevents.symm⟩, hphase,
      hcompletes⟩

end KeyExchange

end LatticeShield
