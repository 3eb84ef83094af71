import LatticeShield.Proof.Admin
import LatticeShield.Proof.CliCall
import LatticeShield.Proof.VkDownload
import LatticeShield.Proof.VkRouting
import LatticeShield.Proof.VkLifetime
import LatticeShield.System.VkDistribution

/-!
# What the connections of the admin channel have read and written

The three programs meet in the store, and the store alone was treated in `Proof/VkShare.lean`: what
happens to it in this system is a run of its two operations (`Recorded`), so its invariant holds
here, whoever the callers are.

An admin connection gets as far as a command only through a handshake, and what it has read and
written on the way is its wire; `Linked` says what the wire of a connection in a given phase is.
-/

set_option autoImplicit false

namespace LatticeShield.VkDistribution

open Lib

variable {P : Parties} {w : World P}

/-! ## The store -/

/-- The store is what its operations made of it, with the replies of the history. The parties of
the system reach it only by these, so that whatever holds of every history of a store holds here. -/
def Recorded (w : World P) : Prop :=
  VkShare.World.run P.services.vkEnv (w.history.map fun e => (e.2.now, e.2.call)) =
    ⟨w.admin.shared.vkStore, w.history.map Prod.snd⟩

theorem Recorded.start : Recorded (.start : World P) := rfl

/-- A step that leaves the store alone, or does one operation on it, which it records. Every step
of the system is such a step, whichever of the parties makes it. -/
theorem Recorded.snoc (h : Recorded w) {w' : World P} {by' : Option Nat}
    {added : Option VkShare.Event}
    (hhistory : w'.history = w.history ++ added.toList.map (by', ·))
    (hstore : (added = none ∧ w'.admin.shared.vkStore = w.admin.shared.vkStore) ∨
      ∃ e, added = some e ∧ ∀ events,
        VkShare.World.step P.services.vkEnv ⟨w.admin.shared.vkStore, events⟩ (e.now, e.call) =
          ⟨w'.admin.shared.vkStore, events ++ [e]⟩) :
    Recorded w' := by
  rcases hstore with ⟨rfl, hsame⟩ | ⟨e, rfl, hstep⟩
  · simp only [Option.toList_none, List.map_nil, List.append_nil] at hhistory
    rw [Recorded, hhistory, hsame]
    exact h
  · simp only [Option.toList_some, List.map_singleton] at hhistory
    rw [Recorded, hhistory, List.map_append, List.map_singleton, VkShare.run_snoc, h, hstep,
      List.map_append, List.map_singleton]

theorem admin_step_store (s : Admin.State P.services) (i : Nat) (action : Admin.Action) :
    (creates s.shared (s.phase i) action = none ∧
      (s.step (i, action)).shared.vkStore = s.shared.vkStore) ∨
    ∃ e, creates s.shared (s.phase i) action = some e ∧ ∀ events,
      VkShare.World.step P.services.vkEnv ⟨s.shared.vkStore, events⟩ (e.now, e.call) =
        ⟨(s.step (i, action)).shared.vkStore, events ++ [e]⟩ := by
  cases action with
  | accept rng sent =>
    refine Or.inl ⟨rfl, ?_⟩
    cases hp : s.phase i <;> simp only [Admin.State.step, Admin.State.goto, hp]
  | response bytes =>
    refine Or.inl ⟨rfl, ?_⟩
    cases hp : s.phase i <;> simp only [Admin.State.step, Admin.State.goto, hp]
  | frame bytes =>
    refine Or.inl ⟨rfl, ?_⟩
    cases hp : s.phase i <;> simp only [Admin.State.step, Admin.State.goto, hp]
  | giveUp =>
    refine Or.inl ⟨rfl, ?_⟩
    cases hp : s.phase i <;> simp only [Admin.State.step, Admin.State.goto, hp]
  | advance env =>
    cases hp : s.phase i with
    | checking frame lastSeenSeq =>
      refine Or.inl ⟨rfl, ?_⟩
      simp only [Admin.State.step, Admin.State.advance, hp]
      split <;> rfl
    | dispatching frame =>
      obtain ⟨seq, cmd⟩ := frame
      cases cmd with
      | getMetrics =>
        exact Or.inl ⟨rfl, by
          simp only [Admin.State.step, Admin.State.advance, hp, Admin.dispatch]⟩
      | rotate =>
        exact Or.inl ⟨rfl, by
          simp only [Admin.State.step, Admin.State.advance, hp, Admin.dispatch,
            Admin.handleRotate]⟩
      -- the one command that calls `create_token`
      | getVkToken =>
        refine Or.inr ⟨_, rfl, fun events => ?_⟩
        simp only [Admin.State.step, Admin.State.advance, hp, Admin.dispatch,
          Admin.handleGetVkToken, VkShare.World.step]
        rfl
    | _ =>
      refine Or.inl ⟨rfl, ?_⟩
      simp only [Admin.State.step, Admin.State.advance, Admin.State.goto, hp]

theorem routeTls_store (store : VkShare.VkShareStore) (request : Request) :
    let r := Bridge.routeTls P.parse store request.now request.backendUp request.reads
    (fetches P.parse request r.1 = none ∧ r.2 = store) ∨
    ∃ e, fetches P.parse request r.1 = some e ∧ ∀ events,
      VkShare.World.step P.services.vkEnv ⟨store, events⟩ (e.now, e.call) =
        ⟨r.2, events ++ [e]⟩ := by
  intro r
  cases hhead : Bridge.readHttpHead [] request.reads with
  | tooLarge => exact Or.inl (by simp [r, Bridge.routeTls, hhead, fetches])
  | eof => exact Or.inl (by simp [r, Bridge.routeTls, hhead, fetches])
  | complete headBytes =>
    cases htoken : Bridge.extractVkToken P.parse headBytes with
    | none =>
      refine Or.inl ?_
      simp only [r, Bridge.routeTls, hhead, htoken, Bridge.handleWithPreread]
      split <;> exact ⟨rfl, trivial⟩
    | some token =>
      refine Or.inr ⟨⟨request.now, .fetch token, .response
        (VkShare.vkResponse store token request.now).1⟩, ?_, fun events => ?_⟩
      · simp only [r, Bridge.routeTls, hhead, htoken, fetches, requested, Option.map_some]
      · simp only [r, Bridge.routeTls, hhead, htoken, VkShare.World.step]

theorem Recorded.step (h : Recorded w) (event : Event) : Recorded (w.step event) := by
  cases event with
  | admin i action => exact h.snoc rfl (admin_step_store w.admin i action)
  | cli j event => exact h
  | https request => exact h.snoc rfl (routeTls_store w.admin.shared.vkStore request)

/-- The hello of `server` is out: the handshake was made from random bytes of its own, and its
hello signed with the bridge's key. -/
def Greeted (wire : Wire) (server : ServerHandshake P.services.H) : Prop :=
  ∃ rng rng' buf, server = (ServerHandshake.new (H := P.services.H) rng).1 ∧
    server.serverHelloSignedBytes P.services.signingKey
      (ServerHandshake.new (H := P.services.H) rng).2 = (.ok buf, rng') ∧
    wire.hello = some buf

/-- The handshake has gone through: the response that arrived is signed, over the hello of this
very connection, with the key that admin connections are checked against, and `key` is what both
make of it. -/
def Opened (P : Parties) (wire : Wire) (key : Key) : Prop :=
  ∃ (server : ServerHandshake P.services.H) (bytes : ByteArr clientResponseSignedLen),
    Greeted wire server ∧ wire.response = some bytes ∧
    server.completeFromWireSigned bytes P.services.cpVk = .ok key

/-- A command was read behind the handshake, on the key that the handshake made. So whoever wrote
it holds that key. -/
def Commanded (P : Parties) (wire : Wire) (frame : Admin.CommandFrame) : Prop :=
  ∃ key bytes channel frameBytes rest, Opened P wire key ∧ wire.frame = some (bytes, channel) ∧
    ((EncryptedChannel.new key (64 * 1024)).readFrame P.services.C.aead.decrypt).run bytes =
      some ((.ok (.data frameBytes), channel), rest) ∧
    P.services.parseCommand frameBytes = some frame

/-- The reply to `GetVkToken`, and the call of `create_token` behind it. -/
inductive Replies (P : Parties) (c : VkShare.Event) : Admin.AdminResponse → Prop where
  | token {token : String}
      (h : c.issues P.services.vkEnv token P.services.verifyingKey.toList ttl) :
      Replies P c (.vkToken token s!"{P.services.tlsBaseUrl}/vk/{token}")
  | full : Replies P c (.error "vk share token store full")

/-- What a connection has replied, to the command it has read. If it is a token, the history has
the call that created it, under the number of this connection. -/
def Replied (history : List (Option Nat × VkShare.Event)) (i : Nat) (wire : Wire)
    (reply : Admin.AdminResponse) : Prop :=
  ∃ frame, Commanded P wire frame ∧
    (frame.cmd = .getVkToken → ∃ c, (some i, c) ∈ history ∧ Replies P c reply)

/-- The wire of a connection, by the phase it is in. The phases of the admin handler forget what
they have passed; the wire keeps it, and this says that the two are of one run. -/
def Linked (history : List (Option Nat × VkShare.Event)) (i : Nat) (wire : Wire) :
    Admin.Phase P.services → Prop
  | .absent => wire = .new
  | .handshake server =>
    Greeted wire server ∧ wire.response = none ∧ wire.frame = none ∧ wire.reply = none
  | .reading channel => (∃ key, Opened P wire key ∧ channel = .new key (64 * 1024)) ∧
    wire.frame = none ∧ wire.reply = none
  | .loading frame => Commanded P wire frame ∧ wire.reply = none
  | .checking frame _ => Commanded P wire frame ∧ wire.reply = none
  | .updating frame => Commanded P wire frame ∧ wire.reply = none
  | .dispatching frame => Commanded P wire frame ∧ wire.reply = none
  | .responding reply => Replied (P := P) history i wire reply ∧ wire.reply = some reply
  | .closed => ∀ reply, wire.reply = some reply → Replied (P := P) history i wire reply

theorem Opened.congr {wire wire' : Wire} {key : Key} (h : Opened P wire key)
    (hhello : wire'.hello = wire.hello) (hresponse : wire'.response = wire.response) :
    Opened P wire' key := by
  obtain ⟨server, bytes, ⟨rng, rng', buf, hmade, hbuf, hsent⟩, hread, hcomplete⟩ := h
  exact ⟨server, bytes, ⟨rng, rng', buf, hmade, hbuf, hhello.trans hsent⟩,
    hresponse.trans hread, hcomplete⟩

theorem Commanded.congr {wire wire' : Wire} {frame : Admin.CommandFrame}
    (h : Commanded P wire frame) (hhello : wire'.hello = wire.hello)
    (hresponse : wire'.response = wire.response) (hframe : wire'.frame = wire.frame) :
    Commanded P wire' frame := by
  obtain ⟨key, bytes, channel, frameBytes, rest, hopened, hread, hrun, hparse⟩ := h
  exact ⟨key, bytes, channel, frameBytes, rest, hopened.congr hhello hresponse,
    hframe.trans hread, hrun, hparse⟩

theorem Commanded.opened {wire : Wire} {frame : Admin.CommandFrame} (h : Commanded P wire frame) :
    ∃ key, Opened P wire key := by
  obtain ⟨key, _, _, _, _, hopened, -⟩ := h
  exact ⟨key, hopened⟩

theorem Linked.mono {history more : List (Option Nat × VkShare.Event)} {i : Nat} {wire : Wire}
    {phase : Admin.Phase P.services} (h : Linked history i wire phase) :
    Linked (history ++ more) i wire phase := by
  have hreplied : ∀ reply, Replied (P := P) history i wire reply →
      Replied (P := P) (history ++ more) i wire reply := by
    rintro reply ⟨frame, hframe, hcreated⟩
    refine ⟨frame, hframe, ?_⟩
    intro hcmd
    obtain ⟨c, hmem, hreply⟩ := hcreated hcmd
    exact ⟨c, List.mem_append_left _ hmem, hreply⟩
  cases phase with
  | responding reply => exact ⟨hreplied reply h.1, h.2⟩
  | closed => exact fun reply hreply => hreplied reply (h reply hreply)
  | _ => exact h

section Steps

variable {history : List (Option Nat × VkShare.Event)} {i : Nat} {s : Admin.State P.services}
  {wire : Wire}

theorem Linked.closed_of_none (hreply : wire.reply = none) :
    Linked history i wire (.closed : Admin.Phase P.services) := by
  intro reply h
  rw [hreply] at h
  cases h

theorem Linked.accept (h : Linked history i wire (s.phase i)) (rng : Rng) (sent : Bool) :
    Linked history i (wire.next P s.shared (s.phase i) (.accept rng sent))
      ((s.step (i, .accept rng sent)).phase i) := by
  cases hp : s.phase i with
  | absent =>
    rw [hp] at h
    obtain rfl : wire = .new := h
    simp only [Admin.State.step, hp, Admin.State.goto_phase_self, Admin.onAccept, Wire.next]
    cases hbuf : (ServerHandshake.new (H := P.services.H) rng).1.serverHelloSignedBytes
        P.services.signingKey (ServerHandshake.new (H := P.services.H) rng).2 with
    | mk result rng' =>
      cases result with
      | error e => exact .closed_of_none rfl
      | ok buf =>
        cases sent with
        | false => exact .closed_of_none rfl
        | true => exact ⟨⟨rng, rng', buf, rfl, hbuf, rfl⟩, rfl, rfl, rfl⟩
  | _ =>
    rw [hp] at h
    simpa only [Admin.State.step, hp, Wire.next] using h

theorem Linked.response (h : Linked history i wire (s.phase i))
    (bytes : ByteArr clientResponseSignedLen) :
    Linked history i (wire.next P s.shared (s.phase i) (.response bytes))
      ((s.step (i, .response bytes)).phase i) := by
  cases hp : s.phase i with
  | handshake server =>
    rw [hp] at h
    obtain ⟨⟨rng, rng', buf, hmade, hbuf, hsent⟩, -, hframe, hreply⟩ := h
    simp only [Admin.State.step, hp, Admin.State.goto_phase_self, Admin.onResponse, Wire.next]
    cases hcomplete : server.completeFromWireSigned bytes P.services.cpVk with
    | error e => exact .closed_of_none hreply
    | ok key =>
      exact ⟨⟨key, ⟨server, bytes, ⟨rng, rng', buf, hmade, hbuf, hsent⟩, rfl, hcomplete⟩, rfl⟩,
        hframe, hreply⟩
  | _ =>
    rw [hp] at h
    simpa only [Admin.State.step, hp, Wire.next] using h

theorem Linked.frame (h : Linked history i wire (s.phase i)) (bytes : Bytes) :
    Linked history i (wire.next P s.shared (s.phase i) (.frame bytes))
      ((s.step (i, .frame bytes)).phase i) := by
  cases hp : s.phase i with
  | reading channel =>
    rw [hp] at h
    obtain ⟨⟨key, hopened, rfl⟩, hframe, hreply⟩ := h
    simp only [Admin.State.step, hp, Admin.State.goto_phase_self, Admin.onFrame, Wire.next]
    cases hrun : ((EncryptedChannel.new key (64 * 1024)).readFrame
        P.services.C.aead.decrypt).run bytes with
    | none => exact .closed_of_none hreply
    | some read =>
      obtain ⟨⟨result, channel⟩, rest⟩ := read
      cases result with
      | error e => exact .closed_of_none hreply
      | ok what =>
        cases what with
        -- `KEY_ROTATE` is no command: the handler ends
        | keyRotate n => exact .closed_of_none hreply
        | data frameBytes =>
          cases hparse : P.services.parseCommand frameBytes with
          | none =>
            simp only [hparse]
            exact .closed_of_none hreply
          | some frame =>
            simp only [hparse]
            exact ⟨⟨key, bytes, channel, frameBytes, rest, hopened.congr rfl rfl, rfl, hrun,
              hparse⟩, hreply⟩
  | _ =>
    rw [hp] at h
    simpa only [Admin.State.step, hp, Wire.next] using h

theorem Linked.giveUp (h : Linked history i wire (s.phase i)) :
    Linked history i (wire.next P s.shared (s.phase i) .giveUp)
      ((s.step (i, .giveUp)).phase i) := by
  cases hp : s.phase i with
  | handshake server =>
    rw [hp] at h
    simp only [Admin.State.step, hp, Admin.State.goto_phase_self, Wire.next]
    exact .closed_of_none h.2.2.2
  | reading channel =>
    rw [hp] at h
    simp only [Admin.State.step, hp, Admin.State.goto_phase_self, Wire.next]
    exact .closed_of_none h.2.2
  | responding reply =>
    rw [hp] at h
    simp only [Admin.State.step, hp, Admin.State.goto_phase_self, Wire.next]
    intro reply' hreply'
    obtain rfl := Option.some.inj (h.2.symm.trans hreply')
    exact h.1
  | _ =>
    rw [hp] at h
    simpa only [Admin.State.step, hp, Wire.next] using h

theorem handleGetVkToken_fst (services : Admin.Services) (shared : Admin.Shared)
    (env : Admin.Env) :
    (Admin.handleGetVkToken services shared env).1 =
      match (VkShare.createToken services.vkEnv shared.vkStore env.uuid env.now
        services.verifyingKey.toList ttl).1 with
      | .ok token _ => some (.vkToken token s!"{services.tlsBaseUrl}/vk/{token}")
      | .tooManyTokens => some (.error "vk share token store full")
      | .panicked => none := rfl

/-- A command is dispatched: what `create_token` returned is in the history, and in the reply. No
other command touches the store. -/
theorem Linked.dispatch {frame : Admin.CommandFrame} (hp : s.phase i = .dispatching frame)
    (h : Linked history i wire (s.phase i)) (env : Admin.Env) :
    Linked (history ++ (creates s.shared (s.phase i) (.advance env)).toList.map (some i, ·)) i
      (wire.next P s.shared (s.phase i) (.advance env)) ((s.step (i, .advance env)).phase i) := by
  rw [hp] at h ⊢
  obtain ⟨hcommanded, -⟩ := h
  have hphase : (s.step (i, .advance env)).phase i =
      (Admin.dispatch P.services s.shared env frame.cmd).1.elim .closed .responding := by
    simp only [Admin.State.step, Admin.State.advance, hp]
    exact Admin.State.goto_phase_self s i _
  rw [hphase]
  obtain ⟨seq, cmd⟩ := frame
  have hreplied : ∀ reply, (Admin.dispatch P.services s.shared env cmd).1 = some reply →
      Replied (P := P)
        (history ++ (creates (P := P) s.shared (.dispatching ⟨seq, cmd⟩) (.advance env)).toList.map
          (some i, ·)) i (wire.next P s.shared (.dispatching ⟨seq, cmd⟩) (.advance env)) reply := by
    intro reply hreply
    refine ⟨⟨seq, cmd⟩, hcommanded.congr rfl rfl rfl, ?_⟩
    intro hcmd
    obtain rfl : cmd = .getVkToken := hcmd
    replace hreply : (Admin.handleGetVkToken P.services s.shared env).1 = some reply := hreply
    -- the call of `create_token` that this step adds to the history
    refine ⟨⟨env.now, .create env.uuid P.services.verifyingKey.toList ttl,
      .created (VkShare.createToken P.services.vkEnv s.shared.vkStore env.uuid env.now
        P.services.verifyingKey.toList ttl).1⟩,
      List.mem_append_right _ (List.mem_singleton_self _), ?_⟩
    cases hcreated : (VkShare.createToken P.services.vkEnv s.shared.vkStore env.uuid env.now
        P.services.verifyingKey.toList ttl).1 with
    | ok token fingerprint =>
      obtain ⟨rfl, rfl⟩ := VkShare.createToken_eq_ok hcreated
      rw [handleGetVkToken_fst, hcreated] at hreply
      obtain rfl := Option.some.inj hreply
      exact .token ⟨rfl, rfl⟩
    | tooManyTokens =>
      rw [handleGetVkToken_fst, hcreated] at hreply
      obtain rfl := Option.some.inj hreply
      exact .full
    -- a panic in `create_token` leaves nothing to reply
    | panicked =>
      rw [handleGetVkToken_fst, hcreated] at hreply
      cases hreply
  cases hdispatch : (Admin.dispatch P.services s.shared env cmd).1 with
  | none => exact .closed_of_none hdispatch
  | some reply => exact ⟨hreplied reply hdispatch, hdispatch⟩

theorem Linked.advance (h : Linked history i wire (s.phase i)) (env : Admin.Env) :
    Linked (history ++ (creates s.shared (s.phase i) (.advance env)).toList.map (some i, ·)) i
      (wire.next P s.shared (s.phase i) (.advance env)) ((s.step (i, .advance env)).phase i) := by
  cases hp : s.phase i with
  | dispatching frame =>
    rw [← hp]
    exact h.dispatch hp env
  | loading frame =>
    rw [hp] at h
    simp only [Admin.State.step, Admin.State.advance, hp, Admin.State.goto_phase_self, Wire.next]
    exact h
  | checking frame lastSeenSeq =>
    rw [hp] at h
    simp only [Admin.State.step, Admin.State.advance, hp, Wire.next]
    split
    · rw [Admin.State.goto_phase_self]
      exact h
    -- a seq that is not above the counter ends the connection without a reply
    · rw [Admin.State.goto_phase_self]
      exact .closed_of_none h.2
  | updating frame =>
    rw [hp] at h
    simp only [Admin.State.step, Admin.State.advance, hp, Wire.next]
    rw [show ((s.goto i (.dispatching frame)).phase i) = .dispatching frame from
      Admin.State.goto_phase_self s i _]
    exact h
  -- the reply has been decided; the wire already has it
  | responding reply =>
    rw [hp] at h
    simp only [Admin.State.step, Admin.State.advance, hp, Admin.State.goto_phase_self, Wire.next]
    intro reply' hreply'
    obtain rfl := Option.some.inj (h.2.symm.trans hreply')
    exact ((show Linked history i wire (.responding reply) from h).mono).1
  | closed =>
    rw [hp] at h
    simp only [Admin.State.step, Admin.State.advance, hp, Wire.next]
    exact (show Linked history i wire .closed from h).mono
  | _ =>
    rw [hp] at h
    simp only [Admin.State.step, Admin.State.advance, hp, Wire.next]
    exact h

theorem Linked.step (h : Linked history i wire (s.phase i)) (action : Admin.Action) :
    Linked (history ++ (creates s.shared (s.phase i) action).toList.map (some i, ·)) i
      (wire.next P s.shared (s.phase i) action) ((s.step (i, action)).phase i) := by
  cases action with
  | accept rng sent => exact (h.accept rng sent).mono
  | response bytes => exact (h.response bytes).mono
  | frame bytes => exact (h.frame bytes).mono
  | giveUp => exact h.giveUp.mono
  | advance env => exact h.advance env

/-- A token is created by the dispatch of `GetVkToken`, which ends the connection's part: a
connection creates one token at most. -/
theorem creates_eq_some {action : Admin.Action} {e : VkShare.Event}
    (h : creates s.shared (s.phase i) action = some e) :
    (∃ frame, s.phase i = .dispatching frame) ∧
    ((s.step (i, action)).phase i).finished = true ∧
    ∃ uuid, e.call = .create uuid P.services.verifyingKey.toList ttl := by
  cases action with
  | advance env =>
    cases hp : s.phase i with
    | dispatching frame =>
      obtain ⟨seq, cmd⟩ := frame
      rw [hp] at h
      cases cmd with
      | getVkToken =>
        refine ⟨⟨_, rfl⟩, ?_, env.uuid, ?_⟩
        · simp only [Admin.State.step, Admin.State.advance, hp]
          rw [show ((s.goto i _).phase i) = _ from Admin.State.goto_phase_self s i _]
          cases (Admin.dispatch P.services s.shared env .getVkToken).1 <;> rfl
        · rw [← Option.some.inj h]
      | getMetrics => cases h
      | rotate => cases h
    | _ =>
      rw [hp] at h
      cases h
  | _ => cases h

/-- A connection that has dispatched moves no more, but to write its reply and to close. So its
bytes are settled from there on. -/
theorem step_finished (h : (s.phase i).finished = true) (wire : Wire) (action : Admin.Action) :
    ((s.step (i, action)).phase i).finished = true ∧
    wire.next P s.shared (s.phase i) action = wire ∧
    creates s.shared (s.phase i) action = none := by
  cases hp : s.phase i with
  | responding reply =>
    cases action with
    | giveUp =>
      refine ⟨?_, rfl, rfl⟩
      simp only [Admin.State.step, hp, Admin.State.goto_phase_self]
      rfl
    | advance env =>
      refine ⟨?_, rfl, rfl⟩
      simp only [Admin.State.step, Admin.State.advance, hp, Admin.State.goto_phase_self]
      rfl
    | _ => exact ⟨by simp only [Admin.State.step, hp, Admin.Phase.finished], rfl, rfl⟩
  | closed =>
    cases action with
    | advance env =>
      exact ⟨by simp only [Admin.State.step, Admin.State.advance, hp, Admin.Phase.finished],
        rfl, rfl⟩
    | _ => exact ⟨by simp only [Admin.State.step, hp, Admin.Phase.finished], rfl, rfl⟩
  | _ =>
    rw [hp] at h
    cases h

end Steps

/-! ## The whole system -/

/-- What an admin connection has created it has created once, behind a handshake; everybody else
fetches. The wires fit the phases, the calls are sound, and every signature is the bridge's on a
hello or a call's on its own response. -/
structure Inv (w : World P) : Prop where
  linked : ∀ i, Linked w.history i (w.wires i) (w.admin.phase i)
  creator : ∀ i e, (some i, e) ∈ w.history → (w.admin.phase i).finished = true ∧
    (∃ key, Opened P (w.wires i) key) ∧
    ∃ uuid, e.call = .create uuid P.services.verifyingKey.toList ttl
  once : ∀ i e e', (some i, e) ∈ w.history → (some i, e') ∈ w.history → e = e'
  fetcher : ∀ e, (none, e) ∈ w.history → ∃ token, e.call = .fetch token
  calls : ∀ j, (w.calls j).Sound P.services.H P.services.C P.serde (P.command j)
  ofAdmin : ∀ i e, (Signer.admin i, e) ∈ w.signed → ∃ rng,
    e = ⟨P.services.verifyingKey,
      (ServerHandshake.new (H := P.services.H) rng).1.serverHelloBytes.toList⟩
  ofCli : ∀ j e, (Signer.cli j, e) ∈ w.signed → ∃ a, (w.calls j).answered = some a ∧
    e = ⟨(P.command j).adminIdentity.verifyingKey, KeyExchange.covered a⟩

theorem Inv.start : Inv (.start : World P) := by
  refine ⟨fun i => rfl, ?_, ?_, ?_, fun j => Cli.Call.Sound.start, ?_, ?_⟩ <;>
    simp [World.start]

theorem adminSigns_eq_some {phase : Admin.Phase P.services} {action : Admin.Action}
    {e : MlDsa.Signed} (h : adminSigns phase action = some e) :
    ∃ rng, e = ⟨P.services.verifyingKey,
      (ServerHandshake.new (H := P.services.H) rng).1.serverHelloBytes.toList⟩ := by
  unfold adminSigns at h
  split at h
  · rename_i rng sent
    split at h
    · dsimp only at h
      split at h
      · cases h
      · exact ⟨rng, (Option.some.inj h).symm⟩
    · cases h
  · cases h

theorem cliSigns_eq_some {command : Cli.Command} {before after : Cli.Call} {e : MlDsa.Signed}
    (h : cliSigns command before after = some e) : ∃ a, after.answered = some a ∧
      e = ⟨command.adminIdentity.verifyingKey, KeyExchange.covered a⟩ := by
  unfold cliSigns at h
  split at h
  · rename_i a hbefore hafter
    exact ⟨a, hafter, (Option.some.inj h).symm⟩
  · cases h

section Run

theorem mem_added {α β : Type} {l : List (α × β)} {a by' : α} {b : β} {added : Option β}
    (h : (a, b) ∈ l ++ added.toList.map (by', ·)) :
    (a, b) ∈ l ∨ (a = by' ∧ added = some b) := by
  rcases List.mem_append.mp h with hold | hnew
  · exact Or.inl hold
  · obtain ⟨b', hb', hpair⟩ := List.mem_map.mp hnew
    obtain ⟨rfl, rfl⟩ := Prod.mk.inj hpair
    exact Or.inr ⟨rfl, Option.mem_toList.mp hb'⟩

theorem World.step_admin_wires_self (w : World P) (i : Nat) (action : Admin.Action) :
    (w.step (.admin i action)).wires i =
      (w.wires i).next P w.admin.shared (w.admin.phase i) action :=
  Function.update_self ..

theorem World.step_admin_wires_of_ne (w : World P) {i k : Nat} (hk : k ≠ i)
    (action : Admin.Action) : (w.step (.admin i action)).wires k = w.wires k :=
  Function.update_of_ne hk ..

/-- Who has created before is finished, and its wire stays as it is. Who creates now dispatches a
command, and so has passed its handshake. -/
theorem Inv.creator_admin (h : Inv w) {i k : Nat} (action : Admin.Action) {e : VkShare.Event}
    (he : (some k, e) ∈ (w.step (.admin i action)).history) :
    ((w.step (.admin i action)).admin.phase k).finished = true ∧
      (∃ key, Opened P ((w.step (.admin i action)).wires k) key) ∧
      ∃ uuid, e.call = .create uuid P.services.verifyingKey.toList ttl := by
  rcases mem_added he with hold | ⟨hk, hnew⟩
  · obtain ⟨hfinished, hopened, hcall⟩ := h.creator k e hold
    by_cases hk : k = i
    · subst hk
      obtain ⟨hstill, hwire, -⟩ := step_finished hfinished (w.wires k) action
      rw [w.step_admin_wires_self, hwire]
      exact ⟨hstill, hopened, hcall⟩
    · rw [w.step_admin_wires_of_ne hk]
      refine ⟨?_, hopened, hcall⟩
      rw [show (w.step (.admin i action)).admin.phase k = w.admin.phase k from
        Admin.State.step_phase_of_ne w.admin hk action]
      exact hfinished
  · obtain rfl := Option.some.inj hk
    obtain ⟨⟨frame, hp⟩, hfinished, hcall⟩ := creates_eq_some hnew
    have hlinked := h.linked k
    rw [hp] at hlinked
    obtain ⟨key, hopened⟩ := hlinked.1.opened
    refine ⟨hfinished, ⟨key, ?_⟩, hcall⟩
    rw [w.step_admin_wires_self, hp]
    cases action with
    | advance env => exact hopened.congr rfl rfl
    | _ => exact hopened

/-- A connection that creates is not finished yet, so it has created nothing. -/
theorem Inv.once_admin (h : Inv w) {i k : Nat} (action : Admin.Action) {e e' : VkShare.Event}
    (he : (some k, e) ∈ (w.step (.admin i action)).history)
    (he' : (some k, e') ∈ (w.step (.admin i action)).history) : e = e' := by
  rcases mem_added he with hold | ⟨hk, hnew⟩
  · rcases mem_added he' with hold' | ⟨hk', hnew'⟩
    · exact h.once k e e' hold hold'
    · obtain rfl := Option.some.inj hk'
      obtain ⟨-, -, hnone⟩ := step_finished (h.creator k e hold).1 (w.wires k) action
      rw [hnone] at hnew'
      cases hnew'
  · rcases mem_added he' with hold' | ⟨hk', hnew'⟩
    · obtain rfl := Option.some.inj hk
      obtain ⟨-, -, hnone⟩ := step_finished (h.creator k e' hold').1 (w.wires k) action
      rw [hnone] at hnew
      cases hnew
    · exact Option.some.inj (hnew.symm.trans hnew')

theorem Inv.admin (h : Inv w) (i : Nat) (action : Admin.Action) :
    Inv (w.step (.admin i action)) := by
  refine ⟨?_, fun k e he => h.creator_admin action he, fun k e e' he he' =>
    h.once_admin action he he', ?_, h.calls, ?_, ?_⟩
  -- the wires fit the phases: only connection `i` has moved
  · intro k
    by_cases hk : k = i
    · subst hk
      rw [w.step_admin_wires_self]
      exact (h.linked k).step action
    · rw [w.step_admin_wires_of_ne hk, show (w.step (.admin i action)).admin.phase k =
        w.admin.phase k from Admin.State.step_phase_of_ne w.admin hk action]
      exact (h.linked k).mono
  · intro e he
    rcases mem_added he with hold | ⟨hk, -⟩
    · exact h.fetcher e hold
    · cases hk
  -- the signatures: a new one is on the hello that the connection has just sent
  · intro k e he
    rcases mem_added he with hold | ⟨-, hnew⟩
    · exact h.ofAdmin k e hold
    · exact adminSigns_eq_some hnew
  · intro j e he
    rcases mem_added he with hold | ⟨hj, -⟩
    · exact h.ofCli j e hold
    · cases hj

theorem Inv.cli (h : Inv w) (j : Nat) (event : Cli.Event) : Inv (w.step (.cli j event)) := by
  have hself : (w.step (.cli j event)).calls j =
      (w.calls j).step P.services.H P.services.C P.serde (P.command j) event :=
    Function.update_self ..
  have hother : ∀ k, k ≠ j → (w.step (.cli j event)).calls k = w.calls k :=
    fun k hk => Function.update_of_ne hk ..
  obtain ⟨hsound, hanswered⟩ := (h.calls j).step event
  refine ⟨h.linked, h.creator, h.once, h.fetcher, ?_, ?_, ?_⟩
  · intro k
    by_cases hk : k = j
    · subst hk
      rw [hself]
      exact hsound
    · rw [hother k hk]
      exact h.calls k
  · intro k e he
    rcases mem_added he with hold | ⟨hk, -⟩
    · exact h.ofAdmin k e hold
    · cases hk
  · intro k e he
    rcases mem_added he with hold | ⟨hk, hnew⟩
    -- an older signature is on an answer, and answers are given once and for all
    · obtain ⟨a, ha, heq⟩ := h.ofCli k e hold
      refine ⟨a, ?_, heq⟩
      by_cases hk : k = j
      · subst hk
        rcases hanswered with hnone | hsame
        · rw [hnone] at ha
          cases ha
        · rw [hself, hsame]
          exact ha
      · rw [hother k hk]
        exact ha
    · obtain rfl := Signer.cli.inj hk
      obtain ⟨a, ha, heq⟩ := cliSigns_eq_some hnew
      exact ⟨a, hself ▸ ha, heq⟩

theorem Inv.https (h : Inv w) (request : Request) : Inv (w.step (.https request)) := by
  refine ⟨fun i => (h.linked i).mono, ?_, ?_, ?_, h.calls, h.ofAdmin, h.ofCli⟩
  · intro i e he
    rcases mem_added he with hold | ⟨hi, -⟩
    · exact h.creator i e hold
    · cases hi
  · intro i e e' he he'
    rcases mem_added he with hold | ⟨hi, -⟩
    · rcases mem_added he' with hold' | ⟨hi', -⟩
      · exact h.once i e e' hold hold'
      · cases hi'
    · cases hi
  · intro e he
    rcases mem_added he with hold | ⟨-, hnew⟩
    · exact h.fetcher e hold
    · unfold fetches at hnew
      split at hnew
      · obtain ⟨token, -, rfl⟩ := Option.map_eq_some_iff.mp hnew
        exact ⟨token, rfl⟩
      · cases hnew

theorem inv_run (P : Parties) (events : List Event) : Inv (World.run P events) := by
  induction events using List.reverseRecOn with
  | nil => exact .start
  | append_singleton events event ih =>
    rw [World.run, List.foldl_append]
    cases event with
    | admin i action => exact ih.admin i action
    | cli j event => exact ih.cli j event
    | https request => exact ih.https request

end Run

end LatticeShield.VkDistribution
