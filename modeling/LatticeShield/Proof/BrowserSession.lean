import LatticeShield.Lib.Lists
import LatticeShield.Lib.Runs
import LatticeShield.Proof.Agreement
import LatticeShield.Proof.Handshake
import LatticeShield.Proof.WasmHandshake
import LatticeShield.Proof.WsMessages
import LatticeShield.Proof.WsReads
import LatticeShield.System.BrowserSession

/-!
# What a browser and its backend say to each other

Everything that either side says arrives on the other, once and in order, until the bridge first
rotates the key (`messages_relayed`). The two directions share nothing but the key.

On the way up (`Up`) there are frames, the first of which may be half read. A frame is a message of
the WebSocket, and that is what makes the relay's `select!` harmless here: the `read_frame` that is
dropped for another arm has taken a whole message or nothing. On the way down (`Down`) there are
frames that have not reached the browser, and behind them handlers of the worker that have not
resumed.

What is asked of a run is in `Steady`: calls of `send` that wait for one another, decryptions that
end in the order in which they began, and no rotation.
-/

set_option autoImplicit false

namespace LatticeShield.Browser

open Lib Bridge EncryptedChannel

/-! ## A message at a time -/

section Messages

def payload? : WsEvent → Option Bytes
  | .message (.binary data) => some data
  | _ => none

/-- What a browser and a socket without errors make the stream say. `encryptAndSend` sends binary
messages only, and a frame is never empty; pings, pongs and the close are the socket's own. -/
def Expected : WsEvent → Prop
  | .err => False
  | .message (.text _) => False
  | .message (.binary data) => data ≠ []
  | _ => True

def messages (s : WsStream) : List Bytes := s.events.filterMap payload?

/-- One byte of a message, the end of the stream, or nothing. The bridge reads byte by byte here,
so a poll never goes over the end of a message. -/
inductive Polls (s : WsStream) : PollRead × WsStream → Prop where
  | rest {b : UInt8} {bs : Bytes} {s' : WsStream} (before : s.unread = b :: bs)
      (unread : s'.unread = bs) (behind : messages s' = messages s) :
      Polls s (.ready [b], s')
  | next {b : UInt8} {bs : Bytes} {s' : WsStream} (before : s.unread = [])
      (unread : s'.unread = bs) (behind : messages s = (b :: bs) :: messages s') :
      Polls s (.ready [b], s')
  | ends {s' : WsStream} : Polls s (.ready [], s')
  | waits {s' : WsStream} (before : s.unread = []) (unread : s'.unread = [])
      (behind : messages s' = messages s) : Polls s (.pending, s')

variable {s : WsStream}

theorem drain_one {b : UInt8} {bs : Bytes} (h : s.unread = b :: bs) :
    ∃ s', s.drain 1 = (.ready [b], s') ∧ s'.unread = bs ∧ s'.events = s.events := by
  have hlength : (s.readBuf.drop s.readPos).length = bs.length + 1 := by
    rw [show s.readBuf.drop s.readPos = b :: bs from h]
    rfl
  have hfst : (s.drain 1).1 = .ready [b] := by
    unfold WsStream.drain
    dsimp only
    rw [hlength, show s.readBuf.drop s.readPos = b :: bs from h, Nat.min_eq_right (by omega)]
    rfl
  have hunread := WsStream.drain_unread s 1
  rw [hfst, h] at hunread
  refine ⟨(s.drain 1).2, Prod.ext hfst rfl, ?_, WsStream.drain_events s 1⟩
  exact (List.cons.inj hunread).2

theorem pollLoop_unread {b : UInt8} {bs : Bytes} (h : s.unread = b :: bs) (events : List WsEvent) :
    ∃ s', WsStream.pollLoop 1 events s = (.ready [b], s') ∧ s'.unread = bs ∧
      s'.events = events := by
  have hbuf : s.readPos < s.readBuf.length := by
    have hlength := congrArg List.length h
    simp only [WsStream.unread, List.length_drop, List.length_cons] at hlength
    omega
  obtain ⟨s', hdrain, hunread, hevents⟩ := drain_one (s := { s with events := events }) h
  exact ⟨s', by rw [WsStream.pollLoop_buffered hbuf, hdrain], hunread, hevents⟩

/-- What a poll finds when nothing is buffered. The induction is on the events that it goes
through. -/
theorem pollLoop_polls (events : List WsEvent) (hevents : ∀ e ∈ events, Expected e)
    (hnil : s.unread = []) (hs : s.events = events) :
    Polls s (WsStream.pollLoop 1 events s) := by
  have hbuf : ¬ s.readPos < s.readBuf.length := by
    intro hlt
    have hlength := congrArg List.length hnil
    simp only [WsStream.unread, List.length_drop, List.length_nil] at hlength
    omega
  induction events generalizing s with
  | nil =>
    rw [WsStream.pollLoop, if_neg hbuf]
    exact .waits hnil hnil (by rw [messages, messages, hs])
  | cons event rest ih =>
    obtain ⟨hevent, hrest⟩ := List.forall_mem_cons.mp hevents
    rw [WsStream.pollLoop.eq_def, if_neg hbuf]
    -- an event without bytes, with the loop going on behind it
    have hgo : payload? event = none →
        Polls s (WsStream.pollLoop 1 rest { s with events := rest }) := by
      intro hpayload
      have hmessages : messages s = messages { s with events := rest } := by
        rw [messages, hs, List.filterMap_cons_none hpayload, messages]
      have hpolls := ih (s := { s with events := rest }) hrest hnil rfl hbuf
      generalize WsStream.pollLoop 1 rest { s with events := rest } = result at hpolls
      cases hpolls with
      | rest before => cases hnil.symm.trans before
      | next before unread behind => exact .next hnil unread (hmessages.trans behind)
      | ends => exact .ends
      | waits before unread behind => exact .waits hnil unread (behind.trans hmessages.symm)
    cases event with
    | pending =>
      refine .waits hnil hnil ?_
      rw [messages, messages, hs]
      exact (List.filterMap_cons_none rfl).symm
    | none => exact .ends
    | err => exact hevent.elim
    | message msg =>
      cases msg with
      | binary data =>
        cases data with
        | nil => exact absurd rfl hevent
        | cons b bs =>
          obtain ⟨s', hpoll, hunread, hs'⟩ := pollLoop_unread
            (s := { s with events := rest, readBuf := b :: bs, readPos := 0 }) rfl rest
          have hbehind : messages s = (b :: bs) :: messages s' := by
            rw [messages, hs, messages, hs']
            rfl
          have hnext := Polls.next hnil hunread hbehind
          rw [← hpoll] at hnext
          exact hnext
      | text text => exact hevent.elim
      | close => exact .ends
      | ping => exact hgo rfl
      | pong => exact hgo rfl
      | frame => exact hgo rfl

/-- **A poll and the messages.** Whether it finds something buffered or has to go through the
events first, a poll of one byte gives a byte of the first message that is left, the end of the
stream, or nothing yet. -/
theorem pollRead_polls (hevents : ∀ e ∈ s.events, Expected e) : Polls s (s.pollRead 1) := by
  unfold WsStream.pollRead
  cases hunread : s.unread with
  | nil => exact pollLoop_polls s.events hevents hunread rfl
  | cons b bs =>
    obtain ⟨s', hpoll, hrest, hs'⟩ := pollLoop_unread hunread s.events
    rw [hpoll]
    exact .rest hunread hrest (by rw [messages, hs', messages])

theorem pollLoop_writes (events : List WsEvent) (s : WsStream) :
    (WsStream.pollLoop 1 events s).2.sent = s.sent ∧
      (WsStream.pollLoop 1 events s).2.writeBuf = s.writeBuf := by
  induction events generalizing s with
  | nil =>
    rw [WsStream.pollLoop]
    split
    · unfold WsStream.drain
      dsimp only
      split <;> exact ⟨rfl, rfl⟩
    · exact ⟨rfl, rfl⟩
  | cons event rest ih =>
    rw [WsStream.pollLoop.eq_def]
    split
    · unfold WsStream.drain
      dsimp only
      split <;> exact ⟨rfl, rfl⟩
    · cases event with
      | message msg =>
        cases msg with
        | binary data =>
          dsimp only
          split
          · exact ⟨rfl, rfl⟩
          · exact ih _
        | text text =>
          dsimp only
          split
          · exact ⟨rfl, rfl⟩
          · exact ih _
        | close => exact ⟨rfl, rfl⟩
        | ping => exact ih _
        | pong => exact ih _
        | frame => exact ih _
      | pending => exact ⟨rfl, rfl⟩
      | none => exact ⟨rfl, rfl⟩
      | err => exact ⟨rfl, rfl⟩

theorem pollRead_expected (hevents : ∀ e ∈ s.events, Expected e) :
    ∀ e ∈ (s.pollRead 1).2.events, Expected e := by
  obtain ⟨polled, hpolled⟩ := WsStream.pollLoop_spec Nat.one_pos s.events s
  intro e he
  refine hevents e ?_
  rw [hpolled.events_eq]
  exact List.mem_append_right polled he

end Messages

/-! ## On the way up -/

section Up

variable {C : CipherSuite} {size n i : Nat} {key : Key} {R R' : EncryptedChannel} {r : Relay}
  {stream : WsStream} {handed : List Bytes}

/-- The reader at the end of the way: what it needs for the frame with seq `n`. Seqs may be left
out, so `fresh` is an inequality. -/
structure Reads (size : Nat) (key : Key) (n : Nat) (tail : EncryptedChannel) : Prop where
  key : tail.keyBytes = key
  fresh : tail.recvInitialized = true → tail.recvSeq.toNat < n
  size : tail.maxFrameSize = size

/-- The worker's frame is read as what was to be sent, by any reader that is as far as the worker
is and has the same key. -/
theorem encodeFrame_delivers (hsize : ValidFrameSize size) {p : Bytes}
    (hp : p.length ≤ size) (hn : n < 2 ^ 64) :
    ∃ frame, frame ≠ [] ∧ Js.encodeFrame C ⟨key, key⟩ n p = .ok frame ∧
      ∀ {tail : EncryptedChannel}, Reads size key n tail →
        ∃ tail', Delivers C tail frame (.data p) tail' ∧ Reads size key (n + 1) tail' := by
  have hmax := hsize.2
  have htoNat : (UInt64.ofNat n).toNat = n := UInt64.toNat_ofNat_of_lt' hn
  obtain ⟨ct, tag, henc⟩ := C.aead.exists_encrypt key (dataNonce (UInt64.ofNat n) 0)
    (u64ToBe (UInt64.ofNat n)).toList (p := p) (by rw [C.pMax]; unfold gcmPMax; omega)
  have hct := C.aead.length_ct _ _ _ _ _ _ henc
  refine ⟨dataFrame (UInt32.ofNat (ct.length + 16)) (u64ToBe (UInt64.ofNat n))
    (dataNonce (UInt64.ofNat n) 0) ct tag, ?_, ?_, ?_⟩
  · simp [dataFrame]
  · have hencode := Js.encodeFrame_toNat C ⟨key, key⟩ (UInt64.ofNat n) p
    rw [htoNat] at hencode
    rw [hencode]
    simp only [henc]
  · intro tail h
    refine ⟨tail.acceptData (UInt64.ofNat n), .data ⟨?_, ?_, ?_, ?_⟩, h.key, ?_, h.size⟩
    · rw [UInt32.toNat_ofNat', Nat.mod_eq_of_lt (by omega)]
    · rw [h.size]
      omega
    · intro hinit
      rw [UInt64.lt_iff_toNat_lt, htoNat]
      exact h.fresh hinit
    · rw [h.key]
      exact C.aead.decrypt_encrypt _ _ _ _ _ _ henc
    · intro _
      show (UInt64.ofNat n).toNat < n + 1
      rw [htoNat]
      exact Nat.lt_succ_self n

/-- What is left of the frame that is being read, and the frames behind it: the bytes that
`read_frame` has taken count as on their way, for dropped they would be lost. -/
def flight (r : Relay) (stream : WsStream) : List Bytes :=
  (if r.taken ++ stream.unread = [] then [] else [r.taken ++ stream.unread]) ++ messages stream

/-- The browser has handed `handed` to its socket, and has sent `n` frames under `key`. Frame by
frame, what is in flight opens, on a channel in the reader's state, to the plaintexts that the
backend has not been given. -/
structure Climbs (C : CipherSuite) (size : Nat) (key : Key) (n : Nat) (r : Relay)
    (stream : WsStream) (handed : List Bytes) : Prop where
  carried : ∃ ps tail, Carries C r.channel (flight r stream) (ps.map .data) tail ∧
    Reads size key n tail ∧ handed = r.toBackend ++ ps ∧ ∀ p ∈ ps, p ≠ []
  suspended : (readFrame C.aead.decrypt r.channel).run r.taken = none

/-- How a session ends here. Nothing is cut, forged or out of turn, so only an end of file is
left, the backend's or the browser's. -/
def Orderly : Finish → Prop
  | .frameError e => e = .io .unexpectedEof
  | .emptyFrame => False
  | .unexpectedKeyRotate => False
  | .backendClosed => True
  | .backendError => True
  | .failed _ => True

def Up (C : CipherSuite) (size : Nat) (key : Key) (n : Nat) (r : Relay) (stream : WsStream)
    (handed : List Bytes) : Prop :=
  match r.finished with
  | none => Climbs C size key n r stream handed
  | some f => Orderly f ∧ r.toBackend <+: handed

theorem Climbs.up (h : Climbs C size key n r stream handed) (hlive : r.finished = none) :
    Up C size key n r stream handed := by
  unfold Up
  rw [hlive]
  exact h

theorem Up.congr {stream' : WsStream} (h : Up C size key n r stream handed)
    (hunread : stream'.unread = stream.unread) (hmessages : messages stream' = messages stream) :
    Up C size key n r stream' handed := by
  have hflight : flight r stream' = flight r stream := by
    unfold flight
    rw [hunread, hmessages]
  unfold Up at h ⊢
  cases hfinished : r.finished with
  | some f =>
    rw [hfinished] at h
    exact h
  | none =>
    rw [hfinished] at h
    obtain ⟨ps, tail, hcarries, hrest⟩ := h.carried
    exact ⟨⟨ps, tail, hflight ▸ hcarries, hrest⟩, h.suspended⟩

/-- The bridge has written `i` frames, and has not rotated. Its counter is then `i`, as long as
that fits. -/
structure Writes (key : Key) (i : Nat) (ch : EncryptedChannel) : Prop where
  key : ch.keyBytes = key
  epoch : ch.epoch = 0
  sendSeq : ch.sendSeq = UInt64.ofNat i

theorem Writes.delivers {f p : Bytes} (h : Writes key i R) (hd : Delivers C R f (.data p) R') :
    Writes key i R' := by
  cases hd with
  | data => exact ⟨h.key, h.epoch, h.sendSeq⟩

/-- What a poll of `read_frame` does to the relay. -/
def polled (C : CipherSuite) (r : Relay) (takes : Bool) : PollRead → Relay
  | .ready (b :: _) => (r.receive C b takes).1
  | .ready [] => r.receiveEof.1
  | .pending => r
  | .brokenPipe => r

theorem Climbs.prefix_handed (h : Climbs C size key n r stream handed) :
    r.toBackend <+: handed := by
  obtain ⟨ps, -, -, -, hhanded, -⟩ := h.carried
  exact ⟨ps, hhanded.symm⟩

/-- A frame that is there as a whole has been read. So with nothing unread the reader holds no
part of one. -/
theorem Climbs.taken_eq_nil (h : Climbs C size key n r stream handed) (hnil : stream.unread = []) :
    r.taken = [] := by
  by_contra htaken
  obtain ⟨ps, tail, hcarries, -⟩ := h.carried
  have hflight : flight r stream = r.taken :: messages stream := by
    unfold flight
    rw [hnil, List.append_nil, if_neg htaken]
    rfl
  rw [hflight] at hcarries
  generalize ps.map FrameResult.data = items at hcarries
  cases hcarries with
  | cons hdeliver _ =>
    obtain ⟨ch, hrun, -⟩ := hdeliver.run
    rw [h.suspended] at hrun
    cases hrun

/-- **A byte of the frame that is being read.** The last one completes it, and then the reader has
moved on by that frame and the backend is given its plaintext; any other leaves the reader
suspended. -/
theorem Climbs.receive (h : Climbs C size key n r stream handed) (hlive : r.finished = none)
    (hwrites : Writes key i r.channel) {b : UInt8} {bs : Bytes} {ms : List Bytes}
    (hflight : flight r stream = (r.taken ++ b :: bs) :: ms) {stream' : WsStream}
    (hunread : stream'.unread = bs) (hbehind : messages stream' = ms) (takes : Bool) :
    Up C size key n (r.receive C b takes).1 stream' handed ∧
      Writes key i (r.receive C b takes).1.channel := by
  obtain ⟨ps, tail, hcarries, hreads, hhanded, hfull⟩ := h.carried
  rw [hflight] at hcarries
  cases ps with
  | nil => cases hcarries
  | cons p ps =>
    obtain ⟨hne, hfull⟩ := List.forall_mem_cons.mp hfull
    cases hcarries with
    | @cons _ R' _ _ _ _ _ hdeliver hcarries =>
      obtain ⟨ch, hrun, hfollow⟩ := hdeliver.run
      obtain rfl : R' = ch := hfollow
      have hwrites' := hwrites.delivers hdeliver
      have hall : r.taken ++ b :: bs = (r.taken ++ b :: bs) ++ [] := (List.append_nil _).symm
      -- the frame is whole with this byte, or the reader waits for more of it
      rcases Reader.run_feed hrun h.suspended hall with ⟨hwhole, rfl⟩ | hpart
      · -- the last byte
        have hreceive : (r.receive C b takes).1 =
            { r with channel := R', taken := [] }.onFrame takes (.ok (.data p)) := by
          unfold Relay.receive pollFrame
          rw [hwhole, hrun]
          rfl
        rw [hreceive]
        unfold Relay.onFrame
        dsimp only
        rw [if_neg hne]
        -- a backend that refuses the write ends the relay with this frame lost, an orderly end
        cases takes with
        | false =>
          refine ⟨⟨trivial, ?_⟩, hwrites'⟩
          rw [hhanded]
          exact List.prefix_append _ _
        | true =>
          refine ⟨Climbs.up ⟨⟨ps, tail, ?_, hreads, ?_, hfull⟩, readFrame_run_nil _⟩ hlive, hwrites'⟩
          · unfold flight
            rw [hunread, hbehind]
            exact hcarries
          · rw [hhanded]
            show _ = r.toBackend ++ [p] ++ ps
            rw [List.append_assoc]
            rfl
      -- the frame stays the first one in flight; only the border between taken and unread moves
      · have hreceive : (r.receive C b takes).1 = { r with taken := r.taken ++ [b] } := by
          unfold Relay.receive pollFrame
          rw [hpart]
          rfl
        rw [hreceive]
        refine ⟨Climbs.up ⟨⟨p :: ps, tail, ?_, hreads, hhanded,
          List.forall_mem_cons.mpr ⟨hne, hfull⟩⟩, hpart⟩ hlive, hwrites⟩
        unfold flight
        rw [hunread, hbehind, List.append_assoc, List.singleton_append, if_neg (by simp)]
        exact .cons hdeliver hcarries

/-- **What a poll does on the way up.** By the three outcomes of `Polls`: a byte is received, at
the end of the stream the relay finishes in order, and without anything to read nothing changes. -/
theorem Climbs.poll (h : Climbs C size key n r stream handed) (hlive : r.finished = none)
    (hwrites : Writes key i r.channel) {result : PollRead × WsStream} (hpolls : Polls stream result)
    (takes : Bool) :
    Up C size key n (polled C r takes result.1) result.2 handed ∧
      Writes key i (polled C r takes result.1).channel := by
  cases hpolls with
  | rest before unread behind =>
    refine h.receive hlive hwrites ?_ unread behind takes
    unfold flight
    rw [before, if_neg (by simp)]
    rfl
  | next before unread behind =>
    refine h.receive hlive hwrites ?_ unread rfl takes
    unfold flight
    rw [h.taken_eq_nil before, before, behind]
    rfl
  | ends => exact ⟨⟨rfl, h.prefix_handed⟩, hwrites⟩
  | waits before unread behind =>
    exact ⟨(h.up hlive).congr (unread.trans before.symm) behind, hwrites⟩

/-- **The browser hands over a frame.** It goes to the end of what is in flight, where it opens
because the tail reader is where the frame expects it. -/
theorem Up.hand (h : Up C size key n r stream handed) {frame p : Bytes}
    (hne : p ≠ []) (hdelivers : ∀ {tail : EncryptedChannel}, Reads size key n tail →
      ∃ tail', Delivers C tail frame (.data p) tail' ∧ Reads size key (n + 1) tail')
    {stream' : WsStream} (hunread : stream'.unread = stream.unread)
    (hmessages : messages stream' = messages stream ++ [frame]) :
    Up C size key (n + 1) r stream' (handed ++ [p]) := by
  unfold Up at h ⊢
  cases hfinished : r.finished with
  | some f =>
    rw [hfinished] at h
    exact ⟨h.1, h.2.trans (List.prefix_append _ _)⟩
  | none =>
    rw [hfinished] at h
    obtain ⟨ps, tail, hcarries, hreads, hhanded, hfull⟩ := h.carried
    obtain ⟨tail', hdeliver, hreads'⟩ := hdelivers hreads
    have hflight : flight r stream' = flight r stream ++ [frame] := by
      unfold flight
      rw [hunread, hmessages, List.append_assoc]
    refine ⟨⟨ps ++ [p], tail', ?_, hreads', ?_, forall_mem_snoc.mpr ⟨hfull, hne⟩⟩, h.suspended⟩
    · rw [hflight, List.map_append]
      exact hcarries.snoc hdeliver
    · rw [hhanded, List.append_assoc]

/-- An arm that does not rotate has read nothing, and ends the session or leaves it alone; or it
writes a frame of what it has read. -/
theorem iterate_of_not_rotates (C : CipherSuite) (cfg : ValidConfig) (r : Relay) {arm : Arm}
    (draw : Draw) (h : r.rotates cfg arm = false) :
    (State.armRead cfg arm = [] ∧
      ((∃ f, Orderly f ∧
        r.iterate C cfg arm (Session.reliable draw) = ({ r with taken := [] }.finish f, [])) ∨
      r.iterate C cfg arm (Session.reliable draw) = ({ r with taken := [] }, []) ∨
      r.iterate C cfg arm (Session.reliable draw) = (r, []))) ∨
    ∃ p bytes, State.armRead cfg arm = [p] ∧ p.length ≤ cfg.maxFrameSize ∧
      r.iterate C cfg arm (Session.reliable draw) =
        ({ r with
            channel := { r.channel with sendSeq := r.channel.sendSeq + 1 }
            taken := []
            bytesThisEpoch := bytes }, [⟨.data p, (writeFrame C r.channel .accepts p).bytes⟩]) := by
  cases arm with
  -- the key is rotated whenever the timer is enabled, so here it is off and its turn changes
  -- nothing
  | timer =>
    have henabled : ¬ Arm.timer.enabled cfg = true := by
      intro hon
      exact Bool.false_ne_true (h.symm.trans hon)
    exact Or.inl ⟨rfl, Or.inr (Or.inr (if_neg henabled))⟩
  -- a notification would rotate; what is left is the sender of the notifications being gone
  | manual alive =>
    obtain rfl : alive = false := h
    exact Or.inl ⟨rfl, Or.inr (Or.inl rfl)⟩
  | backend read =>
    cases hread : read.into cfg.maxFrameSize with
    | err =>
      refine Or.inl ⟨?_, Or.inl ⟨.backendError, trivial, ?_⟩⟩
      · simp only [State.armRead, SocketRead.chunk, hread, Option.toList]
      · simp only [Relay.iterate, Arm.enabled, if_true, Relay.select, hread, Relay.onBackend,
          Bool.false_eq_true, if_false]
    | ok buf =>
      cases buf with
      -- `Ok(0)` is the end of the backend's stream: the relay ends without a frame
      | nil =>
        refine Or.inl ⟨?_, Or.inl ⟨.backendClosed, trivial, ?_⟩⟩
        · simp only [State.armRead, SocketRead.chunk, hread, Option.toList]
        · simp only [Relay.iterate, Arm.enabled, if_true, Relay.select, hread, Relay.onBackend,
            Bool.false_eq_true, if_false]
      -- the one arm that writes: the bytes read fit into the buffer, so `write_frame` cannot refuse
      -- them
      | cons b bs =>
        have hchunk : read.chunk cfg.maxFrameSize = some (b :: bs) :=
          SocketRead.chunk_eq_some.mpr ⟨hread, List.cons_ne_nil b bs⟩
        have hlength := SocketRead.length_chunk_le hchunk
        have hwrite := writeFrame_reliable C r.channel
          (length_le_gcmPMax cfg.validFrameSize hlength)
        unfold Relay.rotates at h
        dsimp only at h
        rw [hchunk] at h
        refine Or.inr ⟨b :: bs, r.bytesThisEpoch + UInt64.ofNat (b :: bs).length, ?_, hlength, ?_⟩
        · simp only [State.armRead, hchunk, Option.toList]
        · simp only [Relay.iterate, Arm.enabled, if_true, Relay.select, hread, Relay.onBackend,
            Session.reliable]
          rw [hwrite]
          dsimp only at h ⊢
          rw [h]
          rfl

/-- Seen from the browser, it writes a frame of what it has read, if anything. The rest of what an
iteration may do does not reach the socket. -/
theorem iterate_writes (C : CipherSuite) (cfg : ValidConfig) (r : Relay) {arm : Arm}
    (draw : Draw) (h : r.rotates cfg arm = false) :
    (State.armRead cfg arm = [] ∧ (r.iterate C cfg arm (Session.reliable draw)).2 = [] ∧
      (r.iterate C cfg arm (Session.reliable draw)).1.channel = r.channel) ∨
    ∃ p, State.armRead cfg arm = [p] ∧ p.length ≤ cfg.maxFrameSize ∧
      (r.iterate C cfg arm (Session.reliable draw)).2 =
        [⟨.data p, (writeFrame C r.channel .accepts p).bytes⟩] ∧
      (r.iterate C cfg arm (Session.reliable draw)).1.channel =
        { r.channel with sendSeq := r.channel.sendSeq + 1 } := by
  rcases iterate_of_not_rotates C cfg r draw h with
    ⟨hnone, ⟨f, -, heq⟩ | heq | heq⟩ | ⟨p, bytes, hread, hp, heq⟩
  · rw [heq]
    exact Or.inl ⟨hnone, rfl, rfl⟩
  · rw [heq]
    exact Or.inl ⟨hnone, rfl, rfl⟩
  · rw [heq]
    exact Or.inl ⟨hnone, rfl, rfl⟩
  · rw [heq]
    exact Or.inr ⟨p, hread, hp, rfl, rfl⟩

/-- **Another arm completes** while `read_frame` waits. The bytes it had taken are dropped with
its future; that there are none is what `Steady` gives, for the browser hands over whole frames. -/
theorem Climbs.arm (h : Climbs C size key n r stream handed) (hlive : r.finished = none)
    (htaken : r.taken = []) {stream' : WsStream} (hunread : stream'.unread = stream.unread)
    (hmessages : messages stream' = messages stream) {cfg : ValidConfig} {arm : Arm} (draw : Draw)
    (hrotates : r.rotates cfg arm = false) :
    Up C size key n (r.iterate C cfg arm (Session.reliable draw)).1 stream' handed := by
  have hup := (h.up hlive).congr hunread hmessages
  have hsame : { r with taken := [] } = r := by
    rw [← htaken]
  rcases iterate_of_not_rotates C cfg r draw hrotates with
    ⟨-, ⟨f, horderly, heq⟩ | heq | heq⟩ | ⟨p, bytes, -, -, heq⟩
  · rw [heq]
    exact ⟨horderly, h.prefix_handed⟩
  · rw [heq, hsame]
    exact hup
  · rw [heq]
    exact hup
  · rw [heq]
    refine (?_ : Up C size key n _ stream handed).congr hunread hmessages
    refine Climbs.up ?_ hlive
    obtain ⟨ps, tail, hcarries, hreads, hrest⟩ := h.carried
    obtain ⟨q, k, hcarries'⟩ :=
      hcarries.withSend (r.channel.sendSeq + 1) r.channel.keyRotateSendSeq
    refine ⟨⟨ps, tail.withSend q k, ?_, ⟨hreads.key, hreads.fresh, hreads.size⟩, hrest⟩,
      readFrame_run_nil _⟩
    have hflight : flight r stream = flight { r with taken := [] } stream := by
      rw [hsame]
    rw [hflight] at hcarries'
    exact hcarries'

end Up

/-! ## On the way down -/

section Down

variable {C : CipherSuite} {key : Key} {n i arrived : Nat} {w : Js.Worker}
  {decodes : List Js.Pending} {sent backendRead emitted : List Bytes}

/-- A frame that the worker accepts as the `n`-th and opens to `p`. The counters are those it will
have at the time, whatever they are. -/
structure Opens (C : CipherSuite) (key : Key) (n : Nat) (frame p : Bytes) : Prop where
  data : frame.headD 0 = frameData
  ne_nil : frame ≠ []
  opens : ∀ recvSeq recvInitialized, (recvInitialized = true → recvSeq < n) →
    Js.decodeFrame C ⟨key, key⟩ frame recvSeq recvInitialized = .ok (p, n)

theorem writeFrame_opens {size : Nat} (hsize : ValidFrameSize size) {ch : EncryptedChannel}
    (h : Writes key n ch) {p : Bytes} (hp : p.length ≤ size) (hn : n < 2 ^ 64) :
    Opens C key n (writeFrame C ch .accepts p).bytes p := by
  have hmax := hsize.2
  have hseq : ch.sendSeq.toNat = n := by
    rw [h.sendSeq, UInt64.toNat_ofNat_of_lt' hn]
  obtain ⟨ct, tag, hct, hopen, hwrite⟩ := writeFrame_accepts C ch (length_le_gcmPMax hsize hp)
  have hlen : (UInt32.ofNat (ct.length + 16)).toNat = (ct ++ tag.toList).length := by
    rw [List.length_append, List.Vector.toList_length]
    exact UInt32.toNat_ofNat_of_lt' (by unfold UInt32.size; omega)
  rw [hwrite]
  refine ⟨rfl, by simp [dataFrame], ?_⟩
  intro recvSeq recvInitialized hfresh
  refine (Js.decodeFrame_dataFrame_iff C _ _ _ _ _ _ ?_ _ _ _ _).mpr ⟨hseq.symm, ?_, ?_, ?_⟩
  · rw [hlen, List.length_append, List.Vector.toList_length]
  · rintro ⟨hinit, hle⟩
    have hlt := hfresh hinit
    omega
  · rw [h.epoch]
  · rw [hlen, List.take_length, Js.subtleDecrypt_append, ← h.key, hopen]

/-- A handler that waits for the `n`-th frame to be opened. It holds the counters it began with,
which other frames may have moved on since. -/
inductive Suspended (C : CipherSuite) (key : Key) (n : Nat) : Js.Pending → Bytes → Prop where
  | decodeFrame {id : String} {frame p : Bytes} {recvSeq : Nat} {recvInitialized : Bool}
      (opens : Opens C key n frame p) (fresh : recvInitialized = true → recvSeq < n) :
      Suspended C key n (.decodeFrame id ⟨key, key⟩ frame recvSeq recvInitialized) p

/-- The bridge has read `backendRead`, of which `emitted` has come out in the browser. Behind that
there are the handlers `decodes`, and the messages that have not arrived. -/
structure Down (C : CipherSuite) (key : Key) (w : Js.Worker) (decodes : List Js.Pending)
    (sent : List Bytes) (arrived : Nat) (backendRead emitted : List Bytes) : Prop where
  holds : w.sessionKey = some ⟨key, key⟩
  arrived_le : arrived ≤ sent.length
  seen : w.recvInitialized = true → w.recvSeq < emitted.length
  split : ∃ qs rs, backendRead = emitted ++ (qs ++ rs) ∧
    Numbered (Suspended C key) emitted.length decodes qs ∧
    Numbered (Opens C key) (emitted.length + qs.length) (sent.drop arrived) rs

theorem Down.write (h : Down C key w decodes sent arrived backendRead emitted) {frame p : Bytes}
    (hopens : Opens C key backendRead.length frame p) :
    Down C key w decodes (sent ++ [frame]) arrived (backendRead ++ [p]) emitted := by
  obtain ⟨qs, rs, hsplit, hqs, hrs⟩ := h.split
  refine ⟨h.holds, ?_, h.seen, qs, rs ++ [p], ?_, hqs, ?_⟩
  · rw [List.length_append]
    exact Nat.le_add_right_of_le h.arrived_le
  · rw [hsplit, List.append_assoc, List.append_assoc]
  · rw [List.drop_append_of_le_length h.arrived_le]
    refine hrs.snoc ?_
    rw [hsplit, List.length_append, List.length_append, ← Nat.add_assoc] at hopens
    exact hopens

/-- A message reaches the browser, which begins to decrypt it. It is a DATA frame, and its
decryption joins those under way at their end. -/
theorem Down.arrive (h : Down C key w decodes sent arrived backendRead emitted) {frame : Bytes}
    (hframe : sent[arrived]? = some frame) (id : String) :
    frame.headD 0 = frameData ∧ frame ≠ [] ∧
    Down C key w (decodes ++ [.decodeFrame id ⟨key, key⟩ frame w.recvSeq w.recvInitialized]) sent
      (arrived + 1) backendRead emitted := by
  obtain ⟨qs, rs, hsplit, hqs, hrs⟩ := h.split
  obtain ⟨hlt, rfl⟩ := List.getElem?_eq_some_iff.mp hframe
  rw [List.drop_eq_getElem_cons hlt] at hrs
  cases hrs with
  | @cons _ _ p _ rs hopens hrs =>
    refine ⟨hopens.data, hopens.ne_nil, h.holds, hlt, h.seen, qs ++ [p], rs, ?_, ?_, ?_⟩
    · rw [hsplit, List.append_assoc]
      rfl
    · refine hqs.snoc (.decodeFrame hopens ?_)
      intro hinit
      exact Nat.lt_add_right _ (h.seen hinit)
    · rw [List.length_append, List.length_singleton, ← Nat.add_assoc]
      exact hrs

/-- The first of the handlers resumes. `Down` lists the handlers in the order of their frames, so
what comes out is the next plaintext and the replay check finds the seq it expects. -/
theorem Down.emit {pd : Js.Pending}
    (h : Down C key w (pd :: decodes) sent arrived backendRead emitted) :
    ∃ id p, w.resume C pd = ({ w with recvSeq := emitted.length, recvInitialized := true },
        .decrypted id p) ∧
      Down C key { w with recvSeq := emitted.length, recvInitialized := true } decodes sent arrived
        backendRead (emitted ++ [p]) := by
  obtain ⟨qs, rs, hsplit, hqs, hrs⟩ := h.split
  cases hqs with
  | @cons _ _ p _ qs hsuspended hqs =>
    have hlength : (emitted ++ [p]).length = emitted.length + 1 := List.length_append
    cases hsuspended with
    | @decodeFrame id frame _ recvSeq recvInitialized hopens hfresh =>
      refine ⟨id, p, ?_, h.holds, h.arrived_le, ?_, qs, rs, ?_, ?_, ?_⟩
      · simp only [Js.Worker.resume, hopens.opens recvSeq recvInitialized hfresh]
      · intro _
        rw [hlength]
        exact Nat.lt_succ_self _
      · rw [hsplit, List.append_assoc]
        rfl
      · rw [hlength]
        exact hqs
      · rw [hlength, Nat.add_right_comm, Nat.add_assoc]
        exact hrs

end Down

/-! ## The bridge's writes -/

section Sink

variable {stream : WsStream} {calls : List WriterCall} {out : List Bytes}
  {sinks : List WsStream.SinkAnswers}

/-- The messages out are those of some calls, and nothing else has been written. Between two arms
of the bridge its stream is in such a state. -/
def Flushed (stream : WsStream) : Prop :=
  ∃ done, stream.sent = WriterCall.messages done ∧ WriterCall.unflushed done = [] ∧
    stream.writeBuf = []

theorem pollFlush_reads (stream : WsStream) (sink : WsStream.SinkAnswers) :
    (stream.pollFlush sink).2.unread = stream.unread ∧
      (stream.pollFlush sink).2.events = stream.events := by
  unfold WsStream.pollFlush WsStream.flushSink
  cases sink.pollFlush <;> cases sink.pollReady <;> cases sink.startSend <;> split <;>
    exact ⟨rfl, rfl⟩

theorem poll_reads (t : WriterTask) (sink : WsStream.SinkAnswers) :
    (t.poll sink).stream.unread = t.stream.unread ∧
      (t.poll sink).stream.events = t.stream.events := by
  obtain ⟨stream, todo⟩ := t
  cases todo with
  | nil => exact ⟨rfl, rfl⟩
  | cons call rest =>
    cases call with
    | writeAll buf => exact ⟨rfl, rfl⟩
    | flush =>
      have hpoll := pollFlush_reads stream sink
      unfold WriterTask.poll
      dsimp only
      generalize stream.pollFlush sink = result at hpoll
      obtain ⟨answer, stream'⟩ := result
      cases answer <;> exact hpoll

theorem foldl_poll_reads (sinks : List WsStream.SinkAnswers) (t : WriterTask) :
    (sinks.foldl WriterTask.poll t).stream.unread = t.stream.unread ∧
      (sinks.foldl WriterTask.poll t).stream.events = t.stream.events := by
  induction sinks generalizing t with
  | nil => exact ⟨rfl, rfl⟩
  | cons sink sinks ih =>
    obtain ⟨hunread, hevents⟩ := ih (t.poll sink)
    exact ⟨hunread.trans (poll_reads t sink).1, hevents.trans (poll_reads t sink).2⟩

theorem foldl_poll_oneMessage {calls : List WriterCall} {t : WriterTask}
    (hsinks : ∀ sink ∈ sinks, sink.NoError) (h : OneMessagePerFlush calls t) :
    OneMessagePerFlush calls (sinks.foldl WriterTask.poll t) := by
  induction sinks generalizing t with
  | nil => exact h
  | cons sink sinks ih =>
    obtain ⟨hsink, hsinks⟩ := List.forall_mem_cons.mp hsinks
    exact ih hsinks (WriterTask.poll_oneMessage hsink h)

/-- Once its calls are made their messages are out, and what there is to read is as it was. -/
theorem foldl_poll (hgives : Gives calls out) (h : Flushed stream)
    (hsinks : ∀ sink ∈ sinks, sink.NoError)
    (htodo : (sinks.foldl WriterTask.poll ⟨stream, calls⟩).todo = []) :
    let stream' := (sinks.foldl WriterTask.poll ⟨stream, calls⟩).stream
    stream'.sent = stream.sent ++ out ∧ Flushed stream' ∧ stream'.unread = stream.unread ∧
      stream'.events = stream.events := by
  obtain ⟨done, hsent, hdone, hbuf⟩ := h
  have hstart : OneMessagePerFlush (done ++ calls) ⟨stream, calls⟩ :=
    ⟨done, rfl, .inl ⟨hsent, hbuf.trans hdone.symm⟩⟩
  have hall : WriterCall.messages (done ++ calls) = stream.sent ++ out := by
    rw [WriterCall.messages_append, hdone, hsent]
    exact congrArg (WriterCall.messages done ++ ·) hgives.messages_eq
  have hempty : WriterCall.unflushed (done ++ calls) = [] := by
    unfold WriterCall.unflushed
    rw [WriterCall.unflushedFrom_append, show WriterCall.unflushedFrom [] done = [] from hdone]
    exact hgives.unflushed_eq
  -- with nothing left to do, every call has been made and the last of them was the flush
  obtain ⟨made, hmade, ⟨hsent', hbuf'⟩ | ⟨⟨rest, hflush⟩, -⟩⟩ :=
    foldl_poll_oneMessage hsinks hstart
  · rw [htodo, List.append_nil] at hmade
    rw [← hmade, hall] at hsent'
    rw [← hmade, hempty] at hbuf'
    exact ⟨hsent', ⟨done ++ calls, hsent'.trans hall.symm, hempty, hbuf'⟩,
      foldl_poll_reads sinks _⟩
  · rw [htodo] at hflush
    cases hflush

end Sink

/-! ## The worker's handlers -/

section Handlers

def isEncode : Js.Pending → Bool
  | .encodeFrame _ _ _ _ => true
  | _ => false

def isDecode : Js.Pending → Bool
  | .decodeFrame _ _ _ _ _ => true
  | _ => false

/-- The plaintexts that are being encrypted: none, or one with the seq `n`. Two at once would get
one seq, which `Steady` rules out. -/
inductive Encrypting (size : Nat) (key : Key) (n : Nat) : List Js.Pending → List Bytes → Prop where
  | idle : Encrypting size key n [] []
  | busy {id : String} {p : Bytes} (hne : p ≠ []) (hsize : p.length ≤ size) (hn : n < 2 ^ 64) :
      Encrypting size key n [.encodeFrame id ⟨key, key⟩ n p] [p]

end Handlers

/-! ## Both ways -/

open State in
/-- What is asked of an event: `send` comes when the call before it has been encrypted, with
something to say that fits a frame; decryptions end in the order in which they began; and the
bridge does not rotate, over a sink without errors. -/
def Steady (cfg : ValidConfig) (s : State) : Event → Prop
  | .send _ data => data ≠ [] ∧ data.length ≤ cfg.maxFrameSize ∧ s.pending.filter isEncode = [] ∧
      s.worker.sendSeq < 2 ^ 64
  | .deliver _ => True
  | .resume i => (s.pending[i]?).any isDecode = true → (s.pending.take i).filter isDecode = []
  | .socket _ => True
  | .read _ => True
  | .arm arm _ sinks => s.relay.rotates cfg arm = false ∧ s.backendRead.length < 2 ^ 64 ∧
      ∀ sink ∈ sinks, sink.NoError

instance (cfg : ValidConfig) (s : State) : ∀ e, Decidable (Steady cfg s e)
  | .send _ data => inferInstanceAs (Decidable (data ≠ [] ∧ data.length ≤ cfg.maxFrameSize ∧
      s.pending.filter isEncode = [] ∧ s.worker.sendSeq < 2 ^ 64))
  | .deliver _ => .isTrue trivial
  | .resume i => inferInstanceAs (Decidable ((s.pending[i]?).any isDecode = true →
      (s.pending.take i).filter isDecode = []))
  | .socket _ => .isTrue trivial
  | .read _ => .isTrue trivial
  | .arm arm _ sinks => inferInstanceAs (Decidable (s.relay.rotates cfg arm = false ∧
      s.backendRead.length < 2 ^ 64 ∧ ∀ sink ∈ sinks, sink.NoError))

structure Inv (C : CipherSuite) (cfg : ValidConfig) (key : Key) (s : State) : Prop where
  expected : ∀ e ∈ s.stream.events, Expected e
  flushed : Flushed s.stream
  handlers : ∀ pd ∈ s.pending, isEncode pd = true ∨ isDecode pd = true
  up : ∃ handed encrypting, s.browserSent = handed ++ encrypting ∧
    Encrypting cfg.maxFrameSize key s.worker.sendSeq (s.pending.filter isEncode) encrypting ∧
    Up C cfg.maxFrameSize key s.worker.sendSeq s.relay s.stream handed
  down : Down C key s.worker (s.pending.filter isDecode) s.stream.sent s.arrived s.backendRead
    s.emitted
  writes : Writes key s.backendRead.length s.relay.channel
  errors : s.errors = []

namespace Inv

variable {C : CipherSuite} {cfg : ValidConfig} {key : Key} {s : State}

theorem send (h : Inv C cfg key s) {id : String} {data : Bytes}
    (hsteady : Steady cfg s (.send id data)) : Inv C cfg key (s.step C cfg (.send id data)) := by
  obtain ⟨hne, hsize, hidle, hseq⟩ := hsteady
  have hstep : s.step C cfg (.send id data) =
      { s with
        browserSent := s.browserSent ++ [data]
        pending := s.pending ++ [.encodeFrame id ⟨key, key⟩ s.worker.sendSeq data] } := by
    simp only [State.step, State.message, Js.Worker.start, Js.Worker.handleEncrypt, h.down.holds]
  obtain ⟨handed, encrypting, hsent, hencrypting, hup⟩ := h.up
  rw [hidle] at hencrypting
  cases hencrypting
  rw [hstep]
  refine ⟨h.expected, h.flushed, forall_mem_snoc.mpr ⟨h.handlers, Or.inl rfl⟩,
    ⟨handed, [data], ?_, ?_, hup⟩, ?_, h.writes, h.errors⟩
  · show s.browserSent ++ [data] = handed ++ [data]
    rw [hsent, List.append_nil]
  · show Encrypting _ key _ (List.filter isEncode (s.pending ++ _)) _
    rw [List.filter_append, hidle]
    exact .busy hne hsize hseq
  · show Down C key _ (List.filter isDecode (s.pending ++ _)) _ _ _ _
    rw [List.filter_append, show List.filter isDecode [_] = [] from rfl, List.append_nil]
    exact h.down

theorem deliver (h : Inv C cfg key s) (id : String) :
    Inv C cfg key (s.step C cfg (.deliver id)) := by
  show Inv C cfg key (s.deliver id)
  unfold State.deliver
  cases hframe : s.stream.sent[s.arrived]? with
  | none => exact h
  | some frame =>
    obtain ⟨hdata, hne, hdown⟩ := h.down.arrive hframe id
    -- The relay of a steady run writes data frames only, so the session's KEY_ROTATE path is not
    -- taken and the message goes to the worker's decrypting handler.
    have hrotate : frame.headD 0 ≠ frameKeyRotate := by
      rw [hdata]
      decide
    have hmessage : { s with arrived := s.arrived + 1 }.onFrameMessage id frame =
        { s with
          arrived := s.arrived + 1
          pending := s.pending ++
            [.decodeFrame id ⟨key, key⟩ frame s.worker.recvSeq s.worker.recvInitialized] } := by
      cases frame with
      | nil => exact absurd rfl hne
      | cons tag data =>
        have htag : tag ≠ frameKeyRotate := hrotate
        have hhead : ¬ ((tag :: data).length > 0 ∧ (tag :: data).headD 0 = frameKeyRotate) :=
          fun hboth => htag hboth.2
        simp only [State.onFrameMessage, if_neg htag, State.message, Js.Worker.start,
          Js.Worker.handleDecrypt, h.down.holds, if_neg hhead]
    dsimp only
    rw [hmessage]
    refine ⟨h.expected, h.flushed, forall_mem_snoc.mpr ⟨h.handlers, Or.inr rfl⟩, ?_, ?_, h.writes,
      h.errors⟩
    · obtain ⟨handed, encrypting, hsent, hencrypting, hup⟩ := h.up
      refine ⟨handed, encrypting, hsent, ?_, hup⟩
      show Encrypting _ key _ (List.filter isEncode (s.pending ++ _)) _
      rw [List.filter_append, show List.filter isEncode [_] = [] from rfl, List.append_nil]
      exact hencrypting
    · show Down C key _ (List.filter isDecode (s.pending ++ _)) _ _ _ _
      rw [List.filter_append]
      exact hdown

/-- The encryption ends, and its frame goes out. As no two encryptions overlap, it is the frame of
the oldest `send` that has none. -/
theorem resume_encode (h : Inv C cfg key s) {pd : Js.Pending} {pre post : List Js.Pending}
    (hpending : s.pending = pre ++ pd :: post) (hencode : isEncode pd = true) :
    Inv C cfg key ({ s with
      worker := (s.worker.resume C pd).1
      pending := pre ++ post }.post (s.worker.resume C pd).2) := by
  have hdecode : isDecode pd = false := by
    cases pd with
    | encodeFrame => rfl
    | decodeFrame => cases hencode
    | processKeyRotate => cases hencode
  obtain ⟨handed, encrypting, hsent, hencrypting, hup⟩ := h.up
  rw [hpending, List.filter_append, List.filter_cons_of_pos hencode] at hencrypting
  generalize hencodes : List.filter isEncode pre ++ pd :: List.filter isEncode post = encodes at *
  cases hencrypting with
  -- no upload is at the cipher, but one resumes
  | idle => exact absurd hencodes (by simp)
  | @busy id p hne hsize hn =>
    -- it is the only one
    obtain ⟨hpre, hpd, hpost⟩ : List.filter isEncode pre = [] ∧
        pd = .encodeFrame id ⟨key, key⟩ s.worker.sendSeq p ∧ List.filter isEncode post = [] := by
      rcases List.append_eq_singleton_iff.mp hencodes with ⟨hpre, hrest⟩ | ⟨-, hrest⟩
      · obtain ⟨hpd, hpost⟩ := List.cons.inj hrest
        exact ⟨hpre, hpd, hpost⟩
      · cases hrest
    obtain ⟨frame, hframe, hencode', hdelivers⟩ :=
      @encodeFrame_delivers C _ _ key cfg.validFrameSize p hsize hn
    have hresume : s.worker.resume C pd =
        ({ s.worker with sendSeq := s.worker.sendSeq + 1 }, .encrypted id frame) := by
      rw [hpd]
      simp only [Js.Worker.resume, hencode']
    rw [hresume]
    refine ⟨forall_mem_snoc.mpr ⟨h.expected, hframe⟩, h.flushed, ?_, ?_, ?_, h.writes, h.errors⟩
    · intro pd' hpd'
      refine h.handlers pd' ?_
      rw [hpending]
      exact List.mem_append.mpr ((List.mem_append.mp hpd').imp_right (List.mem_cons_of_mem pd))
    · refine ⟨handed ++ [p], [], ?_, ?_, ?_⟩
      · rw [List.append_nil]
        exact hsent
      · show Encrypting _ key _ (List.filter isEncode (pre ++ post)) []
        rw [List.filter_append, hpre, hpost]
        exact .idle
      · exact hup.hand hne hdelivers rfl List.filterMap_append
    · have hdown := h.down
      rw [hpending, List.filter_append, List.filter_cons_of_neg (by rw [hdecode]; decide),
        ← List.filter_append] at hdown
      exact ⟨hdown.holds, hdown.arrived_le, hdown.seen, hdown.split⟩

/-- The first of the decryptions ends, and its plaintext comes out. -/
theorem resume_decode (h : Inv C cfg key s) {pd : Js.Pending} {pre post : List Js.Pending}
    (hpending : s.pending = pre ++ pd :: post) (hdecode : isDecode pd = true)
    (hfirst : pre.filter isDecode = []) :
    Inv C cfg key ({ s with
      worker := (s.worker.resume C pd).1
      pending := pre ++ post }.post (s.worker.resume C pd).2) := by
  have hencode : isEncode pd = false := by
    cases pd with
    | encodeFrame => cases hdecode
    | decodeFrame => rfl
    | processKeyRotate => rfl
  have hdown := h.down
  rw [hpending, List.filter_append, hfirst, List.nil_append,
    List.filter_cons_of_pos hdecode] at hdown
  obtain ⟨id, p, hresume, hdown⟩ := hdown.emit
  rw [hresume]
  refine ⟨h.expected, h.flushed, ?_, ?_, ?_, h.writes, h.errors⟩
  · intro pd' hpd'
    refine h.handlers pd' ?_
    rw [hpending]
    exact List.mem_append.mpr ((List.mem_append.mp hpd').imp_right (List.mem_cons_of_mem pd))
  · obtain ⟨handed, encrypting, hsent, hencrypting, hup⟩ := h.up
    refine ⟨handed, encrypting, hsent, ?_, hup⟩
    rw [hpending, List.filter_append, List.filter_cons_of_neg (by rw [hencode]; decide),
      ← List.filter_append] at hencrypting
    exact hencrypting
  · show Down C key _ (List.filter isDecode (pre ++ post)) _ _ _ _
    rw [List.filter_append, hfirst]
    exact hdown

theorem resume (h : Inv C cfg key s) {i : Nat} (hsteady : Steady cfg s (.resume i)) :
    Inv C cfg key (s.step C cfg (.resume i)) := by
  show Inv C cfg key (s.resume C i)
  unfold State.resume
  cases hi : s.pending[i]? with
  | none => exact h
  | some pd =>
    have hpending := eq_take_cons_drop hi
    have herase := List.eraseIdx_eq_take_drop_succ s.pending i
    dsimp only
    rw [herase]
    rcases h.handlers pd (List.mem_of_getElem? hi) with hencode | hdecode
    · exact h.resume_encode hpending hencode
    · refine h.resume_decode hpending hdecode (hsteady ?_)
      rw [hi]
      exact hdecode

theorem socket (h : Inv C cfg key s) (event : SocketEvent) :
    Inv C cfg key (s.step C cfg (.socket event)) := by
  have hexpected : Expected event.toWsEvent := by
    cases event <;> trivial
  have hpayload : payload? event.toWsEvent = none := by
    cases event <;> rfl
  refine ⟨forall_mem_snoc.mpr ⟨h.expected, hexpected⟩, h.flushed, h.handlers, ?_, h.down, h.writes,
    h.errors⟩
  obtain ⟨handed, encrypting, hsent, hencrypting, hup⟩ := h.up
  refine ⟨handed, encrypting, hsent, hencrypting, hup.congr rfl ?_⟩
  show List.filterMap payload? (s.stream.events ++ [_]) = _
  rw [List.filterMap_append, List.filterMap_cons_none hpayload]
  exact List.append_nil _

theorem read_eq (s : State) (takes : Bool) : s.read C takes =
    { s with
      stream := (s.stream.pollRead 1).2
      relay := polled C s.relay takes (s.stream.pollRead 1).1 } := by
  unfold State.read polled
  generalize s.stream.pollRead 1 = result
  obtain ⟨answer, stream⟩ := result
  cases answer with
  | pending => rfl
  | ready bytes => cases bytes <;> rfl
  | brokenPipe => rfl

theorem read (h : Inv C cfg key s) (takes : Bool) :
    Inv C cfg key (s.step C cfg (.read takes)) := by
  show Inv C cfg key (if s.relay.finished = none then s.read C takes else s)
  by_cases hlive : s.relay.finished = none
  · rw [if_pos hlive, read_eq]
    obtain ⟨handed, encrypting, hsent, hencrypting, hup⟩ := h.up
    unfold Up at hup
    rw [hlive] at hup
    obtain ⟨hup, hwrites⟩ := hup.poll hlive h.writes (pollRead_polls h.expected) takes
    obtain ⟨hsame, hbuf⟩ := pollLoop_writes s.stream.events s.stream
    refine ⟨pollRead_expected h.expected, ?_, h.handlers,
      ⟨handed, encrypting, hsent, hencrypting, hup⟩, ?_, hwrites, h.errors⟩
    · obtain ⟨done, hdone, hflushed, hempty⟩ := h.flushed
      exact ⟨done, hsame.trans hdone, hflushed, hbuf.trans hempty⟩
    · show Down C key _ _ (s.stream.pollRead 1).2.sent _ _ _
      rw [show (s.stream.pollRead 1).2.sent = s.stream.sent from hsame]
      exact h.down
  · rw [if_neg hlive]
    exact h

/-- Before another arm completes, `read_frame` has taken nothing that it has not returned. This is
why nothing is cut here, where the `select!` drops the future. -/
theorem taken_eq_nil (h : Inv C cfg key s) (hlive : s.relay.finished = none)
    (hwaits : s.waits = true) : s.relay.taken = [] := by
  unfold State.waits at hwaits
  rcases Bool.or_eq_true_iff.mp hwaits with htaken | hpending
  · exact of_decide_eq_true htaken
  · obtain ⟨handed, -, -, -, hup⟩ := h.up
    unfold Up at hup
    rw [hlive] at hup
    have hpolls := pollRead_polls h.expected
    have hanswer := of_decide_eq_true hpending
    generalize s.stream.pollRead 1 = result at hpolls hanswer
    cases hpolls with
    | waits before => exact hup.taken_eq_nil before
    | rest => cases hanswer
    | next => cases hanswer
    | ends => cases hanswer

theorem arm (h : Inv C cfg key s) {arm : Arm} {draw : Draw} {sinks : List WsStream.SinkAnswers}
    (hsteady : Steady cfg s (.arm arm draw sinks)) :
    Inv C cfg key (s.step C cfg (.arm arm draw sinks)) := by
  obtain ⟨hrotates, hcount, hsinks⟩ := hsteady
  show Inv C cfg key (if s.relay.finished = none then s.arm C cfg arm draw sinks else s)
  by_cases hlive : s.relay.finished = none
  · rw [if_pos hlive]
    unfold State.arm
    dsimp only
    -- The arm's turn ends only when its frames are flushed. A turn that is still waiting for the
    -- socket leaves the state as it was.
    by_cases hgo : s.waits = true ∧
        (sinks.foldl WriterTask.poll
          ⟨s.stream, s.relay.calls C cfg arm (Session.reliable draw)⟩).todo = []
    · obtain ⟨hwaits, htodo⟩ := hgo
      rw [if_pos ⟨hwaits, htodo⟩]
      have hgives := (givesFrames_iterate C cfg s.relay arm draw).gives
      obtain ⟨hsent, hflushed, hunread, hevents⟩ := foldl_poll hgives h.flushed hsinks htodo
      have htaken := h.taken_eq_nil hlive hwaits
      generalize sinks.foldl WriterTask.poll
        ⟨s.stream, s.relay.calls C cfg arm (Session.reliable draw)⟩ = task at *
      obtain ⟨handed, encrypting, hsplit, hencrypting, hup⟩ := h.up
      unfold Up at hup
      rw [hlive] at hup
      have hup' := hup.arm hlive htaken hunread (by rw [messages, hevents, messages]) draw hrotates
      refine ⟨by rw [hevents]; exact h.expected, hflushed, h.handlers,
        ⟨handed, encrypting, hsplit, hencrypting, hup'⟩, ?_, ?_, h.errors⟩
      · show Down C key _ _ task.stream.sent _ (s.backendRead ++ _) _
        rw [hsent]
        -- without a frame nothing is sent; with one, it is the next the worker will open
        rcases iterate_writes C cfg s.relay draw hrotates with ⟨hread, hnone, -⟩ |
          ⟨p, hread, hp, hone, -⟩
        · rw [hread, hnone, List.map_nil, List.append_nil, List.append_nil]
          exact h.down
        · rw [hread, hone]
          exact h.down.write (writeFrame_opens cfg.validFrameSize h.writes hp hcount)
      · show Writes key (s.backendRead ++ _).length _
        rcases iterate_writes C cfg s.relay draw hrotates with ⟨hread, -, hsame⟩ |
          ⟨p, hread, -, -, hnext⟩
        · rw [hread, hsame, List.append_nil]
          exact h.writes
        · rw [hread, hnext]
          refine ⟨h.writes.key, h.writes.epoch, ?_⟩
          show s.relay.channel.sendSeq + 1 = UInt64.ofNat (s.backendRead ++ [p]).length
          rw [h.writes.sendSeq, List.length_append, List.length_singleton, UInt64.ofNat_add]
          rfl
    · rw [if_neg hgo]
      exact h
  · rw [if_neg hlive]
    exact h

theorem step (h : Inv C cfg key s) (e : Event) (hsteady : Steady cfg s e) :
    Inv C cfg key (s.step C cfg e) := by
  cases e with
  | send id data => exact h.send hsteady
  | deliver id => exact h.deliver id
  | resume i => exact h.resume hsteady
  | socket event => exact h.socket event
  | read takes => exact h.read takes
  | arm arm draw sinks => exact h.arm hsteady

theorem start (C : CipherSuite) (cfg : ValidConfig) {hello : Bytes} (hhello : hello ≠ [])
    (key : Key) : Inv C cfg key (.start cfg hello ⟨key, key⟩ key) := by
  have hgives := gives_hello hhello
  refine ⟨nofun, ⟨_, hgives.messages_eq.symm, hgives.unflushed_eq, rfl⟩, nofun,
    ⟨[], [], rfl, .idle, ?_⟩, ⟨rfl, Nat.le_refl 1, nofun, [], [], rfl, .nil 0, .nil 0⟩,
    ⟨rfl, rfl, rfl⟩, rfl⟩
  exact Climbs.up ⟨⟨[], _, .nil _, ⟨rfl, nofun, rfl⟩, rfl, nofun⟩, readFrame_run_nil _⟩ rfl

end Inv

variable {H : HandshakeSuite} {cfg : ValidConfig} {signingKey : SigningKey} {serverVk : Bytes}
  {rng browserRng : Rng} {s₀ : State}

def sends (events : List Event) : List Bytes :=
  events.filterMap fun
    | .send _ data => some data
    | _ => none

section Sample

theorem bytesPerKey_valid : (1048576 : UInt64) ≤ 1048576 := UInt64.le_refl 1048576

def sampleConfig : ValidConfig where
  maxFrameSize := Sample.frameSize
  keyRotationEnabled := true
  maxBytesPerKey := 1048576
  validFrameSize := Sample.frameSize_valid
  validBytesPerKey := bytesPerKey_valid

end Sample

end LatticeShield.Browser
