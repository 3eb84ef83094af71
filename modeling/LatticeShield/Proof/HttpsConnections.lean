import LatticeShield.Lib.Lists
import LatticeShield.Proof.HttpHead
import LatticeShield.Proof.QuicStreams
import LatticeShield.Relay.HttpsConnection

/-!
# What becomes of a connection of the HTTPS listener

`routeTls` says what the task of a connection makes of all its reads at once. Here the reads come
one by one, between the moves of the client, the backend and the other connections, all of which
share the store of the tokens; and what a connection does is still what `routeTls` says of the
reads it has made (`https_connections_relayed`). While the end of the head has not been read this
is `closed`, what it would be if the client ended its stream now.

A relay gets the client's stream out of two hands: the head is written to the backend as it was
read, and behind it comes a copy of the rest. Together they are a copy of the whole stream, which
has written the head before (`Copy.behind`), so what is known of copies is known of it.
-/

set_option autoImplicit false

namespace LatticeShield.Bridge

open Lib

/-! ## The head, a read at a time -/

section Head

variable {buf chunk : Bytes} {chunks : List Bytes}

/-- Reads that have found nothing leave the loop with their bytes. The loop's state is its buffer,
so it may be entered again from there. -/
theorem readHttpHead_append (hne : ∀ chunk ∈ chunks, chunk ≠ [])
    (hlen : ∀ chunk ∈ chunks, chunk.length ≤ headChunkLen)
    (hopen : hasEndOfHead (buf ++ chunks.flatten) = false)
    (hsmall : (buf ++ chunks.flatten).length < maxHeadBytes) (reads : List SocketRead) :
    readHttpHead buf (chunks.map .ok ++ reads) = readHttpHead (buf ++ chunks.flatten) reads := by
  induction chunks generalizing buf with
  | nil => simp
  | cons chunk chunks ih =>
    rw [List.forall_mem_cons] at hne hlen
    rw [List.flatten_cons, ← List.append_assoc] at hopen hsmall ⊢
    have hbegins : (buf ++ chunk).length ≤ (buf ++ chunk ++ chunks.flatten).length :=
      (List.prefix_append _ _).length_le
    have hbuf : buf.length ≤ (buf ++ chunk).length := (List.prefix_append _ _).length_le
    have hnone : ¬ hasEndOfHead (buf ++ chunk) = true := by
      intro hfound
      rw [hasEndOfHead_mono (List.prefix_append _ _) hfound] at hopen
      cases hopen
    rw [List.map_cons, List.cons_append, readHttpHead_chunk (by omega) hne.1 hlen.1, if_neg hnone,
      if_neg (by omega)]
    exact ih hne.2 hlen.2 hopen hsmall

/-- As long as there is no end of the head, a client that closes now has sent none. By this a
stage that is still reading is described by `routeTls` as well: it has done nothing so far, and
would do nothing more. -/
theorem headOf_open (hcuts : Cuts buf chunks) (hopen : hasEndOfHead buf = false)
    (hsmall : buf.length < maxHeadBytes) : headOf chunks = .eof := by
  obtain rfl := hcuts.flatten_eq
  have happend : readHttpHead [] (chunks.map .ok ++ []) = readHttpHead chunks.flatten [] :=
    readHttpHead_append hcuts.ne_nil hcuts.length_le hopen hsmall []
  rw [List.append_nil] at happend
  rw [headOf, happend, readHttpHead, if_neg (Nat.not_le_of_lt hsmall)]

/-- The read that may end it. The task asks what the loop of `readHttpHead` asks, and in the same
order: first for the end of the head, and only then whether the limit is reached. -/
theorem headOf_snoc (hcuts : Cuts buf chunks) (hopen : hasEndOfHead buf = false)
    (hsmall : buf.length < maxHeadBytes) (hne : chunk ≠ []) (hlen : chunk.length ≤ headChunkLen) :
    headOf (chunks ++ [chunk]) =
      if hasEndOfHead (buf ++ chunk) then .complete (buf ++ chunk)
      else if maxHeadBytes ≤ (buf ++ chunk).length then .tooLarge
      else .eof := by
  obtain rfl := hcuts.flatten_eq
  have happend : readHttpHead [] (chunks.map .ok ++ [.ok chunk]) =
      readHttpHead chunks.flatten [.ok chunk] :=
    readHttpHead_append hcuts.ne_nil hcuts.length_le hopen hsmall [.ok chunk]
  rw [headOf, List.map_append, List.map_singleton, happend, readHttpHead_chunk hsmall hne hlen]
  by_cases hfull : maxHeadBytes ≤ (chunks.flatten ++ chunk).length
  · rw [if_pos hfull, if_pos hfull]
  · rw [if_neg hfull, if_neg hfull, readHttpHead, if_neg hfull]

theorem Cuts.snoc (hcuts : Cuts buf chunks) (hne : chunk ≠ [])
    (hlen : chunk.length ≤ headChunkLen) : Cuts (buf ++ chunk) (chunks ++ [chunk]) := by
  refine ⟨?_, ?_, ?_⟩
  · rw [List.flatten_append, hcuts.flatten_eq, List.flatten_singleton]
  · exact forall_mem_snoc.mpr ⟨hcuts.ne_nil, hne⟩
  · exact forall_mem_snoc.mpr ⟨hcuts.length_le, hlen⟩

end Head

/-! ## What the reads lead to -/

/-- The response that the task writes itself. There is none for a connection that is closed
without one, or relayed. -/
def Routed.response : Routed → Option Bytes
  | .badRequest => some Bridge.badRequest
  | .closed => none
  | .answered response => some response.toBytes
  | .badGateway => some Bridge.badGateway
  | .relayed _ => none

/-- What `routeTls` says of these reads, with a backend or without. The store and the time that a
complete head is answered from are among `times`; otherwise they do not matter. -/
def Routes (parse : HttpParser) (times : VkShare.VkShareStore → Nat → Prop) (chunks : List Bytes)
    (routed : Routed) : Prop :=
  ∃ store now backendUp, (∀ head, headOf chunks = .complete head → times store now) ∧
    (routeTls parse store now backendUp (chunks.map .ok)).1 = routed

/-- What the task goes on to behind a read, and what of its input it went by. -/
inductive Decides (parse : HttpParser) (times : VkShare.VkShareStore → Nat → Prop)
    (chunks : List Bytes) (buf : Bytes) : HeadStep → Prop where
  | more (noEnd : hasEndOfHead buf = false) (small : buf.length < maxHeadBytes) :
      Decides parse times chunks buf .more
  | respond {routed : Routed} {response : Bytes} (routes : Routes parse times chunks routed)
      (responds : routed.response = some response) (backend : routed ≠ .badGateway) :
      Decides parse times chunks buf (.respond response)
  | relay (routes : ∀ backendUp, Routes parse times chunks (handleWithPreread backendUp buf)) :
      Decides parse times chunks buf .relay

section Routing

variable {parse : HttpParser} {times : VkShare.VkShareStore → Nat → Prop}
  {store : VkShare.VkShareStore} {buf chunk : Bytes} {chunks : List Bytes}

theorem routes_closed (h : headOf chunks = .eof) : Routes parse times chunks .closed := by
  refine ⟨VkShare.newStore, 0, true, ?_, ?_⟩
  · intro head hcomplete
    cases h.symm.trans hcomplete
  · rw [routeTls, show readHttpHead [] (chunks.map .ok) = .eof from h]

theorem routes_badRequest (h : headOf chunks = .tooLarge) :
    Routes parse times chunks .badRequest := by
  refine ⟨VkShare.newStore, 0, true, ?_, ?_⟩
  · intro head hcomplete
    cases h.symm.trans hcomplete
  · rw [routeTls, show readHttpHead [] (chunks.map .ok) = .tooLarge from h]

theorem decides_routeHead {now : Nat} (htime : times store now)
    (h : headOf chunks = .complete buf) :
    Decides parse times chunks buf (routeHead parse store now buf).1 := by
  have hcomplete : readHttpHead [] (chunks.map .ok) = .complete buf := h
  unfold routeHead
  cases htoken : extractVkToken parse buf with
  | some token =>
    have hanswered : (routeTls parse store now true (chunks.map .ok)).1 =
        .answered (VkShare.vkResponse store token now).1 := by
      rw [routeTls, hcomplete]
      simp only [htoken]
    exact .respond ⟨store, now, true, fun _ _ => htime, hanswered⟩ rfl nofun
  | none =>
    refine .relay fun backendUp => ⟨store, now, backendUp, fun _ _ => htime, ?_⟩
    rw [routeTls, hcomplete]
    simp only [htoken]

/-- **One read.** The task decides on what it has read so far as `routeTls` does on the reads. -/
theorem decides_headStep {now : Nat} (htime : times store now) (hcuts : Cuts buf chunks)
    (hopen : hasEndOfHead buf = false) (hsmall : buf.length < maxHeadBytes) (hne : chunk ≠ [])
    (hlen : chunk.length ≤ headChunkLen) :
    Decides parse times (chunks ++ [chunk]) (buf ++ chunk)
      (headStep parse store now (buf ++ chunk)).1 := by
  have hhead := headOf_snoc hcuts hopen hsmall hne hlen
  unfold headStep
  by_cases hfound : hasEndOfHead (buf ++ chunk) = true
  · rw [if_pos hfound] at hhead
    simp only [if_pos hfound]
    rw [ite_self]
    exact decides_routeHead htime hhead
  · rw [if_neg hfound] at hhead
    simp only [if_neg hfound]
    by_cases hfull : maxHeadBytes ≤ (buf ++ chunk).length
    · rw [if_pos hfull] at hhead ⊢
      exact .respond (routes_badRequest hhead) rfl nofun
    · rw [if_neg hfull]
      exact .more (Bool.eq_false_iff.mpr hfound) (Nat.lt_of_not_le hfull)

end Routing

/-! ## The copy of the whole stream -/

/-- The relay, when its client's copy has written `xs` before. The task hands the backend what it
read of the head in front of everything else, and this is that write. -/
def Duplex.behind (xs : Bytes) (d : Duplex) : Duplex := { d with up := d.up.behind xs }

section Behind

variable (xs : Bytes) (d : Duplex) (m : DuplexStep)

theorem Duplex.behind_clientMoves : (d.behind xs).clientMoves m = (d.clientMoves m).behind xs := by
  cases m with
  | clientSends bs => simp only [clientMoves, peer, behind, Copy.behind_arrive]
  | clientCloses => simp only [clientMoves, peer, behind, Copy.behind_close]
  | _ => rfl

theorem Duplex.behind_peer : (d.behind xs).peer m = (d.peer m).behind xs := by
  cases m with
  | clientSends bs => simp only [peer, behind, Copy.behind_arrive]
  | clientCloses => simp only [peer, behind, Copy.behind_close]
  | backendCloses => by_cases hnil : d.response = [] <;> simp [peer, behind, hnil]
  | _ => rfl

theorem Duplex.behind_step (returns : CopyStatus → CopyStatus → Bool) :
    (d.behind xs).step returns m = (d.step returns m).behind xs := by
  unfold step
  show (if d.returned then _ else _) = _
  split
  · exact Duplex.behind_peer xs d m
  · cases m with
    | up s =>
      simp only [poll, behind, Copy.behind_step]
      rfl
    | down s => rfl
    | clientSends bs => exact Duplex.behind_peer xs d (.clientSends bs)
    | clientCloses => exact Duplex.behind_peer xs d .clientCloses
    | backendSends n => exact Duplex.behind_peer xs d (.backendSends n)
    | backendCloses => exact Duplex.behind_peer xs d .backendCloses

end Behind

/-! ## What a connection has come to -/

def HttpsEvent.stream? : HttpsEvent → Option StreamEvent
  | .read _ _ => none
  | .task (.stream e) => some e
  | .task (.writes _) => none
  | .task .fails => none

/-- What has happened on the streams of a connection. -/
def streams (own : List HttpsEvent) : List StreamEvent := own.filterMap HttpsEvent.stream?

/-- A read, a write, or the TLS handshake has failed. Outside the relay this ends the task at
once. -/
def Broken (own : List HttpsEvent) : Prop := .task .fails ∈ own

/-- The client gets a response of the task's own, and the backend nothing. The response is whole
when the task is over, unless something broke. -/
structure Responds (own : List HttpsEvent) (response : Bytes) (c : HttpsConnection) : Prop where
  received : c.received = []
  answered : c.answered <+: response
  ended : c.phase = .finished → c.answered = response ∨ Broken own

/-- Neither has got anything, and the task ends with the client's stream. A request without an end
of head is left so. -/
structure Waits (own : List HttpsEvent) (c : HttpsConnection) : Prop where
  received : c.received = []
  answered : c.answered = []
  ended : c.phase = .finished → clientClosed (streams own) ∨ Broken own

/-- The backend gets the client's stream from its beginning on, and the client the backend's
response; it ends when one of the two is complete, or when something fails. -/
structure Relays (own : List HttpsEvent) (c : HttpsConnection) : Prop where
  received : c.received <+: clientStream (streams own)
  answered : c.answered = [] ∨ ∃ response, .connected (some response) ∈ streams own ∧
    c.answered <+: response
  ended : c.phase = .finished → Broken own ∨ c.duplex.up.status = .failed ∨
    c.duplex.down.status = .failed ∨
    clientClosed (streams own) ∧ c.received = clientStream (streams own) ∨
    .connected (some c.answered) ∈ streams own

/-- The connection does what `routed` says. -/
def HttpsConnection.Follows (own : List HttpsEvent) (c : HttpsConnection) : Routed → Prop
  | .badRequest => Responds own badRequest c
  | .closed => Waits own c
  | .answered response => Responds own response.toBytes c
  | .badGateway => .connected none ∈ streams own ∧ Responds own badGateway c
  | .relayed preread => preread <+: clientStream (streams own) ∧ Relays own c

section History

variable {own : List HttpsEvent} {e : HttpsEvent} {c : HttpsConnection} {routed : Routed}

theorem streams_snoc (own : List HttpsEvent) (e : HttpsEvent) :
    streams (own ++ [e]) = streams own ++ e.stream?.toList := by
  rw [streams, List.filterMap_append]
  cases h : e.stream? with
  | none => rw [List.filterMap_cons_none h]; rfl
  | some m => rw [List.filterMap_cons_some h]; rfl

theorem mem_streams_snoc {m : StreamEvent} (h : m ∈ streams own) :
    m ∈ streams (own ++ [e]) := by
  rw [streams_snoc]
  exact List.mem_append_left _ h

theorem streams_prefix_snoc (own : List HttpsEvent) (e : HttpsEvent) :
    clientStream (streams own) <+: clientStream (streams (own ++ [e])) := by
  rw [streams_snoc]
  cases e.stream? with
  | none => simp
  | some m => exact clientStream_prefix_snoc (streams own) m

theorem streams_snoc_of_closed (h : clientClosed (streams own)) (e : HttpsEvent) :
    clientStream (streams (own ++ [e])) = clientStream (streams own) := by
  rw [streams_snoc]
  cases e.stream? with
  | none => rw [Option.toList_none, List.append_nil]
  | some m => exact clientStream_snoc_of_closed h m

theorem Broken.snoc (h : Broken own) : Broken (own ++ [e]) := List.mem_append_left _ h

theorem Responds.snoc {response : Bytes} (h : Responds own response c) :
    Responds (own ++ [e]) response c :=
  ⟨h.received, h.answered, fun hover => (h.ended hover).imp_right Broken.snoc⟩

theorem Waits.snoc (h : Waits own c) : Waits (own ++ [e]) c :=
  ⟨h.received, h.answered, fun hover => (h.ended hover).imp mem_streams_snoc Broken.snoc⟩

theorem Relays.snoc (h : Relays own c) : Relays (own ++ [e]) c := by
  refine ⟨h.received.trans (streams_prefix_snoc own e), ?_, ?_⟩
  · rcases h.answered with hnil | ⟨response, hmem, hanswered⟩
    · exact Or.inl hnil
    · exact Or.inr ⟨response, mem_streams_snoc hmem, hanswered⟩
  · intro hover
    rcases h.ended hover with hbroken | hup | hdown | ⟨hclosed, hall⟩ | hresponse
    · exact Or.inl hbroken.snoc
    · exact Or.inr (Or.inl hup)
    · exact Or.inr (Or.inr (Or.inl hdown))
    · exact Or.inr (Or.inr (Or.inr (Or.inl ⟨mem_streams_snoc hclosed,
        hall.trans (streams_snoc_of_closed hclosed e).symm⟩)))
    · exact Or.inr (Or.inr (Or.inr (Or.inr (mem_streams_snoc hresponse))))

/-- What happens to a connection that does not move changes nothing in what it has done. What the
client sends in the meantime is only more. -/
theorem HttpsConnection.Follows.snoc (h : c.Follows own routed) :
    c.Follows (own ++ [e]) routed := by
  cases routed with
  | badRequest => exact Responds.snoc h
  | closed => exact Waits.snoc h
  | answered response => exact Responds.snoc h
  | badGateway => exact ⟨mem_streams_snoc h.1, h.2.snoc⟩
  | relayed preread => exact ⟨h.1.trans (streams_prefix_snoc own e), h.2.snoc⟩

end History

/-! ## Stage by stage -/

/-- What the task has read: the beginning of the client's stream, and never more than one read
past the limit of a head. -/
structure Reads (own : List HttpsEvent) (chunks : List Bytes) : Prop where
  cuts : Cuts chunks.flatten chunks
  length_le : chunks.flatten.length ≤ maxReadBytes
  begins : chunks.flatten <+: clientStream (streams own)

/-- Nothing has been copied and nothing written. All the task has done is to read, and what it has
read are the `chunks`. -/
structure Quiet (own : List HttpsEvent) (chunks : List Bytes) (c : HttpsConnection) : Prop where
  takes : Takes (streams own) (c.duplex.behind chunks.flatten).up
  written : c.duplex.up.written = []
  buf : c.duplex.up.buf = []
  down : c.duplex.down = {}
  returned : c.duplex.returned = false
  toBackend : c.toBackend = []
  toClient : c.toClient = []

/-- The backend is connected, and its response is on its way. From here on the connection is the
relay of `Duplex`, with the head written in front. -/
structure Connected (own : List HttpsEvent) (chunks : List Bytes) (c : HttpsConnection) :
    Prop where
  takes : Takes (streams own) (c.duplex.behind chunks.flatten).up
  toClient : c.toClient = []
  answers : ∃ response, .connected (some response) ∈ streams own ∧ Answers response c.duplex

/-- A connection by its phase; `chunks` are its reads. -/
inductive Stage (parse : HttpParser) (times : VkShare.VkShareStore → Nat → Prop)
    (own : List HttpsEvent) (chunks : List Bytes) (c : HttpsConnection) : Prop where
  | waiting (phase : c.phase = .waiting) (quiet : Quiet own chunks c) (noReads : chunks = [])
  | reading {buf : Bytes} (phase : c.phase = .reading buf) (quiet : Quiet own chunks c)
      (buf_eq : chunks.flatten = buf) (noEnd : hasEndOfHead buf = false)
      (small : buf.length < maxHeadBytes)
  | connecting {buf : Bytes} (phase : c.phase = .connecting buf) (quiet : Quiet own chunks c)
      (buf_eq : chunks.flatten = buf)
      (routes : ∀ backendUp, Routes parse times chunks (handleWithPreread backendUp buf))
  | forwarding {rest : Bytes} (phase : c.phase = .forwarding rest)
      (connected : Connected own chunks c) (goes : c.duplex.returned = false)
      (routes : Routes parse times chunks (.relayed chunks.flatten))
      (forwards : c.toBackend ++ rest = chunks.flatten) (up : c.duplex.up.written = [])
      (down : c.duplex.down.written = [])
  | relaying (phase : c.phase = .relaying) (connected : Connected own chunks c)
      (goes : c.duplex.returned = false)
      (routes : Routes parse times chunks (.relayed chunks.flatten))
      (forwarded : c.toBackend = chunks.flatten)
  | responding {rest response : Bytes} {routed : Routed} (phase : c.phase = .responding rest)
      (routes : Routes parse times chunks routed) (responds : routed.response = some response)
      (backend : routed = .badGateway → .connected none ∈ streams own)
      (writes : c.toClient ++ rest = response) (received : c.received = [])
      (down : c.duplex.down.written = [])
  | finished {routed : Routed} (phase : c.phase = .finished) (routes : Routes parse times chunks routed)
      (follows : c.Follows own routed)

section Stages

variable {parse : HttpParser} {times : VkShare.VkShareStore → Nat → Prop} {own : List HttpsEvent}
  {e : HttpsEvent} {chunks : List Bytes} {c : HttpsConnection}

/-- The client neither sends anything in the event nor ends its stream. Such an event leaves alone
what the client has sent so far. -/
def HttpsEvent.Still (e : HttpsEvent) : Prop :=
  ∀ m, e.stream? = some m → m.sends = [] ∧ m ≠ .moves .clientCloses

theorem Reads.snoc (h : Reads own chunks) : Reads (own ++ [e]) chunks :=
  ⟨h.cuts, h.length_le, h.begins.trans (streams_prefix_snoc own e)⟩

theorem takes_snoc {copy : Copy UInt8} (h : Takes (streams own) copy) (hstill : e.Still) :
    Takes (streams (own ++ [e])) copy := by
  rw [streams_snoc]
  cases hm : e.stream? with
  | none =>
    rw [Option.toList_none, List.append_nil]
    exact h
  | some m => exact h.snoc (hstill m hm).1 (hstill m hm).2

theorem Quiet.snoc (h : Quiet own chunks c) (hstill : e.Still) : Quiet (own ++ [e]) chunks c :=
  ⟨takes_snoc h.takes hstill, h.written, h.buf, h.down, h.returned, h.toBackend, h.toClient⟩

theorem Connected.snoc (h : Connected own chunks c) (hstill : e.Still) :
    Connected (own ++ [e]) chunks c := by
  obtain ⟨response, hmem, hanswers⟩ := h.answers
  exact ⟨takes_snoc h.takes hstill, h.toClient, response, mem_streams_snoc hmem, hanswers⟩

/-- The task does not look at the client's stream any more. It has decided on what it read, and
what comes later is not taken. -/
def HttpsPhase.past : HttpsPhase → Bool
  | .responding _ => true
  | .finished => true
  | _ => false

theorem Stage.unmoved (h : Stage parse times own chunks c)
    (hstill : e.Still ∨ c.phase.past = true) : Stage parse times (own ++ [e]) chunks c := by
  have still : c.phase.past = false → e.Still := by
    intro hpast
    exact hstill.resolve_right fun htrue => Bool.false_ne_true (hpast.symm.trans htrue)
  cases h with
  | waiting phase quiet noReads =>
    exact .waiting phase (quiet.snoc (still (by rw [phase]; rfl))) noReads
  | reading phase quiet buf_eq noEnd small =>
    exact .reading phase (quiet.snoc (still (by rw [phase]; rfl))) buf_eq noEnd small
  | connecting phase quiet buf_eq routes =>
    exact .connecting phase (quiet.snoc (still (by rw [phase]; rfl))) buf_eq routes
  | forwarding phase connected goes routes forwards up down =>
    exact .forwarding phase (connected.snoc (still (by rw [phase]; rfl))) goes routes forwards up
      down
  | relaying phase connected goes routes forwarded =>
    exact .relaying phase (connected.snoc (still (by rw [phase]; rfl))) goes routes forwarded
  | responding phase routes responds backend writes received down =>
    exact .responding phase routes responds (fun hb => mem_streams_snoc (backend hb)) writes
      received down
  | finished phase routes follows => exact .finished phase routes follows.snoc

theorem Stage.same (h : Stage parse times own chunks c) {c' : HttpsConnection} (hsame : c' = c)
    (hstill : e.Still ∨ c.phase.past = true) : Stage parse times (own ++ [e]) chunks c' :=
  hsame ▸ h.unmoved hstill

/-! ### The streams before a relay -/

theorem Duplex.clientMoves_fields (d : Duplex) (m : DuplexStep) :
    (d.clientMoves m).up.written = d.up.written ∧ (d.clientMoves m).up.buf = d.up.buf ∧
      (d.clientMoves m).down = d.down ∧ (d.clientMoves m).returned = d.returned := by
  cases m with
  | clientSends bs =>
    obtain ⟨hwritten, hbuf⟩ := d.up.arrive_fields bs
    exact ⟨hwritten, hbuf, rfl, rfl⟩
  | _ => exact ⟨rfl, rfl, rfl, rfl⟩

theorem Duplex.peer_fields (d : Duplex) (m : DuplexStep) :
    (d.peer m).up.written = d.up.written ∧ (d.peer m).down.written = d.down.written ∧
      (d.peer m).returned = d.returned := by
  cases m with
  | clientSends bs => exact ⟨(d.up.arrive_fields bs).1, rfl, rfl⟩
  | backendSends n => exact ⟨rfl, (d.down.arrive_fields _).1, rfl⟩
  | backendCloses =>
    rw [peer]
    split <;> exact ⟨rfl, rfl, rfl⟩
  | _ => exact ⟨rfl, rfl, rfl⟩

theorem Quiet.moves (h : Quiet own chunks c) (m : DuplexStep) :
    Quiet (own ++ [.task (.stream (.moves m))]) chunks
      { c with duplex := c.duplex.clientMoves m } := by
  obtain ⟨hwritten, hbuf, hdown, hreturned⟩ := c.duplex.clientMoves_fields m
  refine ⟨?_, hwritten.trans h.written, hbuf.trans h.buf, hdown.trans h.down,
    hreturned.trans h.returned, h.toBackend, h.toClient⟩
  rw [streams_snoc, ← Duplex.behind_clientMoves]
  exact h.takes.clientMoves m

theorem Quiet.received (h : Quiet own chunks c) : c.received = [] := by
  rw [HttpsConnection.received, h.toBackend, h.written]
  rfl

theorem Quiet.answered (h : Quiet own chunks c) : c.answered = [] := by
  rw [HttpsConnection.answered, h.toClient, h.down]
  rfl

/-- What has been read and what has not is what the client has sent. No byte is lost between the
head and the copy. -/
theorem Quiet.sent (h : Quiet own chunks c) :
    chunks.flatten ++ c.duplex.up.unread = clientStream (streams own) := by
  rw [← h.takes.sent]
  show _ = chunks.flatten ++ c.duplex.up.written ++ c.duplex.up.buf ++ c.duplex.up.unread
  rw [h.written, h.buf, List.append_nil, List.append_nil]

/-! ### Reading -/

theorem Quiet.read (h : Quiet own chunks c) {chunk rest : Bytes}
    (hunread : c.duplex.up.unread = chunk ++ rest) (n : Nat) (head : Bytes → HeadStep)
    (phase : HttpsPhase) : Quiet (own ++ [.read n head]) (chunks ++ [chunk])
      { c with phase, duplex := { c.duplex with up := { c.duplex.up with unread := rest } } } := by
  have hflatten : (chunks ++ [chunk]).flatten = chunks.flatten ++ chunk := by
    rw [List.flatten_append, List.flatten_singleton]
  have hsnoc : Quiet (own ++ [.read n head]) chunks c := h.snoc nofun
  refine ⟨⟨⟨?_, hsnoc.takes.sound.done⟩, ?_, hsnoc.takes.ended⟩, h.written, h.buf, h.down,
    h.returned, h.toBackend, h.toClient⟩
  · intro hread
    obtain ⟨hended, hnil⟩ := hsnoc.takes.sound.end_read hread
    have hnil' : chunk ++ rest = [] := hunread.symm.trans hnil
    exact ⟨hended, (List.append_eq_nil_iff.mp hnil').2⟩
  · rw [← hsnoc.sent, hunread]
    show (chunks ++ [chunk]).flatten ++ c.duplex.up.written ++ c.duplex.up.buf ++ rest = _
    rw [h.written, h.buf, hflatten, List.append_nil, List.append_nil, List.append_assoc]

theorem Stage.read (h : Stage parse times own chunks c) (hreads : Reads own chunks)
    {store : VkShare.VkShareStore} {now : Nat} (htime : times store now) (n : Nat)
    {head : Bytes → HeadStep}
    (hhead : ∀ buf, head buf = (headStep parse store now buf).1) :
    ∃ chunks', Reads (own ++ [.read n head]) chunks' ∧
      Stage parse times (own ++ [.read n head]) chunks' (c.read n head) := by
  have hunmoved : c.read n head = c → ∃ chunks', Reads (own ++ [.read n head]) chunks' ∧
      Stage parse times (own ++ [.read n head]) chunks' (c.read n head) := by
    intro hsame
    rw [hsame]
    exact ⟨chunks, hreads.snoc, h.unmoved (Or.inl nofun)⟩
  -- only the reading phase calls `read`; there the head is still open and below the limit
  cases h with
  | @reading buf phase quiet buf_eq noEnd small =>
    subst buf_eq
    have hroute : Routes parse times chunks .closed :=
      routes_closed (headOf_open hreads.cuts noEnd small)
    by_cases hchunk : c.chunk n = []
    -- an empty read is the client's end of stream, or the read that is still waiting
    · by_cases hended : c.duplex.up.ended = true
      · refine ⟨chunks, hreads.snoc, ?_⟩
        simp only [HttpsConnection.read, phase, if_pos hchunk, if_pos hended]
        exact .finished rfl hroute (Waits.snoc ⟨quiet.received, quiet.answered,
          fun _ => Or.inl (quiet.takes.ended.mp hended)⟩)
      · refine hunmoved ?_
        simp only [HttpsConnection.read, phase, if_pos hchunk, if_neg hended]
    · have hlen : (c.chunk n).length ≤ headChunkLen :=
        (List.length_take_le _ _).trans (Nat.min_le_right _ _)
      have hunread : c.duplex.up.unread =
          c.chunk n ++ c.duplex.up.unread.drop (c.chunk n).length :=
        List.prefix_iff_eq_append.mp (List.take_prefix _ _) |>.symm
      have hdecides : Decides parse times (chunks ++ [c.chunk n]) (chunks.flatten ++ c.chunk n)
          (head (chunks.flatten ++ c.chunk n)) := by
        rw [hhead]
        exact decides_headStep htime hreads.cuts noEnd small hchunk hlen
      have hflatten : (chunks ++ [c.chunk n]).flatten = chunks.flatten ++ c.chunk n := by
        rw [List.flatten_append, List.flatten_singleton]
      have hquiet (phase : HttpsPhase) := quiet.read hunread n head phase
      refine ⟨chunks ++ [c.chunk n], ⟨?_, ?_, ?_⟩, ?_⟩
      · rw [hflatten]
        exact hreads.cuts.snoc hchunk hlen
      · rw [hflatten, List.length_append, maxReadBytes]
        omega
      · rw [← (hquiet .finished).sent]
        exact List.prefix_append _ _
      · simp only [HttpsConnection.read, phase, if_neg hchunk]
        generalize head (chunks.flatten ++ c.chunk n) = decision at hdecides ⊢
        -- `read_http_head` goes on, or it has decided: a response of the bridge's own, or the
        -- backend
        cases hdecides with
        | more hnoEnd hsmall => exact .reading rfl (hquiet _) hflatten hnoEnd hsmall
        | respond hroutes hresponds hbackend =>
          refine .responding rfl hroutes hresponds (fun hb => absurd hb hbackend) ?_
            (hquiet .finished).received (congrArg Copy.written (hquiet .finished).down)
          exact congrArg (· ++ _) quiet.toClient
        | relay hroutes => exact .connecting rfl (hquiet _) hflatten hroutes
  | waiting phase => exact hunmoved (by simp only [HttpsConnection.read, phase])
  | connecting phase => exact hunmoved (by simp only [HttpsConnection.read, phase])
  | forwarding phase => exact hunmoved (by simp only [HttpsConnection.read, phase])
  | relaying phase => exact hunmoved (by simp only [HttpsConnection.read, phase])
  | responding phase => exact hunmoved (by simp only [HttpsConnection.read, phase])
  | finished phase => exact hunmoved (by simp only [HttpsConnection.read, phase])

/-! ### The rest of the task -/

/-- A response that is written is what the task was told to do. It applies to the three responses
of the task's own. -/
theorem follows_of_responds {routed : Routed} {response : Bytes}
    (hresponds : routed.response = some response)
    (hbackend : routed = .badGateway → .connected none ∈ streams own)
    (h : Responds own response c) : c.Follows own routed := by
  cases routed with
  | badRequest =>
    obtain rfl := Option.some.inj hresponds
    exact h
  | answered answer =>
    obtain rfl := Option.some.inj hresponds
    exact h
  | badGateway =>
    obtain rfl := Option.some.inj hresponds
    exact ⟨hbackend rfl, h⟩
  | closed => cases hresponds
  | relayed preread => cases hresponds

theorem still_accepted : (HttpsEvent.task (.stream .accepted)).Still := by
  rintro m ⟨⟩
  exact ⟨rfl, nofun⟩

theorem still_connected (response : Option Bytes) :
    (HttpsEvent.task (.stream (.connected response))).Still := by
  rintro m ⟨⟩
  exact ⟨rfl, nofun⟩

theorem Stage.accepted (h : Stage parse times own chunks c) :
    Stage parse times (own ++ [.task (.stream .accepted)]) chunks (c.stream .accepted) := by
  by_cases hphase : c.phase = .waiting
  · rw [HttpsConnection.stream, if_pos hphase]
    cases h with
    | waiting _ quiet noReads =>
      subst noReads
      have hsnoc := quiet.snoc still_accepted
      exact .reading rfl ⟨hsnoc.takes, hsnoc.written, hsnoc.buf, hsnoc.down, hsnoc.returned,
        hsnoc.toBackend, hsnoc.toClient⟩ rfl rfl (by decide)
    | reading phase => cases hphase.symm.trans phase
    | connecting phase => cases hphase.symm.trans phase
    | forwarding phase => cases hphase.symm.trans phase
    | relaying phase => cases hphase.symm.trans phase
    | responding phase => cases hphase.symm.trans phase
    | finished phase => cases hphase.symm.trans phase
  · exact h.same (if_neg hphase) (Or.inl still_accepted)

theorem Stage.connected (h : Stage parse times own chunks c) (response : Option Bytes) :
    Stage parse times (own ++ [.task (.stream (.connected response))]) chunks
      (c.stream (.connected response)) := by
  have hunmoved (hsame : c.stream (.connected response) = c) :=
    h.same hsame (Or.inl (still_connected response))
  cases h with
  | connecting phase quiet buf_eq routes =>
    subst buf_eq
    have hsnoc := quiet.snoc (still_connected response)
    have hnow : .connected response ∈ streams (own ++ [.task (.stream (.connected response))]) := by
      rw [streams_snoc]
      exact List.mem_append_right _ List.mem_cons_self
    simp only [HttpsConnection.stream, phase]
    cases response with
    | some response =>
      refine .forwarding rfl
        ⟨hsnoc.takes, hsnoc.toClient, response, hnow, Answers.start hsnoc.down response⟩
        hsnoc.returned (routes true) ?_ hsnoc.written (congrArg Copy.written hsnoc.down)
      exact congrArg (· ++ _) hsnoc.toBackend
    | none =>
      refine .responding rfl (routes false) rfl (fun _ => hnow) ?_ hsnoc.received
        (congrArg Copy.written hsnoc.down)
      exact congrArg (· ++ _) hsnoc.toClient
  | waiting phase => exact hunmoved (by simp only [HttpsConnection.stream, phase])
  | reading phase => exact hunmoved (by simp only [HttpsConnection.stream, phase])
  | forwarding phase => exact hunmoved (by simp only [HttpsConnection.stream, phase])
  | relaying phase => exact hunmoved (by simp only [HttpsConnection.stream, phase])
  | responding phase => exact hunmoved (by simp only [HttpsConnection.stream, phase])
  | finished phase => exact hunmoved (by simp only [HttpsConnection.stream, phase])

/-- What a relay has delivered, with its end: the `select!` is done with the first of its copies. -/
theorem Connected.relays (h : Connected own chunks c) (hforwarded : c.toBackend = chunks.flatten)
    (hended : c.phase = .finished →
      selectReturns c.duplex.up.status c.duplex.down.status = true) : Relays own c := by
  obtain ⟨response, hmem, hanswers⟩ := h.answers
  have hreceived : c.received = (c.duplex.behind chunks.flatten).up.written :=
    congrArg (· ++ c.duplex.up.written) hforwarded
  have hanswered : c.answered = c.duplex.down.written :=
    congrArg (· ++ c.duplex.down.written) h.toClient
  refine ⟨?_, Or.inr ⟨response, hmem, ?_⟩, ?_⟩
  · rw [hreceived, ← h.takes.sent]
    exact Copy.written_prefix_sent _
  · rw [hanswered, ← hanswers.sent]
    exact (Copy.written_prefix_sent _).trans (List.prefix_append _ _)
  · intro hover
    have hreturns := hended hover
    cases hup : c.duplex.up.status with
    | failed => exact Or.inr (Or.inl rfl)
    | done =>
      have hdrained := h.takes.sound.drained hup
      refine Or.inr (Or.inr (Or.inr (Or.inl ⟨h.takes.ended.mp hdrained.ended, ?_⟩)))
      rw [hreceived, hdrained.written_eq, h.takes.sent]
    | running =>
      cases hdown : c.duplex.down.status with
      | failed => exact Or.inr (Or.inr (Or.inl rfl))
      | done =>
        have hdrained := hanswers.sound.drained hdown
        refine Or.inr (Or.inr (Or.inr (Or.inr ?_)))
        rw [hanswered, hdrained.written_eq,
          show c.duplex.down.sent = response by
            rw [← hanswers.sent, hanswers.ended hdrained.ended, List.append_nil]]
        exact hmem
      | running =>
        rw [hup, hdown] at hreturns
        cases hreturns

theorem Stage.moves (h : Stage parse times own chunks c) (m : DuplexStep) :
    Stage parse times (own ++ [.task (.stream (.moves m))]) chunks (c.stream (.moves m)) := by
  have hstreams : streams (own ++ [.task (.stream (.moves m))]) = streams own ++ [.moves m] :=
    streams_snoc own _
  have hunmoved (hsame : c.stream (.moves m) = c) (hpast : c.phase.past = true) :=
    h.same hsame (e := .task (.stream (.moves m))) (Or.inr hpast)
  cases h with
  -- until the head is read, only what the client sends moves; the backend is not there yet
  | waiting phase quiet noReads =>
    rw [show c.stream (.moves m) = { c with duplex := c.duplex.clientMoves m } by
      simp only [HttpsConnection.stream, phase]]
    exact .waiting phase (quiet.moves m) noReads
  | reading phase quiet buf_eq noEnd small =>
    rw [show c.stream (.moves m) = { c with duplex := c.duplex.clientMoves m } by
      simp only [HttpsConnection.stream, phase]]
    exact .reading phase (quiet.moves m) buf_eq noEnd small
  | connecting phase quiet buf_eq routes =>
    rw [show c.stream (.moves m) = { c with duplex := c.duplex.clientMoves m } by
      simp only [HttpsConnection.stream, phase]]
    exact .connecting phase (quiet.moves m) buf_eq routes
  -- while the head is being written, the copy loop has not started: the peers move, the copies do
  -- not
  | forwarding phase connected goes routes forwards up down =>
    obtain ⟨response, hmem, hanswers⟩ := connected.answers
    obtain ⟨hup, hdown, hgoes⟩ := c.duplex.peer_fields m
    rw [show c.stream (.moves m) = { c with duplex := c.duplex.peer m } by
      simp only [HttpsConnection.stream, phase]]
    refine .forwarding phase
      ⟨?_, connected.toClient, response, mem_streams_snoc hmem, hanswers.peer m⟩
      (hgoes.trans goes) routes forwards (hup.trans up) (hdown.trans down)
    rw [hstreams, ← Duplex.behind_peer]
    exact connected.takes.peer m
  | relaying phase connected goes routes forwarded =>
    obtain ⟨response, hmem, hanswers⟩ := connected.answers
    have hconnected (next : HttpsPhase) : Connected (own ++ [.task (.stream (.moves m))]) chunks
        { c with phase := next, duplex := HttpRelay.step c.duplex m } := by
      refine ⟨?_, connected.toClient, response, mem_streams_snoc hmem,
        hanswers.step selectReturns m⟩
      rw [hstreams]
      have htakes := connected.takes.relay selectReturns
        (d := c.duplex.behind chunks.flatten) goes m
      rw [Duplex.behind_step] at htakes
      exact htakes
    simp only [HttpsConnection.stream, phase]
    -- `select!` ends the relay as soon as one of the two directions is over
    cases hreturned : (HttpRelay.step c.duplex m).returned with
    | false => exact .relaying rfl (hconnected .relaying) hreturned routes forwarded
    | true =>
      have hbegins : chunks.flatten <+:
          clientStream (streams (own ++ [.task (.stream (.moves m))])) := by
        rw [← (hconnected .finished).takes.sent]
        show _ <+: chunks.flatten ++ _ ++ _ ++ _
        rw [List.append_assoc, List.append_assoc]
        exact List.prefix_append _ _
      exact .finished rfl routes ⟨hbegins, (hconnected .finished).relays forwarded fun _ =>
        returns_of_returned selectReturns goes m hreturned⟩
  -- an error response is written without reading the client any further
  | responding phase =>
    exact hunmoved (by simp only [HttpsConnection.stream, phase]) (by rw [phase]; rfl)
  | finished phase =>
    exact hunmoved (by simp only [HttpsConnection.stream, phase]) (by rw [phase]; rfl)

theorem Stage.writes (h : Stage parse times own chunks c) (n : Nat) :
    Stage parse times (own ++ [.task (.writes n)]) chunks (c.task (.writes n)) := by
  have hstill : (HttpsEvent.task (.writes n)).Still := nofun
  have hunmoved (hsame : c.task (.writes n) = c) := h.same hsame (Or.inl hstill)
  -- two phases write: the head to the backend, and the bridge's own response to the client
  cases h with
  | @forwarding rest phase connected goes routes forwards up down =>
    have hsnoc := connected.snoc hstill
    have hmore : (c.toBackend ++ rest.take (n + 1)) ++ rest.drop (n + 1) = chunks.flatten := by
      rw [List.append_assoc, List.take_append_drop, forwards]
    simp only [HttpsConnection.task, phase]
    by_cases hdone : rest.drop (n + 1) = []
    · rw [hdone, List.append_nil] at hmore
      rw [if_pos hdone]
      exact .relaying rfl ⟨hsnoc.takes, hsnoc.toClient, hsnoc.answers⟩ goes routes hmore
    · rw [if_neg hdone]
      exact .forwarding rfl ⟨hsnoc.takes, hsnoc.toClient, hsnoc.answers⟩ goes routes hmore up down
  | @responding rest response routed phase routes responds backend writes received down =>
    have hmore : (c.toClient ++ rest.take (n + 1)) ++ rest.drop (n + 1) = response := by
      rw [List.append_assoc, List.take_append_drop, writes]
    have hbackend (hb : routed = .badGateway) := mem_streams_snoc (e := .task (.writes n))
      (backend hb)
    simp only [HttpsConnection.task, phase]
    by_cases hdone : rest.drop (n + 1) = []
    · rw [hdone, List.append_nil] at hmore
      rw [if_pos hdone]
      refine .finished rfl routes (follows_of_responds responds hbackend ?_)
      have hanswered : (c.toClient ++ rest.take (n + 1)) ++ c.duplex.down.written = response := by
        rw [down, List.append_nil, hmore]
      exact ⟨received, hanswered ▸ List.prefix_rfl, fun _ => Or.inl hanswered⟩
    · rw [if_neg hdone]
      exact .responding rfl routes responds hbackend hmore received down
  | waiting phase => exact hunmoved (by simp only [HttpsConnection.task, phase])
  | reading phase => exact hunmoved (by simp only [HttpsConnection.task, phase])
  | connecting phase => exact hunmoved (by simp only [HttpsConnection.task, phase])
  | relaying phase => exact hunmoved (by simp only [HttpsConnection.task, phase])
  | finished phase => exact hunmoved (by simp only [HttpsConnection.task, phase])

theorem Stage.fails (h : Stage parse times own chunks c) (hreads : Reads own chunks) :
    Stage parse times (own ++ [.task .fails]) chunks (c.task .fails) := by
  have hbroken : Broken (own ++ [.task .fails]) := List.mem_append_right _ List.mem_cons_self
  have hunmoved (hsame : c.task .fails = c) := h.same (e := .task .fails) hsame (Or.inl nofun)
  cases h with
  | waiting phase quiet noReads =>
    subst noReads
    simp only [HttpsConnection.task, phase]
    exact .finished rfl (routes_closed rfl)
      ⟨quiet.received, quiet.answered, fun _ => Or.inr hbroken⟩
  | reading phase quiet buf_eq noEnd small =>
    subst buf_eq
    simp only [HttpsConnection.task, phase]
    exact .finished rfl (routes_closed (headOf_open hreads.cuts noEnd small))
      ⟨quiet.received, quiet.answered, fun _ => Or.inr hbroken⟩
  | @forwarding rest phase connected goes routes forwards up down =>
    simp only [HttpsConnection.task, phase]
    have hbegins := hreads.begins.trans (streams_prefix_snoc own (.task .fails))
    refine .finished rfl routes ⟨hbegins, ?_, Or.inl ?_, fun _ => Or.inl hbroken⟩
    · show c.toBackend ++ c.duplex.up.written <+: _
      rw [up, List.append_nil]
      exact List.IsPrefix.trans ⟨rest, forwards⟩ hbegins
    · show c.toClient ++ c.duplex.down.written = []
      rw [connected.toClient, down]
      rfl
  | @responding rest response routed phase routes responds backend writes received down =>
    simp only [HttpsConnection.task, phase]
    refine .finished rfl routes (follows_of_responds responds (fun hb => mem_streams_snoc (backend hb))
      ⟨received, ?_, fun _ => Or.inr hbroken⟩)
    show c.toClient ++ c.duplex.down.written <+: response
    rw [down, List.append_nil]
    exact ⟨rest, writes⟩
  | connecting phase => exact hunmoved (by simp only [HttpsConnection.task, phase])
  | relaying phase => exact hunmoved (by simp only [HttpsConnection.task, phase])
  | finished phase => exact hunmoved (by simp only [HttpsConnection.task, phase])

/-! ### The whole task -/

/-- What a connection has done at any stage is what `routeTls` says of its reads. A stage that has
still to decide has done nothing, and this is what `routeTls` says of a client that closes now. -/
theorem Stage.follows (h : Stage parse times own chunks c) (hreads : Reads own chunks) :
    ∃ routed, Routes parse times chunks routed ∧ c.Follows own routed := by
  -- an open head routes nowhere: were the stream over now, the connection would close without an
  -- answer
  cases h with
  | waiting phase quiet noReads =>
    subst noReads
    refine ⟨.closed, routes_closed rfl, quiet.received, quiet.answered, fun hover => ?_⟩
    cases phase.symm.trans hover
  | reading phase quiet buf_eq noEnd small =>
    subst buf_eq
    refine ⟨.closed, routes_closed (headOf_open hreads.cuts noEnd small), quiet.received,
      quiet.answered, fun hover => ?_⟩
    cases phase.symm.trans hover
  | connecting phase quiet buf_eq routes =>
    subst buf_eq
    refine ⟨.relayed chunks.flatten, routes true, hreads.begins, ?_, Or.inl quiet.answered,
      fun hover => ?_⟩
    · rw [quiet.received]
      exact List.nil_prefix
    · cases phase.symm.trans hover
  | @forwarding rest phase connected goes routes forwards up down =>
    refine ⟨.relayed chunks.flatten, routes, hreads.begins, ?_, Or.inl ?_, fun hover => ?_⟩
    · rw [HttpsConnection.received, up, List.append_nil]
      exact List.IsPrefix.trans ⟨rest, forwards⟩ hreads.begins
    · rw [HttpsConnection.answered, connected.toClient, down]
      rfl
    · cases phase.symm.trans hover
  | relaying phase connected goes routes forwarded =>
    refine ⟨.relayed chunks.flatten, routes, hreads.begins, connected.relays forwarded ?_⟩
    intro hover
    cases phase.symm.trans hover
  | @responding rest response routed phase routes responds backend writes received down =>
    refine ⟨routed, routes, follows_of_responds responds backend ⟨received, ?_, fun hover => ?_⟩⟩
    · rw [HttpsConnection.answered, down, List.append_nil]
      exact ⟨rest, writes⟩
    · cases phase.symm.trans hover
  | @finished routed phase routes follows => exact ⟨routed, routes, follows⟩

/-- What the event's read looks at is decided by `headStep`, with one of `times`. The store and
the time are those of that read, not of the beginning of the connection. -/
def HttpsEvent.Asks (parse : HttpParser) (times : VkShare.VkShareStore → Nat → Prop)
    (e : HttpsEvent) : Prop :=
  ∀ n head, e = .read n head →
    ∃ store now, times store now ∧ ∀ buf, head buf = (headStep parse store now buf).1

/-- **One step.** The task reads, writes, copies or fails, or it is the peers that move; each case
is a lemma about the stages it can happen in. -/
theorem Stage.step (h : Stage parse times own chunks c) (hreads : Reads own chunks)
    (hasks : e.Asks parse times) :
    ∃ chunks', Reads (own ++ [e]) chunks' ∧ Stage parse times (own ++ [e]) chunks' (c.step e) := by
  cases e with
  | read n head =>
    obtain ⟨store, now, htime, hhead⟩ := hasks n head rfl
    exact h.read hreads htime n hhead
  | task e =>
    refine ⟨chunks, hreads.snoc, ?_⟩
    cases e with
    | stream e =>
      cases e with
      | accepted => exact h.accepted
      | connected response => exact h.connected response
      | moves m => exact h.moves m
    | writes n => exact h.writes n
    | fails => exact h.fails hreads

end Stages

/-! ## The listener -/

namespace HttpsListener

section

variable (parse : HttpParser) (env : VkShare.Env)

/-- What happens to connection `k` in a run. -/
def eventsOf (k : Nat) (events : List ListenerEvent) : List HttpsEvent :=
  Family.eventsOf k (trace (step parse env) (select parse) start events)

end

end HttpsListener

end LatticeShield.Bridge
