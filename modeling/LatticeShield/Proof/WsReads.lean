import LatticeShield.Bridge.WsStream

/-!
# What a reader of a WebSocket gets

The bytes a `WsStream` hands out are the payloads of its messages, one after the other, whatever
the sizes of the reads: `pollLoop_spec` says of one poll which events it has consumed and that no
byte of theirs is lost, and `reads_spec` says it of a whole run of reads.

A poll that is ready with no bytes is how the adapter says the stream has ended. It says so at a
`Close` and at the end of the socket's stream, but also at a message without payload, which ends
nothing: a browser that sends an empty message makes the session believe it has gone. So the reads
are right exactly for the event sequences in which no such message comes before the end.
-/

set_option autoImplicit false

namespace LatticeShield.Bridge

open Lib

namespace WsEvent

/-- The bytes the event adds to the stream. -/
def payload : WsEvent → Bytes
  | .message (.binary data) => data
  | .message (.text text) => text.toUTF8.toList
  | _ => []

/-- The events after which the stream has ended. -/
def Ends : WsEvent → Prop
  | .none | .message .close => True
  | _ => False

/-- A data message without payload. To a caller its read is the same as the end of the stream: no
bytes, and no error. -/
def EmptyData : WsEvent → Prop
  | .message (.binary data) => data = []
  | .message (.text text) => text.toUTF8.toList = []
  | _ => False

/-- No empty message comes before the stream has ended. After the end it may: nobody reads it. -/
def NoEarlyEmpty : List WsEvent → Prop
  | [] => True
  | event :: rest => event.Ends ∨ ¬ event.EmptyData ∧ NoEarlyEmpty rest

theorem NoEarlyEmpty.ends_of_mem {events polled rest : List WsEvent} (h : NoEarlyEmpty events)
    (hpolled : events = polled ++ rest) (hempty : ∃ event ∈ polled, EmptyData event) :
    ∃ event ∈ polled, Ends event := by
  induction polled generalizing events with
  | nil => simp at hempty
  | cons event polled ih =>
    rw [hpolled, List.cons_append] at h
    rcases h with hends | ⟨hdata, hrest⟩
    · exact ⟨event, List.mem_cons_self, hends⟩
    · obtain ⟨empty, hmem, hempty⟩ := hempty
      rcases List.mem_cons.mp hmem with rfl | hmem
      · exact absurd hempty hdata
      · obtain ⟨last, hlast, hends⟩ := ih hrest rfl ⟨empty, hmem, hempty⟩
        exact ⟨last, List.mem_cons_of_mem event hlast, hends⟩

end WsEvent

namespace PollRead

/-- The bytes a poll has put into the caller's buffer. -/
def bytes : PollRead → Bytes
  | .ready bytes => bytes
  | .pending | .brokenPipe => []

end PollRead

namespace WsStream

open WsEvent

/-- What has been taken from the socket and not been handed out. -/
def unread (s : WsStream) : Bytes := s.readBuf.drop s.readPos

/-! ## One poll -/

theorem unread_eq_nil {s : WsStream} (h : ¬ s.readPos < s.readBuf.length) : s.unread = [] :=
  List.drop_eq_nil_of_le (Nat.le_of_not_lt h)

@[simp] theorem drain_events (s : WsStream) (remaining : Nat) :
    (s.drain remaining).2.events = s.events := by
  simp only [drain]
  split <;> rfl

/-- Draining hands out the front of the buffer and keeps the rest. A buffer that is used up is
cleared, which loses nothing. -/
theorem drain_unread (s : WsStream) (remaining : Nat) :
    (s.drain remaining).1.bytes ++ (s.drain remaining).2.unread = s.unread := by
  have hlength : (s.readBuf.drop s.readPos).length = s.readBuf.length - s.readPos := by simp
  simp only [drain, PollRead.bytes]
  split
  · rename_i hall
    have hcopy : (s.readBuf.drop s.readPos).length ≤
        min (s.readBuf.drop s.readPos).length remaining := by omega
    rw [List.take_of_length_le hcopy]
    simp [unread]
  · show _ ++ List.drop (s.readPos + _) s.readBuf = _
    rw [← List.drop_drop, List.take_append_drop]
    rfl

theorem drain_ready {s : WsStream} {remaining : Nat} (hbuf : s.readPos < s.readBuf.length)
    (hroom : 0 < remaining) : ∃ b bs, (s.drain remaining).1 = .ready (b :: bs) := by
  have hcopy : (List.take (min (s.readBuf.drop s.readPos).length remaining)
      (s.readBuf.drop s.readPos)).length ≠ 0 := by
    simp only [List.length_take, List.length_drop]
    omega
  obtain ⟨b, bs, hbytes⟩ := List.exists_cons_of_length_pos (Nat.pos_of_ne_zero hcopy)
  exact ⟨b, bs, congrArg PollRead.ready hbytes⟩

/-- What one poll does: it consumes some events, returns the next of their bytes and keeps the
rest, keeps nothing if it returns nothing, and says that the stream has ended only at an event
that ends it or at an empty message. -/
structure Polled (events : List WsEvent) (before : Bytes) (result : PollRead × WsStream)
    (polled : List WsEvent) : Prop where
  events_eq : events = polled ++ result.2.events
  bytes_eq : result.1.bytes ++ result.2.unread = before ++ polled.flatMap payload
  all_out : result.1.bytes = [] → result.2.unread = []
  at_end : result.1 = .ready [] → ∃ event ∈ polled, event.Ends ∨ event.EmptyData

theorem Polled.of_drain {remaining : Nat} (hroom : 0 < remaining) (events : List WsEvent)
    {s : WsStream} (hbuf : s.readPos < s.readBuf.length) :
    Polled events s.unread (drain { s with events := events } remaining) [] := by
  obtain ⟨b, bs, hready⟩ := drain_ready (s := { s with events := events }) hbuf hroom
  constructor
  · simp
  · rw [drain_unread]
    simp [unread]
  · simp [hready, PollRead.bytes]
  · simp [hready]

/-- One more event in front, whose bytes come before those that were still buffered. -/
theorem Polled.cons {event : WsEvent} {events polled : List WsEvent} {before : Bytes}
    {result : PollRead × WsStream} (h : Polled events before result polled)
    (hbefore : before = event.payload) :
    Polled (event :: events) [] result (event :: polled) := by
  constructor
  · rw [h.events_eq, List.cons_append]
  · rw [h.bytes_eq, hbefore, List.flatMap_cons, List.nil_append]
  · exact h.all_out
  · intro hend
    obtain ⟨last, hmem, hlast⟩ := h.at_end hend
    exact ⟨last, List.mem_cons_of_mem event hmem, hlast⟩

/-- A poll that returns at an event without bytes. It has something to say about the end only if
the event is one, or an empty message. -/
theorem Polled.stop {event : WsEvent} {rest : List WsEvent} {s : WsStream} {answer : PollRead}
    (hnil : s.unread = []) (hpayload : event.payload = []) (hbytes : answer.bytes = [])
    (hend : answer = .ready [] → event.Ends ∨ event.EmptyData) :
    Polled (event :: rest) [] (answer, { s with events := rest }) [event] := by
  have hunread : unread { s with events := rest } = [] := hnil
  constructor
  · rfl
  · simp [hbytes, hunread, hpayload]
  · intro _
    exact hunread
  · intro h
    exact ⟨event, List.mem_cons_self, hend h⟩

theorem pollLoop_buffered {remaining : Nat} {events : List WsEvent} {s : WsStream}
    (hbuf : s.readPos < s.readBuf.length) :
    pollLoop remaining events s = drain { s with events := events } remaining := by
  rw [pollLoop.eq_def, if_pos hbuf]

theorem pollLoop_spec {remaining : Nat} (hroom : 0 < remaining) (events : List WsEvent)
    (s : WsStream) :
    ∃ polled, Polled events s.unread (pollLoop remaining events s) polled := by
  induction events generalizing s with
  | nil =>
    by_cases hbuf : s.readPos < s.readBuf.length
    · rw [pollLoop_buffered hbuf]
      exact ⟨[], Polled.of_drain hroom [] hbuf⟩
    · have hnil := unread_eq_nil hbuf
      rw [pollLoop, if_neg hbuf]
      exact ⟨[], rfl, by simp [PollRead.bytes, unread], fun _ => hnil, by simp⟩
  | cons event rest ih =>
    by_cases hbuf : s.readPos < s.readBuf.length
    · rw [pollLoop_buffered hbuf]
      exact ⟨[], Polled.of_drain hroom (event :: rest) hbuf⟩
    · have hnil := unread_eq_nil hbuf
      -- nothing is buffered, so the poll takes the first event
      rw [pollLoop.eq_def, if_neg hbuf, hnil]
      cases event with
      | pending => exact ⟨_, Polled.stop hnil rfl rfl (by simp)⟩
      | none => exact ⟨_, Polled.stop hnil rfl rfl fun _ => .inl trivial⟩
      | err => exact ⟨_, Polled.stop hnil rfl rfl (by simp)⟩
      | message msg =>
        cases msg with
        | binary data =>
          simp only [List.isEmpty_iff]
          split
          · rename_i hdata
            exact ⟨_, Polled.stop hnil hdata rfl fun _ => .inr hdata⟩
          · obtain ⟨polled, hpolled⟩ := ih { s with events := rest, readBuf := data, readPos := 0 }
            exact ⟨_, hpolled.cons rfl⟩
        | text text =>
          simp only [List.isEmpty_iff]
          split
          · rename_i hdata
            exact ⟨_, Polled.stop hnil hdata rfl fun _ => .inr hdata⟩
          · obtain ⟨polled, hpolled⟩ :=
              ih { s with events := rest, readBuf := text.toUTF8.toList, readPos := 0 }
            exact ⟨_, hpolled.cons rfl⟩
        | close => exact ⟨_, Polled.stop hnil rfl rfl fun _ => .inl trivial⟩
        | ping | pong | frame =>
          obtain ⟨polled, hpolled⟩ := ih { s with events := rest }
          exact ⟨_, hpolled.cons hnil⟩

/-! ## A run of reads -/

/-- The answers to successive reads into buffers of the given sizes, and the stream after them. -/
def reads (s : WsStream) : List Nat → List PollRead × WsStream
  | [] => ([], s)
  | remaining :: sizes =>
    let polled := s.pollRead remaining
    let later := reads polled.2 sizes
    (polled.1 :: later.1, later.2)

/-- No byte of a consumed event is lost over a run of reads, and an answer that says the stream
has ended has a reason among the consumed events. -/
theorem reads_spec {sizes : List Nat} (hsizes : ∀ remaining ∈ sizes, 0 < remaining)
    (s : WsStream) :
    ∃ polled, s.events = polled ++ (reads s sizes).2.events ∧
      (reads s sizes).1.flatMap PollRead.bytes ++ (reads s sizes).2.unread =
        s.unread ++ polled.flatMap payload ∧
      ∀ answer, (reads s sizes).1.getLast? = some answer →
        (answer.bytes = [] → (reads s sizes).2.unread = []) ∧
        (answer = .ready [] → ∃ event ∈ polled, event.Ends ∨ event.EmptyData) := by
  induction sizes generalizing s with
  | nil => exact ⟨[], rfl, by simp [reads], by simp [reads]⟩
  | cons remaining sizes ih =>
    obtain ⟨hroom, hrest⟩ := List.forall_mem_cons.mp hsizes
    obtain ⟨first, hfirst⟩ := pollLoop_spec hroom s.events s
    obtain ⟨later, hevents, hbytes, hlast⟩ := ih hrest (s.pollRead remaining).2
    refine ⟨first ++ later, ?_, ?_, ?_⟩
    · rw [List.append_assoc, reads, ← hevents]
      exact hfirst.events_eq
    · calc (s.pollRead remaining).1.bytes ++ (reads (s.pollRead remaining).2 sizes).1.flatMap
              PollRead.bytes ++ (reads (s.pollRead remaining).2 sizes).2.unread
          = (s.pollRead remaining).1.bytes ++ ((s.pollRead remaining).2.unread ++
              later.flatMap payload) := by rw [List.append_assoc, hbytes]
        _ = s.unread ++ first.flatMap payload ++ later.flatMap payload := by
            rw [← List.append_assoc]
            exact congrArg (· ++ later.flatMap payload) hfirst.bytes_eq
        _ = s.unread ++ (first ++ later).flatMap payload := by simp
    · intro answer hanswer
      cases hsizes : sizes with
      | nil =>
        -- the first read is the last one
        subst hsizes
        obtain rfl : (s.pollRead remaining).1 = answer := by simpa [reads] using hanswer
        refine ⟨hfirst.all_out, ?_⟩
        intro hend
        obtain ⟨event, hmem, hevent⟩ := hfirst.at_end hend
        exact ⟨event, List.mem_append_left later hmem, hevent⟩
      | cons size more =>
        have hanswer' : (reads (s.pollRead remaining).2 sizes).1.getLast? = some answer := by
          rw [hsizes] at hanswer ⊢
          simpa [reads] using hanswer
        obtain ⟨hout, hends⟩ := hlast answer hanswer'
        rw [← hsizes]
        refine ⟨hout, ?_⟩
        intro hend
        obtain ⟨event, hmem, hevent⟩ := hends hend
        exact ⟨event, List.mem_append_right first hmem, hevent⟩

/-! ## A false end -/

/-- An idle stream: nothing is buffered, and these events are still to come. The next read takes
the next event. -/
structure Idle (s : WsStream) (events : List WsEvent) : Prop where
  events_eq : s.events = events
  nothing_buffered : ¬ s.readPos < s.readBuf.length

theorem Idle.pollRead_eq {s : WsStream} {events : List WsEvent} (h : Idle s events)
    (remaining : Nat) : s.pollRead remaining = pollLoop remaining events s := by
  rw [pollRead, h.events_eq]

theorem idle_with {s : WsStream} {events : List WsEvent} (rest : List WsEvent)
    (h : Idle s events) : Idle { s with events := rest } rest :=
  ⟨rfl, h.nothing_buffered⟩

/-- A read with room for all of a message leaves the stream idle. -/
theorem pollLoop_message {data : Bytes} (hdata : data ≠ []) (rest : List WsEvent) (s : WsStream) :
    pollLoop data.length rest { s with events := rest, readBuf := data, readPos := 0 } =
      (.ready data, { s with events := rest, readBuf := [], readPos := 0 }) := by
  have hbuf : 0 < data.length := List.length_pos_iff.mpr hdata
  rw [pollLoop_buffered hbuf]
  simp [drain]

/-- Reads of some sizes lead from one stream to the other, and whoever reads on reads there. -/
def LeadsTo (s s' : WsStream) : Prop :=
  ∃ (first : List Nat) (answers : List PollRead), (∀ remaining ∈ first, 0 < remaining) ∧
    ∀ size sizes, reads s (first ++ size :: sizes) =
      (answers ++ (reads s' (size :: sizes)).1, (reads s' (size :: sizes)).2)

theorem LeadsTo.of_read {s s' : WsStream} {remaining : Nat} (hroom : 0 < remaining)
    (h : (s.pollRead remaining).2 = s') : LeadsTo s s' := by
  refine ⟨[remaining], [(s.pollRead remaining).1], by simpa using hroom, ?_⟩
  intro size sizes
  rw [List.singleton_append, reads, h]
  rfl

theorem LeadsTo.of_loop {s s' : WsStream} (h : ∀ remaining, s.pollRead remaining =
    s'.pollRead remaining) : LeadsTo s s' := by
  refine ⟨[], [], by simp, ?_⟩
  intro size sizes
  rw [List.nil_append, reads, reads, h]
  rfl

/-- Reads lead past every event that is neither an end nor an empty message. What they return is
the payload of the event, in as many pieces as it takes. -/
theorem Idle.past {s : WsStream} {event : WsEvent} {rest : List WsEvent}
    (h : Idle s (event :: rest)) (hends : ¬ event.Ends) (hdata : ¬ event.EmptyData) :
    ∃ s', Idle s' rest ∧ LeadsTo s s' := by
  have hpoll : ∀ remaining, s.pollRead remaining = pollLoop remaining (event :: rest) s :=
    h.pollRead_eq
  have hbuf := h.nothing_buffered
  cases event with
  | pending | err =>
    refine ⟨_, idle_with rest h, LeadsTo.of_read Nat.one_pos ?_⟩
    rw [hpoll, pollLoop, if_neg hbuf]
  | none => exact absurd trivial hends
  | message msg =>
    cases msg with
    | binary data =>
      have hne : data ≠ [] := hdata
      refine ⟨{ s with events := rest, readBuf := [], readPos := 0 }, ⟨rfl, by simp⟩,
        LeadsTo.of_read (List.length_pos_iff.mpr hne) ?_⟩
      rw [hpoll, pollLoop, if_neg hbuf]
      simp only [List.isEmpty_iff, if_neg hne, pollLoop_message hne]
    | text text =>
      have hne : text.toUTF8.toList ≠ [] := hdata
      refine ⟨{ s with events := rest, readBuf := [], readPos := 0 }, ⟨rfl, by simp⟩,
        LeadsTo.of_read (List.length_pos_iff.mpr hne) ?_⟩
      rw [hpoll, pollLoop, if_neg hbuf]
      simp only [List.isEmpty_iff, if_neg hne, pollLoop_message hne]
    | close => exact absurd trivial hends
    | ping | pong | frame =>
      refine ⟨_, idle_with rest h, LeadsTo.of_loop ?_⟩
      intro remaining
      rw [hpoll, pollLoop, if_neg hbuf]
      rfl

/-- At an empty message a read says that the stream has ended: `Ok(())` with nothing in the buffer
is what an end looks like. -/
theorem Idle.pollRead_empty {s : WsStream} {event : WsEvent} {rest : List WsEvent}
    (h : Idle s (event :: rest)) (hdata : event.EmptyData) (remaining : Nat) :
    s.pollRead remaining = (.ready [], { s with events := rest }) := by
  rw [h.pollRead_eq, pollLoop.eq_def, if_neg h.nothing_buffered]
  cases event with
  | pending | none | err => exact absurd hdata id
  | message msg =>
    cases msg with
    | binary data =>
      have hnil : data = [] := hdata
      simp [hnil]
    | text text =>
      have hnil : text.toUTF8.toList = [] := hdata
      simp only [hnil, List.isEmpty_nil, if_true]
    | close | ping | pong | frame => exact absurd hdata id

/-- With an empty message before the end, some reads end in an answer that says the stream has
ended although no event they consumed ends it. -/
theorem Idle.false_end {s : WsStream} {events : List WsEvent} (h : Idle s events)
    (hearly : ¬ NoEarlyEmpty events) :
    ∃ sizes polled, (∀ remaining ∈ sizes, 0 < remaining) ∧ sizes ≠ [] ∧
      events = polled ++ (reads s sizes).2.events ∧ (∀ event ∈ polled, ¬ event.Ends) ∧
      (reads s sizes).1.getLast? = some (.ready []) := by
  induction events generalizing s with
  | nil => exact absurd trivial hearly
  | cons event rest ih =>
    simp only [NoEarlyEmpty, not_or, not_and_or, not_not] at hearly
    obtain ⟨hends, hrest⟩ := hearly
    by_cases hdata : event.EmptyData
    · have hpoll := h.pollRead_empty hdata 1
      refine ⟨[1], [event], by simp, by simp, ?_, by simpa using hends, ?_⟩
      · simp [reads, hpoll]
      · simp [reads, hpoll]
    · obtain ⟨s', hidle, first, answers, hfirst, hreads⟩ := h.past hends hdata
      obtain ⟨sizes, polled, hsizes, hne, hevents, hnone, hlast⟩ :=
        ih hidle (hrest.resolve_left hdata)
      obtain ⟨size, more, rfl⟩ := List.exists_cons_of_ne_nil hne
      refine ⟨first ++ size :: more, event :: polled, ?_, by simp, ?_, ?_, ?_⟩
      · exact List.forall_mem_append.mpr ⟨hfirst, hsizes⟩
      · rw [hreads, List.cons_append, ← hevents]
      · exact List.forall_mem_cons.mpr ⟨hends, hnone⟩
      · rw [hreads, List.getLast?_append, hlast]
        rfl

/-! ## When the reads are right -/

/-- What reads of the given sizes show of the events: their payloads in order, held back only
behind a read that returned some, and an end only after an event that ends the stream. -/
def ReadsConcatenate (events : List WsEvent) (sizes : List Nat) : Prop :=
  ∃ polled, events = polled ++ (reads { events := events } sizes).2.events ∧
    (reads { events := events } sizes).1.flatMap PollRead.bytes ++
      (reads { events := events } sizes).2.unread = polled.flatMap payload ∧
    ∀ answer, (reads { events := events } sizes).1.getLast? = some answer →
      (answer.bytes = [] → (reads { events := events } sizes).2.unread = []) ∧
      (answer = .ready [] → ∃ event ∈ polled, event.Ends)

/-- **Reads give the concatenation of the messages exactly when none of them is empty.** Into
buffers of any sizes, successive reads return the payloads byte for byte and report the end only
at an event that ends the stream, if and only if no empty data message comes before that. An empty
one fills no byte of the caller's buffer, and this is how a reader is told of the end. -/
theorem poll_read_concatenates_iff (events : List WsEvent) :
    (∀ sizes : List Nat, (∀ remaining ∈ sizes, 0 < remaining) →
      ReadsConcatenate events sizes) ↔ NoEarlyEmpty events := by
  constructor
  · intro h
    by_contra hearly
    have hidle : Idle { events := events } events := ⟨rfl, by simp⟩
    obtain ⟨sizes, polled, hsizes, -, hevents, hnone, hlast⟩ := hidle.false_end hearly
    obtain ⟨polled', hevents', -, hend⟩ := h sizes hsizes
    obtain rfl : polled' = polled := List.append_cancel_right (hevents'.symm.trans hevents)
    obtain ⟨event, hmem, hends⟩ := (hend _ hlast).2 rfl
    exact hnone event hmem hends
  · intro hquiet sizes hsizes
    obtain ⟨polled, hevents, hbytes, hlast⟩ := reads_spec hsizes { events := events }
    refine ⟨polled, hevents, hbytes, ?_⟩
    intro answer hanswer
    obtain ⟨hout, hend⟩ := hlast answer hanswer
    refine ⟨hout, ?_⟩
    intro hready
    obtain ⟨event, hmem, hends | hempty⟩ := hend hready
    · exact ⟨event, hmem, hends⟩
    · exact hquiet.ends_of_mem hevents ⟨event, hmem, hempty⟩

/-- One empty binary message, and the very first read reports the end of the stream. -/
theorem poll_read_empty_binary_ends :
    ¬ ∀ (events : List WsEvent) (sizes : List Nat), (∀ remaining ∈ sizes, 0 < remaining) →
      ReadsConcatenate events sizes := by
  intro h
  obtain ⟨polled, hevents, -, hlast⟩ := h [.message (.binary [])] [1] (by decide)
  have hpolled : polled = [.message (.binary [])] := by
    simpa [reads, pollRead, pollLoop] using hevents.symm
  obtain ⟨event, hmem, hends⟩ := (hlast (.ready []) rfl).2 rfl
  rw [hpolled, List.mem_singleton] at hmem
  rw [hmem] at hends
  exact hends

end WsStream

end LatticeShield.Bridge
