import LatticeShield.Lib.Fallible
import LatticeShield.Lib.Handlers
import LatticeShield.Proof.WorkerLoop

/-!
# The worker's receive path, one message after the other

`handleDecrypt` and `handleKeyRotate` read the key and the counters, wait for `crypto.subtle`, and
write them back. Nothing keeps the next message out in the meantime: a replayed frame whose first
copy is still being decrypted is compared with a `recvSeq` that has not moved yet, and a DATA frame
behind a `KEY_ROTATE` is decrypted with the key that is on its way out.

What a suspended handler will do is settled when it suspends, and only one whose call goes well
writes anything. So two things are asked of a turn of the loop (`Undisturbed`): no message is
started that such a handler, once it has written, would have made read something else that
matters; and such handlers are resumed in the order in which they came.

Under that condition the handlers that will write stand in a queue: DATA frames with growing seqs,
all above `recvSeq`, and behind them at most one rotation (`Queued`).
-/

set_option autoImplicit false

namespace LatticeShield.Js

open Lib EncryptedChannel

/-! ## The handlers -/

/-- What a suspended handler posts. -/
def Pending.reply (C : CipherSuite) : Pending → OutMessage
  | .encodeFrame id key seq plaintext =>
    match Js.encodeFrame C key seq plaintext with
    | .ok frame => .encrypted id frame
    | .error e => .cryptoErr id e
  | .decodeFrame id key buf recvSeq recvInitialized =>
    match Js.decodeFrame C key buf recvSeq recvInitialized with
    | .ok (plaintext, _) => .decrypted id plaintext
    | .error e => .cryptoErr id e
  | .processKeyRotate key frame keyRotateRecvSeq =>
    match Js.processKeyRotate C key frame keyRotateRecvSeq with
    | .ok _ => .keyRotated
    | .error e => .keyRotateErr e

def handlers (C : CipherSuite) : Handlers Worker InMessage Pending OutMessage where
  start := Worker.start
  write w p := (w.resume C p).1
  reply := Pending.reply C

theorem resume_eq (C : CipherSuite) (w : Worker) (p : Pending) :
    w.resume C p = ((handlers C).write w p, (handlers C).reply p) := by
  refine Prod.ext rfl ?_
  cases p with
  | encodeFrame id key seq plaintext =>
    cases h : Js.encodeFrame C key seq plaintext <;>
      simp only [Worker.resume, handlers, Pending.reply, h]
  | decodeFrame id key buf recvSeq recvInitialized =>
    cases h : Js.decodeFrame C key buf recvSeq recvInitialized <;>
      simp only [Worker.resume, handlers, Pending.reply, h]
  | processKeyRotate key frame seq =>
    cases h : Js.processKeyRotate C key frame seq <;>
      simp only [Worker.resume, handlers, Pending.reply, h]

theorem handlers_handle (C : CipherSuite) : (handlers C).handle = Worker.handle C := by
  funext w msg
  simp only [Handlers.handle, Worker.handle, handlers]
  cases w.start msg with
  | inl out => rfl
  | inr p => exact (resume_eq C w p).symm

/-- Each message handled to its end before the next one: the worker it leaves, and what is posted
for each. It is the specification that the claim names, and has no suspended handler in it. -/
def sequential (C : CipherSuite) (w : Worker) (msgs : List InMessage) : Worker × List OutMessage :=
  msgs.foldl (fun x msg => ((x.1.handle C msg).1, x.2 ++ [(x.1.handle C msg).2])) (w, [])

theorem handlers_sequential (C : CipherSuite) (w : Worker) (msgs : List InMessage) :
    (handlers C).sequential w msgs = sequential C w msgs := by
  rw [Handlers.sequential, handlers_handle]
  rfl

def Turn.plain : Turn → Handlers.Turn InMessage
  | .message msg => .message msg
  | .resume i => .resume i

/-- The loop of the worker is the loop of its handlers, with histories. -/
theorem run_plain (C : CipherSuite) (key : SessionKey) (turns : List Turn) :
    let l := (handlers C).run (.initialised key) (turns.map Turn.plain)
    (Loop.run C key turns).worker = l.state ∧
    (Loop.run C key turns).pending = l.waiting.map Prod.fst ∧
    (Loop.run C key turns).posts = l.results.map Prod.fst := by
  induction turns using List.reverseRecOn with
  | nil => exact ⟨rfl, rfl, rfl⟩
  | append_singleton turns t ih =>
    obtain ⟨hworker, hpending, hposts⟩ := ih
    rw [Loop.run_snoc, List.map_append, List.map_singleton, Handlers.run_snoc]
    generalize (handlers C).run (.initialised key) (turns.map Turn.plain) = l at *
    cases t with
    | message msg =>
      simp only [Loop.step, Handlers.step, Turn.plain, hworker]
      cases hstart : l.state.start msg with
      | inl out => simp [handlers, hstart, hpending, hposts]
      | inr p => simp [handlers, hstart, hpending, hposts]
    | resume i =>
      simp only [Loop.step, Handlers.step, Turn.plain, hpending, List.getElem?_map]
      cases hi : l.waiting[i]? with
      | none => simp [hworker, hpending, hposts]
      | some x =>
        simp only [Option.map_some, resume_eq, hworker, hposts, List.map_append, List.map_cons,
          List.map_nil, List.eraseIdx_map, and_self]

/-! ## What a frame is compared with -/

/-- The seq a DATA frame claims. -/
def seqOf (buf : Bytes) : Nat := beNat (frameSeq buf)

/-- The header is that of a DATA frame with its body behind it. Anything else is refused before
the key or a counter is looked at. -/
def isData (buf : Bytes) : Bool :=
  decide (25 ≤ buf.length ∧ buf.headD 0 = frameData ∧
    25 + beNat ((buf.drop 1).take 4) ≤ buf.length)

theorem decodeFrame_of_not_isData {buf : Bytes} (h : isData buf = false) :
    ∃ e, ∀ C key recvSeq recvInitialized,
      decodeFrame C key buf recvSeq recvInitialized = .error e := by
  by_cases hlen : buf.length < 1 + 4 + 8 + 12
  · exact ⟨_, fun C key r i => dif_pos hlen⟩
  · by_cases htag : buf.headD 0 = frameData
    · have hsize : buf.length < 25 + beNat ((buf.drop 1).take 4) := by
        rw [isData, decide_eq_false_iff_not] at h
        by_contra hge
        exact h ⟨by omega, htag, by omega⟩
      let total := 1 + 4 + 8 + 12 + beNat ((buf.drop 1).take 4)
      refine ⟨.error s!"frame body truncated: expected {total} bytes, got {buf.length}", ?_⟩
      intro C key r i
      simp only [decodeFrame, dif_neg hlen, decodeFields, if_neg (not_not.mpr htag), if_pos hsize]
      rfl
    · refine ⟨.error s!"unexpected frame tag: 0x{hex (buf.headD 0)}", ?_⟩
      intro C key r i
      simp only [decodeFrame, dif_neg hlen, decodeFields, ne_eq, htag, not_false_eq_true, if_true]

section Decode

variable {C : CipherSuite} {key : SessionKey} {buf : Bytes} {r r' : Nat} {i i' : Bool}

/-- As long as the frame is not refused as a replay, the counter does not matter. It is the only
use `decodeFrame` makes of it. -/
theorem decodeFrame_congr (h : ¬ (i = true ∧ seqOf buf ≤ r)) (h' : ¬ (i' = true ∧ seqOf buf ≤ r')) :
    decodeFrame C key buf r i = decodeFrame C key buf r' i' := by
  unfold decodeFrame
  split
  · rfl
  · simp only [decodeFields]
    rw [seqOf, frameSeq] at h h'
    rw [if_neg h, if_neg h']

theorem decodeFrame_ok {p : Bytes} {seq : Nat} (h : decodeFrame C key buf r i = .ok (p, seq)) :
    isData buf = true ∧ seq = seqOf buf ∧ ¬ (i = true ∧ seqOf buf ≤ r) := by
  have hdata : isData buf = true := by
    by_contra hdata
    obtain ⟨e, he⟩ := decodeFrame_of_not_isData (Bool.eq_false_iff.mpr hdata)
    rw [he] at h
    exact absurd h (by simp)
  unfold decodeFrame at h
  split at h
  · exact absurd h (by simp)
  · simp only [decodeFields] at h
    split at h
    · exact absurd h (by simp)
    · split at h
      · exact absurd h (by simp)
      · split at h
        · exact absurd h (by simp)
        · rename_i hreplay
          obtain ⟨nonce, -, h⟩ := bind_eq_ok.mp h
          split at h
          · exact absurd h (by simp)
          · obtain ⟨aad, -, h⟩ := bind_eq_ok.mp h
            obtain ⟨plaintext, -, h⟩ := bind_eq_ok.mp h
            exact ⟨hdata, (Prod.ext_iff.mp (Except.ok.inj h)).2.symm, hreplay⟩

end Decode

theorem processKeyRotate_of_error {frame : Bytes} {e : JsError}
    (h : parseKeyRotateFrame frame = .error e) (C : CipherSuite) (key : SessionKey) (seq : Nat) :
    processKeyRotate C key frame seq = .error e := by
  rw [processKeyRotate, h]
  rfl

/-! ## Which turns leave the order alone -/

/-- The call goes well. -/
def Pending.goesWell (C : CipherSuite) : Pending → Bool
  | .encodeFrame _ key seq plaintext => (Js.encodeFrame C key seq plaintext).isOk
  | .decodeFrame _ key buf recvSeq recvInitialized =>
    (Js.decodeFrame C key buf recvSeq recvInitialized).isOk
  | .processKeyRotate key frame seq => (Js.processKeyRotate C key frame seq).isOk

/-- The message depends on what the suspended handler will write: a DATA frame on a new key, and
on the `recvSeq` of a frame it does not come after; a `KEY_ROTATE` frame on a new key. Every
handler reads the key and the counter when it starts, and writes them when it resumes. -/
def Pending.disturbs : Pending → InMessage → Bool
  | .decodeFrame _ _ buf _ _, .decrypt _ ciphertext =>
    isData ciphertext && decide (seqOf ciphertext ≤ seqOf buf)
  | .processKeyRotate _ _ _, .decrypt _ ciphertext => isData ciphertext
  | .processKeyRotate _ _ _, .keyRotate frame => (parseKeyRotateFrame frame).isOk
  | _, _ => false

/-- No message is started that a handler which is suspended, and will write, disturbs; and of
those that will write, the first to arrive is the first to resume. Handlers that will end in an
error may resume at any time. -/
def Undisturbed (C : CipherSuite) (l : Handlers.Loop Worker Pending OutMessage) :
    Handlers.Turn InMessage → Prop
  | .message msg => ∀ x ∈ l.waiting, x.1.goesWell C = true → x.1.disturbs msg = false
  | .resume i => (l.waiting[i]?.any fun x => x.1.goesWell C) = true →
      ∀ y ∈ l.waiting.take i, y.1.goesWell C = false

instance (C : CipherSuite) (l : Handlers.Loop Worker Pending OutMessage) :
    ∀ t, Decidable (Undisturbed C l t)
  | .message _ => inferInstanceAs (Decidable (∀ x ∈ l.waiting, _))
  | .resume _ => inferInstanceAs (Decidable (_ → ∀ y ∈ _, _))

theorem write_of_not_goesWell {C : CipherSuite} {p : Pending} (h : p.goesWell C = false)
    (w : Worker) : (handlers C).write w p = w := by
  cases p with
  | encodeFrame id key seq plaintext =>
    obtain ⟨e, hcall⟩ := isOk_eq_false.mp h
    simp only [handlers, Worker.resume, hcall]
  | decodeFrame id key buf recvSeq recvInitialized =>
    obtain ⟨e, hcall⟩ := isOk_eq_false.mp h
    simp only [handlers, Worker.resume, hcall]
  | processKeyRotate key frame seq =>
    obtain ⟨e, hcall⟩ := isOk_eq_false.mp h
    simp only [handlers, Worker.resume, hcall]

/-- A DATA frame that goes well is none that was refused as a replay, and moves `recvSeq` to its
own seq. -/
theorem goesWell_decodeFrame {C : CipherSuite} {id : String} {key : SessionKey} {buf : Bytes}
    {r : Nat} {i : Bool} (h : Pending.goesWell C (.decodeFrame id key buf r i) = true) :
    isData buf = true ∧ ¬ (i = true ∧ seqOf buf ≤ r) ∧ ∀ w : Worker,
      (handlers C).write w (.decodeFrame id key buf r i) =
        { w with recvSeq := seqOf buf, recvInitialized := true } := by
  obtain ⟨x, hcall⟩ := isOk_eq_true.mp h
  obtain ⟨hdata, hseq, hnot⟩ := decodeFrame_ok hcall
  refine ⟨hdata, hnot, ?_⟩
  intro w
  simp only [handlers, Worker.resume, hcall, hseq]

/-! ## The queue of those that will write -/

/-- `p` may stand before `q`. Two decryptions may if they come in the order of their seqs, and a
rotation may wait behind decryptions; nothing may wait behind a rotation. -/
def Pending.before : Pending → Pending → Prop
  | .decodeFrame _ _ buf _ _, .decodeFrame _ _ buf' _ _ => seqOf buf < seqOf buf'
  | .decodeFrame _ _ _ _ _, .processKeyRotate _ _ _ => True
  | _, _ => False

/-- The suspended handlers that will write, in the order of arrival. -/
def writers (C : CipherSuite) (l : Handlers.Loop Worker Pending OutMessage) : List Pending :=
  (l.waiting.map Prod.fst).filter (Pending.goesWell C)

/-- The invariant of a run: the handlers that will write are in the order of arrival, and each may
stand before the next. None of them is an `ENCRYPT`, and the DATA frames among them have seqs
above what the worker has received. -/
structure Queued (C : CipherSuite) (l : Handlers.Loop Worker Pending OutMessage) : Prop where
  order : (writers C l).Pairwise Pending.before
  above : l.state.recvInitialized = true → ∀ id key buf r i,
    .decodeFrame id key buf r i ∈ writers C l → l.state.recvSeq < seqOf buf
  receives : ∀ id key seq plaintext, .encodeFrame id key seq plaintext ∉ writers C l
  session : l.state.sessionKey.isSome = true

theorem queued_idle (C : CipherSuite) {w : Worker} (h : w.sessionKey.isSome = true) :
    Queued C (Handlers.idle w) := by
  constructor <;> simp [writers, Handlers.idle, h]

theorem mem_writers {C : CipherSuite} {l : Handlers.Loop Worker Pending OutMessage} {p : Pending} :
    p ∈ writers C l ↔ (∃ n, (p, n) ∈ l.waiting) ∧ p.goesWell C = true := by
  simp [writers, List.mem_filter]

/-- What DATA frames change: nothing, or `recvSeq`, to the seq of one of them. The session key and
the rotation counter are not theirs. -/
structure Moved (C : CipherSuite) (ps : List Pending) (w w' : Worker) : Prop where
  sessionKey : w'.sessionKey = w.sessionKey
  keyRotateRecvSeq : w'.keyRotateRecvSeq = w.keyRotateRecvSeq
  recv : (w'.recvSeq = w.recvSeq ∧ w'.recvInitialized = w.recvInitialized) ∨
    (w'.recvInitialized = true ∧ ∃ id key buf r i, .decodeFrame id key buf r i ∈ ps ∧
      Pending.goesWell C (.decodeFrame id key buf r i) = true ∧ w'.recvSeq = seqOf buf)

theorem moved_write {C : CipherSuite} {p : Pending} {ps : List Pending} (hmem : p ∈ ps)
    (hp : p.goesWell C = true → ∃ id key buf r i, p = .decodeFrame id key buf r i) (w : Worker) :
    Moved C ps w ((handlers C).write w p) := by
  cases hwell : p.goesWell C with
  | false =>
    rw [write_of_not_goesWell hwell]
    exact ⟨rfl, rfl, Or.inl ⟨rfl, rfl⟩⟩
  | true =>
    obtain ⟨id, key, buf, r, i, rfl⟩ := hp hwell
    rw [(goesWell_decodeFrame hwell).2.2]
    exact ⟨rfl, rfl, Or.inr ⟨rfl, id, key, buf, r, i, hmem, hwell, rfl⟩⟩

theorem Moved.trans {C : CipherSuite} {ps : List Pending} {w w' w'' : Worker}
    (h : Moved C ps w w') (h' : Moved C ps w' w'') : Moved C ps w w'' := by
  refine ⟨h'.sessionKey.trans h.sessionKey, h'.keyRotateRecvSeq.trans h.keyRotateRecvSeq, ?_⟩
  rcases h'.recv with ⟨hseq, hinit⟩ | hmoved
  · rw [hseq, hinit]
    exact h.recv
  · exact Or.inr hmoved

/-- With no rotation and no `ENCRYPT` on the way, all that is to come is a `recvSeq`. So whoever
reads the key now reads the one there will be. -/
theorem moved_settled {C : CipherSuite} (l : Handlers.Loop Worker Pending OutMessage)
    (h : ∀ p ∈ writers C l, ∃ id key buf r i, p = .decodeFrame id key buf r i) :
    Moved C (l.waiting.map Prod.fst) l.state ((handlers C).settled l) := by
  refine List.foldlRecOn _ _ (motive := Moved C (l.waiting.map Prod.fst) l.state)
    ⟨rfl, rfl, Or.inl ⟨rfl, rfl⟩⟩ ?_
  intro w hw x hx
  have hmem : x.1 ∈ l.waiting.map Prod.fst := List.mem_map_of_mem hx
  exact hw.trans (moved_write hmem (fun hwell => h x.1 (mem_writers.mpr ⟨⟨x.2, hx⟩, hwell⟩)) w)

theorem isSome_write {C : CipherSuite} {w : Worker} (h : w.sessionKey.isSome = true) (p : Pending) :
    ((handlers C).write w p).sessionKey.isSome = true := by
  cases p with
  | encodeFrame id key seq plaintext =>
    cases hcall : Js.encodeFrame C key seq plaintext <;>
      simpa only [handlers, Worker.resume, hcall] using h
  | decodeFrame id key buf r i =>
    cases hcall : Js.decodeFrame C key buf r i <;>
      simpa only [handlers, Worker.resume, hcall] using h
  | processKeyRotate key frame seq =>
    cases hcall : Js.processKeyRotate C key frame seq with
    | error e => simpa only [handlers, Worker.resume, hcall] using h
    | ok new => simp only [handlers, Worker.resume, hcall, Option.isSome_some]

theorem isSome_settled {C : CipherSuite} {l : Handlers.Loop Worker Pending OutMessage}
    (h : l.state.sessionKey.isSome = true) : ((handlers C).settled l).sessionKey.isSome = true :=
  List.foldlRecOn _ _ (motive := fun w : Worker => w.sessionKey.isSome = true) h
    fun _ hw x _ => isSome_write hw x.1

/-! ## A message -/

/-- `ENCRYPT` is the one message that is not about receiving. -/
def InMessage.receives : InMessage → Bool
  | .encrypt _ _ => false
  | _ => true

section Message

variable {C : CipherSuite} {l : Handlers.Loop Worker Pending OutMessage}

theorem finish_decode {key key' : SessionKey} {buf : Bytes} {r r' : Nat} {i i' : Bool}
    (h : decodeFrame C key buf r i = decodeFrame C key' buf r' i') (w : Worker) (id : String) :
    (handlers C).finish w (.inr (.decodeFrame id key buf r i)) =
      (handlers C).finish w (.inr (.decodeFrame id key' buf r' i')) := by
  simp only [Handlers.finish, handlers, Worker.resume, Pending.reply, h]

theorem finish_rotate {key key' : SessionKey} {frame : Bytes} {seq seq' : Nat}
    (h : processKeyRotate C key frame seq = processKeyRotate C key' frame seq') (w : Worker) :
    (handlers C).finish w (.inr (.processKeyRotate key frame seq)) =
      (handlers C).finish w (.inr (.processKeyRotate key' frame seq')) := by
  simp only [Handlers.finish, handlers, Worker.resume, Pending.reply, h]

theorem Queued.decodes (hq : Queued C l) (hno : ∀ p ∈ writers C l, p.rotating = false) :
    ∀ p ∈ writers C l, ∃ id key buf r i, p = .decodeFrame id key buf r i := by
  intro p hp
  cases p with
  | encodeFrame id key seq plaintext => exact absurd hp (hq.receives id key seq plaintext)
  | decodeFrame id key buf r i => exact ⟨id, key, buf, r, i, rfl⟩
  | processKeyRotate key frame seq => exact absurd (hno _ hp) (by simp [Pending.rotating])

theorem Undisturbed.disturbs {msg : InMessage} (h : Undisturbed C l (.message msg)) {p : Pending}
    (hp : p ∈ writers C l) : p.disturbs msg = false := by
  obtain ⟨⟨n, hn⟩, hwell⟩ := mem_writers.mp hp
  exact h (p, n) hn hwell

/-- A message that a new key would disturb finds no rotation under way. -/
theorem Undisturbed.none_rotating {msg : InMessage} (h : Undisturbed C l (.message msg))
    (hmsg : ∀ key frame seq, Pending.disturbs (.processKeyRotate key frame seq) msg = true) :
    ∀ p ∈ writers C l, p.rotating = false := by
  intro p hp
  have hp := h.disturbs hp
  cases p with
  | processKeyRotate key frame seq =>
    rw [hmsg] at hp
    exact absurd hp (by simp)
  | encodeFrame id key seq plaintext => rfl
  | decodeFrame id key buf r i => rfl

/-- The DATA frames before a DATA frame have lower seqs. So the counter it has read is low enough
for it, whichever of them have ended. -/
theorem Undisturbed.lt {id : String} {c : Bytes} (h : Undisturbed C l (.message (.decrypt id c)))
    (hdata : isData c = true) {id' : String} {key : SessionKey} {buf : Bytes} {r : Nat} {i : Bool}
    (hp : .decodeFrame id' key buf r i ∈ writers C l) : seqOf buf < seqOf c := by
  have hp := h.disturbs hp
  rw [Pending.disturbs, hdata, Bool.true_and, decide_eq_false_iff_not] at hp
  omega

/-- A `DECRYPT` that is not disturbed: what its handler reads now is what it would read behind all
the handlers before it, or differs from that only in a `recvSeq` that decides nothing. -/
theorem read_decrypt (hq : Queued C l) {id : String} {c : Bytes}
    (hcalm : Undisturbed C l (.message (.decrypt id c))) :
    (handlers C).finish ((handlers C).settled l) (l.state.handleDecrypt id c) =
      (handlers C).finish ((handlers C).settled l)
        (((handlers C).settled l).handleDecrypt id c) := by
  obtain ⟨key, hkey⟩ := Option.isSome_iff_exists.mp hq.session
  obtain ⟨key', hkey'⟩ := Option.isSome_iff_exists.mp (isSome_settled (C := C) hq.session)
  simp only [Worker.handleDecrypt, hkey, hkey']
  split
  · rfl
  · apply finish_decode
    cases hdata : isData c with
    | false =>
      obtain ⟨e, he⟩ := decodeFrame_of_not_isData hdata
      rw [he, he]
    | true =>
      have hmoved := moved_settled l (hq.decodes (hcalm.none_rotating fun _ _ _ => hdata))
      have hsame : key' = key := by
        have := hmoved.sessionKey
        rw [hkey, hkey'] at this
        exact Option.some.inj this
      rw [hsame]
      rcases hmoved.recv with ⟨hseq, hinit⟩ | ⟨hinit, id', key'', buf, r, i, hmem, hwell, hseq⟩
      · rw [hseq, hinit]
      · -- both counters are below the frame's seq
        obtain ⟨x, hx, hfst⟩ := List.mem_map.mp hmem
        have hwriter : .decodeFrame id' key'' buf r i ∈ writers C l :=
          mem_writers.mpr ⟨⟨x.2, hfst ▸ hx⟩, hwell⟩
        have hlt := hcalm.lt hdata hwriter
        apply decodeFrame_congr
        · rintro ⟨hon, hle⟩
          have := hq.above hon _ _ _ _ _ hwriter
          omega
        · rintro ⟨-, hle⟩
          omega

/-- A `KEY_ROTATE` that is not disturbed. -/
theorem read_keyRotate (hq : Queued C l) {frame : Bytes}
    (hcalm : Undisturbed C l (.message (.keyRotate frame))) :
    (handlers C).finish ((handlers C).settled l) (l.state.handleKeyRotate frame) =
      (handlers C).finish ((handlers C).settled l)
        (((handlers C).settled l).handleKeyRotate frame) := by
  obtain ⟨key, hkey⟩ := Option.isSome_iff_exists.mp hq.session
  obtain ⟨key', hkey'⟩ := Option.isSome_iff_exists.mp (isSome_settled (C := C) hq.session)
  simp only [Worker.handleKeyRotate, hkey, hkey']
  cases hparse : parseKeyRotateFrame frame with
  | error e =>
    apply finish_rotate
    rw [processKeyRotate_of_error hparse, processKeyRotate_of_error hparse]
  | ok x =>
    have hok : (parseKeyRotateFrame frame).isOk = true := by rw [hparse]; rfl
    have hmoved := moved_settled l (hq.decodes (hcalm.none_rotating fun _ _ _ => hok))
    have hsame := hmoved.sessionKey
    rw [hkey, hkey'] at hsame
    rw [Option.some.inj hsame, hmoved.keyRotateRecvSeq]

theorem writers_snoc (p : Pending) (n a : Nat) :
    writers C { l with arrived := a, waiting := l.waiting ++ [(p, n)] } =
      writers C l ++ if p.goesWell C then [p] else [] := by
  simp only [writers, List.map_append, List.filter_append, List.map_cons, List.map_nil,
    List.filter_singleton, cond_eq_ite]

/-- A handler that suspends goes to the end of the queue, if it will write. -/
theorem Queued.enqueue (hq : Queued C l) {p : Pending} (n a : Nat)
    (hbefore : p.goesWell C = true → ∀ q ∈ writers C l, q.before p)
    (habove : p.goesWell C = true → l.state.recvInitialized = true → ∀ id key buf r i,
      p = .decodeFrame id key buf r i → l.state.recvSeq < seqOf buf)
    (hrecv : ∀ id key seq plaintext, p ≠ .encodeFrame id key seq plaintext) :
    Queued C { l with arrived := a, waiting := l.waiting ++ [(p, n)] } := by
  cases hwell : p.goesWell C with
  | false =>
    have hsame := writers_snoc (C := C) (l := l) p n a
    rw [hwell, if_neg (by simp), List.append_nil] at hsame
    exact ⟨hsame ▸ hq.order, hsame ▸ hq.above, hsame ▸ hq.receives, hq.session⟩
  | true =>
    have hsnoc := writers_snoc (C := C) (l := l) p n a
    rw [hwell, if_pos rfl] at hsnoc
    refine ⟨?_, ?_, ?_, hq.session⟩
    · rw [hsnoc]
      exact (pairwise_snoc _ _).mpr ⟨hq.order, hbefore hwell⟩
    · intro hinit id key buf r i hmem
      rw [hsnoc, List.mem_append, List.mem_singleton] at hmem
      rcases hmem with hmem | heq
      · exact hq.above hinit id key buf r i hmem
      · exact habove hwell hinit id key buf r i heq.symm
    · intro id key seq plaintext hmem
      rw [hsnoc, List.mem_append, List.mem_singleton] at hmem
      rcases hmem with hmem | heq
      · exact hq.receives id key seq plaintext hmem
      · exact hrecv id key seq plaintext heq.symm

theorem Queued.decrypt (hq : Queued C l) {id : String} {c : Bytes}
    (hcalm : Undisturbed C l (.message (.decrypt id c))) (key : SessionKey) (n a : Nat) :
    Queued C { l with arrived := a, waiting := l.waiting ++
      [(.decodeFrame id key c l.state.recvSeq l.state.recvInitialized, n)] } := by
  refine hq.enqueue n a ?_ ?_ (by simp)
  · intro hwell q hmem
    have hdata := (goesWell_decodeFrame hwell).1
    obtain ⟨id', key', buf, r, i, rfl⟩ := hq.decodes (hcalm.none_rotating fun _ _ _ => hdata) q hmem
    exact hcalm.lt hdata hmem
  · rintro hwell hinit id' key' buf r i heq
    have hnot := (goesWell_decodeFrame hwell).2.1
    injection heq with _ _ heq
    rw [← heq]
    by_contra hge
    exact hnot ⟨hinit, by omega⟩

theorem Queued.keyRotate (hq : Queued C l) {frame : Bytes}
    (hcalm : Undisturbed C l (.message (.keyRotate frame))) (key : SessionKey) (n a : Nat) :
    Queued C { l with arrived := a, waiting := l.waiting ++
      [(.processKeyRotate key frame l.state.keyRotateRecvSeq, n)] } := by
  refine hq.enqueue n a ?_ (by simp) (by simp)
  intro hwell q hmem
  obtain ⟨new, hcall⟩ := isOk_eq_true.mp hwell
  cases hparse : parseKeyRotateFrame frame with
  | error e =>
    rw [processKeyRotate_of_error hparse] at hcall
    exact absurd hcall (by simp)
  | ok x =>
    have hok : (parseKeyRotateFrame frame).isOk = true := by rw [hparse]; rfl
    obtain ⟨id', key', buf, r, i, rfl⟩ := hq.decodes (hcalm.none_rotating fun _ _ _ => hok) q hmem
    trivial

/-- **A message** leaves the queue in order: what it has read is what it would read after all that
waits. -/
theorem Queued.message (hq : Queued C l) {msg : InMessage} (hrecv : msg.receives = true)
    (hcalm : Undisturbed C l (.message msg)) : Queued C ((handlers C).step l (.message msg)) := by
  obtain ⟨key, hkey⟩ := Option.isSome_iff_exists.mp hq.session
  cases msg with
  | encrypt id plaintext => exact absurd hrecv (by simp [InMessage.receives])
  | decrypt id c =>
    simp only [Handlers.step, handlers, Worker.start, Worker.handleDecrypt, hkey]
    split
    · exact ⟨hq.order, hq.above, hq.receives, hq.session⟩
    · rename_i p hp
      split at hp
      · exact absurd hp (by simp)
      · rw [← Sum.inr.inj hp]
        exact hq.decrypt hcalm key _ _
  | keyRotate frame =>
    simp only [Handlers.step, handlers, Worker.start, Worker.handleKeyRotate, hkey]
    exact hq.keyRotate hcalm key _ _

theorem read_message (hq : Queued C l) {msg : InMessage} (hrecv : msg.receives = true)
    (hcalm : Undisturbed C l (.message msg)) :
    (handlers C).finish ((handlers C).settled l) ((handlers C).start l.state msg) =
      (handlers C).handle ((handlers C).settled l) msg := by
  cases msg with
  | encrypt id plaintext => exact absurd hrecv (by simp [InMessage.receives])
  | decrypt id c => exact read_decrypt hq hcalm
  | keyRotate frame => exact read_keyRotate hq hcalm

/-! ## A handler that goes on -/

theorem settled_of_undisturbed {i : Nat} (hcalm : Undisturbed C l (.resume i)) :
    (handlers C).settled ((handlers C).step l (.resume i)) = (handlers C).settled l := by
  apply Handlers.settled_resume
  intro x hi
  cases hwell : x.1.goesWell C with
  | false => exact Or.inl (write_of_not_goesWell hwell)
  | true =>
    right
    intro y hy
    exact write_of_not_goesWell (hcalm (by rw [hi]; exact hwell) y hy)

theorem Queued.resume_idle (hq : Queued C l) {i : Nat} {x : Pending × Nat}
    (hi : l.waiting[i]? = some x) (hwell : x.1.goesWell C = false) :
    Queued C ((handlers C).step l (.resume i)) := by
  obtain ⟨l₁, l₂, hsplit, herase⟩ := exists_split_of_getElem? hi
  have hwriters : writers C ((handlers C).step l (.resume i)) = writers C l := by
    rw [Handlers.step_resume hi]
    simp only [writers, herase]
    rw [hsplit, List.map_append, List.map_append, List.map_cons, List.filter_append,
      List.filter_append, List.filter_cons_of_neg (by simp [hwell])]
  have hstate : ((handlers C).step l (.resume i)).state = l.state := by
    rw [Handlers.step_resume hi]
    exact write_of_not_goesWell hwell l.state
  exact ⟨hwriters ▸ hq.order, by rw [hwriters, hstate]; exact hq.above,
    hwriters ▸ hq.receives, by rw [hstate]; exact hq.session⟩

/-- One that will is the first of the queue. -/
theorem writers_resume {i : Nat} {x : Pending × Nat} (hi : l.waiting[i]? = some x)
    (hwell : x.1.goesWell C = true) (hcalm : Undisturbed C l (.resume i)) :
    writers C l = x.1 :: writers C ((handlers C).step l (.resume i)) := by
  have hnone : ((l.waiting.take i).map Prod.fst).filter (Pending.goesWell C) = [] := by
    rw [List.filter_eq_nil_iff]
    intro p hp
    obtain ⟨y, hy, rfl⟩ := List.mem_map.mp hp
    simp [hcalm (by rw [hi]; exact hwell) y hy]
  rw [Handlers.step_resume hi]
  simp only [writers, List.eraseIdx_eq_take_drop_succ, List.map_append, List.filter_append, hnone,
    List.nil_append]
  conv_lhs => rw [eq_take_cons_drop hi]
  rw [List.map_append, List.filter_append, hnone, List.nil_append, List.map_cons,
    List.filter_cons_of_pos hwell]

theorem Queued.resume (hq : Queued C l) {i : Nat} (hcalm : Undisturbed C l (.resume i)) :
    Queued C ((handlers C).step l (.resume i)) := by
  cases hi : l.waiting[i]? with
  | none =>
    simp only [Handlers.step, hi]
    exact hq
  | some x =>
    cases hwell : x.1.goesWell C with
    | false => exact hq.resume_idle hi hwell
    | true =>
      have hwriters := writers_resume hi hwell hcalm
      have horder := hq.order
      rw [hwriters, List.pairwise_cons] at horder
      refine ⟨horder.2, ?_, ?_, ?_⟩
      · intro _ id key buf r i' hmem
        have hbefore := horder.1 _ hmem
        rw [Handlers.step_resume hi]
        cases hx : x.1 with
        | decodeFrame id₀ key₀ buf₀ r₀ i₀ =>
          rw [hx] at hbefore hwell
          rw [(goesWell_decodeFrame hwell).2.2]
          exact hbefore
        -- nothing stands behind a rotation
        | processKeyRotate key frame seq => rw [hx] at hbefore; exact hbefore.elim
        | encodeFrame id key seq plaintext => rw [hx] at hbefore; exact hbefore.elim
      · intro id key seq plaintext hmem
        exact hq.receives id key seq plaintext (hwriters ▸ List.mem_cons_of_mem _ hmem)
      · rw [Handlers.step_resume hi]
        exact isSome_write hq.session x.1

end Message

/-! ## A run -/

theorem tracks_run (C : CipherSuite) {w : Worker} (hinit : w.sessionKey.isSome = true)
    (turns : List (Handlers.Turn InMessage))
    (hrecv : ∀ msg ∈ Handlers.messages turns, msg.receives = true)
    (hcalm : Meets (handlers C).step (Undisturbed C) (Handlers.idle w) turns) :
    (handlers C).Tracks w (Handlers.messages turns) ((handlers C).run w turns) ∧
      Queued C ((handlers C).run w turns) := by
  induction turns using List.reverseRecOn with
  | nil => exact ⟨(handlers C).tracks_idle w, queued_idle C hinit⟩
  | append_singleton turns t ih =>
    obtain ⟨hbegin, ht⟩ := meets_snoc.mp hcalm
    rw [Handlers.run_snoc]
    cases t with
    | message msg =>
      rw [Handlers.messages_message] at hrecv ⊢
      obtain ⟨htracks, hq⟩ := ih (fun m hm => hrecv m (List.mem_append_left _ hm)) hbegin
      have hmsg := hrecv msg (by simp)
      exact ⟨htracks.message (read_message hq hmsg ht), hq.message hmsg ht⟩
    | resume i =>
      rw [Handlers.messages_resume] at hrecv ⊢
      obtain ⟨htracks, hq⟩ := ih hrecv hbegin
      exact ⟨htracks.resume (settled_of_undisturbed ht), hq.resume ht⟩

/-- **An undisturbed loop receives one message after the other.** Whatever `DECRYPT` and
`KEY_ROTATE` messages come to an initialised worker, and however their handlers are interleaved,
every result posted is the one of handling the messages to the end in the order of arrival; and
when no handler is left, each message has its result and the worker is in the state of that run.
So nothing can be told from the outside of the `await`s in between. -/
theorem receive_serialised (C : CipherSuite) {w : Worker} (hinit : w.sessionKey.isSome = true)
    (turns : List (Handlers.Turn InMessage))
    (hrecv : ∀ msg ∈ Handlers.messages turns, msg.receives = true)
    (hcalm : Meets (handlers C).step (Undisturbed C) (Handlers.idle w) turns) :
    (∀ out n, (out, n) ∈ ((handlers C).run w turns).results →
      (sequential C w (Handlers.messages turns)).2[n]? = some out) ∧
    (((handlers C).run w turns).waiting = [] →
      ((handlers C).run w turns).results.Perm
        (sequential C w (Handlers.messages turns)).2.zipIdx ∧
      ((handlers C).run w turns).state = (sequential C w (Handlers.messages turns)).1) := by
  obtain ⟨htracks, -⟩ := tracks_run C hinit turns hrecv hcalm
  rw [← handlers_sequential]
  exact ⟨fun out n hmem => htracks.result hmem, htracks.finished⟩

/-! ## Two runs -/

/-- The frames of a peer that sends two DATA frames, rotates, and sends one more. -/
def sampleFrame (seq : Nat) (p : Bytes) : Bytes :=
  ((encodeFrame Sample.suite ⟨Sample.key, Sample.key⟩ seq p).toOption).getD []

def sampleRotate : Bytes :=
  (sendKeyRotate Sample.suite Sample.channel .accepts (Sample.gcm 1) (Sample.rot 1)).bytes

def rotatedKey : SessionKey :=
  ((processKeyRotate Sample.suite ⟨Sample.key, Sample.key⟩ sampleRotate 0).toOption).getD
    ⟨Sample.key, Sample.key⟩

def rotatedFrame : Bytes := ((encodeFrame Sample.suite rotatedKey 0 [3]).toOption).getD []

/-- Two frames and a rotation in flight together, a replay of the first once it is done, and a
frame under the new key. -/
def undisturbedTurns : List (Handlers.Turn InMessage) :=
  [.message (.decrypt "a" (sampleFrame 0 [1])), .message (.decrypt "b" (sampleFrame 1 [2])),
    .message (.keyRotate sampleRotate), .resume 0, .resume 0, .resume 0,
    .message (.decrypt "c" rotatedFrame), .resume 0,
    .message (.decrypt "d" (sampleFrame 0 [1])), .resume 0]

theorem receive_serialised_undisturbed :
    ((handlers Sample.suite).run (.initialised ⟨Sample.key, Sample.key⟩)
      undisturbedTurns).results.Perm
        (sequential Sample.suite (.initialised ⟨Sample.key, Sample.key⟩)
          (Handlers.messages undisturbedTurns)).2.zipIdx ∧
    ((handlers Sample.suite).run (.initialised ⟨Sample.key, Sample.key⟩) undisturbedTurns).results =
      [(.decrypted "a" [1], 0), (.decrypted "b" [2], 1), (.keyRotated, 2), (.decrypted "c" [3], 3),
        (.cryptoErr "d" (.error "replay detected: received seq=0, expected >0"), 4)] :=
  ⟨((receive_serialised Sample.suite rfl undisturbedTurns (by decide +kernel)
    (by decide +kernel)).2 (by decide +kernel)).1, by decide +kernel⟩

/-- A frame and its replay, the second handled before the first resumes: both are accepted. And a
frame under the new key, handled while the rotation is suspended: it is tried with the old one. -/
theorem overlapping_decrypts_diverge :
    (((handlers Sample.suite).run (.initialised ⟨Sample.key, Sample.key⟩)
        [.message (.decrypt "a" (sampleFrame 0 [1])), .message (.decrypt "b" (sampleFrame 0 [1])),
          .resume 0, .resume 0]).results =
        [(.decrypted "a" [1], 0), (.decrypted "b" [1], 1)] ∧
      (sequential Sample.suite (.initialised ⟨Sample.key, Sample.key⟩)
        [.decrypt "a" (sampleFrame 0 [1]), .decrypt "b" (sampleFrame 0 [1])]).2 =
        [.decrypted "a" [1],
          .cryptoErr "b" (.error "replay detected: received seq=0, expected >0")]) ∧
    (((handlers Sample.suite).run (.initialised ⟨Sample.key, Sample.key⟩)
        [.message (.keyRotate sampleRotate), .message (.decrypt "c" rotatedFrame), .resume 0,
          .resume 0]).results =
        [(.keyRotated, 0), (.cryptoErr "c" .operationError, 1)] ∧
      (sequential Sample.suite (.initialised ⟨Sample.key, Sample.key⟩)
        [.keyRotate sampleRotate, .decrypt "c" rotatedFrame]).2 =
        [.keyRotated, .decrypted "c" [3]]) := by
  decide +kernel

end LatticeShield.Js
