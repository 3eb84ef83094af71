import LatticeShield.Bridge.Admin
import LatticeShield.Lib.Lists
import LatticeShield.Lib.Runs
import LatticeShield.Proof.Delivery
import LatticeShield.Proof.Handshake

/-!
# What the admin sequence number does and does not order

`handle_admin_connection` loads `cmd_seq`, compares, and raises it with `fetch_max`; between the
load and the `fetch_max` of one connection another may do all three. A connection in that window,
whose check will pass or has passed, holds a *pending* seq. The counter says nothing to it any
more.

So the commands are ordered as long as nobody's `fetch_max` overtakes a pending seq that is no
larger than its own (`Unraced`), and then every pending seq is above the counter, which is what the
invariant says. The run at the end is the shortest one in which it happens: two connections, one
seq, and the command is executed twice.
-/

set_option autoImplicit false

namespace LatticeShield.Admin

open Lib

variable {services : Services}

/-- The seq of a connection that has loaded the counter, has not raised it, and will. -/
def Phase.pending : Phase services → Option UInt64
  | .checking frame lastSeenSeq =>
    if isSeqValid frame.seq lastSeenSeq then some frame.seq else none
  | .updating frame => some frame.seq
  | _ => none

/-- The command was dispatched. Only one is, so such a connection creates no token any more. -/
def Phase.finished : Phase services → Bool
  | .responding _ => true
  | .closed => true
  | _ => false

namespace State

/-- A `fetch_max` finds every other connection's pending seq above its own. In `handle_command`
the counter is loaded first and raised later, and between the two another session may do the same:
the condition leaves out the runs in which a session that has loaded an old value is overtaken. -/
def Unraced (s : State services) : Nat × Action → Prop
  | (j, .advance _) => ∀ frame, s.phase j = .updating frame →
      ∀ i, i ≠ j → ∀ seq, (s.phase i).pending = some seq → frame.seq < seq
  | _ => True

/-! ## What a step can do -/

@[simp] theorem goto_phase_self (s : State services) (i : Nat) (p : Phase services) :
    (s.goto i p).phase i = p := Function.update_self ..

theorem goto_phase_of_ne (s : State services) {i j : Nat} (h : j ≠ i) (p : Phase services) :
    (s.goto i p).phase j = s.phase j := Function.update_of_ne h ..

theorem goto_goto (s : State services) (i : Nat) (p q : Phase services) :
    (s.goto i p).goto i q = s.goto i q := by
  simp only [goto, Function.update_idem]

/-- A move of one connection that touches nothing shared: it neither starts nor ends a dispatch,
and if it makes a seq pending, that seq is above the counter or was pending before. -/
structure Quiet (s : State services) (i : Nat) (p : Phase services) : Prop where
  notDispatching : ∀ frame, p ≠ .dispatching frame
  above : ∀ seq, p.pending = some seq → s.shared.cmdSeq < seq ∨ (s.phase i).pending = some seq
  finished : (s.phase i).finished = true → p.finished = true

theorem Quiet.close (s : State services) (i : Nat) : s.Quiet i .closed :=
  ⟨by simp, by simp [Phase.pending], fun _ => rfl⟩

/-! ### Phase by phase -/

theorem Quiet.onAccept {s : State services} {i : Nat} (hp : s.phase i = .absent) (rng : Rng)
    (sent : Bool) : s.Quiet i (onAccept services rng sent) := by
  unfold Admin.onAccept
  dsimp only
  split
  · exact .close s i
  · split
    · exact ⟨by simp, by simp [Phase.pending], by simp [hp, Phase.finished]⟩
    · exact .close s i

theorem Quiet.onResponse {s : State services} {i : Nat}
    {server : ServerHandshake services.H} (hp : s.phase i = .handshake server)
    (bytes : ByteArr clientResponseSignedLen) : s.Quiet i (onResponse services server bytes) := by
  unfold Admin.onResponse
  split
  · exact .close s i
  · exact ⟨by simp, by simp [Phase.pending], by simp [hp, Phase.finished]⟩

theorem Quiet.onFrame {s : State services} {i : Nat} {channel : EncryptedChannel}
    (hp : s.phase i = .reading channel) (bytes : Bytes) :
    s.Quiet i (onFrame services channel bytes) := by
  unfold Admin.onFrame
  split
  · split
    · exact ⟨by simp, by simp [Phase.pending], by simp [hp, Phase.finished]⟩
    · exact .close s i
  · exact .close s i
  · exact .close s i
  · exact .close s i

/-- A load makes a seq pending only if it is above what was loaded. That the stored value may have
moved since is the race. -/
theorem Quiet.load {s : State services} {i : Nat} {frame : CommandFrame}
    (hp : s.phase i = .loading frame) : s.Quiet i (.checking frame s.shared.cmdSeq) := by
  refine ⟨by simp, ?_, by simp [hp, Phase.finished]⟩
  intro seq hseq
  simp only [Phase.pending] at hseq
  split at hseq
  · rename_i hvalid
    rw [← Option.some.inj hseq]
    exact Or.inl (by simpa [isSeqValid] using hvalid)
  · exact absurd hseq (by simp)

theorem Quiet.check {s : State services} {i : Nat} {frame : CommandFrame} {lastSeenSeq : UInt64}
    (hp : s.phase i = .checking frame lastSeenSeq) (hvalid : isSeqValid frame.seq lastSeenSeq) :
    s.Quiet i (.updating frame) := by
  refine ⟨by simp, ?_, by simp [hp, Phase.finished]⟩
  intro seq hseq
  refine Or.inr ?_
  rw [hp, Phase.pending, if_pos hvalid]
  exact hseq

theorem answered_fields (services : Services) (response : Option AdminResponse) :
    let p : Phase services := response.elim .closed .responding
    p.finished = true ∧ p.pending = none := by
  cases response with
  | none => exact ⟨rfl, rfl⟩
  | some response => exact ⟨rfl, rfl⟩

/-- No command moves the counter, so from the `fetch_max` on a dispatch may come as late as it
likes. -/
theorem dispatch_cmdSeq (services : Services) (shared : Shared) (env : Env) (cmd : AdminCommand) :
    (dispatch services shared env cmd).2.cmdSeq = shared.cmdSeq := by
  cases cmd <;> rfl

/-- **What one step does**: nothing, a quiet move, a `fetch_max`, or a dispatch. Only the last two
touch what the connections share, so the invariant is proved once for quiet moves (`Inv.quiet`)
and once for each of these. -/
theorem step_cases (s : State services) (i : Nat) (a : Action) :
    s.step (i, a) = s ∨
    (∃ p, s.step (i, a) = s.goto i p ∧ s.Quiet i p) ∨
    (∃ frame env, a = .advance env ∧ s.phase i = .updating frame ∧
      s.step (i, a) = { s.goto i (.dispatching frame) with
        shared := { s.shared with
          cmdSeq := if s.shared.cmdSeq < frame.seq then frame.seq else s.shared.cmdSeq }
        fetched := s.fetched ++ [(i, frame.seq)] }) ∨
    (∃ frame p shared, s.phase i = .dispatching frame ∧ p.finished = true ∧ p.pending = none ∧
      shared.cmdSeq = s.shared.cmdSeq ∧
      s.step (i, a) = { s.goto i p with
        shared := shared
        dispatched := s.dispatched ++ [(i, frame.seq)] }) := by
  -- an action that does not fit the connection's phase leaves the state as it is
  cases a with
  | accept rng sent =>
    cases hp : s.phase i with
    | absent => exact Or.inr (Or.inl ⟨_, by simp only [step, hp], .onAccept hp rng sent⟩)
    | _ => exact Or.inl (by simp only [step, hp])
  | response bytes =>
    cases hp : s.phase i with
    | handshake server => exact Or.inr (Or.inl ⟨_, by simp only [step, hp], .onResponse hp bytes⟩)
    | _ => exact Or.inl (by simp only [step, hp])
  | frame bytes =>
    cases hp : s.phase i with
    | reading channel => exact Or.inr (Or.inl ⟨_, by simp only [step, hp], .onFrame hp bytes⟩)
    | _ => exact Or.inl (by simp only [step, hp])
  | giveUp =>
    cases hp : s.phase i with
    | handshake server => exact Or.inr (Or.inl ⟨.closed, by simp only [step, hp], .close s i⟩)
    | reading channel => exact Or.inr (Or.inl ⟨.closed, by simp only [step, hp], .close s i⟩)
    | responding response => exact Or.inr (Or.inl ⟨.closed, by simp only [step, hp], .close s i⟩)
    | _ => exact Or.inl (by simp only [step, hp])
  | advance env =>
    cases hp : s.phase i with
    | loading frame => exact Or.inr (Or.inl ⟨_, by simp only [step, advance, hp], .load hp⟩)
    | checking frame lastSeenSeq =>
      by_cases hvalid : isSeqValid frame.seq lastSeenSeq = true
      · exact Or.inr (Or.inl
          ⟨_, by simp only [step, advance, hp, hvalid, if_true], .check hp hvalid⟩)
      · exact Or.inr (Or.inl ⟨_, by simp only [step, advance, hp, if_neg hvalid], .close s i⟩)
    | updating frame =>
      exact Or.inr (Or.inr (Or.inl ⟨frame, env, rfl, rfl, by simp only [step, advance, hp]⟩))
    -- `dispatch_command` may change the settings it shares, never the sequence number
    | dispatching frame =>
      obtain ⟨hfinished, hpending⟩ := answered_fields services
        (dispatch services s.shared env frame.cmd).1
      exact Or.inr (Or.inr (Or.inr ⟨frame, _, _, rfl, hfinished, hpending,
        dispatch_cmdSeq services s.shared env frame.cmd, by simp only [step, advance, hp]⟩))
    | responding response =>
      exact Or.inr (Or.inl ⟨.closed, by simp only [step, advance, hp], .close s i⟩)
    | _ => exact Or.inl (by simp only [step, advance, hp])

theorem step_phase_of_ne (s : State services) {i j : Nat} (h : j ≠ i) (a : Action) :
    (s.step (i, a)).phase j = s.phase j := by
  rcases step_cases s i a with heq | ⟨p, heq, -⟩ | ⟨frame, env, -, -, heq⟩ |
    ⟨frame, p, shared, -, -, -, -, heq⟩
  · rw [heq]
  · rw [heq]
    exact goto_phase_of_ne s h p
  · rw [heq]
    exact goto_phase_of_ne s h _
  · rw [heq]
    exact goto_phase_of_ne s h p

/-- Nobody races a connection that is alone. This is how the witness gets a run that meets the
condition. -/
theorem meets_alone {s : State services} {i : Nat}
    (h : ∀ j, j ≠ i → (s.phase j).pending = none) (actions : List Action) :
    Meets step Unraced s (actions.map (i, ·)) := by
  induction actions generalizing s with
  | nil => trivial
  | cons a actions ih =>
    refine ⟨?_, ih fun j hj => by rw [step_phase_of_ne s hj]; exact h j hj⟩
    cases a with
    | advance env =>
      intro frame _ j hj seq hseq
      rw [h j hj] at hseq
      exact absurd hseq (by simp)
    | _ => trivial

/-! ## The invariant -/

structure Inv (s : State services) : Prop where
  above : ∀ i seq, (s.phase i).pending = some seq → s.shared.cmdSeq < seq
  bounded : ∀ p ∈ s.fetched, p.2 ≤ s.shared.cmdSeq
  increasing : (s.fetched.map Prod.snd).Pairwise (· < ·)
  dispatching : ∀ i frame, s.phase i = .dispatching frame → (i, frame.seq) ∈ s.fetched
  subset : ∀ p ∈ s.dispatched, p ∈ s.fetched
  nodup : (s.dispatched.map Prod.fst).Nodup
  finished : ∀ p ∈ s.dispatched, (s.phase p.1).finished = true

theorem Inv.new (vkStore : VkShare.VkShareStore) : Inv (State.new vkStore : State services) := by
  constructor <;> simp [State.new, Phase.pending]

theorem Inv.quiet {s : State services} (h : Inv s) {i : Nat} {p : Phase services}
    (hq : s.Quiet i p) : Inv (s.goto i p) := by
  refine ⟨?_, h.bounded, h.increasing, ?_, h.subset, h.nodup, ?_⟩
  · intro j seq hj
    by_cases hji : j = i
    · subst hji
      rw [goto_phase_self] at hj
      rcases hq.above seq hj with habove | hbefore
      · exact habove
      · exact h.above j seq hbefore
    · rw [goto_phase_of_ne s hji] at hj
      exact h.above j seq hj
  · intro j frame hj
    by_cases hji : j = i
    · subst hji
      rw [goto_phase_self] at hj
      exact absurd hj (hq.notDispatching frame)
    · rw [goto_phase_of_ne s hji] at hj
      exact h.dispatching j frame hj
  · intro d hd
    by_cases hdi : d.1 = i
    · rw [hdi, goto_phase_self]
      exact hq.finished (hdi ▸ h.finished d hd)
    · rw [goto_phase_of_ne s hdi]
      exact h.finished d hd

/-- A `fetch_max` that overtakes nobody. The hypothesis is the condition on the state before the
step, read for this one connection. -/
theorem Inv.fetchMax {s : State services} (h : Inv s) {i : Nat} {frame : CommandFrame}
    (hp : s.phase i = .updating frame)
    (hrace : ∀ j, j ≠ i → ∀ seq, (s.phase j).pending = some seq → frame.seq < seq) :
    Inv { s.goto i (.dispatching frame) with
      shared := { s.shared with
        cmdSeq := if s.shared.cmdSeq < frame.seq then frame.seq else s.shared.cmdSeq }
      fetched := s.fetched ++ [(i, frame.seq)] } := by
  have hlt : s.shared.cmdSeq < frame.seq := h.above i frame.seq (by rw [hp]; rfl)
  -- a pending number is above the stored one, so the maximum is the frame's
  rw [if_pos hlt]
  refine ⟨?_, ?_, ?_, ?_, ?_, h.nodup, ?_⟩
  -- the others' pending numbers stay above the maximum: this is what the absence of a race gives
  · intro j seq hj
    by_cases hji : j = i
    · subst hji
      exact absurd hj (by simp [Phase.pending])
    · rw [show (s.goto i (.dispatching frame)).phase j = s.phase j from
        goto_phase_of_ne s hji _] at hj
      exact hrace j hji seq hj
  · refine forall_mem_snoc.mpr ⟨?_, UInt64.le_refl _⟩
    intro d hd
    exact UInt64.le_trans (h.bounded d hd) (UInt64.le_of_lt hlt)
  · show ((s.fetched ++ [(i, frame.seq)]).map Prod.snd).Pairwise _
    rw [List.map_append, List.map_singleton, pairwise_snoc]
    refine ⟨h.increasing, ?_⟩
    intro x hx
    obtain ⟨d, hd, rfl⟩ := List.mem_map.mp hx
    exact UInt64.lt_of_le_of_lt (h.bounded d hd) hlt
  · intro j f hj
    by_cases hji : j = i
    · subst hji
      rw [show (s.goto j (.dispatching frame)).phase j = .dispatching frame from
        goto_phase_self s j _] at hj
      obtain rfl := Phase.dispatching.inj hj
      exact List.mem_append_right _ (List.mem_singleton_self _)
    · rw [show (s.goto i (.dispatching frame)).phase j = s.phase j from
        goto_phase_of_ne s hji _] at hj
      exact List.mem_append_left _ (h.dispatching j f hj)
  · intro d hd
    exact List.mem_append_left _ (h.subset d hd)
  · intro d hd
    -- this connection has not dispatched yet
    have hdi : d.1 ≠ i := by
      intro hdi
      have := h.finished d hd
      rw [hdi, hp] at this
      exact absurd this (by simp [Phase.finished])
    show ((s.goto i (.dispatching frame)).phase d.1).finished = true
    rw [goto_phase_of_ne s hdi]
    exact h.finished d hd

theorem Inv.dispatch {s : State services} (h : Inv s) {i : Nat} {frame : CommandFrame}
    (hp : s.phase i = .dispatching frame) {p : Phase services} (hfin : p.finished = true)
    (hpend : p.pending = none) {shared : Shared} (hseq : shared.cmdSeq = s.shared.cmdSeq) :
    Inv { s.goto i p with shared := shared, dispatched := s.dispatched ++ [(i, frame.seq)] } := by
  -- the sequence number is untouched, so only the clauses about phases and the log need work
  refine ⟨?_, ?_, h.increasing, ?_, ?_, ?_, ?_⟩
  · intro j seq hj
    show shared.cmdSeq < seq
    rw [hseq]
    by_cases hji : j = i
    · subst hji
      rw [show (s.goto j p).phase j = p from goto_phase_self s j p, hpend] at hj
      exact absurd hj (by simp)
    · rw [show (s.goto i p).phase j = s.phase j from goto_phase_of_ne s hji p] at hj
      exact h.above j seq hj
  · intro d hd
    show d.2 ≤ shared.cmdSeq
    rw [hseq]
    exact h.bounded d hd
  · intro j f hj
    by_cases hji : j = i
    · subst hji
      rw [show (s.goto j p).phase j = p from goto_phase_self s j p] at hj
      rw [hj] at hfin
      exact absurd hfin (by simp [Phase.finished])
    · rw [show (s.goto i p).phase j = s.phase j from goto_phase_of_ne s hji p] at hj
      exact h.dispatching j f hj
  · exact forall_mem_snoc.mpr ⟨h.subset, h.dispatching i frame hp⟩
  · -- a connection that has dispatched is finished, and this one is not yet
    show ((s.dispatched ++ [(i, frame.seq)]).map Prod.fst).Nodup
    rw [List.map_append, List.map_singleton, nodup_snoc]
    refine ⟨h.nodup, ?_⟩
    intro hmem
    obtain ⟨d, hd, hdi⟩ := List.mem_map.mp hmem
    have := h.finished d hd
    rw [hdi, hp] at this
    exact absurd this (by simp [Phase.finished])
  · intro d hd
    show ((s.goto i p).phase d.1).finished = true
    by_cases hdi : d.1 = i
    · rw [hdi, goto_phase_self]
      exact hfin
    · rw [goto_phase_of_ne s hdi]
      rcases List.mem_append.mp hd with hd | hd
      · exact h.finished d hd
      · exact absurd (congrArg Prod.fst (List.mem_singleton.mp hd)) hdi

theorem Inv.step {s : State services} (h : Inv s) (ia : Nat × Action) (hok : s.Unraced ia) :
    Inv (s.step ia) := by
  obtain ⟨i, a⟩ := ia
  rcases step_cases s i a with heq | ⟨p, heq, hq⟩ | ⟨frame, env, rfl, hp, heq⟩ |
    ⟨frame, p, shared, hp, hfin, hpend, hseq, heq⟩
  · rw [heq]
    exact h
  · rw [heq]
    exact h.quiet hq
  · rw [heq]
    exact h.fetchMax hp (hok frame hp)
  · rw [heq]
    exact h.dispatch hp hfin hpend hseq

/-- A connection dispatches once, and what it dispatched it had fetched: two dispatches of one seq
would be two fetches of it. -/
theorem Inv.nodup_seqs {s : State services} (h : Inv s) : (s.dispatched.map Prod.snd).Nodup := by
  have hfetched : (s.fetched.map Prod.snd).Nodup := h.increasing.imp fun hlt => UInt64.ne_of_lt hlt
  refine List.Nodup.map_on ?_ (List.Nodup.of_map _ h.nodup)
  intro p hp q hq heq
  exact List.inj_on_of_nodup_map hfetched (h.subset p hp) (h.subset q hq) heq

/-- **In a run without a race, commands are linearised by their sequence numbers**: each is
dispatched at most once, and in the order of their `fetch_max` steps they increase strictly.
Whatever the number of connections and however their steps are interleaved, the one thing asked is
that no `fetch_max` comes between another connection's load and its own. -/
theorem seqs_linearised (vkStore : VkShare.VkShareStore) (steps : List (Nat × Action))
    (h : Meets step Unraced (new vkStore : State services) steps) :
    ((run vkStore steps : State services).dispatched.map Prod.snd).Nodup ∧
    (((run vkStore steps : State services).fetched.filter
      (· ∈ (run vkStore steps : State services).dispatched)).map Prod.snd).Pairwise (· < ·) := by
  have hinv : Inv (run vkStore steps : State services) :=
    h.invariant (fun s ia hs hok => hs.step ia hok) (Inv.new vkStore)
  exact ⟨hinv.nodup_seqs, hinv.increasing.sublist (List.filter_sublist.map _)⟩

/-! ## Runs of the sample control plane -/

/-- What the control plane sends as its first command. -/
def rotateCommand : Bytes := "\x7b\"seq\":1,\"cmd\":\"Rotate\"\x7d".toUTF8.toList

def sampleServices : Services where
  H := Sample.allSigned
  C := Sample.suite
  parseCommand bytes := if bytes = rotateCommand then some ⟨1, .rotate⟩ else none
  signingKey := Sample.serverKeys.1
  verifyingKey := Sample.serverKeys.2
  cpVk := Sample.clientKeys.2
  tlsBaseUrl := "https://127.0.0.1:8440"
  vkEnv := ⟨fun _ => Sample.rot 0, 2 ^ 63, 1000⟩

/-- The control plane opens connection `i` and sends its command on it, whatever the others have
done before. -/
theorem exists_command (i : Nat) (s : State sampleServices) (habsent : s.phase i = .absent) :
    ∃ actions : List Action,
      (actions.map (i, ·)).foldl step s = s.goto i (.loading ⟨1, .rotate⟩) := by
  obtain ⟨_, _, hhello⟩ := Sample.serverHelloSignedBytes_succeeds (fun _ _ => true)
    (ServerHandshake.new (Sample.rng 3)).1 Sample.serverKeys.1 rfl
    (ServerHandshake.new (H := Sample.allSigned) (Sample.rng 3)).2
  obtain ⟨signed, key, hcomplete⟩ := Sample.exists_response (Sample.rng 3)
  obtain ⟨bytes, -, hdelivers⟩ := writeFrame_delivers (C := Sample.suite)
    (R := .new key (64 * 1024)) (.new key (64 * 1024)) (p := rotateCommand)
    (by simp only [EncryptedChannel.new]; decide)
    (by simp only [EncryptedChannel.new]; decide +kernel)
    rfl (by simp [EncryptedChannel.new])
  obtain ⟨channel, hread, -⟩ := hdelivers.run
  have haccept : onAccept sampleServices (Sample.rng 3) true =
      .handshake (ServerHandshake.new (Sample.rng 3)).1 := by
    simp only [onAccept, sampleServices, hhello, if_true]
  have hresponse : onResponse sampleServices (ServerHandshake.new (Sample.rng 3)).1 signed =
      .reading (.new key (64 * 1024)) := by
    simp only [onResponse, sampleServices, hcomplete]
  have hframe : onFrame sampleServices (.new key (64 * 1024)) bytes = .loading ⟨1, .rotate⟩ := by
    simp only [onFrame, sampleServices, hread, if_true]
  refine ⟨[.accept (Sample.rng 3) true, .response signed, .frame bytes], ?_⟩
  simp only [List.map_cons, List.map_nil, List.foldl_cons, List.foldl_nil, step, habsent,
    goto_phase_self, haccept, hresponse, hframe, goto_goto]

/-- What every step of the sample runs finds outside. -/
def sampleEnv : Env := ⟨0, "", "", 0⟩

/-- The first connection dispatches its command; the second one sends the same and is refused. -/
theorem seqs_linearised_one_after_the_other :
    ∃ steps, Meets step Unraced (new ∅ : State sampleServices) steps ∧
      (run ∅ steps : State sampleServices).dispatched = [(0, 1)] ∧
      ((run ∅ steps : State sampleServices).dispatched.map Prod.snd).Nodup := by
  obtain ⟨first, hfirst⟩ := exists_command 0 (new ∅) rfl
  let advances (n : Nat) : List Action := List.replicate n (.advance sampleEnv)
  let served : State sampleServices :=
    ((advances 4).map (0, ·)).foldl step ((new ∅).goto 0 (.loading ⟨1, .rotate⟩))
  obtain ⟨second, hsecond⟩ := exists_command 1 served rfl
  have hserved : ((first ++ advances 4).map (0, ·)).foldl step (new ∅) = served := by
    rw [List.map_append, List.foldl_append, hfirst]
  have hquiet : ∀ j, j ≠ 1 → (served.phase j).pending = none := by
    intro j _
    by_cases hj : j = 0
    · subst hj
      rfl
    · simp only [served, advances, List.replicate, List.map_cons, List.map_nil, List.foldl_cons,
        List.foldl_nil, step_phase_of_ne _ hj, goto_phase_of_ne _ hj]
      rfl
  have hmeets : Meets step Unraced (new ∅ : State sampleServices)
      ((first ++ advances 4).map (0, ·) ++ (second ++ advances 2).map (1, ·)) := by
    refine meets_append.mpr ⟨meets_alone (fun _ _ => rfl) _, ?_⟩
    rw [hserved]
    exact meets_alone hquiet _
  refine ⟨_, hmeets, ?_, (seqs_linearised ∅ _ hmeets).1⟩
  rw [run, List.foldl_append, hserved, List.map_append, List.foldl_append, hsecond]
  rfl

/-- **Two connections, one seq, two dispatches**: both load the counter before either has raised
it, so both checks pass. The two operations are atomic each, and not together. -/
theorem seqs_raced :
    ∃ steps, (run ∅ steps : State sampleServices).dispatched = [(0, 1), (1, 1)] ∧
      ¬ ((run ∅ steps : State sampleServices).dispatched.map Prod.snd).Nodup ∧
      ¬ (((run ∅ steps : State sampleServices).fetched.filter
        (· ∈ (run ∅ steps : State sampleServices).dispatched)).map Prod.snd).Pairwise (· < ·) := by
  obtain ⟨first, hfirst⟩ := exists_command 0 (new ∅) rfl
  obtain ⟨second, hsecond⟩ := exists_command 1 ((new ∅).goto 0 (.loading ⟨1, .rotate⟩)) rfl
  let advances : List (Nat × Action) :=
    [0, 1, 0, 1, 0, 1, 0, 1].map fun i => (i, .advance sampleEnv)
  have hrun : run ∅ (first.map (0, ·) ++ second.map (1, ·) ++ advances) =
      advances.foldl step
        (((new ∅ : State sampleServices).goto 0 (.loading ⟨1, .rotate⟩)).goto 1
          (.loading ⟨1, .rotate⟩)) := by
    rw [run, List.foldl_append, List.foldl_append, hfirst, hsecond]
  have hdispatched : (run ∅ (first.map (0, ·) ++ second.map (1, ·) ++ advances) :
      State sampleServices).dispatched = [(0, 1), (1, 1)] := by
    rw [hrun]
    rfl
  have hfetched : (run ∅ (first.map (0, ·) ++ second.map (1, ·) ++ advances) :
      State sampleServices).fetched = [(0, 1), (1, 1)] := by
    rw [hrun]
    rfl
  refine ⟨_, hdispatched, ?_, ?_⟩
  · rw [hdispatched]
    decide
  · rw [hdispatched, hfetched]
    decide

end State

end LatticeShield.Admin
