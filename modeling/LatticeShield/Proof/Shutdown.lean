import LatticeShield.Bridge.Shutdown
import LatticeShield.Proof.Admission

/-!
# How long the bridge takes to stop, and whom it cuts off

The configuration calls `shutdown_timeout` the time after which sessions still active are forced.
The time is of each wait and not of all of them: the bridge takes it once for every task that has
not ended when the signal is seen, and exactly that long if none of them ends
(`shutdown_drains`). In return a session is only cut off when it had all of the time from the signal
on, wherever in the queue it stands.

How many sessions there are to wait for is bounded by the admission of the listener: the handles
are those of the connections that were let in, and of one address no more than the limit are live.
-/

set_option autoImplicit false

namespace LatticeShield.Bridge

open Lib

def TaskEvent.ending : TaskEvent → Bool
  | .finish _ _ => true
  | .returned _ => true
  | _ => false

def MainEvent.ending : MainEvent → Bool
  | .task event => event.ending
  | _ => false

def ticks (events : List MainEvent) : Nat := events.count (.task .tick)

/-! ## The tasks of the listener -/

/-- A task that runs for the first time has not ended, and does not end with that. -/
theorem Gate.ended_poll (gate : Gate) (listener : CappedListener) (maxPerIp i j : Nat) :
    (gate.step listener maxPerIp (.poll i)).tasks[j]? = some .ended ↔
      gate.tasks[j]? = some .ended := by
  simp only [Gate.step]
  split
  · next ip htask =>
    by_cases hij : i = j
    · subst hij
      obtain ⟨hi, -⟩ := List.getElem?_eq_some_iff.mp htask
      rw [List.getElem?_set_self hi, htask]
      simp
    · rw [List.getElem?_set_ne hij]
  · exact Iff.rfl

theorem Gate.ended_finish (gate : Gate) (listener : CappedListener) (maxPerIp i j : Nat)
    (how : Ending) (h : gate.tasks[j]? = some .ended) :
    (gate.step listener maxPerIp (.finish i how)).tasks[j]? = some .ended := by
  simp only [Gate.step]
  split
  · next ip htask =>
    have hij : i ≠ j := by
      rintro rfl
      rw [h] at htask
      cases htask
    rw [List.getElem?_set_ne hij]
    exact h
  · exact h

namespace Main

variable {config : RunConfig} {m : Main}

/-! ## The other tasks -/

theorem move_length (m : Main) (e : TaskEvent) :
    (m.move config e).gate.tasks.length = m.gate.tasks.length := by
  cases e with
  | poll i =>
    simp only [move, Gate.step]
    split
    · exact List.length_set
    · rfl
  | finish i how =>
    simp only [move, Gate.step]
    split
    · exact List.length_set
    · rfl
  | returned s => rfl
  | tick => rfl

theorem move_now (m : Main) (e : TaskEvent) :
    (m.move config e).now = m.now + if e = .tick then 1 else 0 := by
  cases e <;> rfl

theorem move_rest (m : Main) (e : TaskEvent) :
    (m.move config e).sessionHandles = m.sessionHandles ∧ (m.move config e).phase = m.phase := by
  cases e <;> exact ⟨rfl, rfl⟩

theorem finished_poll (m : Main) (i : Nat) : (m.move config (.poll i)).finished = m.finished := by
  funext h
  cases h with
  | session j =>
    exact decide_eq_decide.mpr (m.gate.ended_poll .pqc (config.maxPerIp .pqc) i j)
  | service s => rfl

variable (config) in
theorem finished_mono (m : Main) (e : TaskEvent) (h : Handle) (hh : m.finished h = true) :
    (m.move config e).finished h = true := by
  cases e with
  | poll i => rwa [finished_poll]
  | finish i how =>
    cases h with
    | session j =>
      exact decide_eq_true
        (m.gate.ended_finish .pqc (config.maxPerIp .pqc) i j how (of_decide_eq_true hh))
    | service s => exact hh
  | returned s =>
    cases h with
    | session j => exact hh
    | service s' =>
      show Function.update m.returned s true s' = true
      by_cases hs : s' = s
      · rw [hs, Function.update_self]
      · rw [Function.update_of_ne hs]
        exact hh
  | tick => exact hh

theorem finished_quiet (m : Main) {e : TaskEvent} (h : e.ending = false) :
    (m.move config e).finished = m.finished := by
  cases e with
  | poll i => exact finished_poll m i
  | finish i how => cases h
  | returned s => cases h
  | tick => rfl

/-! ## Before the signal -/

/-- Every connection that was let in has its handle, and the gate is right. It holds until the
signal comes. -/
structure Listening (config : RunConfig) (m : Main) : Prop where
  gate : m.gate.Inv (config.maxPerIp .pqc)
  handles : m.sessionHandles = (List.range m.gate.tasks.length).map .session

theorem Listening.accept (h : m.Listening config) (hmax : 0 < config.maxPerIp .pqc) (ip : IpAddr) :
    (m.accept config ip).Listening config := by
  refine ⟨h.gate.attempt hmax ip, ?_⟩
  unfold Main.accept
  simp only [Gate.step]
  cases hcheck : checkLimit (config.maxPerIp .pqc) ip m.gate.map with
  | mk admitted map =>
    cases admitted with
    | true =>
      simp only [if_true, List.length_append, List.length_singleton, List.range_succ,
        List.map_append, List.map_singleton, h.handles]
    | false => exact h.handles

theorem Listening.move (h : m.Listening config) (hmax : 0 < config.maxPerIp .pqc) (e : TaskEvent) :
    (m.move config e).Listening config := by
  refine ⟨?_, ?_⟩
  · cases e with
    | poll i => exact @Gate.Inv.step .pqc _ _ h.gate hmax (.poll i)
    | finish i how => exact @Gate.Inv.step .pqc _ _ h.gate hmax (.finish i how)
    | returned s => exact h.gate
    | tick => exact h.gate
  · rw [(move_rest m e).1, move_length]
    exact h.handles

theorem Listening.step (h : m.Listening config) (hmax : 0 < config.maxPerIp .pqc) (e : MainEvent) :
    (m.step config e).Listening config := by
  unfold Main.step
  split
  · exact h
  · exact h.accept hmax _
  · exact h.move hmax _
  · exact ⟨h.gate, h.handles⟩
  · next drain event _ =>
    have hmove := h.move hmax event
    exact ⟨hmove.gate, hmove.handles⟩
  · exact h
  · exact h

theorem listening_run (hmax : 0 < config.maxPerIp .pqc) (events : List MainEvent) :
    (run config events).Listening config := by
  induction events using List.reverseRecOn with
  | nil => exact ⟨Gate.inv_init _, rfl⟩
  | append_singleton events e ih =>
    rw [run, List.foldl_append]
    exact ih.step hmax e

/-! ## After the signal -/

theorem drainPhase_of_waits {timeout since now : Nat} {done : Handle → Bool} {d : Drain Handle}
    (h : d.Waits timeout done since now) : drainPhase d = .draining d := by
  obtain ⟨k, ks, hqueue, -⟩ := h.first
  unfold drainPhase
  rw [hqueue]

theorem drainPhase_of_nil {d : Drain Handle} (h : d.queue = []) : drainPhase d = .complete := by
  unfold drainPhase
  rw [h]

/-- The signal was seen at `since`, and `run` returns at `limit` at the latest. What is kept is an
equation about the deadlines that are left; by it no tick can take `run` past the limit. -/
structure Drains (config : RunConfig) (since limit : Nat) (handles : List Handle) (m : Main) :
    Prop where
  phase : (∃ d, m.phase = .draining d ∧ d.Waits config.drainTimeout m.finished since m.now ∧
      d.ends config.drainTimeout m.finished ≤ limit) ∨ m.phase = .complete ∧ m.now ≤ limit
  since_le : since ≤ m.now
  /-- A task that is not waited for any more has ended, or has had its time. -/
  left : ∀ h ∈ handles, (∃ d, m.phase = .draining d ∧ h ∈ d.queue) ∨ m.finished h = true ∨
    since + config.drainTimeout ≤ m.now

/-- `run` returns at `limit`, if no other task ends. Each of the tasks then takes its whole time,
and they take it one after the other. -/
structure Full (config : RunConfig) (limit : Nat) (m : Main) : Prop where
  draining : ∀ d, m.phase = .draining d → d.ends config.drainTimeout m.finished = limit
  complete : m.phase = .complete → m.now = limit

theorem start_drains (hphase : m.phase = .accepting) (handles : List Handle)
    (hhandles : m.handles config = handles) :
    let limit := m.now + config.drainTimeout * Drain.pending m.finished handles
    (m.step config .shutdown).Drains config m.now limit handles ∧
      (m.step config .shutdown).Full config limit := by
  intro limit
  have hstep : m.step config .shutdown = { m with
      phase := drainPhase (.start config.drainTimeout m.finished m.now handles) } := by
    unfold step
    rw [hphase, hhandles]
  have hleft : ∀ h ∈ handles, h ∈ (Drain.start config.drainTimeout m.finished m.now handles).queue ∨
      m.finished h = true ∨ m.now + config.drainTimeout ≤ m.now := by
    intro h hh
    rcases Drain.mem_start config.drainTimeout m.finished m.now hh with hin | hdone | hzero
    · exact Or.inl hin
    · exact Or.inr (Or.inl hdone)
    · exact Or.inr (Or.inr (by omega))
  rw [hstep]
  -- the handles may all be done already: then the drain is over before it waits at all
  rcases Drain.start_waits (Nat.le_refl m.now) handles with ⟨hempty, hzero⟩ | ⟨hwaits, hends⟩
  · rw [drainPhase_of_nil hempty]
    refine ⟨⟨Or.inr ⟨rfl, Nat.le_add_right ..⟩, le_rfl, ?_⟩, ⟨nofun, fun _ => ?_⟩⟩
    · intro h hh
      rcases hleft h hh with hin | hrest
      · rw [hempty] at hin
        exact absurd hin List.not_mem_nil
      · exact Or.inr hrest
    · show m.now = m.now + _
      rw [hzero]
      rfl
  · rw [drainPhase_of_waits hwaits]
    refine ⟨⟨Or.inl ⟨_, rfl, hwaits, hends.le⟩, le_rfl, ?_⟩, ⟨?_, nofun⟩⟩
    · intro h hh
      rcases hleft h hh with hin | hrest
      · exact Or.inl ⟨_, rfl, hin⟩
      · exact Or.inr hrest
    · intro d hd
      cases hd
      exact hends

variable {since limit : Nat} {handles : List Handle}

/-- What another task does while the main task waits. -/
theorem step_draining {d : Drain Handle} (hphase : m.phase = .draining d) (e : TaskEvent) :
    m.step config (.task e) = { m.move config e with
      phase := drainPhase (d.wake config.drainTimeout (m.move config e).finished
        (m.move config e).now) } := by
  unfold step
  rw [hphase]

theorem step_complete (hphase : m.phase = .complete) (e : MainEvent) : m.step config e = m := by
  unfold step
  rw [hphase]

theorem step_draining_of_not_task {d : Drain Handle} (hphase : m.phase = .draining d)
    {e : MainEvent} (h : ∀ event, e ≠ .task event) : m.step config e = m := by
  unfold step
  rw [hphase]
  cases e with
  | accept peer => rfl
  | task event => exact absurd rfl (h event)
  | shutdown => rfl

variable (config) in
theorem move_le_now (m : Main) (e : TaskEvent) :
    m.now ≤ (m.move config e).now ∧ (m.move config e).now ≤ m.now + 1 := by
  rw [move_now]
  split
  · exact ⟨Nat.le_add_right .., le_rfl⟩
  · exact ⟨le_rfl, Nat.le_add_right ..⟩

theorem Drains.step (h : m.Drains config since limit handles) (e : MainEvent) :
    (m.step config e).Drains config since limit handles := by
  rcases h.phase with ⟨d, hphase, hwaits, hends⟩ | ⟨hphase, -⟩
  -- once the signal is there, the loop no longer accepts: only the tasks' events move the state
  · by_cases htask : ∃ event, e = .task event
    · obtain ⟨event, rfl⟩ := htask
      obtain ⟨hnow, htick⟩ := move_le_now config m event
      have hdone := finished_mono config m event
      -- a handle leaves the queue because its task has finished or because its timeout is over
      have hleft : ∀ k ∈ handles,
          k ∈ (d.wake config.drainTimeout (m.move config event).finished
            (m.move config event).now).queue ∨ (m.move config event).finished k = true ∨
          since + config.drainTimeout ≤ (m.move config event).now := by
        intro k hk
        rcases h.left k hk with ⟨d', hphase', hin⟩ | hfinished | hlong
        · cases hphase.symm.trans hphase'
          exact hwaits.mem_wake hnow h.since_le hin
        · exact Or.inr (Or.inl (hdone k hfinished))
        · exact Or.inr (Or.inr (hlong.trans hnow))
      rw [step_draining hphase]
      rcases hwaits.wake hdone hnow htick h.since_le with ⟨hempty, hle, -⟩ | ⟨hstill, hle, -⟩
      · rw [drainPhase_of_nil hempty]
        refine ⟨Or.inr ⟨rfl, hle.trans hends⟩, h.since_le.trans hnow, ?_⟩
        intro k hk
        rcases hleft k hk with hin | hrest
        · rw [hempty] at hin
          exact absurd hin List.not_mem_nil
        · exact Or.inr hrest
      · rw [drainPhase_of_waits hstill]
        refine ⟨Or.inl ⟨_, rfl, hstill, hle.trans hends⟩, h.since_le.trans hnow, ?_⟩
        intro k hk
        rcases hleft k hk with hin | hrest
        · exact Or.inl ⟨_, rfl, hin⟩
        · exact Or.inr hrest
    · rw [step_draining_of_not_task hphase fun event heq => htask ⟨event, heq⟩]
      exact h
  · rw [step_complete hphase]
    exact h

theorem Full.step (hfull : m.Full config limit) (h : m.Drains config since limit handles)
    {e : MainEvent} (hquiet : e.ending = false) : (m.step config e).Full config limit := by
  rcases h.phase with ⟨d, hphase, hwaits, -⟩ | ⟨hphase, -⟩
  · by_cases htask : ∃ event, e = .task event
    · obtain ⟨event, rfl⟩ := htask
      obtain ⟨hnow, htick⟩ := move_le_now config m event
      have hsame : (m.move config event).finished = m.finished := finished_quiet m hquiet
      have hlimit := hfull.draining d hphase
      rw [step_draining hphase, hsame]
      rcases hwaits.wake (fun _ hk => hk) hnow htick h.since_le with ⟨hempty, -, heq⟩ |
        ⟨hstill, -, heq⟩
      · rw [drainPhase_of_nil hempty]
        exact ⟨nofun, fun _ => (heq rfl).trans hlimit⟩
      · rw [drainPhase_of_waits hstill]
        refine ⟨?_, nofun⟩
        intro d' hd'
        cases hd'
        show Drain.ends config.drainTimeout (m.move config event).finished _ = limit
        rw [hsame]
        exact (heq rfl).trans hlimit
    · rw [step_draining_of_not_task hphase fun event heq => htask ⟨event, heq⟩]
      exact hfull
  · rw [step_complete hphase]
    exact hfull

/-- The clock runs on until `run` has returned. -/
theorem step_now (h : m.phase ≠ .complete) (e : MainEvent) :
    (m.step config e).now = m.now + if e = .task .tick then 1 else 0 := by
  unfold step
  split
  · rfl
  · rfl
  · next event _ =>
    rw [move_now]
    by_cases htick : event = .tick
    · rw [htick]
      rfl
    · rw [if_neg htick, if_neg fun heq => htick (MainEvent.task.inj heq)]
  · rfl
  · next d event _ =>
    show (m.move config event).now = _
    rw [move_now]
    by_cases htick : event = .tick
    · rw [htick]
      rfl
    · rw [if_neg htick, if_neg fun heq => htick (MainEvent.task.inj heq)]
  · next _ d hphase hne =>
    rw [if_neg fun heq => hne .tick heq]
    rfl
  · next hphase => exact absurd hphase h

theorem Drains.step_length (h : m.Drains config since limit handles) (e : MainEvent) :
    (m.step config e).gate.tasks.length = m.gate.tasks.length := by
  rcases h.phase with ⟨d, hphase, -⟩ | ⟨hphase, -⟩
  · by_cases htask : ∃ event, e = .task event
    · obtain ⟨event, rfl⟩ := htask
      rw [step_draining hphase]
      exact move_length m event
    · rw [step_draining_of_not_task hphase fun event heq => htask ⟨event, heq⟩]
  · rw [step_complete hphase]

theorem foldl_complete (hphase : m.phase = .complete) (events : List MainEvent) :
    events.foldl (step config) m = m := by
  induction events with
  | nil => rfl
  | cons e events ih => rw [List.foldl_cons, step_complete hphase, ih]

theorem ticks_cons (e : MainEvent) (events : List MainEvent) :
    ticks (e :: events) = (if e = .task .tick then 1 else 0) + ticks events := by
  unfold ticks
  rw [List.count_cons, Nat.add_comm]
  by_cases htick : e = .task .tick
  · rw [if_pos htick, if_pos (by rw [htick]; rfl)]
  · rw [if_neg htick, if_neg (by simpa using htick)]

variable (config) in
theorem foldl_now (m : Main) (events : List MainEvent) :
    (events.foldl (step config) m).now ≤ m.now + ticks events ∧
      ((events.foldl (step config) m).phase ≠ .complete →
        (events.foldl (step config) m).now = m.now + ticks events) := by
  induction events generalizing m with
  | nil => exact ⟨le_rfl, fun _ => rfl⟩
  | cons e events ih =>
    by_cases hphase : m.phase = .complete
    · rw [foldl_complete hphase]
      exact ⟨Nat.le_add_right .., fun hne => absurd hphase hne⟩
    · obtain ⟨hle, heq⟩ := ih (m.step config e)
      rw [step_now hphase, Nat.add_assoc, ← ticks_cons] at hle heq
      exact ⟨hle, heq⟩

theorem Drains.foldl (h : m.Drains config since limit handles) (events : List MainEvent) :
    (events.foldl (Main.step config) m).Drains config since limit handles ∧
      (events.foldl (Main.step config) m).gate.tasks.length = m.gate.tasks.length := by
  induction events generalizing m with
  | nil => exact ⟨h, rfl⟩
  | cons e events ih =>
    obtain ⟨hdrains, hlength⟩ := ih (h.step e)
    exact ⟨hdrains, hlength.trans (h.step_length e)⟩

theorem Full.foldl (hfull : m.Full config limit) (h : m.Drains config since limit handles)
    {events : List MainEvent} (hquiet : ∀ e ∈ events, e.ending = false) :
    (events.foldl (Main.step config) m).Full config limit := by
  induction events generalizing m with
  | nil => exact hfull
  | cons e events ih =>
    exact ih (hfull.step h (hquiet e List.mem_cons_self)) (h.step e) fun e' he' =>
      hquiet e' (List.mem_cons_of_mem _ he')

/-! ## Up to the return -/

variable (config) in
theorem run_shutdown (earlier later : List MainEvent) :
    run config (earlier ++ .shutdown :: later) =
      later.foldl (Main.step config) ((run config earlier).step config .shutdown) := by
  rw [run, List.foldl_append]
  rfl

variable (config) in
/-- The signal itself ends no session and takes no time. -/
theorem step_shutdown (hphase : m.phase = .accepting) :
    (m.step config .shutdown).gate = m.gate ∧ (m.step config .shutdown).now = m.now := by
  unfold Main.step
  rw [hphase]
  exact ⟨rfl, rfl⟩

/-- As long as `run` waits, the first of its deadlines is ahead, and so is the last. The last is
the sum of all waits there may be. -/
theorem Drains.now_lt (h : m.Drains config since limit handles) (hphase : m.phase ≠ .complete) :
    m.now < limit := by
  rcases h.phase with ⟨d, -, hwaits, hends⟩ | ⟨hcomplete, -⟩
  · exact hwaits.early.trans_le ((Nat.le_add_right ..).trans hends)
  · exact absurd hcomplete hphase

theorem Drains.now_le (h : m.Drains config since limit handles) : m.now ≤ limit := by
  rcases h.phase with ⟨d, -, hwaits, hends⟩ | ⟨-, hle⟩
  · exact hwaits.early.le.trans ((Nat.le_add_right ..).trans hends)
  · exact hle

/-- What still runs when `run` returns has had its time: its wait has begun after the signal and
lasted the whole timeout. -/
theorem Drains.had_time (h : m.Drains config since limit handles) (hphase : m.phase = .complete)
    {k : Handle} (hk : k ∈ handles) (hruns : m.finished k ≠ true) :
    since + config.drainTimeout ≤ m.now := by
  rcases h.left k hk with ⟨d, hdraining, -⟩ | hfinished | hlong
  · rw [hphase] at hdraining
    cases hdraining
  · exact absurd hfinished hruns
  · exact hlong

theorem finished_session_ne {i : Nat} {task : Task} (htask : m.gate.tasks[i]? = some task)
    (hlive : task ≠ .ended) : m.finished (.session i) ≠ true := by
  intro hfinished
  have hended : m.gate.tasks[i]? = some .ended := of_decide_eq_true hfinished
  exact hlive (Option.some.inj (htask.symm.trans hended))

/-- Every task of the listener is waited for. -/
theorem Listening.mem_handles (h : m.Listening config) {i : Nat} (hi : i < m.gate.tasks.length) :
    Handle.session i ∈ m.handles config := by
  refine List.mem_append_left _ ?_
  rw [h.handles]
  exact List.mem_map.mpr ⟨i, List.mem_range.mpr hi, rfl⟩

end Main

/-! ## All together -/

open Main in
/-- **The bridge stops.** Under an accepted configuration, whatever came before the signal and
comes after it: no connection is let in any more; `run` returns at the latest when
`shutdown_timeout` has passed once for every task that had not ended at the signal, and exactly
then if none of them ends; and a session that is still live then has had the whole
`shutdown_timeout` from the signal on. Of one address no more sessions than its limit are waited
for. -/
theorem shutdown_drains {host : Host} {config : Config} {valid : RunConfig}
    (hvalid : config.validate host = .ok valid) (earlier later : List MainEvent)
    (haccepting : (run valid earlier).phase = .accepting) :
    let m := run valid earlier
    let m' := run valid (earlier ++ .shutdown :: later)
    let budget := valid.drainTimeout * Drain.pending m.finished (m.handles valid)
    m'.gate.tasks.length = m.gate.tasks.length ∧
    m'.now ≤ m.now + budget ∧ (budget ≤ ticks later → m'.phase = .complete) ∧
    ((∀ e ∈ later, e.ending = false) → (m'.phase = .complete ↔ budget ≤ ticks later)) ∧
    (∀ (i : Nat) (task : Task), m'.phase = .complete → m'.gate.tasks[i]? = some task →
      task ≠ .ended → m.now + valid.drainTimeout ≤ m'.now) ∧
    m.sessionHandles = (List.range m.gate.tasks.length).map .session ∧
    ∀ ip, m.gate.live ip ≤ config.server.maxConnectionsPerIp.toNat := by
  intro m m' budget
  obtain ⟨-, -, carried⟩ := Config.validate_eq_ok hvalid
  have hpos := Config.maxConnectionsPerIp_pos hvalid
  rw [← carried.maxConnectionsPerIp] at hpos ⊢
  have hlistening : m.Listening valid := listening_run hpos earlier
  obtain ⟨hgate, hnow⟩ := step_shutdown valid haccepting
  obtain ⟨hstart, hfull⟩ := start_drains haccepting (m.handles valid) rfl
  obtain ⟨hdrains, hlength⟩ := hstart.foldl later
  obtain ⟨hclock_le, hclock⟩ := foldl_now valid (m.step valid .shutdown) later
  rw [← run_shutdown, hnow] at hclock_le hclock
  rw [← run_shutdown] at hdrains hlength
  rw [hgate] at hlength
  -- a drain that still waits after the whole budget would have a clock beyond its limit
  have hreturns : budget ≤ ticks later → m'.phase = .complete := by
    intro hbudget
    by_contra hwaits
    have hlt := hdrains.now_lt hwaits
    rw [hclock hwaits] at hlt
    exact absurd hbudget (Nat.not_le_of_lt (Nat.lt_of_add_lt_add_left hlt))
  refine ⟨hlength, hdrains.now_le, hreturns, ?_, ?_, hlistening.handles, hlistening.gate.bounded⟩
  -- as nothing ends by itself, every handle uses up its full timeout and the bound is exact
  · intro hquiet
    refine ⟨fun hcomplete => ?_, hreturns⟩
    have hexact := hfull.foldl hstart hquiet
    rw [← run_shutdown] at hexact
    rw [hexact.complete hcomplete] at hclock_le
    exact Nat.le_of_add_le_add_left hclock_le
  · intro i task hcomplete htask hlive
    have hi : i < m.gate.tasks.length := hlength ▸ (List.getElem?_eq_some_iff.mp htask).1
    exact hdrains.had_time hcomplete (hlistening.mem_handles hi) (finished_session_ne htask hlive)

/-- With a session that never ends, and the bridge's own tasks as slow: `run` returns when each
has had its time, and not a tick before. The run goes from the accept through the signal to the
return. -/
theorem shutdown_drains_one : ∃ valid n, oneEachConfig.validate sampleHost = .ok valid ∧
    (Main.run valid ([.accept (some (.v4 1))] ++
      .shutdown :: List.replicate n (.task .tick))).phase ≠ .complete ∧
    (Main.run valid ([.accept (some (.v4 1))] ++
      .shutdown :: List.replicate (n + 1) (.task .tick))).phase = .complete ∧
    (Main.run valid [.accept (some (.v4 1))]).gate.live (.v4 1) ≤ 1 := by
  have h : (oneEachConfig.validate sampleHost).toOption.map
      (fun valid => decide (0 < valid.drainTimeout)) = some true := by
    decide +kernel
  obtain ⟨valid, hvalid, htimeout⟩ := exists_ok_of_map h
  have hpending : 0 < Drain.pending (Main.run valid [.accept (some (.v4 1))]).finished
      ((Main.run valid [.accept (some (.v4 1))]).handles valid) := by
    refine List.countP_pos_iff.mpr ⟨.service .metrics, ?_, rfl⟩
    unfold Main.handles RunConfig.services
    simp
  obtain ⟨n, hn⟩ := Nat.exists_eq_succ_of_ne_zero
    (Nat.mul_pos (of_decide_eq_true htimeout) hpending).ne'
  have hquiet (k : Nat) : ∀ e ∈ List.replicate k (MainEvent.task .tick), e.ending = false := by
    intro e he
    rw [List.eq_of_mem_replicate he]
    rfl
  have hticks (k : Nat) : ticks (List.replicate k (.task .tick)) = k :=
    List.count_replicate_self ..
  obtain ⟨-, -, -, hearly, -⟩ := shutdown_drains hvalid [.accept (some (.v4 1))]
    (List.replicate n (.task .tick)) rfl
  obtain ⟨-, -, hlate, -, -, -, hlive⟩ := shutdown_drains hvalid [.accept (some (.v4 1))]
    (List.replicate (n + 1) (.task .tick)) rfl
  refine ⟨valid, n, hvalid, ?_, ?_, hlive (.v4 1)⟩
  · intro hcomplete
    have hbudget := (hearly (hquiet n)).mp hcomplete
    rw [hticks, hn] at hbudget
    exact Nat.not_succ_le_self n hbudget
  · refine hlate ?_
    rw [hticks, hn]

end LatticeShield.Bridge
