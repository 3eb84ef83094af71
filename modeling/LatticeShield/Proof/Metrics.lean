import Mathlib.Data.Set.Card
import LatticeShield.Bridge.Metrics
import LatticeShield.Proof.ControlPlane

/-!
# The counters of the heartbeat and those of Prometheus

Every site of a session counts on both sides, and so the two stay together whatever the sessions
do; the guards count the sessions that have them, and those are the ones whose handshake is done.
The handler of a cloud command counts a rotation that has not happened: it only tells the sessions,
and each of them counts its own. `key_rotations_total` is therefore the number of rotations plus the
number of commands handled (`Inv.commands`), and right exactly as long as there was none.
-/

set_option autoImplicit false

namespace LatticeShield.Bridge

open Lib

variable {H : HandshakeSuite}

/-! ## Sites -/

/-- The two sides agree, but for `k` rotations that only `MetricsState` has counted. Every update
of a counter is followed by its twin, and one site has none. -/
structure Metrics.Paired (k : UInt64) (m : Metrics) : Prop where
  bytes : m.state.bytesTransmittedTotal = m.prometheus.bytesTransmitted
  errors : m.state.channelErrorsTotal = m.prometheus.channelErrors
  rotations : m.state.keyRotationsTotal = m.prometheus.keyRotationsTotal + k

namespace Metrics.Paired

variable {k : UInt64} {m : Metrics}

theorem connection (h : Paired k m) : Paired k m.connection := ⟨h.bytes, h.errors, h.rotations⟩

theorem guardsNew (h : Paired k m) : Paired k m.guardsNew := ⟨h.bytes, h.errors, h.rotations⟩

theorem guardsDropped (h : Paired k m) : Paired k m.guardsDropped :=
  ⟨h.bytes, h.errors, h.rotations⟩

theorem channelError (h : Paired k m) : Paired k m.channelError :=
  ⟨h.bytes, congrArg (· + 1) h.errors, h.rotations⟩

theorem bytesTransmitted (h : Paired k m) (n : Nat) : Paired k (m.bytesTransmitted n) :=
  ⟨congrArg (· + UInt64.ofNat n) h.bytes, h.errors, h.rotations⟩

theorem keyRotated (h : Paired k m) : Paired k m.keyRotated := by
  refine ⟨h.bytes, h.errors, ?_⟩
  simp only [Metrics.keyRotated, h.rotations]
  rw [UInt64.add_assoc, UInt64.add_comm k, UInt64.add_assoc]

theorem rotateCommand (h : Paired k m) : Paired (k + 1) m.rotateCommand := by
  refine ⟨h.bytes, h.errors, ?_⟩
  simp only [Metrics.rotateCommand, h.rotations]
  rw [UInt64.add_assoc]

end Metrics.Paired

/-- What the relay loop's sites leave: both sides as far apart as before, the active sessions as
they were, and one rotation more if `do_rotate` completed. -/
structure Counted (m m' : Metrics) (completed : Bool) : Prop where
  paired : ∀ k, m.Paired k → m'.Paired k
  active : m'.state.connectionsActive = m.state.connectionsActive
  rotations : m'.prometheus.keyRotationsTotal =
    m.prometheus.keyRotationsTotal + if completed then 1 else 0

theorem Counted.refl (m : Metrics) : Counted m m false :=
  ⟨fun _ => id, rfl, (UInt64.add_zero _).symm⟩

theorem selected_counted (cfg : ValidConfig) (sel : Relay.Selected) (arm : Arm) (m : Metrics) :
    Counted m (Selected.metrics cfg sel arm m) false := by
  unfold Selected.metrics
  split
  · exact ⟨fun _ h => h.bytesTransmitted _, rfl, (UInt64.add_zero _).symm⟩
  · exact .refl m

theorem Counted.keyRotated {m m' : Metrics} (h : Counted m m' false) :
    Counted m m'.keyRotated true := by
  refine ⟨fun k hk => (h.paired k hk).keyRotated, h.active, ?_⟩
  have hsame : m'.prometheus.keyRotationsTotal = m.prometheus.keyRotationsTotal :=
    h.rotations.trans (UInt64.add_zero _)
  simp only [Metrics.keyRotated, hsame, if_true]

theorem armMetrics_counted (C : CipherSuite) (cfg : ValidConfig) (r : Relay) (arm : Arm) (env : Env)
    (m : Metrics) : Counted m (r.armMetrics C cfg arm env m).1 (r.armMetrics C cfg arm env m).2 := by
  have hfirst := selected_counted cfg (r.select C cfg env.dataWriter arm) arm m
  simp only [Relay.armMetrics]
  split
  · split
    · split
      · exact hfirst.keyRotated
      · exact hfirst
    · exact hfirst
  · exact .refl m

theorem frameMetrics_counted (r : Relay) (m : Metrics) : Counted m (r.frameMetrics m) false := by
  unfold Relay.frameMetrics
  split
  · exact ⟨fun _ h => h.channelError, rfl, (UInt64.add_zero _).symm⟩
  · exact .refl m

theorem relayMetrics_counted (C : CipherSuite) (server : Server) (c : Connection H) (event : Event)
    (m : Metrics) :
    Counted m (c.relayMetrics C server event m).1 (c.relayMetrics C server event m).2 := by
  unfold Connection.relayMetrics
  split
  · rename_i relay _
    exact frameMetrics_counted relay.receiveEof.1 m
  · rename_i takes relay b _ _ _
    exact frameMetrics_counted (relay.receive C b takes).1 m
  · rename_i arm env relay _
    exact armMetrics_counted C server.config.toValidConfig relay arm env m
  · exact .refl m

theorem startMetrics_counted (c c' : Connection H) (m : Metrics) :
    Counted m (c.startMetrics c' m) false := by
  unfold Connection.startMetrics
  split
  · exact ⟨fun _ h => h.connection, rfl, (UInt64.add_zero _).symm⟩
  · exact .refl m

namespace Metered

variable {C : CipherSuite} {server : Server} {s : Metered H} {k : UInt64}

/-! ## Guards -/

/-- The guards are counted, and nothing else is. -/
structure Guarded (s : Metered H) : Prop where
  finite : {i | s.guards i = true}.Finite
  active : s.metrics.state.connectionsActive = UInt64.ofNat {i | s.guards i = true}.ncard

theorem guards_update_true (s : Metered H) (i : Nat) :
    {j | Function.update s.guards i true j = true} = insert i {j | s.guards j = true} := by
  ext j
  by_cases hj : j = i
  · simp [hj]
  · simp [hj]

theorem guards_update_false (s : Metered H) (i : Nat) :
    {j | Function.update s.guards i false j = true} = {j | s.guards j = true} \ {i} := by
  ext j
  by_cases hj : j = i
  · simp [hj]
  · simp [hj]

theorem Guarded.guard (h : Guarded s) (i : Nat) (phase : Phase H) : Guarded (s.guard i phase) := by
  unfold Metered.guard
  split
  · rename_i hnew
    have hnotin : i ∉ {j | s.guards j = true} := hnew.2
    refine ⟨?_, ?_⟩
    · simp only [guards_update_true]
      exact h.finite.insert i
    · simp only [Metrics.guardsNew, guards_update_true]
      rw [Set.ncard_insert_of_notMem hnotin h.finite, h.active, UInt64.ofNat_add]
      rfl
  · split
    · rename_i hdrop
      have hin : i ∈ {j | s.guards j = true} := hdrop.2
      refine ⟨?_, ?_⟩
      · simp only [guards_update_false]
        exact h.finite.subset Set.sdiff_subset
      · simp only [Metrics.guardsDropped, guards_update_false]
        rw [h.active, ← Set.ncard_sdiff_singleton_add_one hin h.finite, UInt64.ofNat_add]
        exact UInt64.add_sub_cancel _ _
    · exact h

theorem guard_guards (s : Metered H) (i : Nat) (phase : Phase H) :
    (s.guard i phase).guards = Function.update s.guards i phase.active := by
  unfold Metered.guard
  split
  · rename_i hnew
    rw [hnew.1]
  · split
    · rename_i hdrop
      rw [Bool.not_eq_true _ |>.mp hdrop.1]
    · rename_i hnew hdrop
      have hsame : s.guards i = phase.active := by
        cases hphase : phase.active <;> cases hguard : s.guards i <;> simp_all
      rw [← hsame, Function.update_eq_self]

theorem guard_paired (h : s.metrics.Paired k) (i : Nat) (phase : Phase H) :
    (s.guard i phase).metrics.Paired k := by
  unfold Metered.guard
  split
  · exact h.guardsNew
  · split
    · exact h.guardsDropped
    · exact h

theorem guard_rest (s : Metered H) (i : Nat) (phase : Phase H) :
    (s.guard i phase).sessions = s.sessions ∧ (s.guard i phase).rotated = s.rotated ∧
      (s.guard i phase).metrics.prometheus.keyRotationsTotal =
        s.metrics.prometheus.keyRotationsTotal := by
  unfold Metered.guard
  split
  · exact ⟨rfl, rfl, rfl⟩
  · split
    · exact ⟨rfl, rfl, rfl⟩
    · exact ⟨rfl, rfl, rfl⟩

/-! ## The invariant -/

/-- `commands` is how many Rotate commands were handled. -/
structure Inv (commands : Nat) (s : Metered H) : Prop where
  commands : s.metrics.Paired (UInt64.ofNat commands)
  rotations : s.metrics.prometheus.keyRotationsTotal = UInt64.ofNat s.rotated
  guards : ∀ i, s.guards i = (s.sessions.conns i).phase.active
  guarded : Guarded s

theorem inv_new : Inv 0 (new : Metered H) := by
  refine ⟨⟨rfl, rfl, rfl⟩, rfl, fun _ => rfl, ?_, ?_⟩
  · simp [new]
  · simp [new, Metrics.new]

variable {n : Nat}

/-- The end of every step of a session: the connection `i` is in its new phase, and now its guards
follow. -/
theorem Inv.guard {i : Nat} {phase : Phase H} (hcommands : s.metrics.Paired (UInt64.ofNat n))
    (hrotations : s.metrics.prometheus.keyRotationsTotal = UInt64.ofNat s.rotated)
    (hguards : ∀ j, j ≠ i → s.guards j = (s.sessions.conns j).phase.active)
    (hself : (s.sessions.conns i).phase.active = phase.active) (hguarded : Guarded s) :
    Inv n (s.guard i phase) := by
  obtain ⟨hsessions, hrotated, hprometheus⟩ := guard_rest s i phase
  refine ⟨guard_paired hcommands i phase, ?_, ?_, hguarded.guard i phase⟩
  · rw [hprometheus, hrotated, hrotations]
  · intro j
    rw [guard_guards, hsessions]
    by_cases hj : j = i
    · rw [hj, Function.update_self, hself]
    · rw [Function.update_of_ne hj, hguards j hj]

theorem sees_eq (s : Metered H) (i : Nat) (phase : Phase H) (event : Event) :
    ∃ seen, s.sees i phase event = { s with seen } := by
  unfold sees
  split
  · exact ⟨_, rfl⟩
  · exact ⟨_, rfl⟩
  · exact ⟨s.seen, rfl⟩

theorem Inv.move (h : Inv n s) (i : Nat) (event : Event) : Inv n (s.move C server i event) := by
  have hstart := startMetrics_counted (s.sessions.conns i)
    ((s.sessions.step C server (i, event)).conns i) s.metrics
  have hrelay := relayMetrics_counted C server (s.sessions.conns i) event
    ((s.sessions.conns i).startMetrics ((s.sessions.step C server (i, event)).conns i) s.metrics)
  simp only [Metered.move]
  -- the session's start and its relay step are two updates of the metrics; each is counted once
  generalize (s.sessions.conns i).startMetrics
    ((s.sessions.step C server (i, event)).conns i) s.metrics = m at hstart hrelay ⊢
  generalize (s.sessions.conns i).relayMetrics C server event m = counted at hrelay ⊢
  obtain ⟨seen, hsees⟩ :=
    sees_eq ({ s with sessions := s.sessions.step C server (i, event) }.count counted) i
      (s.sessions.conns i).phase event
  rw [hsees]
  -- starting a session rotates nothing
  have hrotations : counted.1.prometheus.keyRotationsTotal =
      UInt64.ofNat s.rotated + if counted.2 then 1 else 0 := by
    have hsame : m.prometheus.keyRotationsTotal = s.metrics.prometheus.keyRotationsTotal :=
      hstart.rotations.trans (UInt64.add_zero _)
    rw [hrelay.rotations, hsame, h.rotations]
  refine Inv.guard (hrelay.paired _ (hstart.paired _ h.commands)) ?_ (?_) rfl
    ⟨h.guarded.finite, ?_⟩
  · simp only [count, hrotations]
    cases counted.2 with
    | true =>
      simp only [if_true]
      rw [UInt64.ofNat_add]
      rfl
    | false =>
      simp only [Bool.false_eq_true, if_false]
      exact UInt64.add_zero _
  · intro j hj
    have hother : (s.sessions.step C server (i, event)).conns j = s.sessions.conns j :=
      Function.update_of_ne hj ..
    exact (h.guards j).trans (congrArg (fun c : Connection H => c.phase.active) hother.symm)
  · exact (hrelay.active.trans hstart.active).trans h.guarded.active

/-- How many of the events are Rotate commands that reach the handler. -/
def handled (server : Server) (events : List MeteredEvent) : Nat :=
  events.countP fun e => match e with
    | .command .rotate => server.commanded
    | _ => false

theorem handled_eq_zero {events : List MeteredEvent}
    (h : .command .rotate ∈ events → server.commanded = false) : handled server events = 0 := by
  apply List.countP_eq_zero.mpr
  intro e he
  cases e with
  | session i event => simp
  | abort i => simp
  | command cmd =>
    cases cmd with
    | rotate => simp [h he]
    | unknown => simp
  | adminRotate => simp

theorem Inv.step (h : Inv n s) (e : MeteredEvent) :
    Inv (n + handled server [e]) (s.step C server e) := by
  cases e with
  | session i event =>
    simp only [Metered.step]
    split
    · exact h.move i event
    · exact h
  | abort i =>
    refine Inv.guard h.commands h.rotations (?_) ?_ ⟨h.guarded.finite, h.guarded.active⟩
    · intro j hj
      rw [h.guards j]
      exact congrArg (fun c : Connection H => c.phase.active) (Function.update_of_ne hj ..).symm
    · simp only [Function.update_self]
      rfl
  | command cmd =>
    cases cmd with
    | rotate =>
      by_cases hon : server.commanded = true
      · simp only [Metered.step, handled, hon, List.countP_singleton, if_true]
        refine ⟨?_, h.rotations, h.guards, ⟨h.guarded.finite, h.guarded.active⟩⟩
        rw [UInt64.ofNat_add]
        exact h.commands.rotateCommand
      · simp only [Metered.step, handled, hon, List.countP_singleton,
          Bool.false_eq_true, if_false, Nat.add_zero]
        exact h
    | unknown => exact h
  | adminRotate => exact ⟨h.commands, h.rotations, h.guards, ⟨h.guarded.finite, h.guarded.active⟩⟩

theorem inv_run (C : CipherSuite) (server : Server) (events : List MeteredEvent) :
    Inv (handled server events) (run C server events : Metered H) := by
  induction events using List.reverseRecOn with
  | nil => exact inv_new
  | append_singleton events e ih =>
    rw [run, List.foldl_append, List.foldl_cons, List.foldl_nil, handled, List.countP_append]
    exact ih.step e

/-! ## What the heartbeat reports -/

/-- The sessions between their handshake and their end. -/
def activeSessions (s : Metered H) : Set Nat := {i | (s.sessions.conns i).phase.active = true}

/-- What the counters should be. Each is compared with what it counts, and the two sets of
counters with each other. -/
structure Accurate (s : Metered H) : Prop where
  rotations : s.metrics.state.keyRotationsTotal = UInt64.ofNat s.rotated
  rotationsPrometheus :
    s.metrics.state.keyRotationsTotal = s.metrics.prometheus.keyRotationsTotal
  active : s.metrics.state.connectionsActive = UInt64.ofNat s.activeSessions.ncard
  bytes : s.metrics.state.bytesTransmittedTotal = s.metrics.prometheus.bytesTransmitted
  errors : s.metrics.state.channelErrorsTotal = s.metrics.prometheus.channelErrors

/-- They are, up to the commands. -/
theorem Inv.accurate_iff (h : Inv n s) : Accurate s ↔ UInt64.ofNat n = 0 := by
  have hrot := h.commands.rotations
  constructor
  · intro hacc
    rw [hacc.rotationsPrometheus] at hrot
    exact (UInt64.add_eq_left.mp hrot.symm)
  · intro hzero
    rw [hzero, UInt64.add_zero] at hrot
    refine ⟨hrot.trans h.rotations, hrot, ?_, h.commands.bytes, h.commands.errors⟩
    have hset : s.activeSessions = {i | s.guards i = true} := by
      ext i
      simp only [activeSessions, Set.mem_ofPred_eq, h.guards i]
    rw [hset]
    exact h.guarded.active

/-- **The counters are right in every state of a run exactly when no Rotate command of the control
plane was handled in it.** -/
theorem counters_agree_iff (C : CipherSuite) (server : Server) (events : List MeteredEvent) :
    (∀ before, before <+: events → Accurate (run C server before : Metered H)) ↔
      (.command .rotate ∈ events → server.commanded = false) := by
  constructor
  · intro hall hmem
    by_contra hon
    rw [Bool.not_eq_false] at hon
    -- the first of them is counted, and no rotation is
    obtain ⟨before, after, rfl, hfirst⟩ := List.eq_append_cons_of_mem hmem
    have hnone : handled server before = 0 := handled_eq_zero fun h => absurd h hfirst
    have hacc := hall (before ++ [.command .rotate]) ⟨after, by simp⟩
    have hone := ((inv_run C server (before ++ [.command .rotate])).accurate_iff (H := H)).mp hacc
    rw [handled, List.countP_append, ← handled, hnone] at hone
    simp [hon] at hone
  · intro hoff before hbefore
    rw [(inv_run C server before).accurate_iff,
      handled_eq_zero fun h => hoff (hbefore.subset h)]
    rfl

/-- **A Rotate command and no session.** The bridge reports a rotation; there was none. -/
theorem rotate_command_counted :
    (run Sample.suite ⟨ControlPlane.sampleRunConfig, ControlPlane.sampleIdentity, none⟩
      [.command .rotate] : Metered Sample.allSigned).metrics.state.keyRotationsTotal = 1 ∧
    (run Sample.suite ⟨ControlPlane.sampleRunConfig, ControlPlane.sampleIdentity, none⟩
      [.command .rotate] : Metered Sample.allSigned).rotated = 0 ∧
    ¬ Accurate (run Sample.suite ⟨ControlPlane.sampleRunConfig, ControlPlane.sampleIdentity, none⟩
      [.command .rotate] : Metered Sample.allSigned) := by
  have hone : (run Sample.suite ⟨ControlPlane.sampleRunConfig, ControlPlane.sampleIdentity, none⟩
      [.command .rotate] : Metered Sample.allSigned).metrics.state.keyRotationsTotal = 1 := by
    decide +kernel
  have hzero : (run Sample.suite ⟨ControlPlane.sampleRunConfig, ControlPlane.sampleIdentity, none⟩
      [.command .rotate] : Metered Sample.allSigned).rotated = 0 := by
    decide +kernel
  refine ⟨hone, hzero, ?_⟩
  intro hacc
  have := hacc.rotations
  rw [hone, hzero] at this
  exact absurd this (by decide)

end Metered

end LatticeShield.Bridge
