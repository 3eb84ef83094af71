import LatticeShield.Bridge.Admission
import LatticeShield.Proof.Validate

/-!
# The counter maps count the live connections

The increment and the decrement are in different tasks, and the entry is made before the limit is
tested. What keeps the map right is that a rejected attempt leaves an entry at the limit, which is
the number that was there, and the limit is not zero. With that `Gate.Inv`, which says that the
entries are the numbers of live connections and none stands at zero, is kept by every event.

The limit of the PQC and the QUIC listener is checked by `Config::validate`. That of the WebSocket
listener is not, and with a limit of zero every attempt is refused and leaves an entry behind.
-/

set_option autoImplicit false

namespace LatticeShield.Bridge

open Lib

/-! ## How the live connections move -/

namespace Task

theorem count_snoc (tasks : List Task) (task : Task) (ip : IpAddr) :
    count (tasks ++ [task]) ip = count tasks ip + if task.ip? = some ip then 1 else 0 := by
  simp only [count, List.countP_append, List.countP_singleton, decide_eq_true_eq]

theorem count_pos {tasks : List Task} {i : Nat} {task : Task} {ip : IpAddr}
    (h : tasks[i]? = some task) (hip : task.ip? = some ip) : 0 < count tasks ip :=
  List.countP_pos_iff.mpr ⟨task, List.mem_of_getElem? h, decide_eq_true hip⟩

theorem count_set {tasks : List Task} {i : Nat} {old : Task} (hold : tasks[i]? = some old)
    (new : Task) (ip : IpAddr) :
    count (tasks.set i new) ip =
      count tasks ip - (if old.ip? = some ip then 1 else 0) +
        if new.ip? = some ip then 1 else 0 := by
  obtain ⟨hi, hget⟩ := List.getElem?_eq_some_iff.mp hold
  rw [count, List.countP_set hi, hget]
  simp only [count, decide_eq_true_eq]

end Task

namespace Gate

variable {listener : CappedListener} {maxPerIp : Nat} {gate : Gate}

theorem ip?_enter (listener : CappedListener) (ip : IpAddr) :
    (enter listener ip).ip? = some ip := by
  cases listener <;> rfl

/-! ## The invariant -/

/-- The entries are the numbers of live connections, within the limit. It is enough for the next
step: admission looks at one entry and ending a connection changes one. -/
structure Inv (maxPerIp : Nat) (gate : Gate) : Prop where
  counts : Table.Counts gate.map gate.live
  bounded : ∀ ip, gate.live ip ≤ maxPerIp

/-- What the block under the lock does, by the live connections. It inserts an entry before it
compares, so that an address at the limit is written back as it was. -/
theorem Inv.checkLimit_eq (inv : Inv maxPerIp gate) (ip : IpAddr) :
    checkLimit maxPerIp ip gate.map =
      if maxPerIp ≤ gate.live ip then (false, gate.map.insert ip (gate.live ip))
      else (true, gate.map.insert ip (gate.live ip + 1)) := by
  rw [checkLimit, inv.counts.getD_lookup ip]

/-- What the guard does, by the live connections: there is one at least, its own. The saturating
subtraction of the source therefore never saturates, and the entry goes with the last connection. -/
theorem Inv.drop_eq (inv : Inv maxPerIp gate) {ip : IpAddr} (hlive : 0 < gate.live ip) :
    IpCountGuard.drop ip gate.map =
      if gate.live ip - 1 = 0 then gate.map.erase ip
      else gate.map.insert ip (gate.live ip - 1) := by
  rw [IpCountGuard.drop, inv.counts ip, if_neg (Nat.pos_iff_ne_zero.mp hlive)]
  simp only [if_pos hlive]

theorem Inv.attempt (inv : Inv maxPerIp gate) (hmax : 0 < maxPerIp) (ip : IpAddr) :
    Inv maxPerIp (gate.step listener maxPerIp (.attempt ip)) := by
  by_cases h : maxPerIp ≤ gate.live ip
  · -- the entry is written with the number it has, and that is the limit
    simp only [step, inv.checkLimit_eq ip, if_pos h]
    exact ⟨inv.counts.insert (by omega) rfl fun _ _ => rfl, inv.bounded⟩
  · simp only [step, inv.checkLimit_eq ip, if_neg h]
    have hself : Task.count (gate.tasks ++ [enter listener ip]) ip = gate.live ip + 1 := by
      rw [Task.count_snoc, ip?_enter, if_pos rfl, live]
    have hother : ∀ b, b ≠ ip →
        Task.count (gate.tasks ++ [enter listener ip]) b = gate.live b := by
      intro b hb
      rw [Task.count_snoc, ip?_enter, if_neg fun h => hb (Option.some.inj h).symm, live,
        Nat.add_zero]
    refine ⟨inv.counts.insert (Nat.succ_pos _) hself hother, ?_⟩
    intro b
    rcases eq_or_ne b ip with rfl | hb
    · rw [live, hself]; omega
    · rw [live, hother b hb]; exact inv.bounded b

theorem Inv.poll (inv : Inv maxPerIp gate) (i : Nat) :
    Inv maxPerIp (gate.step listener maxPerIp (.poll i)) := by
  cases htask : gate.tasks[i]? with
  | none => simpa only [step, htask] using inv
  | some task =>
    cases task with
    | spawned ip =>
      have hsame : live { gate with tasks := gate.tasks.set i (.guarded ip) } = gate.live := by
        funext b
        rw [live, live, Task.count_set htask (.guarded ip) b]
        by_cases hb : (Task.spawned ip).ip? = some b
        · have hb' : (Task.guarded ip).ip? = some b := hb
          rw [if_pos hb, if_pos hb', Nat.sub_add_cancel (Task.count_pos htask hb)]
        · have hb' : ¬ (Task.guarded ip).ip? = some b := hb
          rw [if_neg hb, if_neg hb']
          rfl
      simp only [step, htask]
      exact ⟨hsame ▸ inv.counts, hsame ▸ inv.bounded⟩
    | guarded ip => simpa only [step, htask] using inv
    | ended => simpa only [step, htask] using inv

theorem Inv.finish (inv : Inv maxPerIp gate) (i : Nat) (how : Ending) :
    Inv maxPerIp (gate.step listener maxPerIp (.finish i how)) := by
  cases htask : gate.tasks[i]? with
  | none => simpa only [step, htask] using inv
  | some task =>
    cases task with
    | spawned ip => simpa only [step, htask] using inv
    | guarded ip =>
      have hlive : 0 < gate.live ip := Task.count_pos htask rfl
      have hself : Task.count (gate.tasks.set i .ended) ip = gate.live ip - 1 := by
        rw [Task.count_set htask, Task.ip?, if_pos rfl, Task.ip?, if_neg (by simp), live]
        rfl
      have hother : ∀ b, b ≠ ip → Task.count (gate.tasks.set i .ended) b = gate.live b := by
        intro b hb
        rw [Task.count_set htask, Task.ip?, if_neg fun h => hb (Option.some.inj h).symm,
          Task.ip?, if_neg (by simp), live]
        rfl
      simp only [step, htask, inv.drop_eq hlive]
      constructor
      · by_cases hlast : gate.live ip - 1 = 0
        · rw [if_pos hlast]
          exact inv.counts.erase (hself.trans hlast) hother
        · rw [if_neg hlast]
          exact inv.counts.insert (Nat.pos_of_ne_zero hlast) hself hother
      · intro b
        have hb := inv.bounded b
        rcases eq_or_ne b ip with rfl | hne
        · rw [live, hself]; omega
        · rw [live, hother b hne]; exact hb
    | ended => simpa only [step, htask] using inv

theorem Inv.step (inv : Inv maxPerIp gate) (hmax : 0 < maxPerIp) (event : AdmissionEvent) :
    Inv maxPerIp (gate.step listener maxPerIp event) := by
  cases event with
  | attempt ip => exact inv.attempt hmax ip
  | poll i => exact inv.poll i
  | finish i how => exact inv.finish i how

theorem inv_init (maxPerIp : Nat) : Inv maxPerIp {} :=
  ⟨Table.counts_empty, fun _ => Nat.zero_le _⟩

end Gate

/-- The invariant of one listener, whatever the other listeners do: each has its own map, and an
event of another one leaves it alone. -/
theorem Gates.inv_run {config : RunConfig} {listener : CappedListener}
    (hmax : 0 < config.maxPerIp listener) (events : List (CappedListener × AdmissionEvent)) :
    (Gates.run config events listener).Inv (config.maxPerIp listener) := by
  induction events using List.reverseRecOn with
  | nil => exact Gate.inv_init _
  | append_singleton events event ih =>
    rw [Gates.run, List.foldl_append, ← Gates.run]
    obtain ⟨other, event⟩ := event
    simp only [List.foldl_cons, List.foldl_nil, Gates.step]
    rcases eq_or_ne listener other with rfl | hne
    · rw [Function.update_self]; exact ih.step hmax event
    · rw [Function.update_of_ne hne]; exact ih

/-! ## The PQC and the QUIC listener -/

/-- What a listener's map says and whom it lets in. -/
structure Gate.Accurate (maxPerIp : Nat) (gate : Gate) : Prop where
  counted : ∀ ip, 0 < gate.live ip → gate.map.lookup ip = some (gate.live ip)
  absent : ∀ ip, gate.live ip = 0 → gate.map.lookup ip = none
  within : ∀ ip n, gate.map.lookup ip = some n → n ≤ maxPerIp
  rejects : ∀ ip, (checkLimit maxPerIp ip gate.map).1 = false ↔ gate.live ip = maxPerIp

theorem Gate.Inv.accurate {maxPerIp : Nat} {gate : Gate} (inv : gate.Inv maxPerIp) :
    gate.Accurate maxPerIp := by
  constructor
  · intro ip hlive
    rw [inv.counts ip, if_neg (Nat.pos_iff_ne_zero.mp hlive)]
  · intro ip hnone
    rw [inv.counts ip, if_pos hnone]
  · intro ip n hn
    have hbound := inv.bounded ip
    rw [← inv.counts.getD_lookup ip, hn] at hbound
    exact hbound
  · intro ip
    rw [inv.checkLimit_eq ip]
    have := inv.bounded ip
    by_cases h : maxPerIp ≤ gate.live ip
    · simp [h]; omega
    · simp [h]; omega

theorem Config.maxConnectionsPerIp_pos {host : Host} {config : Config} {valid : RunConfig}
    (h : config.validate host = .ok valid) : 0 < config.server.maxConnectionsPerIp.toNat := by
  obtain ⟨passed, -, -⟩ := Config.validate_eq_ok h
  obtain ⟨_, -, hper⟩ := bind_eq_ok.mp passed.server
  have hne := of_decide_eq_false (refuseIf_eq_ok.mp hper)
  exact Nat.pos_of_ne_zero fun hzero => hne (UInt32.toNat_inj.mp hzero)

/-- **Per-address admission.** Under an accepted configuration and after any sequence of attempts,
first runs and endings on all listeners, the maps of the PQC and the QUIC listener hold for each
address the number of its live connections, have no entry where there is none, stay within the
limit, and an attempt is rejected exactly when the address is at the limit. -/
theorem pqc_quic_admission_accurate {host : Host} {config : Config} {valid : RunConfig}
    (h : config.validate host = .ok valid) (events : List (CappedListener × AdmissionEvent)) :
    (Gates.run valid events .pqc).Accurate config.server.maxConnectionsPerIp.toNat ∧
    (Gates.run valid events .quic).Accurate config.server.maxConnectionsPerIp.toNat := by
  obtain ⟨-, -, carried⟩ := Config.validate_eq_ok h
  have hpos := Config.maxConnectionsPerIp_pos h
  rw [← carried.maxConnectionsPerIp] at hpos ⊢
  exact ⟨(@Gates.inv_run valid .pqc hpos events).accurate,
    (@Gates.inv_run valid .quic hpos events).accurate⟩

def oneEachConfig : Config where
  server := { maxConnectionsPerIp := 1 }
  auth := { requireClientAuth := false }

/-- The second attempt is rejected, the one after the first has ended is not. -/
theorem pqc_admission_of_one : ∃ valid, oneEachConfig.validate sampleHost = .ok valid ∧
    (Gates.run valid [(.pqc, .attempt (.v4 1)), (.pqc, .attempt (.v4 1))] .pqc).Accurate 1 ∧
    (Gates.run valid [(.pqc, .attempt (.v4 1)), (.pqc, .poll 0), (.pqc, .attempt (.v4 1)),
      (.pqc, .finish 0 .panic), (.pqc, .attempt (.v4 1))] .pqc).Accurate 1 := by
  have h : (oneEachConfig.validate sampleHost).toOption.map (fun _ => ()) = some () := by
    decide +kernel
  obtain ⟨valid, hvalid, -⟩ := exists_ok_of_map h
  exact ⟨valid, hvalid, (pqc_quic_admission_accurate hvalid _).1,
    (pqc_quic_admission_accurate hvalid _).1⟩

/-! ## The WebSocket listener -/

/-- **The WebSocket limit.** Under an accepted configuration every address without a live
connection is always let in and every entry is of an address with one, in every run, exactly when
`websocket.max_connections_per_ip` is not zero. -/
theorem ws_admission_iff {host : Host} {config : Config} {valid : RunConfig}
    (h : config.validate host = .ok valid) :
    (∀ (events : List (CappedListener × AdmissionEvent)) (ip : IpAddr),
      ((Gates.run valid events .ws).live ip = 0 →
        (checkLimit (valid.maxPerIp .ws) ip (Gates.run valid events .ws).map).1 = true) ∧
      (ip ∈ (Gates.run valid events .ws).map → 0 < (Gates.run valid events .ws).live ip)) ↔
    1 ≤ config.websocket.maxConnectionsPerIp.toNat := by
  obtain ⟨-, -, carried⟩ := Config.validate_eq_ok h
  rw [← carried.wsMaxConnectionsPerIp]
  constructor
  · intro hall
    -- the first attempt of anyone
    have hfirst := (hall [] (.v4 0)).1 rfl
    by_contra hzero
    have hlimit : valid.maxPerIp .ws = 0 := by simpa [RunConfig.maxPerIp] using hzero
    rw [hlimit, checkLimit, if_pos (Nat.zero_le _)] at hfirst
    exact absurd hfirst (by simp)
  · intro hws events ip
    have hpos : 0 < valid.maxPerIp .ws := hws
    have inv := Gates.inv_run hpos events
    constructor
    · intro hnone
      rw [inv.checkLimit_eq ip, hnone, if_neg (Nat.not_le.mpr hpos)]
    · exact (inv.counts.mem_iff ip).mp

/-- Only the WebSocket limit varies. -/
def wsConfig (maxConnectionsPerIp : UInt32) : Config where
  auth := { requireClientAuth := false }
  websocket := {
    enabled := true
    certPath := some "./keys/ws.crt"
    keyPath := some "./keys/ws.key"
    maxConnectionsPerIp := maxConnectionsPerIp }

theorem ws_admission_of_default : ∃ valid, (wsConfig 100).validate sampleHost = .ok valid ∧
    ∀ events ip, (Gates.run valid events .ws).live ip = 0 →
      (checkLimit (valid.maxPerIp .ws) ip (Gates.run valid events .ws).map).1 = true := by
  have h : ((wsConfig 100).validate sampleHost).toOption.map (fun _ => ()) = some () := by
    decide +kernel
  obtain ⟨valid, hvalid, -⟩ := exists_ok_of_map h
  refine ⟨valid, hvalid, ?_⟩
  intro events ip
  exact ((ws_admission_iff hvalid).mpr (by decide) events ip).1

/-- With the limit 0, which is accepted, the first attempt is rejected and its entry stays.
Nothing ever removes it, since there is no guard for a connection that was not let in. -/
theorem ws_limit_zero_rejects : ∃ valid, (wsConfig 0).validate sampleHost = .ok valid ∧
    (Gates.run valid [] .ws).live (.v4 1) = 0 ∧
    (checkLimit (valid.maxPerIp .ws) (.v4 1) (Gates.run valid [] .ws).map).1 = false ∧
    (Gates.run valid [(.ws, .attempt (.v4 1))] .ws).live (.v4 1) = 0 ∧
    .v4 1 ∈ (Gates.run valid [(.ws, .attempt (.v4 1))] .ws).map := by
  have h : ((wsConfig 0).validate sampleHost).toOption.map (·.maxPerIp .ws) = some 0 := by
    decide +kernel
  obtain ⟨valid, hvalid, hlimit⟩ := exists_ok_of_map h
  refine ⟨valid, hvalid, rfl, ?_⟩
  simp only [Gates.run, List.foldl_cons, List.foldl_nil, Gates.step, Function.update_self, hlimit]
  decide

end LatticeShield.Bridge
