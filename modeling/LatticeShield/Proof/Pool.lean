import LatticeShield.Bridge.Config
import LatticeShield.Client.Pool
import LatticeShield.Lib.Runs
import LatticeShield.Proof.Validate

/-!
# Pooled connections and the bridge's handshake timeout

The pool drops a connection that has been idle for `idle_timeout_secs`, the bridge closes one that
has not answered for `handshake_timeout_secs`, and the two settings are validated apart from each
other. Whether `acquire` can hand out a connection the bridge has closed depends on which comes
first, and by how much: the pool's clock starts when the connect is joined, the bridge's when it
accepts. `Prompt lag` says that a connect is joined at most `lag` after its accept. For every `lag`
the answer is exact: either nothing is pooled, or the idle timeout and the lag together are within
the handshake timeout.
-/

set_option autoImplicit false

namespace LatticeShield.Client

open Lib

/-! ## What `acquire` takes -/

theorem acquire_fst_eq_some {cfg : PoolConfig} {now : Nat} {idle : List IdleConn} {c : IdleConn}
    (h : (ConnectionPool.acquire cfg now idle).1 = some c) :
    c ∈ idle ∧ now - c.createdAt < fromSecs cfg.idleTimeoutSecs := by
  unfold ConnectionPool.acquire at h
  cases hdrop : idle.dropWhile fun c => fromSecs cfg.idleTimeoutSecs ≤ now - c.createdAt with
  | nil =>
    rw [hdrop] at h
    exact absurd h (by simp)
  | cons c' rest =>
    rw [hdrop] at h
    obtain rfl := Option.some.inj h
    have hmem : c' ∈ idle := (List.dropWhile_sublist _).subset (hdrop ▸ List.mem_cons_self)
    have hnot := List.head?_dropWhile_not
      (fun c : IdleConn => fromSecs cfg.idleTimeoutSecs ≤ now - c.createdAt) idle
    rw [hdrop] at hnot
    simp only [List.head?_cons, decide_eq_false_iff_not] at hnot
    exact ⟨hmem, Nat.not_le.mp hnot⟩

theorem acquire_snd_sublist (cfg : PoolConfig) (now : Nat) (idle : List IdleConn) :
    (ConnectionPool.acquire cfg now idle).2.Sublist idle := by
  unfold ConnectionPool.acquire
  have hsub : (idle.dropWhile fun c => fromSecs cfg.idleTimeoutSecs ≤ now - c.createdAt).Sublist
      idle := List.dropWhile_sublist _
  split
  · exact List.nil_sublist idle
  · rename_i c rest hdrop
    rw [hdrop] at hsub
    exact (List.sublist_cons_self c rest).trans hsub

theorem insertAll_eq (cfg : PoolConfig) (idle newConns : List IdleConn) :
    ConnectionPool.insertAll cfg idle newConns =
      idle ++ newConns.take (cfg.maxSize - idle.length) := by
  induction newConns generalizing idle with
  | nil => simp [ConnectionPool.insertAll]
  | cons conn rest ih =>
    rw [ConnectionPool.insertAll]
    by_cases hfull : cfg.maxSize ≤ idle.length
    · rw [if_pos hfull, Nat.sub_eq_zero_of_le hfull, List.take_zero, List.append_nil]
    · obtain ⟨room, hroom⟩ : ∃ room, cfg.maxSize - idle.length = room + 1 :=
        ⟨cfg.maxSize - idle.length - 1, by omega⟩
      have hrest : cfg.maxSize - (idle ++ [conn]).length = room := by
        rw [List.length_append, List.length_singleton]
        omega
      rw [if_neg hfull, ih, hrest, hroom, List.take_succ_cons, List.append_assoc]
      rfl

theorem mem_insertAll {cfg : PoolConfig} {newConns idle : List IdleConn} {c : IdleConn}
    (h : c ∈ ConnectionPool.insertAll cfg idle newConns) : c ∈ idle ∨ c ∈ newConns := by
  rw [insertAll_eq] at h
  rcases List.mem_append.mp h with hold | hnew
  · exact Or.inl hold
  · exact Or.inr (List.mem_of_mem_take hnew)

namespace World

variable {cfg : PoolConfig} {handshakeTimeout lag : Nat} {s : World}

/-! ## What a step does -/

/-- The state after a step, with the guards that let it happen. A step they do not let happen
changes nothing. There is one constructor for each event and branch, so an invariant is proved by
cases on it. -/
inductive Outcome (cfg : PoolConfig) (handshakeTimeout : Nat) (s : World) :
    PoolEvent → World → Prop where
  | refused (event : PoolEvent) : Outcome cfg handshakeTimeout s event s
  | elapse (d : Nat) : Outcome cfg handshakeTimeout s (.elapse d) { s with now := s.now + d }
  | skip {wakeAt : Nat} (warm : s.warm = .sleeping wakeAt) (zero : cfg.warmSize = 0) :
    Outcome cfg handshakeTimeout s .wake (s.rest cfg)
  | wake {wakeAt : Nat} (warm : s.warm = .sleeping wakeAt) (pos : cfg.warmSize ≠ 0) :
    Outcome cfg handshakeTimeout s .wake { s with warm := .counting }
  | notice {wakeAt : Nat} (warm : s.warm = .sleeping wakeAt) (stop : s.stop = true) :
    Outcome cfg handshakeTimeout s .notice { s with warm := .exited }
  | enough (warm : s.warm = .counting) (zero : ConnectionPool.toAdd cfg s.idle.length = 0) :
    Outcome cfg handshakeTimeout s .count (s.rest cfg)
  | count (warm : s.warm = .counting) (pos : ConnectionPool.toAdd cfg s.idle.length ≠ 0) :
    Outcome cfg handshakeTimeout s .count { s with
      warm := .connecting (List.range' s.nextId (ConnectionPool.toAdd cfg s.idle.length)) []
      nextId := s.nextId + ConnectionPool.toAdd cfg s.idle.length }
  | failed {pending : List Nat} {newConns : List IdleConn} {id : Nat}
    (warm : s.warm = .connecting pending newConns) (mem : id ∈ pending) :
    Outcome cfg handshakeTimeout s (.joined id false)
      { s with warm := .connecting (pending.erase id) newConns }
  | joined {pending : List Nat} {newConns : List IdleConn} {id : Nat}
    (warm : s.warm = .connecting pending newConns) (mem : id ∈ pending) :
    Outcome cfg handshakeTimeout s (.joined id true)
      { s with warm := .connecting (pending.erase id) (newConns ++ [⟨id, s.now⟩]) }
  | insert {newConns : List IdleConn} (warm : s.warm = .connecting [] newConns) :
    Outcome cfg handshakeTimeout s .insert
      ({ s with idle := ConnectionPool.insertAll cfg s.idle newConns }.rest cfg)
  | acquire : Outcome cfg handshakeTimeout s .acquire
      { s with idle := (ConnectionPool.acquire cfg s.now s.idle).2 }
  | signal : Outcome cfg handshakeTimeout s .signal { s with stop := true }
  | drain (stop : s.stop = true) : Outcome cfg handshakeTimeout s .drain { s with idle := [] }
  | accept {id : Nat} (link : (s.links id).acceptedAt = none) (started : id < s.nextId) :
    Outcome cfg handshakeTimeout s (.accept id)
      { s with links := Function.update s.links id { acceptedAt := some s.now } }
  | timeout {id a : Nat} (link : (s.links id).acceptedAt = some a)
    (late : a + handshakeTimeout ≤ s.now) :
    Outcome cfg handshakeTimeout s (.timeout id)
      { s with links := Function.update s.links id { acceptedAt := some a, timedOut := true } }

theorem step_outcome (cfg : PoolConfig) (handshakeTimeout : Nat) (s : World) (event : PoolEvent) :
    Outcome cfg handshakeTimeout s event (s.step cfg handshakeTimeout event) := by
  -- one case for each branch of the step; where a guard fails nothing has changed
  cases event with
  | elapse d => exact .elapse d
  | wake =>
    rw [step]
    split
    · rename_i wakeAt hwarm
      split
      · split
        · rename_i hzero
          exact .skip hwarm hzero
        · rename_i hpos
          exact .wake hwarm hpos
      · exact .refused _
    · exact .refused _
  | notice =>
    rw [step]
    split
    · rename_i wakeAt hwarm
      split
      · rename_i hstop
        exact .notice hwarm hstop
      · exact .refused _
    · exact .refused _
  | count =>
    rw [step]
    split
    · rename_i hwarm
      dsimp only
      split
      · rename_i hzero
        exact .enough hwarm hzero
      · rename_i hpos
        exact .count hwarm hpos
    · exact .refused _
  -- a connect that has finished is joined once: its id leaves the pending ones
  | joined id ok =>
    rw [step]
    split
    · rename_i pending newConns hwarm
      split
      · rename_i hmem
        cases ok with
        | false => exact .failed hwarm hmem
        | true => exact .joined hwarm hmem
      · exact .refused _
    · exact .refused _
  | insert =>
    rw [step]
    split
    · rename_i newConns hwarm
      exact .insert hwarm
    · exact .refused _
  | acquire => exact .acquire
  | signal => exact .signal
  | drain =>
    rw [step]
    split
    · rename_i hstop
      exact .drain hstop
    · exact .refused _
  | accept id =>
    rw [step]
    split
    · rename_i hlink
      split
      · rename_i hid
        exact .accept hlink hid
      · exact .refused _
    · exact .refused _
  | timeout id =>
    rw [step]
    split
    · rename_i a hlink
      split
      · rename_i hlate
        exact .timeout hlink hlate
      · exact .refused _
    · exact .refused _

/-- The connections that bear a `created_at`: the idle ones and those still to be inserted. The
stamp is the moment of the join, which may be as much as `lag` behind the bridge's accept. -/
def stamped (s : World) : List IdleConn :=
  s.idle ++ match s.warm with
    | .connecting _ newConns => newConns
    | _ => []

/-- The bridge has closed it by its handshake timeout. The pool does not look, so it can still be
idle here. -/
def Dead (s : World) (c : IdleConn) : Prop := (s.links c.id).timedOut = true

/-- A connect is joined at most `lag` after the bridge has accepted it. The pool counts the age of
a connection from when it was joined, the bridge from the accept. -/
def Prompt (lag : Nat) (s : World) : PoolEvent → Prop
  | .joined id true => ∀ a ∈ (s.links id).acceptedAt, s.now ≤ a + lag
  | _ => True

instance (lag : Nat) (s : World) : ∀ event, Decidable (Prompt lag s event)
  | .joined id true => inferInstanceAs (Decidable (∀ a ∈ (s.links id).acceptedAt, _))
  | .joined _ false | .elapse _ | .wake | .notice | .count | .insert | .acquire | .signal
  | .drain | .accept _ | .timeout _ => .isTrue trivial

/-- No call of `acquire` would return a dead connection. Nothing is said of those that are idle
and too old to be returned. -/
def Sound (cfg : PoolConfig) (s : World) : Prop :=
  ∀ c, (ConnectionPool.acquire cfg s.now s.idle).1 = some c → ¬ s.Dead c

/-! ## The two clocks -/

/-- How the two ends' times of a connection are related: it was stamped within `lag` of the
bridge's accept, and what the bridge has closed by its timeout was accepted that long ago. -/
structure Inv (handshakeTimeout lag : Nat) (s : World) : Prop where
  past : ∀ c ∈ s.stamped, c.createdAt ≤ s.now
  accepted : ∀ c ∈ s.stamped, ∀ a, (s.links c.id).acceptedAt = some a → c.createdAt ≤ a + lag
  expired : ∀ id, (s.links id).timedOut = true →
    ∃ a, (s.links id).acceptedAt = some a ∧ a + handshakeTimeout ≤ s.now

/-- A step that moves neither the links nor the clock, and stamps nothing. -/
theorem Inv.of_stamped_subset (inv : Inv handshakeTimeout lag s) {s' : World}
    (hnow : s'.now = s.now) (hlinks : s'.links = s.links)
    (hsub : ∀ c ∈ s'.stamped, c ∈ s.stamped) : Inv handshakeTimeout lag s' := by
  refine ⟨?_, ?_, ?_⟩
  · intro c hc
    rw [hnow]; exact inv.past c (hsub c hc)
  · intro c hc
    rw [hlinks]; exact inv.accepted c (hsub c hc)
  · intro id
    rw [hlinks, hnow]; exact inv.expired id

theorem stamped_of_connecting {pending : List Nat} {newConns : List IdleConn}
    (h : s.warm = .connecting pending newConns) : s.stamped = s.idle ++ newConns := by
  unfold stamped
  rw [h]

theorem mem_stamped_of_mem_idle {c : IdleConn} (h : c ∈ s.idle) : c ∈ s.stamped :=
  List.mem_append_left _ h

theorem Inv.warm (inv : Inv handshakeTimeout lag s) {warm : WarmLoop}
    (hwarm : stamped { s with warm := warm } = s.idle) :
    Inv handshakeTimeout lag { s with warm := warm } := by
  refine inv.of_stamped_subset rfl rfl ?_
  intro c hc
  rw [hwarm] at hc
  exact mem_stamped_of_mem_idle hc

theorem Inv.idle (inv : Inv handshakeTimeout lag s) {idle : List IdleConn}
    (hidle : ∀ c ∈ idle, c ∈ s.idle) : Inv handshakeTimeout lag { s with idle := idle } := by
  refine inv.of_stamped_subset rfl rfl ?_
  intro c hc
  rcases List.mem_append.mp hc with hc | hc
  · exact mem_stamped_of_mem_idle (hidle c hc)
  · exact List.mem_append_right _ hc

theorem Inv.rest (inv : Inv handshakeTimeout lag s) :
    Inv handshakeTimeout lag (s.rest cfg) := by
  unfold World.rest
  exact inv.warm (List.append_nil _)

theorem Inv.elapse (inv : Inv handshakeTimeout lag s) (d : Nat) :
    Inv handshakeTimeout lag { s with now := s.now + d } := by
  refine ⟨?_, inv.accepted, ?_⟩
  · intro c hc
    exact Nat.le_add_right_of_le (inv.past c hc)
  · intro id hid
    obtain ⟨a, ha, hle⟩ := inv.expired id hid
    exact ⟨a, ha, Nat.le_add_right_of_le hle⟩

theorem Inv.joined (inv : Inv handshakeTimeout lag s) {pending : List Nat}
    {newConns : List IdleConn} {id : Nat} (hwarm : s.warm = .connecting pending newConns)
    (hprompt : s.Prompt lag (.joined id true)) : Inv handshakeTimeout lag
      { s with warm := .connecting (pending.erase id) (newConns ++ [⟨id, s.now⟩]) } := by
  -- the one that has just been stamped, and the others
  have hcases : ∀ c ∈ stamped { s with
      warm := .connecting (pending.erase id) (newConns ++ [⟨id, s.now⟩]) },
      c ∈ s.stamped ∨ c = ⟨id, s.now⟩ := by
    intro c hc
    rw [stamped_of_connecting rfl, ← List.append_assoc] at hc
    rw [stamped_of_connecting hwarm]
    rcases List.mem_append.mp hc with hc | hc
    · exact Or.inl hc
    · exact Or.inr (List.mem_singleton.mp hc)
  refine ⟨?_, ?_, inv.expired⟩
  · intro c hc
    rcases hcases c hc with hold | rfl
    · exact inv.past c hold
    · exact Nat.le_refl _
  · intro c hc a ha
    rcases hcases c hc with hold | rfl
    · exact inv.accepted c hold a ha
    · exact hprompt a ha

theorem Inv.accept (inv : Inv handshakeTimeout lag s) (id : Nat) : Inv handshakeTimeout lag
    { s with links := Function.update s.links id { acceptedAt := some s.now } } := by
  refine ⟨inv.past, ?_, ?_⟩
  · intro c hc a ha
    by_cases hc' : c.id = id
    · -- accepted now, so not before it was stamped
      simp only [hc', Function.update_self, Option.some.injEq] at ha
      have := inv.past c hc
      omega
    · simp only [Function.update_of_ne hc'] at ha
      exact inv.accepted c hc a ha
  · intro id' hout
    by_cases hid' : id' = id
    · simp only [hid', Function.update_self, Bool.false_eq_true] at hout
    · simp only [Function.update_of_ne hid'] at hout ⊢
      exact inv.expired id' hout

theorem Inv.timeout (inv : Inv handshakeTimeout lag s) {id a : Nat}
    (hlink : (s.links id).acceptedAt = some a) (hle : a + handshakeTimeout ≤ s.now) :
    Inv handshakeTimeout lag { s with
      links := Function.update s.links id { acceptedAt := some a, timedOut := true } } := by
  -- the time of the accept stays
  have hsame : ∀ id', (Function.update s.links id ⟨some a, true⟩ id').acceptedAt =
      (s.links id').acceptedAt := by
    intro id'
    by_cases hid : id' = id
    · rw [hid, Function.update_self, hlink]
    · rw [Function.update_of_ne hid]
  refine ⟨inv.past, ?_, ?_⟩
  · intro c hc a' ha
    simp only [hsame] at ha
    exact inv.accepted c hc a' ha
  · intro id' hout
    simp only [hsame]
    by_cases hid : id' = id
    · rw [hid]; exact ⟨a, hlink, hle⟩
    · simp only [Function.update_of_ne hid] at hout
      exact inv.expired id' hout

theorem Inv.step (inv : Inv handshakeTimeout lag s) (event : PoolEvent)
    (hprompt : s.Prompt lag event) :
    Inv handshakeTimeout lag (s.step cfg handshakeTimeout event) := by
  generalize hs' : s.step cfg handshakeTimeout event = s'
  have hout := hs' ▸ step_outcome cfg handshakeTimeout s event
  cases hout with
  | refused => exact inv
  | elapse d => exact inv.elapse d
  | skip _ _ => exact inv.rest
  | wake _ _ => exact inv.warm (List.append_nil _)
  | notice _ _ => exact inv.warm (List.append_nil _)
  | enough _ _ => exact inv.rest
  | count _ _ =>
    refine inv.of_stamped_subset rfl rfl ?_
    intro c hc
    rw [stamped_of_connecting rfl, List.append_nil] at hc
    exact mem_stamped_of_mem_idle hc
  | failed hwarm _ =>
    refine inv.of_stamped_subset rfl rfl ?_
    intro c hc
    rw [stamped_of_connecting rfl] at hc
    rw [stamped_of_connecting hwarm]
    exact hc
  | joined hwarm _ => exact inv.joined hwarm hprompt
  | insert hwarm =>
    refine inv.of_stamped_subset rfl rfl ?_
    intro c hc
    rw [World.rest, stamped, List.append_nil] at hc
    rw [stamped_of_connecting hwarm]
    exact List.mem_append.mpr (mem_insertAll hc)
  | acquire => exact inv.idle fun c hc => (acquire_snd_sublist _ _ _).subset hc
  | signal => exact inv.of_stamped_subset rfl rfl fun _ hc => hc
  | drain _ => exact inv.idle (List.forall_mem_nil _)
  | @accept id _ _ => exact inv.accept id
  | timeout hlink hlate => exact inv.timeout hlink hlate

theorem inv_init : Inv handshakeTimeout lag (init cfg) :=
  ⟨by simp [init, stamped], by simp [init, stamped], by simp [init]⟩

/-- Within the handshake timeout, a connection young enough for the pool is alive. It is the only
place where the two timeouts are compared. -/
theorem Inv.sound (inv : Inv handshakeTimeout lag s)
    (hle : fromSecs cfg.idleTimeoutSecs + lag ≤ handshakeTimeout) : s.Sound cfg := by
  intro c hc hdead
  obtain ⟨hmem, hyoung⟩ := acquire_fst_eq_some hc
  obtain ⟨a, ha, hexpired⟩ := inv.expired c.id hdead
  have := inv.past c (mem_stamped_of_mem_idle hmem)
  have := inv.accepted c (mem_stamped_of_mem_idle hmem) a ha
  omega

/-! ## A pool that is not warmed -/

/-- Nothing is idle and the loop only sleeps. In such a pool every `acquire` has to connect by
itself. -/
structure Cold (s : World) : Prop where
  idle : s.idle = []
  warm : s.warm = .exited ∨ ∃ wakeAt, s.warm = .sleeping wakeAt

/-- The loop of a cold pool is neither counting nor connecting: with a warm size of 0 it goes back
to sleep. -/
theorem Cold.not_busy (cold : Cold s) :
    s.warm ≠ .counting ∧ ∀ pending newConns, s.warm ≠ .connecting pending newConns := by
  rcases cold.warm with hwarm | ⟨wakeAt, hwarm⟩ <;> simp [hwarm]

theorem Cold.step (cold : Cold s) (hzero : cfg.warmSize = 0) (event : PoolEvent) :
    Cold (s.step cfg handshakeTimeout event) := by
  generalize hs' : s.step cfg handshakeTimeout event = s'
  have hout := hs' ▸ step_outcome cfg handshakeTimeout s event
  cases hout with
  | refused => exact cold
  | elapse d => exact ⟨cold.idle, cold.warm⟩
  | skip _ _ => exact ⟨cold.idle, Or.inr ⟨_, rfl⟩⟩
  | wake _ hpos => exact absurd hzero hpos
  | notice _ _ => exact ⟨cold.idle, Or.inl rfl⟩
  | enough hwarm _ => exact absurd hwarm cold.not_busy.1
  | count hwarm _ => exact absurd hwarm cold.not_busy.1
  | failed hwarm _ => exact absurd hwarm (cold.not_busy.2 _ _)
  | joined hwarm _ => exact absurd hwarm (cold.not_busy.2 _ _)
  | insert hwarm => exact absurd hwarm (cold.not_busy.2 _ _)
  | acquire =>
    refine ⟨?_, cold.warm⟩
    simp only [cold.idle]
    rfl
  | signal => exact ⟨cold.idle, cold.warm⟩
  | drain _ => exact ⟨rfl, cold.warm⟩
  | accept _ _ => exact ⟨cold.idle, cold.warm⟩
  | timeout _ _ => exact ⟨cold.idle, cold.warm⟩

theorem Cold.sound (cold : Cold s) : s.Sound cfg := by
  intro c hc
  rw [cold.idle] at hc
  exact absurd hc (by simp [ConnectionPool.acquire])

/-! ## A pool that is warmed -/

/-- The others fail one after the other, and no condition is on that. -/
theorem fail_all {newConns : List IdleConn} (ids : List Nat)
    (h : s.warm = .connecting ids newConns) :
    (ids.map (PoolEvent.joined · false)).foldl (step cfg handshakeTimeout) s =
      { s with warm := .connecting [] newConns } ∧
    Meets (step cfg handshakeTimeout) (Prompt lag) s (ids.map (.joined · false)) := by
  induction ids generalizing s with
  | nil =>
    refine ⟨?_, trivial⟩
    rw [← h]
    rfl
  | cons id ids ih =>
    have hstep : s.step cfg handshakeTimeout (.joined id false) =
        { s with warm := .connecting ids newConns } := by
      simp only [step, h, List.mem_cons_self, if_true, List.erase_cons_head, Bool.false_eq_true,
        if_false]
    rw [List.map_cons, List.foldl_cons, Meets, hstep]
    obtain ⟨hrun, hmeets⟩ := ih (s := { s with warm := .connecting ids newConns }) rfl
    exact ⟨hrun, trivial, hmeets⟩

/-- A round's first events: its connects are started, the bridge accepts the first of them, and
that is joined as late as it may be. -/
def opening (interval lag : Nat) : List PoolEvent :=
  [.elapse interval, .wake, .count, .accept 0, .elapse lag, .joined 0 true]

/-- A round's last events, and then no call for as long as the bridge waits. -/
def waiting (handshakeTimeout lag : Nat) : List PoolEvent :=
  [.insert, .elapse (handshakeTimeout - lag), .timeout 0]

/-- The first connect has been joined, the others are pending. -/
def oneJoined (interval lag nextId : Nat) (pending : List Nat) : World where
  now := interval + lag
  idle := []
  warm := .connecting pending [⟨0, interval + lag⟩]
  stop := false
  nextId := nextId
  links := Function.update (fun _ => {}) 0 { acceptedAt := some interval }

theorem opening_run {m interval : Nat} (hinterval : fromSecs cfg.warmIntervalSecs = interval)
    (hwarm : cfg.warmSize ≠ 0) (hadd : ConnectionPool.toAdd cfg 0 = m + 1) :
    (opening interval lag).foldl (step cfg handshakeTimeout) (init cfg) =
      oneJoined interval lag (m + 1) (List.range' 1 m) ∧
    Meets (step cfg handshakeTimeout) (Prompt lag) (init cfg) (opening interval lag) := by
  unfold opening init
  rw [hinterval]
  constructor
  · simp [step, oneJoined, hwarm, hadd, List.range'_succ]
  · simp [Meets, Prompt, step, hwarm, hadd]

/-- The connection is idle, the pool finds it young, and the bridge has given it up. It is reached
whenever the timeouts are the wrong way round, whatever else is configured. -/
theorem waiting_unsound (interval nextId : Nat) (hmax : 1 ≤ cfg.maxSize)
    (hlag : handshakeTimeout < fromSecs cfg.idleTimeoutSecs + lag)
    (hidle : 0 < fromSecs cfg.idleTimeoutSecs) :
    ¬ ((waiting handshakeTimeout lag).foldl (step cfg handshakeTimeout)
      (oneJoined interval lag nextId [])).Sound cfg := by
  generalize htimeout : fromSecs cfg.idleTimeoutSecs = idleTimeout at hlag hidle
  have hroom : ¬ cfg.maxSize ≤ 0 := Nat.not_le.mpr hmax
  have htime : interval + handshakeTimeout ≤ interval + lag + (handshakeTimeout - lag) := by
    omega
  have hyoung : ¬ idleTimeout ≤ handshakeTimeout - lag := by omega
  intro hsound
  apply hsound ⟨0, interval + lag⟩
  · simp [waiting, step, oneJoined, World.rest, ConnectionPool.insertAll, hroom, htime,
      ConnectionPool.acquire, htimeout, hyoung]
  · simp [waiting, step, oneJoined, World.rest, Dead, htime]

theorem exists_unsound (valid : cfg.Valid) (hwarm : cfg.warmSize ≠ 0)
    (hlag : handshakeTimeout < fromSecs cfg.idleTimeoutSecs + lag) :
    ¬ ∀ events, Meets (step cfg handshakeTimeout) (Prompt lag) (init cfg) events →
      (run cfg handshakeTimeout events).Sound cfg := by
  intro hall
  have hidle : 0 < fromSecs cfg.idleTimeoutSecs := Nat.mul_pos valid.idleTimeout (by decide)
  obtain ⟨m, hadd⟩ : ∃ m, ConnectionPool.toAdd cfg 0 = m + 1 := by
    have := valid.maxSize
    exact Nat.exists_eq_succ_of_ne_zero (by unfold ConnectionPool.toAdd; omega)
  obtain ⟨interval, hinterval⟩ : ∃ i, fromSecs cfg.warmIntervalSecs = i := ⟨_, rfl⟩
  obtain ⟨hopen, hmeets⟩ := @opening_run cfg handshakeTimeout lag m _ hinterval hwarm hadd
  obtain ⟨hfail, hmeets'⟩ := @fail_all cfg handshakeTimeout lag
    (oneJoined interval lag (m + 1) (List.range' 1 m)) _ (List.range' 1 m) rfl
  apply waiting_unsound interval (m + 1) valid.maxSize hlag hidle
  have hsound := hall (opening interval lag ++ (List.range' 1 m).map (.joined · false) ++
    waiting handshakeTimeout lag) ?_
  · rw [run, List.foldl_append, List.foldl_append, hopen, hfail] at hsound
    exact hsound
  · rw [meets_append, meets_append, List.foldl_append, hopen, hfail]
    exact ⟨⟨hmeets, hmeets'⟩, by simp [waiting, Meets, Prompt]⟩

end World

/-! ## The two settings -/

/-- **Dead on arrival.** For every pair of accepted configurations and every `lag`, `acquire`
returns no connection the bridge has closed by its handshake timeout, in every run whose connects
are joined within `lag` of their accept, exactly when the pool is not warmed or its idle timeout
and the lag are within the bridge's handshake timeout. -/
theorem pooled_alive_iff {host : Bridge.Host} {bridge : Bridge.Config}
    {bridgeValid : Bridge.RunConfig} {client : ClientConfig} {clientValid : RunConfig}
    (hbridge : bridge.validate host = .ok bridgeValid) (hclient : client.validate = .ok clientValid)
    (lag : Nat) :
    (∀ events, Meets (World.step clientValid.pool (fromSecs bridgeValid.handshakeTimeoutSecs))
        (World.Prompt lag) (World.init clientValid.pool) events →
      (World.run clientValid.pool (fromSecs bridgeValid.handshakeTimeoutSecs) events).Sound
        clientValid.pool) ↔
    client.pool.warmSize = 0 ∨
      fromSecs client.pool.idleTimeoutSecs + lag ≤
        fromSecs bridge.server.handshakeTimeoutSecs := by
  obtain ⟨-, -, carried⟩ := Bridge.Config.validate_eq_ok hbridge
  obtain ⟨hpool, valid, -, -⟩ := ClientConfig.validate_eq_ok hclient
  rw [← hpool, ← carried.handshakeTimeoutSecs]
  generalize fromSecs bridgeValid.handshakeTimeoutSecs = handshakeTimeout
  generalize clientValid.pool = cfg at valid
  constructor
  · intro hall
    by_contra hnot
    obtain ⟨hwarm, hlag⟩ := not_or.mp hnot
    exact World.exists_unsound valid hwarm (Nat.not_le.mp hlag) hall
  · rintro (hzero | hle) events hmeets
    · have cold : World.Cold (World.run cfg handshakeTimeout events) :=
        hmeets.invariant (fun s event hs _ => hs.step hzero event) ⟨rfl, Or.inr ⟨_, rfl⟩⟩
      exact cold.sound
    · have inv : World.Inv handshakeTimeout lag (World.run cfg handshakeTimeout events) :=
        hmeets.invariant (fun s event hs hprompt => hs.step event hprompt) World.inv_init
      exact inv.sound hle

/-- A bridge that differs from the defaults in its handshake timeout alone. -/
def patientBridge (handshakeTimeoutSecs : UInt64) : Bridge.Config where
  server := { handshakeTimeoutSecs := handshakeTimeoutSecs }
  auth := { requireClientAuth := false }

/-- With 30 seconds at either end. -/
theorem pooled_alive_of_equal_timeouts : ∃ bridgeValid clientValid,
    (patientBridge 30).validate Bridge.sampleHost = .ok bridgeValid ∧
    ClientConfig.validate {} = .ok clientValid ∧
    ∀ events, Meets (World.step clientValid.pool (fromSecs bridgeValid.handshakeTimeoutSecs))
        (World.Prompt 0) (World.init clientValid.pool) events →
      (World.run clientValid.pool (fromSecs bridgeValid.handshakeTimeoutSecs) events).Sound
        clientValid.pool := by
  have hbridge : ((patientBridge 30).validate Bridge.sampleHost).toOption.map (fun _ => ()) =
      some () := by decide +kernel
  have hclient : (ClientConfig.validate {}).toOption.map (fun _ => ()) = some () := by
    decide +kernel
  obtain ⟨bridgeValid, hbridge, -⟩ := exists_ok_of_map hbridge
  obtain ⟨clientValid, hclient, -⟩ := exists_ok_of_map hclient
  refine ⟨bridgeValid, clientValid, hbridge, hclient, ?_⟩
  exact (pooled_alive_iff hbridge hclient 0).mpr (Or.inr (Nat.le_refl _))

/-- Five seconds to the first round, and then ten without a call. -/
def quietMorning : List PoolEvent :=
  [.elapse 5000000000, .wake, .count, .accept 0, .joined 0 true, .accept 1, .joined 1 true,
    .insert, .elapse 10000000000, .timeout 0, .timeout 1]

/-- With the defaults of both programs, `acquire` returns a connection that is closed. -/
theorem pooled_dead_by_default : ∃ bridgeValid clientValid,
    (patientBridge 10).validate Bridge.sampleHost = .ok bridgeValid ∧
    ClientConfig.validate {} = .ok clientValid ∧
    Meets (World.step clientValid.pool (fromSecs bridgeValid.handshakeTimeoutSecs))
      (World.Prompt 0) (World.init clientValid.pool) quietMorning ∧
    ¬ (World.run clientValid.pool (fromSecs bridgeValid.handshakeTimeoutSecs)
      quietMorning).Sound clientValid.pool := by
  have hbridge : ((patientBridge 10).validate Bridge.sampleHost).toOption.map
      (·.handshakeTimeoutSecs) = some 10 := by decide +kernel
  have hclient : (ClientConfig.validate {}).toOption.map (·.pool) = some {} := by decide +kernel
  obtain ⟨bridgeValid, hbridge, htimeout⟩ := exists_ok_of_map hbridge
  obtain ⟨clientValid, hclient, hpool⟩ := exists_ok_of_map hclient
  refine ⟨bridgeValid, clientValid, hbridge, hclient, ?_⟩
  rw [htimeout, hpool]
  refine ⟨by decide +kernel, ?_⟩
  intro hsound
  apply hsound ⟨0, 5000000000⟩
  · decide +kernel
  · show _ = true
    decide +kernel

end LatticeShield.Client
