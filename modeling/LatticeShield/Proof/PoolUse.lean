import LatticeShield.Lib.Lists
import LatticeShield.Proof.Pool

/-!
# What the callers of the pool get, and what `shutdown` leaves behind

`warm_loop` counts, lets go of the lock, and inserts long after; `acquire` looks at the front of
the queue alone. Two things make up for it. Every connection has a name of its own, which is in one
place only: among the connects of the loop, in the queue, among the connects of the callers, or
with the caller it was returned to. And the queue is in the order of `created_at`, together with
what the loop has still to insert, since that was stamped later than anything in the queue.

`shutdown` has no such help: the loop looks at the signal between two rounds only, and a round that
is under way when the queue is drained fills it again.
-/

set_option autoImplicit false

namespace LatticeShield.Client

open Lib

namespace World

variable {cfg : PoolConfig} {handshakeTimeout : Nat} {s : World}

/-! ## The loop's connections -/

/-- The connects of the loop that are still to be joined. -/
def pending (s : World) : List Nat :=
  match s.warm with
  | .connecting pending _ => pending
  | _ => []

/-- Those that succeeded and are still to be inserted. -/
def newConns (s : World) : List IdleConn :=
  match s.warm with
  | .connecting _ newConns => newConns
  | _ => []

theorem pending_of_connecting {pending : List Nat} {newConns : List IdleConn}
    (h : s.warm = .connecting pending newConns) : s.pending = pending := by
  rw [World.pending, h]

theorem newConns_of_connecting {pending : List Nat} {newConns : List IdleConn}
    (h : s.warm = .connecting pending newConns) : s.newConns = newConns := by
  rw [World.newConns, h]

/-- Connections leave, and none comes or changes its place. Steps that only take away are all of
this kind. -/
structure Shrinks (s s' : World) : Prop where
  now : s.now ≤ s'.now
  nextId : s'.nextId = s.nextId
  idle : s'.idle.Sublist s.idle
  newConns : s'.newConns.Sublist s.newConns
  pending : s'.pending.Sublist s.pending

/-- What a step does with the connections: they leave or stay where they are, a round draws the
next names, one of its connects is joined, or what has been joined goes to the back of the queue.
Each case says what becomes of every list of names, so that no name can be in two of them. -/
inductive Moves (cfg : PoolConfig) (s s' : World) : Prop where
  | leave (shrinks : Shrinks s s')
  /-- A round starts its connects. -/
  | draw (k : Nat) (now : s'.now = s.now) (nextId : s'.nextId = s.nextId + k)
    (idle : s'.idle = s.idle) (newConns : s'.newConns = [])
    (pending : s'.pending = List.range' s.nextId k)
  /-- A connect is joined. -/
  | join (id : Nat) (now : s'.now = s.now) (nextId : s'.nextId = s.nextId)
    (idle : s'.idle = s.idle) (newConns : s'.newConns = s.newConns ++ [⟨id, s.now⟩])
    (mem : id ∈ s.pending) (pending : s'.pending = s.pending.erase id)
  | insert (now : s'.now = s.now) (nextId : s'.nextId = s.nextId)
    (idle : s'.idle = ConnectionPool.insertAll cfg s.idle s.newConns) (newConns : s'.newConns = [])
    (pending : s'.pending = [])

theorem step_moves (cfg : PoolConfig) (handshakeTimeout : Nat) (s : World) (event : PoolEvent) :
    Moves cfg s (s.step cfg handshakeTimeout event) := by
  generalize hs' : s.step cfg handshakeTimeout event = s'
  have hout := hs' ▸ step_outcome cfg handshakeTimeout s event
  have hnil := fun l : List IdleConn => List.nil_sublist l
  have hnil' := fun l : List Nat => List.nil_sublist l
  -- `insert` is the only branch that adds to the idle connections
  cases hout with
  | refused => exact .leave ⟨Nat.le_refl _, rfl, .refl _, .refl _, .refl _⟩
  | elapse d => exact .leave ⟨Nat.le_add_right _ d, rfl, .refl _, .refl _, .refl _⟩
  | skip _ _ => exact .leave ⟨Nat.le_refl _, rfl, .refl _, hnil _, hnil' _⟩
  | wake _ _ => exact .leave ⟨Nat.le_refl _, rfl, .refl _, hnil _, hnil' _⟩
  | notice _ _ => exact .leave ⟨Nat.le_refl _, rfl, .refl _, hnil _, hnil' _⟩
  | enough _ _ => exact .leave ⟨Nat.le_refl _, rfl, .refl _, hnil _, hnil' _⟩
  | count _ _ => exact .draw _ rfl rfl rfl rfl rfl
  | failed hwarm _ =>
    refine .leave ⟨Nat.le_refl _, rfl, .refl _, ?_, ?_⟩
    · rw [newConns_of_connecting hwarm]
      exact .refl _
    · rw [pending_of_connecting hwarm]
      exact List.erase_sublist
  | @joined pending newConns id hwarm hmem =>
    refine .join id rfl rfl rfl ?_ ?_ ?_
    · rw [newConns_of_connecting hwarm]
      rfl
    · rwa [pending_of_connecting hwarm]
    · rw [pending_of_connecting hwarm]
      rfl
  | insert hwarm =>
    refine .insert rfl rfl ?_ rfl rfl
    rw [newConns_of_connecting hwarm]
    rfl
  | acquire => exact .leave ⟨Nat.le_refl _, rfl, acquire_snd_sublist _ _ _, .refl _, .refl _⟩
  | signal => exact .leave ⟨Nat.le_refl _, rfl, .refl _, .refl _, .refl _⟩
  | drain _ => exact .leave ⟨Nat.le_refl _, rfl, hnil _, .refl _, .refl _⟩
  | accept _ _ => exact .leave ⟨Nat.le_refl _, rfl, .refl _, .refl _, .refl _⟩
  | timeout _ _ => exact .leave ⟨Nat.le_refl _, rfl, .refl _, .refl _, .refl _⟩

/-! ## Names -/

def ids (s : World) : List Nat :=
  s.idle.map (·.id) ++ s.newConns.map (·.id) ++ s.pending

theorem Shrinks.ids {s' : World} (h : Shrinks s s') : s'.ids.Sublist s.ids :=
  ((h.idle.map _).append (h.newConns.map _)).append h.pending

/-- Names are kept or dropped, or the next ones are drawn. With this no name is ever in two
places. -/
theorem Moves.ids {s' : World} (h : Moves cfg s s') :
    ∃ k, s'.nextId = s.nextId + k ∧
      ∀ id, s'.ids.count id ≤ (s.ids ++ List.range' s.nextId k).count id := by
  cases h with
  | leave shrinks =>
    refine ⟨0, shrinks.nextId, ?_⟩
    intro id
    rw [List.range'_zero, List.append_nil]
    exact shrinks.ids.count_le id
  | draw k _ hnext hidle hnew hpending =>
    refine ⟨k, hnext, ?_⟩
    intro id
    simp only [World.ids, hidle, hnew, hpending, List.count_append, List.map_nil, List.count_nil]
    omega
  | join new _ hnext hidle hnew hmem hpending =>
    refine ⟨0, hnext, ?_⟩
    intro id
    have hcount := (List.perm_cons_erase hmem).count_eq id
    rw [List.count_cons] at hcount
    simp only [World.ids, hidle, hnew, hpending, List.count_append, List.map_append, List.map_cons,
      List.map_nil, List.count_cons, List.count_nil]
    omega
  | insert _ hnext hidle hnew hpending =>
    refine ⟨0, hnext, ?_⟩
    intro id
    have hsub := List.take_sublist (cfg.maxSize - s.idle.length) (s.newConns.map (·.id))
    have hcount := hsub.count_le id
    simp only [World.ids, hidle, hnew, hpending, insertAll_eq, List.count_append, List.map_append,
      List.map_take, List.map_nil, List.count_nil]
    omega

/-! ## Times -/

/-- The queue and what is still to be inserted, oldest first, and none of it stamped later than
now. -/
structure Timely (s : World) : Prop where
  past : ∀ c ∈ s.idle ++ s.newConns, c.createdAt ≤ s.now
  ordered : (s.idle ++ s.newConns).Pairwise fun a b => a.createdAt ≤ b.createdAt

theorem Timely.of_sublist (h : Timely s) {s' : World} (hnow : s.now ≤ s'.now)
    (hsub : (s'.idle ++ s'.newConns).Sublist (s.idle ++ s.newConns)) : Timely s' := by
  refine ⟨?_, h.ordered.sublist hsub⟩
  intro c hc
  exact (h.past c (hsub.subset hc)).trans hnow

theorem Timely.moves (h : Timely s) {s' : World} (hmoves : Moves cfg s s') : Timely s' := by
  cases hmoves with
  | leave shrinks => exact h.of_sublist shrinks.now (shrinks.idle.append shrinks.newConns)
  | draw k hnow _ hidle hnew _ =>
    refine h.of_sublist hnow.ge ?_
    rw [hidle, hnew]
    exact (List.Sublist.refl _).append (List.nil_sublist _)
  | join id hnow _ hidle hnew _ _ =>
    -- stamped now, and so later than all the others
    have hsnoc : s'.idle ++ s'.newConns = s.idle ++ s.newConns ++ [⟨id, s.now⟩] := by
      rw [hidle, hnew, List.append_assoc]
    refine ⟨?_, ?_⟩
    · rw [hsnoc, hnow]
      exact forall_mem_snoc.mpr ⟨h.past, Nat.le_refl _⟩
    · rw [hsnoc, pairwise_snoc]
      exact ⟨h.ordered, h.past⟩
  | insert hnow _ hidle hnew _ =>
    refine h.of_sublist hnow.ge ?_
    rw [hidle, hnew, insertAll_eq, List.append_nil]
    exact (List.Sublist.refl _).append (List.take_sublist _ _)

theorem Moves.length_le {s' : World} (hmoves : Moves cfg s s')
    (h : s.idle.length ≤ cfg.maxSize) : s'.idle.length ≤ cfg.maxSize := by
  cases hmoves with
  | leave shrinks => exact shrinks.idle.length_le.trans h
  | draw _ _ _ hidle _ _ => rwa [hidle]
  | join _ _ _ hidle _ _ _ => rwa [hidle]
  | insert _ _ hidle _ _ =>
    rw [hidle, insertAll_eq, List.length_append, List.length_take]
    omega

end World

namespace Pool

variable {cfg : PoolConfig} {handshakeTimeout : Nat} {s : Pool}

/-! ## The callers -/

def ids (s : Pool) : List Nat := s.world.ids ++ s.connects ++ s.returned.map Returned.id

/-- What holds in every state of the pool. -/
structure Inv (cfg : PoolConfig) (s : Pool) : Prop where
  timely : s.world.Timely
  drawn : Drawn s.world.nextId s.ids
  bounded : s.world.idle.length ≤ cfg.maxSize
  young : ∀ conn checkedAt, Returned.pooled conn checkedAt ∈ s.returned →
    conn.createdAt ≤ checkedAt ∧ checkedAt - conn.createdAt < fromSecs cfg.idleTimeoutSecs

theorem inv_init : Inv cfg (init cfg) where
  timely := ⟨by simp [init, World.init, World.newConns], by simp [init, World.init, World.newConns]⟩
  drawn := ⟨by simp [ids, init, World.ids, World.init, World.newConns, World.pending],
    by simp [ids, init, World.ids, World.init, World.newConns, World.pending]⟩
  bounded := Nat.zero_le _
  young := by simp [init]

/-- The world moves, and the callers have nothing to do with it. -/
theorem Inv.moves (inv : Inv cfg s) {world : World} (hmoves : World.Moves cfg s.world world)
    {locked down : Bool} : Inv cfg { s with world, locked, down } where
  timely := inv.timely.moves hmoves
  drawn := by
    obtain ⟨k, hnext, hcount⟩ := hmoves.ids
    show Drawn world.nextId _
    rw [hnext]
    refine inv.drawn.of_count_le ?_
    intro id
    have := hcount id
    simp only [ids, List.count_append] at this ⊢
    omega
  bounded := hmoves.length_le inv.bounded
  young := inv.young

/-- A caller that finds the queue empty draws a name for its connect. -/
theorem Inv.connect (inv : Inv cfg s) : Inv cfg { s with
    world := { s.world with nextId := s.world.nextId + 1 }
    locked := false
    connects := s.connects ++ [s.world.nextId] } where
  timely := ⟨inv.timely.past, inv.timely.ordered⟩
  drawn := by
    refine inv.drawn.of_count_le ?_
    intro id
    have hworld : World.ids { s.world with nextId := s.world.nextId + 1 } = s.world.ids := rfl
    simp only [ids, hworld, List.count_append, List.range'_one]
    omega
  bounded := inv.bounded
  young := inv.young

/-- A caller takes the connection at the front, which it has just found young enough. Its name
moves from the queue to what was returned. -/
theorem Inv.take (inv : Inv cfg s) {conn : IdleConn} {rest : List IdleConn}
    (hidle : s.world.idle = conn :: rest)
    (hyoung : ¬ fromSecs cfg.idleTimeoutSecs ≤ s.world.now - conn.createdAt) : Inv cfg { s with
      world := { s.world with idle := rest }
      locked := false
      returned := s.returned ++ [.pooled conn s.world.now] } where
  timely := by
    refine inv.timely.of_sublist (Nat.le_refl _) ?_
    rw [hidle]
    exact (List.sublist_cons_self conn rest).append (.refl _)
  drawn := by
    refine inv.drawn.of_count_le (k := 0) ?_
    intro id
    have hworld : World.ids { s.world with idle := rest } =
      rest.map (·.id) ++ s.world.newConns.map (·.id) ++ s.world.pending := rfl
    simp only [ids, hworld]
    simp only [World.ids, hidle, List.count_append, List.map_append, List.map_cons, List.map_nil,
      List.count_cons, List.count_nil, Returned.id]
    omega
  bounded := by
    refine Nat.le_trans ?_ inv.bounded
    rw [hidle]
    exact Nat.le_succ _
  young := by
    intro conn' checkedAt hmem
    rcases List.mem_append.mp hmem with hold | hnew
    · exact inv.young conn' checkedAt hold
    · obtain ⟨rfl, rfl⟩ := Returned.pooled.inj (List.mem_singleton.mp hnew)
      refine ⟨inv.timely.past conn' ?_, Nat.not_le.mp hyoung⟩
      rw [hidle]
      exact List.mem_append_left _ List.mem_cons_self

theorem Inv.check (inv : Inv cfg s) : Inv cfg (s.check cfg) := by
  rw [Pool.check]
  split
  · exact inv.connect
  · rename_i conn rest hidle
    split
    · have hevict : World.Shrinks s.world { s.world with idle := rest } := by
        refine ⟨Nat.le_refl _, rfl, ?_, .refl _, .refl _⟩
        rw [hidle]
        exact List.sublist_cons_self conn rest
      exact inv.moves (.leave hevict)
    · rename_i hyoung
      exact inv.take hidle hyoung

theorem Inv.connected (inv : Inv cfg s) {id : Nat} (ok : Bool) (hmem : id ∈ s.connects) :
    Inv cfg { s with
      connects := s.connects.erase id
      returned := if ok then s.returned ++ [.fresh id] else s.returned } where
  timely := inv.timely
  drawn := by
    refine inv.drawn.of_count_le (k := 0) ?_
    intro id'
    have hcount := (List.perm_cons_erase hmem).count_eq id'
    rw [List.count_cons] at hcount
    cases ok <;>
      simp only [ids, List.count_append, List.map_append, List.map_cons, List.map_nil,
        List.count_cons, List.count_nil, Returned.id, if_true, Bool.false_eq_true, if_false] <;>
      omega
  bounded := inv.bounded
  young := by
    intro conn checkedAt hreturned
    cases ok with
    | false => exact inv.young conn checkedAt hreturned
    | true =>
      rcases List.mem_append.mp hreturned with hold | hnew
      · exact inv.young conn checkedAt hold
      · cases List.mem_singleton.mp hnew

theorem Inv.step (inv : Inv cfg s) (call : PoolCall) :
    Inv cfg (s.step cfg handshakeTimeout call) := by
  cases call with
  | pool event =>
    rw [Pool.step]
    split
    · exact inv
    · split
      · exact ⟨inv.timely, inv.drawn, inv.bounded, inv.young⟩
      · exact inv.moves (World.step_moves cfg handshakeTimeout s.world event)
  | check =>
    rw [Pool.step]
    split
    · exact inv.check
    · exact inv
  | connected id ok =>
    rw [Pool.step]
    split
    · rename_i hmem
      exact inv.connected ok hmem
    · exact inv

theorem inv_run (cfg : PoolConfig) (handshakeTimeout : Nat) (calls : List PoolCall) :
    Inv cfg (run cfg handshakeTimeout calls) :=
  List.foldlRecOn _ _ inv_init fun _ inv call _ => inv.step call

end Pool

/-- **The pool.** For every accepted configuration, and whatever the callers, the loop, `shutdown`
and the clock do in whatever order: the queue is bounded, in the order of `created_at` and without
repetition, no connection is returned twice or stays in the queue, and one from the queue was
young enough when it was looked at. -/
theorem pool_invariant {config : ClientConfig} {valid : RunConfig}
    (hvalid : config.validate = .ok valid) (handshakeTimeout : Nat) (calls : List PoolCall) :
    let s := Pool.run valid.pool handshakeTimeout calls
    s.world.idle.length ≤ config.pool.maxSize ∧
    s.world.idle.Pairwise (fun a b => a.createdAt ≤ b.createdAt) ∧
    (s.world.idle.map (·.id)).Nodup ∧
    (s.returned.map Returned.id).Nodup ∧
    (∀ r ∈ s.returned, ∀ c ∈ s.world.idle, r.id ≠ c.id) ∧
    ∀ conn checkedAt, Returned.pooled conn checkedAt ∈ s.returned →
      conn.createdAt ≤ checkedAt ∧
      checkedAt - conn.createdAt < fromSecs config.pool.idleTimeoutSecs := by
  obtain ⟨hpool, -, -, -⟩ := ClientConfig.validate_eq_ok hvalid
  intro s
  have inv : Pool.Inv config.pool s := hpool ▸ Pool.inv_run valid.pool handshakeTimeout calls
  have hidle : (s.world.idle.map (·.id)).Sublist s.world.ids :=
    (List.sublist_append_left _ _).trans (List.sublist_append_left _ _)
  have hnodup := inv.drawn.nodup
  rw [Pool.ids, List.append_assoc, List.nodup_append] at hnodup
  obtain ⟨hworld, hcallers, hapart⟩ := hnodup
  refine ⟨inv.bounded, ?_, hworld.sublist hidle, ?_, ?_, inv.young⟩
  · exact inv.timely.ordered.sublist (List.sublist_append_left _ _)
  · exact hcallers.sublist (List.sublist_append_right _ _)
  · intro r hr c hc heq
    have hc' := hidle.subset (List.mem_map_of_mem hc)
    exact hapart _ hc' _ (List.mem_append_right _ (List.mem_map_of_mem hr)) heq.symm

/-- A round of two connects, and two calls: one gets a connection of the queue, and the other
comes when what is left there is too old. -/
def twoCalls : List PoolCall :=
  [.pool (.elapse 5000000000), .pool .wake, .pool .count, .pool (.joined 1 true),
    .pool (.joined 0 true), .pool .insert, .pool .acquire, .check, .pool (.elapse 30000000000),
    .pool .acquire, .check, .check, .connected 2 true]

theorem pool_invariant_two_calls : ∃ valid, ClientConfig.validate {} = .ok valid ∧
    (Pool.run valid.pool 0 twoCalls).returned = [.pooled ⟨1, 5000000000⟩ 5000000000, .fresh 2] ∧
    ((Pool.run valid.pool 0 twoCalls).returned.map Returned.id).Nodup := by
  have hclient : (ClientConfig.validate {}).toOption.map (·.pool) = some {} := by decide +kernel
  obtain ⟨valid, hvalid, hpool⟩ := exists_ok_of_map hclient
  refine ⟨valid, hvalid, ?_, (pool_invariant hvalid 0 twoCalls).2.2.2.1⟩
  rw [hpool]
  decide +kernel

/-! ## The two models of `acquire` -/

namespace Pool

variable {cfg : PoolConfig} {handshakeTimeout : Nat} {s : Pool}

/-- What the queue and the callers have after an `acquire`, if no time passes in its loop. -/
def afterAcquire (cfg : PoolConfig) (s : Pool) : Pool :=
  let (taken, idle) := ConnectionPool.acquire cfg s.world.now s.world.idle
  match taken with
  | some conn => { s with
      world := { s.world with idle }
      locked := false
      returned := s.returned ++ [.pooled conn s.world.now] }
  | none => { s with
      world := { s.world with idle, nextId := s.world.nextId + 1 }
      locked := false
      connects := s.connects ++ [s.world.nextId] }

theorem step_check_of_unlocked (h : s.locked = false) (n : Nat) :
    (List.replicate n PoolCall.check).foldl (step cfg handshakeTimeout) s = s := by
  induction n with
  | zero => rfl
  | succ n ih =>
    have hstep : s.step cfg handshakeTimeout .check = s := by
      rw [step, h]
      rfl
    rw [List.replicate_succ, List.foldl_cons, hstep, ih]

/-- The loop looks at the connections one after the other; with the clock standing still it does
what the block does at once. This ties the fine-grained calls of this module to the single step of
`Client.Pool`. -/
theorem checks_eq_afterAcquire (h : s.locked = true) :
    (List.replicate (s.world.idle.length + 1) PoolCall.check).foldl (step cfg handshakeTimeout) s =
      s.afterAcquire cfg := by
  generalize hidle : s.world.idle = idle
  induction idle generalizing s with
  | nil =>
    have hacquire : ConnectionPool.acquire cfg s.world.now [] = (none, []) := rfl
    rw [List.length_nil, List.replicate_one, List.foldl_cons, List.foldl_nil, step, if_pos h, check,
      afterAcquire, hidle, hacquire]
    simp only [hidle]
  | cons conn rest ih =>
    rw [List.length_cons, List.replicate_succ, List.foldl_cons]
    by_cases hstale : fromSecs cfg.idleTimeoutSecs ≤ s.world.now - conn.createdAt
    · -- it is evicted, and the loop goes on with the rest
      have hstep : s.step cfg handshakeTimeout .check =
          { s with world := { s.world with idle := rest } } := by
        rw [step, if_pos h, check, hidle]
        exact if_pos hstale
      have hacquire : ConnectionPool.acquire cfg s.world.now (conn :: rest) =
          ConnectionPool.acquire cfg s.world.now rest := by
        rw [ConnectionPool.acquire, List.dropWhile_cons_of_pos (by simpa using hstale)]
        rfl
      rw [hstep, ih (s := { s with world := { s.world with idle := rest } }) h rfl, afterAcquire,
        afterAcquire, hidle, hacquire]
    · have hstep : s.step cfg handshakeTimeout .check = { s with
          world := { s.world with idle := rest }
          locked := false
          returned := s.returned ++ [.pooled conn s.world.now] } := by
        rw [step, if_pos h, check, hidle]
        exact if_neg hstale
      have hacquire : ConnectionPool.acquire cfg s.world.now (conn :: rest) =
          (some conn, rest) := by
        rw [ConnectionPool.acquire, List.dropWhile_cons_of_neg (by simpa using hstale)]
      rw [hstep, step_check_of_unlocked rfl, afterAcquire, hidle, hacquire]

end Pool

/-! ## After `shutdown` -/

/-- Only the insertion of a round fills an empty queue. So a pool that was drained stays empty
unless a round was under way. -/
theorem World.idle_step_eq_nil {cfg : PoolConfig} {handshakeTimeout : Nat} {s : World}
    {event : PoolEvent} (h : s.idle = [])
    (hinsert : event = .insert → s.pending = [] → s.newConns = []) :
    (s.step cfg handshakeTimeout event).idle = [] := by
  generalize hs' : s.step cfg handshakeTimeout event = s'
  have hout := hs' ▸ step_outcome cfg handshakeTimeout s event
  cases hout with
  | insert hwarm =>
    have hnew := hinsert rfl (pending_of_connecting hwarm)
    rw [newConns_of_connecting hwarm] at hnew
    rw [hnew]
    exact h
  | acquire => exact List.sublist_nil.mp (h ▸ acquire_snd_sublist cfg s.now s.idle)
  | drain _ => rfl
  | refused | elapse | skip | wake | notice | enough | count | failed | joined | signal | accept
  | timeout => exact h

namespace Pool

variable {cfg : PoolConfig} {handshakeTimeout : Nat} {s : Pool}

/-- `warm_loop` has joined its connects, some of them succeeded, and it has the lock to insert
them. -/
def Inserts (s : Pool) (call : PoolCall) : Prop :=
  call = .pool .insert ∧ s.locked = false ∧ s.world.pending = [] ∧ s.world.newConns ≠ []

/-- Nothing is inserted once `shutdown` has returned. The loop may still be joining connects at
that time, and then it inserts them. -/
def Settled (s : Pool) (call : PoolCall) : Prop := s.down = true → ¬ s.Inserts call

instance (s : Pool) (call : PoolCall) : Decidable (s.Settled call) :=
  inferInstanceAs (Decidable (s.down = true → ¬ (call = .pool .insert ∧ s.locked = false ∧
    s.world.pending = [] ∧ s.world.newConns ≠ [])))

def Empty (s : Pool) : Prop := s.down = true → s.world.idle = []

theorem check_down (s : Pool) : (s.check cfg).down = s.down := by
  rw [check]
  split
  · rfl
  · split
    · rfl
    · rfl

theorem Empty.step (h : s.Empty) {call : PoolCall} (hsettled : s.Settled call) :
    (s.step cfg handshakeTimeout call).Empty := by
  cases call with
  | pool event =>
    rw [Pool.step]
    split
    · exact h
    · rename_i hfree
      split
      · exact h
      · intro hdown
        rcases (Bool.or_eq_true _ _).mp hdown with hwas | hdrain
        · refine World.idle_step_eq_nil (h hwas) ?_
          rintro rfl hpending
          by_contra hnew
          exact hsettled hwas ⟨rfl, by simpa [PoolEvent.locks] using hfree, hpending, hnew⟩
        · obtain ⟨hevent, hstop⟩ := (Bool.and_eq_true _ _).mp hdrain
          rw [beq_iff_eq.mp hevent, World.step, if_pos hstop]
  | check =>
    rw [Pool.step]
    split
    · intro hdown
      have hidle : s.world.idle = [] := by
        apply h
        rw [← hdown, check_down]
      rw [Pool.check, hidle]
      exact hidle
    · exact h
  | connected id ok =>
    rw [Pool.step]
    split
    · exact h
    · exact h

/-- An insertion into the empty queue leaves something there. -/
theorem not_empty_of_inserts (hmax : 1 ≤ cfg.maxSize) (hdown : s.down = true)
    (hidle : s.world.idle = []) {call : PoolCall} (h : s.Inserts call) :
    ¬ (s.step cfg handshakeTimeout call).Empty := by
  obtain ⟨rfl, hlock, hpending, hnew⟩ := h
  obtain ⟨newConns, hwarm⟩ : ∃ newConns, s.world.warm = .connecting [] newConns := by
    rw [World.newConns] at hnew
    rw [World.pending] at hpending
    cases hwarm : s.world.warm with
    | connecting pending newConns =>
      rw [hwarm] at hpending
      obtain rfl : pending = [] := hpending
      exact ⟨newConns, rfl⟩
    | sleeping | counting | exited =>
      rw [hwarm] at hnew
      exact absurd rfl hnew
  rw [World.newConns_of_connecting hwarm] at hnew
  have hidle' : (s.step cfg handshakeTimeout (.pool .insert)).world.idle =
      newConns.take cfg.maxSize := by
    rw [step, hlock]
    show (s.world.step cfg handshakeTimeout .insert).idle = _
    rw [World.step, hwarm]
    show ConnectionPool.insertAll cfg s.world.idle newConns = _
    rw [insertAll_eq, hidle]
    rfl
  have hdown' : (s.step cfg handshakeTimeout (.pool .insert)).down = true := by
    rw [step, hlock]
    show (s.down || _) = true
    rw [hdown, Bool.true_or]
  intro hempty
  rcases List.take_eq_nil_iff.mp (hidle' ▸ hempty hdown') with hzero | hnil
  · omega
  · exact hnew hnil

theorem empty_iff_settled (hmax : 1 ≤ cfg.maxSize) (calls : List PoolCall) :
    (∀ before, before <+: calls → (run cfg handshakeTimeout before).Empty) ↔
      Meets (step cfg handshakeTimeout) Settled (init cfg) calls := by
  constructor
  · induction calls using List.reverseRecOn with
    | nil => exact fun _ => trivial
    | append_singleton calls call ih =>
      intro hempty
      have hbefore : calls <+: calls ++ [call] := List.prefix_append calls [call]
      refine meets_snoc.mpr ⟨ih fun before h => hempty before (h.trans hbefore), ?_⟩
      intro hdown hinserts
      apply not_empty_of_inserts hmax hdown (hempty calls hbefore hdown) hinserts
      have hlast := hempty _ List.prefix_rfl
      rwa [run, List.foldl_append] at hlast
  · rintro hmeets before ⟨after, rfl⟩
    have hbefore := (meets_append.mp hmeets).1
    exact hbefore.invariant (fun s call h hsettled => h.step hsettled) (fun h => nomatch h)

end Pool

/-- **After `shutdown`.** For every accepted configuration the queue is empty in every state of a
run from the return of a `shutdown` on, exactly when `warm_loop` never comes to insert connections
after that. The loop hears of the signal while it sleeps, and not between its connects and the
insertion. -/
theorem pool_shutdown_final_iff {config : ClientConfig} {valid : RunConfig}
    (hvalid : config.validate = .ok valid) (handshakeTimeout : Nat) (calls : List PoolCall) :
    (∀ before, before <+: calls → (Pool.run valid.pool handshakeTimeout before).down = true →
      (Pool.run valid.pool handshakeTimeout before).world.idle = []) ↔
    Meets (Pool.step valid.pool handshakeTimeout) Pool.Settled (Pool.init valid.pool) calls := by
  obtain ⟨-, hpool, -, -⟩ := ClientConfig.validate_eq_ok hvalid
  exact Pool.empty_iff_settled hpool.maxSize calls

/-- A round, a `shutdown` while the loop sleeps, and the loop's exit. -/
def shutdownAsleep : List PoolCall :=
  [.pool (.elapse 5000000000), .pool .wake, .pool .count, .pool (.joined 0 true),
    .pool (.joined 1 true), .pool .insert, .pool .signal, .pool .drain, .pool .notice]

theorem pool_shutdown_final_asleep : ∃ valid, ClientConfig.validate {} = .ok valid ∧
    ∀ before, before <+: shutdownAsleep → (Pool.run valid.pool 0 before).down = true →
      (Pool.run valid.pool 0 before).world.idle = [] := by
  have hclient : (ClientConfig.validate {}).toOption.map (·.pool) = some {} := by decide +kernel
  obtain ⟨valid, hvalid, hpool⟩ := exists_ok_of_map hclient
  refine ⟨valid, hvalid, (pool_shutdown_final_iff hvalid 0 shutdownAsleep).mpr ?_⟩
  rw [hpool]
  decide +kernel

/-- A `shutdown` while the connects of a round are in progress. -/
def shutdownConnecting : List PoolCall :=
  [.pool (.elapse 5000000000), .pool .wake, .pool .count, .pool .signal, .pool .drain,
    .pool (.joined 0 true), .pool (.joined 1 true), .pool .insert]

/-- A round whose connects are still in progress when `shutdown` drains the queue: they are joined
afterwards, and the loop inserts what they have brought. -/
theorem pool_filled_after_shutdown : ¬ ∀ (config : ClientConfig) (valid : RunConfig)
    (handshakeTimeout : Nat) (calls before : List PoolCall), config.validate = .ok valid →
    before <+: calls → (Pool.run valid.pool handshakeTimeout before).down = true →
    (Pool.run valid.pool handshakeTimeout before).world.idle = [] := by
  intro h
  have hclient : (ClientConfig.validate {}).toOption.map (·.pool) = some {} := by decide +kernel
  obtain ⟨valid, hvalid, hpool⟩ := exists_ok_of_map hclient
  have hempty := h {} valid 0 shutdownConnecting shutdownConnecting hvalid List.prefix_rfl
  rw [hpool] at hempty
  exact absurd (hempty (by decide +kernel)) (by decide +kernel)

end LatticeShield.Client
