import LatticeShield.Client.Reconnect
import LatticeShield.Lib.Lists

/-!
# The reconnect loop comes to an end, in order

Three calls with a failure path of their own share one counter and one flag. Everything the loop can
do at the end of a call is one of four moves (`Move`, `step_move`): forward to the handshake,
forward to the relay, another round, or out. The invariant is kept by each of them, and each of them
brings the loop closer to its return. -/

set_option autoImplicit false

namespace LatticeShield.Client

open Lib

/-! ## What the log shows -/

namespace Entry

def isAcquire : Entry → Bool
  | call (.acquire _) => true
  | _ => false

/-- An authentication failure, or an end on the user's side. Every other outcome is one after
which the loop may try again. -/
def endsSession : Entry → Bool
  | call (.handshake (.error .auth)) => true
  | call (.relay .userEof _) => true
  | call (.relay .userError _) => true
  | call (.relay (.bridgeError _) userEof) => userEof
  | _ => false

def reconnected? : Entry → Option Nat
  | sent (.reconnected attempt _) => some attempt
  | _ => none

def exhausted? : Entry → Option Nat
  | sent (.exhausted attempts _) => some attempts
  | _ => none

end Entry

def reconnects (log : List Entry) : List Nat := log.filterMap Entry.reconnected?

def exhaustions (log : List Entry) : List Nat := log.filterMap Entry.exhausted?

theorem reconnects_snoc (log : List Entry) (e : Entry) :
    reconnects (log ++ [e]) = reconnects log ++ e.reconnected?.toList := by
  rw [reconnects, List.filterMap_append, ← reconnects]
  cases h : e.reconnected? <;> simp [h]

theorem exhaustions_snoc (log : List Entry) (e : Entry) :
    exhaustions (log ++ [e]) = exhaustions log ++ e.exhausted?.toList := by
  rw [exhaustions, List.filterMap_append, ← exhaustions]
  cases h : e.exhausted? <;> simp [h]

theorem reconnects_call (log : List Entry) (o : Outcome) :
    reconnects (log ++ [.call o]) = reconnects log :=
  (reconnects_snoc log _).trans (List.append_nil _)

theorem exhaustions_call (log : List Entry) (o : Outcome) :
    exhaustions (log ++ [.call o]) = exhaustions log :=
  (exhaustions_snoc log _).trans (List.append_nil _)

/-- Nothing in the log has ended the session. -/
def Open (log : List Entry) : Prop := ∀ e ∈ log, e.endsSession = false ∧ e.exhausted? = none

theorem Open.snoc {log : List Entry} (hopen : Open log) {e : Entry}
    (hends : e.endsSession = false) (hexh : e.exhausted? = none) : Open (log ++ [e]) := by
  exact forall_mem_snoc.mpr ⟨hopen, hends, hexh⟩

/-- The order in which the entries of a log come. -/
structure Tidy (max : Nat) (log : List Entry) : Prop where
  ends : log.Pairwise fun e x => e.endsSession = true → x.isAcquire = false
  reconnected : (reconnects log).Pairwise (· < ·)
  exhausted : ∀ a ∈ exhaustions log, 0 < max ∧ a = max
  last : log.Pairwise fun e _ => e.exhausted? = none

namespace Tidy

variable {max : Nat} {log : List Entry}

theorem call (tidy : Tidy max log) (hopen : Open log) (o : Outcome) :
    Tidy max (log ++ [.call o]) := by
  constructor
  · refine (pairwise_snoc _ _).mpr ⟨tidy.ends, ?_⟩
    intro e he hends
    rw [(hopen e he).1] at hends
    exact absurd hends (by simp)
  · rw [reconnects_call]; exact tidy.reconnected
  · rw [exhaustions_call]; exact tidy.exhausted
  · exact (pairwise_snoc _ _).mpr ⟨tidy.last, fun e he => (hopen e he).2⟩

theorem sentReconnected (tidy : Tidy max log) (hnone : ∀ e ∈ log, e.exhausted? = none)
    {attempt : Nat} (hlt : ∀ a ∈ reconnects log, a < attempt) (peer : SocketAddr) :
    Tidy max (log ++ [.sent (.reconnected attempt peer)]) := by
  constructor
  · exact (pairwise_snoc _ _).mpr ⟨tidy.ends, fun _ _ _ => rfl⟩
  · rw [reconnects_snoc]
    exact (pairwise_snoc _ _).mpr ⟨tidy.reconnected, hlt⟩
  · rw [exhaustions_snoc]
    exact (List.append_nil (exhaustions log)).symm ▸ tidy.exhausted
  · exact (pairwise_snoc _ _).mpr ⟨tidy.last, hnone⟩

theorem sentExhausted (tidy : Tidy max log) (hnone : ∀ e ∈ log, e.exhausted? = none)
    (hmax : 0 < max) (peer : SocketAddr) :
    Tidy max (log ++ [.sent (.exhausted max peer)]) := by
  constructor
  · exact (pairwise_snoc _ _).mpr ⟨tidy.ends, fun _ _ _ => rfl⟩
  · rw [reconnects_snoc]
    exact (List.append_nil (reconnects log)).symm ▸ tidy.reconnected
  · intro a ha
    rw [exhaustions_snoc] at ha
    rcases List.mem_append.mp ha with ha | ha
    · exact tidy.exhausted a ha
    · exact ⟨hmax, List.mem_singleton.mp ha⟩
  · exact (pairwise_snoc _ _).mpr ⟨tidy.last, hnone⟩

end Tidy

namespace Control

variable {p : Params} {c c' : Control}

/-! ## The moves -/

/-- What may be sent on the way out: nothing, or that the attempts are used up, and only then. -/
def Farewell (p : Params) (c : Control) (sent : List Entry) : Prop :=
  sent = [] ∨ (0 < p.maxRetries ∧ p.maxRetries ≤ c.attempt ∧
    sent = [.sent (.exhausted c.attempt p.peer)])

/-- What may be sent when a relay begins: nothing for the first, and for a later one that it is
back. -/
def Greeting (p : Params) (c : Control) (sent : List Entry) : Prop :=
  sent = [] ∨ (0 < c.attempt ∧ sent = [.sent (.reconnected c.attempt p.peer)])

/-- Everything the end of a call can lead to. The loop goes on to the next call of the round,
begins another round, or returns; and what it sends on the way is a `Greeting` or a `Farewell`. -/
inductive Move (p : Params) (c : Control) : Control → Prop where
  | connected (hphase : c.phase = .acquiring) :
    Move p c { c with phase := .handshaking, log := c.log ++ [.call (.acquire true)] }
  | established (hphase : c.phase = .handshaking) (key : Key) {sent : List Entry}
    (hsent : Greeting p c sent) :
    Move p c { c with
      phase := .relaying, log := c.log ++ ([.call (.handshake (.ok key))] ++ sent) }
  | again (o : Outcome) (userEof : Bool) (hphase : c.phase ≠ .returned)
    (hacquire : (Entry.call o).isAcquire = true ↔ c.phase = .acquiring)
    (hgoes : (Entry.call o).endsSession = false) (hattempt : c.attempt < p.maxRetries) :
    Move p c ⟨c.attempt + 1, userEof, .acquiring, c.log ++ [.call o]⟩
  | out (o : Outcome) (userEof : Bool) (hphase : c.phase ≠ .returned)
    (hacquire : (Entry.call o).isAcquire = true ↔ c.phase = .acquiring) {sent : List Entry}
    (hsent : Farewell p c sent) :
    Move p c ⟨c.attempt, userEof, .returned, c.log ++ ([.call o] ++ sent)⟩

/-- `retry`, at the end of a call that does not end the session. -/
theorem retry_move {o : Outcome} (hphase : c.phase ≠ .returned)
    (hacquire : (Entry.call o).isAcquire = true ↔ c.phase = .acquiring)
    (hgoes : (Entry.call o).endsSession = false) :
    Move p c (retry p { c with log := c.log ++ [.call o] }) := by
  unfold retry
  by_cases hattempt : c.attempt < p.maxRetries
  · rw [if_pos hattempt]
    exact .again o c.userEof hphase hacquire hgoes hattempt
  · rw [if_neg hattempt]
    by_cases hmax : 0 < p.maxRetries
    · cases hsub : p.subscribed with
      | true =>
        simp only [if_pos hmax, send, hsub, if_true, List.append_assoc]
        exact .out o c.userEof hphase hacquire (Or.inr ⟨hmax, Nat.not_lt.mp hattempt, rfl⟩)
      | false =>
        simp only [if_pos hmax, send, hsub, Bool.false_eq_true, if_false]
        exact .out o c.userEof hphase hacquire (Or.inl rfl)
    · simp only [if_neg hmax]
      exact .out o c.userEof hphase hacquire (Or.inl rfl)

theorem onHandshake_move (hphase : c.phase = .handshaking)
    (result : Except HandshakeError Key) :
    Move p c (onHandshake p { c with log := c.log ++ [.call (.handshake result)] } result) := by
  have hne : c.phase ≠ .returned := by rw [hphase]; exact Phase.noConfusion
  have hacquire : (Entry.call (.handshake result)).isAcquire = true ↔ c.phase = .acquiring := by
    simp [Entry.isAcquire, hphase]
  cases result with
  | error e =>
    cases e with
    | auth => exact .out _ c.userEof hne hacquire (Or.inl rfl)
    | transport => exact retry_move hne hacquire rfl
  | ok key =>
    by_cases hattempt : 0 < c.attempt
    · cases hsub : p.subscribed with
      | true =>
        simp only [onHandshake, if_pos hattempt, send, hsub, if_true, List.append_assoc]
        exact .established hphase key (Or.inr ⟨hattempt, rfl⟩)
      | false =>
        simp only [onHandshake, if_pos hattempt, send, hsub, Bool.false_eq_true, if_false]
        exact .established hphase key (Or.inl rfl)
    · simp only [onHandshake, if_neg hattempt]
      exact .established hphase key (Or.inl rfl)

theorem onRelay_move (hphase : c.phase = .relaying) (outcome : RelayOutcome) (userEof : Bool) :
    Move p c (onRelay p
      { c with userEof, log := c.log ++ [.call (.relay outcome userEof)] } outcome) := by
  have hne : c.phase ≠ .returned := by rw [hphase]; exact Phase.noConfusion
  have hacquire : (Entry.call (.relay outcome userEof)).isAcquire = true ↔
      c.phase = .acquiring := by
    simp [Entry.isAcquire, hphase]
  cases outcome with
  | userEof => exact .out _ userEof hne hacquire (Or.inl rfl)
  | userError => exact .out _ userEof hne hacquire (Or.inl rfl)
  | bridgeError e =>
    by_cases hstop : userEof ∨ p.maxRetries ≤ c.attempt
    · by_cases hmax : p.maxRetries ≤ c.attempt ∧ 0 < p.maxRetries
      · cases hsub : p.subscribed with
        | true =>
          simp only [onRelay, if_pos hstop, if_pos hmax, send, hsub, if_true, List.append_assoc]
          exact .out _ userEof hne hacquire (Or.inr ⟨hmax.2, hmax.1, rfl⟩)
        | false =>
          simp only [onRelay, if_pos hstop, if_pos hmax, send, hsub, Bool.false_eq_true,
            if_false]
          exact .out _ userEof hne hacquire (Or.inl rfl)
      · simp only [onRelay, if_pos hstop, if_neg hmax]
        exact .out _ userEof hne hacquire (Or.inl rfl)
    · obtain ⟨hopen, hattempt⟩ := not_or.mp hstop
      simp only [onRelay, if_neg hstop]
      exact .again _ userEof hne hacquire (Bool.eq_false_iff.mpr hopen) (Nat.not_le.mp hattempt)

/-- The call whose end the loop is waiting for. -/
def awaits : Phase → Outcome → Bool
  | .acquiring, .acquire _ => true
  | .handshaking, .handshake _ => true
  | .relaying, .relay _ _ => true
  | _, _ => false

theorem step_move {o : Outcome} (h : awaits c.phase o = true) : Move p c (c.step p o) := by
  cases hphase : c.phase with
  | acquiring =>
    cases o with
    | acquire ok =>
      simp only [step, hphase]
      cases ok with
      | true => exact .connected hphase
      | false =>
        have hne : c.phase ≠ .returned := by rw [hphase]; exact Phase.noConfusion
        have hacquire : (Entry.call (.acquire false)).isAcquire = true ↔ c.phase = .acquiring := by
          simp [Entry.isAcquire, hphase]
        exact hphase ▸ retry_move hne hacquire rfl
    | handshake result => rw [hphase] at h; exact absurd h (by simp [awaits])
    | relay outcome userEof => rw [hphase] at h; exact absurd h (by simp [awaits])
  | handshaking =>
    cases o with
    | handshake result =>
      simp only [step, hphase]
      exact hphase ▸ onHandshake_move hphase result
    | acquire ok => rw [hphase] at h; exact absurd h (by simp [awaits])
    | relay outcome userEof => rw [hphase] at h; exact absurd h (by simp [awaits])
  | relaying =>
    cases o with
    | relay outcome userEof =>
      simp only [step, hphase]
      exact hphase ▸ onRelay_move hphase outcome userEof
    | acquire ok => rw [hphase] at h; exact absurd h (by simp [awaits])
    | handshake result => rw [hphase] at h; exact absurd h (by simp [awaits])
  | returned => rw [hphase] at h; exact absurd h (by simp [awaits])

theorem step_eq_self {o : Outcome} (h : awaits c.phase o = false) : c.step p o = c := by
  unfold step
  cases hphase : c.phase <;> cases o <;> first | rfl | (rw [hphase] at h; exact Bool.noConfusion h)

/-! ## The invariant -/

/-- How often the loop has acquired, by its counter. The counter moves at the end of an attempt,
so between its `acquire` and then it is one short. -/
def acquired (c : Control) : Nat :=
  match c.phase with
  | .acquiring => c.attempt
  | _ => c.attempt + 1

structure Inv (p : Params) (c : Control) : Prop where
  attempt : c.attempt ≤ p.maxRetries
  acquires : c.log.countP Entry.isAcquire = c.acquired
  /-- Until the loop has been left, nothing has ended the session. -/
  stillOpen : c.phase ≠ .returned → Open c.log
  tidy : Tidy p.maxRetries c.log
  range : ∀ a ∈ reconnects c.log, 1 ≤ a ∧ a ≤ c.attempt
  /-- This round is announced only when its handshake is done. -/
  fresh : c.phase = .acquiring ∨ c.phase = .handshaking → ∀ a ∈ reconnects c.log, a < c.attempt

theorem inv_init (p : Params) : Inv p init := by
  constructor
  · exact Nat.zero_le _
  · rfl
  · exact fun _ => List.forall_mem_nil _
  · exact ⟨.nil, .nil, List.forall_mem_nil _, .nil⟩
  · exact List.forall_mem_nil _
  · exact fun _ => List.forall_mem_nil _

theorem countP_call (log : List Entry) (o : Outcome) :
    (log ++ [Entry.call o]).countP Entry.isAcquire =
      log.countP Entry.isAcquire + if (Entry.call o).isAcquire then 1 else 0 := by
  rw [List.countP_append, List.countP_singleton]

/-- Whichever call returns, the log has one `acquire` for each round begun. -/
theorem Inv.countP_call (inv : Inv p c) {o : Outcome}
    (hacquire : (Entry.call o).isAcquire = true ↔ c.phase = .acquiring) :
    (c.log ++ [Entry.call o]).countP Entry.isAcquire = c.attempt + 1 := by
  have hcount := inv.acquires
  rw [Control.countP_call]
  unfold acquired at hcount
  cases hphase : c.phase with
  | acquiring =>
    simp only [hphase] at hcount
    rw [hcount, if_pos (hacquire.mpr hphase)]
  | handshaking =>
    simp only [hphase] at hcount hacquire
    rw [hcount, if_neg (fun h => Phase.noConfusion (hacquire.mp h))]
  | relaying =>
    simp only [hphase] at hcount hacquire
    rw [hcount, if_neg (fun h => Phase.noConfusion (hacquire.mp h))]
  | returned =>
    simp only [hphase] at hcount hacquire
    rw [hcount, if_neg (fun h => Phase.noConfusion (hacquire.mp h))]

theorem Inv.connected (inv : Inv p c) (hphase : c.phase = .acquiring) :
    Inv p { c with phase := .handshaking, log := c.log ++ [.call (.acquire true)] } := by
  have hopen := inv.stillOpen (by rw [hphase]; exact Phase.noConfusion)
  constructor
  · exact inv.attempt
  · exact inv.countP_call (by simp [Entry.isAcquire, hphase])
  · exact fun _ => hopen.snoc rfl rfl
  · exact inv.tidy.call hopen _
  · rw [reconnects_call]; exact inv.range
  · rw [reconnects_call]; exact fun _ => inv.fresh (Or.inl hphase)

theorem Inv.established (inv : Inv p c) (hphase : c.phase = .handshaking) (key : Key)
    {sent : List Entry} (hsent : Greeting p c sent) :
    Inv p { c with
      phase := .relaying, log := c.log ++ ([.call (.handshake (.ok key))] ++ sent) } := by
  have hopen := inv.stillOpen (by rw [hphase]; exact Phase.noConfusion)
  have hfresh := inv.fresh (Or.inr hphase)
  have hcount := inv.countP_call (o := .handshake (.ok key)) (by simp [Entry.isAcquire, hphase])
  have hopen' : Open (c.log ++ [.call (.handshake (.ok key))]) := hopen.snoc rfl rfl
  have htidy := inv.tidy.call hopen (.handshake (.ok key))
  rw [← List.append_assoc]
  rcases hsent with rfl | ⟨hpos, rfl⟩
  · rw [List.append_nil]
    refine ⟨inv.attempt, hcount, fun _ => hopen', htidy, ?_, fun h => by simp at h⟩
    rw [reconnects_call]; exact inv.range
  · refine ⟨inv.attempt, ?_, fun _ => hopen'.snoc rfl rfl, ?_, ?_, fun h => by simp at h⟩
    · rw [List.countP_append, hcount]; rfl
    · refine htidy.sentReconnected (fun e he => (hopen' e he).2) ?_ _
      rw [reconnects_call]; exact hfresh
    · rw [reconnects_snoc, reconnects_call]
      exact forall_mem_snoc.mpr ⟨inv.range, hpos, Nat.le_refl _⟩

theorem Inv.again (inv : Inv p c) {o : Outcome} (userEof : Bool) (hphase : c.phase ≠ .returned)
    (hacquire : (Entry.call o).isAcquire = true ↔ c.phase = .acquiring)
    (hgoes : (Entry.call o).endsSession = false) (hattempt : c.attempt < p.maxRetries) :
    Inv p ⟨c.attempt + 1, userEof, .acquiring, c.log ++ [.call o]⟩ := by
  have hopen := inv.stillOpen hphase
  constructor
  · exact hattempt
  · exact inv.countP_call hacquire
  · exact fun _ => hopen.snoc hgoes rfl
  · exact inv.tidy.call hopen o
  · intro a ha
    obtain ⟨hpos, hle⟩ := inv.range a (reconnects_call _ _ ▸ ha)
    exact ⟨hpos, Nat.le_succ_of_le hle⟩
  · intro _ a ha
    exact Nat.lt_succ_of_le (inv.range a (reconnects_call _ _ ▸ ha)).2

theorem Inv.out (inv : Inv p c) {o : Outcome} (userEof : Bool) (hphase : c.phase ≠ .returned)
    (hacquire : (Entry.call o).isAcquire = true ↔ c.phase = .acquiring) {sent : List Entry}
    (hsent : Farewell p c sent) :
    Inv p ⟨c.attempt, userEof, .returned, c.log ++ ([.call o] ++ sent)⟩ := by
  have hopen := inv.stillOpen hphase
  have hcount := inv.countP_call hacquire
  have htidy := inv.tidy.call hopen o
  rw [← List.append_assoc]
  rcases hsent with rfl | ⟨hmax, hattempt, rfl⟩
  · rw [List.append_nil]
    refine ⟨inv.attempt, hcount, fun h => absurd rfl h, htidy, ?_, fun h => by simp at h⟩
    rw [reconnects_call]; exact inv.range
  · have hlast : c.attempt = p.maxRetries := Nat.le_antisymm inv.attempt hattempt
    refine ⟨inv.attempt, ?_, fun h => absurd rfl h, ?_, ?_, fun h => by simp at h⟩
    · rw [List.countP_append, hcount]; rfl
    · rw [hlast]
      refine htidy.sentExhausted (?_) hmax _
      refine forall_mem_snoc.mpr ⟨?_, rfl⟩
      intro e he
      exact (hopen e he).2
    · intro a ha
      rw [reconnects_snoc] at ha
      rcases List.mem_append.mp ha with ha | ha
      · exact inv.range a (reconnects_call _ _ ▸ ha)
      · exact absurd ha (by simp [Entry.reconnected?])

theorem Inv.move (inv : Inv p c) (h : Move p c c') : Inv p c' := by
  cases h with
  | connected hphase => exact inv.connected hphase
  | established hphase key hsent => exact inv.established hphase key hsent
  | again o userEof hphase hacquire hgoes hattempt =>
    exact inv.again userEof hphase hacquire hgoes hattempt
  | out o userEof hphase hacquire hsent => exact inv.out userEof hphase hacquire hsent

theorem Inv.step (inv : Inv p c) (o : Outcome) : Inv p (c.step p o) := by
  cases h : awaits c.phase o with
  | true => exact inv.move (step_move h)
  | false => rw [step_eq_self h]; exact inv

/-! ## To the return -/

/-- The ends of calls that may still come: three for each round that is left. Every end of a call
that does not return lowers it, which is why the loop is over after `3 * (max_retries + 1)` of
them. -/
def rank (p : Params) (c : Control) : Nat :=
  match c.phase with
  | .acquiring => 3 * (p.maxRetries - c.attempt) + 3
  | .handshaking => 3 * (p.maxRetries - c.attempt) + 2
  | .relaying => 3 * (p.maxRetries - c.attempt) + 1
  | .returned => 0

theorem rank_pos (h : c.phase ≠ .returned) : 3 * (p.maxRetries - c.attempt) < rank p c := by
  unfold rank
  cases hphase : c.phase with
  | acquiring => simp only; omega
  | handshaking => simp only; omega
  | relaying => simp only; omega
  | returned => exact absurd hphase h

theorem Move.rank_lt (h : Move p c c') : rank p c' < rank p c := by
  cases h with
  | connected hphase => simp only [rank, hphase]; omega
  | established hphase key hsent => simp only [rank, hphase]; omega
  | again o userEof hphase hacquire hgoes hattempt =>
    have := rank_pos (p := p) hphase
    simp only [rank] at this ⊢
    omega
  | out o userEof hphase hacquire hsent => exact Nat.zero_lt_of_lt (rank_pos hphase)

theorem next_move (outcomes : Outcomes) (h : c.phase ≠ .returned) :
    Move p c (c.next p outcomes) := by
  unfold next
  cases hphase : c.phase with
  | acquiring => exact step_move (by rw [hphase]; rfl)
  | handshaking => exact step_move (by rw [hphase]; rfl)
  | relaying => exact step_move (by rw [hphase]; rfl)
  | returned => exact absurd hphase h

theorem next_of_returned {outcomes : Outcomes} (h : c.phase = .returned) :
    c.next p outcomes = c := by
  unfold next
  rw [h]

theorem inv_after (p : Params) (outcomes : Outcomes) (n : Nat) : Inv p (after p outcomes n) := by
  induction n with
  | zero => exact inv_init p
  | succ n ih =>
    by_cases h : (after p outcomes n).phase = .returned
    · rw [after, next_of_returned h]; exact ih
    · exact ih.move (next_move outcomes h)

/-- Every end of a call that does not return brings the return closer. A round has three calls at
most, which gives the bound. -/
theorem returned_or_rank (p : Params) (outcomes : Outcomes) (n : Nat) :
    (after p outcomes n).phase = .returned ∨
      rank p (after p outcomes n) + n ≤ 3 * p.maxRetries + 3 := by
  induction n with
  | zero => exact Or.inr (Nat.le_refl _)
  | succ n ih =>
    by_cases h : (after p outcomes n).phase = .returned
    · exact Or.inl (by rw [after, next_of_returned h]; exact h)
    · have hlt := (next_move (p := p) outcomes h).rank_lt
      rcases ih with hret | hle
      · exact absurd hret h
      · refine Or.inr ?_
        rw [after]
        omega

theorem returned_after (p : Params) (outcomes : Outcomes) :
    (after p outcomes (3 * p.maxRetries + 3)).phase = .returned := by
  rcases returned_or_rank p outcomes (3 * p.maxRetries + 3) with hret | hle
  · exact hret
  · by_contra h
    have := rank_pos (p := p) h
    omega

end Control

/-! ## The whole loop -/

/-- What the log of `handle` says of its calls and events. -/
structure Orderly (max : Nat) (log : List Entry) : Prop where
  acquires : log.countP Entry.isAcquire ≤ max + 1
  /-- After an authentication failure or an end on the user's side there is no `acquire`. -/
  ends : log.Pairwise fun e x => e.endsSession = true → x.isAcquire = false
  increasing : (reconnects log).Pairwise (· < ·)
  range : ∀ a ∈ reconnects log, 1 ≤ a ∧ a ≤ max
  exhausted : ∀ a ∈ exhaustions log, 0 < max ∧ a = max
  once : (exhaustions log).length ≤ 1
  /-- Nothing follows an `Exhausted`. -/
  last : log.Pairwise fun e _ => e.exhausted? = none

theorem exhaustions_length_le {log : List Entry}
    (h : log.Pairwise fun e _ => e.exhausted? = none) : (exhaustions log).length ≤ 1 := by
  induction log with
  | nil => exact Nat.zero_le _
  | cons e log ih =>
    obtain ⟨hfirst, hrest⟩ := List.pairwise_cons.mp h
    cases log with
    | nil => exact (List.length_filterMap_le _ _).trans (Nat.le_refl 1)
    | cons x log =>
      rw [exhaustions, List.filterMap_cons_none (hfirst x List.mem_cons_self)]
      exact ih hrest

theorem Control.Inv.orderly {p : Params} {c : Control} (inv : c.Inv p) :
    Orderly p.maxRetries c.log := by
  have hattempt := inv.attempt
  refine ⟨?_, inv.tidy.ends, inv.tidy.reconnected, ?_, inv.tidy.exhausted,
    exhaustions_length_le inv.tidy.last, inv.tidy.last⟩
  · rw [inv.acquires]
    unfold Control.acquired
    split <;> omega
  · intro a ha
    obtain ⟨hpos, hle⟩ := inv.range a ha
    exact ⟨hpos, hle.trans hattempt⟩

/-- **The reconnect loop.** Whatever the three calls return in each round: `handle` returns after
at most `max_retries + 1` rounds, and at every moment its calls of `acquire` and its events are in
order. There is no hypothesis on the outcomes, which may be different in every round and may never
let a session come about. -/
theorem handle_orderly (p : Params) (outcomes : Outcomes) :
    (∃ n, n ≤ 3 * (p.maxRetries + 1) ∧ (Control.after p outcomes n).phase = .returned) ∧
    ∀ n, Orderly p.maxRetries (Control.after p outcomes n).log :=
  ⟨⟨3 * p.maxRetries + 3, Nat.le_refl _, Control.returned_after p outcomes⟩,
    fun n => (Control.inv_after p outcomes n).orderly⟩

end LatticeShield.Client
