import Mathlib.Logic.Function.Basic
import LatticeShield.Proof.Rotation

/-!
# How much is encrypted under one key

The bridge counts the bytes it encrypts (`bytes_this_epoch`) and rotates once they are
`max_bytes_per_key`. The client encrypts under the same key and nobody counts that: the arm that
reads a client frame leaves the counter alone, and the client never asks for a rotation. A session
in which only the user sends never changes its key on account of the bytes
(`uncounted_client_bytes`).

A `Ledger` is a session with an account of what each side has encrypted under each key. Keys are
named by the rotations that lead to them from the handshake's key (`keys_named`), so the client's
account goes on under the old name while a KEY_ROTATE is on its way. The limit then holds in every
run that `Heeds` it where the counter does not look: no frame is encrypted under a key the client
has a part in once `max_bytes_per_key` bytes have been.
-/

set_option autoImplicit false

namespace LatticeShield

open Lib EncryptedChannel

namespace Session

/-! ## The keys of a session -/

/-- The nonces of the rotations among the frames of one direction. -/
def nonces (frames : List FrameResult) : List RotationNonce :=
  frames.filterMap fun
    | .data _ => none
    | .keyRotate n => some n

@[simp] theorem nonces_append (l l' : List FrameResult) :
    nonces (l ++ l') = nonces l ++ nonces l' := List.filterMap_append

@[simp] theorem nonces_data (p : Bytes) : nonces [.data p] = [] := rfl

@[simp] theorem nonces_keyRotate (n : RotationNonce) : nonces [.keyRotate n] = [n] := rfl

/-- The name of the key a side encrypts under: the rotations it has made, or followed. Names are
compared where keys cannot be, since the HKDF is any function. -/
def bridgeKey (s : Session) : List RotationNonce := nonces s.bridgeSent

def clientKey (s : Session) : List RotationNonce := nonces (accepted s.clientReads)

/-- The key `key` becomes by these rotations. -/
def rotateAll (C : CipherSuite) (key : Key) (name : List RotationNonce) : Key :=
  name.foldl (fun k n => C.hkdf n k rotationHkdfInfo) key

/-- The names mean what they say: the key of each side is the handshake's, rotated by the nonces
that the side has made or followed. By names two keys can be told apart without asking whether
HKDF ever repeats one. -/
structure Named (C : CipherSuite) (S : Setup) (s : Session) : Prop where
  bridge : s.bridge.channel.keyBytes = rotateAll C S.sessionKey s.bridgeKey
  client : s.client.channel.keyBytes = rotateAll C S.sessionKey s.clientKey

variable {C : CipherSuite} {S : Setup} {s : Session}

theorem rotateAll_append (key : Key) (name name' : List RotationNonce) :
    rotateAll C key (name ++ name') = rotateAll C (rotateAll C key name) name' :=
  List.foldl_append

/-- Whatever bytes the client reads, its key changes by the rotations it accepts, one after the
other. -/
theorem client_receive_key (r : Client.Relay) (b : UInt8) (takes : Bool) :
    (r.receive C b takes).1.channel.keyBytes =
      rotateAll C r.channel.keyBytes (nonces (accepted (r.receive C b takes).2.toList)) := by
  unfold Client.Relay.receive pollFrame
  cases hrun : (readFrame C.aead.decrypt r.channel).run (r.taken ++ [b]) with
  | none => rfl
  | some x =>
    obtain ⟨⟨result, ch⟩, rest⟩ := x
    cases result with
    | error e =>
      obtain rfl := readFrame_error hrun
      rfl
    | ok i =>
      rcases readFrame_ok_cases hrun with
        ⟨len, seq, nonce, ct, tag, p, rfl, -, -, rfl⟩ | ⟨gcmNonce, ct, tag, n, rfl, -, -, -, rfl⟩
      · cases takes <;> rfl
      · rfl

theorem Named.bridgeArm (h : Named C S s) (arm : Bridge.Arm) (draw : Draw) :
    Named C S (s.bridgeArm C S arm draw) := by
  cases hgo : arm.goesOn S.bridge with
  | false =>
    rcases bridgeArm_stops C S s arm draw hgo with heq | ⟨f, heq⟩
    · rw [heq]; exact h
    · rw [heq]; exact ⟨h.bridge, h.client⟩
  | true =>
    have hmid : Named C S (s.selected C S arm) := by
      rcases (selected_goesOn C S s arm hgo).2 with ⟨-, heq⟩ | ⟨p, -, heq⟩
      · rw [heq]; exact ⟨h.bridge, h.client⟩
      · rw [heq]
        refine ⟨?_, h.client⟩
        simp only [bridgeKey, bridgeWrote, nonces_append, nonces_data, List.append_nil]
        exact h.bridge
    rw [bridgeArm_eq C S s arm draw (arm.enabled_of_goesOn hgo)]
    split
    · refine ⟨?_, hmid.client⟩
      simp only [bridgeKey, rotated, nonces_append, nonces_keyRotate, rotateAll_append, rotateKey]
      exact congrArg (fun k => C.hkdf draw.nonce k rotationHkdfInfo) hmid.bridge
    · exact hmid

theorem Named.step (h : Named C S s) (op : Op) : Named C S (s.step C S op) := by
  unfold Session.step
  split
  -- the bridge's key moves on its own arm, the client's on a byte that completes a KEY_ROTATE
  · cases op with
    | bridgeByte takes =>
      simp only [act, Session.bridgeByte]
      cases s.up.unread with
      | nil => exact h
      | cons b more =>
        exact ⟨(bridge_receive_sending_half C s.bridge b takes).1.trans h.bridge, h.client⟩
    | bridgeEof =>
      simp only [act, Session.bridgeEof]
      split
      · exact ⟨h.bridge, h.client⟩
      · exact h
    | bridgeArm arm draw => exact h.bridgeArm arm draw
    | clientByte takes =>
      simp only [act, Session.clientByte]
      cases s.down.unread with
      | nil => exact h
      | cons b more =>
        refine ⟨h.bridge, ?_⟩
        simp only [clientKey, accepted_append, nonces_append, rotateAll_append]
        rw [client_receive_key, h.client]
        rfl
    | clientEof =>
      simp only [act, Session.clientEof]
      split
      · refine ⟨h.bridge, ?_⟩
        simp only [clientKey, accepted_append, nonces_append, rotateAll_append]
        exact h.client
      · exact h
    | clientArm read =>
      simp only [act]
      -- the client writes data frames only and never rotates by itself
      cases hw : s.client.writes S.client read with
      | none =>
        rcases clientArm_quiet C S s hw with heq | ⟨-, -, heq⟩ | ⟨-, heq⟩ <;>
          · rw [heq]; exact ⟨h.bridge, h.client⟩
      | some p => rw [clientArm_writes C S s hw]; exact ⟨h.bridge, h.client⟩
  · exact h

/-- In every run the key of each side is the one its name says. -/
theorem keys_named (C : CipherSuite) (S : Setup) (ops : List Op) : Named C S (after C S ops) := by
  unfold after
  have h : Named C S (start S) := ⟨rfl, rfl⟩
  generalize start S = s at h
  induction ops generalizing s with
  | nil => exact h
  | cons op ops ih => exact ih _ (h.step op)

end Session

/-! ## Accounts -/

def plaintextBytes (frames : List FrameResult) : Nat :=
  (Session.plaintexts frames).flatten.length

/-- A session with an account of the bytes each side has encrypted under each key. -/
structure Ledger where
  session : Session
  bridge : List RotationNonce → Nat
  client : List RotationNonce → Nat

namespace Ledger

def charge (account : List RotationNonce → Nat) (key : List RotationNonce) (bytes : Nat) :
    List RotationNonce → Nat :=
  Function.update account key (account key + bytes)

def start (S : Setup) : Ledger where
  session := .start S
  bridge := fun _ => 0
  client := fun _ => 0

/-- What a step sends is charged to the key the sender had before it: a rotation comes last. The
ledger reads the session's history and does not steer it. -/
def step (C : CipherSuite) (S : Setup) (l : Ledger) (op : Op) : Ledger :=
  let s := l.session
  let s' := s.step C S op
  { session := s'
    bridge := charge l.bridge s.bridgeKey
      (plaintextBytes (s'.bridgeSent.drop s.bridgeSent.length))
    client := charge l.client s.clientKey
      (plaintextBytes (s'.clientSent.drop s.clientSent.length)) }

def after (C : CipherSuite) (S : Setup) (ops : List Op) : Ledger :=
  ops.foldl (step C S) (start S)

def total (l : Ledger) (key : List RotationNonce) : Nat := l.bridge key + l.client key

/-- No key has been used for `max_bytes_per_key` bytes and another frame. The frame is the one
that is being written when the limit is reached: a side counts what it has written, and not what
it will. -/
def WithinLimit (S : Setup) (l : Ledger) : Prop :=
  ∀ key, l.total key < S.bridge.maxBytesPerKey.toNat + S.bridge.maxFrameSize

/-- The condition on a step, in the state before it: whoever writes under a key that the client
has used finds less than the limit used by the two together. The bridge counts what it writes
itself, and the client counts nothing; so a key of the bridge alone needs no condition but that
its counter does not wrap. -/
def Heeds (S : Setup) (l : Ledger) : Op → Prop
  | .bridgeArm arm _ =>
    l.session.bridge.finished = none → ∀ p ∈ arm.chunk S.bridge,
      l.session.bridge.bytesThisEpoch.toNat + p.length < 2 ^ 64 ∧
        (l.client l.session.bridgeKey ≠ 0 →
          l.total l.session.bridgeKey < S.bridge.maxBytesPerKey.toNat)
  | .clientArm read =>
    l.session.client.outcome = none → ∀ p ∈ l.session.client.writes S.client read,
      l.total l.session.clientKey < S.bridge.maxBytesPerKey.toNat
  | _ => True

instance (S : Setup) (l : Ledger) : ∀ op, Decidable (Heeds S l op)
  | .bridgeArm _ _ => inferInstanceAs (Decidable (l.session.bridge.finished = none → _))
  | .clientArm _ => inferInstanceAs (Decidable (l.session.client.outcome = none → _))
  | .bridgeByte _ => .isTrue trivial
  | .bridgeEof => .isTrue trivial
  | .clientByte _ => .isTrue trivial
  | .clientEof => .isTrue trivial

variable {C : CipherSuite} {S : Setup} {l : Ledger}

/-- The account is of the session's own run. -/
theorem after_session (C : CipherSuite) (S : Setup) (ops : List Op) :
    (after C S ops).session = Session.after C S ops := by
  suffices h : ∀ l : Ledger, (ops.foldl (step C S) l).session =
      ops.foldl (Session.step C S) l.session from h (start S)
  induction ops with
  | nil => exact fun _ => rfl
  | cons op ops ih => exact fun l => ih (l.step C S op)

theorem charge_self (account : List RotationNonce → Nat) (key : List RotationNonce) (n : Nat) :
    charge account key n key = account key + n := Function.update_self ..

theorem charge_of_ne (account : List RotationNonce → Nat) {key k : List RotationNonce}
    (h : k ≠ key) (n : Nat) : charge account key n k = account k := Function.update_of_ne h ..

@[simp] theorem charge_zero (account : List RotationNonce → Nat) (key : List RotationNonce) :
    charge account key 0 = account := Function.update_eq_self ..

theorem step_eq {op : Op} {s' : Session} {down up : List FrameResult}
    (hstep : l.session.step C S op = s') (hdown : s'.bridgeSent = l.session.bridgeSent ++ down)
    (hup : s'.clientSent = l.session.clientSent ++ up) :
    l.step C S op = ⟨s', charge l.bridge l.session.bridgeKey (plaintextBytes down),
      charge l.client l.session.clientKey (plaintextBytes up)⟩ := by
  simp only [step, hstep, hdown, hup, List.drop_left]

@[simp] theorem plaintextBytes_nil : plaintextBytes [] = 0 := rfl

@[simp] theorem plaintextBytes_data (p : Bytes) : plaintextBytes [.data p] = p.length := by
  simp [plaintextBytes, Session.plaintexts]

theorem plaintextBytes_rotation (frames : List FrameResult) (n : RotationNonce) :
    plaintextBytes (frames ++ [.keyRotate n]) = plaintextBytes frames := by
  simp [plaintextBytes]

theorem step_silent {op : Op} {s' : Session} (hstep : l.session.step C S op = s')
    (hdown : s'.bridgeSent = l.session.bridgeSent) (hup : s'.clientSent = l.session.clientSent) :
    l.step C S op = { l with session := s' } := by
  rw [step_eq hstep (hdown.trans (List.append_nil _).symm) (hup.trans (List.append_nil _).symm),
    plaintextBytes_nil, charge_zero, charge_zero]

/-! ## The invariant -/

/-- The bridge's account of its present key is its counter, and no later key has been used. A
session that is over writes nothing, so its counter is not asked about. -/
structure Tallied (S : Setup) (l : Ledger) : Prop where
  limit : l.WithinLimit S
  fresh : ∀ key, l.session.bridgeKey.length < key.length → l.bridge key = 0
  counter : l.session.bridge.finished = none →
    l.bridge l.session.bridgeKey = l.session.bridge.bytesThisEpoch.toNat

structure Inv (S : Setup) (l : Ledger) : Prop where
  tallied : Tallied S l
  below : l.session.bridge.finished = none →
    l.session.bridge.bytesThisEpoch < S.bridge.maxBytesPerKey

theorem maxBytesPerKey_pos (S : Setup) : 0 < S.bridge.maxBytesPerKey :=
  UInt64.lt_of_lt_of_le (by decide) S.bridge.validBytesPerKey

theorem inv_start (S : Setup) : Inv S (start S) := by
  refine ⟨⟨?_, fun _ _ => rfl, fun _ => rfl⟩, fun _ => maxBytesPerKey_pos S⟩
  intro key
  have hpos := S.bridge.validFrameSize.1
  simp only [total, start]
  omega

/-- A session that sends nothing: what the bridge has counted stays as it is, and so does the
account it is compared with. -/
theorem Inv.silent (inv : Inv S l) {s' : Session}
    (hsent : s'.bridgeSent = l.session.bridgeSent)
    (hlive : s'.bridge.finished = none → l.session.bridge.finished = none)
    (hbytes : s'.bridge.bytesThisEpoch = l.session.bridge.bytesThisEpoch) :
    Inv S { l with session := s' } := by
  have hkey : s'.bridgeKey = l.session.bridgeKey := congrArg Session.nonces hsent
  refine ⟨⟨inv.tallied.limit, ?_, ?_⟩, ?_⟩
  · simp only [hkey]; exact inv.tallied.fresh
  · intro hrun
    simp only [hkey, hbytes]; exact inv.tallied.counter (hlive hrun)
  · intro hrun
    simp only [hbytes]; exact inv.below (hlive hrun)

/-- A loop reads, or finds the end of its stream. -/
theorem Inv.reads (inv : Inv S l) {op : Op} {s' : Session}
    (hstep : l.session.step C S op = s') (hsent : Session.SameSent l.session s')
    (hlive : s'.bridge.finished = none → l.session.bridge.finished = none) :
    Inv S (l.step C S op) := by
  rw [step_silent hstep hsent.bridgeSent hsent.clientSent]
  exact inv.silent hsent.bridgeSent hlive hsent.bytesThisEpoch

/-- The bridge writes `p`: its own account has room for a frame, and the client's is heeded. This
is where the counter of the bridge meets the account. -/
theorem Inv.bridgeWrote (inv : Inv S l) (hlive : l.session.bridge.finished = none) {p : Bytes}
    (hlen : p.length ≤ S.bridge.maxFrameSize)
    (hwrap : l.session.bridge.bytesThisEpoch.toNat + p.length < 2 ^ 64)
    (hheeds : l.client l.session.bridgeKey ≠ 0 →
      l.total l.session.bridgeKey < S.bridge.maxBytesPerKey.toNat) :
    Tallied S ⟨l.session.bridgeWrote C p
        (l.session.bridge.bytesThisEpoch + UInt64.ofNat p.length),
      charge l.bridge l.session.bridgeKey p.length, l.client⟩ := by
  have hcounter := inv.tallied.counter hlive
  have hbelow := UInt64.lt_iff_toNat_lt.mp (inv.below hlive)
  have hkey : (l.session.bridgeWrote C p
      (l.session.bridge.bytesThisEpoch + UInt64.ofNat p.length)).bridgeKey =
        l.session.bridgeKey := by
    simp [Session.bridgeKey, Session.bridgeWrote]
  refine ⟨?_, ?_, ?_⟩
  · intro key
    rcases eq_or_ne key l.session.bridgeKey with rfl | hne
    · simp only [total, charge_self]
      rcases Nat.eq_zero_or_pos (l.client l.session.bridgeKey) with hzero | hpos
      · -- the counter knows the whole account
        omega
      · have hroom := hheeds (Nat.ne_of_gt hpos)
        simp only [total] at hroom
        omega
    · simp only [total, charge_of_ne _ hne]
      exact inv.tallied.limit key
  · intro key hkey'
    rw [hkey] at hkey'
    have hne : key ≠ l.session.bridgeKey := fun h => Nat.lt_irrefl _ (h ▸ hkey')
    simp only [charge_of_ne _ hne]
    exact inv.tallied.fresh key hkey'
  · intro _
    simp only [hkey, charge_self, hcounter]
    simp only [Session.bridgeWrote, UInt64.toNat_add, UInt64.toNat_ofNat']
    rw [Nat.mod_eq_of_lt (Nat.lt_of_le_of_lt (Nat.le_add_left _ _) hwrap),
      Nat.mod_eq_of_lt hwrap]

theorem Tallied.rotated (h : Tallied S l) (draw : Draw) :
    Inv S { l with session := l.session.rotated C draw } := by
  have hkey : (l.session.rotated C draw).bridgeKey = l.session.bridgeKey ++ [draw.nonce] := by
    simp [Session.bridgeKey, Session.rotated]
  have hlen : l.session.bridgeKey.length < (l.session.rotated C draw).bridgeKey.length := by
    simp [hkey]
  refine ⟨⟨h.limit, fun key hlt => h.fresh key (Nat.lt_trans hlen hlt), ?_⟩,
    fun _ => maxBytesPerKey_pos S⟩
  intro _
  exact h.fresh _ hlen

/-- With rotation enabled, an arm that does not ask for it leaves the counter below the limit. The
comparison is made after the bytes are added. -/
theorem below_of_not_rotates (hen : S.bridge.keyRotationEnabled = true) {r : Bridge.Relay}
    {arm : Bridge.Arm} (hrot : r.rotates S.bridge arm = false) {p : Bytes}
    (hp : arm.chunk S.bridge = some p) :
    r.bytesThisEpoch + UInt64.ofNat p.length < S.bridge.maxBytesPerKey := by
  cases arm with
  | timer => exact absurd hp (by simp [Bridge.Arm.chunk])
  | manual alive => exact absurd hp (by simp [Bridge.Arm.chunk])
  | backend read =>
    simp only [Bridge.Arm.chunk] at hp
    simp only [Bridge.Relay.rotates, hp, hen, Bool.true_and, decide_eq_false_iff_not,
      UInt64.not_le] at hrot
    exact hrot

/-- What the `select!` leaves of an arm behind which the loop goes on. -/
theorem Inv.selected (inv : Inv S l) (hen : S.bridge.keyRotationEnabled = true)
    (hlive : l.session.bridge.finished = none) {arm : Bridge.Arm} {draw : Draw}
    (hok : Heeds S l (.bridgeArm arm draw)) (hgo : arm.goesOn S.bridge = true) :
    ∃ down, (l.session.selected C S arm).bridgeSent = l.session.bridgeSent ++ down ∧
      (l.session.selected C S arm).clientSent = l.session.clientSent ∧
      Tallied S ⟨l.session.selected C S arm,
        charge l.bridge l.session.bridgeKey (plaintextBytes down), l.client⟩ ∧
      (l.session.bridge.rotates S.bridge arm = false →
        (l.session.selected C S arm).bridge.bytesThisEpoch < S.bridge.maxBytesPerKey) := by
  rcases (Session.selected_goesOn C S l.session arm hgo).2 with ⟨-, heq⟩ | ⟨p, hp, heq⟩
  · rw [heq]
    refine ⟨[], (List.append_nil _).symm, rfl, ?_, fun _ => inv.below hlive⟩
    rw [plaintextBytes_nil, charge_zero]
    have hsilent : Inv S { l with session :=
        { l.session with bridge := { l.session.bridge with taken := [] } } } :=
      inv.silent rfl id rfl
    exact hsilent.tallied
  · rw [heq]
    obtain ⟨hwrap, hheeds⟩ := hok hlive p hp
    refine ⟨[.data p], rfl, rfl, ?_, fun hrot => below_of_not_rotates hen hrot hp⟩
    rw [plaintextBytes_data]
    exact inv.bridgeWrote hlive (arm.length_chunk_le hp) hwrap hheeds

theorem Inv.bridgeArm (inv : Inv S l) (hen : S.bridge.keyRotationEnabled = true)
    (hlive : l.session.bridge.finished = none) {arm : Bridge.Arm} {draw : Draw}
    (hok : Heeds S l (.bridgeArm arm draw)) : Inv S (l.step C S (.bridgeArm arm draw)) := by
  have hstep : l.session.step C S (.bridgeArm arm draw) = l.session.bridgeArm C S arm draw :=
    if_pos hlive
  cases hgo : arm.goesOn S.bridge with
  | false =>
    rcases Session.bridgeArm_stops C S l.session arm draw hgo with heq | ⟨f, heq⟩
    · rw [step_silent (hstep.trans heq) rfl rfl]
      exact inv
    · rw [step_silent (hstep.trans heq) rfl rfl]
      exact inv.silent rfl (fun h => absurd h (by simp)) rfl
  | true =>
    obtain ⟨down, hdown, hup, htallied, hbelow⟩ := inv.selected (C := C) hen hlive hok hgo
    have harm := Session.bridgeArm_eq C S l.session arm draw (arm.enabled_of_goesOn hgo)
    rw [(Session.selected_goesOn C S l.session arm hgo).1] at harm
    cases hrot : l.session.bridge.rotates S.bridge arm with
    | false =>
      rw [hrot, if_neg Bool.false_ne_true] at harm
      rw [step_eq (hstep.trans harm) hdown (hup.trans (List.append_nil _).symm),
        plaintextBytes_nil, charge_zero]
      exact ⟨htallied, fun _ => hbelow hrot⟩
    | true =>
      rw [hrot, if_pos rfl] at harm
      have hdown' : ((l.session.selected C S arm).rotated C draw).bridgeSent =
          l.session.bridgeSent ++ (down ++ [.keyRotate draw.nonce]) := by
        rw [← List.append_assoc, ← hdown]
        rfl
      rw [step_eq (hstep.trans harm) hdown' (hup.trans (List.append_nil _).symm),
        plaintextBytes_nil, charge_zero, plaintextBytes_rotation]
      exact htallied.rotated draw

/-- The client writes `p`, having heeded what both have encrypted. -/
theorem Inv.clientWrote (inv : Inv S l) {p : Bytes} (hlen : p.length ≤ S.bridge.maxFrameSize)
    (hheeds : l.total l.session.clientKey < S.bridge.maxBytesPerKey.toNat) :
    Inv S ⟨l.session.clientWrote C p, l.bridge,
      charge l.client l.session.clientKey p.length⟩ := by
  refine ⟨⟨?_, inv.tallied.fresh, inv.tallied.counter⟩, inv.below⟩
  intro key
  rcases eq_or_ne key l.session.clientKey with rfl | hne
  · simp only [total] at hheeds
    simp only [total, charge_self]
    omega
  · simp only [total, charge_of_ne _ hne]
    exact inv.tallied.limit key

theorem Inv.clientArm (inv : Inv S l) (hsize : S.client.maxFrameSize = S.bridge.maxFrameSize)
    (hlive : l.session.client.outcome = none) {read : SocketRead}
    (hok : Heeds S l (.clientArm read)) : Inv S (l.step C S (.clientArm read)) := by
  have hstep : l.session.step C S (.clientArm read) = l.session.clientArm C S read := if_pos hlive
  cases hw : l.session.client.writes S.client read with
  | none =>
    rcases Session.clientArm_quiet C S l.session hw with heq | ⟨-, -, heq⟩ | ⟨-, heq⟩ <;>
      · rw [step_silent (hstep.trans heq) rfl rfl]
        exact inv.silent rfl id rfl
  | some p =>
    have hchunk := (Client.Relay.writes_eq_some.mp hw).2
    rw [step_eq (hstep.trans (Session.clientArm_writes C S l.session hw))
        (List.append_nil _).symm rfl,
      plaintextBytes_nil, charge_zero, plaintextBytes_data]
    exact inv.clientWrote (hsize ▸ SocketRead.length_chunk_le hchunk) (hok hlive p hw)

/-! ## Whole runs -/

theorem Inv.step (inv : Inv S l) (hen : S.bridge.keyRotationEnabled = true)
    (hsize : S.client.maxFrameSize = S.bridge.maxFrameSize) {op : Op} (hok : Heeds S l op) :
    Inv S (l.step C S op) := by
  by_cases hrun : l.session.Running op.side
  · have hstep : l.session.step C S op = l.session.act C S op := if_pos hrun
    cases op with
    | bridgeArm arm draw => exact inv.bridgeArm hen hrun hok
    | clientArm read => exact inv.clientArm hsize hrun hok
    | bridgeByte takes =>
      exact inv.reads hstep (Session.bridgeByte_sameSent C l.session takes) fun _ => hrun
    | bridgeEof => exact inv.reads hstep (Session.bridgeEof_sameSent l.session) fun _ => hrun
    | clientByte takes =>
      refine inv.reads hstep (Session.clientByte_sameSent C l.session takes) ?_
      intro hlive
      rwa [Session.act, Session.clientByte_bridge] at hlive
    | clientEof =>
      refine inv.reads hstep (Session.clientEof_sameSent C l.session) ?_
      intro hlive
      rwa [Session.act, Session.clientEof_bridge] at hlive
  · have hstep : l.session.step C S op = l.session := if_neg hrun
    rw [step_silent hstep rfl rfl]
    exact inv

/-- **The limit on a key's use** holds in every state of every run that heeds what the client
encrypts. The keys that only the bridge writes under need no condition: for these its counter is
the whole account. -/
theorem key_usage_limited (C : CipherSuite) (S : Setup)
    (hen : S.bridge.keyRotationEnabled = true)
    (hsize : S.client.maxFrameSize = S.bridge.maxFrameSize) {ops : List Op}
    (h : Meets (step C S) (Heeds S) (start S) ops) : (after C S ops).WithinLimit S :=
  (h.invariant (I := Inv S) (fun _ _ inv hok => inv.step hen hsize hok)
    (inv_start S)).tallied.limit

end Ledger

/-! ## Two runs -/

namespace Sample

/-- Both endpoints write under the handshake's key, and the bridge also under the next. -/
def countedRun : List Op :=
  [.clientArm (.ok [1, 2, 3]), .bridgeArm (.backend (.ok [9])) draw, .bridgeArm .timer draw,
    .bridgeArm (.backend (.ok [8, 7])) draw, .clientArm (.ok [4])]

/-- The smallest limit there is, and frames as large. -/
def oneMebibyte : Setup where
  bridge := ⟨1048576, true, 1048576, by decide, by decide⟩
  client := ⟨1048576, by decide⟩
  sessionKey := key

def upload : Bytes := List.replicate 1048576 0

end Sample

namespace Ledger

theorem key_usage_limited_counted :
    Meets (step Sample.suite Sample.setup) (Heeds Sample.setup) (start Sample.setup)
        Sample.countedRun ∧
      (after Sample.suite Sample.setup Sample.countedRun).total [] = 5 ∧
      (after Sample.suite Sample.setup Sample.countedRun).WithinLimit Sample.setup := by
  have h : Meets (step Sample.suite Sample.setup) (Heeds Sample.setup) (start Sample.setup)
      Sample.countedRun := by decide +kernel
  exact ⟨h, by decide +kernel, key_usage_limited _ _ rfl rfl h⟩

/-- A whole frame from the user, in a session that has not been disturbed. -/
theorem step_upload {C : CipherSuite} {S : Setup} {l : Ledger}
    (hlive : l.session.client.outcome = none) (heof : l.session.client.userEof = false)
    {data : Bytes} (hlen : data.length = S.client.maxFrameSize) :
    l.step C S (.clientArm (.ok data)) = ⟨l.session.clientWrote C data, l.bridge,
      charge l.client l.session.clientKey data.length⟩ := by
  have hne : data ≠ [] := by
    rintro rfl
    have := S.client.validFrameSize.1
    rw [List.length_nil] at hlen
    omega
  have hw : l.session.client.writes S.client (.ok data) = some data := by
    refine Client.Relay.writes_eq_some.mpr ⟨heof, SocketRead.chunk_eq_some.mpr ⟨?_, hne⟩⟩
    rw [SocketRead.into, ← hlen, List.take_length]
  have hstep : l.session.step C S (.clientArm (.ok data)) = l.session.clientWrote C data :=
    (if_pos hlive).trans (Session.clientArm_writes C S l.session hw)
  rw [step_eq hstep (List.append_nil _).symm rfl, plaintextBytes_nil, charge_zero,
    plaintextBytes_data]

/-- Two such frames; nothing is looked at of them but how long they are. The bridge's counter has
not moved, since nobody counts what the client sends. -/
theorem after_two_uploads (C : CipherSuite) (S : Setup) {data : Bytes}
    (hlen : data.length = S.client.maxFrameSize) :
    (after C S [.clientArm (.ok data), .clientArm (.ok data)]).session.bridge.bytesThisEpoch = 0 ∧
      (after C S [.clientArm (.ok data), .clientArm (.ok data)]).total [] =
        2 * S.client.maxFrameSize := by
  have hrun : after C S [.clientArm (.ok data), .clientArm (.ok data)] =
      ⟨((start S).session.clientWrote C data).clientWrote C data, fun _ => 0,
        charge (charge (fun _ => 0) [] data.length) [] data.length⟩ := by
    unfold after
    rw [List.foldl_cons, step_upload rfl rfl hlen, List.foldl_cons, step_upload rfl rfl hlen,
      List.foldl_nil]
    rfl
  rw [hrun]
  refine ⟨rfl, ?_⟩
  simp only [total, charge_self, hlen]
  omega

/-- **Uncounted.** Two uploads of 1 MiB with a limit of 1 MiB: the key has been used for the limit
and a frame, and the bridge has counted nothing. -/
theorem uncounted_client_bytes :
    (after Sample.suite Sample.oneMebibyte [.clientArm (.ok Sample.upload),
        .clientArm (.ok Sample.upload)]).session.bridge.bytesThisEpoch = 0 ∧
      ¬ (after Sample.suite Sample.oneMebibyte [.clientArm (.ok Sample.upload),
        .clientArm (.ok Sample.upload)]).WithinLimit Sample.oneMebibyte := by
  have hlen : Sample.upload.length = Sample.oneMebibyte.client.maxFrameSize :=
    List.length_replicate
  obtain ⟨hcounted, htotal⟩ := after_two_uploads Sample.suite Sample.oneMebibyte hlen
  refine ⟨hcounted, ?_⟩
  intro hlimit
  have h := hlimit []
  rw [htotal] at h
  exact absurd h (by decide)

end Ledger

end LatticeShield
