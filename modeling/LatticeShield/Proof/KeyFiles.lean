import LatticeShield.Bridge.Identity
import LatticeShield.Crypto.SampleHandshake
import LatticeShield.Lib.Lists

/-!
# The two key files of a directory

`generate_and_save` truncates and rewrites `server.sk`, and then `server.vk`. `load` reads the two
independently: it refuses a missing or a short file and has no way to see that a long enough one is
from an earlier call. Of all the points at which a call can stop, one leaves such a directory:
behind the whole signing key and before `server.vk` is opened, over a verifying key of an earlier
call (`CutBetween`). Everything else leaves the old pair, a file that is too short, or the new pair.

A call that does not get to open `server.sk` changes nothing, so what counts is the last one that
did.
-/

set_option autoImplicit false

namespace LatticeShield

open Lib

/-- What a writer has taken of `data` when it is done with it. -/
def Writer.taken (data : Bytes) : Writer → Bytes
  | accepts => data
  | failsAfter n => data.take n

namespace Bridge

/-! ## Sequences of calls -/

structure SaveCall where
  rng : Rng
  env : SaveEnv

structure KeyDir where
  disk : Disk
  /-- What the `generate_keypair` calls have returned. -/
  generated : List (SigningKey × VerifyingKey)

variable (D : MlDsa) (dir : String)

def SaveCall.pair (c : SaveCall) : SigningKey × VerifyingKey := (generateKeypair D c.rng).1

/-- The call comes to open `server.sk`, which truncates it. -/
def SaveCall.Opens (c : SaveCall) : Prop := c.env.createDir = .ok () ∧ c.env.openSk = .ok ()

namespace KeyDir

def step (st : KeyDir) (c : SaveCall) : KeyDir where
  disk := (ServerIdentity.generateAndSave D st.disk dir c.rng c.env).2
  generated := st.generated ++ match c.env.createDir with
    | .error _ => []
    | .ok () => [c.pair D]

def run (disk : Disk) (calls : List SaveCall) : KeyDir := calls.foldl (step D dir) ⟨disk, []⟩

/-- What `load` returns was generated together. `load` itself cannot tell: it reads the two files
one after the other and compares nothing but their lengths. -/
def Matched (st : KeyDir) : Prop :=
  ∀ identity, ServerIdentity.load st.disk.fileSystem (skPathIn dir) = .ok identity →
    (identity.signingKey, identity.verifyingKey) ∈ st.generated

/-- The mode `server.sk` has once the call has opened it. `mode(0o600)` is for a file that is
created; one that exists keeps its own. -/
def skMode (st : KeyDir) (c : SaveCall) : Nat :=
  (st.disk (skPathIn dir)).elim (384 &&& (511 - c.env.umask)) File.mode

/-- The call writes the whole signing key and does not come to open `server.vk`, which holds a
whole verifying key already; and `load` will not be put off by the mode. In every other way to
fail a call leaves a file that is too short, or none. -/
structure CutBetween (st : KeyDir) (c : SaveCall) : Prop where
  opens : c.Opens
  whole : (c.env.writeSk.taken (c.pair D).1.toList).length = signingKeyLen
  stops : ¬ (c.env.writeSk = .accepts ∧ c.env.openVk = .ok ())
  older : ∃ f, st.disk (vkPathIn dir) = some f ∧ verifyingKeyLen ≤ f.content.length
  mode : skMode dir st c % 512 = 384

/-! ## `load` -/

theorem vkPathFrom_skPathIn : vkPathFrom (skPathIn dir) = vkPathIn dir :=
  @withExtension_joinPath "server.sk" "server" "sk" "vk" dir (by decide) (by decide) (by decide)
    (by decide) (by decide) (by decide)

theorem skPathIn_ne : skPathIn dir ≠ vkPathIn dir := by
  obtain ⟨base, -, hjoin⟩ := joinPath_eq dir
  intro h
  have hlist := congrArg String.toList h
  rw [skPathIn, vkPathIn, hjoin, hjoin, List.append_cancel_left_eq] at hlist
  exact absurd hlist (by decide)

variable {D dir}

theorem readExactFile_eq_ok {fs : FileSystem} {path opening truncated : String} {n : Nat}
    {buf : Bytes} : readExactFile fs path n opening truncated = .ok buf ↔
      ∃ content, fs.read path = .ok content ∧ n ≤ content.length ∧ content.take n = buf := by
  unfold readExactFile
  constructor
  · intro h
    obtain ⟨content, hread, h⟩ := bind_eq_ok.mp h
    obtain ⟨_, hshort, h⟩ := bind_eq_ok.mp h
    rw [refuseIf_eq_ok, decide_eq_false_iff_not, Nat.not_lt] at hshort
    exact ⟨content, mapError_eq_ok.mp hread, hshort, Except.ok.inj h⟩
  · rintro ⟨content, hread, hlen, rfl⟩
    refine bind_eq_ok.mpr ⟨content, mapError_eq_ok.mpr hread, ?_⟩
    refine bind_eq_ok.mpr ⟨(), refuseIf_eq_ok.mpr ?_, rfl⟩
    simpa using hlen

/-- When `load` succeeds, and with what. Of either file only the first bytes count, as many as the
key has. -/
theorem load_iff {fs : FileSystem} {identity : ServerIdentity} :
    ServerIdentity.load fs (skPathIn dir) = .ok identity ↔
      ∃ mode sk vk, fs.mode (skPathIn dir) = .ok mode ∧ mode % 512 = 384 ∧
        fs.read (skPathIn dir) = .ok sk ∧ fs.read (vkPathIn dir) = .ok vk ∧
        signingKeyLen ≤ sk.length ∧ verifyingKeyLen ≤ vk.length ∧
        sk.take signingKeyLen = identity.signingKey.toList ∧
        vk.take verifyingKeyLen = identity.verifyingKey.toList := by
  unfold ServerIdentity.load
  constructor
  · intro h
    obtain ⟨mode, hmode, h⟩ := bind_eq_ok.mp h
    obtain ⟨_, hinsecure, h⟩ := bind_eq_ok.mp h
    obtain ⟨skBuf, hsk, h⟩ := bind_eq_ok.mp h
    obtain ⟨signingKey, hsigning, h⟩ := bind_eq_ok.mp h
    obtain ⟨vkBuf, hvk, h⟩ := bind_eq_ok.mp h
    obtain ⟨verifyingKey, hverifying, h⟩ := bind_eq_ok.mp h
    obtain rfl := Except.ok.inj h
    rw [vkPathFrom_skPathIn] at hvk
    obtain ⟨sk, hskRead, hsklen, rfl⟩ := readExactFile_eq_ok.mp hsk
    obtain ⟨vk, hvkRead, hvklen, rfl⟩ := readExactFile_eq_ok.mp hvk
    rw [mapError_eq_ok] at hmode hsigning hverifying
    rw [refuseIf_eq_ok, decide_eq_false_iff_not, not_not] at hinsecure
    exact ⟨mode, sk, vk, hmode, hinsecure, hskRead, hvkRead, hsklen, hvklen,
      arrayFromBytes_eq_ok.mp hsigning, arrayFromBytes_eq_ok.mp hverifying⟩
  · rintro ⟨mode, sk, vk, hmode, hsecure, hsk, hvk, hsklen, hvklen, hsigning, hverifying⟩
    refine bind_eq_ok.mpr ⟨mode, mapError_eq_ok.mpr hmode, ?_⟩
    refine bind_eq_ok.mpr ⟨(), refuseIf_eq_ok.mpr (by simpa using hsecure), ?_⟩
    refine bind_eq_ok.mpr ⟨_, readExactFile_eq_ok.mpr ⟨sk, hsk, hsklen, rfl⟩, ?_⟩
    refine bind_eq_ok.mpr ⟨identity.signingKey,
      mapError_eq_ok.mpr (arrayFromBytes_eq_ok.mpr hsigning), ?_⟩
    rw [vkPathFrom_skPathIn]
    refine bind_eq_ok.mpr ⟨_, readExactFile_eq_ok.mpr ⟨vk, hvk, hvklen, rfl⟩, ?_⟩
    exact bind_eq_ok.mpr ⟨identity.verifyingKey,
      mapError_eq_ok.mpr (arrayFromBytes_eq_ok.mpr hverifying), rfl⟩

theorem disk_read_eq_ok {disk : Disk} {path : String} {content : Bytes} :
    disk.fileSystem.read path = .ok content ↔ ∃ f, disk path = some f ∧ f.content = content := by
  cases h : disk path <;> simp [Disk.fileSystem, h]

theorem disk_mode_eq_ok {disk : Disk} {path : String} {mode : Nat} :
    disk.fileSystem.mode path = .ok mode ↔ ∃ f, disk path = some f ∧ f.mode = mode := by
  cases h : disk path <;> simp [Disk.fileSystem, h]

/-- When everything on the disk can be read. -/
theorem load_eq_ok {disk : Disk} {identity : ServerIdentity} :
    ServerIdentity.load disk.fileSystem (skPathIn dir) = .ok identity ↔
      ∃ fsk fvk, disk (skPathIn dir) = some fsk ∧ fsk.mode % 512 = 384 ∧
        disk (vkPathIn dir) = some fvk ∧
        signingKeyLen ≤ fsk.content.length ∧ verifyingKeyLen ≤ fvk.content.length ∧
        fsk.content.take signingKeyLen = identity.signingKey.toList ∧
        fvk.content.take verifyingKeyLen = identity.verifyingKey.toList := by
  simp only [load_iff, disk_read_eq_ok, disk_mode_eq_ok]
  constructor
  · rintro ⟨_, _, _, ⟨fsk, hfsk, rfl⟩, hmode, ⟨fsk', hfsk', rfl⟩, ⟨fvk, hfvk, rfl⟩, hload⟩
    obtain rfl := Option.some.inj (hfsk.symm.trans hfsk')
    exact ⟨fsk, fvk, hfsk, hmode, hfvk, hload⟩
  · rintro ⟨fsk, fvk, hfsk, hmode, hfvk, hload⟩
    exact ⟨_, _, _, ⟨fsk, hfsk, rfl⟩, hmode, ⟨fsk, hfsk, rfl⟩, ⟨fvk, hfvk, rfl⟩, hload⟩

/-! ## What one call does to the directory -/

variable {st : KeyDir} {c : SaveCall}

theorem saveFile_opened (disk : Disk) (path : String) (mode : Nat) (umask : Fin 512) (w : Writer)
    (data : Bytes) (creating writing : String) :
    saveFile disk path mode umask (.ok ()) w data creating writing =
      (if w = .accepts then .ok () else .error writing,
        Function.update disk path
          (some ⟨w.taken data, (disk path).elim (mode &&& (511 - umask)) File.mode⟩)) := by
  cases w <;> simp [saveFile, Writer.taken]

/-- A call that does not open `server.sk` leaves the disk as it is, since that is the first file
it writes. -/
theorem step_disk_of_not_opens (h : ¬ c.Opens) : (step D dir st c).disk = st.disk := by
  unfold step ServerIdentity.generateAndSave
  cases hdir : c.env.createDir with
  | error e => rfl
  | ok u =>
    cases hopen : c.env.openSk with
    | error e => simp [saveFile]
    | ok u' => exact absurd ⟨hdir, hopen⟩ h

variable (D dir st) in
theorem step_sk (h : c.Opens) : (step D dir st c).disk (skPathIn dir) =
    some ⟨c.env.writeSk.taken (c.pair D).1.toList, skMode dir st c⟩ := by
  have hne := skPathIn_ne dir
  simp only [step, ServerIdentity.generateAndSave, h.1, h.2, saveFile_opened]
  by_cases hw : c.env.writeSk = .accepts
  · simp only [if_pos hw]
    cases hopen : c.env.openVk with
    | error e =>
      simp only [saveFile, Function.update_self]
      rfl
    | ok u =>
      cases u
      simp only [saveFile_opened, Function.update_of_ne hne, Function.update_self]
      rfl
  · simp only [if_neg hw, Function.update_self]
    rfl

variable (D dir st) in
theorem step_vk (h : c.Opens) :
    ((c.env.writeSk = .accepts ∧ c.env.openVk = .ok ()) ∧
      ∃ mode, (step D dir st c).disk (vkPathIn dir) =
        some ⟨c.env.writeVk.taken (c.pair D).2.toList, mode⟩) ∨
    (¬ (c.env.writeSk = .accepts ∧ c.env.openVk = .ok ()) ∧
      (step D dir st c).disk (vkPathIn dir) = st.disk (vkPathIn dir)) := by
  have hne := (skPathIn_ne dir).symm
  simp only [step, ServerIdentity.generateAndSave, h.1, h.2, saveFile_opened]
  by_cases hw : c.env.writeSk = .accepts
  · simp only [if_pos hw]
    cases hopen : c.env.openVk with
    | error e =>
      refine Or.inr ⟨by simp, ?_⟩
      simp only [saveFile, Function.update_of_ne hne]
    | ok u =>
      cases u
      rw [saveFile_opened]
      exact Or.inl ⟨⟨hw, rfl⟩, _, Function.update_self ..⟩
  · refine Or.inr ⟨fun hboth => hw hboth.1, ?_⟩
    simp only [if_neg hw, Function.update_of_ne hne]

theorem step_generated (h : c.Opens) :
    (step D dir st c).generated = st.generated ++ [c.pair D] := by
  simp only [step, h.1]

theorem generated_subset_step (c : SaveCall) :
    st.generated ⊆ (step D dir st c).generated := List.subset_append_left _ _

theorem taken_eq {w : Writer} {n : Nat} {v : ByteArr n}
    (h : n ≤ (w.taken v.toList).length) : w.taken v.toList = v.toList := by
  cases w with
  | accepts => rfl
  | failsAfter m =>
    simp only [Writer.taken, List.length_take, List.Vector.toList_length] at h
    exact List.take_of_length_le (by rw [List.Vector.toList_length]; omega)

/-! ## Which calls leave a pair behind -/

/-- A call that opens `server.sk` and is not cut between the files leaves its own pair, if
anything that can be loaded: opening a file truncates it, so what was there before cannot show
through. -/
theorem matched_of_not_cut (h : c.Opens) (hcut : ¬ CutBetween D dir st c) :
    Matched dir (step D dir st c) := by
  intro identity hload
  obtain ⟨fsk, fvk, hfsk, hmode, hfvk, hsklen, hvklen, hsk, hvk⟩ := load_eq_ok.mp hload
  rw [step_sk D dir st h, Option.some.injEq] at hfsk
  subst hfsk
  have hwhole := taken_eq hsklen
  have hsigning : identity.signingKey = (c.pair D).1 := by
    rw [hwhole, List.take_of_length_le (by simp)] at hsk
    exact ByteArr.toList_inj.mp hsk.symm
  rcases step_vk D dir st h with ⟨-, mode, hnew⟩ | ⟨hstops, hold⟩
  · rw [hnew, Option.some.injEq] at hfvk
    subst hfvk
    have hverifying : identity.verifyingKey = (c.pair D).2 := by
      rw [taken_eq hvklen, List.take_of_length_le (by simp)] at hvk
      exact ByteArr.toList_inj.mp hvk.symm
    rw [step_generated h, hsigning, hverifying]
    exact List.mem_append_right _ List.mem_cons_self
  · refine absurd ⟨h, ?_, hstops, ⟨fvk, hold ▸ hfvk, hvklen⟩, hmode⟩ hcut
    rw [hwhole, List.Vector.toList_length]

/-- No key of one call is a key of another. -/
def Distinct (pairs : List (SigningKey × VerifyingKey)) : Prop :=
  pairs.Pairwise fun x y => x.1 ≠ y.1 ∧ x.2 ≠ y.2

/-- A whole verifying key on the disk is one that was generated. A shorter file, as a failed write
leaves it, is no key. -/
def Known (dir : String) (st : KeyDir) : Prop :=
  ∀ f, st.disk (vkPathIn dir) = some f → verifyingKeyLen ≤ f.content.length →
    ∃ pair ∈ st.generated, f.content = pair.2.toList

theorem Known.step (h : Known dir st) (c : SaveCall) : Known dir (step D dir st c) := by
  intro f hf hlen
  by_cases hopens : c.Opens
  · rcases step_vk D dir st hopens with ⟨-, mode, hnew⟩ | ⟨-, hold⟩
    · rw [hnew, Option.some.injEq] at hf
      subst hf
      refine ⟨c.pair D, ?_, taken_eq hlen⟩
      rw [step_generated hopens]
      exact List.mem_append_right _ List.mem_cons_self
    · obtain ⟨pair, hpair, heq⟩ := h f (hold ▸ hf) hlen
      exact ⟨pair, generated_subset_step c hpair, heq⟩
  · rw [step_disk_of_not_opens hopens] at hf
    obtain ⟨pair, hpair, heq⟩ := h f hf hlen
    exact ⟨pair, generated_subset_step c hpair, heq⟩

/-- A call that is cut between the files leaves halves of two pairs. That the two are not one pair
after all is where `Distinct` is needed. -/
theorem not_matched_of_cut (hknown : Known dir st) (hcut : CutBetween D dir st c)
    (hdistinct : Distinct (step D dir st c).generated) : ¬ Matched dir (step D dir st c) := by
  intro hmatched
  obtain ⟨f, hf, hlen⟩ := hcut.older
  obtain ⟨pair, hpair, hcontent⟩ := hknown f hf hlen
  have hwhole := taken_eq (Nat.le_of_eq hcut.whole.symm)
  have hvk : (step D dir st c).disk (vkPathIn dir) = some f := by
    rcases step_vk D dir st hcut.opens with ⟨hboth, -⟩ | ⟨-, hold⟩
    · exact absurd hboth hcut.stops
    · exact hold.trans hf
  have hload : ServerIdentity.load (step D dir st c).disk.fileSystem (skPathIn dir) =
      .ok ⟨(c.pair D).1, pair.2⟩ := by
    refine load_eq_ok.mpr ⟨_, f, step_sk D dir st hcut.opens, hcut.mode, hvk,
      Nat.le_of_eq hcut.whole.symm, hlen, ?_, ?_⟩
    · simp only [hwhole, List.take_of_length_le (Nat.le_of_eq (List.Vector.toList_length _))]
    · rw [hcontent, List.take_of_length_le (Nat.le_of_eq (List.Vector.toList_length _))]
  -- the pair it says is there would have to be this call's and that one's
  rw [step_generated hcut.opens] at hdistinct
  have hne := ((pairwise_snoc _ _).mp hdistinct).2
  have hmem := hmatched _ hload
  rw [step_generated hcut.opens] at hmem
  rcases List.mem_append.mp hmem with hmem | hmem
  · exact (hne _ hmem).1 rfl
  · rw [List.mem_singleton] at hmem
    exact (hne pair hpair).2 (Prod.ext_iff.mp hmem).2

/-! ## Runs -/

theorem run_snoc (disk : Disk) (calls : List SaveCall) (c : SaveCall) :
    run D dir disk (calls ++ [c]) = step D dir (run D dir disk calls) c := by
  simp [run]

theorem known_run {disk : Disk} (hvk : disk (vkPathIn dir) = none) (calls : List SaveCall) :
    Known dir (run D dir disk calls) := by
  induction calls using List.reverseRecOn with
  | nil =>
    intro f hf
    have hnone : (run D dir disk []).disk (vkPathIn dir) = none := hvk
    rw [hnone] at hf
    exact absurd hf (by simp)
  | append_singleton calls c ih =>
    rw [run_snoc]
    exact ih.step c

variable (D dir) in
/-- The last call that opened `server.sk` was not cut between the files. Earlier ones do not
matter: what they left is overwritten. -/
def Uncut (disk : Disk) (calls : List SaveCall) : Prop :=
  ∀ before c after, calls = before ++ c :: after → (∀ c' ∈ after, ¬ c'.Opens) →
    ¬ CutBetween D dir (run D dir disk before) c

theorem uncut_snoc_of_opens {disk : Disk} {calls : List SaveCall} (h : c.Opens) :
    Uncut D dir disk (calls ++ [c]) ↔ ¬ CutBetween D dir (run D dir disk calls) c := by
  constructor
  · intro huncut
    exact huncut calls c [] rfl (List.forall_mem_nil _)
  · intro hcut before c' after heq hafter
    cases after using List.reverseRecOn with
    | nil =>
      obtain ⟨rfl, hc⟩ := List.append_inj' heq rfl
      exact List.singleton_inj.mp hc ▸ hcut
    | append_singleton after last =>
      rw [← List.cons_append, ← List.append_assoc] at heq
      have hlast := List.singleton_inj.mp (List.append_inj' heq rfl).2
      exact absurd (hlast ▸ h) (hafter last (by simp))

theorem uncut_snoc_of_not_opens {disk : Disk} {calls : List SaveCall} (h : ¬ c.Opens) :
    Uncut D dir disk (calls ++ [c]) ↔ Uncut D dir disk calls := by
  constructor
  · intro huncut before c' after heq hafter
    refine huncut before c' (after ++ [c]) (by rw [heq]; simp) ?_
    simpa [or_imp, forall_and, h] using hafter
  · intro huncut before c' after heq hafter
    cases after using List.reverseRecOn with
    | nil =>
      obtain ⟨rfl, hc⟩ := List.append_inj' heq rfl
      rw [← List.singleton_inj.mp hc]
      exact fun hcut => h hcut.opens
    | append_singleton after last =>
      rw [← List.cons_append, ← List.append_assoc] at heq
      refine huncut before c' after (List.append_inj' heq rfl).1 ?_
      intro d hd
      exact hafter d (List.mem_append_left _ hd)

theorem distinct_of_snoc {disk : Disk} {calls : List SaveCall}
    (h : Distinct (run D dir disk (calls ++ [c])).generated) :
    Distinct (run D dir disk calls).generated := by
  rw [run_snoc] at h
  exact h.sublist (List.sublist_append_left _ _)

/-- A call that does not open `server.sk` only adds to what was generated. -/
theorem matched_step_of_not_opens (h : ¬ c.Opens) (hmatched : Matched dir st) :
    Matched dir (step D dir st c) := by
  intro identity hload
  rw [step_disk_of_not_opens h] at hload
  exact generated_subset_step c (hmatched identity hload)

/-- And what it adds was not loaded before. -/
theorem matched_of_step (hknown : Known dir st) (h : ¬ c.Opens)
    (hdistinct : Distinct (step D dir st c).generated) (hmatched : Matched dir (step D dir st c)) :
    Matched dir st := by
  intro identity hload
  obtain ⟨fsk, fvk, -, -, hfvk, -, hvklen, -, hvk⟩ := load_eq_ok.mp hload
  obtain ⟨pair, hpair, hcontent⟩ := hknown fvk hfvk hvklen
  have hverifying : pair.2 = identity.verifyingKey := by
    rw [hcontent, List.take_of_length_le (Nat.le_of_eq (List.Vector.toList_length _))] at hvk
    exact ByteArr.toList_inj.mp hvk
  have hmem := hmatched identity (by rw [step_disk_of_not_opens h]; exact hload)
  rcases List.mem_append.mp hmem with hmem | hmem
  · exact hmem
  · exact absurd hverifying ((List.pairwise_append.mp hdistinct).2.2 pair hpair _ hmem).2

/-- In a directory without key files yet: **what `load` returns was generated together, unless the
last call that opened `server.sk` was cut between the two files**; and then it was not, if no key
was generated twice. The calls may fail at any place and in any number, and a write may stop
anywhere in the middle. -/
theorem key_files_match_iff (D : MlDsa) (dir : String) (disk : Disk)
    (hsk : disk (skPathIn dir) = none) (hvk : disk (vkPathIn dir) = none)
    (calls : List SaveCall) :
    (Uncut D dir disk calls → Matched dir (run D dir disk calls)) ∧
    (Distinct (run D dir disk calls).generated → Matched dir (run D dir disk calls) →
      Uncut D dir disk calls) := by
  induction calls using List.reverseRecOn with
  | nil =>
    refine ⟨?_, fun _ _ before c after heq => absurd heq (by simp)⟩
    intro _ identity hload
    obtain ⟨fsk, fvk, hfsk, -⟩ := load_eq_ok.mp hload
    have hnone : (run D dir disk []).disk (skPathIn dir) = none := hsk
    rw [hnone] at hfsk
    exact absurd hfsk (by simp)
  | append_singleton calls c ih =>
    by_cases hopens : c.Opens
    · rw [uncut_snoc_of_opens hopens, run_snoc]
      refine ⟨matched_of_not_cut hopens, ?_⟩
      intro hdistinct hmatched hcut
      exact not_matched_of_cut (known_run hvk calls) hcut hdistinct hmatched
    · rw [uncut_snoc_of_not_opens hopens]
      refine ⟨?_, ?_⟩
      · intro huncut
        rw [run_snoc]
        exact matched_step_of_not_opens hopens (ih.1 huncut)
      · intro hdistinct hmatched
        refine ih.2 (distinct_of_snoc hdistinct) ?_
        rw [run_snoc] at hdistinct hmatched
        exact matched_of_step (known_run hvk calls) hopens hdistinct hmatched

/-! ## Sample calls -/

/-- A call in which everything goes well but, perhaps, the opening of `server.vk`. -/
def sampleSave (b : UInt8) (openVk : Except String Unit) : SaveCall where
  rng := fun _ => b
  env := { createDir := .ok (), openSk := .ok (), writeSk := .accepts, openVk, writeVk := .accepts,
           umask := 18 }

/-- Two calls that succeed, the second over the files of the first. -/
theorem key_files_match_regenerated :
    Matched "keys" (run (Sample.dsa fun _ _ => false) "keys" (fun _ => none)
      [sampleSave 1 (.ok ()), sampleSave 2 (.ok ())]) := by
  apply (key_files_match_iff _ _ _ rfl rfl _).1
  intro before c after heq _ hcut
  have hc : c ∈ [sampleSave 1 (.ok ()), sampleSave 2 (.ok ())] := by rw [heq]; simp
  rcases List.mem_pair.mp hc with rfl | rfl
  · exact hcut.stops ⟨rfl, rfl⟩
  · exact hcut.stops ⟨rfl, rfl⟩

theorem pad32_inj {n : Nat} {u v : ByteArr 32} (h : 32 ≤ n)
    (heq : Sample.pad32 n u h = Sample.pad32 n v h) : u = v := by
  rw [← Sample.slice_pad32 u h (by omega), heq, Sample.slice_pad32 v h (by omega)]

/-- **A second call that cannot open `server.vk`.** The new signing key is loaded with the old
verifying key, and the bridge signs with a key that nobody checks its signatures by. -/
theorem key_files_of_two_calls :
    ¬ Matched "keys" (run (Sample.dsa fun _ _ => false) "keys" (fun _ => none)
      [sampleSave 1 (.ok ()), sampleSave 2 (.error "Permission denied (os error 13)")]) := by
  have hfirst : (sampleSave 1 (.ok ())).Opens := ⟨rfl, rfl⟩
  have hseeds : ((sampleSave 1 (.ok ())).rng.fill 32).1 ≠
      ((sampleSave 2 (.error "Permission denied (os error 13)")).rng.fill 32).1 := by decide
  have hknown : Known "keys" (run (Sample.dsa fun _ _ => false) "keys" (fun _ => none)
      [sampleSave 1 (.ok ())]) := known_run rfl _
  refine not_matched_of_cut hknown ⟨⟨rfl, rfl⟩, ?_, ?_, ?_, ?_⟩ ?_
  · exact List.Vector.toList_length _
  · exact fun hboth => absurd hboth.2 (by simp [sampleSave])
  · rcases step_vk (Sample.dsa fun _ _ => false) "keys" ⟨fun _ => none, []⟩ hfirst with
      ⟨-, mode, hnew⟩ | ⟨hstops, -⟩
    · exact ⟨_, hnew, Nat.le_of_eq (List.Vector.toList_length _).symm⟩
    · exact absurd ⟨rfl, rfl⟩ hstops
  · have hsk := step_sk (Sample.dsa fun _ _ => false) "keys" ⟨fun _ => none, []⟩ hfirst
    simp only [skMode, hsk, Option.elim_some]
    rfl
  · refine List.pairwise_pair.mpr ⟨fun heq => hseeds (pad32_inj (by decide) heq),
      fun heq => hseeds (pad32_inj (by decide) heq)⟩

end KeyDir

end Bridge

end LatticeShield
