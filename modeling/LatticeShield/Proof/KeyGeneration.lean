import LatticeShield.Proof.KeyFiles

/-!
# Whether generated keys can be loaded

`generate_and_save` opens both files with a mode, and the mode is for files that are created. One
that was there keeps the mode it had, with the new key in it: `load` refuses a signing key whose
mode is not 0600, and cannot open a verifying key the user may write but not read. So whether a call
that succeeded has left a pair that loads is decided by the directory before the call, and by the
umask where a file was not there.
-/

set_option autoImplicit false

namespace LatticeShield.Bridge

open Lib

/-! ## Permissions -/

theorem testBit_of_mode {mode : Nat} (h : mode % 512 = 384) {i : Nat} (hi : i < 9) :
    mode.testBit i = Nat.testBit 384 i := by
  have hmod := Nat.testBit_mod_two_pow mode 9 i
  rw [decide_eq_true hi, Bool.true_and] at hmod
  rw [← hmod]
  exact congrArg (Nat.testBit · i) h

/-- A file of mode 0600 that the user may write is the user's own, or the user is root: group and
others have no bit of it that would let them write. -/
theorem User.mayRead_of_mayWrite {user : User} {path : String} {mode : Nat}
    (hwrite : user.mayWrite path mode = true) (hmode : mode % 512 = 384) :
    user.mayRead path mode = true := by
  rw [User.mayWrite, Bool.or_eq_true] at hwrite
  rw [User.mayRead, Bool.or_eq_true]
  rcases hwrite with hroot | hbit
  · exact Or.inl hroot
  · right
    cases hstanding : user.standing path with
    | owner =>
      rw [Standing.shift, testBit_of_mode hmode (by decide)]
      decide
    | group | other =>
      rw [hstanding, Standing.shift, testBit_of_mode hmode (by decide)] at hbit
      exact absurd hbit (by decide)

/-! ## A call that succeeds -/

variable {D : MlDsa} {dir : String} {disk : Disk} {rng : Rng} {env : SaveEnv}

/-- The permission bits of a file after it has been opened with `mode`. -/
def Disk.modeAfter (disk : Disk) (umask : Fin 512) (path : String) (mode : Nat) : Nat :=
  (disk path).elim (mode &&& (511 - umask)) File.mode

theorem saveFile_eq_ok {path creating writing : String} {mode : Nat} {umask : Fin 512}
    {opened : Except String Unit} {w : Writer} {data : Bytes}
    (h : (saveFile disk path mode umask opened w data creating writing).1 = .ok ()) :
    saveFile disk path mode umask opened w data creating writing =
      (.ok (), Function.update disk path (some ⟨data, disk.modeAfter umask path mode⟩)) := by
  cases opened with
  | error e => cases h
  | ok =>
    cases w with
    | accepts => rfl
    | failsAfter n => cases h

/-- Both files hold the pair, with the modes they were opened with or had. `create(true)` sets a
mode only where it creates. -/
theorem generateAndSave_eq_ok
    (h : (ServerIdentity.generateAndSave D disk dir rng env).1 = .ok ()) :
    (ServerIdentity.generateAndSave D disk dir rng env).2 (skPathIn dir) =
      some ⟨(generateKeypair D rng).1.1.toList, disk.modeAfter env.umask (skPathIn dir) 384⟩ ∧
    (ServerIdentity.generateAndSave D disk dir rng env).2 (vkPathIn dir) =
      some ⟨(generateKeypair D rng).1.2.toList, disk.modeAfter env.umask (vkPathIn dir) 420⟩ := by
  have hne := KeyDir.skPathIn_ne dir
  unfold ServerIdentity.generateAndSave at h ⊢
  cases hdir : env.createDir with
  | error e =>
    rw [hdir] at h
    cases h
  | ok =>
    simp only [hdir] at h ⊢
    generalize hsk : saveFile disk (skPathIn dir) 384 env.umask env.openSk env.writeSk _ _ _ = sk
      at h ⊢
    obtain ⟨result, disk'⟩ := sk
    cases result with
    | error e => cases h
    | ok =>
      have hfirst := saveFile_eq_ok (congrArg Prod.fst hsk)
      obtain rfl : disk' = _ := congrArg Prod.snd (hsk.symm.trans hfirst)
      have hsecond := saveFile_eq_ok h
      simp only at hsecond ⊢
      rw [hsecond]
      refine ⟨?_, ?_⟩
      · show Function.update _ (vkPathIn dir) _ (skPathIn dir) = _
        rw [Function.update_of_ne hne, Function.update_self]
      · show Function.update _ (vkPathIn dir) _ (vkPathIn dir) = _
        rw [Function.update_self, Disk.modeAfter, Function.update_of_ne hne.symm]
        rfl

/-- The user may read a file after a call: it is the user's own if the call has created it. -/
theorem mayRead_after {user : User} {path : String} {mode : Nat} {umask : Fin 512}
    (hwritable : ∀ f, disk path = some f → user.mayWrite path f.mode = true)
    (hmode : disk.modeAfter umask path mode % 512 = 384) :
    (user.after disk).mayRead path (disk.modeAfter umask path mode) = true := by
  apply User.mayRead_of_mayWrite ?_ hmode
  rw [User.mayWrite, Bool.or_eq_true]
  cases hf : disk path with
  | some f =>
    have hwrite := hwritable f hf
    rw [User.mayWrite, Bool.or_eq_true] at hwrite
    simpa [Disk.modeAfter, User.after, hf] using hwrite
  | none =>
    right
    have hstanding : (user.after disk).standing path = .owner := by simp [User.after, hf]
    rw [hstanding, Standing.shift, testBit_of_mode hmode (by decide)]
    decide

theorem read_eq_ok {user : User} {path : String} {content : Bytes} :
    (user.fileSystem disk).read path = .ok content ↔
      ∃ f, disk path = some f ∧ user.mayRead path f.mode = true ∧ f.content = content := by
  cases hf : disk path with
  | none => simp [User.fileSystem, hf]
  | some f =>
    by_cases hmay : user.mayRead path f.mode = true
    · simp [User.fileSystem, hf, hmay]
    · simp [User.fileSystem, hf, hmay]

/-- `server.sk` had mode 0600, or is created with it; and the user may read `server.vk`, which was
there with a mode that allows it, or is created so. `OpenOptions::mode` is for files that are
created, and the umask takes bits away from it. -/
structure Loadable (user : User) (disk : Disk) (umask : Fin 512) (dir : String) : Prop where
  sk : disk.modeAfter umask (skPathIn dir) 384 % 512 = 384
  vk : (disk (vkPathIn dir)).elim (user.root || Nat.testBit (420 &&& (511 - umask.val)) 8)
    (fun f => user.mayRead (vkPathIn dir) f.mode) = true

theorem mayRead_vk_after {user : User} {umask : Fin 512} {path : String} {mode : Nat} :
    (user.after disk).mayRead path (disk.modeAfter umask path mode) =
      (disk path).elim (user.root || Nat.testBit (mode &&& (511 - umask.val)) 8)
        (fun f => user.mayRead path f.mode) := by
  cases hf : disk path with
  | none => simp [User.mayRead, User.after, Disk.modeAfter, Standing.shift, hf]
  | some f => simp [User.mayRead, User.after, Disk.modeAfter, hf]

/-- **Generated keys.** Whatever is in the directory before, a call that succeeds leaves a signing
key of mode 0600 and a pair that loads, exactly when the files that were there had the modes for
it and the umask gives them to those that were not. -/
theorem generated_pair_loads_iff (user : User)
    (hwritable : ∀ f, disk (skPathIn dir) = some f →
      user.mayWrite (skPathIn dir) f.mode = true)
    (h : (ServerIdentity.generateAndSave D disk dir rng env).1 = .ok ()) :
    ((∃ f, (ServerIdentity.generateAndSave D disk dir rng env).2 (skPathIn dir) = some f ∧
        f.mode % 512 = 384) ∧
      ServerIdentity.load ((user.after disk).fileSystem
        (ServerIdentity.generateAndSave D disk dir rng env).2) (skPathIn dir) =
        .ok ⟨(generateKeypair D rng).1.1, (generateKeypair D rng).1.2⟩) ↔
    Loadable user disk env.umask dir := by
  obtain ⟨hsk, hvk⟩ := generateAndSave_eq_ok h
  generalize (ServerIdentity.generateAndSave D disk dir rng env).2 = disk' at hsk hvk ⊢
  constructor
  · rintro ⟨⟨f, hf, hmode⟩, hload⟩
    obtain rfl := Option.some.inj (hsk.symm.trans hf)
    refine ⟨hmode, ?_⟩
    obtain ⟨_, _, _, -, -, -, hread, -⟩ := KeyDir.load_iff.mp hload
    obtain ⟨f, hf, hmay, -⟩ := read_eq_ok.mp hread
    obtain rfl := Option.some.inj (hvk.symm.trans hf)
    rwa [mayRead_vk_after] at hmay
  · intro loadable
    refine ⟨⟨_, hsk, loadable.sk⟩, ?_⟩
    refine KeyDir.load_iff.mpr ⟨_, _, _, KeyDir.disk_mode_eq_ok.mpr ⟨_, hsk, rfl⟩, loadable.sk,
      read_eq_ok.mpr ⟨_, hsk, ?_, rfl⟩, read_eq_ok.mpr ⟨_, hvk, ?_, rfl⟩, ?_, ?_, ?_, ?_⟩
    · exact mayRead_after hwritable loadable.sk
    · rw [mayRead_vk_after]
      exact loadable.vk
    · exact Nat.le_of_eq (List.Vector.toList_length _).symm
    · exact Nat.le_of_eq (List.Vector.toList_length _).symm
    · exact List.take_of_length_le (Nat.le_of_eq (List.Vector.toList_length _))
    · exact List.take_of_length_le (Nat.le_of_eq (List.Vector.toList_length _))

/-- The owner of what is there, without privileges. -/
def plainUser : User := ⟨false, fun _ => .owner⟩

/-- A new directory, and the umask 022. -/
theorem generated_pair_loads_fresh :
    ServerIdentity.load ((plainUser.after fun _ => none).fileSystem
      (ServerIdentity.generateAndSave (Sample.dsa fun _ _ => false) (fun _ => none) "keys"
        (fun _ => 1) (KeyDir.sampleSave 1 (.ok ())).env).2) (skPathIn "keys") =
      .ok ⟨(generateKeypair (Sample.dsa fun _ _ => false) fun _ => 1).1.1,
        (generateKeypair (Sample.dsa fun _ _ => false) fun _ => 1).1.2⟩ := by
  refine ((generated_pair_loads_iff plainUser ?_ ?_).mpr ⟨?_, ?_⟩).2
  · exact fun f hf => nomatch hf
  · rfl
  · decide
  · decide

/-- A directory with an empty `server.sk` of mode 0644. -/
def copiedKey : Disk := fun path => if path = skPathIn "keys" then some ⟨[], 420⟩ else none

/-- Over it the call succeeds, and the new key has that mode. The key is readable by everybody,
and `load` refuses it. -/
theorem generated_pair_refused :
    ¬ ∀ (D : MlDsa) (user : User) (disk : Disk) (dir : String) (rng : Rng) (env : SaveEnv),
      (∀ path f, disk path = some f → user.mayWrite path f.mode = true) →
      (ServerIdentity.generateAndSave D disk dir rng env).1 = .ok () →
      (∃ f, (ServerIdentity.generateAndSave D disk dir rng env).2 (skPathIn dir) = some f ∧
        f.mode % 512 = 384) ∧
      ServerIdentity.load ((user.after disk).fileSystem
        (ServerIdentity.generateAndSave D disk dir rng env).2) (skPathIn dir) =
        .ok ⟨(generateKeypair D rng).1.1, (generateKeypair D rng).1.2⟩ := by
  intro hall
  have hok : (ServerIdentity.generateAndSave (Sample.dsa fun _ _ => false) copiedKey "keys"
      (fun _ => 1) (KeyDir.sampleSave 1 (.ok ())).env).1 = .ok () := rfl
  have hwritable : ∀ path f, copiedKey path = some f → plainUser.mayWrite path f.mode = true := by
    intro path f hf
    obtain ⟨-, hf⟩ := Option.ite_none_right_eq_some.mp hf
    rw [← Option.some.inj hf]
    show (false || Nat.testBit 420 7) = true
    decide
  obtain ⟨⟨f, hf, hmode⟩, -⟩ := hall _ plainUser copiedKey "keys" _ _ hwritable hok
  rw [(generateAndSave_eq_ok hok).1, Disk.modeAfter, copiedKey, if_pos rfl] at hf
  obtain rfl := Option.some.inj hf
  exact absurd hmode (by decide)

end LatticeShield.Bridge
