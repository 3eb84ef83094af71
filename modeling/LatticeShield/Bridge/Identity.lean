import LatticeShield.Crypto.Channel
import LatticeShield.Crypto.Signing
import LatticeShield.Lib.Fallible
import LatticeShield.Lib.Text

/-!
# Long-term keys (`latticeshield-bridge/src/identity.rs`)

The three key files of a bridge, loaded once at start. The signing key's file must have mode 0600
and at least as many bytes as the key has; the two verifying keys a peer is known by must have
exactly so many.

The server's own pair is also written here, by `generate_and_save`: two files, one after the other.
Every file operation of it may fail, and a write may fail after some of its bytes.
-/

set_option autoImplicit false

namespace LatticeShield.Bridge

open Lib

/-- The files as they are found; an error is an `io::Error` with its text. A file may be readable
and its mode not, or the other way round. -/
structure FileSystem where
  mode : String → Except String Nat
  read : String → Except String Bytes

/-! ## The server's pair -/

structure ServerIdentity where
  signingKey : SigningKey
  verifyingKey : VerifyingKey
deriving DecidableEq

/-- `{:o}`. -/
def octal (n : Nat) : String := String.ofList (Nat.toDigits 8 n)

/-- `path.with_extension("vk")`: the verifying key is looked for beside the signing key, under its
name. -/
def vkPathFrom (skPath : String) : String := withExtension skPath "vk"

/-- `File::open(path)?.read_exact(&mut [0u8; n])?`: what is behind the first `n` bytes is not
read. -/
def readExactFile (fs : FileSystem) (path : String) (n : Nat) (opening truncated : String) :
    Except String Bytes := do
  let content ← (fs.read path).mapError fun _ => opening
  refuseIf (content.length < n) truncated
  return content.take n

/-- `ServerIdentity::load`. The mode is checked before a byte of the key is read, and the two keys
are not checked to belong together. -/
def ServerIdentity.load (fs : FileSystem) (skPath : String) : Except String ServerIdentity := do
  let metadata ← (fs.mode skPath).mapError fun _ => s!"no se puede acceder a {skPath}"
  -- the mode must be `0o600`
  let mode := metadata % 512
  refuseIf (mode ≠ 384)
    s!"permisos inseguros en {skPath}: {octal mode} (debe ser 0600 — ejecuta: chmod 600 {skPath})"
  let skBuf ← readExactFile fs skPath signingKeyLen s!"abriendo {skPath}"
    "leyendo signing key — archivo truncado?"
  let signingKey ← (SigningKey.fromBytes skBuf).mapError fun e =>
    s!"signing key invalida en {skPath}: {e.display}"
  let vkPath := vkPathFrom skPath
  let vkBuf ← readExactFile fs vkPath verifyingKeyLen
    s!"abriendo {vkPath} — existe server.vk junto a server.sk?"
    "leyendo verifying key — archivo truncado?"
  let verifyingKey ← (VerifyingKey.fromBytes vkBuf).mapError fun e =>
    s!"verifying key invalida en {vkPath}: {e.display}"
  return { signingKey, verifyingKey }

/-! ## Writing the pair -/

structure File where
  content : Bytes
  /-- The permission bits. -/
  mode : Nat
deriving DecidableEq

abbrev Disk := String → Option File

/-- What is on the disk can be read, by whoever asks. The permissions of a user come in with
`User.fileSystem`. -/
def Disk.fileSystem (disk : Disk) : FileSystem where
  mode path := (disk path).elim (.error "No such file or directory (os error 2)") (.ok ·.mode)
  read path := (disk path).elim (.error "No such file or directory (os error 2)") (.ok ·.content)

/-- Which of the permission bits of a file are those of a user. The first that applies counts, so
an owner without the bit is not helped by the group's. -/
inductive Standing where
  | owner
  | group
  | other
deriving DecidableEq, Repr

/-- The user a program runs as, and what it is to each file. `root` passes every check of the
bits. -/
structure User where
  root : Bool
  standing : String → Standing

def Standing.shift : Standing → Nat
  | .owner => 6
  | .group => 3
  | .other => 0

def User.mayRead (user : User) (path : String) (mode : Nat) : Bool :=
  user.root || mode.testBit ((user.standing path).shift + 2)

def User.mayWrite (user : User) (path : String) (mode : Nat) : Bool :=
  user.root || mode.testBit ((user.standing path).shift + 1)

/-- What the user finds on the disk; the mode is seen without a permission on the file. -/
def User.fileSystem (user : User) (disk : Disk) : FileSystem where
  mode := disk.fileSystem.mode
  read path := match disk path with
    | none => .error "No such file or directory (os error 2)"
    | some f =>
      if user.mayRead path f.mode then .ok f.content else .error "Permission denied (os error 13)"

/-- What was not there before is the user's own. A file that was there keeps its owner, whoever
has written to it. -/
def User.after (user : User) (before : Disk) : User where
  root := user.root
  standing path := if (before path).isNone then .owner else user.standing path

/-- How the file operations of one `generate_and_save` go, in the order in which they come, with
the umask of the process. -/
structure SaveEnv where
  createDir : Except String Unit
  openSk : Except String Unit
  writeSk : Writer
  openVk : Except String Unit
  writeVk : Writer
  umask : Fin 512

/-- `OpenOptions::new().write(true).create(true).truncate(true).mode(mode).open(path)?` and
`.write_all(data)?`. A file that is there keeps its mode. -/
def saveFile (disk : Disk) (path : String) (mode : Nat) (umask : Fin 512)
    (opened : Except String Unit) (w : Writer) (data : Bytes) (creating writing : String) :
    Except String Unit × Disk :=
  match opened with
  | .error _ => (.error creating, disk)
  | .ok () =>
    let mode := (disk path).elim (mode &&& (511 - umask)) File.mode
    match w with
    | .accepts => (.ok (), Function.update disk path (some ⟨data, mode⟩))
    | .failsAfter n => (.error writing, Function.update disk path (some ⟨data.take n, mode⟩))

def skPathIn (dir : String) : String := joinPath dir "server.sk"
def vkPathIn (dir : String) : String := joinPath dir "server.vk"

/-- The modes are `0o600` and `0o644`. `server.sk` is written first and `server.vk` behind it, and
what has been written is left as it is when a later step fails. -/
def ServerIdentity.generateAndSave (D : MlDsa) (disk : Disk) (dir : String) (rng : Rng)
    (env : SaveEnv) : Except String Unit × Disk :=
  match env.createDir with
  | .error _ => (.error s!"creando directorio {dir}", disk)
  | .ok () =>
    let ((sk, vk), _) := generateKeypair D rng
    match saveFile disk (skPathIn dir) 384 env.umask env.openSk env.writeSk sk.toList
        s!"creando {skPathIn dir}" "escribiendo signing key" with
    | (.error e, disk) => (.error e, disk)
    | (.ok (), disk) => saveFile disk (vkPathIn dir) 420 env.umask env.openVk env.writeVk vk.toList
        s!"creando {vkPathIn dir}" "escribiendo verifying key"

/-! ## Peers -/

inductive IdentityError where
  | io (e : String)
  | invalidSize (expected found : Nat)
  | invalidKey (msg : String)
deriving DecidableEq, Repr

def IdentityError.display : IdentityError → String
  | .io e => s!"archivo no encontrado o no legible: {e}"
  | .invalidSize expected found =>
    s!"tamano de archivo invalido: esperado {expected} bytes, encontrado {found}"
  | .invalidKey msg => s!"clave de verificacion invalida: {msg}"

/-- The body that the two `load` functions have in common: the file must have the length of the
key exactly, where the server's own files may be longer. -/
def loadVerifyingKey (fs : FileSystem) (vkPath : String) :
    Except IdentityError VerifyingKey := do
  let data ← (fs.read vkPath).mapError .io
  refuseIf (data.length ≠ verifyingKeyLen) (.invalidSize verifyingKeyLen data.length)
  (VerifyingKey.fromBytes data).mapError fun e => .invalidKey e.display

def ClientVerifyingIdentity.load : FileSystem → String → Except IdentityError VerifyingKey :=
  loadVerifyingKey

def ControlPlaneVerifyingIdentity.load : FileSystem → String → Except IdentityError VerifyingKey :=
  loadVerifyingKey

/-- A key is loaded when it is what is in the file, and nothing else is. -/
theorem loadVerifyingKey_eq_ok {fs : FileSystem} {vkPath : String} {vk : VerifyingKey} :
    loadVerifyingKey fs vkPath = .ok vk ↔ fs.read vkPath = .ok vk.toList := by
  constructor
  · intro h
    obtain ⟨data, hread, h⟩ := bind_eq_ok.mp h
    obtain ⟨_, -, h⟩ := bind_eq_ok.mp h
    rw [mapError_eq_ok.mp hread, arrayFromBytes_eq_ok.mp (mapError_eq_ok.mp h)]
  · intro hread
    refine bind_eq_ok.mpr ⟨vk.toList, mapError_eq_ok.mpr hread, ?_⟩
    refine bind_eq_ok.mpr ⟨(), refuseIf_eq_ok.mpr ?_, ?_⟩
    · rw [decide_eq_false_iff_not, not_not]
      exact vk.toList_length
    · exact mapError_eq_ok.mpr (arrayFromBytes_toList vk)

end LatticeShield.Bridge
