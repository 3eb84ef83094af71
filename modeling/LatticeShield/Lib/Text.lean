import Mathlib.Algebra.Group.Nat.Defs

/-!
# What programs read from text

Numbers, socket addresses and file names, as Rust's standard library reads them. The address
parser is the one of `core::net`: a number takes the longest run of digits and fails as a whole, so
a parser is a function on the characters left that either takes some or leaves them all.
-/

set_option autoImplicit false

namespace Lib

/-! ## Numbers -/

def toDigit (radix : Nat) (c : Char) : Option Nat :=
  let d := if '0' ≤ c ∧ c ≤ '9' then some (c.toNat - '0'.toNat)
    else if 'a' ≤ c ∧ c ≤ 'z' then some (c.toNat - 'a'.toNat + 10)
    else if 'A' ≤ c ∧ c ≤ 'Z' then some (c.toNat - 'A'.toNat + 10)
    else none
  d.filter (· < radix)

/-- The digits at the front, and what is behind them. -/
def takeDigits (radix : Nat) : List Char → List Nat × List Char
  | [] => ([], [])
  | c :: cs =>
    match toDigit radix c with
    | none => ([], c :: cs)
    | some d =>
      let (ds, rest) := takeDigits radix cs
      (d :: ds, rest)

def ofDigits (radix : Nat) (ds : List Nat) : Nat := ds.foldl (fun n d => n * radix + d) 0

/-- `str::parse` to an unsigned type of `bits` bits. -/
def parseUnsigned (bits : Nat) (s : String) : Option Nat :=
  let digits := match s.toList with
    | '+' :: cs => cs
    | cs => cs
  match takeDigits 10 digits with
  | (d :: ds, []) =>
    let n := ofDigits 10 (d :: ds)
    if n < 2 ^ bits then some n else none
  | _ => none

/-! ## Texts joined by a separator -/

/-- A text is cut in two at its last separator in one way only. -/
theorem append_cons_inj_of_last {α : Type} {sep : α} {as bs cs ds : List α} (hbs : sep ∉ bs)
    (hds : sep ∉ ds) (h : as ++ sep :: bs = cs ++ sep :: ds) : as = cs ∧ bs = ds := by
  rcases List.append_eq_append_iff.mp h with ⟨more, hcs, hrest⟩ | ⟨more, has, hrest⟩
  · cases more with
    | nil => exact ⟨by simpa using hcs.symm, (List.cons.inj hrest).2⟩
    | cons c more =>
      rw [(List.cons.inj hrest).2] at hbs
      exact absurd (List.mem_append_right more List.mem_cons_self) hbs
  · cases more with
    | nil => exact ⟨by simpa using has, (List.cons.inj hrest).2.symm⟩
    | cons c more =>
      rw [(List.cons.inj hrest).2] at hds
      exact absurd (List.mem_append_right more List.mem_cons_self) hds

theorem colon_notMem_toDigits (n : Nat) : ':' ∉ Nat.toDigits 10 n := by
  intro hmem
  exact absurd (Nat.isDigit_of_mem_toDigits (by decide) (by decide) hmem) (by decide)

theorem toDigits_inj {m n : Nat} (h : Nat.toDigits 10 m = Nat.toDigits 10 n) : m = n := by
  rw [← Nat.ofDigitChars_ten_toDigits (n := m), h, Nat.ofDigitChars_ten_toDigits]

/-! ## Socket addresses -/

abbrev Ipv4Addr := BitVec 32
abbrev Ipv6Addr := BitVec 128

inductive IpAddr where
  | v4 (addr : Ipv4Addr)
  | v6 (addr : Ipv6Addr)
deriving DecidableEq, Repr

inductive SocketAddr where
  | v4 (ip : Ipv4Addr) (port : UInt16)
  | v6 (ip : Ipv6Addr) (port : UInt16) (flowinfo scopeId : UInt32)
deriving DecidableEq, Repr

namespace SocketAddr

def ip : SocketAddr → IpAddr
  | v4 ip _ => .v4 ip
  | v6 ip _ _ _ => .v6 ip

def port : SocketAddr → UInt16
  | v4 _ port => port
  | v6 _ port _ _ => port

end SocketAddr

namespace AddrParser

abbrev Parser (α : Type) := List Char → Option (α × List Char)

def readGivenChar (c : Char) : Parser Unit
  | [] => none
  | c' :: cs => if c' = c then some ((), cs) else none

/-- A number below `bound`, of `maxDigits` digits at most if that is given. -/
def readNumber (radix : Nat) (maxDigits : Option Nat) (allowZeroPrefix : Bool) (bound : Nat) :
    Parser Nat := fun s =>
  let (ds, rest) := takeDigits radix s
  let zeroPrefix := ds.head? = some 0 ∧ 1 < ds.length
  let tooLong := maxDigits.any (· < ds.length)
  let n := ofDigits radix ds
  if ds = [] ∨ tooLong ∨ (zeroPrefix ∧ ¬ allowZeroPrefix) ∨ bound ≤ n then none else some (n, rest)

def readSeparator {α : Type} (sep : Char) (index : Nat) (inner : Parser α) : Parser α := fun s => do
  if index = 0 then inner s
  else
    let ((), s) ← readGivenChar sep s
    inner s

def readIpv4Addr : Parser Ipv4Addr := fun s => do
  let octet := readNumber 10 (some 3) false 256
  let (a, s) ← readSeparator '.' 0 octet s
  let (b, s) ← readSeparator '.' 1 octet s
  let (c, s) ← readSeparator '.' 2 octet s
  let (d, s) ← readSeparator '.' 3 octet s
  some (BitVec.ofNat 32 (ofDigits 256 [a, b, c, d]), s)

/-- `read_groups` with `left` groups to go, the first of them number `index`; whether it ended in
an embedded IPv4 address, which takes two. -/
def readGroups (index : Nat) : (left : Nat) → List Char → List Nat × Bool × List Char
  | 0, s => ([], false, s)
  | left + 1, s =>
    match if 1 ≤ left then readSeparator ':' index readIpv4Addr s else none with
    | some (ip, rest) => ([ip.toNat / 2 ^ 16, ip.toNat % 2 ^ 16], true, rest)
    | none =>
      match readSeparator ':' index (readNumber 16 (some 4) true (2 ^ 16)) s with
      | none => ([], false, s)
      | some (group, rest) =>
        let (groups, v4, rest) := readGroups (index + 1) left rest
        (group :: groups, v4, rest)

def readIpv6Addr : Parser Ipv6Addr := fun s => do
  let (head, headIpv4, s) := readGroups 0 8 s
  if head.length = 8 then some (BitVec.ofNat 128 (ofDigits (2 ^ 16) head), s)
  else if headIpv4 then none
  else
    let ((), s) ← readGivenChar ':' s
    let ((), s) ← readGivenChar ':' s
    -- `::` stands for one group of zeroes at least
    let (tail, _, s) := readGroups 0 (8 - (head.length + 1)) s
    let zeroes := List.replicate (8 - head.length - tail.length) 0
    some (BitVec.ofNat 128 (ofDigits (2 ^ 16) (head ++ zeroes ++ tail)), s)

def readPort : Parser UInt16 := fun s => do
  let ((), s) ← readGivenChar ':' s
  let (port, s) ← readNumber 10 none true (2 ^ 16) s
  some (UInt16.ofNat port, s)

def readScopeId : Parser UInt32 := fun s => do
  let ((), s) ← readGivenChar '%' s
  let (scopeId, s) ← readNumber 10 none true (2 ^ 32) s
  some (UInt32.ofNat scopeId, s)

def readSocketAddrV4 : Parser SocketAddr := fun s => do
  let (ip, s) ← readIpv4Addr s
  let (port, s) ← readPort s
  some (.v4 ip port, s)

def readSocketAddrV6 : Parser SocketAddr := fun s => do
  let ((), s) ← readGivenChar '[' s
  let (ip, s) ← readIpv6Addr s
  let (scopeId, s) := (readScopeId s).getD (0, s)
  let ((), s) ← readGivenChar ']' s
  let (port, s) ← readPort s
  some (.v6 ip port 0 scopeId, s)

end AddrParser

/-- `str::parse::<SocketAddr>`. -/
def SocketAddr.parse (s : String) : Option SocketAddr :=
  match (AddrParser.readSocketAddrV4 s.toList).or (AddrParser.readSocketAddrV6 s.toList) with
  | some (addr, []) => some addr
  | _ => none

/-! ## File names -/

/-- Without the separators and the `.` components at the end, which a path does not see. -/
def trimPathEnd : List Char → List Char
  | [] => []
  | c :: cs =>
    match c, trimPathEnd cs with
    | '/', [] => []
    | '/', ['.'] => []
    | c, rest => c :: rest

/-- `Path::with_extension`: the path up to the stem of its last component, and the extension. A
path without a file name stays as it is. -/
def withExtension (path ext : String) : String :=
  let trimmed := (trimPathEnd path.toList).reverse
  let name := trimmed.takeWhile (· ≠ '/')
  let parent := trimmed.dropWhile (· ≠ '/')
  if name = [] ∨ name = ['.'] ∨ name = ['.', '.'] then path
  else
    -- the stem ends at the last dot, unless that is the first character
    let stem := match name.dropWhile (· ≠ '.') with
      | _ :: stem => if stem = [] then name else stem
      | [] => name
    String.ofList (stem ++ parent).reverse ++ (if ext = "" then "" else "." ++ ext)

/-- `Path::join` with a relative name. -/
def joinPath (dir name : String) : String :=
  if dir.toList = [] ∨ dir.toList.getLast? = some '/' then dir ++ name else dir ++ "/" ++ name

/-- A name without separators is its own path, also behind a directory. -/
theorem trimPathEnd_append {cs : List Char} (h : '/' ∉ cs) (hlen : 1 < cs.length)
    (pre : List Char) : trimPathEnd (pre ++ cs) = pre ++ cs := by
  have hself : ∀ cs : List Char, '/' ∉ cs → trimPathEnd cs = cs := by
    intro cs h
    induction cs with
    | nil => rfl
    | cons c cs ih =>
      obtain ⟨hc, hcs⟩ := not_or.mp (mt List.mem_cons.mpr h)
      rw [trimPathEnd, ih hcs]
      · exact fun heq => absurd heq.symm hc
      · exact fun heq => absurd heq.symm hc
  induction pre with
  | nil => exact hself cs h
  | cons c pre ih =>
    have hlong : 1 < (pre ++ cs).length := by
      rw [List.length_append]
      omega
    rw [List.cons_append, trimPathEnd, ih]
    all_goals
      intro _ heq
      rw [ih] at heq
      rw [heq] at hlong
      exact absurd hlong (by simp)

/-- A directory as what stands before the names of its files. -/
theorem joinPath_eq (dir : String) : ∃ base : List Char, (base = [] ∨ ∃ b, base = b ++ ['/']) ∧
    ∀ name : String, (joinPath dir name).toList = base ++ name.toList := by
  by_cases h : dir.toList = [] ∨ dir.toList.getLast? = some '/'
  · refine ⟨dir.toList, ?_, ?_⟩
    · rcases h with h | h
      · exact Or.inl h
      · exact Or.inr (List.getLast?_eq_some_iff.mp h)
    · intro name
      rw [joinPath, if_pos h, String.toList_append]
  · refine ⟨dir.toList ++ ['/'], Or.inr ⟨_, rfl⟩, ?_⟩
    intro name
    rw [joinPath, if_neg h, String.toList_append, String.toList_append]
    rfl

/-- Another extension for a file of a directory: only the end of the file's name changes. The name
has one dot and no separator. -/
theorem withExtension_joinPath {name stem ext ext' : String} (dir : String)
    (hname : name = stem ++ "." ++ ext) (hslash : '/' ∉ name.toList) (hdot : '.' ∉ ext.toList)
    (hstem : stem.toList ≠ []) (hext : ext.toList ≠ []) (hext' : ext' ≠ "") :
    withExtension (joinPath dir name) ext' = joinPath dir (stem ++ "." ++ ext') := by
  obtain ⟨base, hbase, hjoin⟩ := joinPath_eq dir
  have hchars : name.toList = stem.toList ++ '.' :: ext.toList := by
    rw [hname, String.toList_append, String.toList_append, List.append_assoc]
    rfl
  have hlen : 1 < name.toList.length := by
    have := List.length_pos_iff.mpr hstem
    rw [hchars, List.length_append, List.length_cons]
    omega
  -- read backwards: the name, and then the directory, which starts with its separator
  have hrev : (trimPathEnd (joinPath dir name).toList).reverse =
      name.toList.reverse ++ base.reverse := by
    rw [hjoin, trimPathEnd_append hslash hlen, List.reverse_append]
  have hin : ∀ c ∈ name.toList.reverse, decide (c ≠ '/') = true := by
    intro c hc
    rw [List.mem_reverse] at hc
    exact decide_eq_true fun heq => hslash (heq ▸ hc)
  have hbaseTake : base.reverse.takeWhile (fun c => decide (c ≠ '/')) = [] ∧
      base.reverse.dropWhile (fun c => decide (c ≠ '/')) = base.reverse := by
    rcases hbase with rfl | ⟨b, rfl⟩ <;> simp
  have htake : (trimPathEnd (joinPath dir name).toList).reverse.takeWhile
      (fun c => decide (c ≠ '/')) = name.toList.reverse := by
    rw [hrev, List.takeWhile_append_of_pos hin, hbaseTake.1, List.append_nil]
  have hdrop : (trimPathEnd (joinPath dir name).toList).reverse.dropWhile
      (fun c => decide (c ≠ '/')) = base.reverse := by
    rw [hrev, List.dropWhile_append_of_pos hin, hbaseTake.2]
  have hnameRev : name.toList.reverse = ext.toList.reverse ++ '.' :: stem.toList.reverse := by
    rw [hchars]
    simp
  have hextRev : ∀ c ∈ ext.toList.reverse, decide (c ≠ '.') = true := by
    intro c hc
    rw [List.mem_reverse] at hc
    exact decide_eq_true fun heq => hdot (heq ▸ hc)
  have hdropDot : name.toList.reverse.dropWhile (fun c => decide (c ≠ '.')) =
      '.' :: stem.toList.reverse := by
    rw [hnameRev, List.dropWhile_append_of_pos hextRev]
    simp
  have hplain : ¬ (name.toList.reverse = [] ∨ name.toList.reverse = ['.'] ∨
      name.toList.reverse = ['.', '.']) := by
    have hhead : name.toList.reverse.head? ≠ some '.' := by
      obtain ⟨c, cs, hcs⟩ := List.exists_cons_of_ne_nil (by simpa using hext : ext.toList.reverse ≠ [])
      rw [hnameRev, hcs, List.cons_append, List.head?_cons]
      intro heq
      have hc : c ∈ ext.toList.reverse := hcs ▸ List.mem_cons_self
      rw [Option.some.inj heq] at hc
      exact hdot (List.mem_reverse.mp hc)
    rintro (heq | heq | heq)
    · rw [hnameRev] at heq
      simp at heq
    · exact hhead (by rw [heq]; rfl)
    · exact hhead (by rw [heq]; rfl)
  have hstemRev : stem.toList.reverse ≠ [] := by simpa using hstem
  simp only [withExtension, htake, hdrop, if_neg hplain, hdropDot, if_neg hstemRev, if_neg hext']
  apply String.toList_inj.mp
  rw [String.toList_append, String.toList_ofList, hjoin, String.toList_append,
    String.toList_append, List.reverse_append, List.reverse_reverse, List.reverse_reverse,
    String.toList_append]
  simp

example : SocketAddr.parse "127.0.0.1:8443" = some (.v4 0x7f000001 8443) := by decide +kernel

example : (SocketAddr.parse "[::1]:8440").map SocketAddr.port = some 8440 := by decide +kernel

example : withExtension "./keys/server.sk" "vk" = "./keys/server.vk" := by decide +kernel

end Lib
