import LatticeShield.Proof.Validate

/-!
# Which origins the WebSocket listener lets in

The allowlist and the `Origin` header are both reduced to a text `scheme://host:port` and compared
as texts. What is meant is the comparison of three things, the scheme, the host in lower case and
the port a connection would be made to. The two agree because the text can be taken apart again: a
scheme ends at the first colon and a port begins after the last, whatever stands between them (the
address of an IPv6 host has colons of its own).
-/

set_option autoImplicit false

namespace LatticeShield.Bridge

open Lib

/-! ## Origins -/

/-- What two origins are the same by. A port that is left out is the default one of the scheme. -/
structure Origin where
  scheme : String
  host : String
  port : UInt16
deriving DecidableEq, Repr

def WebScheme (scheme : String) : Prop := scheme = "https" ∨ scheme = "http"

def defaultPort (scheme : String) : UInt16 := if scheme = "https" then 443 else 80

def Origin.normalized (origin : Origin) : String :=
  s!"{origin.scheme}://{origin.host}:{origin.port}"

variable (parseUrl : String → Option Url) (toStr : Bytes → Option String)

/-- A text stands for an origin: it is a URL of the web with nothing behind the host and the port.
-/
def HasOrigin (s : String) (origin : Origin) : Prop :=
  ∃ url host, parseUrl s = some url ∧ url.host = some host ∧ WebScheme url.scheme ∧
    (url.path = "" ∨ url.path = "/") ∧ url.query = none ∧ url.fragment = none ∧
    origin = ⟨url.scheme, host.toLower, url.port.getD (defaultPort url.scheme)⟩

def VisibleAscii (value : Bytes) : Prop := ∀ b ∈ value, 32 ≤ b ∧ b < 127 ∨ b = 9

instance (value : Bytes) : Decidable (VisibleAscii value) :=
  inferInstanceAs (Decidable (∀ b ∈ value, 32 ≤ b ∧ b < 127 ∨ b = 9))

def asciiText (value : Bytes) : String := String.ofList (value.map fun b => Char.ofNat b.toNat)

/-- What is relied on of `url` and `http`. A host that has been read is in lower case and stands
for itself, and the port is left out where it is the scheme's own; a header value is text when it
is visible ASCII. The witness reads IPv6 hosts by a parser of its own. -/
structure ReadsOrigins : Prop where
  toStr : ∀ value, toStr value = if VisibleAscii value then some (asciiText value) else none
  lower : ∀ s url host, parseUrl s = some url → url.host = some host → WebScheme url.scheme →
    host.toLower = host
  reads : ∀ s url host, parseUrl s = some url → url.host = some host → WebScheme url.scheme →
    ∀ (scheme : String) (port : UInt16), WebScheme scheme →
      parseUrl s!"{scheme}://{host}:{port}" =
        some ⟨scheme, host, if port = defaultPort scheme then none else some port, "/", none, none⟩

variable {parseUrl toStr}

/-! ## The text of an origin -/

theorem Origin.normalized_toList (origin : Origin) : origin.normalized.toList =
    origin.scheme.toList ++ "://".toList ++
      (origin.host.toList ++ ':' :: Nat.toDigits 10 origin.port.toNat) := by
  have hport : toString origin.port = Nat.repr origin.port.toNat := rfl
  have htext : origin.normalized =
      origin.scheme ++ "://" ++ origin.host ++ ":" ++ toString origin.port := rfl
  rw [htext, hport]
  simp only [String.toList_append, Nat.toList_repr, List.append_assoc]
  rfl

theorem WebScheme.append_inj {scheme scheme' : String} (h : WebScheme scheme)
    (h' : WebScheme scheme') {rest rest' : List Char}
    (heq : scheme.toList ++ "://".toList ++ rest = scheme'.toList ++ "://".toList ++ rest') :
    scheme = scheme' ∧ rest = rest' := by
  rcases h with rfl | rfl <;> rcases h' with rfl | rfl
  · exact ⟨rfl, List.append_cancel_left heq⟩
  · simp at heq
  · simp at heq
  · exact ⟨rfl, List.append_cancel_left heq⟩

/-- Behind the scheme, the port begins after the last colon. A host may have colons of its own,
but then it is in brackets, and no port ends in one. -/
theorem Origin.normalized_inj {a b : Origin} (ha : WebScheme a.scheme) (hb : WebScheme b.scheme)
    (h : a.normalized = b.normalized) : a = b := by
  obtain ⟨scheme, host, port⟩ := a
  obtain ⟨scheme', host', port'⟩ := b
  have hchars := congrArg String.toList h
  rw [Origin.normalized_toList, Origin.normalized_toList] at hchars
  obtain ⟨rfl, hrest⟩ := ha.append_inj hb hchars
  obtain ⟨hhost, hport⟩ := append_cons_inj_of_last (colon_notMem_toDigits _)
    (colon_notMem_toDigits _) hrest
  obtain rfl := String.toList_inj.mp hhost
  obtain rfl := UInt16.toNat_inj.mp (toDigits_inj hport)
  rfl

theorem parse_eq_ok {s : String} {o : NormalizedOrigin} :
    NormalizedOrigin.parse parseUrl s = .ok o ↔
      ∃ origin, HasOrigin parseUrl s origin ∧ o.normalized = origin.normalized := by
  rw [NormalizedOrigin.parse]
  constructor
  · intro h
    obtain ⟨url, hurl, h⟩ := bind_eq_ok.mp h
    obtain ⟨_, hscheme, h⟩ := bind_eq_ok.mp h
    obtain ⟨host, hhost, h⟩ := bind_eq_ok.mp h
    obtain ⟨_, hpath, h⟩ := bind_eq_ok.mp h
    obtain ⟨_, hquery, h⟩ := bind_eq_ok.mp h
    obtain ⟨_, hfragment, h⟩ := bind_eq_ok.mp h
    obtain rfl := Except.ok.inj h
    refine ⟨_, ⟨url, host, okOr_eq_ok.mp hurl, okOr_eq_ok.mp hhost, ?_, ?_, ?_, ?_, rfl⟩, rfl⟩
    · have := of_decide_eq_false (refuseIf_eq_ok.mp hscheme)
      rwa [not_and_or, not_not, not_not] at this
    · have := of_decide_eq_false (refuseIf_eq_ok.mp hpath)
      rwa [not_and_or, not_not, not_not] at this
    · exact Option.not_isSome_iff_eq_none.mp (by rw [refuseIf_eq_ok.mp hquery]; decide)
    · exact Option.not_isSome_iff_eq_none.mp (by rw [refuseIf_eq_ok.mp hfragment]; decide)
  · rintro ⟨origin, ⟨url, host, hurl, hhost, hscheme, hpath, hquery, hfragment, rfl⟩, ho⟩
    refine bind_eq_ok.mpr ⟨url, okOr_eq_ok.mpr hurl, ?_⟩
    refine bind_eq_ok.mpr ⟨(), refuseIf_eq_ok.mpr ?_, ?_⟩
    · rwa [decide_eq_false_iff_not, not_and_or, not_not, not_not]
    refine bind_eq_ok.mpr ⟨host, okOr_eq_ok.mpr hhost, ?_⟩
    refine bind_eq_ok.mpr ⟨(), refuseIf_eq_ok.mpr ?_, ?_⟩
    · rwa [decide_eq_false_iff_not, not_and_or, not_not, not_not]
    refine bind_eq_ok.mpr ⟨(), refuseIf_eq_ok.mpr (by rw [hquery]; rfl), ?_⟩
    refine bind_eq_ok.mpr ⟨(), refuseIf_eq_ok.mpr (by rw [hfragment]; rfl), ?_⟩
    exact congrArg Except.ok (congrArg NormalizedOrigin.mk ho.symm)

/-! ## The allowlist -/

theorem Config.parseOrigins_mem {host : Host} {entries : List String}
    {origins : List NormalizedOrigin} (h : Config.parseOrigins host entries = .ok origins)
    (o : NormalizedOrigin) :
    o ∈ origins ↔ ∃ entry ∈ entries, NormalizedOrigin.parse host.parseUrl entry = .ok o := by
  induction entries generalizing origins with
  | nil =>
    obtain rfl := Except.ok.inj h
    simp
  | cons entry entries ih =>
    rw [Config.parseOrigins] at h
    split at h
    · cases h
    · rename_i origin hentry
      obtain ⟨rest, hrest, h⟩ := bind_eq_ok.mp h
      obtain rfl := Except.ok.inj h
      rw [List.mem_cons, ih hrest, List.exists_mem_cons_iff, hentry, Except.ok.injEq, eq_comm]

theorem Config.parseOrigins_ne_nil {host : Host} {entries : List String}
    {origins : List NormalizedOrigin} (h : Config.parseOrigins host entries = .ok origins)
    (hne : entries ≠ []) : origins ≠ [] := by
  cases entries with
  | nil => exact absurd rfl hne
  | cons entry entries =>
    rw [Config.parseOrigins] at h
    split at h
    · cases h
    · obtain ⟨rest, -, h⟩ := bind_eq_ok.mp h
      obtain rfl := Except.ok.inj h
      exact List.cons_ne_nil _ _

theorem matchesHeader_eq_true {o : NormalizedOrigin} {header : String} :
    o.matchesHeader parseUrl header = true ↔ NormalizedOrigin.parse parseUrl header = .ok o := by
  rw [NormalizedOrigin.matchesHeader]
  cases NormalizedOrigin.parse parseUrl header with
  | error e => simp
  | ok parsed =>
    rw [decide_eq_true_eq, Except.ok.injEq]
    exact ⟨congrArg NormalizedOrigin.mk, congrArg NormalizedOrigin.normalized⟩

theorem onRequest_eq_ok {ρ : Type} {check : OriginCheck} {request : Request} {response : ρ}
    (hne : check.allowedOrigins ≠ []) :
    check.onRequest parseUrl toStr request response = .ok response ↔
      ∃ value header, request.headers "Origin" = some value ∧ toStr value = some header ∧
        ∃ o ∈ check.allowedOrigins, NormalizedOrigin.parse parseUrl header = .ok o := by
  have hallowed : check.onRequest parseUrl toStr request response = .ok response ↔
      originAllowed parseUrl check.allowedOrigins ((request.headers "Origin").bind toStr) =
        true := by
    rw [OriginCheck.onRequest, bind_eq_ok]
    constructor
    · rintro ⟨_, hallowed, -⟩
      simpa using refuseIf_eq_ok.mp hallowed
    · intro hallowed
      exact ⟨(), refuseIf_eq_ok.mpr (by rw [hallowed]; rfl), rfl⟩
  rw [hallowed, originAllowed.eq_def, if_neg hne]
  cases hheader : (request.headers "Origin").bind toStr with
  | none =>
    refine iff_of_false (by simp) ?_
    rintro ⟨value, header, hvalue, htext, -⟩
    rw [hvalue, Option.bind_some, htext] at hheader
    cases hheader
  | some header =>
    obtain ⟨value, hvalue, htext⟩ := Option.bind_eq_some_iff.mp hheader
    simp only [List.any_eq_true, matchesHeader_eq_true]
    constructor
    · intro hany
      exact ⟨value, header, hvalue, htext, hany⟩
    · rintro ⟨value', header', hvalue', htext', hany⟩
      obtain rfl := Option.some.inj (hvalue.symm.trans hvalue')
      obtain rfl := Option.some.inj (htext.symm.trans htext')
      exact hany

/-! ## The decision -/

theorem HasOrigin.web {s : String} {origin : Origin} (h : HasOrigin parseUrl s origin) :
    WebScheme origin.scheme := by
  obtain ⟨url, host, -, -, hscheme, -, -, -, rfl⟩ := h
  exact hscheme

/-- Two texts are reduced to the same one when they stand for the same origin: the triple
determines the text and the text the triple. -/
theorem parse_eq_parse_iff {s t : String} :
    (∃ o, NormalizedOrigin.parse parseUrl s = .ok o ∧ NormalizedOrigin.parse parseUrl t = .ok o) ↔
      ∃ origin, HasOrigin parseUrl s origin ∧ HasOrigin parseUrl t origin := by
  constructor
  · rintro ⟨o, hs, ht⟩
    obtain ⟨a, ha, hoa⟩ := parse_eq_ok.mp hs
    obtain ⟨b, hb, hob⟩ := parse_eq_ok.mp ht
    obtain rfl := Origin.normalized_inj ha.web hb.web (hoa.symm.trans hob)
    exact ⟨a, ha, hb⟩
  · rintro ⟨origin, hs, ht⟩
    exact ⟨⟨origin.normalized⟩, parse_eq_ok.mpr ⟨origin, hs, rfl⟩,
      parse_eq_ok.mpr ⟨origin, ht, rfl⟩⟩

theorem onRequest_eq_ok_iff_origin {ρ : Type} (hreads : ReadsOrigins parseUrl toStr)
    {check : OriginCheck} {entries : List String} (hne : check.allowedOrigins ≠ [])
    (hentries : ∀ o, o ∈ check.allowedOrigins ↔
      ∃ entry ∈ entries, NormalizedOrigin.parse parseUrl entry = .ok o)
    (request : Request) (response : ρ) :
    check.onRequest parseUrl toStr request response = .ok response ↔
      ∃ value origin, request.headers "Origin" = some value ∧ VisibleAscii value ∧
        HasOrigin parseUrl (asciiText value) origin ∧
        ∃ entry ∈ entries, HasOrigin parseUrl entry origin := by
  rw [onRequest_eq_ok hne]
  constructor
  · rintro ⟨value, header, hvalue, htext, o, ho, hparse⟩
    obtain ⟨entry, hentry, hparseEntry⟩ := (hentries o).mp ho
    obtain ⟨origin, hheader, hsame⟩ := parse_eq_parse_iff.mp ⟨o, hparse, hparseEntry⟩
    rw [hreads.toStr, Option.ite_none_right_eq_some] at htext
    obtain ⟨hvisible, htext⟩ := htext
    rw [← Option.some.inj htext] at hheader
    exact ⟨value, origin, hvalue, hvisible, hheader, entry, hentry, hsame⟩
  · rintro ⟨value, origin, hvalue, hvisible, hheader, entry, hentry, hsame⟩
    obtain ⟨o, hparse, hparseEntry⟩ := parse_eq_parse_iff.mpr ⟨origin, hheader, hsame⟩
    refine ⟨value, asciiText value, hvalue, ?_, o, (hentries o).mpr ⟨entry, hentry, hparseEntry⟩,
      hparse⟩
    rw [hreads.toStr, if_pos hvisible]

/-- The text of an origin is a URL again, and it is reduced to itself. That it is a URL is what is
asked of the URL parser. -/
theorem parse_normalized (hreads : ReadsOrigins parseUrl toStr) {s : String}
    {o : NormalizedOrigin} (h : NormalizedOrigin.parse parseUrl s = .ok o) :
    NormalizedOrigin.parse parseUrl o.normalized = .ok o := by
  obtain ⟨origin, ⟨url, host, hurl, hhost, hscheme, -, -, -, rfl⟩, ho⟩ := parse_eq_ok.mp h
  have hlower := hreads.lower s url host hurl hhost hscheme
  have hread := hreads.reads s url host hurl hhost hscheme url.scheme
    (url.port.getD (defaultPort url.scheme)) hscheme
  have htext : o.normalized =
      s!"{url.scheme}://{host}:{url.port.getD (defaultPort url.scheme)}" := by
    rw [ho, Origin.normalized, hlower]
  rw [← htext] at hread
  have hport : (if url.port.getD (defaultPort url.scheme) = defaultPort url.scheme then none
      else some (url.port.getD (defaultPort url.scheme))).getD (defaultPort url.scheme) =
      url.port.getD (defaultPort url.scheme) := by
    split
    · rename_i hdefault
      exact hdefault.symm
    · rfl
  refine parse_eq_ok.mpr ⟨_, ⟨_, host, hread, rfl, hscheme, Or.inr rfl, rfl, rfl, rfl⟩, ?_⟩
  show o.normalized = Origin.normalized ⟨_, _, _⟩
  rw [hport]
  exact ho

/-- The check of a listener that `validate` has let start with an allowlist: **a request is let
through exactly when its origin is one of the entries', by scheme, host and port**. The normal
form that is compared is a function of these three, tells any two origins apart, and is its own
normal form. -/
theorem origin_check_by_triple {host : Host} (hreads : ReadsOrigins host.parseUrl toStr)
    {config : Config} {valid : RunConfig} (hvalid : config.validate host = .ok valid)
    (hne : config.websocket.allowedOrigins ≠ []) :
    (∀ {ρ : Type} (request : Request) (response : ρ),
      OriginCheck.onRequest host.parseUrl toStr ⟨valid.wsAllowedOrigins⟩ request response =
          .ok response ↔
        ∃ value origin, request.headers "Origin" = some value ∧ VisibleAscii value ∧
          HasOrigin host.parseUrl (asciiText value) origin ∧
          ∃ entry ∈ config.websocket.allowedOrigins, HasOrigin host.parseUrl entry origin) ∧
    (∀ s o, NormalizedOrigin.parse host.parseUrl s = .ok o ↔
      ∃ origin, HasOrigin host.parseUrl s origin ∧ o.normalized = origin.normalized) ∧
    (∀ a b : Origin, WebScheme a.scheme → WebScheme b.scheme → a ≠ b →
      a.normalized ≠ b.normalized) ∧
    (∀ s o, NormalizedOrigin.parse host.parseUrl s = .ok o →
      NormalizedOrigin.parse host.parseUrl o.normalized = .ok o) := by
  have horigins := Config.validate_origins hvalid
  refine ⟨?_, ?_, ?_, ?_⟩
  · intro ρ request response
    exact onRequest_eq_ok_iff_origin hreads (Config.parseOrigins_ne_nil horigins hne)
      (Config.parseOrigins_mem horigins) request response
  · intro s o
    exact parse_eq_ok
  · intro a b ha hb hab heq
    exact hab (Origin.normalized_inj ha hb heq)
  · intro s o h
    exact parse_normalized hreads h

/-! ## A host that knows one IPv6 address -/

namespace Ipv6

def port (scheme : String) (digits : List Char) : Option Url :=
  let n := Nat.ofDigitChars 10 digits 0
  if digits.all Char.isDigit ∧ n < 65536 then
    some ⟨scheme, "[::1]", if UInt16.ofNat n = defaultPort scheme then none
      else some (UInt16.ofNat n), "/", none, none⟩
  else none

def rest (scheme : String) : List Char → Option Url
  | [] => some ⟨scheme, "[::1]", none, "/", none, none⟩
  | ':' :: digits => port scheme digits
  | _ => none

def readUrl (s : String) : Option Url :=
  match "https://[::1]".toList.isPrefixOf? s.toList with
  | some cs => rest "https" cs
  | none => ("http://[::1]".toList.isPrefixOf? s.toList).bind (rest "http")

def readText (value : Bytes) : Option String :=
  if VisibleAscii value then some (asciiText value) else none

def host : Host := { sampleHost with parseUrl := readUrl }

def config : Config :=
  { auth := { requireClientAuth := false }
    websocket := { enabled := true, certPath := some "cert.pem", keyPath := some "key.pem"
                   allowedOrigins := ["https://[::1]"] } }

def request : Request :=
  ⟨fun name => if name = "Origin" then
    some [104, 116, 116, 112, 115, 58, 47, 47, 91, 58, 58, 49, 93, 58, 52, 52, 51] else none⟩

theorem rest_host {scheme : String} {cs : List Char} {url : Url} (h : rest scheme cs = some url) :
    url.host = some "[::1]" := by
  rw [rest.eq_def] at h
  split at h
  · obtain rfl := Option.some.inj h
    rfl
  · obtain ⟨-, h⟩ := Option.ite_none_right_eq_some.mp h
    obtain rfl := Option.some.inj h
    rfl
  · cases h

theorem readUrl_host {s : String} {url : Url} (h : readUrl s = some url) :
    url.host = some "[::1]" := by
  rw [readUrl] at h
  split at h
  · exact rest_host h
  · obtain ⟨cs, -, h⟩ := Option.bind_eq_some_iff.mp h
    exact rest_host h

theorem port_toDigits (scheme : String) (n : UInt16) :
    port scheme (Nat.toDigits 10 n.toNat) =
      some ⟨scheme, "[::1]", if n = defaultPort scheme then none else some n, "/", none, none⟩ := by
  have hdigits : (Nat.toDigits 10 n.toNat).all Char.isDigit = true :=
    List.all_eq_true.mpr fun c hc => Nat.isDigit_of_mem_toDigits (by decide) (by decide) hc
  simp only [port, Nat.ofDigitChars_ten_toDigits, UInt16.ofNat_toNat]
  rw [if_pos ⟨hdigits, n.toNat_lt⟩]

theorem reads : ReadsOrigins readUrl readText where
  toStr value := rfl
  lower s url host hurl hhost _ := by
    obtain rfl := Option.some.inj ((readUrl_host hurl).symm.trans hhost)
    apply String.toList_inj.mp
    show (String.map Char.toLower "[::1]").toList = _
    rw [String.toList_map]
    decide
  reads s url host hurl hhost _ scheme n hscheme := by
    obtain rfl := Option.some.inj ((readUrl_host hurl).symm.trans hhost)
    have hchars : (Origin.normalized ⟨scheme, "[::1]", n⟩).toList =
        scheme.toList ++ "://[::1]".toList ++ ':' :: Nat.toDigits 10 n.toNat := by
      rw [Origin.normalized_toList]
      simp
    show readUrl (Origin.normalized ⟨scheme, "[::1]", n⟩) = _
    rw [readUrl, hchars, ← port_toDigits]
    rcases hscheme with rfl | rfl
    · rfl
    · rfl

end Ipv6

/-- With the port written out that the entry leaves out. -/
theorem origin_check_by_triple_ipv6 : ∃ valid, Ipv6.config.validate Ipv6.host = .ok valid ∧
    OriginCheck.onRequest Ipv6.readUrl Ipv6.readText ⟨valid.wsAllowedOrigins⟩ Ipv6.request () =
      .ok () := by
  have hvalid : (Ipv6.config.validate Ipv6.host).toOption.map (fun _ => ()) = some () := by
    decide +kernel
  obtain ⟨valid, hvalid, -⟩ := exists_ok_of_map hvalid
  refine ⟨valid, hvalid, ?_⟩
  refine ((origin_check_by_triple Ipv6.reads hvalid (by decide)).1 Ipv6.request ()).mpr ?_
  have hentry : Ipv6.readUrl "https://[::1]" =
      some ⟨"https", "[::1]", none, "/", none, none⟩ := by decide +kernel
  have hheader : Ipv6.readUrl "https://[::1]:443" =
      some ⟨"https", "[::1]", none, "/", none, none⟩ := by decide +kernel
  refine ⟨_, ⟨"https", "[::1]".toLower, 443⟩, rfl, by decide +kernel, ?_, "https://[::1]", ?_, ?_⟩
  · exact ⟨_, _, hheader, rfl, Or.inl rfl, Or.inr rfl, rfl, rfl, rfl⟩
  · exact List.mem_singleton_self _
  · exact ⟨_, _, hentry, rfl, Or.inl rfl, Or.inr rfl, rfl, rfl, rfl⟩

end LatticeShield.Bridge
