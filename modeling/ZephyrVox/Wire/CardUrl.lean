import ZephyrVox.Lib.FormUrlencoded
import ZephyrVox.Types.Parse
import ZephyrVox.Wire.Host

/-!
# Server cards as URLs

A card is rendered as a URL with a fixed order of its query and parsed back from
one. Splitting a URL and encoding its query are done by another library; the two
schemes of cards are unknown to it, so hosts are opaque texts or bracketed IPv6
addresses and no port is left out. Parsing ends in the constructor, so what is
parsed is normalized again.

## Main definitions

* `Url`, `UrlCrate`, `UrlCrate.NonSpecial` — the other library and what it does
  with the URLs of cards.
* `Fingerprint.parseHex`, `Fingerprint.toHex` — the text of a fingerprint.
* `ServerCard.parse`, `ServerCard.render` — the two directions.
* `server_cards_round_trip` — they are inverse to each other.
-/

namespace ZephyrVox.Wire

/-! ## Fingerprints -/

/-- The value of a lowercase hexadecimal digit. -/
def hexValue (value : UInt8) : Option UInt8 :=
  if 0x30 ≤ value ∧ value ≤ 0x39 then some (value - 0x30)
  else if 0x61 ≤ value ∧ value ≤ 0x66 then some (value - 0x61 + 10)
  else none

/-- The lowercase hexadecimal digit of a value. -/
def hexDigit (value : UInt8) : Char := "0123456789abcdef".toList.getD value.toNat '0'

/-- The bytes of pairs of digits. -/
def hexPairs : List UInt8 → Option (List UInt8)
  | high :: low :: rest => do
      let h ← hexValue high
      let l ← hexValue low
      let bytes ← hexPairs rest
      return ((h <<< 4) ||| l) :: bytes
  | _ => some []

/-- Parse exactly 64 lowercase hexadecimal characters. -/
def Fingerprint.parseHex (value : String) : Except ServerCardError Fingerprint :=
  if (utf8Bytes value).length ≠ 64 then .error (.invalidFingerprint value)
  else
    match hexPairs (utf8Bytes value) with
    | none => .error (.invalidFingerprint value)
    | some bytes =>
        if h : bytes.length = 32 then .ok ⟨bytes, h⟩ else .error (.invalidFingerprint value)

/-- Canonical lowercase hexadecimal text. -/
def Fingerprint.toHex (fingerprint : Fingerprint) : String :=
  String.ofList (fingerprint.asBytes.flatMap fun byte : UInt8 =>
    [hexDigit (byte >>> 4), hexDigit (byte &&& 0x0f)])

/-! ## URLs -/

/-- The parts of a URL that a card reads. -/
structure Url where
  scheme : String
  username : String
  password : Option String
  fragment : Option String
  path : String
  port : Option UInt16
  hostStr : Option String
  queryPairs : List (String × String)
  deriving DecidableEq, Repr

/-- The URL library: `finish` is the form encoding of a list of pairs. -/
structure UrlCrate where
  parse : String → Except String Url
  finish : List (String × String) → String

/-- The canonical text of a scheme. -/
def TransportScheme.asStr : TransportScheme → String
  | .plain => "zephyrvox"
  | .tls => "zephyrvoxs"

/-- A URL without user, path and fragment. -/
def urlText (scheme host : String) (port : UInt16) (query : String) : String :=
  scheme ++ "://" ++ host ++ ":" ++ toString port.toNat ++ "?" ++ query

/-- What such a URL is parsed to. -/
def Url.ofAuthority (scheme host : String) (port : UInt16) (pairs : List (String × String)) :
    Url where
  scheme := scheme
  username := ""
  password := none
  fragment := none
  path := ""
  port := some port
  hostStr := some host
  queryPairs := pairs

/-- The schemes of cards are not special: a host of letters, digits, hyphens and dots
is an opaque text, an IPv6 address is written in brackets and without a dotted
tail, every port is kept, and encoded pairs are read back. -/
structure UrlCrate.NonSpecial (url : UrlCrate) : Prop where
  name_host : ∀ (scheme : TransportScheme) (host : String) (port : UInt16)
    (pairs : List (String × String)), host.toList ≠ [] →
    (∀ c ∈ host.toList, isLabelChar c = true ∨ c = '.') →
    url.parse (urlText scheme.asStr host port (url.finish pairs)) =
      .ok (.ofAuthority scheme.asStr host port pairs)
  ipv6_host : ∀ (scheme : TransportScheme) (address : Ipv6Addr) (port : UInt16)
    (pairs : List (String × String)),
    url.parse (urlText scheme.asStr ("[" ++ String.ofList address.display ++ "]") port
        (url.finish pairs)) =
      .ok (.ofAuthority scheme.asStr ("[" ++ String.ofList address.compressed ++ "]") port pairs)

/-! ## Parsing and rendering -/

/-- The scheme with a given text. -/
def TransportScheme.ofText (text : String) : Option TransportScheme :=
  if text = "zephyrvox" then some .plain
  else if text = "zephyrvoxs" then some .tls
  else none

/-- Read a byte: an optional plus sign and at least one digit, within 8 bits. -/
def parseU8 (value : String) : Option ℕ :=
  let digits : List Char := match value.toList with
    | '+' :: rest => rest
    | digits => digits
  let number : ℕ := digits.foldl (fun acc c => acc * 10 + (c.toNat - '0'.toNat)) 0
  if digits ≠ [] ∧ digits.all Char.isDigit = true ∧ number < 2 ^ 8 then some number else none

/-- The query parameters read so far. -/
structure CardQuery where
  version : Option ℕ
  fingerprint : Option Fingerprint
  invite : Option String

/-- Read the query parameters, each at most once. -/
def readQuery (query : CardQuery) : List (String × String) → Except ServerCardError CardQuery
  | [] => .ok query
  | (key, value) :: pairs =>
      if key = "v" then
        if query.version.isSome then .error (.duplicateQuery "v")
        else
          match parseU8 value with
          | none => .error (.invalidVersion value)
          | some version => readQuery { query with version := some version } pairs
      else if key = "fp" then
        if query.fingerprint.isSome then .error (.duplicateQuery "fp")
        else
          match Fingerprint.parseHex value with
          | .error e => .error e
          | .ok fingerprint => readQuery { query with fingerprint := some fingerprint } pairs
      else if key = "invite" then
        if query.invite.isSome then .error (.duplicateQuery "invite")
        else readQuery { query with invite := some value } pairs
      else .error (.unknownQuery key)

namespace ServerCard

/-- Parse a canonical or compatible server-card URL. -/
def parse (url : UrlCrate) (value : String) : Except ServerCardError ServerCard :=
  match url.parse value with
  | .error detail => .error (.invalidUrl detail)
  | .ok parsed =>
      match TransportScheme.ofText parsed.scheme with
      | none => .error (.unsupportedScheme parsed.scheme)
      | some scheme =>
          if parsed.username ≠ "" ∨ parsed.password.isSome then
            .error (.invalidUrl "server cards must not contain user information")
          else if parsed.fragment.isSome then
            .error (.invalidUrl "server cards must not contain a fragment")
          else if parsed.path ≠ "" ∧ parsed.path ≠ "/" then
            .error (.invalidUrl "server cards must not contain a path")
          else
            match parsed.port, parsed.hostStr with
            | none, _ => .error .missingPort
            | some _, none => .error (.invalidHost "")
            | some port, some host =>
                match readQuery ⟨none, none, none⟩ parsed.queryPairs with
                | .error e => .error e
                | .ok query =>
                    match query.version with
                    | none => .error .missingVersion
                    | some version =>
                        if version ≠ PROTOCOL_VERSION then .error (.unsupportedVersion version)
                        else new host port scheme query.fingerprint query.invite

/-- The query of a card, in its fixed order. -/
def query (card : ServerCard) : List (String × String) :=
  ("v", toString card.protocolVersion) ::
    ((card.fingerprint.map fun fingerprint => ("fp", fingerprint.toHex)).toList ++
      (card.invite.map fun invite => ("invite", invite)).toList)

/-- The host of a card as a URL writes it. -/
def urlHost (card : ServerCard) : String :=
  if card.host.toList.contains ':' then "[" ++ card.host ++ "]" else card.host

/-- Render a card as a stable URL. -/
def render (url : UrlCrate) (card : ServerCard) : String :=
  urlText card.scheme.asStr card.urlHost card.port (url.finish card.query)

end ServerCard

/-! ## The text of a fingerprint -/

/-- A digit is one byte of text that is read back. -/
theorem hexValue_hexDigit {value : UInt8} (h : value.toNat < 16) : ∃ byte,
    String.utf8EncodeChar (hexDigit value) = [byte] ∧ hexValue byte = some value := by
  have hdigit : ∀ n < 16, ∃ byte ∈ String.utf8EncodeChar (hexDigit (UInt8.ofNat n)),
      String.utf8EncodeChar (hexDigit (UInt8.ofNat n)) = [byte] ∧
        hexValue byte = some (UInt8.ofNat n) := by
    decide +kernel
  obtain ⟨byte, -, hvalue⟩ := hdigit value.toNat h
  rw [UInt8.ofNat_toNat] at hvalue
  exact ⟨byte, hvalue⟩

/-- Digits are read back pair by pair. -/
theorem hexPairs_toHex (bytes : List UInt8) : ∃ text,
    (bytes.flatMap fun byte : UInt8 =>
      [hexDigit (byte >>> 4), hexDigit (byte &&& 0x0f)]).flatMap String.utf8EncodeChar = text ∧
    text.length = 2 * bytes.length ∧ hexPairs text = some bytes := by
  induction bytes with
  | nil => exact ⟨[], rfl, rfl, rfl⟩
  | cons byte bytes ih =>
      obtain ⟨text, htext, hlength, hpairs⟩ := ih
      obtain ⟨hhigh, hlow⟩ := Bytes.halves_lt byte
      obtain ⟨high, hencodeHigh, hreadHigh⟩ := hexValue_hexDigit hhigh
      obtain ⟨low, hencodeLow, hreadLow⟩ := hexValue_hexDigit hlow
      refine ⟨high :: low :: text, ?_, ?_, ?_⟩
      · simp [hencodeHigh, hencodeLow, ← htext]
      · simp only [List.length_cons, hlength]
        omega
      · simp [hexPairs, hreadHigh, hreadLow, hpairs, Bytes.join_halves]

/-- **The text of a fingerprint is read back.** -/
theorem Fingerprint.parseHex_toHex (fingerprint : Fingerprint) :
    Fingerprint.parseHex fingerprint.toHex = .ok fingerprint := by
  obtain ⟨text, htext, hlength, hpairs⟩ := hexPairs_toHex fingerprint.asBytes
  have hbytes : utf8Bytes fingerprint.toHex = text := by
    simp only [utf8Bytes, Fingerprint.toHex, String.toList_ofList]
    exact htext
  rw [fingerprint.length_eq] at hlength
  simp [Fingerprint.parseHex, hbytes, hlength, hpairs, fingerprint.length_eq]

/-! ## Accepted cards -/

/-- The invite a card keeps. -/
def trimInvite (invite : String) : Option String :=
  let invite := trim invite.toList
  if invite.isEmpty then none else some (String.ofList invite)

/-- A kept invite is kept as it is. -/
theorem trimInvite_trimInvite {invite kept : String} (h : trimInvite invite = some kept) :
    trimInvite kept = some kept := by
  simp only [trimInvite] at h
  split at h
  · cases h
  · rename_i hne
    cases h
    rw [trimInvite]
    simp only [String.toList_ofList, trim_trim]
    rw [if_neg hne]

namespace ServerCard

/-- **What the constructor accepts**, and the card it builds. -/
theorem new_ok_iff {host : String} {port : UInt16} {scheme : TransportScheme}
    {fingerprint : Option Fingerprint} {invite : Option String} {card : ServerCard} :
    new host port scheme fingerprint invite = .ok card ↔
      normalizeHost host = .ok card.host ∧ port ≠ 0 ∧ scheme.isTls = fingerprint.isSome ∧
        card = ⟨scheme, card.host, port, fingerprint, invite.bind trimInvite,
          PROTOCOL_VERSION⟩ := by
  cases hhost : normalizeHost host with
  | error e => simp [new, hhost, bind, Except.bind]
  | ok accepted =>
      simp only [new, hhost, bind, Except.bind, check_ok_iff, Except.ok.injEq]
      constructor
      · rintro ⟨hport, hmissing, hunexpected, rfl⟩
        refine ⟨rfl, hport, ?_, rfl⟩
        cases htls : scheme.isTls <;> cases fingerprint <;> simp_all
      · rintro ⟨rfl, hport, hpin, hcard⟩
        refine ⟨hport, ?_, ?_, hcard.symm⟩
        · cases fingerprint <;> simp [hpin]
        · cases fingerprint <;> simp [hpin]

/-- A card that the constructor built. -/
structure Built (card : ServerCard) : Prop where
  host : normalizeHost card.host = .ok card.host
  port : card.port ≠ 0
  pin : card.scheme.isTls = card.fingerprint.isSome
  invite : card.invite.bind trimInvite = card.invite
  version : card.protocolVersion = PROTOCOL_VERSION

theorem built_of_new {host : String} {port : UInt16} {scheme : TransportScheme}
    {fingerprint : Option Fingerprint} {invite : Option String} {card : ServerCard}
    (h : new host port scheme fingerprint invite = .ok card) : card.Built := by
  obtain ⟨hhost, hport, hpin, hcard⟩ := new_ok_iff.mp h
  rw [hcard]
  refine ⟨normalizeHost_idem hhost, hport, hpin, ?_, rfl⟩
  cases invite with
  | none => rfl
  | some invite =>
      cases hkept : trimInvite invite with
      | none => simp [hkept]
      | some kept => simp [hkept, trimInvite_trimInvite hkept]

/-- A built card is built again from a host that is normalized to its own. -/
theorem Built.new {card : ServerCard} (H : card.Built) {host : String}
    (hhost : normalizeHost host = .ok card.host) :
    ServerCard.new host card.port card.scheme card.fingerprint card.invite = .ok card := by
  rw [new_ok_iff]
  refine ⟨hhost, H.port, H.pin, ?_⟩
  rw [H.invite, ← H.version]

/-! ## The round trip -/

/-- **The URL of a built card** is split into its parts, and its host is normalized to
the host of the card. -/
theorem parse_urlText {url : UrlCrate} (hurl : url.NonSpecial) {card : ServerCard}
    (H : card.Built) : ∃ host,
    url.parse (card.render url) =
        .ok (.ofAuthority card.scheme.asStr host card.port card.query) ∧
      normalizeHost host = .ok card.host := by
  have hname (hchars : ∀ c ∈ card.host.toList, isLabelChar c = true ∨ c = '.')
      (hne : card.host.toList ≠ []) : ∃ host,
      url.parse (card.render url) =
          .ok (.ofAuthority card.scheme.asStr host card.port card.query) ∧
        normalizeHost host = .ok card.host := by
    have hcolon : ¬ card.host.toList.contains ':' = true := by
      rw [List.contains_eq_mem, decide_eq_true_eq]
      intro hmem
      rcases hchars ':' hmem with h | h
      · exact absurd h (by decide)
      · cases h
    refine ⟨card.host, ?_, H.host⟩
    rw [render, urlHost, if_neg hcolon]
    exact hurl.name_host card.scheme card.host card.port card.query hne hchars
  rcases normalizeHost_ok H.host with ⟨address, haddress⟩ | hdns
  · have htext : card.host.toList = address.display := by rw [haddress, String.toList_ofList]
    cases address with
    | v4 address =>
        refine hname (fun c hc => ?_) ?_
        · rw [htext] at hc
          refine (Ipv4Addr.mem_display hc).imp_left fun hdigit => ?_
          simp [isLabelChar, Char.isAlphanum, hdigit]
        · rw [htext]
          exact IpAddr.display_ne_nil _
    | v6 address =>
        have hcolon : card.host.toList.contains ':' = true := by
          rw [List.contains_eq_mem, decide_eq_true_eq, htext]
          exact colon_mem_display_v6 address
        refine ⟨"[" ++ String.ofList address.compressed ++ "]", ?_, ?_⟩
        · rw [render, urlHost, if_pos hcolon, haddress]
          exact hurl.ipv6_host card.scheme address card.port card.query
        · rw [normalizeHost_bracketed, haddress]
          rfl
  · exact hname hdns.chars hdns.nonempty

/-- **The query of a built card is read back.** -/
theorem readQuery_query {card : ServerCard} (hversion : card.protocolVersion = PROTOCOL_VERSION) :
    readQuery ⟨none, none, none⟩ card.query =
      .ok ⟨some PROTOCOL_VERSION, card.fingerprint, card.invite⟩ := by
  have hparse : parseU8 PROTOCOL_VERSION.repr = some PROTOCOL_VERSION := by decide
  cases hfingerprint : card.fingerprint <;> cases hinvite : card.invite <;>
    simp [query, hversion, readQuery, hparse, hfingerprint, hinvite, Fingerprint.parseHex_toHex]

/-- **A built card is parsed back from its rendering.** -/
theorem parse_render {url : UrlCrate} (hurl : url.NonSpecial) {card : ServerCard}
    (H : card.Built) : parse url (card.render url) = .ok card := by
  obtain ⟨host, hparse, hhost⟩ := parse_urlText hurl H
  have hscheme : TransportScheme.ofText card.scheme.asStr = some card.scheme := by
    cases card.scheme <;> decide
  simp [parse, hparse, Url.ofAuthority, hscheme, readQuery_query H.version, H.new hhost]

/-- What is parsed was built. -/
theorem built_of_parse {url : UrlCrate} {value : String} {card : ServerCard}
    (h : parse url value = .ok card) : card.Built := by
  simp only [parse] at h
  split at h
  · cases h
  · split at h
    · cases h
    · simp only [check_ok_iff] at h
      obtain ⟨-, -, -, h⟩ := h
      split at h
      · cases h
      · cases h
      · split at h
        · cases h
        · split at h
          · cases h
          · exact built_of_new (check_ok_iff.mp h).2

end ServerCard

/-- **Server cards round-trip.** A card that the constructor accepts is parsed back
from its rendering; what is parsed from any text is rendered to a text that parses to
the same card and renders to itself; and a normalized host is normalized. -/
theorem server_cards_round_trip (url : UrlCrate) (hurl : url.NonSpecial) :
    (∀ host port scheme fingerprint invite card,
      ServerCard.new host port scheme fingerprint invite = .ok card →
      ServerCard.parse url (card.render url) = .ok card) ∧
    (∀ value card, ServerCard.parse url value = .ok card →
      ServerCard.parse url (card.render url) = .ok card ∧
      ∀ parsed, ServerCard.parse url (card.render url) = .ok parsed →
        parsed.render url = card.render url) ∧
    ∀ host accepted, normalizeHost host = .ok accepted → normalizeHost accepted = .ok accepted := by
  refine ⟨fun host port scheme fingerprint invite card h => ?_, fun value card h => ?_,
    fun host accepted h => normalizeHost_idem h⟩
  · exact ServerCard.parse_render hurl (ServerCard.built_of_new h)
  · have hparse := ServerCard.parse_render hurl (ServerCard.built_of_parse h)
    refine ⟨hparse, fun parsed hparsed => ?_⟩
    rw [hparse] at hparsed
    cases hparsed
    rfl

/-! ## A URL library for cards -/

/-- The host of a URL whose scheme is not special. -/
def readHost (host : List Char) : Option (List Char) :=
  if host.head? = some '[' then
    match IpAddr.fromStr (host.drop 1).dropLast with
    | some (.v6 address) => some ('[' :: (address.compressed ++ [']']))
    | _ => none
  else some host

/-- A library that reads the URLs of cards. -/
def cardUrls : UrlCrate where
  finish pairs := String.ofList (FormUrlencoded.serialize pairs)
  parse value :=
    let scheme := value.toList.takeWhile (· ≠ ':')
    let rest := (value.toList.dropWhile (· ≠ ':')).drop 3
    let authority := (rest.takeWhile (· ≠ '?')).reverse
    let query := (rest.dropWhile (· ≠ '?')).drop 1
    let port := (authority.takeWhile (· ≠ ':')).reverse
    let host := ((authority.dropWhile (· ≠ ':')).drop 1).reverse
    match readHost host, FormUrlencoded.parse query with
    | some host, some pairs =>
        .ok (.ofAuthority (String.ofList scheme) (String.ofList host)
          (UInt16.ofNat (Numeral.ofDigits 10 (Numeral.spanDigits 10 port).1)) pairs)
    | _, _ => .error "invalid card URL"

/-- A rendered URL is split into the parts it was rendered from. -/
theorem cardUrls_parse (scheme : TransportScheme) (port : UInt16)
    (pairs : List (String × String)) {host read : List Char} (hquery : '?' ∉ host)
    (hread : readHost host = some read) :
    cardUrls.parse (urlText scheme.asStr (String.ofList host) port (cardUrls.finish pairs)) =
      .ok (.ofAuthority scheme.asStr (String.ofList read) port pairs) := by
  have hscheme : ':' ∉ scheme.asStr.toList := by cases scheme <;> decide
  have hdigits (c : Char) (hc : Numeral.toDigit 10 c = none) :
      c ∉ Nat.toDigits 10 port.toNat := by
    intro hmem
    have hdigit := Numeral.toDigit_isSome_of_mem (by decide) (by decide) _ hmem
    rw [hc] at hdigit
    cases hdigit
  have htext : (urlText scheme.asStr (String.ofList host) port (cardUrls.finish pairs)).toList =
      scheme.asStr.toList ++ ':' :: '/' :: '/' :: ((host ++ ':' :: Nat.toDigits 10 port.toNat) ++
        '?' :: FormUrlencoded.serialize pairs) := by
    simp [urlText, cardUrls, Nat.repr_eq_ofList_toDigits]
  have hauthority : '?' ∉ host ++ ':' :: Nat.toDigits 10 port.toNat := by
    simp [hquery, hdigits '?' (by decide)]
  have hreverse : (host ++ ':' :: Nat.toDigits 10 port.toNat).reverse =
      (Nat.toDigits 10 port.toNat).reverse ++ ':' :: host.reverse := by simp
  have hport : ':' ∉ (Nat.toDigits 10 port.toNat).reverse := by
    simpa using hdigits ':' (by decide)
  obtain ⟨ds, hspan, hvalue, -⟩ := Numeral.spanDigits_toDigits (by decide : 1 < 10) (by decide)
    port.toNat (noDigitAhead_nil 10)
  rw [List.append_nil] at hspan
  simp only [cardUrls] at htext ⊢
  simp only [htext, FormUrlencoded.takeWhile_ne hscheme, FormUrlencoded.dropWhile_ne hscheme,
    List.drop_succ_cons, List.drop_zero, FormUrlencoded.takeWhile_ne hauthority,
    FormUrlencoded.dropWhile_ne hauthority, hreverse, FormUrlencoded.takeWhile_ne hport,
    FormUrlencoded.dropWhile_ne hport, List.reverse_reverse, hread,
    FormUrlencoded.parse_serialize, hspan, hvalue, String.ofList_toList, UInt16.ofNat_toNat]

/-- The two kinds of hosts are read as a card needs them. -/
theorem cardUrls_nonSpecial : cardUrls.NonSpecial where
  name_host := by
    intro scheme host port pairs hne hchars
    have hread : readHost host.toList = some host.toList := by
      have hbracket : host.toList.head? ≠ some '[' := by
        intro hhead
        rcases hchars '[' (List.mem_of_mem_head? hhead) with h | h
        · exact absurd h (by decide)
        · cases h
      simp [readHost, hbracket]
    have hquery : '?' ∉ host.toList := by
      intro hmem
      rcases hchars '?' hmem with h | h
      · exact absurd h (by decide)
      · cases h
    have hparse := cardUrls_parse scheme port pairs hquery hread
    simpa using hparse
  ipv6_host := by
    intro scheme address port pairs
    have hread : readHost ('[' :: (address.display ++ [']'])) =
        some ('[' :: (address.compressed ++ [']'])) := by
      have hparse : IpAddr.fromStr address.display = some (.v6 address) :=
        IpAddr.fromStr_display (.v6 address)
      simp [readHost, hparse]
    have hquery : '?' ∉ '[' :: (address.display ++ [']']) := by
      intro hmem
      simp only [List.mem_cons, List.mem_append, List.not_mem_nil, or_false] at hmem
      rcases hmem with h | h | h
      · cases h
      · have hchar : isAddressChar '?' = true :=
          IpAddr.isAddressChar_of_mem_display (show '?' ∈ (IpAddr.v6 address).display from h)
        exact absurd hchar (by decide)
      · cases h
    have hparse := cardUrls_parse scheme port pairs hquery hread
    have htext (text : List Char) :
        String.ofList ('[' :: (text ++ [']'])) = "[" ++ String.ofList text ++ "]" := by
      apply String.toList_injective
      simp
    rw [htext, htext] at hparse
    exact hparse

/-- A card with a host to lower and an invite to trim and to encode. -/
theorem server_cards_round_trip_plain : ∃ card,
    ServerCard.new " Example.TEST " 8080 .plain none (some " a b&c=d ") = .ok card ∧
      card.host = "example.test" ∧ card.invite = some "a b&c=d" ∧
      ServerCard.parse cardUrls (card.render cardUrls) = .ok card :=
  ⟨_, rfl, by decide +kernel, by decide +kernel,
    (server_cards_round_trip cardUrls cardUrls_nonSpecial).1 " Example.TEST " 8080 .plain none
      (some " a b&c=d ") _ rfl⟩

end ZephyrVox.Wire
