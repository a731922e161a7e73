import ZephyrVox.Http.Credentials
import ZephyrVox.Realtime.Socket
import ZephyrVox.Wire.ServerCard

/-!
# The authority of a server card

The HTTP client and the realtime connection build their URLs from the server
card, and both transports compare each URL with the card before using it. The
builders bracket an IPv6 host, while the checks compare the parsed host, with
its brackets, to the host of the card, without: a client of an IPv6 card refuses
its own URLs. The same happens to a DNS name that the URL parser reads as an
IPv4 number. The hosts that survive are those of `Kept`.

The parser is the `url` crate. `UrlCrate` is what the SDK calls of it and
`Whatwg` what it relies on: the WHATWG rules for special schemes.

## Main definitions

* `UrlCrate`, `Whatwg` — the parser and its documented behaviour.
* `websocketUrl`, `controlBaseUrl`, `endpoint` — the three builders.
* `urlMatchesCard`, `ReqwestTransport.checkAuthority` — the two checks.
* `AcceptsOwnUrls` — every URL the SDK builds for a card passes its checks.
-/

namespace ZephyrVox.Sdk

open Wire Http Realtime

/-- A parsed URL. -/
structure Url where
  scheme : String
  username : String
  password : Option String
  hostStr : Option String
  /-- The port, unless it is the default of the scheme. -/
  port : Option ℕ
  path : String
  query : Option String
  fragment : Option String
  deriving DecidableEq, Repr

/-- The default port of a special scheme. -/
def knownDefault : String → Option ℕ
  | "http" | "ws" => some 80
  | "https" | "wss" => some 443
  | _ => none

/-- The port, or the default port of the scheme. -/
def Url.portOrKnownDefault (url : Url) : Option ℕ := url.port <|> knownDefault url.scheme

/-- The functions of the `url` crate that the SDK calls, with the host parser of
special schemes. Errors are given by their text. -/
structure UrlCrate where
  parse : String → Except String Url
  join : Url → String → Except String Url
  parseHost : String → Except String String

/-! ## The WHATWG rules -/

/-- A text of letters, digits, hyphens and dots. -/
def IsDomainText (host : List Char) : Prop :=
  host ≠ [] ∧ ∀ c ∈ host, isLabelChar c = true ∨ c = '.'

/-- A label that reads as an IPv4 number: decimal digits, or hexadecimal digits
after `0x`. -/
def isIpv4Number (label : List Char) : Bool :=
  (!label.isEmpty && label.all Char.isDigit) ||
    (label.take 2 == ['0', 'x'] && (label.drop 2).all fun c => (Numeral.toDigit 16 c).isSome)

/-- The last label reads as an IPv4 number. -/
def endsInNumber (host : List Char) : Bool := (splitDots host).getLast?.any isIpv4Number

/-- A path that parsing leaves as it is. -/
def IsPlainPath (path : List Char) : Prop :=
  path.head? = some '/' ∧ ∀ c ∈ path, c.isAlphanum = true ∨ c = '/'

theorem isPlainPath_of_check {path : List Char} (hhead : path.head? = some '/')
    (hall : (path.all fun c => c.isAlphanum || c = '/') = true) : IsPlainPath path := by
  refine ⟨hhead, fun c hc => ?_⟩
  simpa using List.all_eq_true.mp hall c hc

/-- A relative reference without scheme, authority and fragment. -/
def IsRelativePath (path : List Char) : Prop :=
  path.head? ≠ some '/' ∧ (∀ c ∈ path, '!' ≤ c ∧ c ≤ '~' ∧ c ≠ '#' ∧ c ≠ '\\') ∧
    ':' ∉ path.takeWhile (· ≠ '/')

/-- The bracketed text of an IPv6 address. -/
def bracketed (address : Ipv6Addr) : String := "[" ++ String.ofList address.display ++ "]"

/-- The documented behaviour of the `url` crate on the texts the SDK builds. -/
structure Whatwg (crate : UrlCrate) : Prop where
  /-- A bracketed IPv6 host is kept in brackets. -/
  host_v6 : ∀ address, ∃ text, crate.parseHost (bracketed address) = .ok ("[" ++ text ++ "]")
  /-- A canonical IPv4 host is kept. -/
  host_v4 : ∀ address : Ipv4Addr,
    crate.parseHost (String.ofList address.display) = .ok (String.ofList address.display)
  /-- A host that ends in a number is an IPv4 address or an error. -/
  host_number : ∀ host : String, IsDomainText host.toList → endsInNumber host.toList = true →
    (∃ e, crate.parseHost host = .error e) ∨
      ∃ address : Ipv4Addr, crate.parseHost host = .ok (String.ofList address.display)
  /-- Any other ASCII domain is kept in lower case. -/
  host_domain : ∀ host : String, IsDomainText host.toList → endsInNumber host.toList = false →
    crate.parseHost host = .ok (String.ofList (host.toList.map Char.toLower))
  /-- A URL with a special scheme, a host and a port has just these parts. -/
  parse_special : ∀ scheme ∈ ["http", "https", "ws", "wss"], ∀ host : String,
    IsDomainText host.toList ∨ (∃ address, host = bracketed address) →
    ∀ port, 0 < port → port < 65536 → ∀ path : String, IsPlainPath path.toList →
    crate.parse (scheme ++ "://" ++ host ++ ":" ++ toString port ++ path) =
      (crate.parseHost host).map fun hostStr => {
        scheme := scheme
        username := ""
        password := none
        hostStr := some hostStr
        port := if knownDefault scheme = some port then none else some port
        path := path
        query := none
        fragment := none }
  /-- Joining a relative path keeps scheme and authority. -/
  join_relative : ∀ base : Url, base.scheme ∈ ["http", "https", "ws", "wss"] →
    base.hostStr.isSome → ∀ path : String, IsRelativePath path.toList →
    ∃ url, crate.join base path = .ok url ∧ url.scheme = base.scheme ∧
      url.username = base.username ∧ url.password = base.password ∧
      url.hostStr = base.hostStr ∧ url.port = base.port ∧ url.fragment = none

/-! ## Builders and checks -/

variable (crate : UrlCrate)

/-- The host of a card as it stands in a URL. -/
def urlHost (card : ServerCard) : String :=
  if card.host.toList.contains ':' then "[" ++ card.host ++ "]" else card.host

/-- The fixed WebSocket endpoint. -/
def websocketUrl (card : ServerCard) : Except RealtimeError Url :=
  let scheme := match card.scheme with
    | .plain => "ws"
    | .tls => "wss"
  match crate.parse
      (scheme ++ "://" ++ urlHost card ++ ":" ++ toString card.port.toNat ++ "/api/v0/ws") with
  | .ok url => .ok url
  | .error error => .error (.protocol error)

/-- The base of every HTTP request. -/
def controlBaseUrl (card : ServerCard) : Except HttpError Url :=
  let scheme := if card.scheme.isTls then "https" else "http"
  match crate.parse
      (scheme ++ "://" ++ urlHost card ++ ":" ++ toString card.port.toNat ++ "/api/v0/") with
  | .ok url => .ok url
  | .error error => .error (.invalidUrl error)

/-- The URL of one request path. -/
def endpoint (baseUrl : Url) (path : String) : Except HttpError Url :=
  match crate.join baseUrl (String.ofList (path.toList.dropWhile (· = '/'))) with
  | .ok url => .ok url
  | .error error => .error (.invalidUrl error)

/-- The check of the realtime connector. -/
def urlMatchesCard (url : Url) (card : ServerCard) : Bool :=
  let expectedScheme := match card.scheme with
    | .plain => "ws"
    | .tls => "wss"
  url.scheme == expectedScheme && url.hostStr == some card.host &&
    url.portOrKnownDefault == some card.port.toNat && url.path == "/api/v0/ws" &&
    url.query.isNone && url.fragment.isNone && url.username.isEmpty && url.password.isNone

/-- The authority a transport is bound to. -/
structure ReqwestTransport where
  expectedScheme : String
  expectedHost : String
  expectedPort : ℕ

/-- The transport of a card. -/
def ReqwestTransport.new (card : ServerCard) : ReqwestTransport where
  expectedScheme := if card.scheme.isTls then "https" else "http"
  expectedHost := card.host
  expectedPort := card.port.toNat

/-- The check `send_inner` makes before it sends a request. -/
def ReqwestTransport.checkAuthority (transport : ReqwestTransport) (url : Url) :
    Except HttpError Unit :=
  if url.scheme != transport.expectedScheme || url.hostStr != some transport.expectedHost ||
      url.portOrKnownDefault != some transport.expectedPort || !url.username.isEmpty ||
      url.password.isSome || url.fragment.isSome then
    .error (.invalidUrl "request URL does not match the server card")
  else .ok ()

/-- A request path of the SDK, after its leading slashes. -/
def IsRequestPath (path : String) : Prop :=
  IsRelativePath (path.toList.dropWhile (· = '/'))

/-- Every URL the SDK builds for the card is built and passes the checks. -/
def AcceptsOwnUrls (card : ServerCard) : Prop :=
  ∃ ws base, websocketUrl crate card = .ok ws ∧ controlBaseUrl crate card = .ok base ∧
    urlMatchesCard ws card = true ∧
    ∀ path, IsRequestPath path → ∃ url, endpoint crate base path = .ok url ∧
      (ReqwestTransport.new card).checkAuthority url = .ok ()

/-- The hosts that URL parsing keeps: no IPv6 address, and no name that reads as
an IPv4 number unless it is a canonical IPv4 address. -/
def Kept (host : List Char) : Prop :=
  ':' ∉ host ∧ (endsInNumber host = true → ∃ address : Ipv4Addr, host = address.display)

/-! ## Which cards accept their own URLs -/

/-- The URL of the card with the given scheme, parsed host and path. -/
def cardUrl (card : ServerCard) (scheme hostStr path : String) : Url where
  scheme := scheme
  username := ""
  password := none
  hostStr := some hostStr
  port := if knownDefault scheme = some card.port.toNat then none else some card.port.toNat
  path := path
  query := none
  fragment := none

theorem portOrKnownDefault_cardUrl (card : ServerCard) (scheme hostStr path : String) :
    (cardUrl card scheme hostStr path).portOrKnownDefault = some card.port.toNat := by
  by_cases h : knownDefault scheme = some card.port.toNat
  · simp [cardUrl, Url.portOrKnownDefault, h]
  · simp [cardUrl, Url.portOrKnownDefault, h]

/-- The scheme of the WebSocket URL of a card. -/
def wsScheme (card : ServerCard) : String := if card.scheme.isTls then "wss" else "ws"

/-- The scheme of the HTTP URLs of a card. -/
def httpScheme (card : ServerCard) : String := if card.scheme.isTls then "https" else "http"

theorem wsScheme_mem (card : ServerCard) :
    wsScheme card ∈ ["http", "https", "ws", "wss"] := by
  unfold wsScheme
  split <;> simp

theorem httpScheme_mem (card : ServerCard) :
    httpScheme card ∈ ["http", "https", "ws", "wss"] := by
  unfold httpScheme
  split <;> simp

/-- The host text of a card that was built is one the parser is specified on. -/
def IsUrlHost (host : String) : Prop :=
  IsDomainText host.toList ∨ ∃ address, host = bracketed address

section Parsed

variable {crate : UrlCrate} (hcrate : Whatwg crate) {card : ServerCard}
  (hport : card.port ≠ 0) (hhost : IsUrlHost (urlHost card))
include hcrate hport hhost

theorem parse_cardUrl {scheme : String} (hscheme : scheme ∈ ["http", "https", "ws", "wss"])
    (path : String) (hpath : IsPlainPath path.toList) :
    crate.parse (scheme ++ "://" ++ urlHost card ++ ":" ++ toString card.port.toNat ++ path) =
      (crate.parseHost (urlHost card)).map fun hostStr => cardUrl card scheme hostStr path := by
  have hpos : 0 < card.port.toNat := by
    refine Nat.pos_of_ne_zero ?_
    intro h
    exact hport (UInt16.toNat_inj.mp h)
  exact hcrate.parse_special scheme hscheme _ hhost _ hpos card.port.toNat_lt _ hpath

theorem websocketUrl_eq :
    websocketUrl crate card = match crate.parseHost (urlHost card) with
      | .ok hostStr => .ok (cardUrl card (wsScheme card) hostStr "/api/v0/ws")
      | .error e => .error (.protocol e) := by
  have hscheme : (match card.scheme with
      | .plain => "ws"
      | .tls => "wss") = wsScheme card := by
    cases h : card.scheme <;> simp [wsScheme, h, TransportScheme.isTls]
  have hparse := parse_cardUrl hcrate hport hhost (wsScheme_mem card)
    "/api/v0/ws" (isPlainPath_of_check rfl (by decide))
  simp only [websocketUrl, hscheme, hparse]
  cases crate.parseHost (urlHost card) <;> rfl

theorem controlBaseUrl_eq :
    controlBaseUrl crate card = match crate.parseHost (urlHost card) with
      | .ok hostStr => .ok (cardUrl card (httpScheme card) hostStr "/api/v0/")
      | .error e => .error (.invalidUrl e) := by
  have hparse := parse_cardUrl hcrate hport hhost (httpScheme_mem card)
    "/api/v0/" (isPlainPath_of_check rfl (by decide))
  simp only [controlBaseUrl, httpScheme] at hparse ⊢
  rw [hparse]
  cases crate.parseHost (urlHost card) <;> rfl

/-- A card whose host the parser refuses has no URLs. -/
theorem not_acceptsOwnUrls_of_error {e : String}
    (herror : crate.parseHost (urlHost card) = .error e) : ¬ AcceptsOwnUrls crate card := by
  rintro ⟨ws, base, hws, -⟩
  rw [websocketUrl_eq hcrate hport hhost, herror] at hws
  cases hws

/-- A card whose host the parser accepts accepts its own URLs exactly when the
parser kept the host. -/
theorem acceptsOwnUrls_iff_of_ok {hostStr : String}
    (hok : crate.parseHost (urlHost card) = .ok hostStr) :
    AcceptsOwnUrls crate card ↔ hostStr = card.host := by
  have hws := websocketUrl_eq hcrate hport hhost
  have hbase := controlBaseUrl_eq hcrate hport hhost
  rw [hok] at hws hbase
  constructor
  · rintro ⟨ws, base, hws', -, hmatch, -⟩
    rw [hws] at hws'
    cases hws'
    simp only [urlMatchesCard, Bool.and_eq_true, beq_iff_eq] at hmatch
    exact Option.some.inj hmatch.1.1.1.1.1.1.2
  · intro hkept
    refine ⟨_, _, hws, hbase, ?_, ?_⟩
    · have hscheme : (match card.scheme with
          | .plain => "ws"
          | .tls => "wss") = wsScheme card := by
        cases h : card.scheme <;> simp [wsScheme, h, TransportScheme.isTls]
      simp only [urlMatchesCard, hscheme, portOrKnownDefault_cardUrl]
      simp [cardUrl, hkept]
    · intro path hpath
      obtain ⟨url, hjoin, h1, h2, h3, h4, h5, h6⟩ := hcrate.join_relative
        (cardUrl card (httpScheme card) hostStr "/api/v0/") (httpScheme_mem card) rfl
        (String.ofList (path.toList.dropWhile (· = '/')))
        (by rw [String.toList_ofList]; exact hpath)
      refine ⟨url, by simp [endpoint, hjoin], ?_⟩
      have hportUrl : url.portOrKnownDefault = some card.port.toNat := by
        rw [← portOrKnownDefault_cardUrl card (httpScheme card) hostStr "/api/v0/",
          Url.portOrKnownDefault, Url.portOrKnownDefault, h5, h1]
      simp [ReqwestTransport.checkAuthority, ReqwestTransport.new, hportUrl, h1, h2, h3, h4, h6,
        cardUrl, hkept, httpScheme]

end Parsed

theorem isDomainText_display (address : Ipv4Addr) : IsDomainText address.display := by
  refine ⟨?_, ?_⟩
  · simp [Ipv4Addr.display]
  · intro c hc
    refine (Ipv4Addr.mem_display hc).imp_left ?_
    intro hd
    simp [isLabelChar, Char.isAlphanum, hd]

theorem bracket_not_mem_display (address : Ipv6Addr) : '[' ∉ address.display := by
  intro h
  rcases Ipv6Addr.mem_display h with h | h | h <;> cases h

/-- A bracketed text is not the text of an IPv6 address. -/
theorem bracketed_ne_display (text : String) (address : Ipv6Addr) :
    "[" ++ text ++ "]" ≠ String.ofList address.display := by
  intro h
  have hmem : '[' ∈ ("[" ++ text ++ "]").toList := by simp
  rw [h, String.toList_ofList] at hmem
  exact bracket_not_mem_display address hmem

theorem colon_not_mem_dns {host : List Char} (h : DnsHost host) : ':' ∉ host := by
  intro hc
  rcases h.chars _ hc with hc | hc <;> cases hc

theorem urlHost_of_colon_not_mem {card : ServerCard} (h : ':' ∉ card.host.toList) :
    urlHost card = card.host := by
  simp [urlHost, h]

/-- An IPv6 card refuses its own URLs. -/
theorem not_acceptsOwnUrls_of_v6 {crate : UrlCrate} (hcrate : Whatwg crate) {card : ServerCard}
    (hport : card.port ≠ 0) {address : Ipv6Addr}
    (hhost : card.host = String.ofList address.display) : ¬ AcceptsOwnUrls crate card := by
  have hcolon : ':' ∈ card.host.toList := by
    rw [hhost, String.toList_ofList]
    exact colon_mem_display_v6 address
  have hurl : urlHost card = bracketed address := by
    rw [urlHost, if_pos (by simpa using hcolon), hhost]
    rfl
  obtain ⟨text, hok⟩ := hcrate.host_v6 address
  rw [← hurl] at hok
  rw [acceptsOwnUrls_iff_of_ok hcrate hport (.inr ⟨address, hurl⟩) hok, hhost]
  exact bracketed_ne_display text address

/-- The host parser of special schemes, on the hosts of server cards. -/
def sampleParseHost (host : String) : Except String String :=
  if host.toList.head? = some '[' then .ok host
  else if endsInNumber host.toList then
    match IpAddr.fromStr host.toList with
    | some (.v4 address) => .ok (String.ofList address.display)
    | _ => .error "invalid IPv4 address"
  else .ok (String.ofList (host.toList.map Char.toLower))

/-- Split a URL into scheme, authority and path. -/
def sampleParse (text : String) : Except String Url :=
  let scheme := text.toList.takeWhile (· ≠ ':')
  let rest := (text.toList.dropWhile (· ≠ ':')).drop 3
  let authority := (rest.takeWhile (· ≠ '/')).reverse
  let path := rest.dropWhile (· ≠ '/')
  let port := Numeral.ofDigits 10
    (Numeral.spanDigits 10 (authority.takeWhile (· ≠ ':')).reverse).1
  let host := ((authority.dropWhile (· ≠ ':')).drop 1).reverse
  (sampleParseHost (String.ofList host)).map fun hostStr => {
    scheme := String.ofList scheme
    username := ""
    password := none
    hostStr := some hostStr
    port := if knownDefault (String.ofList scheme) = some port then none else some port
    path := String.ofList path
    query := none
    fragment := none }

/-- The parser on absolute URLs with a port and on relative paths below a base
that ends in a slash. -/
def sampleCrate : UrlCrate where
  parse := sampleParse
  join base path := .ok { base with
    path := base.path ++ String.ofList (path.toList.takeWhile (· ≠ '?'))
    query := (path.toList.dropWhile (· ≠ '?')).tail?.map String.ofList
    fragment := none }
  parseHost := sampleParseHost

/-- Splitting at a delimiter that does not occur before. -/
theorem split_at_delimiter {l m : List Char} {d : Char} (h : d ∉ l) :
    (l ++ d :: m).takeWhile (· ≠ d) = l ∧ (l ++ d :: m).dropWhile (· ≠ d) = d :: m := by
  have hl : ∀ x ∈ l, (decide (x ≠ d)) = true := by
    intro x hx
    simp only [ne_eq, decide_eq_true_eq]
    rintro rfl
    exact h hx
  rw [List.takeWhile_append_of_pos hl, List.dropWhile_append_of_pos hl]
  simp

theorem digit_of_mem_toString {n : ℕ} {c : Char} (h : c ∈ (toString n).toList) :
    c.isDigit = true := by
  rw [Nat.toString_eq_repr, Nat.toList_repr] at h
  exact Nat.isDigit_of_mem_toDigits (by decide) (by decide) h

/-- The sample parser takes a URL apart. -/
theorem sampleParse_eq (scheme host : String) (port : ℕ) (path : String)
    (hscheme : ':' ∉ scheme.toList) (hhost : '/' ∉ host.toList)
    (hpath : path.toList.head? = some '/') :
    sampleParse (scheme ++ "://" ++ host ++ ":" ++ toString port ++ path) =
      (sampleParseHost host).map fun hostStr => {
        scheme := scheme
        username := ""
        password := none
        hostStr := some hostStr
        port := if knownDefault scheme = some port then none else some port
        path := path
        query := none
        fragment := none } := by
  obtain ⟨tail, htail⟩ : ∃ tail, path.toList = '/' :: tail := by
    cases hp : path.toList with
    | nil => simp [hp] at hpath
    | cons c tail =>
        simp only [hp, List.head?_cons, Option.some.injEq] at hpath
        exact ⟨tail, by rw [hpath]⟩
  have htext : (scheme ++ "://" ++ host ++ ":" ++ toString port ++ path).toList =
      scheme.toList ++ ':' :: '/' :: '/' :: ((host.toList ++ ':' :: (toString port).toList) ++
        '/' :: tail) := by
    simp [htail]
  have hscheme' := split_at_delimiter
    (m := '/' :: '/' :: ((host.toList ++ ':' :: (toString port).toList) ++ '/' :: tail)) hscheme
  have hauthority := split_at_delimiter (l := host.toList ++ ':' :: (toString port).toList)
    (m := tail) (d := '/') (by
      simp only [List.mem_append, List.mem_cons, not_or]
      refine ⟨hhost, by decide, ?_⟩
      intro hc
      cases digit_of_mem_toString hc)
  have hport := split_at_delimiter (l := (toString port).toList.reverse)
    (m := host.toList.reverse) (d := ':') (by
      intro hc
      cases digit_of_mem_toString (List.mem_reverse.mp hc))
  have hvalue : Numeral.ofDigits 10 (Numeral.spanDigits 10 (toString port).toList).1 = port := by
    obtain ⟨ds, hspan, hval, -⟩ := Numeral.spanDigits_toDigits (by decide) (by decide) port
      (noDigitAhead_nil 10)
    rw [List.append_nil] at hspan
    rw [Nat.toString_eq_repr, Nat.toList_repr, hspan]
    exact hval
  have hpathText : String.ofList ('/' :: tail) = path := by
    rw [← htail, String.ofList_toList]
  have hreverse : (host.toList ++ ':' :: (toString port).toList).reverse =
      (toString port).toList.reverse ++ ':' :: host.toList.reverse := by
    simp
  simp only [sampleParse, htext, hscheme'.1, hscheme'.2, List.drop_succ_cons, List.drop_zero,
    hauthority.1, hauthority.2, hreverse, hport.1, hport.2, List.reverse_reverse, hvalue,
    String.ofList_toList, hpathText]

theorem lower_display (address : Ipv4Addr) :
    address.display.map Char.toLower = address.display := by
  refine (List.map_congr_left ?_).trans (List.map_id' _)
  intro c hc
  rcases Ipv4Addr.mem_display hc with hd | rfl
  · exact toLower_of_isDigit hd
  · rfl

theorem head_ne_bracket {host : List Char} (h : IsDomainText host) : host.head? ≠ some '[' := by
  intro hhead
  rcases h.2 '[' (List.mem_of_mem_head? hhead) with hc | hc <;> cases hc

/-- The sample parser behaves as specified. -/
theorem whatwg_sampleCrate : Whatwg sampleCrate where
  host_v6 address := by
    refine ⟨String.ofList address.display, ?_⟩
    simp [sampleCrate, sampleParseHost, bracketed]
  host_v4 address := by
    have hhead := head_ne_bracket (isDomainText_display address)
    simp only [sampleCrate, sampleParseHost, String.toList_ofList, hhead,
      IpAddr.fromStr_display_v4, lower_display, ite_self]
  host_number host htext hnumber := by
    have hhead := head_ne_bracket htext
    simp only [sampleCrate, sampleParseHost, hhead, hnumber, if_false, if_true]
    split
    next address _ => exact .inr ⟨address, rfl⟩
    next => exact .inl ⟨_, rfl⟩
  host_domain host htext hplain := by
    have hhead := head_ne_bracket htext
    simp [sampleCrate, sampleParseHost, hhead, hplain]
  parse_special scheme hscheme host hhost port _ _ path hpath := by
    have hcolon : ':' ∉ scheme.toList := by
      revert scheme
      decide
    have hnoslash : '/' ∉ host.toList := by
      intro hslash
      rcases hhost with htext | ⟨address, rfl⟩
      · rcases htext.2 _ hslash with hc | hc <;> cases hc
      · simp only [bracketed, String.toList_append, String.toList_ofList, List.mem_append] at hslash
        rcases hslash with (hc | hc) | hc
        · revert hc
          decide
        · rcases Ipv6Addr.mem_display hc with hc | hc | hc <;> cases hc
        · revert hc
          decide
    simp only [sampleCrate]
    exact sampleParse_eq scheme host port path hcolon hnoslash hpath.1
  join_relative base _ _ path _ := ⟨_, rfl, rfl, rfl, rfl, rfl, rfl, rfl⟩

end ZephyrVox.Sdk
