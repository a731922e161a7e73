import ZephyrVox.Wire.Ip

/-!
# Server cards

A server card fixes scheme, host, port and certificate pin of one server. Its
constructor normalizes the host: an IP address becomes its canonical text, and
anything else has to be a DNS name and is lowered.

## Main definitions

* `ServerCard` — a validated card; only `ServerCard.new` builds one.
* `normalizeHost` — the accepted hosts and their canonical text.
* `normalizeHost_ok` — what an accepted host is.
-/

namespace ZephyrVox.Wire

/-- The two server-card transport schemes. -/
inductive TransportScheme
  | plain
  | tls
  deriving DecidableEq, Repr

/-- Whether the transport requires TLS pinning. -/
def TransportScheme.isTls : TransportScheme → Bool
  | .plain => false
  | .tls => true

/-- A 32-byte SPKI SHA-256 fingerprint. -/
structure Fingerprint where
  asBytes : List UInt8
  length_eq : asBytes.length = 32
  deriving DecidableEq, Repr

/-- Errors raised while building, parsing or rendering a server card. -/
inductive ServerCardError
  | invalidUrl (detail : String)
  | unsupportedScheme (scheme : String)
  | missingPort
  | invalidHost (host : String)
  | missingVersion
  | invalidVersion (value : String)
  | unsupportedVersion (version : ℕ)
  | duplicateQuery (key : String)
  | unknownQuery (key : String)
  | missingFingerprint
  | unexpectedFingerprint
  | invalidFingerprint (value : String)
  | invalidPort
  deriving DecidableEq, Repr

/-- A check that passes goes on with what follows it. -/
theorem check_ok_iff {ε α : Type} {p : Prop} [Decidable p] {e : ε} {next : Except ε α} {a : α} :
    (if p then .error e else next) = .ok a ↔ ¬ p ∧ next = .ok a := by
  by_cases hp : p <;> simp [hp]

/-- The characters with the Unicode property `White_Space`. -/
def isWhitespace (c : Char) : Bool :=
  let n := c.toNat
  (9 ≤ n && n ≤ 13) || n == 0x20 || n == 0x85 || n == 0xa0 || n == 0x1680 ||
    (0x2000 ≤ n && n ≤ 0x200a) || n == 0x2028 || n == 0x2029 || n == 0x202f || n == 0x205f ||
    n == 0x3000

/-- Remove surrounding whitespace. -/
def trim (text : List Char) : List Char :=
  ((text.dropWhile isWhitespace).reverse.dropWhile isWhitespace).reverse

/-- The length of the UTF-8 encoding. -/
def byteLength (text : List Char) : ℕ := (text.map Char.utf8Size).sum

/-- Remove one pair of square brackets. -/
def stripBrackets (text : List Char) : List Char :=
  match text with
  | '[' :: rest => if rest.getLast? = some ']' then rest.dropLast else text
  | _ => text

/-- The parts of a text between its dots. -/
def splitDots : List Char → List (List Char)
  | [] => [[]]
  | c :: rest =>
      if c = '.' then [] :: splitDots rest
      else
        match splitDots rest with
        | [] => [[c]]
        | label :: labels => (c :: label) :: labels

/-- The characters of a DNS label. -/
def isLabelChar (c : Char) : Bool := c.isAlphanum || c == '-'

/-- A label of a DNS name: at most 63 letters, digits and inner hyphens. -/
def isLabel (label : List Char) : Bool :=
  !label.isEmpty && byteLength label ≤ 63 && label.head? != some '-' &&
    label.getLast? != some '-' && label.all isLabelChar

/-- Validate a host and return its canonical text. -/
def normalizeHost (host : String) : Except ServerCardError String :=
  let host := stripBrackets (trim host.toList)
  if host.isEmpty || byteLength host > 253 || host.any isWhitespace then
    .error (.invalidHost (String.ofList host))
  else
    match IpAddr.fromStr host with
    | some address => .ok (String.ofList address.display)
    | none =>
        if host.contains ':' || host.contains '/' || host.contains '\\' then
          .error (.invalidHost (String.ofList host))
        else if (splitDots host).all isLabel then
          .ok (String.ofList (host.map Char.toLower))
        else .error (.invalidHost (String.ofList host))

/-- A validated connection card. -/
structure ServerCard where
  scheme : TransportScheme
  host : String
  port : UInt16
  fingerprint : Option Fingerprint
  invite : Option String
  protocolVersion : ℕ
  deriving DecidableEq, Repr

/-- The protocol version of every card. -/
def PROTOCOL_VERSION : ℕ := 1

/-- Build a card and validate its host, port and TLS invariants. -/
def ServerCard.new (host : String) (port : UInt16) (scheme : TransportScheme)
    (fingerprint : Option Fingerprint) (invite : Option String) :
    Except ServerCardError ServerCard := do
  let host ← normalizeHost host
  if port = 0 then .error .invalidPort
  else if scheme.isTls && fingerprint.isNone then .error .missingFingerprint
  else if !scheme.isTls && fingerprint.isSome then .error .unexpectedFingerprint
  else
    let invite := invite.bind fun invite =>
      let invite := trim invite.toList
      if invite.isEmpty then none else some (String.ofList invite)
    .ok {
      scheme := scheme
      host := host
      port := port
      fingerprint := fingerprint
      invite := invite
      protocolVersion := PROTOCOL_VERSION }

/-! ## What an accepted host is -/

/-- A DNS name in lower case that is not the text of an IPv4 address. -/
structure DnsHost (host : List Char) : Prop where
  nonempty : host ≠ []
  chars : ∀ c ∈ host, isLabelChar c = true ∨ c = '.'
  lower : host.map Char.toLower = host
  not_v4 : ∀ address : Ipv4Addr, host ≠ address.display

/-- Lowering changes a character only into a lower case letter. -/
theorem toLower_eq_or_isLower (c : Char) : c.toLower = c ∨ c.toLower.isLower = true := by
  unfold Char.toLower
  split
  next h =>
    right
    have hA : 'A'.val.toNat = 65 := rfl
    have hZ : 'Z'.val.toNat = 90 := rfl
    have hlow : 'A'.val.toNat ≤ c.val.toNat := UInt32.le_iff_toNat_le.mp h.1
    have hhigh : c.val.toNat ≤ 'Z'.val.toNat := UInt32.le_iff_toNat_le.mp h.2
    have hval : (c.val + ('a'.val - 'A'.val)).toNat = c.val.toNat + 32 := by
      have hshift : ('a'.val - 'A'.val).toNat = 32 := rfl
      rw [UInt32.toNat_add]
      omega
    have ha : 'a'.val.toNat = 97 := rfl
    have hz : 'z'.val.toNat = 122 := rfl
    simp only [Char.isLower, Bool.and_eq_true, decide_eq_true_eq, ge_iff_le,
      UInt32.le_iff_toNat_le, hval]
    omega
  next => exact .inl rfl

theorem toLower_of_isDigit {c : Char} (h : c.isDigit = true) : c.toLower = c := by
  unfold Char.toLower
  split
  next hu =>
    simp only [Char.isDigit, Bool.and_eq_true, decide_eq_true_eq, ge_iff_le,
      UInt32.le_iff_toNat_le] at h
    have hlow : 'A'.val.toNat ≤ c.val.toNat := UInt32.le_iff_toNat_le.mp hu.1
    have hA : 'A'.val.toNat = 65 := rfl
    have h9 : '9'.val.toNat = 57 := rfl
    omega
  next => rfl

theorem isLabelChar_toLower {c : Char} (h : isLabelChar c = true) :
    isLabelChar c.toLower = true := by
  rcases toLower_eq_or_isLower c with hc | hc
  · rw [hc]
    exact h
  · simp [isLabelChar, Char.isAlphanum, Char.isAlpha, hc]

theorem splitDots_ne_nil (text : List Char) : splitDots text ≠ [] := by
  cases text with
  | nil => simp [splitDots]
  | cons c rest =>
      unfold splitDots
      split
      · simp
      · split <;> simp

/-- Every character but the dots is in some label. -/
theorem mem_splitDots {c : Char} {text : List Char} (h : c ∈ text) :
    c = '.' ∨ ∃ label ∈ splitDots text, c ∈ label := by
  induction text with
  | nil => cases h
  | cons x rest ih =>
      by_cases hx : x = '.'
      · rcases List.mem_cons.mp h with rfl | h
        · exact .inl hx
        · refine (ih h).imp_right ?_
          rintro ⟨label, hlabel, hc⟩
          exact ⟨label, by simp [splitDots, hx, hlabel], hc⟩
      · cases hs : splitDots rest with
        | nil => exact absurd hs (splitDots_ne_nil rest)
        | cons label labels =>
            have hsplit : splitDots (x :: rest) = (x :: label) :: labels := by
              simp [splitDots, hx, hs]
            rw [hsplit]
            rcases List.mem_cons.mp h with rfl | h
            · exact .inr ⟨c :: label, by simp, by simp⟩
            · refine (ih h).imp_right ?_
              rintro ⟨found, hfound, hc⟩
              rw [hs] at hfound
              rcases List.mem_cons.mp hfound with rfl | hfound
              · exact ⟨x :: found, by simp, List.mem_cons_of_mem _ hc⟩
              · exact ⟨found, List.mem_cons_of_mem _ hfound, hc⟩

/-- A text whose lower case is an IPv4 text is that text. -/
theorem eq_display_of_map_toLower {text : List Char} {address : Ipv4Addr}
    (h : text.map Char.toLower = address.display) : text = address.display := by
  have hsame : ∀ c ∈ text, c.toLower = c := by
    intro c hc
    rcases toLower_eq_or_isLower c with heq | hlower
    · exact heq
    · have hmem : c.toLower ∈ address.display := by
        rw [← h]
        exact List.mem_map_of_mem hc
      rcases Ipv4Addr.mem_display hmem with hd | hd
      · simp only [Char.isLower, Char.isDigit, Bool.and_eq_true, decide_eq_true_eq, ge_iff_le,
          UInt32.le_iff_toNat_le] at hlower hd
        have ha : 'a'.val.toNat = 97 := rfl
        have h9 : '9'.val.toNat = 57 := rfl
        omega
      · rw [hd] at hlower
        cases hlower
  rw [← h]
  exact ((List.map_congr_left hsame).trans (List.map_id' text)).symm

/-- **An accepted host** is the text of an IP address or a DNS name that is not
one. -/
theorem normalizeHost_ok {host accepted : String} (h : normalizeHost host = .ok accepted) :
    (∃ address : IpAddr, accepted = String.ofList address.display) ∨
      DnsHost accepted.toList := by
  unfold normalizeHost at h
  generalize stripBrackets (trim host.toList) = text at h
  dsimp only at h
  split at h
  · cases h
  next hlength =>
    split at h
    next address _ =>
      cases h
      exact .inl ⟨address, rfl⟩
    next hparse =>
      split at h
      · cases h
      next =>
        split at h
        next hlabels =>
          cases h
          refine .inr ⟨?_, ?_, ?_, ?_⟩
          · intro hnil
            simp at hnil
            simp [hnil] at hlength
          · intro c hc
            rw [String.toList_ofList] at hc
            obtain ⟨x, hx, rfl⟩ := List.mem_map.mp hc
            rcases mem_splitDots hx with rfl | ⟨label, hlabel, hmem⟩
            · exact .inr rfl
            · have hl := List.all_eq_true.mp hlabels label hlabel
              simp only [isLabel, Bool.and_eq_true] at hl
              exact .inl (isLabelChar_toLower (List.all_eq_true.mp hl.2 x hmem))
          · simp [Function.comp_def]
          · intro address heq
            rw [String.toList_ofList] at heq
            rw [eq_display_of_map_toLower heq, IpAddr.fromStr_display_v4] at hparse
            cases hparse
        next => cases h

/-- What a card that was built is: a normalized host and a nonzero port. -/
theorem ServerCard.new_ok {host : String} {port : UInt16} {scheme : TransportScheme}
    {fingerprint : Option Fingerprint} {invite : Option String} {card : ServerCard}
    (h : ServerCard.new host port scheme fingerprint invite = .ok card) :
    normalizeHost host = .ok card.host ∧ card.port ≠ 0 := by
  unfold ServerCard.new at h
  cases hhost : normalizeHost host with
  | error e => simp [hhost, bind, Except.bind] at h
  | ok accepted =>
      simp only [hhost, bind, Except.bind] at h
      split at h
      · cases h
      next hport =>
        split at h
        · cases h
        · split at h
          · cases h
          · cases h
            exact ⟨rfl, hport⟩

end ZephyrVox.Wire
