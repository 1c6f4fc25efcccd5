import NestApi.PeerIdentity
import Mathlib.Data.List.Infix

namespace NestApi.Mtls

open Utf16

section Names

/-- What the host name pattern tells apart. -/
inductive Letter where
  | alnum
  | hyphen
  | dot
  | other
  deriving DecidableEq

def letter (unit : UInt16) : Letter :=
  let code := unit.toNat
  if (0x30 ≤ code ∧ code ≤ 0x39) ∨ (0x41 ≤ code ∧ code ≤ 0x5A) ∨ (0x61 ≤ code ∧ code ≤ 0x7A) then
    .alnum
  else if code = 0x2D then .hyphen
  else if code = 0x2E then .dot
  else .other

/-- Labels of at most 63 letters between dots, with no hyphen at either end: the rest of a host
name, after `size` letters of a label the last of which is a hyphen or not. -/
def isLabels (size : Nat) (hyphen : Bool) : List Letter → Bool
  | [] => 0 < size && !hyphen
  | .alnum :: rest => size < 63 && isLabels (size + 1) false rest
  | .hyphen :: rest => 0 < size && size < 63 && isLabels (size + 1) true rest
  | .dot :: rest => 0 < size && !hyphen && isLabels 0 false rest
  | .other :: _ => false

def isDnsName (value : Utf16) : Bool :=
  if value.length > 253 then false else isLabels 0 false (value.map letter)

def hasScheme (value : Utf16) : Bool := decide (ofString "://" <:+: value)

structure Url where
  protocol : Utf16
  host : Utf16
  pathname : Utf16

/-- `new URL`, with `none` where it throws. -/
abbrev UrlParser := Utf16 → Option Url

def isPeerIdentity (url : UrlParser) (value : Utf16) : Bool :=
  if value.length = 0 ∨ value ≠ trim value then false
  else if value.contains 0x2A then false
  else if hasScheme value then
    match url value with
    | some url => url.protocol.length > 0 && (url.host.length > 0 || url.pathname.length > 0)
    | none => false
  else isDnsName value

def asciiLower (unit : UInt16) : UInt16 :=
  if 0x41 ≤ unit.toNat ∧ unit.toNat ≤ 0x5A then unit + 32 else unit

def latinLower (unit : UInt16) : UInt16 :=
  if 0xC0 ≤ unit.toNat ∧ unit.toNat ≤ 0xDE ∧ unit.toNat ≠ 0xD7 then unit + 32
  else asciiLower unit

/-- `toLowerCase`, of which only the letters of Latin-1 are needed. -/
structure Casing where
  toLowerCase : Utf16 → Utf16
  latin : ∀ text, (∀ unit ∈ text, unit.toNat < 256) → toLowerCase text = text.map latinLower

end Names

def allowsAnyPeer (allowlist : List Utf16) : Bool := allowlist = [ofString "*"]

variable (casing : Casing)

def isMatch (identity allowed : Utf16) : Bool :=
  identity = allowed || (!hasScheme identity && !hasScheme allowed &&
    casing.toLowerCase identity = casing.toLowerCase allowed)

def matchPeerIdentity (identities allowlist : List Utf16) : Option Utf16 :=
  identities.find? fun identity => allowlist.any (isMatch casing identity)

structure PeerConnection where
  encrypted : Bool
  authorized : Bool
  subjectAltName : Option (List Char)
  authorizationError : Option Utf16
  subject : Option Utf16

structure PeerPolicy where
  allowlist : List Utf16
  exemptPrefixes : List Utf16

inductive Denial where
  | notTls
  | noCertificate
  | unknownIdentity

inductive PeerDecision where
  | allowed (identity : Option Utf16) (exempt : Bool)
  | denied (reason : Denial) (detail : Utf16)

def PeerDecision.isAllowed : PeerDecision → Bool
  | .allowed _ _ => true
  | .denied _ _ => false

def isExemptPath (path : Utf16) (exemptPrefixes : List Utf16) : Bool :=
  exemptPrefixes.any fun start =>
    start.isPrefixOf path &&
      (path.drop start.length = [] || (path.drop start.length).head? = some 0x2F)

def bracketed (label : String) (text : Option Utf16) : Utf16 :=
  match text.filter (· ≠ []) with
  | some text => ofString (" (" ++ label) ++ text ++ ofString ")"
  | none => []

def notTlsDetail : Utf16 := ofString <|
  "The request arrived over a connection that is not TLS, so there is no peer " ++
  "certificate to authorise. With MTLS_ENABLED on, every listener this process serves " ++
  "should be the TLS one — a plaintext port in front of it makes the whole mechanism advisory."

def noCertificateDetail (connection : PeerConnection) : Utf16 :=
  ofString "The peer presented no certificate the trust anchors accept" ++
  bracketed "" connection.authorizationError ++
  ofString (". This is only reachable with MTLS_ALLOW_UNAUTHENTICATED_PROBES on — otherwise the " ++
    "handshake itself would have failed.")

def unknownIdentityDetail (connection : PeerConnection) (identities allowlist : List Utf16) :
    Utf16 :=
  ofString ("The peer's certificate is valid but its identity is not one this service takes " ++
    "calls from. Presented: ") ++
  (if identities = [] then ofString "no URI or DNS SAN"
    else (ofString ", ").intercalate identities) ++
  bracketed "subject " connection.subject ++ ofString ". Allowed: " ++
  (ofString ", ").intercalate allowlist ++ ofString "."

def authorizePeer (connection : PeerConnection) (path : Utf16) (policy : PeerPolicy) :
    PeerDecision :=
  let identities := peerIdentitiesFrom connection.subjectAltName
  if isExemptPath path policy.exemptPrefixes then .allowed identities.head? true
  else if !connection.encrypted then .denied .notTls notTlsDetail
  else if !connection.authorized then .denied .noCertificate (noCertificateDetail connection)
  else if allowsAnyPeer policy.allowlist then .allowed identities.head? false
  else
    match matchPeerIdentity casing identities policy.allowlist with
    | some matched => .allowed (some matched) false
    | none =>
      .denied .unknownIdentity (unknownIdentityDetail connection identities policy.allowlist)

section HostNames

variable {value other : Utf16}

theorem letter_of_isLabels {letters : List Letter} {size : Nat} {hyphen : Bool}
    (labels : isLabels size hyphen letters = true) : ∀ letter ∈ letters, letter ≠ .other := by
  induction letters generalizing size hyphen with
  | nil => simp
  | cons first rest ih =>
    cases first with
    | other => cases labels
    | _ =>
      simp only [isLabels, Bool.and_eq_true] at labels
      exact List.forall_mem_cons.mpr ⟨nofun, ih labels.2⟩

theorem letter_of_isDnsName (name : isDnsName value = true) :
    ∀ unit ∈ value, letter unit ≠ .other := by
  unfold isDnsName at name
  split at name
  · cases name
  · intro unit mem
    exact letter_of_isLabels name _ (List.mem_map_of_mem mem)

theorem ascii_of_letter {unit : UInt16} (known : letter unit ≠ .other) : unit.toNat < 128 := by
  unfold letter at known
  dsimp only at known
  split_ifs at known
  · omega
  · omega
  · omega
  · exact absurd rfl known

theorem trim_eq_self (none : ∀ unit ∈ value, isSpace unit = false) : trim value = value := by
  have kept : ∀ text : Utf16, (∀ unit ∈ text, isSpace unit = false) →
      text.dropWhile isSpace = text := by
    intro text none
    cases text with
    | nil => rfl
    | cons unit => simp [none unit List.mem_cons_self]
  rw [trim, kept value none, kept _ (fun unit mem => none unit (List.mem_reverse.mp mem)),
    List.reverse_reverse]

theorem not_hasScheme_of_isDnsName (name : isDnsName value = true) : hasScheme value = false := by
  apply decide_eq_false
  intro scheme
  have colon : (0x3A : UInt16) ∈ value := scheme.subset (by decide)
  exact letter_of_isDnsName name _ colon (by decide)

theorem isPeerIdentity_of_isDnsName (url : UrlParser) (name : isDnsName value = true) :
    isPeerIdentity url value = true := by
  have known := letter_of_isDnsName name
  have spaces : ∀ unit ∈ value, isSpace unit = false := by
    have all : ∀ code : Fin 128, isSpace (UInt16.ofNat code) = true →
        letter (UInt16.ofNat code) = .other := by decide
    intro unit mem
    have less := ascii_of_letter (known unit mem)
    rw [← Bool.not_eq_true]
    intro space
    have isOther := all ⟨unit.toNat, less⟩
    rw [UInt16.ofNat_toNat] at isOther
    exact known unit mem (isOther space)
  have some : value.length ≠ 0 := by
    intro none
    rw [List.length_eq_zero_iff.mp none] at name
    exact absurd name (by decide)
  have star : value.contains 0x2A = false := by
    rw [← Bool.not_eq_true, List.contains_iff_mem]
    intro mem
    exact known _ mem (by decide)
  rw [isPeerIdentity, if_neg (by simp [some, trim_eq_self spaces]), star, if_neg (by decide),
    not_hasScheme_of_isDnsName name, if_neg (by decide), name]

theorem isDnsName_of_isPeerIdentity {url : UrlParser} (accepted : isPeerIdentity url value = true)
    (scheme : hasScheme value = false) : isDnsName value = true := by
  unfold isPeerIdentity at accepted
  split_ifs at accepted with _ _ schemed
  · rw [scheme] at schemed
    cases schemed
  · exact accepted

theorem isDnsName_lower (same : value.map asciiLower = other.map asciiLower) :
    isDnsName value = isDnsName other := by
  have each : ∀ unit, letter (asciiLower unit) = letter unit := by
    intro unit
    unfold asciiLower
    split_ifs with upper
    · have sum : (unit + 32).toNat = unit.toNat + 32 := by
        rw [UInt16.toNat_add]
        exact Nat.mod_eq_of_lt (by simp; omega)
      simp only [letter, sum]
      rw [if_pos (by omega), if_pos (by omega)]
    · rfl
  have lengths := congrArg List.length same
  have letters := congrArg (List.map letter) same
  simp only [List.length_map, List.map_map] at lengths letters
  have forget : letter ∘ asciiLower = letter := funext each
  rw [forget] at letters
  simp only [isDnsName, lengths, letters]

theorem ascii_of_latin (latin : ∀ unit ∈ value, unit.toNat < 256)
    (ascii : ∀ unit ∈ other, unit.toNat < 128)
    (same : value.map latinLower = other.map latinLower) :
    value.map asciiLower = other.map asciiLower := by
  have small : ∀ code : Fin 128, latinLower (UInt16.ofNat code) = asciiLower (UInt16.ofNat code) ∧
      (latinLower (UInt16.ofNat code)).toNat < 128 := by decide
  have large : ∀ code : Fin 256, (latinLower (UInt16.ofNat code)).toNat < 128 → code.val < 128 := by
    decide +kernel
  have plain : ∀ unit : UInt16, unit.toNat < 128 →
      latinLower unit = asciiLower unit ∧ (latinLower unit).toNat < 128 := by
    intro unit less
    have own := small ⟨unit.toNat, less⟩
    rwa [UInt16.ofNat_toNat] at own
  induction value generalizing other with
  | nil =>
    cases other with
    | nil => rfl
    | cons => cases same
  | cons unit value ih =>
    cases other with
    | nil => cases same
    | cons first =>
      simp only [List.map_cons, List.cons.injEq] at same ⊢
      have target := plain first (ascii first List.mem_cons_self)
      have own := large ⟨unit.toNat, latin unit List.mem_cons_self⟩
      rw [UInt16.ofNat_toNat, same.1] at own
      have source := plain unit (own target.2)
      refine ⟨by rw [← source.1, ← target.1, same.1], ?_⟩
      exact ih (fun _ mem => latin _ (List.mem_cons_of_mem _ mem))
        (fun _ mem => ascii _ (List.mem_cons_of_mem _ mem)) same.2

end HostNames

/-- The certificate has a name for an entry of an allowlist, of the kind that the entry is of. -/
def Presents (names : List AltName) (entry : Utf16) : Prop :=
  (hasScheme entry = true ∧ ∃ name ∈ names, name.kind = .uri ∧ name.text = entry) ∨
  (isDnsName entry = true ∧ ∃ name ∈ names, name.kind = .dns ∧
    name.text.map asciiLower = entry.map asciiLower)

section Decision

variable {casing} {names : List AltName} {url : UrlParser} {entry : Utf16} {name : AltName}

theorem latin_text (kind : name.kind = .uri ∨ name.kind = .dns) :
    ∀ unit ∈ name.text, unit.toNat < 256 := by
  have latin := name.latin (by rcases kind with kind | kind <;> rw [kind] <;> rfl)
  intro unit mem
  obtain ⟨c, listed, own⟩ := List.mem_flatMap.mp mem
  have less := latin c listed
  rw [ofChar_basic (by omega), List.mem_singleton] at own
  subst own
  exact Nat.lt_of_le_of_lt (Nat.mod_le _ _) less

/-- A match by the text is one by the kind, if each name is of the kind its text looks like. -/
theorem presents_of_isMatch (mem : name ∈ names)
    (kind : name.kind = .uri ∨ name.kind = .dns) (accepted : isPeerIdentity url entry = true)
    (matched : isMatch casing name.text entry = true)
    (own : isPeerIdentity url name.text = true → Presents names name.text) :
    Presents names entry := by
  simp only [isMatch, Bool.or_eq_true, decide_eq_true_eq, Bool.and_eq_true,
    Bool.not_eq_true'] at matched
  rcases matched with same | ⟨⟨scheme, others⟩, lower⟩
  · rw [← same] at accepted ⊢
    exact own accepted
  · have host := isDnsName_of_isPeerIdentity accepted others
    have ascii : ∀ unit ∈ entry, unit.toNat < 128 :=
      fun unit listed => ascii_of_letter (letter_of_isDnsName host unit listed)
    have latin := latin_text kind
    rw [casing.latin _ latin,
      casing.latin _ (fun unit listed => Nat.lt_trans (ascii unit listed) (by decide))] at lower
    have same := ascii_of_latin latin ascii lower
    rcases kind with uri | dns
    · -- a URI with the text of a host name: the certificate has that name as a host name too
      have named : isDnsName name.text = true := by rw [isDnsName_lower same, host]
      rcases own (isPeerIdentity_of_isDnsName url named) with ⟨schemed, _⟩ | ⟨_, other, found⟩
      · rw [scheme] at schemed
        cases schemed
      · exact .inr ⟨host, other, found.1, found.2.1, found.2.2.trans same⟩
    · exact .inr ⟨host, name, mem, dns, same⟩

theorem isAllowed_iff (connection : PeerConnection) {path : Utf16} {policy : PeerPolicy}
    (exempt : isExemptPath path policy.exemptPrefixes = false)
    (wildcard : allowsAnyPeer policy.allowlist = false) :
    (authorizePeer casing connection path policy).isAllowed = true ↔
      connection.encrypted = true ∧ connection.authorized = true ∧
      ∃ identity ∈ peerIdentitiesFrom connection.subjectAltName,
        ∃ entry ∈ policy.allowlist, isMatch casing identity entry = true := by
  unfold authorizePeer
  rw [exempt, wildcard]
  cases connection.encrypted with
  | false => simp [PeerDecision.isAllowed]
  | true =>
    cases connection.authorized with
    | false => simp [PeerDecision.isAllowed]
    | true =>
      cases found : matchPeerIdentity casing (peerIdentitiesFrom connection.subjectAltName)
          policy.allowlist with
      | none =>
        have unmatched := List.find?_eq_none.mp found
        simp only [List.any_eq_true, not_exists, not_and, Bool.not_eq_true] at unmatched
        simpa [found, PeerDecision.isAllowed] using unmatched
      | some identity =>
        have matched := List.find?_some found
        rw [List.any_eq_true] at matched
        simpa [found, PeerDecision.isAllowed] using
          ⟨identity, List.mem_of_find?_eq_some found, matched⟩

/-- Peers are authorised by names of the right kind alone, under every policy, exactly if no URI or
DNS name of the certificate is an identity of the other kind by its text alone. -/
theorem authorized_kind_iff (extension : Option (List AltName)) :
    (∀ (connection : PeerConnection) path (policy : PeerPolicy),
      connection.subjectAltName = extension.map printAltNames →
      isExemptPath path policy.exemptPrefixes = false → allowsAnyPeer policy.allowlist = false →
      (∀ entry ∈ policy.allowlist, isPeerIdentity url entry = true) →
      (authorizePeer casing connection path policy).isAllowed = true →
      connection.encrypted = true ∧ connection.authorized = true ∧
        ∃ entry ∈ policy.allowlist, Presents (extension.getD []) entry) ↔
    ∀ name ∈ extension.getD [], name.kind = .uri ∨ name.kind = .dns →
      isPeerIdentity url name.text = true → Presents (extension.getD []) name.text := by
  constructor
  · intro sound name mem kind accepted
    have star : allowsAnyPeer [name.text] = false := by
      rw [← Bool.not_eq_true]
      intro wildcard
      have same : name.text = ofString "*" := by simpa [allowsAnyPeer] using wildcard
      rw [same, isPeerIdentity, if_neg (by decide), if_pos (by decide)] at accepted
      cases accepted
    have listed : name.text ∈ peerIdentitiesFrom (extension.map printAltNames) := by
      rw [peerIdentitiesFrom_print]
      exact List.mem_map_of_mem (List.mem_filter.mpr ⟨mem, by simpa using kind⟩)
    obtain ⟨_, _, entry, listed, presents⟩ := sound
      ⟨true, true, extension.map printAltNames, none, none⟩ []
      ⟨[name.text], []⟩ rfl rfl star (by simpa using accepted)
      ((isAllowed_iff _ rfl star).mpr ⟨rfl, rfl, name.text, listed, name.text,
        List.mem_singleton_self _, by simp [isMatch]⟩)
    rwa [List.mem_singleton.mp listed] at presents
  · intro kinds connection path policy printed exempt wildcard accepted allowed
    obtain ⟨encrypted, authorized, identity, listed, entry, member, matched⟩ :=
      (isAllowed_iff _ exempt wildcard).mp allowed
    rw [printed, peerIdentitiesFrom_print] at listed
    obtain ⟨name, own, rfl⟩ := List.mem_map.mp listed
    obtain ⟨mem, kind⟩ := List.mem_filter.mp own
    have kind : name.kind = .uri ∨ name.kind = .dns := by simpa using kind
    exact ⟨encrypted, authorized, entry, member,
      presents_of_isMatch mem kind (accepted entry member) matched (kinds name mem kind)⟩

def ordersId : Utf16 := ofString "spiffe://prod/orders"

def ordersUrl : UrlParser := fun value =>
  if value = ordersId then
    some ⟨ofString "spiffe:", ofString "prod", ofString "/orders"⟩
  else none

def ordersAsDns : AltName :=
  ⟨.dns, "spiffe://prod/orders".toList, fun _ => List.forall_iff_forall_mem.mp (by decide)⟩

/-- The peer that has another workload's id as a DNS name is taken for that workload. -/
theorem dns_name_taken_for_uri : (authorizePeer ⟨List.map latinLower, fun _ _ => rfl⟩
      ⟨true, true, some (printAltNames [ordersAsDns]), none, none⟩ (ofString "/v1/users")
      ⟨[ordersId], [ofString "/v1/health"]⟩).isAllowed = true ∧
    isExemptPath (ofString "/v1/users") [ofString "/v1/health"] = false ∧
    isPeerIdentity ordersUrl ordersId = true ∧ ¬ Presents [ordersAsDns] ordersId := by
  refine ⟨by decide +kernel, by decide +kernel, by decide +kernel, ?_⟩
  rintro (⟨_, name, mem, uri, _⟩ | ⟨host, _⟩)
  · rw [List.mem_singleton.mp mem] at uri
    cases uri
  · exact absurd host (by decide +kernel)

end Decision

end NestApi.Mtls
