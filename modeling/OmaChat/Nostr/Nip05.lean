import OmaChat.Lib.Json
import OmaChat.Lib.Text

/-!
# The NIP-05 client

`nip05.rs` of the Nostr crate finds the key of a handle `name@domain`: it asks the domain for the document of the name, and
takes the key from the document. Where the `url` crate reads a base URL and the standard library an address is a
`UrlLibrary`; a URL is its origin and the request target, which consists of characters that the crate keeps as they are.

`exact_entry_decides_iff`: the entry of a document whose key is exactly the name decides the key, unless there is one whose key
differs in case.
-/

namespace OmaChat.Nostr
open Wire

/-- `Nip05Error`; the transport's own error is not kept. -/
inductive Nip05Error where
  | invalidHandle
  | notFound
  | malformed
  | fetch
  deriving DecidableEq

structure ResolvedNip05 where
  name : String
  domain : String
  publicKey : Bytes 32

/-! ## Handles -/

def isAsciiAlphanumeric (b : UInt8) : Bool :=
  (48 ≤ b.toNat && b.toNat ≤ 57) || (65 ≤ b.toNat && b.toNat ≤ 90) || (97 ≤ b.toNat && b.toNat ≤ 122)

def isLocalByte (b : UInt8) : Bool := isAsciiAlphanumeric b || b == 95 || b == 45 || b == 46

def isDomainByte (b : UInt8) : Bool := isAsciiAlphanumeric b || b == 45 || b == 46

def parseHandle (handle : String) : Except Nip05Error (String × String) :=
  if 320 < handle.utf8ByteSize ∨ handle.toList.any isWhitespace then .error .invalidHandle
  else
    match splitOnce '@' handle with
    | none => .error .invalidHandle
    | some (name, domain) =>
      if name = "" ∨ domain = "" ∨ '@' ∈ name.toList ∨ '@' ∈ domain.toList ∨ ¬ (utf8 name).all isLocalByte ∨
          ¬ (utf8 domain).all isDomainByte then
        .error .invalidHandle
      else .ok (lower name, lower domain)

/-! ## URLs -/

structure UrlLibrary where
  /-- `domain.parse::<std::net::IpAddr>().is_ok()` -/
  isIpAddr : String → Bool
  /-- The origin of a base URL, if this is plain HTTP to a numeric loopback address without a query and a fragment. -/
  loopbackOrigin : String → Option String

structure DocumentUrl where
  origin : String
  target : String
  deriving DecidableEq

def wellKnownPath : String := "/.well-known/nostr.json"

def validatePublicDomain (urls : UrlLibrary) (domain : String) : Except Nip05Error Unit :=
  if 253 < domain.utf8ByteSize ∨ '.' ∉ domain.toList ∨ domain.toList.head? = some '.' ∨
      domain.toList.getLast? = some '.' ∨ ['.', '.'] <:+: domain.toList ∨ urls.isIpAddr domain then
    .error .invalidHandle
  else .ok ()

def upperHexDigit (n : Nat) : Char := (hexDigit n).toUpper

/-- How a byte stands in a form: letters, digits and a few signs as they are, a space as a plus, and all else escaped. -/
def formByte (b : UInt8) : List Char :=
  if isAsciiAlphanumeric b || b == 42 || b == 45 || b == 46 || b == 95 then [Char.ofNat b.toNat]
  else if b == 32 then ['+']
  else ['%', upperHexDigit (b.toNat / 16), upperHexDigit (b.toNat % 16)]

/-- A value of `query_pairs_mut().append_pair` -/
def formEncode (value : String) : String := String.ofList ((utf8 value).flatMap formByte)

/-- The URL of `resolve_handle`, by `loopback_url` for a loopback base. -/
def documentUrl (urls : UrlLibrary) (loopbackBase : Option String) (name domain : String) :
    Except Nip05Error DocumentUrl :=
  match loopbackBase with
  | some base =>
    match urls.loopbackOrigin base with
    | some origin => .ok ⟨origin, wellKnownPath ++ "?name=" ++ formEncode name⟩
    | none => .error .invalidHandle
  | none => do
    validatePublicDomain urls domain
    .ok ⟨"https://" ++ domain, wellKnownPath ++ "?name=" ++ name⟩

/-! ## Documents -/

def eqIgnoreAsciiCase (a b : String) : Bool := lower a == lower b

def isAsciiHexDigit (b : UInt8) : Bool :=
  (48 ≤ b.toNat && b.toNat ≤ 57) || (65 ≤ b.toNat && b.toNat ≤ 70) || (97 ≤ b.toNat && b.toNat ≤ 102)

/-- `public_key_from_document`, for the JSON parser and the check of a key by `VerifyingKey::from_bytes`. -/
def publicKeyFromDocument (fromSlice : List UInt8 → Option Json) (keyValid : Bytes 32 → Bool) (body : List UInt8)
    (name : String) : Except Nip05Error (Bytes 32) :=
  match fromSlice body with
  | none => .error .malformed
  | some document =>
    match document.field "names" with
    | some (.obj names) =>
      match (names.find? fun entry => eqIgnoreAsciiCase entry.1 name).map Prod.snd with
      | some (.str encoded) =>
        if encoded.utf8ByteSize ≠ 64 ∨ ¬ (utf8 encoded).all isAsciiHexDigit then .error .malformed
        else
          match (hexDecode encoded).bind (Bytes.ofList? 32) with
          | some publicKey => if keyValid publicKey then .ok publicKey else .error .malformed
          | none => .error .malformed
      | _ => .error .notFound
    | _ => .error .malformed

/-- `resolve_handle`, for what a URL is answered with: the body of a response that is whole, with status 200 and not too
large. -/
def resolveHandle (urls : UrlLibrary) (fromSlice : List UInt8 → Option Json) (keyValid : Bytes 32 → Bool)
    (fetch : DocumentUrl → Option (List UInt8)) (handle : String) (loopbackBase : Option String) :
    Except Nip05Error ResolvedNip05 := do
  let (name, domain) ← parseHandle handle
  let url ← documentUrl urls loopbackBase name domain
  match fetch url with
  | none => .error .fetch
  | some body => do
    let publicKey ← publicKeyFromDocument fromSlice keyValid body name
    .ok ⟨name, domain, publicKey⟩

variable {domain handle name : String} {fromSlice : List UInt8 → Option Json} {keyValid : Bytes 32 → Bool}

theorem resolveHandle_eq {urls : UrlLibrary} {fetch : DocumentUrl → Option (List UInt8)} {loopbackBase : Option String}
    {url : DocumentUrl} (hp : parseHandle handle = .ok (name, domain))
    (hurl : documentUrl urls loopbackBase name domain = .ok url) :
    resolveHandle urls fromSlice keyValid fetch handle loopbackBase =
      match fetch url with
      | none => .error .fetch
      | some body => (publicKeyFromDocument fromSlice keyValid body name).map fun key => ⟨name, domain, key⟩ := by
  unfold resolveHandle
  rw [hp]
  show (documentUrl urls loopbackBase name domain >>= _) = _
  rw [hurl]
  show (match fetch url with | none => _ | some body => _) = _
  cases fetch url with
  | none => rfl
  | some body =>
    dsimp only
    cases publicKeyFromDocument fromSlice keyValid body name <;> rfl

theorem keyValid_of_publicKeyFromDocument {body : List UInt8} {key : Bytes 32}
    (h : publicKeyFromDocument fromSlice keyValid body name = .ok key) : keyValid key = true := by
  unfold publicKeyFromDocument at h
  repeat' split at h
  all_goals cases h
  assumption

/-! ## Entries -/

/-- What `public_key_from_document` makes of the entry that it finds. -/
def keyFromEntry (keyValid : Bytes 32 → Bool) : Json → Except Nip05Error (Bytes 32)
  | .str encoded =>
    if encoded.utf8ByteSize ≠ 64 ∨ ¬ (utf8 encoded).all isAsciiHexDigit then .error .malformed
    else
      match (hexDecode encoded).bind (Bytes.ofList? 32) with
      | some publicKey => if keyValid publicKey then .ok publicKey else .error .malformed
      | none => .error .malformed
  | _ => .error .notFound

section Entries
variable {fromSlice : List UInt8 → Option Json} {keyValid : Bytes 32 → Bool} {body : List UInt8} {name : String}
  {document : Json} {names : List (String × Json)}

theorem publicKeyFromDocument_of_found {entry : String × Json} (hp : fromSlice body = some document)
    (hnames : document.field "names" = some (.obj names))
    (hfound : names.find? (fun entry => eqIgnoreAsciiCase entry.1 name) = some entry) :
    publicKeyFromDocument fromSlice keyValid body name = keyFromEntry keyValid entry.2 := by
  unfold publicKeyFromDocument
  rw [hp]
  dsimp only
  rw [hnames]
  dsimp only
  rw [hfound, Option.map_some]
  rcases entry with ⟨key, value⟩
  cases value <;> rfl

/-- In an object with its keys in order, the first one that matches a name. -/
structure FirstMatch (names : List (String × Json)) (name : String) (entry : String × Json) : Prop where
  mem : entry ∈ names
  matched : eqIgnoreAsciiCase entry.1 name = true
  least : ∀ other ∈ names, eqIgnoreAsciiCase other.1 name = true → ¬ other.1 < entry.1

section Sorted
variable (hsorted : names.Pairwise fun a b => a.1 < b.1) {entry other : String × Json}
include hsorted

theorem firstMatch_of_find? (hfound : names.find? (fun entry => eqIgnoreAsciiCase entry.1 name) = some entry) :
    FirstMatch names name entry := by
  obtain ⟨hmatched, before, after, rfl, hb⟩ := List.find?_eq_some_iff_append.1 hfound
  refine ⟨by simp, hmatched, fun other ho hmatch => ?_⟩
  rcases List.mem_append.1 ho with ho | ho
  · have hnot := hb other ho
    rw [hmatch] at hnot
    cases hnot
  · rcases List.mem_cons.1 ho with rfl | ho
    · exact String.lt_irrefl _
    · exact String.lt_asymm ((List.pairwise_cons.1 (List.pairwise_append.1 hsorted).2.1).1 other ho)

theorem entry_eq_of_key_eq (he : entry ∈ names) (ho : other ∈ names) (h : entry.1 = other.1) : entry = other := by
  have hnd : (names.map Prod.fst).Nodup := by
    rw [List.Nodup, List.pairwise_map]
    refine hsorted.imp fun {a b} hlt heq => ?_
    rw [heq] at hlt
    exact String.lt_irrefl _ hlt
  exact List.inj_on_of_nodup_map hnd he ho h

theorem FirstMatch.unique (he : FirstMatch names name entry) (ho : FirstMatch names name other) : entry = other := by
  refine entry_eq_of_key_eq hsorted he.mem ho.mem ?_
  apply String.le_antisymm
  · exact he.least other ho.mem ho.matched
  · exact ho.least entry he.mem he.matched

/-- **An exact entry** decides the key of a name, unless there is a key that differs in case. Such keys come before it, and
then the first of them decides. -/
theorem exact_entry_decides_iff {value : Json} (hparse : fromSlice body = some document)
    (hnames : document.field "names" = some (.obj names)) (hlower : lower name = name) (hentry : (name, value) ∈ names) :
    publicKeyFromDocument fromSlice keyValid body name = keyFromEntry keyValid value ↔
      ∀ entry, FirstMatch names name entry → entry.1 < name →
        keyFromEntry keyValid entry.2 = keyFromEntry keyValid value := by
  have hself : eqIgnoreAsciiCase name name = true := by simp [eqIgnoreAsciiCase]
  obtain ⟨found, hfound⟩ : ∃ found, names.find? (fun entry => eqIgnoreAsciiCase entry.1 name) = some found := by
    rw [← Option.isSome_iff_exists, List.find?_isSome]
    exact ⟨_, hentry, hself⟩
  have hfirst := firstMatch_of_find? hsorted hfound
  rw [publicKeyFromDocument_of_found hparse hnames hfound]
  constructor
  · intro heq entry hmatch _
    rw [hmatch.unique hsorted hfirst, heq]
  · intro hall
    by_cases hname : found.1 = name
    · rw [entry_eq_of_key_eq hsorted hfirst.mem hentry hname]
    · have hlowered : lower found.1 = name := by
        have hmatched := hfirst.matched
        rwa [eqIgnoreAsciiCase, beq_iff_eq, hlower] at hmatched
      have hlt := lt_lower fun h => hname (h.symm.trans hlowered)
      rw [hlowered] at hlt
      exact hall found hfirst hlt

end Sorted

end Entries

def firstKeyText : String := "79be667ef9dcbbac55a06295ce870b07029bfcdb2dce28d959f2815b16f81798"

def secondKeyText : String := "c6047f9441ed7d6d3045406e95c07cd85c778e4b8cef3ca7abac09b95c709ee5"

def knownKey (key : Bytes 32) : Bool := hexEncode key.val == firstKeyText || hexEncode key.val == secondKeyText

def namesDocument (names : List (String × Json)) : Json := .obj [("names", .obj names)]

def parseNames (names : List (String × Json)) (body : List UInt8) : Option Json :=
  if body = utf8 (namesDocument names).render then some (namesDocument names) else none

theorem parseNames_render (names : List (String × Json)) :
    parseNames names (utf8 (namesDocument names).render) = some (namesDocument names) := if_pos rfl

theorem field_namesDocument (names : List (String × Json)) : (namesDocument names).field "names" = some (.obj names) := rfl

/-- A document with the name and another one. -/
theorem exact_entry_decides_alice :
    publicKeyFromDocument (parseNames [("alice", .str secondKeyText), ("bob", .str firstKeyText)]) knownKey
        (utf8 (namesDocument [("alice", .str secondKeyText), ("bob", .str firstKeyText)]).render) "alice" =
      keyFromEntry knownKey (.str secondKeyText) := by
  refine (exact_entry_decides_iff ?_ (parseNames_render _) (field_namesDocument _) ?_ List.mem_cons_self).2 ?_
  · simp only [List.pairwise_cons, List.mem_singleton, forall_eq, List.not_mem_nil, false_implies, implies_true,
      List.Pairwise.nil, and_true]
    decide
  · rw [lower_eq]
    decide +kernel
  · intro entry hfirst hlt
    rcases List.mem_cons.1 hfirst.mem with rfl | hmem
    · rfl
    · have hmatched := hfirst.matched
      rw [List.mem_singleton.1 hmem, eqIgnoreAsciiCase, lower_eq, lower_eq] at hmatched
      exact absurd hmatched (by decide +kernel)

/-- The same name in capitals comes first. -/
theorem capital_entry_decides :
    (publicKeyFromDocument (parseNames [("Alice", .str firstKeyText), ("alice", .str secondKeyText)]) knownKey
        (utf8 (namesDocument [("Alice", .str firstKeyText), ("alice", .str secondKeyText)]).render) "alice").toOption.map
          (fun key => hexEncode key.val) = some firstKeyText ∧
      (keyFromEntry knownKey (.str secondKeyText)).toOption.map (fun key => hexEncode key.val) = some secondKeyText := by
  have hmatched : eqIgnoreAsciiCase "Alice" "alice" = true := by
    rw [eqIgnoreAsciiCase, lower_eq, lower_eq]
    decide +kernel
  have hfound : [("Alice", Json.str firstKeyText), ("alice", .str secondKeyText)].find?
      (fun entry => eqIgnoreAsciiCase entry.1 "alice") = some ("Alice", .str firstKeyText) := by
    simp [hmatched]
  rw [publicKeyFromDocument_of_found (parseNames_render _) (field_namesDocument _) hfound]
  decide +kernel

/-! ## Names -/

/-- A name of the grammar in lower case: what `parse_handle` returns. -/
structure IsName (name : String) : Prop where
  nonempty : name ≠ ""
  lower_eq : lower name = name
  chars : ∀ c ∈ name.toList, c.toNat < 128 ∧ isLocalByte (UInt8.ofNat c.toNat) = true

theorem lt_of_isLocalByte {b : UInt8} (h : isLocalByte b = true) : b.toNat < 128 := by
  simp only [isLocalByte, isAsciiAlphanumeric, Bool.or_eq_true, Bool.and_eq_true, decide_eq_true_eq, beq_iff_eq] at h
  rcases h with ((((h | h) | h) | rfl) | rfl) | rfl
  any_goals omega
  all_goals decide

theorem toLower_isLocalByte {c : Char} (hc : c.toNat < 128) (h : isLocalByte (UInt8.ofNat c.toNat) = true) :
    c.toLower.toNat < 128 ∧ isLocalByte (UInt8.ofNat c.toLower.toNat) = true := by
  have hall : ∀ n < 128, isLocalByte (UInt8.ofNat n) = true →
      (Char.ofNat n).toLower.toNat < 128 ∧ isLocalByte (UInt8.ofNat (Char.ofNat n).toLower.toNat) = true := by
    decide +kernel
  have hn := hall c.toNat hc h
  rwa [Char.ofNat_toNat] at hn

theorem isName_of_parseHandle (h : parseHandle handle = .ok (name, domain)) : IsName name := by
  unfold parseHandle at h
  split_ifs at h with hlen
  split at h
  · cases h
  · next written rest hsplit =>
      split_ifs at h with hbad
      cases h
      simp only [not_or, not_not] at hbad
      obtain ⟨hname, -, -, -, hb, -⟩ := hbad
      have hchars := (all_utf8_iff (fun _ => lt_of_isLocalByte) written).1 hb
      refine ⟨?_, lower_lower written, ?_⟩
      · intro hempty
        apply hname
        apply String.toList_injective
        have hlist := congrArg String.toList hempty
        rw [lower, String.toList_map] at hlist
        exact List.map_eq_nil_iff.1 hlist
      · intro c hc
        obtain ⟨d, hd, rfl⟩ := mem_lower hc
        obtain ⟨hascii, hloc⟩ := hchars d hd
        exact toLower_isLocalByte hascii hloc

theorem IsName.formEncode_eq (h : IsName name) : formEncode name = name := by
  have hform : ∀ n < 128, isLocalByte (UInt8.ofNat n) = true → formByte (UInt8.ofNat n) = [Char.ofNat n] := by
    decide +kernel
  have hchars := h.chars
  unfold formEncode
  rw [utf8_of_ascii fun c hc => (hchars c hc).1, List.flatMap_map]
  apply String.toList_injective
  rw [String.toList_ofList]
  generalize name.toList = l at hchars ⊢
  induction l with
  | nil => rfl
  | cons c l ih =>
    obtain ⟨hascii, hloc⟩ := hchars c List.mem_cons_self
    rw [List.flatMap_cons, hform c.toNat hascii hloc, Char.ofNat_toNat, ih fun d hd => hchars d (List.mem_cons_of_mem c hd)]
    rfl

end OmaChat.Nostr
