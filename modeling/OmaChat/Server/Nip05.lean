import OmaChat.Lib.Text
import OmaChat.Server.Service

/-!
# NIP-05 requests

`nip05.rs` of the server answers an HTTP request for a NIP-05 document: it takes the name from the query of the request
target and asks the service.

* `percentDecode`, `queryName` : the name in a request target;
* `nip05Response` : the status and the body of the answer.
-/

namespace OmaChat.Server
open Wire Proto

/-- `u8::from_str_radix(hex, 16)` on two bytes. A plus sign before a single digit is accepted. -/
def hexPair (high low : UInt8) : Option UInt8 :=
  let digit (b : UInt8) := hexValue (Char.ofNat b.toNat)
  if high = 43 then (digit low).map UInt8.ofNat
  else do
    let h ← digit high
    let l ← digit low
    some (UInt8.ofNat (16 * h + l))

/-- The loop of `percent_decode` over the bytes of a query value -/
def percentDecodeBytes : List UInt8 → Option (List UInt8)
  | [] => some []
  | byte :: rest =>
    if byte = 43 then (percentDecodeBytes rest).map (32 :: ·)
    else if byte = 37 then
      match rest with
      | high :: low :: rest => do
        let decoded ← hexPair high low
        (percentDecodeBytes rest).map (decoded :: ·)
      | _ => none
    else (percentDecodeBytes rest).map (byte :: ·)

def percentDecode (value : String) : Option String := (percentDecodeBytes (utf8 value)).bind fromUtf8

/-- One pair of the loop in `query_name` -/
def queryPair (name : Option String) (pair : String) : Option (Option String) :=
  let (key, value) := (splitOnce '=' pair).getD (pair, "")
  if key = "name" then (percentDecode value).map some else some name

def queryName (target : String) : Option String :=
  let (path, query) := (splitOnce '?' target).getD (target, "")
  if path ≠ "/.well-known/nostr.json" then none
  else do
    let name ← if query = "" then some none else (splitText '&' query).foldlM queryPair none
    name

def statusFor (error : ServerError) : Nat :=
  match error.code with
  | .notFound => 404
  | .invalidName | .invalidRequest => 400
  | _ => 500

/-- The body of an answer without a document. -/
def noNames : Json := .object [("names", .object [])]

/-- The status and the body with which `serve` answers a `GET` request, for the answers of the service. -/
def nip05Response (nip05 : String → Except ServerError Json) (target : String) : Nat × Json :=
  match queryName target with
  | none => (400, noNames)
  | some name =>
    match nip05 name with
    | .ok document => (200, document)
    | .error error => (statusFor error, noNames)

section Response
variable {nip05 : String → Except ServerError Json} {target name : String}

theorem nip05Response_of_ok (ht : queryName target = some name) {document : Json} (h : nip05 name = .ok document) :
    nip05Response nip05 target = (200, document) := by
  simp only [nip05Response, ht, h]

theorem nip05Response_of_error (ht : queryName target = some name) {error : ServerError}
    (h : nip05 name = .error error) : nip05Response nip05 target = (statusFor error, noNames) := by
  simp only [nip05Response, ht, h]

end Response

/-! ## Plain values -/

theorem percentDecodeBytes_of_plain {l : List UInt8} (h : ∀ b ∈ l, b ≠ 43 ∧ b ≠ 37) :
    percentDecodeBytes l = some l := by
  induction l with
  | nil => rfl
  | cons b l ih =>
    obtain ⟨hplus, hpct⟩ := h b List.mem_cons_self
    have hrest := ih fun b' hb' => h b' (List.mem_cons_of_mem b hb')
    unfold percentDecodeBytes
    rw [if_neg hplus, if_neg hpct, hrest]
    rfl

theorem percentDecode_of_plain {s : String} (h : ∀ b ∈ utf8 s, b ≠ 43 ∧ b ≠ 37) : percentDecode s = some s := by
  unfold percentDecode
  rw [percentDecodeBytes_of_plain h]
  exact fromUtf8_utf8 s

theorem queryName_of_plain {name : String} (hplain : ∀ b ∈ utf8 name, b ≠ 43 ∧ b ≠ 37) (hamp : '&' ∉ name.toList) :
    queryName ("/.well-known/nostr.json" ++ "?name=" ++ name) = some name := by
  have ht : splitOnce '?' ("/.well-known/nostr.json" ++ "?name=" ++ name) =
      some ("/.well-known/nostr.json", "name=" ++ name) := by
    have hmark : "?name=".toList = '?' :: "name=".toList := rfl
    apply splitOnce_append
    · rw [String.toList_append, String.toList_append, String.toList_append, hmark, List.append_assoc, List.cons_append]
    · decide
  have hpair : splitOnce '=' ("name=" ++ name) = some ("name", name) := by
    apply splitOnce_append
    · rw [String.toList_append]
      rfl
    · decide
  have hpairs : splitText '&' ("name=" ++ name) = ["name=" ++ name] := by
    apply splitText_of_notMem
    rw [String.toList_append, List.mem_append]
    exact not_or.2 ⟨by decide, hamp⟩
  have hquery : "name=" ++ name ≠ "" := by
    intro h
    have htoList := congrArg String.toList h
    rw [String.toList_append] at htoList
    cases htoList
  have hlast : queryPair none ("name=" ++ name) = some (some name) := by
    unfold queryPair
    rw [hpair, Option.getD_some]
    dsimp only
    rw [if_pos rfl, percentDecode_of_plain hplain]
    rfl
  unfold queryName
  rw [ht, Option.getD_some]
  dsimp only
  rw [if_neg (not_not.2 rfl), if_neg hquery, hpairs, List.foldlM_cons, hlast]
  rfl

end OmaChat.Server
