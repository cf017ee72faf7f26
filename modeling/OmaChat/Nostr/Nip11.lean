import OmaChat.Lib.Words
import OmaChat.Nostr.Nip05

/-!
# The HTTP responses of remote servers

`nip11.rs` reads the response to a request for a document: it looks for the end of the head, reads the framing from the
headers, and takes the body from what follows. The bytes come from a server that nobody vouches for, and the program is
built without overflow checks and aborts when it panics.

* `ReadsSize body size` : the decoder of a chunked body comes to a chunk of the given size;
* `decodeFrom_safe_iff` : the decoder overflows or panics exactly if it comes to a size within two of the machine word;
* `tryComplete_safe_iff` : so does the parser of the whole response, and only when the response is chunked.
-/

namespace OmaChat.Nostr
open Wire Words
open Compute (add_eq pure_bind' safe_pure)

variable {body rest : Octets} {size : Nat}

/-- The errors of `RelayInformationError` that the parser returns. -/
inductive RelayInformationError where
  | malformedResponse
  | responseTooLarge
  | httpStatus (status : Nat)
  deriving DecidableEq

/-- The limit of `RelayInformationLimits` that the parser reads. -/
structure RelayInformationLimits where
  maxDocumentBytes : Nat

def maxHeaderBytes : Nat := 16 * 1024

def crlf : List UInt8 := [13, 10]

@[reducible] def Parse (α : Type) : Type := Compute RelayInformationError α

/-! ## Chunks -/

/-- `usize::from_str_radix` of the size in a chunk's first line -/
def chunkSize (line : String) : Option Nat := parseUnsigned 16 (2 ^ 64) (trim ((splitText ';' line).headD ""))

/-- One round of the loop in `decode_chunked`. -/
inductive Chunk where
  | incomplete
  | last
  | data (bytes rest : Octets)
  deriving DecidableEq

/-- A round of the loop once it has the size, on the bytes after the line. -/
def readData (size : Nat) (body : Octets) : Parse Chunk :=
  if size = 0 then pure .last
  else do
    let needed ← .add size 2
    if body.length < needed then pure .incomplete
    else do
      let bytes ← body.upto size
      let mark ← body.range size (← .add size 2)
      if mark.val ≠ crlf then .throw .malformedResponse
      else do
        let rest ← body.since (← .add size 2)
        pure (.data bytes rest)

def readChunk (body : Octets) : Parse Chunk :=
  match body.find crlf with
  | none => pure .incomplete
  | some lineEnd => do
    let line ← body.upto lineEnd
    let sizeLine ← .ofOption .malformedResponse (fromUtf8 line.val)
    let size ← .ofOption .malformedResponse (chunkSize sizeLine)
    let body ← body.since (← .add lineEnd 2)
    readData size body

/-- The first line of a chunk: the size and the bytes after the line. -/
def sizeLine (body : Octets) : Option (Nat × Octets) := do
  let lineEnd ← body.find crlf
  let line ← fromUtf8 (body.take lineEnd).val
  let size ← chunkSize line
  return (size, body.drop (lineEnd + 2))

section Round
theorem sizeLine_eq_some (h : sizeLine body = some (size, rest)) :
    ∃ lineEnd line, body.find crlf = some lineEnd ∧ fromUtf8 (body.take lineEnd).val = some line ∧
      chunkSize line = some size ∧ rest = body.drop (lineEnd + 2) ∧ lineEnd + 2 ≤ body.length := by
  unfold sizeLine at h
  simp only [Option.bind_eq_bind, Option.bind_eq_some_iff, Option.pure_def, Option.some.injEq, Prod.mk.injEq] at h
  obtain ⟨lineEnd, hfind, line, hline, n, hsize, rfl, rfl⟩ := h
  exact ⟨lineEnd, line, hfind, hline, hsize, rfl, Octets.find_le hfind⟩

theorem readChunk_of_size (h : sizeLine body = some (size, rest)) : readChunk body = readData size rest := by
  obtain ⟨lineEnd, line, hfind, hline, hsize, rfl, hle⟩ := sizeLine_eq_some h
  have hlen := body.length_lt
  unfold readChunk
  rw [hfind]
  dsimp only
  rw [Octets.upto_eq (by omega), pure_bind', hline, Compute.ofOption, pure_bind', hsize,
    Compute.ofOption, pure_bind', add_eq (by omega), pure_bind', Octets.since_eq hle,
    pure_bind']

theorem readChunk_of_no_line (h : body.find crlf = none) : readChunk body = pure .incomplete := by
  unfold readChunk
  rw [h]

theorem readChunk_of_bad_line {lineEnd : Nat} (hfind : body.find crlf = some lineEnd) (h : sizeLine body = none) :
    readChunk body = .throw .malformedResponse := by
  have hle := Octets.find_le hfind
  unfold sizeLine at h
  unfold readChunk
  rw [hfind]
  dsimp only
  rw [Octets.upto_eq (by omega), pure_bind']
  cases hline : fromUtf8 (body.take lineEnd).val with
  | none => rfl
  | some line =>
    cases hsize : chunkSize line with
    | none =>
      rw [Compute.ofOption, pure_bind', hsize]
      rfl
    | some size => simp [hfind, hline, hsize] at h

theorem readChunk_of_none (h : sizeLine body = none) :
    readChunk body = pure .incomplete ∨ readChunk body = .throw .malformedResponse := by
  cases hfind : body.find crlf with
  | none => exact .inl (readChunk_of_no_line hfind)
  | some lineEnd => exact .inr (readChunk_of_bad_line hfind h)

theorem readData_of_fits (hfits : size + 2 < 2 ^ 64) :
    readData size body =
      if size = 0 then pure .last
      else if body.length < size + 2 then pure .incomplete
      else if ((body.drop size).take 2).val ≠ crlf then .throw .malformedResponse
      else pure (.data (body.take size) (body.drop (size + 2))) := by
  unfold readData
  by_cases hzero : size = 0
  · rw [if_pos hzero, if_pos hzero]
  rw [if_neg hzero, if_neg hzero, add_eq hfits, pure_bind']
  by_cases hshort : body.length < size + 2
  · rw [if_pos hshort, if_pos hshort]
  rw [if_neg hshort, if_neg hshort, Octets.upto_eq (by omega), pure_bind', pure_bind',
    Octets.range_eq (by omega) (by omega), pure_bind', pure_bind', Octets.since_eq (by omega),
    pure_bind', Nat.add_sub_cancel_left]

theorem readData_of_large (hlarge : ¬ size + 2 < 2 ^ 64) : ¬ (readData size body).Safe := by
  unfold readData
  rw [if_neg (by omega)]
  exact Compute.not_safe_add_bind (by omega) _

variable {bytes : Octets}

theorem result_readData_of_large (hlarge : ¬ size + 2 < 2 ^ 64) : (readData size body).result ≠ .ok (.data bytes rest) := by
  have hlen := body.length_lt
  unfold readData
  rw [if_neg (by omega), ne_eq, Compute.result_bind_eq_ok]
  rintro ⟨needed, -, hround⟩
  split at hround
  · cases hround
  · rw [Octets.upto, if_neg (by omega)] at hround
    cases hround

theorem readChunk_shorter (h : (readChunk body).result = .ok (.data bytes rest)) : rest.length < body.length := by
  cases hline : sizeLine body with
  | none => rcases readChunk_of_none hline with hround | hround <;> rw [hround] at h <;> cases h
  | some found =>
    obtain ⟨size, after⟩ := found
    obtain ⟨lineEnd, line, -, -, -, ha, hle⟩ := sizeLine_eq_some hline
    have hlen : after.length = body.length - (lineEnd + 2) := by rw [ha, Octets.length_drop]
    rw [readChunk_of_size hline] at h
    by_cases hfits : size + 2 < 2 ^ 64
    · rw [readData_of_fits hfits] at h
      split_ifs at h <;> try cases h
      rw [Octets.length_drop]
      omega
    · exact absurd h (result_readData_of_large hfits)

end Round

/-- The loop of `decode_chunked` -/
def decodeFrom (body : Octets) (decoded : List UInt8) : Parse (Option (List UInt8)) :=
  match _h : readChunk body with
  | ⟨overflowed, .ok .incomplete⟩ => ⟨overflowed, .ok none⟩
  | ⟨overflowed, .ok .last⟩ => ⟨overflowed, .ok (some decoded)⟩
  | ⟨overflowed, .ok (.data bytes rest)⟩ =>
    let next := decodeFrom rest (decoded ++ bytes.val)
    ⟨overflowed || next.overflowed, next.result⟩
  | ⟨overflowed, .error e⟩ => ⟨overflowed, .error e⟩
  | ⟨overflowed, .panic⟩ => ⟨overflowed, .panic⟩
termination_by body.length
decreasing_by exact readChunk_shorter (congrArg Compute.result _h)

def decodeChunked (body : Octets) : Parse (Option (List UInt8)) := decodeFrom body []

theorem decodeFrom_eq (body : Octets) (decoded : List UInt8) :
    decodeFrom body decoded = (do
      match ← readChunk body with
      | .incomplete => pure none
      | .last => pure (some decoded)
      | .data bytes rest => decodeFrom rest (decoded ++ bytes.val)) := by
  rw [decodeFrom]
  show _ = Compute.bind _ _
  split
  all_goals
    next h =>
      rw [h]
      simp [Compute.bind, pure]

inductive ReadsSize : Octets → Nat → Prop where
  | here {body rest : Octets} {size : Nat} : sizeLine body = some (size, rest) → ReadsSize body size
  | later {body rest : Octets} {first size : Nat} : sizeLine body = some (first, rest) → first ≠ 0 →
      first + 2 ≤ rest.length → ((rest.drop first).take 2).val = crlf → ReadsSize (rest.drop (first + 2)) size →
      ReadsSize body size

/-- Every size that the loop comes to leaves room for the two bytes after the data. -/
def SizesFit (body : Octets) : Prop := ∀ size, ReadsSize body size → size + 2 < 2 ^ 64

theorem sizesFit_of_none (h : sizeLine body = none) : SizesFit body := by
  rintro size (hhere | ⟨hl, -⟩)
  · rw [h] at hhere
    cases hhere
  · rw [h] at hl
    cases hl

theorem sizesFit_iff (h : sizeLine body = some (size, rest)) :
    SizesFit body ↔ size + 2 < 2 ^ 64 ∧ (size ≠ 0 → size + 2 ≤ rest.length →
      ((rest.drop size).take 2).val = crlf → SizesFit (rest.drop (size + 2))) := by
  constructor
  · intro hfit
    refine ⟨hfit _ (.here h), ?_⟩
    intro hne hle hmark later hl
    exact hfit _ (.later h hne hle hmark hl)
  · rintro ⟨hf, hrest⟩ later (hhere | ⟨hl, hne, hle, hmark, hreads⟩)
    · rw [h] at hhere
      cases hhere
      exact hf
    · rw [h] at hl
      cases hl
      exact hrest hne hle hmark later hreads

/-- **The decoder** overflows or panics exactly if it comes to a size within two of the machine word. -/
theorem decodeFrom_safe_iff (body : Octets) (decoded : List UInt8) : (decodeFrom body decoded).Safe ↔ SizesFit body := by
  -- the loop is entered again with a shorter body
  induction hn : body.length using Nat.strong_induction_on generalizing body decoded with
  | _ n ih =>
    subst hn
    rw [decodeFrom_eq]
    cases hline : sizeLine body with
    | none =>
      refine iff_of_true ?_ (sizesFit_of_none hline)
      rcases readChunk_of_none hline with hround | hround <;> rw [hround]
      · rw [pure_bind']
        exact safe_pure none
      · rw [Compute.throw_bind]
        exact Compute.safe_throw _
    | some found =>
      obtain ⟨size, rest⟩ := found
      rw [sizesFit_iff hline]
      by_cases hfits : size + 2 < 2 ^ 64
      · have hshorter := @readChunk_shorter body
        rw [readChunk_of_size hline, readData_of_fits hfits] at hshorter ⊢
        rw [and_iff_right hfits]
        split_ifs at hshorter ⊢ with hzero hshort hmark
        · simp [hzero]
        · simp [hshort]
        · simp [hmark]
        · rw [pure_bind', ih _ (hshorter rfl) _ _ rfl]
          simp [hzero, Nat.le_of_not_lt hshort, not_not.1 hmark]
      · refine iff_of_false ?_ fun hfit => hfits hfit.1
        rw [Compute.safe_bind, readChunk_of_size hline]
        exact fun hsafe => readData_of_large hfits hsafe.1

/-! ## The response -/

/-- The framing of a body: the last `Content-Length`, and whether the body is chunked. -/
structure Framing where
  contentLength : Option Nat
  chunked : Bool
  deriving DecidableEq

/-- The loop of `try_complete` over the headers -/
def parseHeaders : List String → Framing → Except RelayInformationError Framing
  | [], framing => .ok framing
  | line :: lines, framing =>
    match splitOnce ':' line with
    | none => .error .malformedResponse
    | some (name, rawValue) =>
      let value := trim rawValue
      if eqIgnoreAsciiCase name "content-length" then
        match parseUnsigned 10 (2 ^ 64) value with
        | none => .error .malformedResponse
        | some length => parseHeaders lines { framing with contentLength := some length }
      else if eqIgnoreAsciiCase name "transfer-encoding" ∧ containsText "chunked" (lower value) then
        parseHeaders lines { framing with chunked := true }
      else parseHeaders lines framing

/-- The head of a response: its status and the framing of its body. -/
def parseHead (head : String) : Except RelayInformationError (Nat × Framing) :=
  match splitLines head with
  | [] => .error .malformedResponse
  | statusLine :: lines =>
    let parts := splitN ' ' 3 statusLine
    if parts.headD "" ≠ "HTTP/1.1" ∧ parts.headD "" ≠ "HTTP/1.0" then .error .malformedResponse
    else
      match parts[1]?.bind (parseUnsigned 10 (2 ^ 16)) with
      | none => .error .malformedResponse
      | some status => (parseHeaders lines ⟨none, false⟩).map fun framing => (status, framing)

def takeBody (framing : Framing) (eof : Bool) (body : Octets) : Parse (Option (List UInt8)) :=
  if framing.chunked then decodeChunked body
  else
    match framing.contentLength with
    | some length =>
      if body.length < length then pure none
      else do
        let bytes ← body.upto length
        pure (some bytes.val)
    | none => if eof then pure (some body.val) else pure none

def crlfCrlf : List UInt8 := [13, 10, 13, 10]

def tryComplete (buffer : Octets) (eof : Bool) (limits : RelayInformationLimits) : Parse (Option (List UInt8)) :=
  match buffer.find crlfCrlf with
  | none => if maxHeaderBytes < buffer.length then .throw .responseTooLarge else pure none
  | some split => do
    let headBytes ← buffer.upto split
    let head ← .ofOption .malformedResponse (fromUtf8 headBytes.val)
    let (status, framing) ← .ofExcept (parseHead head)
    let body ← buffer.since (← .add split 4)
    match ← takeBody framing eof body with
    | none => pure none
    | some body =>
      if status ≠ 200 then .throw (.httpStatus status)
      else if limits.maxDocumentBytes < body.length then .throw .responseTooLarge
      else pure (some body)

def chunkedBody (buffer : Octets) : Option Octets := do
  let split ← buffer.find crlfCrlf
  let head ← fromUtf8 (buffer.take split).val
  match parseHead head with
  | .ok (_, framing) => if framing.chunked then some (buffer.drop (split + 4)) else none
  | .error _ => none

theorem takeBody_safe_iff (framing : Framing) (eof : Bool) (body : Octets) :
    (takeBody framing eof body).Safe ↔ (framing.chunked = true → SizesFit body) := by
  unfold takeBody
  by_cases hchk : framing.chunked = true
  · rw [if_pos hchk, decodeChunked, decodeFrom_safe_iff]
    simp [hchk]
  · rw [if_neg hchk]
    refine iff_of_true ?_ fun h => absurd h hchk
    cases framing.contentLength with
    | none => cases eof <;> exact safe_pure _
    | some length =>
      dsimp only
      split
      · exact safe_pure none
      · rw [Octets.upto_eq (by omega), pure_bind']
        exact safe_pure _

/-- **The parser of responses.** It overflows or panics exactly if the response is chunked and the decoder of its body comes
to a size within two of the machine word. -/
theorem tryComplete_safe_iff (buffer : Octets) (eof : Bool) (limits : RelayInformationLimits) :
    (tryComplete buffer eof limits).Safe ↔ ∀ body, chunkedBody buffer = some body → SizesFit body := by
  unfold tryComplete chunkedBody
  cases hsplit : buffer.find crlfCrlf with
  | none =>
    refine iff_of_true ?_ (by simp)
    dsimp only
    split <;> simp
  | some split =>
    have hle : split + 4 ≤ buffer.length := Octets.find_le hsplit
    have hlen := buffer.length_lt
    dsimp only
    rw [Octets.upto_eq (by omega), pure_bind', Option.bind_eq_bind, Option.bind_some]
    cases hhead : fromUtf8 (buffer.take split).val with
    | none => exact iff_of_true (by simp [Compute.ofOption]) (by simp)
    | some head =>
      rw [Compute.ofOption, pure_bind', Option.bind_eq_bind, Option.bind_some]
      cases hparsed : parseHead head with
      | error e => exact iff_of_true (by simp [Compute.ofExcept]) (by simp)
      | ok found =>
        obtain ⟨status, framing⟩ := found
        rw [Compute.ofExcept, pure_bind']
        dsimp only
        rw [add_eq (by omega), pure_bind', Octets.since_eq hle, pure_bind', Compute.safe_bind_iff_left, takeBody_safe_iff]
        · by_cases hchk : framing.chunked = true <;> simp [hchk]
        · intro body
          cases body with
          | none => exact safe_pure none
          | some body =>
            dsimp only
            split_ifs <;> simp

/-- **The parser never crashes** on a response without such a size, and neither does the decoder; with one they do. -/
theorem response_parser_safe_iff (bytes : Octets) (eof : Bool) (limits : RelayInformationLimits) :
    ((tryComplete bytes eof limits).Safe ↔ ∀ body, chunkedBody bytes = some body → SizesFit body) ∧
      ((decodeChunked bytes).Safe ↔ SizesFit bytes) :=
  ⟨tryComplete_safe_iff bytes eof limits, decodeFrom_safe_iff bytes []⟩

/-- The head of a chunked response, and a chunk of `2 ^ 64 - 2` bytes of which nothing has arrived. -/
def hugeChunk : Octets where
  val := utf8 "HTTP/1.1 200 OK\r\nTransfer-Encoding: chunked\r\n\r\nfffffffffffffffe\r\n"
  property := by decide +kernel

theorem decodeChunked_hugeChunk : decodeChunked (hugeChunk.drop 47) = ⟨true, .panic⟩ := by
  have hround : readChunk (hugeChunk.drop 47) = ⟨true, .panic⟩ := by decide +kernel
  rw [decodeChunked, decodeFrom_eq, hround]
  rfl

theorem transferEncoding_ne_length : eqIgnoreAsciiCase "Transfer-Encoding" "content-length" = false := by
  rw [eqIgnoreAsciiCase, lower_eq, lower_eq]
  decide +kernel

theorem parseHead_hugeChunk : parseHead "HTTP/1.1 200 OK\r\nTransfer-Encoding: chunked" = .ok (200, ⟨none, true⟩) := by
  have hlines : splitLines "HTTP/1.1 200 OK\r\nTransfer-Encoding: chunked" =
      ["HTTP/1.1 200 OK", "Transfer-Encoding: chunked"] := by decide +kernel
  have hparts : splitN ' ' 3 "HTTP/1.1 200 OK" = ["HTTP/1.1", "200", "OK"] := by decide +kernel
  have hstat : parseUnsigned 10 (2 ^ 16) "200" = some 200 := by decide +kernel
  have hheader : splitOnce ':' "Transfer-Encoding: chunked" = some ("Transfer-Encoding", " chunked") := by decide +kernel
  have hv : trim " chunked" = "chunked" := by decide +kernel
  have hcoding : eqIgnoreAsciiCase "Transfer-Encoding" "transfer-encoding" = true := by
    rw [eqIgnoreAsciiCase, lower_eq, lower_eq]
    decide +kernel
  unfold parseHead
  rw [hlines]
  dsimp only
  rw [hparts, if_neg (by decide +kernel)]
  simp only [List.getElem?_cons_succ, List.getElem?_cons_zero, Option.bind_some, hstat]
  unfold parseHeaders
  rw [hheader]
  dsimp only
  rw [hv, transferEncoding_ne_length, hcoding, lower_eq]
  simp only [Bool.false_eq_true, if_false, true_and]
  rw [if_pos (by decide +kernel)]
  rfl

theorem response_parser_panics :
    tryComplete hugeChunk false ⟨64 * 1024⟩ = ⟨true, .panic⟩ ∧
      decodeChunked (hugeChunk.drop 47) = ⟨true, .panic⟩ := by
  refine ⟨?_, decodeChunked_hugeChunk⟩
  have hsplit : hugeChunk.find crlfCrlf = some 43 := by decide +kernel
  have hhead : fromUtf8 (hugeChunk.take 43).val = some "HTTP/1.1 200 OK\r\nTransfer-Encoding: chunked" := by decide +kernel
  unfold tryComplete
  rw [hsplit]
  dsimp only
  rw [Octets.upto_eq (by decide +kernel), pure_bind', hhead, Compute.ofOption, pure_bind',
    parseHead_hugeChunk, Compute.ofExcept, pure_bind']
  dsimp only
  rw [add_eq (by decide +kernel), pure_bind', Octets.since_eq (by decide +kernel), pure_bind',
    takeBody, if_pos rfl, decodeChunked_hugeChunk]
  rfl

end OmaChat.Nostr
