import OmaChat.Nostr.Nip11

/-!
# The format of chunked responses

What a server sends that answers with a chunked body, part by part, and what `try_complete` makes of it and of its beginnings.

* `Header`, `Head` : a header block of status 200 whose lines have no line break. `parseHead_text` reads it back;
* `SizeLine`, `SentChunk` : the size in hexadecimal digits, an extension, and the data, which may be any bytes;
* `decodeFrom_sent`, `decodeFrom_take_sent` : the decoder returns the data once the last size line is there, and not before;
* `chunked_response_decodes` : so does the parser of the whole response.
-/

namespace OmaChat.Nostr
open Wire Words
open List (mem_cons_of_mem cons_append append_assoc take_left drop_left' length_append flatMap_cons)
open Compute (add_eq pure_bind')

/-! ## Heads -/

/-- A header line, whose length is a number if it is a `Content-Length`. -/
structure Header where
  name : String
  value : String
  name_ok : ':' ∉ name.toList ∧ '\n' ∉ name.toList
  value_ok : '\n' ∉ value.toList
  length_ok : eqIgnoreAsciiCase name "content-length" = true → (parseUnsigned 10 (2 ^ 64) (trim value)).isSome = true

namespace Header

def line (header : Header) : String := header.name ++ ":" ++ header.value

def saysChunked (header : Header) : Bool :=
  eqIgnoreAsciiCase header.name "transfer-encoding" && containsText "chunked" (lower (trim header.value))

def addTo (framing : Framing) (header : Header) : Framing :=
  if eqIgnoreAsciiCase header.name "content-length" then
    { framing with contentLength := parseUnsigned 10 (2 ^ 64) (trim header.value) }
  else if header.saysChunked then { framing with chunked := true }
  else framing

end Header

/-- The protocols that `try_complete` knows. -/
inductive HttpVersion where
  | http10
  | http11
  deriving DecidableEq

def HttpVersion.text : HttpVersion → String
  | .http10 => "HTTP/1.0"
  | .http11 => "HTTP/1.1"

structure Head where
  version : HttpVersion
  reason : Option String
  reason_ok : ∀ text ∈ reason, '\n' ∉ text.toList
  headers : List Header

namespace Head

def statusLine (head : Head) : String :=
  head.version.text ++ " 200" ++ match head.reason with
    | none => ""
    | some text => " " ++ text

def lines (head : Head) : List String := head.statusLine :: head.headers.map Header.line

def text (head : Head) : String := joinLines head.lines

def bytes (head : Head) : List UInt8 := utf8 head.text ++ crlfCrlf

def framing (head : Head) : Framing := head.headers.foldl Header.addTo ⟨none, false⟩

end Head

section Heads
variable {head : Head} {header : Header}

theorem parseHeaders_lines (headers : List Header) (framing : Framing) :
    parseHeaders (headers.map Header.line) framing = .ok (headers.foldl Header.addTo framing) := by
  induction headers generalizing framing with
  | nil => rfl
  | cons header headers ih =>
    have hsplit : splitOnce ':' header.line = some (header.name, header.value) := by
      apply splitOnce_append _ header.name_ok.1
      simp [Header.line]
    rw [List.map_cons, List.foldl_cons]
    unfold parseHeaders Header.addTo
    rw [hsplit]
    dsimp only
    by_cases hlen : eqIgnoreAsciiCase header.name "content-length" = true
    · obtain ⟨length, hnumber⟩ := Option.isSome_iff_exists.1 (header.length_ok hlen)
      rw [if_pos hlen, if_pos hlen, hnumber]
      exact ih _
    · rw [if_neg hlen, if_neg hlen]
      by_cases hchk : header.saysChunked = true
      · rw [if_pos hchk, if_pos (by simpa [Header.saysChunked] using hchk)]
        exact ih _
      · rw [if_neg hchk, if_neg (by simpa [Header.saysChunked] using hchk)]
        exact ih _

theorem not_length_of_saysChunked (h : header.saysChunked = true) :
    ¬ eqIgnoreAsciiCase header.name "content-length" = true := by
  have hdiffer : lower "transfer-encoding" ≠ lower "content-length" := by
    rw [lower_eq, lower_eq]
    decide +kernel
  unfold Header.saysChunked at h
  rw [Bool.and_eq_true] at h
  intro hlen
  apply hdiffer
  have hcoding := h.1
  unfold eqIgnoreAsciiCase at hcoding hlen
  rw [← of_decide_eq_true hcoding, of_decide_eq_true hlen]

theorem chunked_framing : head.framing.chunked = head.headers.any Header.saysChunked := by
  have hfold : ∀ (headers : List Header) (framing : Framing),
      (headers.foldl Header.addTo framing).chunked = (framing.chunked || headers.any Header.saysChunked) := by
    intro headers
    induction headers with
    | nil => simp
    | cons header headers ih =>
      intro framing
      rw [List.foldl_cons, ih, List.any_cons, ← Bool.or_assoc]
      congr 1
      unfold Header.addTo
      by_cases hchk : header.saysChunked = true
      · rw [if_neg (not_length_of_saysChunked hchk), if_pos hchk, hchk, Bool.or_true]
      · rw [if_neg hchk, Bool.eq_false_iff.2 hchk, Bool.or_false]
        split_ifs <;> rfl
  unfold Head.framing
  rw [hfold, Bool.false_or]

theorem splitN_statusLine (head : Head) : ∃ rest, splitN ' ' 3 head.statusLine = head.version.text :: "200" :: rest := by
  have hver : ' ' ∉ head.version.text.toList := by cases head.version <;> simp [HttpVersion.text]
  have hcode : ' ' ∉ "200".toList := by simp
  unfold Head.statusLine
  cases head.reason with
  | none =>
    have hf : splitOnce ' ' (head.version.text ++ " 200" ++ "") = some (head.version.text, "200") := by
      apply splitOnce_append _ hver
      simp
    have hsecond : splitOnce ' ' "200" = none := by decide
    refine ⟨[], ?_⟩
    dsimp only
    rw [splitN, hf]
    dsimp only
    rw [splitN, hsecond]
  | some reason =>
    have hf : splitOnce ' ' (head.version.text ++ " 200" ++ (" " ++ reason)) =
        some (head.version.text, "200" ++ (" " ++ reason)) := by
      apply splitOnce_append _ hver
      simp
    have hsecond : splitOnce ' ' ("200" ++ (" " ++ reason)) = some ("200", reason) := by
      apply splitOnce_append _ hcode
      simp
    refine ⟨[reason], ?_⟩
    dsimp only
    rw [splitN, hf]
    dsimp only
    rw [splitN, hsecond]
    rfl

variable {line : String} {rest : List UInt8} {buffer : Octets}

theorem notMem_lines (h : line ∈ head.lines) : '\n' ∉ line.toList := by
  rcases List.mem_cons.1 h with rfl | h
  · have hreason := head.reason_ok
    unfold Head.statusLine
    cases hsome : head.reason with
    | none => cases head.version <;> simp [HttpVersion.text]
    | some reason =>
      have hline := hreason reason hsome
      cases head.version <;> simp [HttpVersion.text, hline]
  · obtain ⟨header, -, rfl⟩ := List.mem_map.1 h
    simp [Header.line, header.name_ok.2, header.value_ok]

theorem nil_notMem_lines (h : line ∈ head.lines) : line.toList ≠ [] := by
  rcases List.mem_cons.1 h with rfl | h
  · simp [Head.statusLine]
  · obtain ⟨header, -, rfl⟩ := List.mem_map.1 h
    simp [Header.line]

/-- **A head is read back.** -/
theorem parseHead_text : parseHead head.text = .ok (200, head.framing) := by
  obtain ⟨rest, hparts⟩ := splitN_statusLine head
  have hstat : parseUnsigned 10 (2 ^ 16) "200" = some 200 := by decide +kernel
  unfold parseHead Head.text
  rw [splitLines_joinLines (by simp [Head.lines]) fun line => notMem_lines]
  unfold Head.lines
  dsimp only
  rw [hparts, if_neg]
  · simp only [List.getElem?_cons_succ, List.getElem?_cons_zero, Option.bind_some, hstat, parseHeaders_lines]
    rfl
  · cases head.version <;> simp [HttpVersion.text]

theorem findFrom_line {line : List UInt8} (h : 10 ∉ line) (rest : List UInt8) :
    Octets.findFrom crlfCrlf (line ++ 13 :: 10 :: rest) =
      (Octets.findFrom crlfCrlf (13 :: 10 :: rest)).map (· + line.length) := by
  induction line with
  | nil => simp
  | cons b line ih =>
    have hline : 10 ∉ line := fun hmem => h (mem_cons_of_mem b hmem)
    have hst : ¬ crlfCrlf.isPrefixOf (b :: (line ++ 13 :: 10 :: rest)) = true := by
      cases line with
      | nil => simp [crlfCrlf]
      | cons c line =>
        have hc : (10 : UInt8) ≠ c := by
          rintro rfl
          simp at hline
        simp [crlfCrlf, hc]
    rw [cons_append, Octets.findFrom, if_neg hst, ih hline, Option.map_map, List.length_cons]
    rfl

theorem findFrom_break (h : ¬ crlf.isPrefixOf rest = true) :
    Octets.findFrom crlfCrlf (13 :: 10 :: rest) = (Octets.findFrom crlfCrlf rest).map (· + 2) := by
  have hf : ¬ crlfCrlf.isPrefixOf (13 :: 10 :: rest) = true := by
    simpa [crlfCrlf, crlf] using h
  have hsecond : ¬ crlfCrlf.isPrefixOf (10 :: rest) = true := by simp [crlfCrlf]
  rw [Octets.findFrom, if_neg hf, Octets.findFrom, if_neg hsecond, Option.map_map]
  rfl

theorem utf8_joinLines_cons (line next : String) (lines : List String) :
    utf8 (joinLines (line :: next :: lines)) = utf8 line ++ 13 :: 10 :: utf8 (joinLines (next :: lines)) := by
  have hbreak : utf8 "\r\n" = [13, 10] := by decide +kernel
  rw [joinLines, utf8_append, utf8_append, hbreak, append_assoc]
  · rfl
  · simp

theorem joinLines_starts (line : String) (lines : List String) (rest : List UInt8) :
    ∃ tail, utf8 (joinLines (line :: lines)) ++ crlfCrlf ++ rest = utf8 line ++ 13 :: tail := by
  cases lines with
  | nil => exact ⟨[10, 13, 10] ++ rest, by simp [joinLines, crlfCrlf]⟩
  | cons next lines =>
    refine ⟨10 :: (utf8 (joinLines (next :: lines)) ++ crlfCrlf ++ rest), ?_⟩
    rw [utf8_joinLines_cons]
    simp

theorem findFrom_joinLines {lines : List String} (hne : lines ≠ [])
    (h : ∀ line ∈ lines, 10 ∉ utf8 line ∧ utf8 line ≠ []) (rest : List UInt8) :
    Octets.findFrom crlfCrlf (utf8 (joinLines lines) ++ crlfCrlf ++ rest) = some (utf8 (joinLines lines)).length := by
  induction lines with
  | nil => exact absurd rfl hne
  | cons line lines ih =>
    obtain ⟨hline, -⟩ := h line List.mem_cons_self
    cases lines with
    | nil =>
      have hfound := findFrom_line hline ([13, 10] ++ rest)
      simp only [joinLines, crlfCrlf] at hfound ⊢
      simpa [Octets.findFrom] using hfound
    | cons next lines =>
      have hrest := ih (by simp) fun other ho => h other (mem_cons_of_mem _ ho)
      obtain ⟨hnext, hnonempty⟩ := h next (by simp)
      obtain ⟨tail, htail⟩ := joinLines_starts next lines rest
      rw [utf8_joinLines_cons, append_assoc, append_assoc, cons_append, cons_append, findFrom_line hline,
        ← append_assoc, findFrom_break, hrest]
      · simp
        omega
      · -- the next line is not empty, so no line break follows at once
        rw [htail]
        cases hb : utf8 next with
        | nil => exact absurd hb hnonempty
        | cons b bytes =>
          rw [hb] at hnext
          cases bytes with
          | nil => simp [crlf]
          | cons c bytes =>
            have hc : (10 : UInt8) ≠ c := by
              rintro rfl
              simp at hnext
            simp [crlf, hc]

theorem lineFeed_notMem_utf8 {s : String} (h : '\n' ∉ s.toList) : 10 ∉ utf8 s :=
  fun hmem => h (mem_of_mem_utf8 hmem (by decide))

theorem findFrom_head (head : Head) (rest : List UInt8) :
    Octets.findFrom crlfCrlf (head.bytes ++ rest) = some (utf8 head.text).length := by
  apply findFrom_joinLines (by simp [Head.lines])
  intro line hline
  refine ⟨lineFeed_notMem_utf8 (notMem_lines hline), fun hempty => nil_notMem_lines hline ?_⟩
  rw [utf8_eq_flatMap, List.flatMap_eq_nil_iff] at hempty
  exact List.eq_nil_iff_forall_not_mem.2 fun c hc => String.utf8EncodeChar_ne_nil (hempty c hc)

theorem tryComplete_of_head {body : Octets} (hbuf : buffer.val = head.bytes ++ body.val) (eof : Bool)
    (limits : RelayInformationLimits) :
    tryComplete buffer eof limits = (do
      match ← takeBody head.framing eof body with
      | none => pure none
      | some body => if limits.maxDocumentBytes < body.length then .throw .responseTooLarge else pure (some body)) := by
  have hfind : buffer.find crlfCrlf = some (utf8 head.text).length := by
    unfold Octets.find
    rw [hbuf, findFrom_head]
  have hle : (utf8 head.text).length + 4 ≤ buffer.length := Octets.find_le hfind
  have hlen := buffer.length_lt
  have hhead : (buffer.take (utf8 head.text).length).val = utf8 head.text := by
    show buffer.val.take _ = _
    rw [hbuf, Head.bytes, append_assoc, take_left]
  have hbody : buffer.drop ((utf8 head.text).length + 4) = body := by
    apply Subtype.ext
    show buffer.val.drop _ = _
    rw [hbuf]
    exact drop_left' (by simp [Head.bytes, crlfCrlf])
  unfold tryComplete
  rw [hfind]
  dsimp only
  rw [Octets.upto_eq (by omega), pure_bind', hhead, fromUtf8_utf8, Compute.ofOption, pure_bind',
    parseHead_text, Compute.ofExcept, pure_bind']
  dsimp only
  rw [add_eq (by omega), pure_bind', Octets.since_eq hle, pure_bind', hbody]
  rfl

theorem tryComplete_of_no_head {n : Nat} (hbuf : buffer.val = (head.bytes ++ rest).take n)
    (hn : n < head.bytes.length) (eof : Bool) (limits : RelayInformationLimits) :
    tryComplete buffer eof limits = if maxHeaderBytes < n then .throw .responseTooLarge else pure none := by
  have hfind : buffer.find crlfCrlf = none := by
    unfold Octets.find
    rw [hbuf, Octets.findFrom_take (by simp [crlfCrlf]) (findFrom_head head rest), if_neg]
    simpa [Head.bytes] using hn
  have hlen : buffer.length = n := by
    unfold Octets.length
    rw [hbuf, List.length_take, length_append]
    omega
  unfold tryComplete
  rw [hfind]
  dsimp only
  rw [hlen]

end Heads

/-! ## Chunks -/

structure SizeLine where
  digits : String
  extension : Option String
  digits_ok : digits.toList ≠ [] ∧ ∀ c ∈ digits.toList, (hexValue c).isSome = true
  extension_ok : ∀ text ∈ extension, '\n' ∉ text.toList

namespace SizeLine

def text (line : SizeLine) : String :=
  line.digits ++ match line.extension with
    | none => ""
    | some text => ";" ++ text

def size (line : SizeLine) : Nat := digitsValue 16 line.digits.toList

def bytes (line : SizeLine) : List UInt8 := utf8 line.text ++ crlf

end SizeLine

structure SentChunk where
  line : SizeLine
  data : List UInt8
  size_ok : line.size = data.length
  data_ok : data ≠ []

def SentChunk.bytes (chunk : SentChunk) : List UInt8 := chunk.line.bytes ++ (chunk.data ++ crlf)

/-- The body that some chunks make, up to the size line that ends it. -/
def sentBody (chunks : List SentChunk) (last : SizeLine) : List UInt8 := chunks.flatMap SentChunk.bytes ++ last.bytes

section Chunks
variable {line last : SizeLine} {chunk : SentChunk} {chunks : List SentChunk} {body : Octets} {rest : List UInt8}

theorem digit_ok {c : Char} (h : c ∈ line.digits.toList) : ∃ digit < 16, hexValue c = some digit := by
  obtain ⟨digit, hdig⟩ := Option.isSome_iff_exists.1 (line.digits_ok.2 c h)
  exact ⟨digit, (hexValue_eq_some hdig).1, hdig⟩

theorem chunkSize_text (hsize : line.size < 2 ^ 64) : chunkSize line.text = some line.size := by
  have hmark : ';' ∉ line.digits.toList := by
    intro hmem
    obtain ⟨digit, -, hdig⟩ := digit_ok hmem
    have hnone : hexValue ';' = none := by decide
    rw [hnone] at hdig
    cases hdig
  have hhead : (splitText ';' line.text).headD "" = line.digits := by
    unfold SizeLine.text
    cases line.extension with
    | none =>
      dsimp only
      rw [String.append_empty, splitText_of_notMem hmark]
      rfl
    | some text =>
      apply headD_splitText _ hmark
      · exact text.toList
      · simp
  have htrim : trim line.digits = line.digits := by
    apply trim_eq_self
    intro c hc
    obtain ⟨digit, -, hdig⟩ := digit_ok hc
    exact (hexValue_eq_some hdig).2
  unfold chunkSize
  rw [hhead, htrim]
  exact parseUnsigned_digits line.digits_ok.1 (fun c => digit_ok) hsize

theorem notMem_text (line : SizeLine) : '\n' ∉ line.text.toList := by
  have hdig : '\n' ∉ line.digits.toList := by
    intro hmem
    obtain ⟨digit, -, hdigit⟩ := digit_ok hmem
    have hnone : hexValue '\n' = none := by decide
    rw [hnone] at hdigit
    cases hdigit
  have hextension := line.extension_ok
  unfold SizeLine.text
  cases hsome : line.extension with
  | none => simp [hdig]
  | some text =>
    have htext := hextension text hsome
    simp [hdig, htext]

theorem findFrom_text (line : SizeLine) (rest : List UInt8) :
    Octets.findFrom crlf (line.bytes ++ rest) = some (utf8 line.text).length := by
  have hfound : ∀ text : List UInt8, 10 ∉ text → Octets.findFrom crlf (text ++ crlf ++ rest) = some text.length := by
    intro text h
    induction text with
    | nil => simp [crlf, Octets.findFrom]
    | cons b text ih =>
      have htext : 10 ∉ text := fun hmem => h (mem_cons_of_mem b hmem)
      have hst : ¬ crlf.isPrefixOf (b :: (text ++ crlf ++ rest)) = true := by
        cases text with
        | nil => simp [crlf]
        | cons c text =>
          have hc : (10 : UInt8) ≠ c := by
            rintro rfl
            simp at htext
          simp [crlf, hc]
      rw [cons_append, cons_append, Octets.findFrom, if_neg hst, ih htext]
      rfl
  exact hfound _ (lineFeed_notMem_utf8 (notMem_text line))

theorem sizeLine_sent (hbody : body.val = line.bytes ++ rest) (hsize : line.size < 2 ^ 64) :
    ∃ after : Octets, sizeLine body = some (line.size, after) ∧ after.val = rest := by
  have hfind : body.find crlf = some (utf8 line.text).length := by
    unfold Octets.find
    rw [hbody, findFrom_text]
  have hline : (body.take (utf8 line.text).length).val = utf8 line.text := by
    show body.val.take _ = _
    rw [hbody, SizeLine.bytes, append_assoc, take_left]
  refine ⟨body.drop ((utf8 line.text).length + 2), ?_, ?_⟩
  · simp [sizeLine, hfind, hline, fromUtf8_utf8, chunkSize_text hsize]
  · show body.val.drop _ = _
    rw [hbody]
    exact drop_left' (by simp [SizeLine.bytes, crlf])

variable {n : Nat}

theorem readChunk_of_short (hbody : body.val = (line.bytes ++ rest).take n) (hn : n < line.bytes.length) :
    readChunk body = pure .incomplete := by
  have hfind : body.find crlf = none := by
    unfold Octets.find
    rw [hbody, Octets.findFrom_take (by simp [crlf]) (findFrom_text line rest), if_neg]
    simpa [SizeLine.bytes, crlf] using hn
  exact readChunk_of_no_line hfind

theorem readChunk_last (hbody : body.val = last.bytes ++ rest) (hlast : last.size = 0) : readChunk body = pure .last := by
  obtain ⟨after, hline, -⟩ := sizeLine_sent hbody (by omega)
  rw [readChunk_of_size hline, readData_of_fits (by omega), if_pos hlast]

theorem chunk_fits (hbody : chunk.bytes.length ≤ body.length) : chunk.line.size + 2 < 2 ^ 64 := by
  have hlen := body.length_lt
  have hsize := chunk.size_ok
  rw [SentChunk.bytes, length_append, length_append] at hbody
  omega

theorem readChunk_sent (hbody : body.val = chunk.bytes ++ rest) :
    ∃ bytes after : Octets, readChunk body = pure (.data bytes after) ∧ bytes.val = chunk.data ∧ after.val = rest := by
  have hfits : chunk.line.size + 2 < 2 ^ 64 := by
    apply @chunk_fits chunk body
    unfold Octets.length
    rw [hbody, length_append]
    omega
  have hdata := chunk.size_ok
  have hnonempty := List.length_pos_iff.2 chunk.data_ok
  rw [SentChunk.bytes, append_assoc, append_assoc] at hbody
  obtain ⟨after, hline, ha⟩ := sizeLine_sent hbody (by omega)
  have hmark : ((after.drop chunk.line.size).take 2).val = crlf := by
    show (after.val.drop _).take 2 = crlf
    rw [ha, hdata, List.drop_left]
    rfl
  have hlen : chunk.line.size + 2 ≤ after.length := by
    unfold Octets.length
    rw [ha, length_append, length_append, hdata]
    simp [crlf]
  refine ⟨after.take chunk.line.size, after.drop (chunk.line.size + 2), ?_, ?_, ?_⟩
  · rw [readChunk_of_size hline, readData_of_fits hfits, if_neg (by omega), if_neg (by omega), if_neg (by simp [hmark])]
  · show after.val.take _ = _
    rw [ha, hdata, take_left]
  · show after.val.drop _ = _
    rw [ha, ← append_assoc]
    exact drop_left' (by simp [hdata, crlf])

theorem readChunk_of_cut (hbody : body.val = (chunk.bytes ++ rest).take n) (hn : n < chunk.bytes.length)
    (hsize : chunk.line.size + 2 < 2 ^ 64) : readChunk body = pure .incomplete := by
  have hnonempty := List.length_pos_iff.2 chunk.data_ok
  have hdata := chunk.size_ok
  rw [SentChunk.bytes, append_assoc] at hbody
  by_cases hline : n < chunk.line.bytes.length
  · exact readChunk_of_short hbody hline
  · rw [List.take_append, List.take_of_length_le (by omega)] at hbody
    obtain ⟨after, hread, ha⟩ := sizeLine_sent hbody (by omega)
    have hshort : after.length < chunk.line.size + 2 := by
      rw [SentChunk.bytes, length_append, length_append] at hn
      unfold Octets.length
      rw [ha, List.length_take]
      simp only [crlf, List.length_cons, List.length_nil] at hn
      omega
    rw [readChunk_of_size hread, readData_of_fits hsize, if_neg (by omega), if_pos hshort]

/-- **Chunks are decoded**, whatever follows the size line that ends them. -/
theorem decodeFrom_sent (hbody : body.val = sentBody chunks last ++ rest) (hlast : last.size = 0) (decoded : List UInt8) :
    decodeFrom body decoded = pure (some (decoded ++ chunks.flatMap SentChunk.data)) := by
  induction chunks generalizing body decoded with
  | nil =>
    rw [decodeFrom_eq, readChunk_last hbody hlast, pure_bind']
    simp
  | cons chunk chunks ih =>
    rw [sentBody, flatMap_cons, append_assoc, append_assoc] at hbody
    obtain ⟨bytes, after, hread, hb, ha⟩ := readChunk_sent hbody
    rw [decodeFrom_eq, hread, pure_bind']
    dsimp only
    rw [ih (by rw [ha, sentBody, append_assoc]), hb, flatMap_cons, append_assoc]

theorem decodeFrom_take_sent (hbody : body.val = (sentBody chunks last ++ rest).take n)
    (hn : n < (sentBody chunks last).length) (hsz : ∀ chunk ∈ chunks, chunk.line.size + 2 < 2 ^ 64) (decoded : List UInt8) :
    decodeFrom body decoded = pure none := by
  induction chunks generalizing body n decoded with
  | nil =>
    rw [decodeFrom_eq, readChunk_of_short hbody hn, pure_bind']
  | cons chunk chunks ih =>
    rw [sentBody, flatMap_cons, append_assoc, append_assoc] at hbody
    rw [sentBody, flatMap_cons, append_assoc, length_append] at hn
    by_cases hcut : n < chunk.bytes.length
    · rw [decodeFrom_eq, readChunk_of_cut hbody hcut (hsz chunk List.mem_cons_self), pure_bind']
    · rw [List.take_append, List.take_of_length_le (by omega)] at hbody
      obtain ⟨bytes, after, hread, -, ha⟩ := readChunk_sent hbody
      rw [decodeFrom_eq, hread, pure_bind']
      dsimp only
      apply ih (n := n - chunk.bytes.length)
      · rw [ha, sentBody, append_assoc]
      · rw [sentBody]
        omega
      · exact fun other ho => hsz other (mem_cons_of_mem _ ho)

end Chunks

/-! ## Responses -/

/-- **Chunked bodies** are decoded exactly, for every head that says so, all chunks within the limit and whatever follows; and on
a response that stops before the end of the last size line nothing is. -/
theorem chunked_response_decodes {limits : RelayInformationLimits} {head : Head} {chunks : List SentChunk} {last : SizeLine}
    {rest : List UInt8} {response : Octets} (hchunked : head.headers.any Header.saysChunked = true) (hlast : last.size = 0)
    (hfits : (chunks.flatMap SentChunk.data).length ≤ limits.maxDocumentBytes)
    (hresponse : response.val = head.bytes ++ sentBody chunks last ++ rest) (eof : Bool) :
    tryComplete response eof limits = pure (some (chunks.flatMap SentChunk.data)) ∧
      ∀ n < (head.bytes ++ sentBody chunks last).length, tryComplete (response.take n) eof limits =
        if maxHeaderBytes < n ∧ n < head.bytes.length then .throw .responseTooLarge else pure none := by
  have hframing : head.framing.chunked = true := by rw [chunked_framing, hchunked]
  rw [List.append_assoc] at hresponse
  constructor
  · have hbody : (response.drop head.bytes.length).val = sentBody chunks last ++ rest := by
      show response.val.drop _ = _
      rw [hresponse, List.drop_left]
    rw [tryComplete_of_head (by rw [hbody, hresponse]), takeBody, if_pos hframing, decodeChunked,
      decodeFrom_sent hbody hlast, List.nil_append, pure_bind']
    exact if_neg (by omega)
  · intro n hn
    have hpre : (response.take n).val = (head.bytes ++ (sentBody chunks last ++ rest)).take n := by
      rw [← hresponse]
      rfl
    by_cases hhead : n < head.bytes.length
    · rw [tryComplete_of_no_head hpre hhead]
      simp [hhead]
    · rw [if_neg fun h => hhead h.2]
      have hbody : ((response.drop head.bytes.length).take (n - head.bytes.length)).val =
          (sentBody chunks last ++ rest).take (n - head.bytes.length) := by
        show (response.val.drop _).take _ = _
        rw [hresponse, List.drop_left]
      have hsizes : ∀ chunk ∈ chunks, chunk.line.size + 2 < 2 ^ 64 := by
        intro chunk hchunk
        apply @chunk_fits chunk response
        obtain ⟨before, after, hchunks⟩ := List.append_of_mem hchunk
        unfold Octets.length
        rw [hresponse, sentBody, hchunks]
        simp only [List.flatMap_append, List.flatMap_cons, List.length_append]
        omega
      have hparts : (response.take n).val =
          head.bytes ++ ((response.drop head.bytes.length).take (n - head.bytes.length)).val := by
        rw [hpre, hbody, List.take_append, List.take_of_length_le (by omega)]
      rw [tryComplete_of_head hparts, takeBody, if_pos hframing, decodeChunked, decodeFrom_take_sent hbody _ hsizes,
        pure_bind']
      rw [List.length_append] at hn
      omega

/-- `Transfer-Encoding: chunked` -/
def chunkedHeader : Header where
  name := "Transfer-Encoding"
  value := " chunked"
  name_ok := by simp
  value_ok := by simp
  length_ok := by simp [transferEncoding_ne_length]

def chunkedHead : Head where
  version := .http11
  reason := some "OK"
  reason_ok := by simp
  headers := [chunkedHeader]

/-- A chunk whose data looks like the end of a body. -/
def deceptiveChunk : SentChunk where
  line := ⟨"07", some "part=1", by simp [hexValue], by simp⟩
  data := [13, 10, 48, 13, 10, 13, 10]
  size_ok := rfl
  data_ok := by simp

theorem no_text : ∀ text ∈ (none : Option String), '\n' ∉ text.toList := by simp

def lastLine : SizeLine := ⟨"0", none, by simp [hexValue], no_text⟩

/-- The response with this chunk, its trailing line break and a byte of something else. -/
def chunkedResponse : Octets := ⟨chunkedHead.bytes ++ sentBody [deceptiveChunk] lastLine ++ [13, 10, 88], by decide +kernel⟩

theorem chunked_response_decodes_deceptive :
    tryComplete chunkedResponse false ⟨65536⟩ = pure (some [13, 10, 48, 13, 10, 13, 10]) ∧
      tryComplete (chunkedResponse.take 60) true ⟨65536⟩ = pure none := by
  have hchunked : chunkedHead.headers.any Header.saysChunked = true := by
    simp only [chunkedHead, chunkedHeader, List.any_cons, List.any_nil, Header.saysChunked, eqIgnoreAsciiCase, lower_eq]
    decide +kernel
  have hdecodes := @chunked_response_decodes ⟨65536⟩ chunkedHead [deceptiveChunk] lastLine [13, 10, 88] chunkedResponse
    hchunked (by decide +kernel) (by decide +kernel) rfl
  refine ⟨(hdecodes false).1, ?_⟩
  rw [(hdecodes true).2 60 (by decide +kernel), if_neg (by decide +kernel)]

end OmaChat.Nostr
