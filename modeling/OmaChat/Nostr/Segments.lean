import Mathlib.Data.List.SplitLengths
import OmaChat.Lib.Prefixes
import OmaChat.Nostr.Responses

/-!
# Responses in segments

The loop of `exchange` in `nip11.rs`: it reads at most 4096 bytes at a time, and after each read it asks `try_complete` whether
the response is complete. How the bytes come in is up to the network.

* `tryComplete_extends` : once the head is there, what `try_complete` returns is not changed by further bytes, unless it waits
  for them;
* `segmentReader` : so the loop is a reader with two limits, the one of the head and the one of the whole response;
* `segmentation_iff` : the result does not depend on the reads, except for two kinds of responses: the head ends less than a
  read behind its limit, or the response goes on beyond its limit less than a read after its end.
-/

namespace OmaChat.Nostr
open Wire Words
open Prefixes (TwoLimits Pieces)
open Compute (add_eq pure_bind' result_bind)

variable {buffer : Octets} {limits : RelayInformationLimits}

/-! ## The loop -/

/-- The cap of `exchange`; the program is built without overflow checks. -/
def responseCap (limits : RelayInformationLimits) : Nat := (maxHeaderBytes + limits.maxDocumentBytes) % 2 ^ 64

/-- The result of `exchange` for the answer of `try_complete` at the end of the stream. -/
def resultAtEof (answer : End RelayInformationError (Option (List UInt8))) : End RelayInformationError (List UInt8) :=
  match answer with
  | .ok (some body) => .ok body
  | .ok none => .error .malformedResponse
  | .error e => .error e
  | .panic => .panic

/-- What the loop returns after a read, if it does. -/
def resultAfterRead (answer : End RelayInformationError (Option (List UInt8))) :
    Option (End RelayInformationError (List UInt8)) :=
  match answer with
  | .ok (some body) => some (.ok body)
  | .ok none => none
  | .error e => some (.error e)
  | .panic => some .panic

/-- The loop of `exchange` for the bytes of each read until the end of the stream. -/
def exchangeFrom (limits : RelayInformationLimits) : Octets → List (List UInt8) → End RelayInformationError (List UInt8)
  | buffer, [] => resultAtEof (tryComplete buffer true limits).result
  | buffer, read :: reads =>
    match buffer.push read with
    | none => .panic
    | some buffer =>
      if responseCap limits < buffer.length then .error .responseTooLarge
      else
        match resultAfterRead (tryComplete buffer false limits).result with
        | some result => result
        | none => exchangeFrom limits buffer reads

/-- `exchange` after its request is written -/
def exchange (limits : RelayInformationLimits) (reads : List (List UInt8)) : End RelayInformationError (List UInt8) :=
  exchangeFrom limits ⟨[], by simp⟩ reads

/-- A way in which reads of at most 4096 bytes split what a server sends before it closes. -/
structure Splits (bytes : Octets) (reads : List (List UInt8)) : Prop where
  flatten : reads.flatten = bytes.val
  pos : ∀ read ∈ reads, read ≠ []
  le : ∀ read ∈ reads, read.length ≤ 4096

/-! ## Further bytes -/

section
variable {body longer : Octets}

theorem readData_extends (size : Nat) (h : body.Extends longer) :
    (readData size body).result = .ok .incomplete ∨
      (∃ bytes rest rest', (readData size body).result = .ok (.data bytes rest) ∧
        (readData size longer).result = .ok (.data bytes rest') ∧ rest.Extends rest') ∨
      (readData size longer).result = (readData size body).result := by
  have hle := h.length_le
  have hbody := body.length_lt
  have hlonger := longer.length_lt
  by_cases hfits : size + 2 < 2 ^ 64
  · rw [readData_of_fits hfits, readData_of_fits hfits]
    by_cases hzero : size = 0
    · rw [if_pos hzero, if_pos hzero]
      exact .inr (.inr rfl)
    rw [if_neg hzero, if_neg hzero]
    by_cases hshort : body.length < size + 2
    · rw [if_pos hshort]
      exact .inl rfl
    have hshort' : ¬ longer.length < size + 2 := by omega
    rw [if_neg hshort, if_neg hshort', (h.drop (by omega)).take (by rw [Octets.length_drop]; omega), h.take (by omega)]
    by_cases hmark : ((body.drop size).take 2).val ≠ crlf
    · rw [if_pos hmark, if_pos hmark]
      exact .inr (.inr rfl)
    · rw [if_neg hmark, if_neg hmark]
      exact .inr (.inl ⟨_, _, _, rfl, rfl, h.drop (by omega)⟩)
  · -- the size wraps around, and the slice of the data panics
    have hpanics : ∀ body : Octets, (readData size body).result = .ok .incomplete ∧ body.length < (size + 2) % 2 ^ 64 ∨
        (readData size body).result = .panic ∧ (size + 2) % 2 ^ 64 ≤ body.length := by
      intro body
      have hlen := body.length_lt
      unfold readData
      rw [if_neg (by omega), result_bind]
      dsimp only [Compute.add]
      by_cases hshort : body.length < (size + 2) % 2 ^ 64
      · rw [if_pos hshort]
        exact .inl ⟨rfl, hshort⟩
      · rw [if_neg hshort, Octets.upto, if_neg (by omega)]
        exact .inr ⟨rfl, by omega⟩
    rcases hpanics body with ⟨hincomplete, -⟩ | ⟨hpanic, hneeded⟩
    · exact .inl hincomplete
    · rcases hpanics longer with ⟨-, hshort⟩ | ⟨hpanic', -⟩
      · omega
      · exact .inr (.inr (by rw [hpanic, hpanic']))

theorem readChunk_extends (h : body.Extends longer) :
    (readChunk body).result = .ok .incomplete ∨
      (∃ bytes rest rest', (readChunk body).result = .ok (.data bytes rest) ∧
        (readChunk longer).result = .ok (.data bytes rest') ∧ rest.Extends rest') ∨
      (readChunk longer).result = (readChunk body).result := by
  cases hfind : body.find crlf with
  | none =>
    rw [readChunk_of_no_line hfind]
    exact .inl rfl
  | some lineEnd =>
    have hle : lineEnd + 2 ≤ body.length := Octets.find_le hfind
    have hfind' := h.find (by simp [crlf]) hfind
    have htake := h.take (show lineEnd ≤ body.length by omega)
    cases hline : sizeLine body with
    | none =>
      have hline' : sizeLine longer = none := by
        unfold sizeLine at hline ⊢
        rw [hfind] at hline
        rw [hfind']
        simpa [htake] using hline
      rw [readChunk_of_bad_line hfind hline, readChunk_of_bad_line hfind' hline']
      exact .inr (.inr rfl)
    | some found =>
      obtain ⟨size, rest⟩ := found
      obtain ⟨lineEnd', line, hsome, htext, hsize, rfl, -⟩ := sizeLine_eq_some hline
      rw [hfind] at hsome
      cases hsome
      have hline' : sizeLine longer = some (size, longer.drop (lineEnd + 2)) := by
        simp [sizeLine, hfind', htake, htext, hsize]
      rw [readChunk_of_size hline, readChunk_of_size hline']
      exact readData_extends size (h.drop hle)

/-- **Further bytes** behind a body that is decoded, or refused, do not change that. -/
theorem decodeFrom_extends (h : body.Extends longer) (decoded : List UInt8)
    (hstops : (decodeFrom body decoded).result ≠ .ok none) :
    (decodeFrom longer decoded).result = (decodeFrom body decoded).result := by
  -- the loop is entered again with a shorter body
  induction hn : body.length using Nat.strong_induction_on generalizing body longer decoded with
  | _ n ih =>
    subst hn
    rw [decodeFrom_eq, result_bind] at hstops ⊢
    rw [decodeFrom_eq body, result_bind]
    rcases readChunk_extends h with hread | ⟨bytes, rest, rest', hread, hread', hrest⟩ | hread
    · rw [hread] at hstops
      exact absurd rfl hstops
    · have hshorter := readChunk_shorter hread
      rw [hread] at hstops
      rw [hread, hread']
      exact ih _ hshorter hrest _ hstops rfl
    · rw [hread]

theorem takeBody_extends {framing : Framing} (h : body.Extends longer)
    (hstops : (takeBody framing false body).result ≠ .ok none) :
    (takeBody framing false longer).result = (takeBody framing false body).result := by
  have hle := h.length_le
  unfold takeBody at hstops ⊢
  by_cases hchk : framing.chunked = true
  · rw [if_pos hchk] at hstops
    rw [if_pos hchk, if_pos hchk]
    exact decodeFrom_extends h [] hstops
  · rw [if_neg hchk] at hstops
    rw [if_neg hchk, if_neg hchk]
    cases hlen : framing.contentLength with
    | none =>
      rw [hlen] at hstops
      exact absurd rfl hstops
    | some length =>
      rw [hlen] at hstops
      dsimp only at hstops ⊢
      by_cases hshort : body.length < length
      · rw [if_pos hshort] at hstops
        exact absurd rfl hstops
      · have hshort' : ¬ longer.length < length := by omega
        rw [if_neg hshort, if_neg hshort', Octets.upto_eq (by omega), Octets.upto_eq (by omega), h.take (by omega)]

/-- What `try_complete` does once it has a head. -/
def afterHead (eof : Bool) (limits : RelayInformationLimits) (headBytes : List UInt8) (body : Octets) :
    Parse (Option (List UInt8)) := do
  let head ← .ofOption .malformedResponse (fromUtf8 headBytes)
  let (status, framing) ← .ofExcept (parseHead head)
  match ← takeBody framing eof body with
  | none => pure none
  | some body =>
    if status ≠ 200 then .throw (.httpStatus status)
    else if limits.maxDocumentBytes < body.length then .throw .responseTooLarge
    else pure (some body)

variable {split : Nat}

theorem tryComplete_of_find (h : buffer.find crlfCrlf = some split) (eof : Bool) (limits : RelayInformationLimits) :
    tryComplete buffer eof limits = afterHead eof limits (buffer.take split).val (buffer.drop (split + 4)) := by
  have hle : split + 4 ≤ buffer.length := Octets.find_le h
  have hlen := buffer.length_lt
  unfold tryComplete
  rw [h]
  dsimp only
  rw [Octets.upto_eq (by omega), pure_bind', add_eq (by omega)]
  simp only [pure_bind', Octets.since_eq hle]
  rfl

/-- **Further bytes** behind a response that is complete, or refused after its head, do not change that. -/
theorem tryComplete_extends (hfind : buffer.find crlfCrlf = some split) (h : buffer.Extends longer)
    (hstops : (tryComplete buffer false limits).result ≠ .ok none) :
    (tryComplete longer false limits).result = (tryComplete buffer false limits).result := by
  have hle : split + 4 ≤ buffer.length := Octets.find_le hfind
  have hbody := h.drop hle
  rw [tryComplete_of_find hfind] at hstops
  rw [tryComplete_of_find hfind, tryComplete_of_find (h.find (by simp [crlfCrlf]) hfind), h.take (by omega)]
  unfold afterHead at hstops ⊢
  cases hhead : fromUtf8 (buffer.take split).val with
  | none => rfl
  | some head =>
    rw [hhead] at hstops
    rw [Compute.ofOption, pure_bind'] at hstops
    rw [Compute.ofOption, pure_bind', pure_bind']
    cases hparsed : parseHead head with
    | error e => rfl
    | ok found =>
      obtain ⟨status, framing⟩ := found
      rw [hparsed, Compute.ofExcept, pure_bind'] at hstops
      rw [Compute.ofExcept, pure_bind', pure_bind']
      dsimp only at hstops ⊢
      rw [result_bind] at hstops
      have htake : (takeBody framing false (buffer.drop (split + 4))).result ≠ .ok none := by
        intro hnone
        rw [hnone] at hstops
        exact hstops rfl
      rw [result_bind, result_bind, takeBody_extends hbody htake]

end

/-! ## A reader with two limits -/

/-- The position behind the head, or a position behind the bytes if they have no head. -/
def headEnd (bytes : Octets) : Nat :=
  match bytes.find crlfCrlf with
  | none => bytes.length + 1
  | some split => split + 4

theorem headEnd_le (bytes : Octets) : headEnd bytes ≤ bytes.length + 1 := by
  unfold headEnd
  cases hfind : bytes.find crlfCrlf with
  | none => exact le_rfl
  | some split =>
    have hle : split + 4 ≤ bytes.length := Octets.find_le hfind
    dsimp only
    omega

/-- The parser does not wait for more than the first bytes. -/
def stopsAt (limits : RelayInformationLimits) (bytes : Octets) (n : Nat) : Bool :=
  headEnd bytes ≤ n && (tryComplete (bytes.take n) false limits).result != .ok none

/-- The position at which the response is complete, or refused after its head; a position behind the bytes if it is neither. -/
def completeAt (limits : RelayInformationLimits) (bytes : Octets) : Nat :=
  ((List.range (bytes.length + 1)).find? (stopsAt limits bytes)).getD (bytes.length + 1)

/-- What `exchange` makes of the bytes, read as they are needed. -/
def segmentReader (limits : RelayInformationLimits) (bytes : Octets) :
    TwoLimits (End RelayInformationError (List UInt8)) where
  soft := maxHeaderBytes
  cap := responseCap limits
  mark := headEnd bytes
  done := completeAt limits bytes
  tooLarge := .error .responseTooLarge
  outcome := resultAtEof (tryComplete (bytes.take (completeAt limits bytes)) false limits).result
  final := resultAtEof (tryComplete bytes true limits).result
  mark_pos := by
    unfold headEnd
    split <;> omega
  mark_le := by
    unfold completeAt
    cases hfound : (List.range (bytes.length + 1)).find? (stopsAt limits bytes) with
    | none => exact headEnd_le bytes
    | some n =>
      have hstops := List.find?_some hfound
      unfold stopsAt at hstops
      rw [Bool.and_eq_true] at hstops
      exact of_decide_eq_true hstops.1

section Reader
variable {bytes : Octets} {n : Nat}

theorem find_take (hn : n ≤ bytes.length) :
    (bytes.take n).find crlfCrlf = if headEnd bytes ≤ n then bytes.find crlfCrlf else none := by
  have hneedle : crlfCrlf ≠ [] := by simp [crlfCrlf]
  unfold headEnd
  cases hfind : bytes.find crlfCrlf with
  | none =>
    dsimp only
    rw [if_neg (by omega)]
    exact Octets.findFrom_take_of_none hneedle hfind n
  | some split => exact Octets.findFrom_take hneedle hfind n

variable {reads : List (List UInt8)} {m : Nat}

theorem extends_take (h : n ≤ m) (bytes : Octets) : (bytes.take n).Extends (bytes.take m) := by
  refine ⟨(bytes.val.take m).drop n, ?_⟩
  show bytes.val.take m = bytes.val.take n ++ _
  conv_lhs => rw [← List.take_append_drop n (bytes.val.take m), List.take_take, Nat.min_eq_left h]

theorem result_of_stopsAt (h : stopsAt limits bytes m = true) (hm : m ≤ n) (hn : n ≤ bytes.length) :
    headEnd bytes ≤ n ∧ (tryComplete (bytes.take n) false limits).result ≠ .ok none ∧
      (tryComplete (bytes.take n) false limits).result = (tryComplete (bytes.take m) false limits).result := by
  unfold stopsAt at h
  rw [Bool.and_eq_true, decide_eq_true_eq, bne_iff_ne] at h
  have hfind := @find_take bytes m (by omega)
  rw [if_pos h.1] at hfind
  cases hsplit : bytes.find crlfCrlf with
  | none =>
    have hhead := h.1
    unfold headEnd at hhead
    rw [hsplit] at hhead
    dsimp only at hhead
    omega
  | some split =>
    rw [hsplit] at hfind
    have hsame := tryComplete_extends hfind (extends_take hm bytes) h.2
    exact ⟨h.1.trans hm, hsame ▸ h.2, hsame⟩

theorem stopsAt_iff (hn : n ≤ bytes.length) : stopsAt limits bytes n = true ↔ completeAt limits bytes ≤ n := by
  unfold completeAt
  cases hfound : (List.range (bytes.length + 1)).find? (stopsAt limits bytes) with
  | none =>
    rw [List.find?_range_eq_none] at hfound
    have hnone := hfound n (by omega)
    simp at hnone
    simp [hnone]
    omega
  | some m =>
    rw [List.find?_range_eq_some] at hfound
    obtain ⟨hstops, -, hleast⟩ := hfound
    rw [Option.getD_some]
    constructor
    · intro hn'
      by_contra hlt
      have hnone := hleast n (by omega)
      rw [hn'] at hnone
      cases hnone
    · intro hle
      obtain ⟨hhead, hstops, -⟩ := result_of_stopsAt hstops hle hn
      unfold stopsAt
      rw [Bool.and_eq_true, decide_eq_true_eq, bne_iff_ne]
      exact ⟨hhead, hstops⟩

theorem resultAfterRead_of_ne {answer : End RelayInformationError (Option (List UInt8))} (h : answer ≠ .ok none) :
    resultAfterRead answer = some (resultAtEof answer) := by
  cases answer with
  | error e => rfl
  | panic => rfl
  | ok found =>
    cases found with
    | none => exact absurd rfl h
    | some body => rfl

/-- **After a read** the loop returns where the reader with two limits stops. -/
theorem stop_segmentReader (hn : n ≤ bytes.length) :
    (segmentReader limits bytes).stop n =
      if responseCap limits < n then some (.error .responseTooLarge)
      else resultAfterRead (tryComplete (bytes.take n) false limits).result := by
  have hlen : (bytes.take n).length = n := by
    rw [Octets.length_take]
    omega
  by_cases hcap : responseCap limits < n
  · rw [if_pos hcap]
    exact TwoLimits.stop_of_cap hcap
  rw [if_neg hcap]
  by_cases hhead : n < headEnd bytes
  · -- the head is not there
    have hfind := find_take hn
    rw [if_neg (by omega)] at hfind
    unfold tryComplete
    rw [hfind]
    dsimp only
    rw [hlen]
    by_cases hsoft : maxHeaderBytes < n
    · rw [if_pos hsoft]
      exact TwoLimits.stop_of_soft hsoft hhead
    · have hmark := (segmentReader limits bytes).mark_le
      rw [if_neg hsoft]
      exact TwoLimits.stop_eq_none (Nat.le_of_not_lt hcap) (fun _ => Nat.le_of_not_lt hsoft) (hhead.trans_le hmark)
  by_cases hdone : completeAt limits bytes ≤ n
  · have hf := (@stopsAt_iff limits bytes (completeAt limits bytes) (by omega)).2 le_rfl
    obtain ⟨-, hstops, hsame⟩ := result_of_stopsAt hf hdone hn
    rw [resultAfterRead_of_ne hstops, hsame]
    exact TwoLimits.stop_of_done (Nat.le_of_not_lt hcap) hdone
  · have hwaits : ¬ stopsAt limits bytes n = true := by
      rw [stopsAt_iff hn]
      exact hdone
    unfold stopsAt at hwaits
    rw [Bool.and_eq_true, decide_eq_true_eq, bne_iff_ne, not_and, not_not] at hwaits
    rw [hwaits (by omega)]
    exact TwoLimits.stop_eq_none (Nat.le_of_not_lt hcap) (fun hb => absurd hb hhead) (Nat.lt_of_not_le hdone)

theorem exchangeFrom_eq_read (h : buffer.val ++ reads.flatten = bytes.val) :
    exchangeFrom limits buffer reads = Prefixes.read (segmentReader limits bytes).stop (segmentReader limits bytes).final
      buffer.length (reads.map List.length) := by
  induction reads generalizing buffer with
  | nil =>
    have hbuf : buffer = bytes := by
      apply Subtype.ext
      simpa using h
    rw [hbuf]
    rfl
  | cons read reads ih =>
    rw [List.flatten_cons, ← List.append_assoc] at h
    have hb := bytes.length_lt
    have hlen : bytes.length = (buffer.val ++ read).length + reads.flatten.length := by
      unfold Octets.length
      rw [← h, List.length_append]
    have hfits : (buffer.val ++ read).length < 2 ^ 63 := by omega
    have hpush : buffer.push read = some ⟨buffer.val ++ read, hfits⟩ := dif_pos hfits
    have hposition : Octets.length ⟨buffer.val ++ read, hfits⟩ = buffer.length + read.length := List.length_append
    have htake : bytes.take (buffer.length + read.length) = ⟨buffer.val ++ read, hfits⟩ := by
      apply Subtype.ext
      show bytes.val.take _ = _
      rw [← h]
      exact List.take_left' List.length_append
    have hle : buffer.length + read.length ≤ bytes.length := by
      rw [hlen, List.length_append]
      exact Nat.le_add_right _ _
    have hrest := @ih ⟨buffer.val ++ read, hfits⟩ h
    rw [hposition] at hrest
    unfold exchangeFrom
    rw [hpush, List.map_cons, Prefixes.read, stop_segmentReader hle, htake, ← hrest]
    dsimp only
    rw [hposition]
    by_cases hcap : responseCap limits < buffer.length + read.length
    · rw [if_pos hcap, if_pos hcap]
      rfl
    · rw [if_neg hcap, if_neg hcap]
      cases resultAfterRead (tryComplete ⟨buffer.val ++ read, hfits⟩ false limits).result <;> rfl

theorem exchange_eq_read (h : Splits bytes reads) :
    exchange limits reads = Prefixes.read (segmentReader limits bytes).stop (segmentReader limits bytes).final 0
      (reads.map List.length) := by
  apply exchangeFrom_eq_read
  exact h.flatten

theorem Splits.pieces (h : Splits bytes reads) : Pieces 4096 bytes.length (reads.map List.length) := by
  refine ⟨?_, fun size hsize => ?_, fun size hsize => ?_⟩
  · unfold Octets.length
    rw [← h.flatten, List.length_flatten]
  · obtain ⟨read, hread, rfl⟩ := List.mem_map.1 hsize
    exact List.length_pos_iff.2 (h.pos read hread)
  · obtain ⟨read, hread, rfl⟩ := List.mem_map.1 hsize
    exact h.le read hread

theorem splits_of_pieces {sizes : List Nat} (h : Pieces 4096 bytes.length sizes) :
    ∃ reads, Splits bytes reads ∧ reads.map List.length = sizes := by
  have hsz := List.map_splitLengths_length bytes.val sizes (le_of_eq h.sum)
  have hmem : ∀ read ∈ sizes.splitLengths bytes.val, read.length ∈ sizes := by
    intro read hread
    rw [← hsz]
    exact List.mem_map_of_mem hread
  refine ⟨sizes.splitLengths bytes.val, ⟨?_, fun read hread => ?_, fun read hread => ?_⟩, hsz⟩
  · exact List.flatten_splitLengths _ _ (le_of_eq h.sum.symm)
  · exact List.length_pos_iff.1 (h.pos _ (hmem read hread))
  · exact h.le _ (hmem read hread)

end Reader

/-! ## Independence of the reads -/

/-- The head ends less than a read behind its limit, and the response is not too large if the head is read at once. -/
def LateHead (limits : RelayInformationLimits) (bytes : Octets) : Prop :=
  (segmentReader limits bytes).LeapsSoft 4096 bytes.length

/-- The bytes go on beyond the limit of a response less than a read after its end, and it is not too large itself. -/
def Overruns (limits : RelayInformationLimits) (bytes : Octets) : Prop :=
  (segmentReader limits bytes).LeapsCap 4096 bytes.length

/-- **Segmentation.** For every sequence of bytes, any two ways in which the reads split it have the same result, body or error,
exactly if its head is not late and it does not overrun its limit. -/
theorem segmentation_iff (limits : RelayInformationLimits) (bytes : Octets) :
    (∀ reads reads', Splits bytes reads → Splits bytes reads' → exchange limits reads = exchange limits reads') ↔
      ¬ (LateHead limits bytes ∨ Overruns limits bytes) := by
  unfold LateHead Overruns
  rw [← TwoLimits.read_independent_iff]
  constructor
  · intro hsame sizes sizes' hsizes hsizes'
    obtain ⟨reads, hreads, rfl⟩ := splits_of_pieces hsizes
    obtain ⟨reads', hreads', rfl⟩ := splits_of_pieces hsizes'
    rw [← exchange_eq_read hreads, ← exchange_eq_read hreads']
    exact hsame reads reads' hreads hreads'
  · intro hsame reads reads' hreads hreads'
    rw [exchange_eq_read hreads, exchange_eq_read hreads']
    exact hsame _ _ hreads.pieces hreads'.pieces

/-- A response that is complete with a late head is accepted if one read goes over its limit, and refused if a read stops
just behind it. -/
theorem reads_of_late_head {response : Octets} {body : List UInt8}
    (hhead : headEnd response = response.length) (hsoft : maxHeaderBytes + 1 < response.length)
    (hwidth : response.length ≤ maxHeaderBytes + 4096) (hcap : response.length ≤ responseCap limits)
    (hcomplete : tryComplete response false limits = pure (some body)) :
    ∃ reads reads', Splits response reads ∧ Splits response reads' ∧
      exchange limits reads = .ok body ∧ exchange limits reads' = .error .responseTooLarge := by
  have hwhole : response.take response.length = response := Subtype.ext (List.take_of_length_le le_rfl)
  have hstops : stopsAt limits response response.length = true := by
    unfold stopsAt
    rw [hhead, hwhole, hcomplete, decide_eq_true le_rfl]
    rfl
  have hdone : completeAt limits response = response.length := by
    have hle := (stopsAt_iff le_rfl).1 hstops
    have hge : headEnd response ≤ completeAt limits response := (segmentReader limits response).mark_le
    omega
  have hout : (segmentReader limits response).outcome = .ok body := by
    dsimp only [segmentReader]
    rw [hdone, hwhole, hcomplete]
    rfl
  have hbelow : ∀ q, 0 < q → q ≤ maxHeaderBytes → (segmentReader limits response).stop q = none := by
    intro q hpos hle
    refine TwoLimits.stop_eq_none ?_ (fun _ => hle) ?_ <;> dsimp only [segmentReader] <;> omega
  have hleap : maxHeaderBytes + (response.length - maxHeaderBytes) = response.length := by omega
  obtain ⟨reads, hreads, hsz⟩ :=
    splits_of_pieces (Prefixes.pieces_leaping (show 0 < response.length - maxHeaderBytes by omega)
    (show response.length - maxHeaderBytes ≤ 4096 by omega) (le_of_eq hleap))
  obtain ⟨reads', hreads', hsz'⟩ := splits_of_pieces (Prefixes.pieces_leaping Nat.one_pos
    (show 1 ≤ 4096 by decide) (Nat.le_of_lt hsoft))
  refine ⟨reads, reads', hreads, hreads', ?_, ?_⟩
  · rw [exchange_eq_read hreads, hsz, ← hout]
    apply Prefixes.read_leaping hbelow
    rw [hleap]
    exact TwoLimits.stop_of_done hcap (le_of_eq hdone)
  · rw [exchange_eq_read hreads', hsz']
    apply Prefixes.read_leaping hbelow
    refine TwoLimits.stop_of_soft (Nat.lt_succ_self _) ?_
    dsimp only [segmentReader]
    omega

theorem parse_zero : parseUnsigned 10 (2 ^ 64) (trim " 0") = some 0 := by decide +kernel

theorem x_ne_length : eqIgnoreAsciiCase "X" "content-length" = false := by
  rw [eqIgnoreAsciiCase, lower_eq, lower_eq]
  decide +kernel

/-- `Content-Length: 0` -/
def emptyLength : Header where
  name := "Content-Length"
  value := " 0"
  name_ok := by simp
  value_ok := by simp
  length_ok := by simp only [parse_zero, Option.isSome_some, implies_true]

def longHeader (n : Nat) : Header where
  name := "X"
  value := String.ofList (List.replicate n 'a')
  name_ok := by simp
  value_ok := by
    rw [String.toList_ofList]
    exact fun hmem => absurd (List.eq_of_mem_replicate hmem) (by decide)
  length_ok := by simp [x_ne_length]

def longHead (n : Nat) : Head where
  version := .http11
  reason := none
  reason_ok := no_text
  headers := [emptyLength, longHeader n]

theorem length_longHead (n : Nat) : (longHead n).bytes.length = n + 39 := by
  have hv : (utf8 (longHeader n).value).length = n := by
    rw [utf8_of_ascii, List.length_map, longHeader, String.toList_ofList, List.length_replicate]
    intro c hc
    rw [longHeader, String.toList_ofList] at hc
    rw [List.eq_of_mem_replicate hc]
    decide
  have hline : (utf8 (longHeader n).line).length = n + 2 := by
    have hname : (utf8 "X").length = 1 := by decide +kernel
    have hcolon : (utf8 ":").length = 1 := by decide +kernel
    have hnamed : (longHeader n).name = "X" := rfl
    rw [Header.line, hnamed, utf8_append, utf8_append, List.length_append, List.length_append, hv, hname, hcolon]
    omega
  have hline' : (longHead n).statusLine = "HTTP/1.1" ++ " 200" ++ "" := rfl
  have hstat : (utf8 ("HTTP/1.1" ++ " 200" ++ "")).length = 12 := by decide +kernel
  have hempty : (utf8 emptyLength.line).length = 17 := by decide +kernel
  have htext : (longHead n).text = joinLines [(longHead n).statusLine, emptyLength.line, (longHeader n).line] := rfl
  rw [Head.bytes, htext, utf8_joinLines_cons, utf8_joinLines_cons, joinLines, hline']
  simp only [List.length_append, List.length_cons, hstat, hempty, hline, crlfCrlf, List.length_nil]
  omega

def longResponse (n : Nat) (hn : n + 39 < 2 ^ 63) : Octets := ⟨(longHead n).bytes, by rw [length_longHead]; exact hn⟩

section LongResponse
variable (n : Nat) (hn : n + 39 < 2 ^ 63)

theorem length_longResponse : (longResponse n hn).length = n + 39 := length_longHead n

theorem headEnd_longResponse : headEnd (longResponse n hn) = (longResponse n hn).length := by
  have hfind : (longResponse n hn).find crlfCrlf = some (utf8 (longHead n).text).length := by
    have hfound := findFrom_head (longHead n) []
    rwa [List.append_nil] at hfound
  have hb : (longResponse n hn).length = (utf8 (longHead n).text ++ crlfCrlf).length := rfl
  unfold headEnd
  rw [hfind, hb, List.length_append]
  rfl

theorem tryComplete_longResponse (limits : RelayInformationLimits) :
    tryComplete (longResponse n hn) false limits = pure (some []) := by
  have hbuf : (longResponse n hn).val = (longHead n).bytes ++ (⟨[], by simp⟩ : Octets).val := (List.append_nil _).symm
  have hframing : (longHead n).framing = ⟨some 0, false⟩ := by
    have hlen : eqIgnoreAsciiCase "Content-Length" "content-length" = true := by
      rw [eqIgnoreAsciiCase, lower_eq, lower_eq]
      decide +kernel
    have hcoding : eqIgnoreAsciiCase "X" "transfer-encoding" = false := by
      rw [eqIgnoreAsciiCase, lower_eq, lower_eq]
      decide +kernel
    simp only [Head.framing, longHead, List.foldl_cons, List.foldl_nil, Header.addTo, emptyLength, longHeader,
      Header.saysChunked, hlen, x_ne_length, hcoding, parse_zero, if_true, Bool.false_and, Bool.false_eq_true, if_false]
  have hbody : takeBody ⟨some 0, false⟩ false (⟨[], by simp⟩ : Octets) = pure (some []) := rfl
  rw [tryComplete_of_head hbuf, hframing, hbody, pure_bind']
  simp

end LongResponse

/-- A head of `16423` bytes. -/
theorem late_head_depends_on_reads :
    ∃ reads reads', Splits (longResponse maxHeaderBytes (by decide)) reads ∧
      Splits (longResponse maxHeaderBytes (by decide)) reads' ∧
      exchange ⟨65536⟩ reads = .ok [] ∧ exchange ⟨65536⟩ reads' = .error .responseTooLarge := by
  apply reads_of_late_head (headEnd_longResponse _ _) _ _ _ (tryComplete_longResponse _ _ _)
  · rw [length_longResponse]
    omega
  · rw [length_longResponse]
    omega
  · rw [length_longResponse]
    decide

end OmaChat.Nostr
