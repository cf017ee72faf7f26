import OmaChat.Lib.Feed
import OmaChat.Proto.Request

/-!
# The incremental decoder

`RequestDecoder` of `ipc.rs`: the daemon pushes what it has read from a client and gets the requests of the lines that are
complete. The JSON parser is a parameter.

* `lineStep` : what a decoder does with one byte; `pushDecoded_eq` says that a push does that with every byte, but for the
  requests that it has decoded before an error;
* `decoding_of_chunks` : two ways of cutting a stream give the same error, and the same requests exactly if the chunks that have
  the failing byte complete equally many lines before it;
* `retained_bounded_iff` : a decoder retains at most its cap over all pushes, except for what lies behind a line that fails;
* `stream_round_trip` : what is encoded is decoded, for every way of cutting the stream.
-/

namespace OmaChat.Proto
open Wire

def maxCorrelationIdBytes : Nat := 128

inductive IpcError where
  | lineTooLarge (maximum : Nat)
  | malformedJson
  | truncatedLine
  | encoding
  | invalidCorrelationId
  | unsupportedVersion (version : UInt16)
  | versionMismatch (minimum maximum supported : UInt16)
  deriving DecidableEq

def validateRequest (request : Request) : Except IpcError Unit :=
  if request.version.toNat ≠ ipcVersion then .error (.unsupportedVersion request.version)
  else if request.id.isEmpty ∨ maxCorrelationIdBytes < request.id.utf8ByteSize ∨ request.id.toList.any isControl then
    .error .invalidCorrelationId
  else .ok ()

/-- `encode_line` of a request -/
def encodeRequest (request : Request) : Option (List UInt8) := (encodeLine request.json).map utf8

structure RequestDecoder where
  buffer : List UInt8
  maximum : Nat

namespace RequestDecoder

def new (maximum : Nat) : RequestDecoder := ⟨[], maximum⟩

def default : RequestDecoder := new maxLineBytes

def stripReturn (line : List UInt8) : List UInt8 := if line.getLast? = some 13 then line.dropLast else line

section Parser
variable (parse : List UInt8 → Option Request)

def decodeLine (line : List UInt8) : Except IpcError Request :=
  match parse (stripReturn line) with
  | none => .error .malformedJson
  | some request =>
    match validateRequest request with
    | .error error => .error error
    | .ok _ => .ok request

/-- The loop of `push`: the requests that it decodes, the error that ends it, and the buffer that it leaves. -/
def drain (maximum : Nat) (buffer : List UInt8) : List Request × Option IpcError × List UInt8 :=
  match _hnewline : buffer.findIdx? (· = 10) with
  | none => ([], none, buffer)
  | some newline =>
    if maximum < newline then ([], some (.lineTooLarge maximum), buffer.drop (newline + 1))
    else
      match decodeLine parse (buffer.take newline) with
      | .error error => ([], some error, buffer.drop (newline + 1))
      | .ok request =>
        let (decoded, rest) := drain maximum (buffer.drop (newline + 1))
        (request :: decoded, rest)
termination_by buffer.length
decreasing_by
  have hlt := (List.findIdx?_eq_some_iff_getElem.1 _hnewline).1
  rw [List.length_drop]
  omega

/-- `push`, with the requests that it has decoded when it fails -/
def pushDecoded (decoder : RequestDecoder) (bytes : List UInt8) : List Request × Option IpcError × RequestDecoder :=
  let maximum := decoder.maximum
  if maximum < decoder.buffer.length + bytes.length ∧ (10 : UInt8) ∉ bytes.take (maximum - decoder.buffer.length + 1) then
    ([], some (.lineTooLarge maximum), ⟨[], maximum⟩)
  else
    match drain parse maximum (decoder.buffer ++ bytes) with
    | (decoded, some error, buffer) => (decoded, some error, ⟨buffer, maximum⟩)
    | (decoded, none, buffer) =>
      if maximum < buffer.length then (decoded, some (.lineTooLarge maximum), ⟨[], maximum⟩)
      else (decoded, none, ⟨buffer, maximum⟩)

/-- `push`: an error drops what was decoded before it. -/
def push (decoder : RequestDecoder) (bytes : List UInt8) : Except IpcError (List Request) × RequestDecoder :=
  match decoder.pushDecoded parse bytes with
  | (_, some error, decoder') => (.error error, decoder')
  | (decoded, none, decoder') => (.ok decoded, decoder')

def finish (decoder : RequestDecoder) : Except IpcError Unit :=
  if decoder.buffer.isEmpty then .ok () else .error .truncatedLine

/-- Pushing chunk by chunk until the first error, as `serve_client` does. -/
def feed (decoder : RequestDecoder) : List (List UInt8) → List Request × Except IpcError RequestDecoder
  | [] => ([], .ok decoder)
  | chunk :: rest =>
    match decoder.push parse chunk with
    | (.error error, _) => ([], .error error)
    | (.ok decoded, decoder') => (decoded ++ (decoder'.feed rest).1, (decoder'.feed rest).2)

/-! ## Byte by byte -/

/-- What a decoder with part of a line does with the next byte. -/
def lineStep (maximum : Nat) (line : List UInt8) (b : UInt8) : Except IpcError (List UInt8 × List Request) :=
  if b = 10 then
    match decodeLine parse line with
    | .error error => .error error
    | .ok request => .ok ([], [request])
  else if line.length < maximum then .ok (line ++ [b], [])
  else .error (.lineTooLarge maximum)

/-- The byte at which a stream fails: the line feed of a line that does not decode, or the byte that makes a line too long. -/
def failingByte (maximum : Nat) (stream : List UInt8) : Option Nat := Feed.failure (lineStep parse maximum) [] stream

/-- The lines that the chunk with the given byte of the stream completes before it. -/
def linesBefore : List (List UInt8) → Nat → Nat := Feed.before (· = 10)

def Kept (maximum : Nat) (line : List UInt8) : Prop := (10 : UInt8) ∉ line ∧ line.length ≤ maximum

variable {parse} {maximum : Nat} {line bytes rest : List UInt8} {b : UInt8}

theorem lineStep_of_ne (hb : b ≠ 10) (hline : line.length < maximum) :
    lineStep parse maximum line b = .ok (line ++ [b], []) := by
  rw [lineStep, if_neg hb, if_pos hline]

theorem lineStep_of_full (hb : b ≠ 10) (hline : ¬ line.length < maximum) :
    lineStep parse maximum line b = .error (.lineTooLarge maximum) := by
  rw [lineStep, if_neg hb, if_neg hline]

theorem run_of_notMem (hb : (10 : UInt8) ∉ bytes) (hline : line.length + bytes.length ≤ maximum) :
    Feed.run (lineStep parse maximum) line bytes = ([], .ok (line ++ bytes)) := by
  induction bytes generalizing line with
  | nil => rw [List.append_nil, Feed.run]
  | cons b bytes ih =>
    rw [List.mem_cons, not_or] at hb
    rw [List.length_cons] at hline
    rw [Feed.run_cons_ok (lineStep_of_ne (Ne.symm hb.1) (by omega)), ih hb.2 (by simp; omega)]
    simp

theorem run_of_tooLarge (hb : (10 : UInt8) ∉ bytes) (hline : line.length ≤ maximum)
    (hbig : maximum < line.length + bytes.length) :
    Feed.run (lineStep parse maximum) line bytes = ([], .error (.lineTooLarge maximum)) := by
  induction bytes generalizing line with
  | nil =>
    rw [List.length_nil] at hbig
    omega
  | cons b bytes ih =>
    rw [List.mem_cons, not_or] at hb
    rw [List.length_cons] at hbig
    by_cases hroom : line.length < maximum
    · rw [Feed.run_cons_ok (lineStep_of_ne (Ne.symm hb.1) hroom), ih hb.2 (by simp; omega) (by simp; omega)]
      simp
    · exact Feed.run_cons_error (lineStep_of_full (Ne.symm hb.1) hroom)

theorem run_line_tooLarge (hline : (10 : UInt8) ∉ line) (hbig : maximum < line.length) :
    Feed.run (lineStep parse maximum) [] (line ++ 10 :: rest) = ([], .error (.lineTooLarge maximum)) := by
  rw [Feed.run_append, run_of_tooLarge hline (Nat.zero_le maximum) (by simpa using hbig)]

theorem run_kept (hline : Kept maximum line) (bytes : List UInt8) :
    Feed.run (lineStep parse maximum) [] (line ++ bytes) = Feed.run (lineStep parse maximum) line bytes := by
  rw [Feed.run_append, run_of_notMem hline.1 (by simpa using hline.2)]
  rfl

theorem run_line_error {error : IpcError} (hline : Kept maximum line) (h : decodeLine parse line = .error error) :
    Feed.run (lineStep parse maximum) [] (line ++ 10 :: rest) = ([], .error error) := by
  have hstep : lineStep parse maximum line 10 = .error error := by simp [lineStep, h]
  rw [run_kept hline, Feed.run_cons_error hstep]

theorem run_line_ok {request : Request} (hline : Kept maximum line) (h : decodeLine parse line = .ok request) :
    Feed.run (lineStep parse maximum) [] (line ++ 10 :: rest) =
      (request :: (Feed.run (lineStep parse maximum) [] rest).1, (Feed.run (lineStep parse maximum) [] rest).2) := by
  have hstep : lineStep parse maximum line 10 = .ok ([], [request]) := by simp [lineStep, h]
  rw [run_kept hline, Feed.run_cons_ok hstep]
  rfl

/-! ## The loop and the push -/

theorem drain_of_notMem (h : (10 : UInt8) ∉ bytes) : drain parse maximum bytes = ([], none, bytes) := by
  have hnone : bytes.findIdx? (· = 10) = none := by
    rw [List.findIdx?_eq_none_iff]
    intro b hb
    rw [decide_eq_false_iff_not]
    rintro rfl
    exact h hb
  rw [drain]
  split
  · rfl
  · rename_i newline heq
    rw [hnone] at heq
    cases heq

theorem findIdx?_newline (h : (10 : UInt8) ∉ line) : (line ++ 10 :: rest).findIdx? (· = 10) = some line.length := by
  rw [List.findIdx?_append, List.findIdx?_eq_none_iff.2]
  · simp [List.findIdx?_cons]
  · intro b hb
    rw [decide_eq_false_iff_not]
    rintro rfl
    exact h hb

theorem drain_of_line (h : (10 : UInt8) ∉ line) :
    drain parse maximum (line ++ 10 :: rest) =
      if maximum < line.length then ([], some (.lineTooLarge maximum), rest)
      else
        match decodeLine parse line with
        | .error error => ([], some error, rest)
        | .ok request => (request :: (drain parse maximum rest).1, (drain parse maximum rest).2) := by
  have hdrop : (line ++ 10 :: rest).drop (line.length + 1) = rest := by
    rw [List.drop_append, List.drop_of_length_le (Nat.le_succ _), Nat.add_sub_cancel_left]
    rfl
  rw [drain]
  split
  · rename_i heq
    rw [findIdx?_newline h] at heq
    cases heq
  · rename_i newline heq
    rw [findIdx?_newline h] at heq
    cases heq
    rw [hdrop, List.take_left]

/-- The loop and the reader have decoded the same, and the loop has seen the reader's error, unless it left a last line that
is too long. -/
def Agrees (maximum : Nat) (looped : List Request × Option IpcError × List UInt8)
    (read : List Request × Except IpcError (List UInt8)) : Prop :=
  looped.1 = read.1 ∧
    match read.2 with
    | .ok line => Kept maximum line ∧ looped.2 = (none, line)
    | .error error => (∃ left, looped.2 = (some error, left)) ∨
        error = .lineTooLarge maximum ∧ ∃ left, looped.2 = (none, left) ∧ maximum < left.length

variable (parse) in
theorem drain_agrees (maximum : Nat) (bytes : List UInt8) :
    Agrees maximum (drain parse maximum bytes) (Feed.run (lineStep parse maximum) [] bytes) := by
  induction hlen : bytes.length using Nat.strong_induction_on generalizing bytes with
  | _ length ih =>
    by_cases hmem : (10 : UInt8) ∈ bytes
    · obtain ⟨line, rest, rfl, hline⟩ := List.eq_append_cons_of_mem hmem
      rw [drain_of_line hline]
      by_cases hbig : maximum < line.length
      · rw [if_pos hbig, run_line_tooLarge hline hbig]
        exact ⟨rfl, .inl ⟨rest, rfl⟩⟩
      · have hkept : Kept maximum line := ⟨hline, Nat.le_of_not_lt hbig⟩
        rw [if_neg hbig]
        cases hdec : decodeLine parse line with
        | error error =>
          rw [run_line_error hkept hdec]
          exact ⟨rfl, .inl ⟨rest, rfl⟩⟩
        | ok request =>
          rw [run_line_ok hkept hdec]
          have hrest : rest.length < length := by
            rw [← hlen, List.length_append, List.length_cons]
            omega
          obtain ⟨hout, hend⟩ := ih rest.length hrest rest rfl
          exact ⟨congrArg (request :: ·) hout, hend⟩
    · rw [drain_of_notMem hmem]
      by_cases hbig : maximum < bytes.length
      · rw [run_of_tooLarge hmem (Nat.zero_le maximum) (by simpa using hbig)]
        exact ⟨rfl, .inr ⟨rfl, bytes, rfl, hbig⟩⟩
      · have hle : bytes.length ≤ maximum := Nat.le_of_not_lt hbig
        rw [run_of_notMem hmem (by simpa using hle)]
        exact ⟨rfl, ⟨hmem, hle⟩, rfl⟩

variable (parse) in
theorem pushDecoded_eq (hline : Kept maximum line) (bytes : List UInt8) :
    (pushDecoded parse ⟨line, maximum⟩ bytes).1 = (Feed.run (lineStep parse maximum) line bytes).1 ∧
      match (Feed.run (lineStep parse maximum) line bytes).2 with
      | .ok line' => Kept maximum line' ∧ (pushDecoded parse ⟨line, maximum⟩ bytes).2 = (none, ⟨line', maximum⟩)
      | .error error => ∃ decoder', (pushDecoded parse ⟨line, maximum⟩ bytes).2 = (some error, decoder') := by
  unfold pushDecoded
  dsimp only
  by_cases hearly : maximum < line.length + bytes.length ∧ (10 : UInt8) ∉ bytes.take (maximum - line.length + 1)
  · -- the first bytes fill the line, so the reader fails on them already
    obtain ⟨hlong, htake⟩ := hearly
    have hlen : maximum < line.length + (bytes.take (maximum - line.length + 1)).length := by
      rw [List.length_take]
      omega
    have hrun : Feed.run (lineStep parse maximum) line bytes = ([], .error (.lineTooLarge maximum)) := by
      rw [← List.take_append_drop (maximum - line.length + 1) bytes]
      rw [Feed.run_append, run_of_tooLarge htake hline.2 hlen]
    rw [if_pos ⟨hlong, htake⟩, hrun]
    exact ⟨rfl, _, rfl⟩
  · rw [if_neg hearly, ← run_kept hline]
    obtain ⟨hout, hend⟩ := drain_agrees parse maximum (line ++ bytes)
    generalize Feed.run (lineStep parse maximum) [] (line ++ bytes) = read at hout hend
    generalize drain parse maximum (line ++ bytes) = looped at hout hend
    obtain ⟨decoded, error?, left⟩ := looped
    obtain ⟨out, result⟩ := read
    cases result with
    | ok line' =>
      obtain ⟨hkept, heq⟩ := hend
      cases heq
      dsimp only
      rw [if_neg (Nat.not_lt_of_le hkept.2)]
      exact ⟨hout, hkept, rfl⟩
    | error error =>
      rcases hend with ⟨left', heq⟩ | ⟨rfl, left', heq, hlong⟩
      · cases heq
        exact ⟨hout, _, rfl⟩
      · cases heq
        dsimp only
        rw [if_pos hlong]
        exact ⟨hout, _, rfl⟩

/-! ## Chunks -/

theorem push_eq (decoder : RequestDecoder) : decoder.push parse bytes =
    match decoder.pushDecoded parse bytes with
    | (_, some error, decoder') => (.error error, decoder')
    | (decoded, none, decoder') => (.ok decoded, decoder') := rfl

variable (parse) in
theorem feed_eq (hline : Kept maximum line) (chunks : List (List UInt8)) :
    feed parse ⟨line, maximum⟩ chunks = ((Feed.batches (lineStep parse maximum) line chunks).1,
      (Feed.batches (lineStep parse maximum) line chunks).2.2.map fun line => ⟨line, maximum⟩) := by
  induction chunks generalizing line with
  | nil => rfl
  | cons chunk rest ih =>
    obtain ⟨hout, hend⟩ := pushDecoded_eq parse hline chunk
    rw [feed, Feed.batches, push_eq]
    rcases hpush : pushDecoded parse ⟨line, maximum⟩ chunk with ⟨decoded, error?, decoder'⟩
    rcases hrun : Feed.run (lineStep parse maximum) line chunk with ⟨out, error | line'⟩
    · rw [hpush, hrun] at hout hend
      obtain ⟨_, heq⟩ := hend
      cases heq
      rfl
    · rw [hpush, hrun] at hout hend
      obtain ⟨hkept, heq⟩ := hend
      cases heq
      cases hout
      dsimp only
      rw [ih hkept]

theorem kept_nil (maximum : Nat) : Kept maximum [] := ⟨List.not_mem_nil, Nat.zero_le maximum⟩

variable (parse) in
/-- A line feed completes one request, and no other byte does. -/
theorem counts_lineStep (maximum : Nat) : Feed.Counts (lineStep parse maximum) (· = 10) := by
  intro line b line' decoded h
  unfold lineStep at h
  split_ifs at h with hb
  · cases hdec : decodeLine parse line with
    | error error =>
      rw [hdec] at h
      cases h
    | ok request =>
      rw [hdec] at h
      cases h
      simp [hb]
  · cases h
    simp [hb]

/-- Two ways of cutting a stream into chunks end with the same error, or with the same decoder. They give the same requests if
and only if the chunk that has the failing byte completes equally many lines before that byte, in particular if it completes
none. -/
theorem decoding_of_chunks (parse : List UInt8 → Option Request) (maximum : Nat) {chunks chunks' : List (List UInt8)}
    (h : chunks.flatten = chunks'.flatten) :
    ((new maximum).feed parse chunks).2 = ((new maximum).feed parse chunks').2 ∧
      (((new maximum).feed parse chunks).1 = ((new maximum).feed parse chunks').1 ↔
        (failingByte parse maximum chunks.flatten).map (linesBefore chunks) =
          (failingByte parse maximum chunks.flatten).map (linesBefore chunks')) := by
  obtain ⟨hend, hout⟩ := Feed.batches_of_flatten_eq [] (counts_lineStep parse maximum) h
  unfold new
  rw [feed_eq parse (kept_nil maximum), feed_eq parse (kept_nil maximum), hend]
  exact ⟨rfl, hout⟩

end Parser

/-! ### A request and a malformed line -/

def statusRequest : Request := ⟨4, "a", .status⟩

def statusLine : List UInt8 := utf8 (statusRequest.json.render ++ "\n")

def parseStatus (bytes : List UInt8) : Option Request :=
  if bytes = utf8 statusRequest.json.render then some statusRequest else none

/-- The stream cut after its first line, and within both lines. -/
theorem decoding_of_status : ([statusLine, [120, 10]] : List (List UInt8)).flatten =
      [statusLine.take 7, statusLine.drop 7 ++ [120], [10]].flatten ∧
    default.feed parseStatus [statusLine, [120, 10]] =
      default.feed parseStatus [statusLine.take 7, statusLine.drop 7 ++ [120], [10]] := by
  have hflatten : ([statusLine, [120, 10]] : List (List UInt8)).flatten =
      [statusLine.take 7, statusLine.drop 7 ++ [120], [10]].flatten := by
    simp only [List.flatten_cons, List.flatten_nil, List.append_nil]
    rw [List.append_assoc (statusLine.drop 7), ← List.append_assoc, List.take_append_drop]
    rfl
  have hnone : (failingByte parseStatus maxLineBytes [statusLine, [120, 10]].flatten).map (linesBefore [statusLine, [120, 10]]) =
      (failingByte parseStatus maxLineBytes [statusLine, [120, 10]].flatten).map
        (linesBefore [statusLine.take 7, statusLine.drop 7 ++ [120], [10]]) := by decide +kernel
  obtain ⟨hend, hout⟩ := decoding_of_chunks parseStatus maxLineBytes hflatten
  exact ⟨hflatten, Prod.ext (hout.2 hnone) hend⟩

/-- A request is executed if it comes before the malformed line, and dropped if it comes together with it. -/
theorem grouped_request_lost :
    ([statusLine, [120, 10]] : List (List UInt8)).flatten = [statusLine ++ [120, 10]].flatten ∧
    default.feed parseStatus [statusLine, [120, 10]] = ([statusRequest], .error .malformedJson) ∧
    default.feed parseStatus [statusLine ++ [120, 10]] = ([], .error .malformedJson) := by
  unfold default new
  rw [feed_eq parseStatus (kept_nil maxLineBytes), feed_eq parseStatus (kept_nil maxLineBytes)]
  have hapart : Feed.batches (lineStep parseStatus maxLineBytes) [] [statusLine, [120, 10]] =
      ([statusRequest], [], .error .malformedJson) := by decide +kernel
  have htogether : Feed.batches (lineStep parseStatus maxLineBytes) [] [statusLine ++ [120, 10]] =
      ([], [statusRequest], .error .malformedJson) := by decide +kernel
  rw [hapart, htogether]
  exact ⟨by simp, rfl, rfl⟩

/-! ## What is retained -/

section
variable (parse : List UInt8 → Option Request)

def FailingLine (maximum : Nat) (line : List UInt8) : Prop :=
  maximum < line.length ∨ ∃ error, decodeLine parse line = .error error

/-- In a buffer, the first line that ends a push with an error, and what lies behind it. -/
inductive Behind (maximum : Nat) : List UInt8 → List UInt8 → Prop where
  | here {line rest : List UInt8} : (10 : UInt8) ∉ line → FailingLine parse maximum line →
      Behind maximum (line ++ 10 :: rest) rest
  | later {line rest left : List UInt8} : (10 : UInt8) ∉ line → ¬ FailingLine parse maximum line →
      Behind maximum rest left → Behind maximum (line ++ 10 :: rest) left

/-- The bytes fill the line that is kept before a line feed comes. -/
def Overfills (decoder : RequestDecoder) (bytes : List UInt8) : Prop :=
  decoder.maximum < decoder.buffer.length + bytes.length ∧
    (10 : UInt8) ∉ bytes.take (decoder.maximum - decoder.buffer.length + 1)

/-- More than the cap lies behind the first line of a push that fails. -/
def Spills (decoder : RequestDecoder) (bytes : List UInt8) : Prop :=
  ¬ decoder.Overfills bytes ∧
    ∃ left, Behind parse decoder.maximum (decoder.buffer ++ bytes) left ∧ decoder.maximum < left.length

/-- The decoder after some pushes, whatever these returned. -/
def pushes (decoder : RequestDecoder) (chunks : List (List UInt8)) : RequestDecoder :=
  chunks.foldl (fun decoder chunk => (decoder.push parse chunk).2) decoder

variable {parse} {maximum : Nat} {line rest left buffer : List UInt8}

theorem decodeLine_of_not_failing (h : ¬ FailingLine parse maximum line) :
    ¬ maximum < line.length ∧ ∃ request, decodeLine parse line = .ok request := by
  rw [FailingLine, not_or] at h
  refine ⟨h.1, ?_⟩
  cases hdec : decodeLine parse line with
  | error error => exact absurd ⟨error, hdec⟩ h.2
  | ok request => exact ⟨request, rfl⟩

theorem drain_of_failing (hline : (10 : UInt8) ∉ line) (h : FailingLine parse maximum line) :
    ∃ error, drain parse maximum (line ++ 10 :: rest) = ([], some error, rest) := by
  rw [drain_of_line hline]
  by_cases hbig : maximum < line.length
  · exact ⟨_, if_pos hbig⟩
  · obtain ⟨error, herr⟩ := h.resolve_left hbig
    rw [if_neg hbig, herr]
    exact ⟨error, rfl⟩

theorem drain_of_decoded (hline : (10 : UInt8) ∉ line) (h : ¬ FailingLine parse maximum line) :
    (drain parse maximum (line ++ 10 :: rest)).2 = (drain parse maximum rest).2 := by
  obtain ⟨hfits, request, hdec⟩ := decodeLine_of_not_failing h
  rw [drain_of_line hline, if_neg hfits, hdec]

theorem behind_iff : Behind parse maximum buffer left ↔ ∃ error, (drain parse maximum buffer).2 = (some error, left) := by
  constructor
  · intro h
    induction h with
    | here hline hfailing =>
      obtain ⟨error, hdrain⟩ := drain_of_failing hline hfailing
      exact ⟨error, congrArg Prod.snd hdrain⟩
    | later hline hdec _ ih => rwa [drain_of_decoded hline hdec]
  · -- the loop goes on behind a line that it has decoded
    rintro ⟨error, h⟩
    induction hlen : buffer.length using Nat.strong_induction_on generalizing buffer with
    | _ length ih =>
      by_cases hmem : (10 : UInt8) ∈ buffer
      · obtain ⟨line, rest, rfl, hline⟩ := List.eq_append_cons_of_mem hmem
        by_cases hfailing : FailingLine parse maximum line
        · obtain ⟨error', hdrain⟩ := @drain_of_failing parse maximum line rest hline hfailing
          rw [hdrain] at h
          cases h
          exact .here hline hfailing
        · rw [drain_of_decoded hline hfailing] at h
          refine .later hline hfailing (ih rest.length ?_ h rfl)
          rw [← hlen, List.length_append, List.length_cons]
          omega
      · rw [drain_of_notMem hmem] at h
        cases h

variable {decoder : RequestDecoder} {bytes : List UInt8}

theorem push_of_overfills (h : decoder.Overfills bytes) : (decoder.push parse bytes).2 = ⟨[], decoder.maximum⟩ := by
  unfold push pushDecoded
  dsimp only
  rw [if_pos ⟨h.1, h.2⟩]

theorem push_of_failed {error : IpcError} (h : ¬ decoder.Overfills bytes)
    (hdrain : (drain parse decoder.maximum (decoder.buffer ++ bytes)).2 = (some error, left)) :
    (decoder.push parse bytes).2 = ⟨left, decoder.maximum⟩ := by
  unfold Overfills at h
  unfold push pushDecoded
  dsimp only
  rw [if_neg h, ← Prod.mk.eta (p := drain parse decoder.maximum (decoder.buffer ++ bytes)), hdrain]

theorem push_of_drained (h : ¬ decoder.Overfills bytes)
    (hdrain : (drain parse decoder.maximum (decoder.buffer ++ bytes)).2 = (none, left)) :
    (decoder.push parse bytes).2 = ⟨if decoder.maximum < left.length then [] else left, decoder.maximum⟩ := by
  unfold Overfills at h
  unfold push pushDecoded
  dsimp only
  rw [if_neg h, ← Prod.mk.eta (p := drain parse decoder.maximum (decoder.buffer ++ bytes)), hdrain]
  dsimp only
  split_ifs <;> rfl

/-- **A push** retains at most the cap exactly if it does not spill. -/
theorem retained_push_iff (decoder : RequestDecoder) (bytes : List UInt8) :
    (decoder.push parse bytes).2.maximum = decoder.maximum ∧
      ((decoder.push parse bytes).2.buffer.length ≤ decoder.maximum ↔ ¬ decoder.Spills parse bytes) := by
  unfold Spills
  by_cases hover : decoder.Overfills bytes
  · rw [push_of_overfills hover]
    exact ⟨rfl, iff_of_true (Nat.zero_le _) fun h => h.1 hover⟩
  · simp only [behind_iff]
    rcases hdrain : (drain parse decoder.maximum (decoder.buffer ++ bytes)).2 with ⟨_ | error, left⟩
    · rw [push_of_drained hover hdrain]
      refine ⟨rfl, iff_of_true ?_ (by simp)⟩
      dsimp only
      split_ifs with hlong
      · exact Nat.zero_le _
      · exact Nat.le_of_not_lt hlong
    · rw [push_of_failed hover hdrain]
      simp [hover]

theorem maximum_pushes (decoder : RequestDecoder) (chunks : List (List UInt8)) :
    (decoder.pushes parse chunks).maximum = decoder.maximum := by
  induction chunks generalizing decoder with
  | nil => rfl
  | cons chunk chunks ih => exact (ih _).trans (retained_push_iff decoder chunk).1

theorem pushes_concat (decoder : RequestDecoder) (chunks : List (List UInt8)) (chunk : List UInt8) :
    decoder.pushes parse (chunks ++ [chunk]) = ((decoder.pushes parse chunks).push parse chunk).2 := by
  unfold pushes
  rw [List.foldl_append]
  rfl

variable (parse) in
/-- **The memory of a decoder** stays within its cap over a sequence of pushes, whatever these return, exactly if no push of
the sequence spills. -/
theorem retained_bounded_iff (maximum : Nat) (chunks : List (List UInt8)) :
    (∀ pushed, pushed <+: chunks → ((new maximum).pushes parse pushed).buffer.length ≤ maximum) ↔
      ∀ pushed chunk, pushed ++ [chunk] <+: chunks → ¬ ((new maximum).pushes parse pushed).Spills parse chunk := by
  have hstep : ∀ pushed chunk, ((new maximum).pushes parse (pushed ++ [chunk])).buffer.length ≤ maximum ↔
      ¬ ((new maximum).pushes parse pushed).Spills parse chunk := by
    intro pushed chunk
    have hpush := (@retained_push_iff parse ((new maximum).pushes parse pushed) chunk).2
    rwa [maximum_pushes, ← pushes_concat] at hpush
  constructor
  · intro h pushed chunk hpre
    exact (hstep pushed chunk).1 (h _ hpre)
  · intro h pushed hpre
    rcases List.eq_nil_or_concat pushed with rfl | ⟨before, chunk, rfl⟩
    · exact Nat.zero_le maximum
    · rw [List.concat_eq_append] at hpre ⊢
      exact (hstep before chunk).2 (h before chunk hpre)

end

/-- A malformed line with five bytes behind it, for a cap of four. -/
theorem malformed_line_retains :
    (new 4).push parseStatus [120, 10, 120, 120, 120, 120, 120] =
      (.error .malformedJson, ⟨[120, 120, 120, 120, 120], 4⟩) := by
  have hline : (10 : UInt8) ∉ [(120 : UInt8)] := by decide
  have hdrain : drain parseStatus 4 [120, 10, 120, 120, 120, 120, 120] =
      ([], some .malformedJson, [120, 120, 120, 120, 120]) := by
    rw [show ([120, 10, 120, 120, 120, 120, 120] : List UInt8) = [120] ++ 10 :: [120, 120, 120, 120, 120] from rfl,
      drain_of_line hline]
    decide +kernel
  unfold push pushDecoded new
  dsimp only
  rw [if_neg (by decide), List.nil_append, hdrain]

/-! ## The round trip -/

def ValidId (id : String) : Prop :=
  id ≠ "" ∧ id.utf8ByteSize ≤ maxCorrelationIdBytes ∧ ∀ c ∈ id.toList, isControl c = false

variable {request : Request}

theorem validateRequest_ok (hver : request.version.toNat = ipcVersion) (hid : ValidId request.id) :
    validateRequest request = .ok () := by
  obtain ⟨hne, hlen, hctl⟩ := hid
  have hany : request.id.toList.any isControl = false := by
    rw [List.any_eq_false]
    intro c hc
    rw [hctl c hc]
    exact Bool.false_ne_true
  rw [validateRequest, if_neg (not_not.2 hver), if_neg]
  simp only [String.isEmpty_iff, hany, Bool.false_eq_true, or_false, not_or, Nat.not_lt]
  exact ⟨hne, hlen⟩

/-- `serde_json::from_slice` of a request -/
def parseRequest (fromSlice : List UInt8 → Option Json) (line : List UInt8) : Option Request :=
  (fromSlice line).bind Request.fromJson

theorem isText_params {command : Command} {params : List (String × Json)} (h : command.params = some params) :
    Json.IsText 2 (.obj params) := by
  have hnum (n : UInt16) : Json.IsText 1 (.num n.toNat) := .num 1 (Nat.lt_trans n.toNat_lt (by decide))
  have harr {α : Type} (items : List α) (text : α → String) : Json.IsText 1 (.arr (items.map fun a => .str (text a))) := by
    refine .arr fun item hitem => ?_
    obtain ⟨a, -, rfl⟩ := List.mem_map.1 hitem
    exact .str 0 _
  refine .obj fun field hf => ?_
  cases command with
  | hello minimumVersion maximumVersion =>
    cases h
    simp only [List.mem_cons, List.not_mem_nil, or_false] at hf
    rcases hf with rfl | rfl <;> exact hnum _
  | subscribe topics =>
    cases h
    cases List.mem_singleton.1 hf
    exact harr topics Topic.name
  | relaysSet relays =>
    cases h
    cases List.mem_singleton.1 hf
    exact harr relays id
  | send peer text =>
    cases h
    simp only [List.mem_cons, List.not_mem_nil, or_false] at hf
    rcases hf with rfl | rfl <;> exact .str 1 _
  | identityImport | panic | hostedClaimHandle | hostedResolveHandle | contactsAdd | contactsRemove =>
    cases h
    cases List.mem_singleton.1 hf
    exact .str 1 _
  | _ => cases h

theorem isText_json (request : Request) : Json.IsText 3 request.json := by
  have hver : Json.IsText 2 (.num request.version.toNat) := .num 2 (Nat.lt_trans request.version.toNat_lt (by decide))
  refine .obj fun field hf => ?_
  rcases List.mem_append.1 hf with hf | hf
  · simp only [List.mem_cons, List.not_mem_nil, or_false] at hf
    rcases hf with rfl | rfl | rfl
    · exact hver
    · exact .str 2 _
    · exact .str 2 _
  · cases hparams : request.command.params with
    | none =>
      rw [hparams] at hf
      cases hf
    | some params =>
      rw [hparams] at hf
      cases List.mem_singleton.1 hf
      exact isText_params hparams

theorem encodeRequest_eq_some {line : List UInt8} (h : encodeRequest request = some line) :
    line = utf8 request.json.render ++ [10] ∧ (utf8 request.json.render).length ≤ maxLineBytes := by
  unfold encodeRequest encodeLine at h
  by_cases hlong : maxLineBytes < request.json.render.utf8ByteSize
  · rw [if_pos hlong] at h
    cases h
  · rw [if_neg hlong] at h
    cases h
    rw [length_utf8]
    refine ⟨?_, Nat.le_of_not_lt hlong⟩
    rw [utf8_eq_flatMap, utf8_eq_flatMap, String.toList_append, List.flatMap_append]
    rfl

section RoundTrip
variable {fromSlice : List UInt8 → Option Json} (hreads : Json.ReadsText fromSlice)
include hreads

theorem decodeLine_json (hver : request.version.toNat = ipcVersion) (hid : ValidId request.id) :
    decodeLine (parseRequest fromSlice) (utf8 request.json.render) = .ok request := by
  have hstrip : stripReturn (utf8 request.json.render) = utf8 request.json.render := by
    refine if_neg fun hlast => ?_
    have hprintable := Json.le_of_mem_utf8_render (List.mem_of_getLast? hlast)
    revert hprintable
    decide
  have hp : parseRequest fromSlice (utf8 request.json.render) = some request := by
    rw [parseRequest, hreads _ ((isText_json request).mono (by decide)), Option.bind_some, Request.fromJson_json]
  rw [decodeLine, hstrip, hp]
  dsimp only
  rw [validateRequest_ok hver hid]

theorem run_lines {requests : List Request} {lines : List (List UInt8)}
    (hv : ∀ request ∈ requests, request.version.toNat = ipcVersion ∧ ValidId request.id)
    (henc : requests.mapM encodeRequest = some lines) :
    Feed.run (lineStep (parseRequest fromSlice) maxLineBytes) [] lines.flatten = (requests, .ok []) := by
  induction requests generalizing lines with
  | nil =>
    cases henc
    rfl
  | cons request requests ih =>
    obtain ⟨⟨hver, hid⟩, hrest⟩ := List.forall_mem_cons.1 hv
    rw [List.mapM_cons] at henc
    obtain ⟨line, hline, henc⟩ := Option.bind_eq_some_iff.1 henc
    obtain ⟨lines, hlines, henc⟩ := Option.bind_eq_some_iff.1 henc
    cases henc
    obtain ⟨rfl, hlen⟩ := encodeRequest_eq_some hline
    have hkept : Kept maxLineBytes (utf8 request.json.render) := by
      refine ⟨fun hmem => ?_, hlen⟩
      have hprintable := Json.le_of_mem_utf8_render hmem
      revert hprintable
      decide
    rw [List.flatten_cons, List.append_assoc, List.singleton_append,
      run_line_ok hkept (decodeLine_json hreads hver hid), ih hrest hlines]

/-- What is encoded is decoded, however the stream is cut into chunks, and the stream ends where a line ends. -/
theorem stream_round_trip {requests : List Request} {lines chunks : List (List UInt8)}
    (hvalid : ∀ request ∈ requests, request.version.toNat = ipcVersion ∧ ValidId request.id)
    (hencode : requests.mapM encodeRequest = some lines) (hchunks : chunks.flatten = lines.flatten) :
    ∃ decoder, default.feed (parseRequest fromSlice) chunks = (requests, .ok decoder) ∧ decoder.finish = .ok () := by
  have hrun := run_lines hreads hvalid hencode
  rw [← hchunks] at hrun
  refine ⟨⟨[], maxLineBytes⟩, ?_, rfl⟩
  unfold default new
  rw [feed_eq (parseRequest fromSlice) (kept_nil maxLineBytes), Feed.batches_of_run_ok hrun]
  rfl

end RoundTrip

/-- Two requests, cut within the second one. -/
theorem stream_round_trip_two :
    ∃ lines, [statusRequest, ⟨4, "b", .send "ada@example.org" "a\nb"⟩].mapM encodeRequest = some lines ∧
      ∃ decoder, default.feed (parseRequest (Function.partialInv fun value : Json => utf8 value.render))
        [lines.flatten.take 60, lines.flatten.drop 60] =
          ([statusRequest, ⟨4, "b", .send "ada@example.org" "a\nb"⟩], .ok decoder) ∧ decoder.finish = .ok () := by
  have hvalid : ∀ request ∈ [statusRequest, ⟨4, "b", .send "ada@example.org" "a\nb"⟩],
      request.version.toNat = ipcVersion ∧ ValidId request.id := by
    simp only [List.forall_mem_cons]
    refine ⟨⟨rfl, ?_⟩, ⟨rfl, ?_⟩, by simp⟩
    · exact ⟨by decide, by decide, by simpa [statusRequest] using by decide⟩
    · exact ⟨by decide, by decide, by simpa using by decide⟩
  have hencode : ([statusRequest, ⟨4, "b", .send "ada@example.org" "a\nb"⟩].mapM encodeRequest).isSome = true := by
    decide +kernel
  obtain ⟨lines, hlines⟩ := Option.isSome_iff_exists.1 hencode
  exact ⟨lines, hlines, stream_round_trip Json.readsText_partialInv hvalid hlines (by simp)⟩

end RequestDecoder

end OmaChat.Proto
