import OmaChat.Lib.Bytes

/-!
# Which connections are NIP-05 requests

Before the host reads from a connection it peeks at the first bytes, at most 128 of them, until they tell a NIP-05 request
from a session (`nip05_preface`). TCP delivers the bytes in segments, so a peek sees the segments that have arrived.

* `nip05Preface` : the loop, over what its peeks see;
* `preface_eq_iff` : the answer is right exactly if no peek cuts a request between its path and its first line end. A
  request that is cut there, say in the middle of its query, is taken for a session.
-/

namespace OmaChat.Server
open Wire

/-- The first bytes of a NIP-05 request, for each of the three methods. -/
def nip05Prefixes : List (List UInt8) :=
  [utf8 "GET /.well-known/nostr.json", utf8 "HEAD /.well-known/nostr.json", utf8 "OPTIONS /.well-known/nostr.json"]

def isNip05Request (head : List UInt8) : Bool := nip05Prefixes.any fun start => start.isPrefixOf head

/-- `head.windows(2).any(|window| window == b"\r\n")` -/
def hasCrlf : List UInt8 → Bool
  | a :: b :: rest => (a == 13 && b == 10) || hasCrlf (b :: rest)
  | _ => false

/-- The outcome of one peek: the bytes that it saw, none of them at the end of the stream, or a failure, which the deadline
is too. -/
inductive Peek where
  | read (bytes : List UInt8)
  | failed

/-- `buffer.len()` -/
def prefaceBytes : Nat := 128

/-- `nip05_preface`, over the outcomes of its peeks. Without an answer the loop goes on. -/
def nip05Preface : List Peek → Option Bool
  | [] => none
  | .failed :: _ => some false
  | .read head :: rest =>
    if head = [] then some false
    else if hasCrlf head ∨ head.length = prefaceBytes then some (isNip05Request head)
    else if nip05Prefixes.any fun start => head.isPrefixOf start then nip05Preface rest
    else some false

/-! ## Prefixes and line ends -/

variable {head l start : List UInt8}

theorem isNip05Request_iff : isNip05Request l = true ↔ ∃ start ∈ nip05Prefixes, start <+: l := by
  simp [isNip05Request]

theorem hasCrlf_append (h : hasCrlf l = true) (r : List UInt8) : hasCrlf (l ++ r) = true := by
  induction l using hasCrlf.induct with
  | case1 a b rest ih =>
    rw [List.cons_append, List.cons_append, hasCrlf]
    rw [hasCrlf, Bool.or_eq_true] at h
    rcases h with h | h
    · rw [h, Bool.true_or]
    · rw [← List.cons_append, ih h, Bool.or_true]
  | case2 l hl =>
    rw [hasCrlf] at h
    · cases h
    · exact hl

theorem hasCrlf_mono {l' : List UInt8} (hl : l <+: l') (h : hasCrlf l = true) : hasCrlf l' = true := by
  obtain ⟨r, rfl⟩ := hl
  exact hasCrlf_append h r

theorem nip05Prefixes_spec : ∀ start ∈ nip05Prefixes, hasCrlf start = false ∧ start.length < prefaceBytes ∧
    ∀ other ∈ nip05Prefixes, start <+: other → start = other := by
  decide +kernel

theorem part_of_path (hst : start ∈ nip05Prefixes) (hpart : head <+: start) :
    hasCrlf head = false ∧ (nip05Prefixes.any fun start => head.isPrefixOf start) = true := by
  refine ⟨?_, List.any_eq_true.2 ⟨start, hst, List.isPrefixOf_iff_prefix.2 hpart⟩⟩
  rw [Bool.eq_false_iff]
  intro hline
  have hnoline := (nip05Prefixes_spec start hst).1
  rw [hasCrlf_mono hpart hline] at hnoline
  cases hnoline

theorem past_path (hst : start ∈ nip05Prefixes) (hpath : start <+: head)
    (hlen : start.length < head.length) : (nip05Prefixes.any fun start => head.isPrefixOf start) = false := by
  rw [List.any_eq_false]
  intro other hmem hpart
  replace hpart := List.isPrefixOf_iff_prefix.1 hpart
  have heq := (nip05Prefixes_spec start hst).2.2 other hmem (hpath.trans hpart)
  have hle := hpart.length_le
  rw [← heq] at hle
  omega

/-! ## The loop on a growing head -/

/-- The heads that the peeks see: each is a nonempty beginning of the stream, none is shorter than the one before, and the
last one has the first line. -/
structure Sees (stream : List UInt8) (heads : List (List UInt8)) : Prop where
  starts : ∀ head ∈ heads, head <+: stream ∧ head ≠ []
  grows : heads.Pairwise (· <+: ·)
  line : ∃ last, heads.getLast? = some last ∧ hasCrlf last = true

section Loop
variable {stream head : List UInt8} {heads : List (List UInt8)}

def peeks (heads : List (List UInt8)) : List Peek := heads.map fun head => .read (head.take prefaceBytes)

theorem Sees.of_cons (h : Sees stream (head :: heads)) (hhead : hasCrlf head = false) : Sees stream heads := by
  refine ⟨fun other ho => h.starts other (List.mem_cons_of_mem _ ho), (List.pairwise_cons.1 h.grows).2, ?_⟩
  obtain ⟨last, hlast, hline⟩ := h.line
  cases heads with
  | nil =>
    rw [List.getLast?_singleton, Option.some_inj] at hlast
    rw [← hlast, hhead] at hline
    cases hline
  | cons next rest => exact ⟨last, hlast, hline⟩

theorem take_ne_nil (h : head ≠ []) : head.take prefaceBytes ≠ [] := by
  intro htake
  rw [List.take_eq_nil_iff] at htake
  rcases htake with hzero | hnil
  · cases hzero
  · exact h hnil

theorem preface_of_complete (hne : head ≠ []) (hdone : prefaceBytes ≤ head.length ∨ hasCrlf head = true) :
    nip05Preface (peeks (head :: heads)) = some (isNip05Request (head.take prefaceBytes)) := by
  have hdone' : hasCrlf (head.take prefaceBytes) = true ∨ (head.take prefaceBytes).length = prefaceBytes := by
    rcases Nat.lt_or_ge head.length prefaceBytes with hlt | hge
    · rw [List.take_of_length_le (Nat.le_of_lt hlt)]
      rcases hdone with hlong | hline
      · omega
      · exact .inl hline
    · exact .inr (by rw [List.length_take, Nat.min_eq_left hge])
  simp only [peeks, List.map_cons, nip05Preface]
  rw [if_neg (take_ne_nil hne), if_pos hdone']

theorem preface_of_incomplete (hne : head ≠ []) (hlt : head.length < prefaceBytes) (hline : hasCrlf head = false) :
    nip05Preface (peeks (head :: heads)) =
      if nip05Prefixes.any fun start => head.isPrefixOf start then nip05Preface (peeks heads) else some false := by
  have htake : head.take prefaceBytes = head := List.take_of_length_le (Nat.le_of_lt hlt)
  have hnot : ¬ (hasCrlf head = true ∨ head.length = prefaceBytes) := by
    rw [hline]
    rintro (h | h)
    · cases h
    · omega
  simp only [peeks, List.map_cons, nip05Preface, htake]
  rw [if_neg hne, if_neg hnot]

/-- **A request** is recognised, unless a peek sees it go on past its path without a line end. -/
theorem preface_of_request (hst : start ∈ nip05Prefixes) (hstream : start <+: stream) (h : Sees stream heads) :
    nip05Preface (peeks heads) = some true ∧
        (∀ head ∈ heads, start.length < head.length → prefaceBytes ≤ head.length ∨ hasCrlf head = true) ∨
      nip05Preface (peeks heads) = some false ∧
        ∃ head ∈ heads, start.length < head.length ∧ head.length < prefaceBytes ∧ hasCrlf head = false := by
  have hshort := (nip05Prefixes_spec start hst).2.1
  induction heads with
  | nil =>
    obtain ⟨last, hlast, -⟩ := h.line
    cases hlast
  | cons head heads ih =>
    obtain ⟨hhead, hne⟩ := h.starts head List.mem_cons_self
    have hl : ∀ later ∈ heads, head <+: later := (List.pairwise_cons.1 h.grows).1
    by_cases hlen : head.length ≤ start.length
    · -- the head is still a part of the path
      obtain ⟨hline, hany⟩ := part_of_path hst (List.prefix_of_prefix_length_le hhead hstream hlen)
      rw [preface_of_incomplete hne (by omega) hline, if_pos hany]
      rcases ih (h.of_cons hline) with ⟨htrue, hall⟩ | ⟨hfalse, bad, hbad, hcut⟩
      · refine .inl ⟨htrue, ?_⟩
        intro other hmem hlong
        rcases List.mem_cons.1 hmem with rfl | hmem
        · omega
        · exact hall other hmem hlong
      · exact .inr ⟨hfalse, bad, List.mem_cons_of_mem _ hbad, hcut⟩
    · have hpath : start <+: head := List.prefix_of_prefix_length_le hstream hhead (by omega)
      by_cases hdone : prefaceBytes ≤ head.length ∨ hasCrlf head = true
      · -- the first head that goes past the path is complete, and so are the later ones
        left
        rw [preface_of_complete hne hdone]
        refine ⟨congrArg some (isNip05Request_iff.2 ⟨start, hst, ?_⟩), ?_⟩
        · exact List.prefix_take_iff.2 ⟨hpath, Nat.le_of_lt hshort⟩
        · intro other hmem _
          rcases List.mem_cons.1 hmem with rfl | hmem
          · exact hdone
          · rcases hdone with hlong | hline
            · exact .inl (hlong.trans (hl other hmem).length_le)
            · exact .inr (hasCrlf_mono (hl other hmem) hline)
      · right
        rw [not_or, Nat.not_le, Bool.not_eq_true] at hdone
        rw [preface_of_incomplete hne hdone.1 hdone.2, past_path hst hpath (by omega)]
        exact ⟨rfl, head, List.mem_cons_self, by omega, hdone⟩

/-- **Any other stream** is never taken for a request. -/
theorem preface_of_other (hstream : isNip05Request stream = false) (h : Sees stream heads) :
    nip05Preface (peeks heads) = some false := by
  induction heads with
  | nil =>
    obtain ⟨last, hlast, -⟩ := h.line
    cases hlast
  | cons head heads ih =>
    obtain ⟨hhead, hne⟩ := h.starts head List.mem_cons_self
    by_cases hdone : prefaceBytes ≤ head.length ∨ hasCrlf head = true
    · rw [preface_of_complete hne hdone, Option.some_inj, Bool.eq_false_iff]
      intro hreq
      obtain ⟨start, hst, hpath⟩ := isNip05Request_iff.1 hreq
      have htake : head.take prefaceBytes <+: head := List.take_prefix _ _
      have hall : start <+: stream := (hpath.trans htake).trans hhead
      rw [isNip05Request_iff.2 ⟨start, hst, hall⟩] at hstream
      cases hstream
    · rw [not_or, Nat.not_le, Bool.not_eq_true] at hdone
      rw [preface_of_incomplete hne hdone.1 hdone.2]
      split
      · exact ih (h.of_cons hdone.2)
      · rfl

end Loop

/-! ## Segments -/

/-- What has arrived once `k` segments are there. -/
def arrived (segments : List (List UInt8)) (k : Nat) : List UInt8 := (segments.take k).flatten

/-- A peek comes after the path of a request and before its first line end, and the buffer is not full. -/
def CutAfterPath (segments : List (List UInt8)) (polls : List Nat) : Prop :=
  ∃ start ∈ nip05Prefixes, start <+: segments.flatten ∧ ∃ k ∈ polls, start.length < (arrived segments k).length ∧
    (arrived segments k).length < prefaceBytes ∧ hasCrlf (arrived segments k) = false

instance (segments : List (List UInt8)) (polls : List Nat) : Decidable (CutAfterPath segments polls) :=
  inferInstanceAs (Decidable (∃ start ∈ nip05Prefixes, start <+: segments.flatten ∧ ∃ k ∈ polls, _))

theorem arrived_mono {segments : List (List UInt8)} {k k' : Nat} (h : k ≤ k') :
    arrived segments k <+: arrived segments k' :=
  List.IsPrefix.flatten <| List.take_prefix_take_left h

/-- **When the answer does not depend on the segments.** A stream comes in segments, and the peeks, the first of which
waits for bytes, see more and more of them until the first line is there. The loop answers whether the stream starts as a
NIP-05 request, exactly if no peek cuts a request after its path. -/
theorem preface_eq_iff (segments : List (List UInt8)) (polls : List Nat) (hpolls : polls.Pairwise (· ≤ ·))
    (hbytes : ∀ k ∈ polls, arrived segments k ≠ [])
    (hline : ∃ k, polls.getLast? = some k ∧ hasCrlf (arrived segments k) = true) :
    nip05Preface (peeks (polls.map (arrived segments))) = some (isNip05Request segments.flatten) ↔
      ¬ CutAfterPath segments polls := by
  have hsees : Sees segments.flatten (polls.map (arrived segments)) := by
    refine ⟨?_, ?_, ?_⟩
    · intro head hhead
      obtain ⟨k, hk, rfl⟩ := List.mem_map.1 hhead
      exact ⟨List.IsPrefix.flatten <| List.take_prefix k segments, hbytes k hk⟩
    · rw [List.pairwise_map]
      exact hpolls.imp arrived_mono
    · obtain ⟨k, hk, hcrlf⟩ := hline
      exact ⟨_, by rw [List.getLast?_map, hk]; rfl, hcrlf⟩
  cases hrequest : isNip05Request segments.flatten with
  | false =>
    refine iff_of_true (preface_of_other hrequest hsees) ?_
    rintro ⟨start, hstart, hpath, -⟩
    rw [isNip05Request_iff.2 ⟨start, hstart, hpath⟩] at hrequest
    cases hrequest
  | true =>
    obtain ⟨start, hstart, hpath⟩ := isNip05Request_iff.1 hrequest
    rcases preface_of_request hstart hpath hsees with ⟨htrue, hall⟩ | ⟨hfalse, head, hhead, hlong, hshort, hnoline⟩
    · refine iff_of_true htrue ?_
      rintro ⟨other, hother, hpath', k, hk, hlong, hshort, hnoline⟩
      -- the stream starts with one path only
      have hsame : other = start := by
        rcases List.prefix_or_prefix_of_prefix hpath hpath' with hle | hle
        · exact ((nip05Prefixes_spec start hstart).2.2 other hother hle).symm
        · exact (nip05Prefixes_spec other hother).2.2 start hstart hle
      rw [hsame] at hlong
      rcases hall _ (List.mem_map_of_mem hk) hlong with hfull | hcrlf
      · omega
      · rw [hnoline] at hcrlf
        cases hcrlf
    · refine iff_of_false ?_ (not_not.2 ?_)
      · rw [hfalse]
        nofun
      · obtain ⟨k, hk, rfl⟩ := List.mem_map.1 hhead
        exact ⟨start, hstart, hpath, k, hk, hlong, hshort, hnoline⟩

/-- The request for `ada`, cut in its path. -/
theorem preface_eq_iff_cut_in_path :
    nip05Preface (peeks ([1, 2].map (arrived [utf8 "GET /.well-kn", utf8 "own/nostr.json?name=ada HTTP/1.1\r\n"]))) =
      some (isNip05Request ([utf8 "GET /.well-kn", utf8 "own/nostr.json?name=ada HTTP/1.1\r\n"] : List _).flatten) :=
  (preface_eq_iff [utf8 "GET /.well-kn", utf8 "own/nostr.json?name=ada HTTP/1.1\r\n"] [1, 2] (by decide) (by decide)
    ⟨2, rfl, by decide⟩).2 (by decide +kernel)

/-- Cut in the query, the same request is taken for a session. -/
theorem preface_of_cut_query :
    nip05Preface (peeks ([2].map (arrived [utf8 "GET /.well-known/nostr.json?na", utf8 "me=ada HTTP/1.1\r\n"]))) =
        some true ∧
      nip05Preface (peeks ([1, 2].map (arrived [utf8 "GET /.well-known/nostr.json?na", utf8 "me=ada HTTP/1.1\r\n"]))) =
        some false := by
  decide +kernel

end OmaChat.Server
