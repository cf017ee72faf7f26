import OmaChat.Nostr.Suppression

/-!
# What an inbox surfaces once

`DmInbox::receive` on a mutable inbox, and the law of its memory over every history of calls at any clocks.

* `receiveInPlace`, `received_eq` : the method with its state. A call that fails has changed nothing;
* `Line`, `OnceLaw` : what the calls of a history said, and what may be said: an id is a duplicate only if it was accepted
  before, and it is accepted again only when it was forgotten for its age or for the number of ids that came after it;
* `inbox_surfaces_once` : the law of the inbox, and of `RelayPool::remember_event`.
-/

namespace OmaChat.Nostr
open Wire

/-! ## The method with its state -/

/-- `DmInbox::receive`, in place -/
def DmInbox.receiveInPlace (p : Primitives) (giftWrap : SignedEvent) (recipientSecretKey : Bytes 32) (now : UInt64) :
    ExceptT DmInbox.Error (StateM DmInbox) DmInboxReceive := do
  if giftWrap.kind ≠ giftWrapKind then throw (.unexpectedGiftWrapKind giftWrap.kind)
  let recipient ← ofExcept ((xonlyPublicKey p recipientSecretKey).mapError fun _ => .invalidSecretKey)
  ofExcept (requireExactOuterRecipient giftWrap (hexEncode recipient.val))
  let opened ← ofExcept
    ((openGiftWrap p giftWrap recipientSecretKey now (← get).config.eventLimits).mapError .giftWrap)
  if opened.rumor.kind ≠ chatMessageKind then throw (.unexpectedRumorKind opened.rumor.kind)
  if !(← modifyGet (·.remember giftWrap.id now)) then return .duplicate giftWrap.id
  return (← get).applyAuthorPolicy giftWrap opened

/-- The result of the method and the inbox that it leaves. -/
def DmInbox.received (p : Primitives) (inbox : DmInbox) (giftWrap : SignedEvent) (recipientSecretKey : Bytes 32)
    (now : UInt64) : Except DmInbox.Error DmInboxReceive × DmInbox :=
  (DmInbox.receiveInPlace p giftWrap recipientSecretKey now).run.run inbox

/-- A result with the state after it, where an error leaves the state `s`. -/
def settle {ε σ α : Type} (s : σ) : Except ε (α × σ) → Except ε α × σ
  | .ok (a, s') => (.ok a, s')
  | .error error => (.error error, s)

variable {α β ε σ : Type}

theorem run_ofExcept_bind {x : Except ε α} {f : α → ExceptT ε (StateM σ) β} {g : α → Except ε (β × σ)}
    {s : σ} (h : ∀ a, (f a).run.run s = settle s (g a)) : (ofExcept x >>= f).run.run s = settle s (x >>= g) := by
  cases x with
  | error error => rfl
  | ok a => exact h a

theorem run_get_bind (f : σ → ExceptT ε (StateM σ) β) (s : σ) : (get >>= f).run.run s = (f s).run.run s := rfl

theorem run_modifyGet_bind (change : σ → α × σ) (f : α → ExceptT ε (StateM σ) β) (s : σ) :
    (modifyGet change >>= f).run.run s = (f (change s).1).run.run (change s).2 := rfl

/-- **A call that fails leaves the inbox as it was.** -/
theorem received_eq (p : Primitives) (inbox : DmInbox) (giftWrap : SignedEvent) (secret : Bytes 32) (now : UInt64) :
    inbox.received p giftWrap secret now = settle inbox (inbox.receive p giftWrap secret now) := by
  unfold DmInbox.received DmInbox.receiveInPlace DmInbox.receive
  by_cases hkind : giftWrap.kind ≠ giftWrapKind
  · rw [if_pos hkind, if_pos hkind]
    rfl
  rw [if_neg hkind, if_neg hkind]
  apply run_ofExcept_bind
  intro recipient
  apply run_ofExcept_bind
  intro _
  rw [run_get_bind]
  apply run_ofExcept_bind
  intro opened
  by_cases hrumor : opened.rumor.kind ≠ chatMessageKind
  · rw [if_pos hrumor, if_pos hrumor]
    rfl
  rw [if_neg hrumor, if_neg hrumor, run_modifyGet_bind]
  rcases inbox.remember giftWrap.id now with ⟨_ | _, next⟩
  · rfl
  · rfl

/-! ## Histories -/

inductive Verdict where
  /-- a message or a blocked item; for the pool, an event that it had not seen -/
  | accepted
  | duplicate
  | refused
  deriving DecidableEq

/-- A call: its clock, its id, and what it said. -/
structure Line where
  now : Nat
  id : String
  verdict : Verdict

variable {lines : List Line}

def acceptedIds (lines : List Line) : List String := (lines.filter (·.verdict = .accepted)).map (·.id)

/-- The law of a memory with its calls, the latest first. -/
structure OnceLaw (ttl capacity : Nat) (lines : List Line) (m : Recall String) : Prop where
  /-- A duplicate was accepted by an earlier call. -/
  duplicate : ∀ later line earlier, lines = later ++ line :: earlier → line.verdict = .duplicate →
    ∃ first ∈ earlier, first.id = line.id ∧ first.verdict = .accepted
  /-- If an id is accepted twice, some clock up to the second time had reached the first time plus the time to live, or as
  many other ids as the memory can hold were accepted in between. -/
  again : ∀ later line between first earlier, lines = later ++ line :: (between ++ first :: earlier) →
    first.verdict = .accepted → line.verdict = .accepted → line.id = first.id →
    (∃ x ∈ line :: between, first.now + ttl ≤ x.now) ∨ capacity ≤ ((acceptedIds between).toFinset.erase first.id).card
  seen_eq : m.seen = (m.order.map Prod.snd).toFinset
  nodup : (m.order.map Prod.snd).Nodup
  bounded : m.seen.card ≤ capacity

def Line.call? (line : Line) : Option (Recall.Call String) :=
  match line.verdict with
  | .accepted => some ⟨line.now, line.id, true⟩
  | .duplicate => some ⟨line.now, line.id, false⟩
  | .refused => none

theorem accepted_calls (lines : List Line) : Recall.accepted (lines.filterMap Line.call?) = acceptedIds lines := by
  induction lines with
  | nil => rfl
  | cons line lines ih =>
    obtain ⟨now, id, verdict⟩ := line
    unfold acceptedIds Recall.accepted at ih ⊢
    cases verdict <;> simpa [List.filterMap_cons, Line.call?] using ih

theorem mem_acceptedIds {id : String} : id ∈ acceptedIds lines ↔
    ∃ line ∈ lines, line.id = id ∧ line.verdict = .accepted := by
  simp only [acceptedIds, List.mem_map, List.mem_filter, decide_eq_true_eq]
  constructor
  · rintro ⟨line, ⟨hline, hverdict⟩, hid⟩
    exact ⟨line, hline, hid, hverdict⟩
  · rintro ⟨line, hline, hid, hverdict⟩
    exact ⟨line, ⟨hline, hverdict⟩, hid⟩

theorem now_of_mem_calls {c : Recall.Call String} (h : c ∈ lines.filterMap Line.call?) :
    ∃ line ∈ lines, line.now = c.now := by
  obtain ⟨line, hline, hcall⟩ := List.mem_filterMap.1 h
  refine ⟨line, hline, ?_⟩
  unfold Line.call? at hcall
  split at hcall
  · cases hcall
    rfl
  · cases hcall
    rfl
  · cases hcall

theorem OnceLaw.of_recall {ttl capacity : Nat} {m : Recall String}
    (h : Recall.Law ttl capacity (lines.filterMap Line.call?) m) : OnceLaw ttl capacity lines m where
  duplicate := by
    intro later line earlier hlines hverdict
    have hcall : line.call? = some ⟨line.now, line.id, false⟩ := by rw [Line.call?, hverdict]
    have hmem := h.duplicate _ ⟨line.now, line.id, false⟩ _
      (by rw [hlines, List.filterMap_append, List.filterMap_cons_some hcall]) rfl
    rwa [accepted_calls, mem_acceptedIds] at hmem
  again := by
    intro later line between first earlier hlines hf hline hid
    have hcall : line.call? = some ⟨line.now, line.id, true⟩ := by rw [Line.call?, hline]
    have hcall' : first.call? = some ⟨first.now, first.id, true⟩ := by rw [Line.call?, hf]
    have hout := h.again _ ⟨line.now, line.id, true⟩ _ ⟨first.now, first.id, true⟩ _
      (by rw [hlines, List.filterMap_append, List.filterMap_cons_some hcall, List.filterMap_append,
        List.filterMap_cons_some hcall']) rfl rfl hid
    rcases hout with ⟨c, hc, htime⟩ | hcard
    · left
      rw [← List.filterMap_cons_some hcall] at hc
      obtain ⟨x, hx, hnow⟩ := now_of_mem_calls hc
      exact ⟨x, hx, by rw [hnow]; exact htime⟩
    · right
      rw [← List.filterMap_cons_some hcall, accepted_calls] at hcard
      have hsame : acceptedIds (line :: between) = line.id :: acceptedIds between := by simp [acceptedIds, hline]
      rw [hsame, List.toFinset_cons, hid, Finset.erase_insert_eq_erase] at hcard
      exact hcard
  seen_eq := m.seen_eq
  nodup := m.nodup
  bounded := h.bounded

/-! ## The inbox -/

inductive InboxCall where
  | receive (giftWrap : SignedEvent) (recipientSecretKey : Bytes 32) (now : UInt64)
  | blockAuthor (author : String)
  | unblockAuthor (author : String)

/-- What a result of `receive` says about the id. -/
def verdictOf : Except DmInbox.Error DmInboxReceive → Verdict
  | .ok (.message _) => .accepted
  | .ok (.blocked _) => .accepted
  | .ok (.duplicate _) => .duplicate
  | .error _ => .refused

/-- An inbox, and the calls of `receive` so far, the latest first. -/
structure InboxHistory where
  inbox : DmInbox
  lines : List Line

def InboxHistory.next (p : Primitives) (h : InboxHistory) : InboxCall → InboxHistory
  | .receive giftWrap recipientSecretKey now =>
    let (result, inbox) := h.inbox.received p giftWrap recipientSecretKey now
    ⟨inbox, ⟨now.toNat, giftWrap.id, verdictOf result⟩ :: h.lines⟩
  | .blockAuthor author => { h with inbox := (h.inbox.blockAuthor author).toOption.getD h.inbox }
  | .unblockAuthor author => { h with inbox := (h.inbox.unblockAuthor author).toOption.getD h.inbox }

def InboxHistory.run (p : Primitives) (inbox : DmInbox) (calls : List InboxCall) : InboxHistory :=
  calls.foldl (InboxHistory.next p) ⟨inbox, []⟩

structure InboxHistory.Inv (config : DmInboxConfig) (h : InboxHistory) : Prop where
  config_eq : h.inbox.config = config
  law : Recall.Law config.dedupTtlSeconds.toNat config.dedupCapacity (h.lines.filterMap Line.call?) h.inbox.seen

section Inbox
variable {p : Primitives} {config : DmInboxConfig} {h : InboxHistory}

theorem verdict_applyAuthorPolicy (inbox : DmInbox) (giftWrap : SignedEvent) (opened : OpenedGiftWrap) :
    verdictOf (.ok (inbox.applyAuthorPolicy giftWrap opened)) = .accepted := by
  unfold DmInbox.applyAuthorPolicy
  split_ifs <;> rfl

theorem received_cases (p : Primitives) (inbox : DmInbox) (giftWrap : SignedEvent) (secret : Bytes 32) (now : UInt64) :
    (∃ error, inbox.received p giftWrap secret now = (.error error, inbox)) ∨
    ((inbox.received p giftWrap secret now).2 = (inbox.remember giftWrap.id now).2 ∧
      verdictOf (inbox.received p giftWrap secret now).1 =
        if (inbox.remember giftWrap.id now).1 then .accepted else .duplicate) := by
  rw [received_eq]
  cases hrecv : inbox.receive p giftWrap secret now with
  | error error => exact .inl ⟨error, rfl⟩
  | ok x =>
    right
    obtain ⟨received, inbox'⟩ := x
    unfold DmInbox.receive at hrecv
    obtain ⟨-, hrecv⟩ := refuse_ok_iff.1 hrecv
    obtain ⟨recipient, -, hrecv⟩ := bind_ok_iff.1 hrecv
    obtain ⟨-, -, hrecv⟩ := bind_ok_iff.1 hrecv
    obtain ⟨opened, -, hrecv⟩ := bind_ok_iff.1 hrecv
    obtain ⟨-, hrecv⟩ := refuse_ok_iff.1 hrecv
    revert hrecv
    rcases inbox.remember giftWrap.id now with ⟨_ | _, next⟩
    · intro hrecv
      cases hrecv
      exact ⟨rfl, rfl⟩
    · intro hrecv
      cases hrecv
      exact ⟨rfl, verdict_applyAuthorPolicy _ _ _⟩

theorem InboxHistory.Inv.receive (hinv : h.Inv config) (httl : 0 < config.dedupTtlSeconds.toNat)
    (hcap : 0 < config.dedupCapacity) (giftWrap : SignedEvent) (secret : Bytes 32) (now : UInt64) :
    (h.next p (.receive giftWrap secret now)).Inv config := by
  rcases received_cases p h.inbox giftWrap secret now with ⟨error, hrecv⟩ | ⟨hin, hverdict⟩
  · have hnext : h.next p (.receive giftWrap secret now) = ⟨h.inbox, ⟨now.toNat, giftWrap.id, .refused⟩ :: h.lines⟩ := by
      rw [InboxHistory.next, hrecv]
      rfl
    rw [hnext]
    exact ⟨hinv.config_eq, hinv.law⟩
  · have hlaw := hinv.law.remember httl hcap now.toNat giftWrap.id
    have hremember : h.inbox.remember giftWrap.id now =
        ((h.inbox.seen.remember config.dedupTtlSeconds.toNat config.dedupCapacity now.toNat giftWrap.id).1,
          { h.inbox with seen :=
            (h.inbox.seen.remember config.dedupTtlSeconds.toNat config.dedupCapacity now.toNat giftWrap.id).2 }) := by
      rw [← hinv.config_eq]
      rfl
    rw [hremember] at hin hverdict
    refine ⟨?_, ?_⟩
    · show (h.inbox.received p giftWrap secret now).2.config = config
      rw [hin]
      exact hinv.config_eq
    · show Recall.Law _ _ (List.filterMap Line.call?
          (⟨now.toNat, giftWrap.id, verdictOf (h.inbox.received p giftWrap secret now).1⟩ :: h.lines))
        (h.inbox.received p giftWrap secret now).2.seen
      rw [hin, hverdict]
      revert hlaw
      rcases h.inbox.seen.remember config.dedupTtlSeconds.toNat config.dedupCapacity now.toNat giftWrap.id with ⟨_ | _, seen⟩
      · exact id
      · exact id

theorem InboxHistory.Inv.withInbox (hinv : h.Inv config) {change : Except DmInbox.Error DmInbox}
    (hchange : ∀ inbox, change = .ok inbox → inbox.config = h.inbox.config ∧ inbox.seen = h.inbox.seen) :
    InboxHistory.Inv config { h with inbox := change.toOption.getD h.inbox } := by
  cases change with
  | error error => exact hinv
  | ok inbox =>
    obtain ⟨hcfg, hseen⟩ := hchange inbox rfl
    refine ⟨hcfg.trans hinv.config_eq, ?_⟩
    show Recall.Law _ _ _ inbox.seen
    rw [hseen]
    exact hinv.law

theorem InboxHistory.Inv.next (hinv : h.Inv config) (httl : 0 < config.dedupTtlSeconds.toNat)
    (hcap : 0 < config.dedupCapacity) (call : InboxCall) : (h.next p call).Inv config := by
  cases call with
  | receive giftWrap secret now => exact hinv.receive httl hcap giftWrap secret now
  | blockAuthor author =>
    apply hinv.withInbox
    intro inbox hblock
    obtain ⟨-, -, hok⟩ := bind_ok_iff.1 hblock
    cases hok
    exact ⟨rfl, rfl⟩
  | unblockAuthor author =>
    apply hinv.withInbox
    intro inbox hblock
    obtain ⟨-, -, hok⟩ := bind_ok_iff.1 hblock
    cases hok
    exact ⟨rfl, rfl⟩

theorem inv_history {inbox : DmInbox} (hnew : DmInbox.new config = .ok inbox) (calls : List InboxCall) :
    (InboxHistory.run p inbox calls).Inv config := by
  obtain ⟨hcfg, hok⟩ := refuse_ok_iff.1 hnew
  simp only [not_or] at hcfg
  obtain ⟨-, -, hcap, httl⟩ := hcfg
  have hpos : 0 < config.dedupTtlSeconds.toNat := by
    rw [Nat.pos_iff_ne_zero]
    exact fun hzero => httl (UInt64.toNat_inj.1 hzero)
  have hst : InboxHistory.Inv config ⟨inbox, []⟩ := by
    cases hok
    exact ⟨rfl, Recall.Law.empty _ _⟩
  unfold InboxHistory.run
  generalize (⟨inbox, []⟩ : InboxHistory) = start at hst
  induction calls generalizing start with
  | nil => exact hst
  | cons call calls ih => exact ih _ (hst.next hpos (Nat.pos_iff_ne_zero.2 hcap) call)

end Inbox

/-! ## The pool -/

/-- The memory of a pool, and the calls of `remember_event` so far, the latest first. -/
structure PoolHistory (n : Nat) where
  memory : PoolMemory n
  lines : List Line

def PoolHistory.next {n : Nat} (config : RelayPoolConfig) (h : PoolHistory n) (call : Nat × String) : PoolHistory n :=
  let (new, memory) := h.memory.rememberEvent config call.1 call.2
  ⟨memory, ⟨call.1, call.2, if new then .accepted else .duplicate⟩ :: h.lines⟩

/-- The history of calls, with their instants, on the memory of a pool that was spawned. -/
def PoolHistory.run (n : Nat) (config : RelayPoolConfig) (calls : List (Nat × String)) : PoolHistory n :=
  calls.foldl (PoolHistory.next config) ⟨⟨[], .empty⟩, []⟩

theorem law_pool {n : Nat} {config : RelayPoolConfig} (hcap : config.dedupCapacity ≠ 0) (httl : config.dedupTtl ≠ 0)
    (calls : List (Nat × String)) :
    Recall.Law config.dedupTtl config.dedupCapacity ((PoolHistory.run n config calls).lines.filterMap Line.call?)
      (PoolHistory.run n config calls).memory.seen := by
  have hst : Recall.Law config.dedupTtl config.dedupCapacity (List.filterMap Line.call? []) (.empty : Recall String) :=
    Recall.Law.empty _ _
  unfold PoolHistory.run
  generalize hs : (⟨⟨[], .empty⟩, []⟩ : PoolHistory n) = start
  replace hst : Recall.Law config.dedupTtl config.dedupCapacity (start.lines.filterMap Line.call?) start.memory.seen := by
    rw [← hs]
    exact hst
  clear hs
  induction calls generalizing start with
  | nil => exact hst
  | cons call calls ih =>
    apply ih
    have hlaw := hst.remember (Nat.pos_iff_ne_zero.2 httl) (Nat.pos_iff_ne_zero.2 hcap) call.1 call.2
    revert hlaw
    unfold PoolHistory.next PoolMemory.rememberEvent
    rcases start.memory.seen.remember config.dedupTtl config.dedupCapacity call.1 call.2 with ⟨_ | _, seen⟩
    · exact id
    · exact id

/-! ## Exactly once -/

/-- **Exactly once within the window.** In every history of calls on a new inbox, with any events at any clocks: a call that
fails has changed nothing, and the calls and the memory keep the law. So do the calls of `remember_event` on the memory of a
pool with bounds that `RelayPool::spawn` accepts. -/
theorem inbox_surfaces_once (p : Primitives) (config : DmInboxConfig) {inbox : DmInbox}
    (hnew : DmInbox.new config = .ok inbox) (calls : List InboxCall) (n : Nat) (pool : RelayPoolConfig)
    (hcapacity : pool.dedupCapacity ≠ 0) (httl : pool.dedupTtl ≠ 0) (events : List (Nat × String)) :
    (∀ giftWrap secret now error inbox',
      (InboxHistory.run p inbox calls).inbox.received p giftWrap secret now = (.error error, inbox') →
        inbox' = (InboxHistory.run p inbox calls).inbox) ∧
    OnceLaw config.dedupTtlSeconds.toNat config.dedupCapacity (InboxHistory.run p inbox calls).lines
      (InboxHistory.run p inbox calls).inbox.seen ∧
    OnceLaw pool.dedupTtl pool.dedupCapacity (PoolHistory.run n pool events).lines
      (PoolHistory.run n pool events).memory.seen := by
  refine ⟨?_, OnceLaw.of_recall (inv_history hnew calls).law, OnceLaw.of_recall (law_pool hcapacity httl events)⟩
  intro giftWrap secret now error inbox' hreceived
  rcases received_cases p (InboxHistory.run p inbox calls).inbox giftWrap secret now with ⟨_, herror⟩ | ⟨-, hverdict⟩
  · rw [herror] at hreceived
    cases hreceived
    rfl
  · rw [hreceived] at hverdict
    replace hverdict : Verdict.refused = _ := hverdict
    split_ifs at hverdict

/-- An inbox gets a gift wrap twice, and a pool of two relays an event twice and, much later, again. -/
theorem hello_surfaces_once :
    OnceLaw (30 * 24 * 60 * 60) 10000
        (InboxHistory.run (transparent [helloRumor] [helloSeal]) ⟨{}, [], .empty⟩
          [.receive helloWrap ownerKey 1700000001, .receive helloWrap ownerKey 1700000002]).lines
        (InboxHistory.run (transparent [helloRumor] [helloSeal]) ⟨{}, [], .empty⟩
          [.receive helloWrap ownerKey 1700000001, .receive helloWrap ownerKey 1700000002]).inbox.seen ∧
      OnceLaw 300000 10000 [⟨400000, "a", .accepted⟩, ⟨10, "a", .duplicate⟩, ⟨0, "a", .accepted⟩]
        (PoolHistory.run 2 {} [(0, "a"), (10, "a"), (400000, "a")]).memory.seen := by
  have honce := inbox_surfaces_once (transparent [helloRumor] [helloSeal]) {} rfl
    [.receive helloWrap ownerKey 1700000001, .receive helloWrap ownerKey 1700000002] 2 {} (by decide)
    (by decide) [(0, "a"), (10, "a"), (400000, "a")]
  have hlines : (PoolHistory.run 2 {} [(0, "a"), (10, "a"), (400000, "a")]).lines =
      [⟨400000, "a", .accepted⟩, ⟨10, "a", .duplicate⟩, ⟨0, "a", .accepted⟩] := by rfl
  rw [← hlines]
  exact honce.2

end OmaChat.Nostr
