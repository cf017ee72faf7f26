import OmaChat.Nostr.Inbox

/-!
# Deliveries that the pool suppresses

The pool of an inbox remembers an event when it hands it on, before the runtime looks at the subscription and at the relay.
The inbox remembers a gift wrap only once it is opened. So an event that the runtime refused stays in the memory of the pool,
and a later delivery of it by another relay is taken for a duplicate.

* `Session` : a runtime with the ids of the gift wraps that it has surfaced, and of the events that it has refused;
* `Session.Inv` : the memory of the inbox has surfaced ids only, that of the pool surfaced and refused ones;
* `wrap_surfaced_iff` : a gift wrap that was not surfaced before is surfaced exactly if the pool does not remember it.
-/

namespace OmaChat.Nostr
open Wire

variable {authKey secret : Bytes 32} {event : SignedEvent} {id key : String} {inbox : DmInbox} {n : Nat} {now : UInt64}
  {results : List (Except RelayError Unit)}

/-! ## Sessions -/

section
variable (p : Primitives)

/-- The body of the loop of `wait_for_authentication` -/
def authenticate (config : RelayPoolConfig) (recipientPublicKey : String) (authenticatedRelays : Finset (Fin n))
    (memory : PoolMemory n) (arrival : Arrival n) : Except DmInboxRuntimeError (Finset (Fin n) × PoolMemory n) :=
  match memory.take config arrival with
  | (none, memory) => .ok (authenticatedRelays, memory)
  | (some none, _) => .error .stopped
  | (some (some (relay, .authenticated publicKey)), memory) =>
    if publicKey ≠ recipientPublicKey then .error (.unexpectedAuthenticationIdentity relay publicKey)
    else .ok (insert relay authenticatedRelays, memory)
  | (some (some (relay, .authenticationRejected _ message)), _) => .error (.authenticationRejected relay message)
  | (some (some (relay, .connected)), memory) | (some (some (relay, .disconnected)), memory)
  | (some (some (relay, .authChallenge _)), memory) => .ok (authenticatedRelays.erase relay, memory)
  | (some (some _), memory) => .ok (authenticatedRelays, memory)

/-- `wait_for_authentication`, with what arrives before its deadline -/
def waitForAuthentication (config : RelayPoolConfig) (recipientPublicKey : String) :
    Finset (Fin n) → PoolMemory n → List (Arrival n) → Except DmInboxRuntimeError (Finset (Fin n) × PoolMemory n)
  | authenticatedRelays, memory, arrivals =>
    if authenticatedRelays.card < n then
      match arrivals with
      | [] => .error (.authenticationTimeout authenticatedRelays.card n)
      | arrival :: rest => do
        let (authenticatedRelays, memory) ← authenticate config recipientPublicKey authenticatedRelays memory arrival
        waitForAuthentication config recipientPublicKey authenticatedRelays memory rest
    else .ok (authenticatedRelays, memory)

/-- `AuthenticatedDmInboxRuntime::connect`, with what arrives until all relays are authenticated and the results of the
subscription. -/
def InboxState.connect (config : DmInboxRuntimeConfig) (authPublicKey recipientSecretKey : Bytes 32) (arrivals : List (Arrival n))
    (subscriptionResults : List (Except RelayError Unit)) : Except DmInboxRuntimeError (InboxState n) := do
  let recipient ← (xonlyPublicKey p recipientSecretKey).mapError fun _ => .invalidRecipientSecret
  if recipient ≠ authPublicKey then .error .identityMismatch
  else do
    let inbox ← (DmInbox.new config.inbox).mapError .inbox
    let (authenticatedRelays, memory) ←
      waitForAuthentication config.pool (hexEncode recipient.val) ∅ ⟨[], .empty⟩ arrivals
    if subscriptionResults.length ≠ n then .error .stopped
    else
      match (List.range n).zip subscriptionResults |>.find? fun x => !x.2.isOk with
      | some (relayIndex, .error error) => .error (.subscriptionRejected relayIndex error)
      | _ =>
        .ok ⟨⟨inbox, recipientSecretKey, hexEncode recipient.val, authenticatedRelays, config.subscriptionId⟩, memory⟩

/-- What can happen to a runtime: something arrives while it waits in `next_activity`, with the time that this was called
with, or its owner changes whom it blocks. -/
inductive InboxInput (n : Nat) where
  | arrival (now : UInt64) (arrival : Arrival n)
  | blockAuthor (author : String)
  | unblockAuthor (author : String)

/-- The runtime with a new inbox, or an error of the inbox. -/
def InboxState.withInbox (s : InboxState n) :
    Except DmInbox.Error DmInbox → Except DmInboxRuntimeError (Option DmInboxRuntimeActivity) × InboxState n
  | .ok inbox => (.ok none, { s with runtime := { s.runtime with inbox := inbox } })
  | .error error => (.error (.inbox error), s)

def InboxState.step (config : RelayPoolConfig) (s : InboxState n) :
    InboxInput n → Except DmInboxRuntimeError (Option DmInboxRuntimeActivity) × InboxState n
  | .arrival now arrival => s.round p config now arrival
  | .blockAuthor author => s.withInbox (s.runtime.inbox.blockAuthor author)
  | .unblockAuthor author => s.withInbox (s.runtime.inbox.unblockAuthor author)

/-- The gift wrap of a message or of a blocked item. -/
def DmInboxReceive.surfaced : DmInboxReceive → Option String
  | .message item => some item.metadata.giftWrapId
  | .blocked metadata => some metadata.giftWrapId
  | .duplicate _ => none

/-- The gift wrap that `next_activity` returns as a message or as a blocked item. -/
def surfacedBy : Except DmInboxRuntimeError (Option DmInboxRuntimeActivity) → Option String
  | .ok (some (.inbox _ receive)) => receive.surfaced
  | _ => none

def InboxInput.eventId : InboxInput n → Option String
  | .arrival _ ⟨_, some (.event _ event), _⟩ => some event.id
  | _ => none

/-- A runtime, with the ids of the gift wraps that it has surfaced, and of the events that came in and were not. -/
structure Session (n : Nat) where
  state : InboxState n
  surfaced : List String
  refused : List String

def Session.next (config : RelayPoolConfig) (s : Session n) (input : InboxInput n) : Session n :=
  let (x, state) := s.state.step p config input
  ⟨state, (surfacedBy x).toList ++ s.surfaced, (input.eventId.filter (surfacedBy x ≠ some ·)).toList ++ s.refused⟩

/-- The session after all that has happened. What came in before the runtime was connected is refused. -/
def Session.run (config : RelayPoolConfig) (connected : InboxState n) (arrivals : List (Arrival n))
    (inputs : List (InboxInput n)) : Session n :=
  inputs.foldl (Session.next p config)
    ⟨connected, [], arrivals.filterMap fun arrival => (InboxInput.arrival 0 arrival).eventId⟩

end

/-! ## What the memories hold -/

section
variable {p : Primitives}

theorem surfaced_applyAuthorPolicy (inbox : DmInbox) (giftWrap : SignedEvent) (opened : OpenedGiftWrap) :
    (inbox.applyAuthorPolicy giftWrap opened).surfaced = some giftWrap.id := by
  unfold DmInbox.applyAuthorPolicy
  split_ifs <;> rfl

theorem mem_inbox_remember {eventId : String} (h : id ∈ (inbox.remember eventId now).2.seen.seen) :
    id ∈ inbox.seen.seen ∨ id = eventId ∧ (inbox.remember eventId now).1 = true := Recall.mem_remember h

theorem receive_ok {inbox' : DmInbox} {giftWrap : SignedEvent}
    {received : DmInboxReceive} (h : inbox.receive p giftWrap secret now = .ok (received, inbox')) :
    inbox'.config = inbox.config ∧ ∀ id ∈ inbox'.seen.seen, id ∈ inbox.seen.seen ∨ received.surfaced = some id := by
  unfold DmInbox.receive at h
  obtain ⟨-, h⟩ := refuse_ok_iff.1 h
  obtain ⟨recipient, -, h⟩ := bind_ok_iff.1 h
  obtain ⟨-, -, h⟩ := bind_ok_iff.1 h
  obtain ⟨opened, -, h⟩ := bind_ok_iff.1 h
  obtain ⟨-, h⟩ := refuse_ok_iff.1 h
  have hcfg : (inbox.remember giftWrap.id now).2.config = inbox.config := rfl
  have hseen (id : String) (hid : id ∈ (inbox.remember giftWrap.id now).2.seen.seen) := mem_inbox_remember hid
  revert h hcfg hseen
  rcases inbox.remember giftWrap.id now with ⟨_ | _, next⟩
  · intro h hcfg hseen
    cases h
    exact ⟨hcfg, fun id hid => .inl ((hseen id hid).resolve_right (by simp))⟩
  · intro h hcfg hseen
    cases h
    refine ⟨hcfg, fun id hid => (hseen id hid).imp_right ?_⟩
    rintro ⟨rfl, -⟩
    exact surfaced_applyAuthorPolicy _ _ _

theorem mem_take {config : RelayPoolConfig} {memory : PoolMemory n} {arrival : Arrival n}
    (h : id ∈ (memory.take config arrival).2.seen.seen) (now : UInt64) :
    id ∈ memory.seen.seen ∨ (InboxInput.arrival now arrival).eventId = some id := by
  obtain ⟨relay, notification, instant⟩ := arrival
  unfold PoolMemory.take at h
  rcases notification with _ | notification
  · dsimp only at h
    rw [apply_ite Prod.snd, ite_self] at h
    exact .inl h
  · cases notification with
    | event subscriptionId event =>
      have hseen : (memory.rememberEvent config instant event.id).2.seen =
        (memory.seen.remember config.dedupTtl config.dedupCapacity instant event.id).2 := rfl
      have hmem : id ∈ (memory.rememberEvent config instant event.id).2.seen.seen := by
        dsimp only at h
        revert h
        rcases memory.rememberEvent config instant event.id with ⟨_ | _, next⟩
        · exact fun h => h
        · exact fun h => h
      rw [hseen] at hmem
      refine (Recall.mem_remember hmem).imp_right ?_
      rintro ⟨rfl, -⟩
      rfl
    | _ => exact .inl h

theorem onNotification_inbox (runtime : InboxRuntime n) (now : UInt64) (relay : Fin n) (notification : RelayNotification) :
    (runtime.onNotification p now relay notification).2.recipientSecretKey = runtime.recipientSecretKey ∧
    (runtime.onNotification p now relay notification).2.subscriptionId = runtime.subscriptionId ∧
    (runtime.onNotification p now relay notification).2.inbox.config = runtime.inbox.config ∧
    ∀ id ∈ (runtime.onNotification p now relay notification).2.inbox.seen.seen,
      id ∈ runtime.inbox.seen.seen ∨ surfacedBy (runtime.onNotification p now relay notification).1 = some id := by
  cases notification with
  | event subscriptionId event =>
    unfold InboxRuntime.onNotification
    dsimp only
    by_cases hsub : subscriptionId ≠ runtime.subscriptionId
    · rw [if_pos hsub]
      exact ⟨rfl, rfl, rfl, fun _ => .inl⟩
    by_cases hr : relay ∉ runtime.authenticatedRelays
    · rw [if_neg hsub, if_pos hr]
      exact ⟨rfl, rfl, rfl, fun _ => .inl⟩
    · rw [if_neg hsub, if_neg hr]
      cases hrecv : runtime.inbox.receive p event runtime.recipientSecretKey now with
      | error error => exact ⟨rfl, rfl, rfl, fun _ => .inl⟩
      | ok received =>
        obtain ⟨hcfg, hseen⟩ := receive_ok hrecv
        exact ⟨rfl, rfl, hcfg, hseen⟩
  | authenticated publicKey =>
    unfold InboxRuntime.onNotification
    dsimp only
    split_ifs <;> exact ⟨rfl, rfl, rfl, fun _ => .inl⟩
  | closed subscriptionId message =>
    unfold InboxRuntime.onNotification
    dsimp only
    split_ifs <;> exact ⟨rfl, rfl, rfl, fun _ => .inl⟩
  | _ => exact ⟨rfl, rfl, rfl, fun _ => .inl⟩

structure Session.Inv (config : DmInboxRuntimeConfig) (secret : Bytes 32) (t : Session n) : Prop where
  secret : t.state.runtime.recipientSecretKey = secret
  subscription : t.state.runtime.subscriptionId = config.subscriptionId
  config : t.state.runtime.inbox.config = config.inbox
  inbox : ∀ id ∈ t.state.runtime.inbox.seen.seen, id ∈ t.surfaced
  pool : ∀ id ∈ t.state.memory.seen.seen, id ∈ t.surfaced ∨ id ∈ t.refused

variable {config : DmInboxRuntimeConfig} {t : Session n}

section
variable (h : t.Inv config secret)
include h

theorem Session.Inv.next (input : InboxInput n)
    (hsec : (t.state.step p config.pool input).2.runtime.recipientSecretKey = t.state.runtime.recipientSecretKey)
    (hsub : (t.state.step p config.pool input).2.runtime.subscriptionId = t.state.runtime.subscriptionId)
    (hcfg : (t.state.step p config.pool input).2.runtime.inbox.config = t.state.runtime.inbox.config)
    (hin : ∀ id ∈ (t.state.step p config.pool input).2.runtime.inbox.seen.seen,
      id ∈ t.state.runtime.inbox.seen.seen ∨ surfacedBy (t.state.step p config.pool input).1 = some id)
    (hpool : ∀ id ∈ (t.state.step p config.pool input).2.memory.seen.seen,
      id ∈ t.state.memory.seen.seen ∨ input.eventId = some id) :
    (t.next p config.pool input).Inv config secret where
  secret := hsec.trans h.secret
  subscription := hsub.trans h.subscription
  config := hcfg.trans h.config
  inbox id hid := by
    rcases hin id hid with hold | hnew
    · exact List.mem_append_right _ (h.inbox id hold)
    · exact List.mem_append_left _ (Option.mem_toList.2 hnew)
  pool id hid := by
    rcases hpool id hid with hold | hnew
    · exact (h.pool id hold).imp (List.mem_append_right _) (List.mem_append_right _)
    · by_cases hsurfaced : surfacedBy (t.state.step p config.pool input).1 = some id
      · exact .inl (List.mem_append_left _ (Option.mem_toList.2 hsurfaced))
      · exact .inr (List.mem_append_left _ (Option.mem_toList.2 (Option.filter_eq_some_iff.2 ⟨hnew,
          decide_eq_true hsurfaced⟩)))

theorem Session.Inv.arrival (now : UInt64) (arrival : Arrival n) :
    (t.next p config.pool (.arrival now arrival)).Inv config secret := by
  have htake (id : String) (hid : id ∈ (t.state.memory.take config.pool arrival).2.seen.seen) := mem_take hid now
  have hstep : t.state.step p config.pool (.arrival now arrival) = t.state.round p config.pool now arrival := rfl
  unfold InboxState.round at hstep
  revert htake hstep
  rcases t.state.memory.take config.pool arrival with ⟨_ | _ | ⟨relay, notification⟩, memory⟩
  · intro htake hstep
    refine h.next _ ?_ ?_ ?_ ?_ ?_ <;> rw [hstep]
    · exact fun _ => .inl
    · exact htake
  · intro htake hstep
    refine h.next _ ?_ ?_ ?_ ?_ ?_ <;> rw [hstep]
    · exact fun _ => .inl
    · exact htake
  · intro htake hstep
    obtain ⟨hsec, hsub, hcfg, hin⟩ := onNotification_inbox (p := p) t.state.runtime now relay notification
    refine h.next _ ?_ ?_ ?_ ?_ ?_ <;> rw [hstep]
    · exact hsec
    · exact hsub
    · exact hcfg
    · exact hin
    · exact htake

theorem Session.Inv.withInbox {input : InboxInput n} (change : DmInbox → DmInbox)
    (hcfg : ∀ inbox, (change inbox).config = inbox.config) (hseen : ∀ inbox, (change inbox).seen = inbox.seen)
    {author : String} (hstep : t.state.step p config.pool input = t.state.withInbox (do
      DmInbox.validateXonly author
      .ok (change t.state.runtime.inbox))) :
    (t.next p config.pool input).Inv config secret := by
  cases hauth : DmInbox.validateXonly author with
  | error error =>
    have hsame : (t.state.step p config.pool input).2 = t.state := by
      rw [hstep, hauth]
      rfl
    refine h.next _ ?_ ?_ ?_ ?_ ?_ <;> rw [hsame]
    · exact fun _ => .inl
    · exact fun _ => .inl
  | ok _ =>
    have hchange : (t.state.step p config.pool input).2 =
        ⟨{ t.state.runtime with inbox := change t.state.runtime.inbox }, t.state.memory⟩ := by
      rw [hstep, hauth]
      rfl
    refine h.next _ ?_ ?_ ?_ ?_ ?_ <;> rw [hchange]
    · exact hcfg _
    · rw [hseen]
      exact fun _ => .inl
    · exact fun _ => .inl

theorem Session.Inv.step (input : InboxInput n) : (t.next p config.pool input).Inv config secret := by
  cases input with
  | arrival now arrival => exact h.arrival now arrival
  | blockAuthor author =>
    exact h.withInbox (fun inbox => { inbox with blockedAuthors := author :: inbox.blockedAuthors }) (fun _ => rfl)
      (fun _ => rfl) rfl
  | unblockAuthor author =>
    exact h.withInbox (fun inbox => { inbox with blockedAuthors := inbox.blockedAuthors.filter (· ≠ author) })
      (fun _ => rfl) (fun _ => rfl) rfl

end

/-! ## Connecting -/

section
variable {authenticated authenticated' : Finset (Fin n)} {memory memory' : PoolMemory n}

theorem mem_authenticate
    {arrival : Arrival n} (h : authenticate config.pool key authenticated memory arrival = .ok (authenticated', memory')) :
    memory' = (memory.take config.pool arrival).2 := by
  unfold authenticate at h
  revert h
  rcases memory.take config.pool arrival with ⟨_ | _ | ⟨relay, notification⟩, next⟩
  · intro h
    cases h
    rfl
  · intro h
    cases h
  · cases notification with
    | authenticated publicKey =>
      intro h
      obtain ⟨-, h⟩ := refuse_ok_iff.1 h
      cases h
      rfl
    | authenticationRejected publicKey message =>
      intro h
      cases h
    | _ =>
      intro h
      cases h
      rfl

theorem mem_waitForAuthentication {arrivals : List (Arrival n)}
    (h : waitForAuthentication config.pool key authenticated memory arrivals = .ok (authenticated', memory'))
    (hid : id ∈ memory'.seen.seen) :
    id ∈ memory.seen.seen ∨ id ∈ arrivals.filterMap fun arrival => (InboxInput.arrival 0 arrival).eventId := by
  induction arrivals generalizing authenticated memory with
  | nil =>
    unfold waitForAuthentication at h
    split_ifs at h
    cases h
    exact .inl hid
  | cons arrival rest ih =>
    unfold waitForAuthentication at h
    split_ifs at h
    · obtain ⟨⟨authenticated₁, memory₁⟩, hf, hrest⟩ := bind_ok_iff.1 h
      rcases ih hrest with hold | hnew
      · rw [mem_authenticate hf] at hold
        refine (mem_take hold 0).imp_right fun heq => ?_
        rw [List.filterMap_cons, heq]
        exact List.mem_cons_self
      · refine .inr ?_
        rw [List.mem_filterMap] at hnew ⊢
        obtain ⟨other, ho, heq⟩ := hnew
        exact ⟨other, List.mem_cons_of_mem _ ho, heq⟩
    · cases h
      exact .inl hid

end

section
variable {arrivals : List (Arrival n)} {s : InboxState n}
    (h : InboxState.connect p config authKey secret arrivals results = .ok s)
include h

theorem inv_connect : (Session.run p config.pool s arrivals []).Inv config secret := by
  unfold InboxState.connect at h
  obtain ⟨recipient, -, h⟩ := bind_ok_iff.1 h
  obtain ⟨-, h⟩ := refuse_ok_iff.1 h
  obtain ⟨inbox, hin, h⟩ := bind_ok_iff.1 h
  obtain ⟨⟨authenticated, memory⟩, hwait, h⟩ := bind_ok_iff.1 h
  obtain ⟨-, h⟩ := refuse_ok_iff.1 h
  obtain ⟨-, hnew⟩ := refuse_ok_iff.1 (mapError_ok_iff.1 hin)
  cases hnew
  split at h
  · cases h
  · cases h
    refine ⟨rfl, rfl, rfl, fun id hid => ?_, fun id hid => .inr ?_⟩
    · exact absurd hid (Finset.notMem_empty id)
    · exact (mem_waitForAuthentication hwait hid).resolve_left (Finset.notMem_empty id)

theorem inv_run (inputs : List (InboxInput n)) : (Session.run p config.pool s arrivals inputs).Inv config secret := by
  refine List.foldlRecOn (motive := fun t : Session n => t.Inv config secret) inputs (Session.next p config.pool)
    (inv_connect h) fun t ht input _ => ht.step input

end

end

/-! ## Deliveries -/

section
variable {p : Primitives}

/-- A valid chat gift wrap for the owner of the secret key. -/
structure ChatWrap (p : Primitives) (limits : EventLimits) (secret : Bytes 32) (now : UInt64) (event : SignedEvent) :
    Prop where
  kind : event.kind = giftWrapKind
  opens : ∃ sealEvent rumor, Opens p event secret now limits sealEvent rumor ∧ rumor.kind = chatMessageKind

theorem receive_chatWrap (hwrap : ChatWrap p inbox.config.eventLimits secret now event) (hfresh : event.id ∉ inbox.seen.seen) :
    ∃ received inbox', inbox.receive p event secret now = .ok (received, inbox') ∧ received.surfaced = some event.id := by
  obtain ⟨hkind, sealEvent, rumor, hopens, hrumor⟩ := hwrap
  obtain ⟨recipient, hrcpt, htags⟩ := hopens.recipient
  have hexact : DmInbox.requireExactOuterRecipient event (hexEncode recipient.val) = .ok () := by
    have hmap : (event.tags.filter fun tag => tag.head? = some "p").filterMap (·[1]?) =
        ((event.tags.filter fun tag => tag.head? = some "p").map (·[1]?)).filterMap id := by
      rw [List.filterMap_map]
      rfl
    refine if_pos ?_
    rw [hmap, htags]
    rfl
  have hnew : (inbox.remember event.id now).1 = true :=
    Recall.remember_isNew.2 fun hmem => hfresh (Recall.forgetWhile_subset _ _ hmem)
  refine ⟨(inbox.remember event.id now).2.applyAuthorPolicy event ⟨sealEvent, rumor⟩, (inbox.remember event.id now).2, ?_,
    surfaced_applyAuthorPolicy _ _ _⟩
  refine refuse_ok_iff.2 ⟨not_not.2 hkind,
    bind_ok_iff.2 ⟨recipient, mapError_ok_iff.2 (xonlyPublicKey_ok_iff.2 hrcpt), ?_⟩⟩
  refine bind_ok_iff.2 ⟨(), hexact, bind_ok_iff.2 ⟨_, mapError_ok_iff.2 (openGiftWrap_ok_iff.2 hopens), ?_⟩⟩
  refine refuse_ok_iff.2 ⟨not_not.2 hrumor, ?_⟩
  revert hnew
  rcases inbox.remember event.id now with ⟨new, next⟩
  rintro rfl
  rfl

section Round
variable {s : InboxState n} {config : RelayPoolConfig} {relay : Fin n} {subscriptionId : String} {instant : Nat}

theorem round_of_remembered (h : event.id ∈ (s.memory.seen.expire config.dedupTtl instant).seen) :
    (s.round p config now ⟨relay, some (.event subscriptionId event), instant⟩).1 = .ok none := by
  have hold : (s.memory.rememberEvent config instant event.id).1 = false := by
    rw [← Bool.not_eq_true]
    exact fun hnew => Recall.remember_isNew.1 hnew h
  unfold InboxState.round PoolMemory.take
  dsimp only
  revert hold
  rcases s.memory.rememberEvent config instant event.id with ⟨new, memory⟩
  rintro rfl
  rfl

theorem round_of_new (h : event.id ∉ (s.memory.seen.expire config.dedupTtl instant).seen) :
    (s.round p config now ⟨relay, some (.event subscriptionId event), instant⟩).1 =
      (s.runtime.onNotification p now relay (.event subscriptionId event)).1 := by
  have hnew : (s.memory.rememberEvent config instant event.id).1 = true := Recall.remember_isNew.2 h
  unfold InboxState.round PoolMemory.take
  dsimp only
  revert hnew
  rcases s.memory.rememberEvent config instant event.id with ⟨new, memory⟩
  rintro rfl
  rfl

end Round

/-- A gift wrap that a relay delivers under the subscription of the inbox, authenticated, and that was not surfaced before, is
surfaced exactly if the pool does not remember its id. It does so only after an earlier delivery of it that was refused. -/
theorem wrap_surfaced_iff (config : DmInboxRuntimeConfig) {authKey secret : Bytes 32} {arrivals : List (Arrival n)}
    {results : List (Except RelayError Unit)} {connected : InboxState n}
    (hconnect : InboxState.connect p config authKey secret arrivals results = .ok connected) (inputs : List (InboxInput n))
    {relay : Fin n} {event : SignedEvent} {instant : Nat} {now : UInt64}
    (hrelay : relay ∈ (Session.run p config.pool connected arrivals inputs).state.runtime.authenticatedRelays)
    (hwrap : ChatWrap p config.inbox.eventLimits secret now event)
    (hfresh : event.id ∉ (Session.run p config.pool connected arrivals inputs).surfaced) :
    let t := Session.run p config.pool connected arrivals inputs
    let remembered := (t.state.memory.seen.expire config.pool.dedupTtl instant).seen
    ((∃ received, (t.state.round p config.pool now ⟨relay, some (.event config.subscriptionId event), instant⟩).1 =
        .ok (some (.inbox relay received)) ∧ received.surfaced = some event.id) ↔ event.id ∉ remembered) ∧
      (event.id ∈ remembered → event.id ∈ t.refused) := by
  intro t remembered
  have hinv : t.Inv config secret := inv_run hconnect inputs
  refine ⟨⟨?_, fun hnew => ?_⟩, fun hmem => ?_⟩
  · rintro ⟨received, hround, -⟩ hmem
    rw [round_of_remembered hmem] at hround
    cases hround
  · rw [round_of_new hnew]
    obtain ⟨received, inbox, hreceive, hsurfaced⟩ : ∃ received inbox,
        t.state.runtime.inbox.receive p event t.state.runtime.recipientSecretKey now = .ok (received, inbox) ∧
          received.surfaced = some event.id := by
      refine receive_chatWrap ?_ fun hmem => hfresh (hinv.inbox _ hmem)
      rw [hinv.config, hinv.secret]
      exact hwrap
    refine ⟨received, ?_, hsurfaced⟩
    unfold InboxRuntime.onNotification
    dsimp only
    rw [if_neg (not_not.2 hinv.subscription.symm), if_neg (not_not.2 hrelay), hreceive]
  · exact (hinv.pool _ (Recall.forgetWhile_subset _ _ hmem)).resolve_left hfresh

/-! ## Two relays -/

/-- The secret key of the owner of the inbox, and the public key as well. -/
def ownerKey : Bytes 32 := Bytes.replicate 32 7

/-- The rumor, the seal and the gift wrap of a message to the owner. -/
def helloRumor : Rumor := chatRumor (Bytes.replicate 32 9) ownerKey 1700000000 "hello"

def helloSeal : SignedEvent := sealOf helloRumor (Bytes.replicate 32 9) 1700000000

def helloWrap : SignedEvent := wrapOf helloSeal ownerKey (Bytes.replicate 32 5) 1700000000

theorem chatWrap_hello : ChatWrap (transparent [helloRumor] [helloSeal]) {} ownerKey 1700000001 helloWrap where
  kind := rfl
  opens := ⟨helloSeal, helloRumor,
    openGiftWrap_ok_iff.1 (transparent_opens_chat (by decide) 1700000001 (by decide) (by decide)), rfl⟩

def authentications : List (Arrival 2) :=
  [⟨0, some (.authenticated (hexEncode ownerKey.val)), 0⟩, ⟨1, some (.authenticated (hexEncode ownerKey.val)), 0⟩]

def connectedInbox : InboxState 2 :=
  ⟨⟨⟨{}, [], .empty⟩, ownerKey, hexEncode ownerKey.val, {1, 0}, "omachat-nip17-inbox"⟩, ⟨[], .empty⟩⟩

theorem connect_authentications (rumors : List Rumor) (seals : List SignedEvent) :
    InboxState.connect (transparent rumors seals) {} ownerKey ownerKey authentications [.ok (), .ok ()] = .ok connectedInbox := by
  rfl

/-- The wrap that only an authenticated relay has delivered is surfaced. -/
theorem hello_surfaced :
    let p := transparent [helloRumor] [helloSeal]
    let t := Session.run p {} connectedInbox authentications []
    InboxState.connect p {} ownerKey ownerKey authentications [.ok (), .ok ()] = .ok connectedInbox ∧
      1 ∈ t.state.runtime.authenticatedRelays ∧ ChatWrap p {} ownerKey 1700000001 helloWrap ∧
      helloWrap.id ∉ t.surfaced ∧
      ∃ received, (t.state.round p {} 1700000001 ⟨1, some (.event "omachat-nip17-inbox" helloWrap), 2000⟩).1 =
        .ok (some (.inbox 1 received)) ∧ received.surfaced = some helloWrap.id :=
  ⟨connect_authentications _ _, by decide, chatWrap_hello, List.not_mem_nil,
    (wrap_surfaced_iff {} (connect_authentications _ _) [] (by decide) chatWrap_hello List.not_mem_nil).1.2
      (Finset.notMem_empty _)⟩

/-- An event that relay 0 delivers under another subscription: the runtime ignores it, and the pool remembers it. -/
theorem run_other (p : Primitives) (event : SignedEvent) :
    let t := Session.run p {} connectedInbox authentications [.arrival 1700000001 ⟨0, some (.event "other" event), 1000⟩]
    t.state.runtime = connectedInbox.runtime ∧ t.surfaced = [] ∧ t.state.memory.seen.order = [(1000, event.id)] :=
  ⟨rfl, rfl, rfl⟩

/-- Relay 0 has delivered the wrap under another subscription, and now relay 1 delivers it as it should. -/
theorem hello_suppressed :
    let p := transparent [helloRumor] [helloSeal]
    let t := Session.run p {} connectedInbox authentications [.arrival 1700000001 ⟨0, some (.event "other" helloWrap), 1000⟩]
    InboxState.connect p {} ownerKey ownerKey authentications [.ok (), .ok ()] = .ok connectedInbox ∧
      1 ∈ t.state.runtime.authenticatedRelays ∧ ChatWrap p {} ownerKey 1700000001 helloWrap ∧
      helloWrap.id ∉ t.surfaced ∧
      (t.state.round p {} 1700000001 ⟨1, some (.event "omachat-nip17-inbox" helloWrap), 2000⟩).1 = .ok none := by
  intro p t
  obtain ⟨hruntime, hsurfaced, horder⟩ := run_other p helloWrap
  refine ⟨connect_authentications _ _, ?_, chatWrap_hello, ?_, round_of_remembered ?_⟩
  · rw [hruntime]
    decide
  · rw [hsurfaced]
    exact List.not_mem_nil
  · have hrecent : t.state.memory.seen.expire ({} : RelayPoolConfig).dedupTtl 2000 = t.state.memory.seen := by
      refine Recall.expire_of_recent fun entry hentry => ?_
      rw [horder, List.head?_cons, Option.mem_some_iff] at hentry
      rw [← hentry]
      decide
    rw [hrecent, Recall.mem_seen, horder]
    exact List.mem_singleton_self _

end

end OmaChat.Nostr
