import Mathlib.Data.List.MinMax
import Mathlib.Data.Prod.Lex
import Mathlib.Data.String.Basic
import OmaChat.Nostr.Discovery
import OmaChat.Nostr.Readers

/-!
# The winner of a discovery

NIP-01 says which of the replaceable events of an author is kept. Two discoveries and a cache choose one in loops of their
own.

* `Winner` : the event that NIP-01 keeps of a set of events;
* `Query.loop_eq` : a query that is not refused ends with the best of the valid events that it received;
* `DmRelayDiscovery.selects_iff`, `ReplaceableDiscovery.selects_iff` : when the best is the winner;
* `discoveries_select_winner_iff` : the three together.
-/

namespace OmaChat.Nostr
open Wire

variable {d : DmRelayDiscovery} {event : SignedEvent} {n : Nat}

/-! ## The winner -/

/-- NIP-01: of the replaceable events of an author the newest is kept, and of several newest the one with the lowest id. -/
def Winner (events : Set SignedEvent) (event : SignedEvent) : Prop :=
  event ∈ events ∧ ∀ other ∈ events, other.createdAt < event.createdAt ∨ other.createdAt = event.createdAt ∧
    event.id ≤ other.id

def Newest (events : Set SignedEvent) (event : SignedEvent) : Prop :=
  event ∈ events ∧ ∀ other ∈ events, other.createdAt ≤ event.createdAt

/-- The orders in which the discoveries compare events. -/
def lowestKey (event : SignedEvent) : ℕ ×ₗ Stringᵒᵈ := toLex (event.createdAt.toNat, OrderDual.toDual event.id)

def highestKey (event : SignedEvent) : ℕ ×ₗ String := toLex (event.createdAt.toNat, event.id)

variable {other : SignedEvent} {events : List SignedEvent}

theorem lowestKey_le_iff : lowestKey other ≤ lowestKey event ↔
    other.createdAt < event.createdAt ∨ other.createdAt = event.createdAt ∧ event.id ≤ other.id := by
  rw [lowestKey, lowestKey, Prod.Lex.toLex_le_toLex, UInt64.lt_iff_toNat_lt, ← UInt64.toNat_inj]
  rfl

theorem highestKey_le_iff : highestKey other ≤ highestKey event ↔
    other.createdAt < event.createdAt ∨ other.createdAt = event.createdAt ∧ other.id ≤ event.id := by
  rw [highestKey, highestKey, Prod.Lex.toLex_le_toLex, UInt64.lt_iff_toNat_lt, ← UInt64.toNat_inj]

theorem lowestKey_lt_iff : lowestKey other < lowestKey event ↔
    other.createdAt < event.createdAt ∨ event.createdAt = other.createdAt ∧ event.id < other.id := by
  rw [lowestKey, lowestKey, Prod.Lex.toLex_lt_toLex, UInt64.lt_iff_toNat_lt, ← UInt64.toNat_inj, eq_comm]
  rfl

theorem highestKey_lt_iff : highestKey other < highestKey event ↔
    other.createdAt < event.createdAt ∨ event.createdAt = other.createdAt ∧ other.id < event.id := by
  rw [highestKey, highestKey, Prod.Lex.toLex_lt_toLex, UInt64.lt_iff_toNat_lt, ← UInt64.toNat_inj, eq_comm]

theorem winner_iff {events : Set SignedEvent} :
    Winner events event ↔ event ∈ events ∧ ∀ other ∈ events, lowestKey other ≤ lowestKey event := by
  simp only [Winner, lowestKey_le_iff]

namespace Query
variable (q : Query n)

/-- A valid event that a relay of the query delivers. -/
def delivered : PoolNotification n → Option SignedEvent
  | (relay, .event subscriptionId event) =>
    if relay ∈ q.subscribed ∧ subscriptionId = q.subscriptionId ∧ q.validate event then some event else none
  | _ => none

def ends : PoolNotification n → Finset (Fin n)
  | (relay, .endOfStoredEvents subscriptionId) =>
    if relay ∈ q.subscribed ∧ subscriptionId = q.subscriptionId then {relay} else ∅
  | _ => ∅

/-- A notification that ends the query with an error. -/
def refuses : PoolNotification n → Bool
  | (relay, .closed subscriptionId _) => relay ∈ q.subscribed ∧ subscriptionId = q.subscriptionId
  | (relay, .authenticationRejected publicKey _) => relay ∈ q.subscribed ∧ publicKey = q.expectedAuthenticationKey
  | _ => false

def ended : List (PoolNotification n) → Finset (Fin n)
  | [] => ∅
  | x :: rest => q.ends x ∪ ended rest

def received : List (PoolNotification n) → Finset (Fin n) → List SignedEvent
  | [], _ => []
  | x :: rest, completed =>
    if q.finished completed then [] else (q.delivered x).toList ++ received rest (completed ∪ q.ends x)

variable {q} {notifications : List (PoolNotification n)} {s : Progress n} {x : PoolNotification n}

theorem receive_eq (h : q.refuses x = false) :
    q.receive s x = .ok ⟨s.completed ∪ q.ends x, (q.delivered x).toList.foldl q.select s.best⟩ := by
  obtain ⟨relay, notification⟩ := x
  unfold receive
  dsimp only
  by_cases hr : relay ∈ q.subscribed
  · rw [if_neg (not_not.2 hr)]
    cases notification with
    | event subscriptionId event =>
      by_cases hid : subscriptionId = q.subscriptionId
      · by_cases hv : q.validate event = true
        · simp [delivered, ends, hr, hid, hv]
        · simp [delivered, ends, hid, hv, select]
      · simp [delivered, ends, hid]
    | endOfStoredEvents subscriptionId =>
      by_cases hid : subscriptionId = q.subscriptionId
      · simp [delivered, ends, hr, hid]
      · simp [delivered, ends, hid]
    | closed subscriptionId message =>
      have hid : subscriptionId ≠ q.subscriptionId := by simpa [refuses, hr] using h
      simp [delivered, ends, hid]
    | authenticationRejected publicKey message =>
      have hkey : publicKey ≠ q.expectedAuthenticationKey := by simpa [refuses, hr] using h
      simp [delivered, ends, hkey]
    | _ => simp [delivered, ends]
  · rw [if_pos hr]
    cases notification <;> simp [delivered, ends, hr]

/-- A query that is not refused ends once enough relays have ended, with the best of the events that it received. -/
theorem loop_eq (hquiet : ∀ x ∈ notifications, q.refuses x = false)
    (hfin : q.finished (s.completed ∪ q.ended notifications) = true) :
    ∃ completed, q.loop notifications s =
      .ok ⟨completed, (q.received notifications s.completed).foldl q.select s.best⟩ := by
  induction notifications generalizing s with
  | nil =>
    rw [ended, Finset.union_empty] at hfin
    rw [loop, if_pos hfin]
    exact ⟨_, rfl⟩
  | cons x rest ih =>
    rw [loop, received]
    by_cases hnow : q.finished s.completed = true
    · rw [if_pos hnow, if_pos hnow]
      exact ⟨_, rfl⟩
    · rw [if_neg hnow, if_neg hnow, receive_eq (hquiet x List.mem_cons_self), List.foldl_append]
      dsimp only
      refine ih (fun y hy => hquiet y (List.mem_cons_of_mem _ hy)) ?_
      rw [ended] at hfin
      rw [Finset.union_assoc]
      exact hfin

theorem mem_received (hmono : ∀ a b, a ⊆ b → q.finished a = true → q.finished b = true) {completed : Finset (Fin n)} :
    event ∈ q.received notifications completed ↔ ∃ before x after, notifications = before ++ x :: after ∧
      q.delivered x = some event ∧ q.finished (completed ∪ q.ended before) = false := by
  induction notifications generalizing completed with
  | nil => simp [received]
  | cons y rest ih =>
    rw [received]
    by_cases hnow : q.finished completed = true
    · rw [if_pos hnow]
      refine ⟨(nomatch ·), fun ⟨before, x, after, _, _, hnot⟩ => ?_⟩
      rw [hmono completed _ Finset.subset_union_left hnow] at hnot
      cases hnot
    · rw [if_neg hnow, List.mem_append, Option.mem_toList, ih]
      constructor
      · rintro (hhere | ⟨before, x, after, rfl, hx, hnot⟩)
        · exact ⟨[], y, rest, rfl, hhere, by simpa [ended] using hnow⟩
        · exact ⟨y :: before, x, after, rfl, hx, by rwa [ended, ← Finset.union_assoc]⟩
      · rintro ⟨before, x, after, heq, hx, hnot⟩
        cases before with
        | nil =>
          cases heq
          exact .inl hx
        | cons z before =>
          cases heq
          rw [ended, ← Finset.union_assoc] at hnot
          exact .inr ⟨before, x, after, rfl, hx, hnot⟩

theorem of_delivered (h : q.delivered x = some event) : x.1 ∈ q.subscribed ∧ q.validate event = true := by
  unfold delivered at h
  split at h
  · split_ifs at h with hv
    cases h
    exact ⟨hv.1, hv.2.2⟩
  · cases h

theorem mem_ended {relay : Fin n} : relay ∈ q.ended notifications ↔ ∃ x ∈ notifications, relay ∈ q.ends x := by
  induction notifications with
  | nil => simp [ended]
  | cons x rest ih => simp [ended, ih]

theorem foldl_select {β : Type} [LinearOrder β] {key : SignedEvent → β}
    (hbetter : ∀ event current, q.better event current = true ↔ key current < key event)
    (hv : ∀ event ∈ events, q.validate event = true) : events.foldl q.select none = events.argmax key := by
  have hstep : ∀ best event, q.validate event = true →
      q.select best event = List.argAux (fun b c => key c < key b) best event := by
    intro best event hev
    cases best with
    | none => simp [select, List.argAux, hev]
    | some current => simp [select, List.argAux, hev, hbetter]
  exact List.foldl_ext _ _ _ fun best event hev => hstep best event (hv event hev)

/-- The relays of a query deliver the events, each of them before it ends its stored events. -/
structure Delivers (q : Query n) (notifications : List (PoolNotification n)) (events : Set SignedEvent) : Prop where
  quiet : ∀ x ∈ notifications, q.refuses x = false
  ended : q.subscribed ⊆ q.ended notifications
  ordered : notifications.Pairwise fun y x => x.1 ∈ q.ends y → q.delivered x = none
  exact : ∀ event, event ∈ events ↔ ∃ x ∈ notifications, q.delivered x = some event

def Selects (result : Except DiscoveryError DiscoveryResult) (events : Set SignedEvent) : Prop :=
  ∃ discovered, result = .ok discovered ∧ Winner events discovered.event

/-- What the proofs need of a query: relays that have ended are not asked again, and its order is that of a key. -/
structure Ranked {β : Type} [LinearOrder β] (q : Query n) (key : SignedEvent → β) : Prop where
  mono : ∀ a b, a ⊆ b → q.finished a = true → q.finished b = true
  all : q.finished q.subscribed = true
  better : ∀ event current, q.better event current = true ↔ key current < key event

section Selection
variable {β : Type} [LinearOrder β] {key : SignedEvent → β} {notifications : List (PoolNotification n)}
  {events : Set SignedEvent}

theorem Delivers.mem_events (h : q.Delivers notifications events) (hq : q.Ranked key)
    (hev : event ∈ q.received notifications ∅) : event ∈ events := by
  obtain ⟨before, x, after, rfl, hx, -⟩ := (mem_received hq.mono).1 hev
  exact (h.exact event).2 ⟨x, List.mem_append_right _ List.mem_cons_self, hx⟩

theorem Delivers.run_ok_iff (h : q.Delivers notifications events) (hq : q.Ranked key) :
    Selects (q.run notifications) events ↔
      ∃ event, (q.received notifications ∅).argmax key = some event ∧ Winner events event := by
  have hfin : q.finished (({} : Progress n).completed ∪ q.ended notifications) = true := by
    rw [Finset.empty_union]
    exact hq.mono _ _ h.ended hq.all
  obtain ⟨completed, hloop⟩ := loop_eq (s := {}) h.quiet hfin
  have hv : ∀ event ∈ q.received notifications ∅, q.validate event = true := by
    intro event hev
    obtain ⟨before, x, after, -, hx, -⟩ := (mem_received hq.mono).1 hev
    exact (of_delivered hx).2
  rw [foldl_select hq.better hv] at hloop
  unfold Selects run
  rw [hloop]
  cases (q.received notifications ∅).argmax key with
  | none => simp
  | some event => simp

end Selection

end Query

section Winners
variable {notifications : List (PoolNotification n)} {events : Set SignedEvent} {subscribed : Finset (Fin n)}

theorem exists_mem_argmax {β : Type} [LinearOrder β] (key : SignedEvent → β) {received : List SignedEvent}
    (h : event ∈ received) :
    ∃ best, received.argmax key = some best ∧ best ∈ received ∧ ∀ other ∈ received, key other ≤ key best := by
  cases hbest : received.argmax key with
  | none =>
    rw [List.argmax_eq_none] at hbest
    rw [hbest] at h
    cases h
  | some best => exact ⟨best, rfl, List.argmax_mem hbest, fun other ho => List.le_of_mem_argmax ho hbest⟩

theorem DmRelayDiscovery.selects_iff {p : Primitives} {urls : RelayUrlLibrary}
    (h : (d.query p urls subscribed).Delivers notifications events) (hsome : events.Nonempty) :
    Query.Selects ((d.query p urls subscribed).run notifications) events ↔
      ∀ event other, Newest events event → Newest events other → event.id = other.id := by
  have hq : (d.query p urls subscribed).Ranked highestKey := by
    refine ⟨fun a b hab ha => ?_, decide_eq_true (Finset.Subset.refl _), fun event current => ?_⟩
    · exact decide_eq_true ((of_decide_eq_true ha : subscribed ⊆ a).trans hab)
    · rw [highestKey_lt_iff]
      exact decide_eq_true_iff
  -- the query goes on until every relay has ended, so it receives every event
  have hall : ∀ event, event ∈ (d.query p urls subscribed).received notifications ∅ ↔ event ∈ events := by
    intro event
    refine ⟨fun hev => h.mem_events hq hev, fun hev => ?_⟩
    obtain ⟨x, hx, hdel⟩ := (h.exact event).1 hev
    obtain ⟨before, after, heq⟩ := List.append_of_mem hx
    refine (Query.mem_received hq.mono).2 ⟨before, x, after, heq, hdel, decide_eq_false fun hsub => ?_⟩
    rw [Finset.empty_union] at hsub
    obtain ⟨y, hy, hends⟩ := Query.mem_ended.1 (hsub (Query.of_delivered hdel).1)
    have hordered := h.ordered
    rw [heq, List.pairwise_append] at hordered
    rw [hordered.2.2 y hy x List.mem_cons_self hends] at hdel
    cases hdel
  obtain ⟨event, hev⟩ := hsome
  obtain ⟨best, hbest, hmem, hle⟩ := exists_mem_argmax highestKey ((hall event).2 hev)
  have hgreatest : ∀ other ∈ events, highestKey other ≤ highestKey best := fun other ho => hle other ((hall other).2 ho)
  rw [h.run_ok_iff hq, hbest]
  constructor
  · rintro ⟨_, ⟨⟩, hwin⟩ event other hev ho
    have hid : ∀ other, Newest events other → other.id = best.id := by
      intro other ho
      have hnew : ¬ other.createdAt < best.createdAt := UInt64.not_lt.2 (ho.2 best hwin.1)
      have hlow := (hwin.2 other ho.1).resolve_left hnew
      have hhigh := (highestKey_le_iff.1 (hgreatest other ho.1)).resolve_left hnew
      exact le_antisymm hhigh.2 hlow.2
    rw [hid event hev, hid other ho]
  · intro hone
    have hnewest : Newest events best := by
      refine ⟨(hall best).1 hmem, fun other ho => ?_⟩
      rcases highestKey_le_iff.1 (hgreatest other ho) with hlt | ⟨heq, -⟩
      · exact UInt64.le_of_lt hlt
      · exact UInt64.le_of_eq heq
    refine ⟨best, rfl, hnewest.1, fun other ho => ?_⟩
    rcases highestKey_le_iff.1 (hgreatest other ho) with hlt | ⟨heq, -⟩
    · exact .inl hlt
    · have hnewestOther : Newest events other := ⟨ho, fun third hthird => heq ▸ hnewest.2 third hthird⟩
      exact .inr ⟨heq, le_of_eq (hone best other hnewest hnewestOther)⟩

theorem ReplaceableDiscovery.selects_iff {d : ReplaceableDiscovery} (hminimum : d.minimumReadyRelays ≤ subscribed.card)
    (h : (d.query subscribed).Delivers notifications events) :
    Query.Selects ((d.query subscribed).run notifications) events ↔
      ∃ before x after winner, notifications = before ++ x :: after ∧ (d.query subscribed).delivered x = some winner ∧
        Winner events winner ∧ ((d.query subscribed).ended before).card < d.minimumReadyRelays := by
  have hq : (d.query subscribed).Ranked lowestKey := by
    refine ⟨fun a b hab ha => ?_, decide_eq_true hminimum, fun event current => ?_⟩
    · exact decide_eq_true (Nat.le_trans (of_decide_eq_true ha) (Finset.card_le_card hab))
    · rw [lowestKey_lt_iff]
      exact decide_eq_true_iff
  have hrecv : ∀ event, event ∈ (d.query subscribed).received notifications ∅ ↔ ∃ before x after,
      notifications = before ++ x :: after ∧ (d.query subscribed).delivered x = some event ∧
        ((d.query subscribed).ended before).card < d.minimumReadyRelays := by
    intro event
    rw [Query.mem_received hq.mono]
    have hfin : ∀ before, (d.query subscribed).finished (∅ ∪ (d.query subscribed).ended before) = false ↔
        ((d.query subscribed).ended before).card < d.minimumReadyRelays := by
      intro before
      rw [Finset.empty_union]
      exact decide_eq_false_iff_not.trans not_le
    simp only [hfin]
  rw [h.run_ok_iff hq]
  constructor
  · rintro ⟨winner, hbest, hwin⟩
    obtain ⟨before, x, after, heq, hx, hb⟩ := (hrecv winner).1 (List.argmax_mem hbest)
    exact ⟨before, x, after, winner, heq, hx, hwin, hb⟩
  · rintro ⟨before, x, after, winner, heq, hx, hwin, hb⟩
    have hmem := (hrecv winner).2 ⟨before, x, after, heq, hx, hb⟩
    obtain ⟨best, hbest, hbestMem, hle⟩ := exists_mem_argmax lowestKey hmem
    refine ⟨best, hbest, winner_iff.2 ⟨h.mem_events hq hbestMem, fun other ho => ?_⟩⟩
    exact (winner_iff.1 hwin).2 other ho |>.trans (hle winner hmem)

end Winners

/-! ## The cache -/

namespace VerifiedRelayListCache
variable (p : Primitives) (urls : RelayUrlLibrary)

/-- The cache after insertions, and their events with the results. -/
def insertEvents (cache : VerifiedRelayListCache) : List Insertion →
    List (SignedEvent × Except RelayListCacheError RelayListCacheMutation) × VerifiedRelayListCache
  | [] => ([], cache)
  | insertion :: rest =>
    let inserted := cache.insertEvent p urls insertion.sourceEvent insertion.now insertion.verifiedAt insertion.eventLimits
      insertion.relayLimits
    let others := insertEvents inserted.2 rest
    ((insertion.sourceEvent, inserted.1) :: others.1, others.2)

/-- The cache compares the event with the one that it has, and has room for it. -/
def considers : Except RelayListCacheError RelayListCacheMutation → Bool
  | .ok _ | .error .rollback => true
  | .error _ => false

def considered (results : List (SignedEvent × Except RelayListCacheError RelayListCacheMutation)) (author : String) :
    List SignedEvent :=
  (results.filter fun x => x.1.pubkey = author ∧ considers x.2).map Prod.fst

def kept (cache : VerifiedRelayListCache) (author : String) : Option SignedEvent :=
  cache.records[author]?.map VerifiedRelayListCacheRecord.sourceEvent

variable {p urls} {cache : VerifiedRelayListCache} {author : String}

theorem toJson_error {error : RelayListCacheError} (h : cache.toJson = .error error) : error = .cacheTooLarge := by
  unfold toJson CacheFormat.toJson at h
  split_ifs at h
  cases h
  rfl

/-- The results of an insertion: an event that is considered competes with the one that the cache has, and no other event
changes anything. -/
def Competes (cache : VerifiedRelayListCache) (event : SignedEvent)
    (inserted : Except RelayListCacheError RelayListCacheMutation × VerifiedRelayListCache) : Prop :=
  ∀ author, inserted.2.kept author = if event.pubkey = author ∧ considers inserted.1 then
    List.argAux (fun b c => lowestKey c < lowestKey b) (cache.kept author) event else cache.kept author

variable {result : Except RelayListCacheError RelayListCacheMutation}

theorem competes_of_refused (h : considers result = false) : Competes cache event (result, cache) := by
  intro author
  rw [if_neg (fun hand => by rw [h] at hand; cases hand.2)]

theorem competes_store {record : VerifiedRelayListCacheRecord} (hrec : record.sourceEvent = event)
    (hbetter : ∀ current, cache.kept event.pubkey = some current → lowestKey current < lowestKey event) :
    Competes cache event ((BoundedMap.store (fun records => toJson ⟨records⟩) event.pubkey record cache.records).1,
      ⟨(BoundedMap.store (fun records => toJson ⟨records⟩) event.pubkey record cache.records).2⟩) := by
  intro author
  rcases BoundedMap.store_cases (fun records => toJson ⟨records⟩) event.pubkey record cache.records with
    ⟨a, -, hstore⟩ | ⟨error, herr, hstore⟩
  · rw [hstore]
    dsimp only
    rw [kept, BoundedMap.getElem?_insert_eq]
    by_cases hauth : event.pubkey = author
    · rw [if_pos hauth, if_pos ⟨hauth, rfl⟩, ← hauth, Option.map_some, hrec]
      cases hcur : cache.kept event.pubkey with
      | none => rfl
      | some current => exact (if_pos (hbetter current hcur)).symm
    · rw [if_neg hauth, if_neg (fun hand => hauth hand.1)]
      rfl
  · rw [hstore, toJson_error herr]
    dsimp only
    rw [if_neg (fun hand => by cases hand.2)]

theorem competes_of_not_better {current : SignedEvent}
    (hcur : cache.kept event.pubkey = some current) (hnot : ¬ lowestKey current < lowestKey event) :
    Competes cache event (result, cache) := by
  intro author
  dsimp only
  split_ifs with hand
  · rw [← hand.1, hcur]
    exact (if_neg hnot).symm
  · rfl

theorem competes_insertEvent (event : SignedEvent) (now verifiedAt : UInt64) (eventLimits : EventLimits)
    (relayLimits : RelayDiscoveryLimits) :
    Competes cache event (cache.insertEvent p urls event now verifiedAt eventLimits relayLimits) := by
  unfold insertEvent
  by_cases htime : now < verifiedAt ∨ verifiedAt < event.createdAt
  · rw [if_pos htime]
    exact competes_of_refused rfl
  rw [if_neg htime]
  cases hlist : parseNip65RelayList p urls event now eventLimits relayLimits with
  | error error => exact competes_of_refused rfl
  | ok relayList =>
    dsimp only
    rw [parseRelayList_publicKey hlist]
    unfold BoundedMap.insertUnder
    cases hlookup : cache.records[event.pubkey]? with
    | none =>
      dsimp only
      split_ifs
      · exact competes_of_refused rfl
      · refine competes_store rfl fun current hcur => ?_
        rw [kept, hlookup] at hcur
        cases hcur
    | some current =>
      have hkept : cache.kept event.pubkey = some current.sourceEvent := by rw [kept, hlookup, Option.map_some]
      dsimp only
      unfold rule
      split_ifs with hold hsame
      · refine competes_of_not_better hkept (not_lt.2 (lowestKey_le_iff.2 (.inl hold)))
      · exact competes_of_not_better hkept (not_lt.2 (lowestKey_le_iff.2 (.inr hsame)))
      · refine competes_store rfl fun other ho => ?_
        rw [hkept] at ho
        cases ho
        rw [← not_le, lowestKey_le_iff]
        exact fun hle => hle.elim hold hsame

theorem kept_insertEvents (insertions : List Insertion) :
    (cache.insertEvents p urls insertions).2.kept author =
      (considered (cache.insertEvents p urls insertions).1 author).foldl
        (List.argAux fun b c => lowestKey c < lowestKey b) (cache.kept author) := by
  induction insertions generalizing cache with
  | nil => rfl
  | cons insertion rest ih =>
    rw [insertEvents]
    dsimp only
    rw [ih, competes_insertEvent insertion.sourceEvent insertion.now]
    unfold considered
    split_ifs with hconsidered
    · rw [List.filter_cons, if_pos (decide_eq_true hconsidered), List.map_cons, List.foldl_cons]
    · rw [List.filter_cons, if_neg (fun hand => hconsidered (of_decide_eq_true hand))]

theorem kept_winner {insertions : List Insertion}
    {results : List (SignedEvent × Except RelayListCacheError RelayListCacheMutation)}
    (h : insertEvents p urls {} insertions = (results, cache)) (hev : event ∈ considered results author) :
    ∃ winner, cache.kept author = some winner ∧ Winner {event | event ∈ considered results author} winner := by
  have hkept : (insertEvents p urls {} insertions).2.kept author =
      (considered (insertEvents p urls {} insertions).1 author).argmax lowestKey := kept_insertEvents insertions
  rw [h] at hkept
  obtain ⟨winner, hwin, hmem, hle⟩ := exists_mem_argmax lowestKey hev
  exact ⟨winner, hkept.trans hwin, winner_iff.2 ⟨hmem, hle⟩⟩

end VerifiedRelayListCache

/-! ## The three together -/

/-- A discovery of DM relays gets to its query, and its relays deliver the events. -/
structure DmRelayDiscovery.Delivers (p : Primitives) (urls : RelayUrlLibrary) (d : DmRelayDiscovery) {n : Nat}
    (answers : DiscoveryAnswers n (PoolNotification n)) (events : Set SignedEvent) : Prop where
  ready : awaitRequiredAuthentication d.expectedAuthenticationKey d.minimumAuthenticatedRelays answers.readiness ∅ = .ok ()
  results : answers.results.length = n
  subscribed : (subscribedRelays answers.results : Finset (Fin n)) ≠ ∅
  query : (d.query p urls (subscribedRelays answers.results)).Delivers answers.notifications events

/-- A discovery of replaceable events gets to its query, and its relays deliver the events. -/
structure ReplaceableDiscovery.Delivers (d : ReplaceableDiscovery) {n : Nat} (answers : DiscoveryAnswers n (ReadinessRound n))
    (events : Set SignedEvent) : Prop where
  ready : d.awaitRelayReadiness answers.readiness = .ok ()
  results : answers.results.length = n
  subscribed : (subscribedRelays answers.results : Finset (Fin n)) ≠ ∅
  minimum : d.minimumReadyRelays ≤ (subscribedRelays answers.results : Finset (Fin n)).card
  query : (d.query (subscribedRelays answers.results)).Delivers answers.notifications events

section Discoveries
variable {p : Primitives} {urls : RelayUrlLibrary} {m : Nat} {events : Set SignedEvent}

theorem DmRelayDiscovery.Delivers.discoverInner_eq {answers : DiscoveryAnswers n (PoolNotification n)}
    (h : d.Delivers p urls answers events) : d.discoverInner p urls answers =
      (d.query p urls (subscribedRelays answers.results)).run answers.notifications := by
  unfold discoverInner
  rw [h.ready]
  show (if answers.results.length ≠ n then _ else _) = _
  rw [if_neg (not_not.2 h.results), if_neg h.subscribed]

theorem ReplaceableDiscovery.Delivers.discoverInner_eq {d : ReplaceableDiscovery}
    {answers : DiscoveryAnswers n (ReadinessRound n)}
    (h : d.Delivers answers events) : d.discoverInner answers =
      (d.query (subscribedRelays answers.results)).run answers.notifications := by
  unfold discoverInner
  rw [h.ready]
  show (if answers.results.length ≠ n then _ else _) = _
  rw [if_neg (not_not.2 h.results), if_neg h.subscribed, if_neg (not_lt.2 h.minimum)]

/-- The winner is delivered before as many relays as the discovery waits for have ended their stored events. -/
def ReplaceableDiscovery.WinnerInTime (d : ReplaceableDiscovery) (answers : DiscoveryAnswers n (ReadinessRound n))
    (events : Set SignedEvent) : Prop :=
  ∃ before x after winner, answers.notifications = before ++ x :: after ∧
    (d.query (subscribedRelays answers.results)).delivered x = some winner ∧ Winner events winner ∧
      ((d.query (subscribedRelays answers.results)).ended before).card < d.minimumReadyRelays

/-- **Discovery of the winner.** Both discoveries select the winner of the events that their relays deliver if the newest
events have one id and the discovery of replaceable events sees the winner in time. The cache always keeps the winner of the
events that it considers. -/
theorem discoveries_select_winner_iff {dm : DmRelayDiscovery} {replaceable : ReplaceableDiscovery}
    {answers : DiscoveryAnswers n (PoolNotification n)} {answers' : DiscoveryAnswers m (ReadinessRound m)}
    (hsome : events.Nonempty)
    (hdm : dm.Delivers p urls answers events) (hreplaceable : replaceable.Delivers answers' events) :
    (Query.Selects (dm.discoverInner p urls answers) events ∧ Query.Selects (replaceable.discoverInner answers') events ↔
      (∀ event other, Newest events event → Newest events other → event.id = other.id) ∧
        replaceable.WinnerInTime answers' events) ∧
    ∀ insertions results cache author event, VerifiedRelayListCache.insertEvents p urls {} insertions = (results, cache) →
      event ∈ VerifiedRelayListCache.considered results author → ∃ winner, cache.kept author = some winner ∧
        Winner {event | event ∈ VerifiedRelayListCache.considered results author} winner := by
  refine ⟨?_, fun insertions results cache author event hinsert hevent => VerifiedRelayListCache.kept_winner hinsert hevent⟩
  rw [hdm.discoverInner_eq, hreplaceable.discoverInner_eq, DmRelayDiscovery.selects_iff hdm.query hsome,
    ReplaceableDiscovery.selects_iff hreplaceable.minimum hreplaceable.query]
  rfl

end Discoveries

/-! ### Two lists -/

def hexBytes (n : Nat) (text : String) : Bytes n :=
  ((hexDecode text).bind (Bytes.ofList? n)).getD ⟨List.replicate n 0, List.length_replicate⟩

def listAuthor : Bytes 32 := hexBytes 32 "f9308a019258c31049344f85f89d5229b531c845836f99b08601f113bce036f9"

def unsignedList (createdAt : UInt64) (url : String) : UnsignedEvent :=
  ⟨hexEncode listAuthor.val, createdAt, nip17DmRelayListKind, [["relay", url]], ""⟩

def firstId : Bytes 32 := hexBytes 32 "3821587544e4fb8d7b61445b338e6a9e6030ada139dab842c18ef08cfec16403"

def firstSignature : Bytes 64 :=
  hexBytes 64 ("5ecf16dd3f1ecc9d75af0ddf02fdc1cf78efd226aef75c4d2127c4a43cdc67f8" ++
    "0149b6b5ce07e7b160161a3cf7e8cd51095dc217ca435696dc2b18757679c8ca")

def secondId : Bytes 32 := hexBytes 32 "6ab641b5c5783df89ab698d30f7eef3a8c6c277fdcdb23c269e525d53405fcc2"

def secondSignature : Bytes 64 :=
  hexBytes 64 ("c137e6a16a095d5576796e687eadb18f6f5c1387ba72fa5b8dcc8cae54a1bbdc" ++
    "16a27e2adce3fa8285f9a1399b682c3114170c39662a134f5707874b381baee5")

def listPrimitives : Primitives where
  publicKey _ := none
  keyValid key := key = listAuthor
  sha256 bytes := if bytes = utf8 (unsignedList 1700000000 "wss://a.example/").canonicalJson then firstId else secondId
  sign _ _ _ := none
  verify key message signature := key = listAuthor ∧
    (message = firstId ∧ signature = firstSignature ∨ message = secondId ∧ signature = secondSignature)
  nip44Encrypt _ _ _ _ := none
  nip44Decrypt _ _ _ := none
  npub _ := ""
  fromNpub _ := none
  fromNsec _ := none
  decodeEvent _ := none
  decodeRumor _ := none

abbrev signedList (createdAt : UInt64) (url : String) (signature : Bytes 64) : SignedEvent :=
  (unsignedList createdAt url).withSignature listPrimitives signature

def firstList : SignedEvent := signedList 1700000000 "wss://a.example/" firstSignature

def secondList : SignedEvent := signedList 1700000000 "wss://b.example/" secondSignature

def earlierList : SignedEvent := signedList 1699999999 "wss://b.example/" secondSignature

theorem id_firstList : (unsignedList 1700000000 "wss://a.example/").id listPrimitives = firstId := by
  simp only [UnsignedEvent.id, listPrimitives, if_true]

theorem id_secondList (createdAt : UInt64) : (unsignedList createdAt "wss://b.example/").id listPrimitives = secondId := by
  have hne : utf8 (unsignedList createdAt "wss://b.example/").canonicalJson ≠
      utf8 (unsignedList 1700000000 "wss://a.example/").canonicalJson := by
    intro heq
    have hjson := Json.render_inj (utf8_inj heq)
    simp [unsignedList, tagsJson, Json.strings] at hjson
  simp only [UnsignedEvent.id, listPrimitives, hne, if_false]

def secureUrls : RelayUrlLibrary where
  parse text := some ⟨"wss", some "host.example", false, true, "", none, none, none, text⟩
  isLoopback _ := false

def listDiscovery : DmRelayDiscovery where
  expectedAuthenticationKey := "key"
  recipientPublicKey := listAuthor
  now := 1700000060
  eventLimits := {}
  inboxPolicy := {}

def listValid (event : SignedEvent) : Bool :=
  (verifyDmInbox listPrimitives secureUrls event listDiscovery.recipientPublicKey listDiscovery.now listDiscovery.eventLimits
    listDiscovery.inboxPolicy).isOk

theorem validate_list {createdAt : UInt64} {url : String} {signature : Bytes 64} (hurl : url.utf8ByteSize ≤ 16)
    (hpast : createdAt ≤ 1700000060) (hage : 1700000060 - createdAt ≤ ({} : DmInboxPolicy).maximumAgeSeconds)
    (hmerge : mergeTags secureUrls nip17Tag ⟨3, 2048⟩ [] [["relay", url]] = .ok [⟨url, true, true⟩])
    (hv : (unsignedList createdAt url).validate {} = .ok ())
    (hverify : listPrimitives.verify listAuthor ((unsignedList createdAt url).id listPrimitives) signature = true) :
    listValid (signedList createdAt url signature) = true := by
  have hsize : (signedList createdAt url signature).json.size ≤ 262144 := by
    have hpk : (unsignedList createdAt url).pubkey.utf8ByteSize = 2 * 32 :=
      (utf8ByteSize_hexEncode _).trans (by rw [listAuthor.property])
    refine (size_withSignature_le hpk).trans ?_
    have hesc := Json.escapedSize_le url
    simp [unsignedList, tagsJson, Json.size_arr, Json.strings, Json.size_str, show Json.escapedSize "relay" = 5 by decide,
      show Json.escapedSize "" = 0 by decide]
    omega
  have htime : createdAt ≤ satAdd 1700000060 ({} : EventLimits).maxFutureSeconds :=
    UInt64.le_trans hpast (by decide : (1700000060 : UInt64) ≤ satAdd 1700000060 (15 * 60))
  have hkey : listPrimitives.keyValid listAuthor = true := by simp only [listPrimitives, decide_true]
  have hvrf : Verified listPrimitives (signedList createdAt url signature) 1700000060 {} :=
    verified_withSignature (decodeHex_hexEncode _) hv hkey hverify hsize htime
  have hp : parseNip17DmRelayList listPrimitives secureUrls (signedList createdAt url signature) 1700000060 {} ⟨3, 2048⟩ =
      .ok ⟨hexEncode listAuthor.val, createdAt, [⟨url, true, true⟩]⟩ := by
    unfold parseNip17DmRelayList parseRelayList
    rw [verify_ok_iff.2 hvrf]
    refine bind_ok_iff.2 ⟨(), rfl, refuse_ok_iff.2 ⟨not_not.2 rfl, bind_ok_iff.2 ⟨(), rfl, ?_⟩⟩⟩
    exact bind_ok_iff.2 ⟨_, hmerge, rfl⟩
  have hin : verifyDmInbox listPrimitives secureUrls (signedList createdAt url signature) listAuthor 1700000060 {} {} =
      .ok ⟨hexEncode listAuthor.val, (signedList createdAt url signature).id, createdAt, [url],
        signedList createdAt url signature⟩ := by
    unfold verifyDmInbox
    refine bind_ok_iff.2 ⟨(), rfl, bind_ok_iff.2 ⟨_, congrArg (Except.mapError _) hp, ?_⟩⟩
    refine refuse_ok_iff.2 ⟨not_not.2 rfl,
      refuse_ok_iff.2 ⟨UInt64.not_lt.2 hpast, refuse_ok_iff.2 ⟨UInt64.not_lt.2 hage, ?_⟩⟩⟩
    exact refuse_ok_iff.2 ⟨by simp [secureOrLoopback, secureUrls], rfl⟩
  unfold listValid
  show (verifyDmInbox _ _ _ listAuthor 1700000060 {} {}).isOk = true
  rw [hin]
  rfl

theorem validate_firstList : listValid firstList = true := by
  refine validate_list (by decide) (by decide) (by decide) (by decide +kernel) (by decide +kernel) ?_
  rw [id_firstList]
  simp [listPrimitives]

theorem validate_secondList : listValid secondList = true := by
  refine validate_list (by decide) (by decide) (by decide) (by decide +kernel) (by decide +kernel) ?_
  rw [id_secondList]
  simp [listPrimitives]

theorem validate_earlierList : listValid earlierList = true := by
  refine validate_list (by decide) (by decide) (by decide) (by decide +kernel) (by decide +kernel) ?_
  rw [id_secondList]
  simp [listPrimitives]

def listReplaceable : ReplaceableDiscovery where
  authenticationPolicy := .requireWhenConfigured
  authenticationDeadline := 10000
  challengeSettleTimeout := 100
  minimumReadyRelays := 1
  subscriptionId := "omachat-dm-relay-discovery"
  expectedAuthenticationKey := "key"
  validateEvent := listValid

/-- One relay that delivers the events and ends. -/
def oneRelay (events : List SignedEvent) : List (PoolNotification 1) :=
  (events.map fun event => (Fin.last 0, .event "omachat-dm-relay-discovery" event)) ++
    [(Fin.last 0, .endOfStoredEvents "omachat-dm-relay-discovery")]

def dmAnswers (events : List SignedEvent) : DiscoveryAnswers 1 (PoolNotification 1) :=
  ⟨[(Fin.last 0, .authenticated "key")], [.ok ()], oneRelay events⟩

def replaceableAnswers (events : List SignedEvent) : DiscoveryAnswers 1 (ReadinessRound 1) :=
  ⟨[⟨0, some (1, Fin.last 0, .authenticated "key")⟩], [.ok ()], oneRelay events⟩

/-- The events of a list, as a set. -/
abbrev listed (events : List SignedEvent) : Set SignedEvent := {event | event ∈ events}

theorem delivers_oneRelay {q : Query 1} (hid : q.subscriptionId = "omachat-dm-relay-discovery") (hr : 0 ∈ q.subscribed)
    (hv : ∀ event ∈ events, q.validate event = true) : q.Delivers (oneRelay events) (listed events) := by
  have hdel : ∀ event ∈ events, q.delivered (Fin.last 0, .event "omachat-dm-relay-discovery" event) = some event := by
    intro event hev
    simp [Query.delivered, hid, hr, hv event hev]
  refine ⟨fun x hx => ?_, fun relay _ => ?_, ?_, fun event => ?_⟩
  · rcases List.mem_append.1 hx with hx | hx
    · obtain ⟨event, -, rfl⟩ := List.mem_map.1 hx
      rfl
    · cases List.mem_singleton.1 hx
      rfl
  · refine Query.mem_ended.2 ⟨_, List.mem_append_right _ (List.mem_singleton_self _), ?_⟩
    simp [Query.ends, hid, hr, Fin.eq_zero relay]
  · refine List.pairwise_append.2 ⟨?_, List.pairwise_singleton _ _, fun y hy x hx hends => ?_⟩
    · refine List.pairwise_map.2 (List.pairwise_of_forall fun _ _ hends => ?_)
      simp [Query.ends] at hends
    · cases List.mem_singleton.1 hx
      rfl
  · constructor
    · intro hev
      exact ⟨_, List.mem_append_left _ (List.mem_map.2 ⟨event, hev, rfl⟩), hdel event hev⟩
    · rintro ⟨x, hx, hsome⟩
      rcases List.mem_append.1 hx with hx | hx
      · obtain ⟨other, ho, rfl⟩ := List.mem_map.1 hx
        rw [hdel other ho] at hsome
        cases hsome
        exact ho
      · cases List.mem_singleton.1 hx
        cases hsome

theorem subscribed_dmAnswers : (subscribedRelays (dmAnswers events).results : Finset (Fin 1)) = {0} :=
  (by decide : subscribedRelays [.ok ()] = {0})

theorem subscribed_replaceableAnswers : (subscribedRelays (replaceableAnswers events).results : Finset (Fin 1)) = {0} :=
  (by decide : subscribedRelays [.ok ()] = {0})

theorem validate_query (subscribed : Finset (Fin 1)) :
    (listDiscovery.query listPrimitives secureUrls subscribed).validate = listValid := by
  funext event
  simp only [DmRelayDiscovery.query, listValid]

section
variable (hv : ∀ event ∈ events, listValid event = true)
include hv

theorem delivers_dmAnswers : listDiscovery.Delivers listPrimitives secureUrls (dmAnswers events) (listed events) := by
  refine ⟨(by decide : awaitRequiredAuthentication "key" 1 [((0 : Fin 1), .authenticated "key")] ∅ = .ok ()), rfl, ?_, ?_⟩
  · rw [subscribed_dmAnswers]
    decide
  · rw [subscribed_dmAnswers]
    refine delivers_oneRelay rfl (Finset.mem_singleton_self _) fun event hev => ?_
    rw [validate_query]
    exact hv event hev

theorem delivers_replaceableAnswers : listReplaceable.Delivers (replaceableAnswers events) (listed events) := by
  refine ⟨(by decide : awaitRequiredAuthentication "key" 1 [((0 : Fin 1), .authenticated "key")] ∅ = .ok ()),
    rfl, ?_, ?_, ?_⟩
  · rw [subscribed_replaceableAnswers]
    decide
  · rw [subscribed_replaceableAnswers]
    exact Nat.le_refl _
  · rw [subscribed_replaceableAnswers]
    refine delivers_oneRelay rfl (Finset.mem_singleton_self _) fun event hev => ?_
    simp only [ReplaceableDiscovery.query, listReplaceable]
    exact hv event hev

end

theorem valid_pair (h : listValid other = true) : ∀ event ∈ [firstList, other], listValid event = true := by
  simp [validate_firstList, h]

theorem winnerInTime_pair (hv : ∀ event ∈ [firstList, other], listValid event = true)
    (h : other.createdAt < firstList.createdAt ∨ other.createdAt = firstList.createdAt ∧ firstList.id ≤ other.id) :
    listReplaceable.WinnerInTime (replaceableAnswers [firstList, other]) (listed [firstList, other]) := by
  refine ⟨[], (0, .event "omachat-dm-relay-discovery" firstList), _, firstList, rfl, ?_, ⟨List.mem_cons_self, ?_⟩,
    Nat.zero_lt_one⟩
  · rw [subscribed_replaceableAnswers]
    simp [Query.delivered, ReplaceableDiscovery.query, listReplaceable, hv firstList List.mem_cons_self]
  · intro event hevent
    rcases List.mem_cons.1 hevent with heq | hevent
    · exact .inr ⟨by rw [heq], le_of_eq (by rw [heq])⟩
    · rw [List.mem_singleton.1 hevent]
      exact h

/-- Of two lists the newer one is selected by both discoveries. -/
theorem newer_list_selected :
    Query.Selects (listDiscovery.discoverInner listPrimitives secureUrls (dmAnswers [firstList, earlierList]))
        (listed [firstList, earlierList]) ∧
      Query.Selects (listReplaceable.discoverInner (replaceableAnswers [firstList, earlierList]))
        (listed [firstList, earlierList]) := by
  have hvalid := valid_pair validate_earlierList
  have hearlier : earlierList.createdAt < firstList.createdAt := (by decide : (1699999999 : UInt64) < 1700000000)
  have hnewest {event : SignedEvent} (h : Newest (listed [firstList, earlierList]) event) : event = firstList := by
    rcases List.mem_cons.1 h.1 with heq | hmem
    · exact heq
    · have hle := h.2 firstList List.mem_cons_self
      rw [List.mem_singleton.1 hmem] at hle
      exact absurd hearlier (UInt64.not_lt.2 hle)
  refine (discoveries_select_winner_iff ⟨firstList, List.mem_cons_self⟩ (delivers_dmAnswers hvalid)
    (delivers_replaceableAnswers hvalid)).1.2 ⟨fun event other hevent hother => ?_, winnerInTime_pair hvalid (.inl hearlier)⟩
  rw [hnewest hevent, hnewest hother]

/-- Of two lists of the same second the discovery of DM relays selects the one with the higher id, and the generic discovery
the one with the lower id. -/
theorem tie_lost :
    listDiscovery.Delivers listPrimitives secureUrls (dmAnswers [firstList, secondList]) (listed [firstList, secondList]) ∧
      ¬ Query.Selects (listDiscovery.discoverInner listPrimitives secureUrls (dmAnswers [firstList, secondList]))
        (listed [firstList, secondList]) ∧
      Query.Selects (listReplaceable.discoverInner (replaceableAnswers [firstList, secondList]))
        (listed [firstList, secondList]) := by
  have hvalid := valid_pair validate_secondList
  have hlt : firstList.id < secondList.id := by
    show hexEncode _ < hexEncode _
    rw [id_firstList, id_secondList]
    decide +kernel
  have hnewest : ∀ event ∈ [firstList, secondList], Newest (listed [firstList, secondList]) event := by
    have htime : ∀ event ∈ [firstList, secondList], event.createdAt = 1700000000 := by
      simp only [List.mem_cons, List.not_mem_nil, or_false, forall_eq_or_imp, forall_eq]
      exact ⟨rfl, rfl⟩
    intro event hevent
    refine ⟨hevent, fun other hother => ?_⟩
    rw [htime event hevent, htime other hother]
    exact UInt64.le_refl _
  have hdm := delivers_dmAnswers hvalid
  have hreplaceable := delivers_replaceableAnswers hvalid
  refine ⟨hdm, ?_, ?_⟩
  · rw [hdm.discoverInner_eq, DmRelayDiscovery.selects_iff hdm.query ⟨firstList, List.mem_cons_self⟩]
    intro hone
    exact absurd (hone firstList secondList (hnewest _ List.mem_cons_self)
      (hnewest _ (List.mem_cons_of_mem _ List.mem_cons_self))) (ne_of_lt hlt)
  · rw [hreplaceable.discoverInner_eq, ReplaceableDiscovery.selects_iff hreplaceable.minimum hreplaceable.query]
    exact winnerInTime_pair hvalid (.inr ⟨rfl, le_of_lt hlt⟩)

end OmaChat.Nostr
