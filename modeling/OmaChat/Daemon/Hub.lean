import OmaChat.Lib.Run
import OmaChat.Lib.Tasks
import OmaChat.Lib.Broadcast
import OmaChat.Daemon.Actor

/-!
# The order of events

The chat actor and the core publish events side by side. Each takes a number from the shared counter and then calls the
hub, and the two steps of one publisher can have steps of the others between them.

* `sequences_increase` : if events are published in the order in which their numbers were taken, every subscriber receives
  them in that order;
* `published_out_of_order` : nothing makes the publishers keep to it, and the desktop bridge drops a connection over it.
-/

namespace OmaChat.Daemon
open Wire Effects Proto Broadcast Transition

/-! ## The hub -/

def eventQueueCapacity : Nat := 64

/-- `EventHub`: the queue of each subscriber, also of those that lost their place. -/
structure EventHub where
  subscribers : List (Channel Event)

def EventHub.subscribe (hub : EventHub) : EventHub := ⟨hub.subscribers ++ [.fresh]⟩

def EventHub.publish (hub : EventHub) (event : Event) : EventHub :=
  ⟨hub.subscribers.map (Channel.send eventQueueCapacity event)⟩

/-- `DaemonCore::publish_status_event`, where `status` is what `status_value` gave. -/
def publishStatusEvent (status : Option Json) : Method Call.Answer Unit Empty Unit := do
  match status with
  | some payload =>
    let sequence : UInt64 ← Method.request Call.nextSequence
    Method.request (Call.publishHub ⟨ipcVersion, sequence, .status, payload⟩)
  | none => pure ()

/-- The check of the number in `Session.receive` of the bridge: the last number so far, unless it drops the connection. -/
def Session.receive (sequence : Int) (event : Event) : Option Int :=
  if event.sequence.toNat ≤ sequence then none else some event.sequence.toNat

def Session.receiveAll (events : List Event) : Option Int := events.foldlM Session.receive (-1)

theorem foldlM_receive (events : List Event) (sequence : Int) :
    (events.foldlM Session.receive sequence).isSome ↔
      (∀ event ∈ events, sequence < event.sequence.toNat) ∧ events.Pairwise (·.sequence < ·.sequence) := by
  induction events generalizing sequence with
  | nil => simp
  | cons event events ih =>
    rw [List.foldlM_cons, Session.receive]
    split_ifs with h
    · simp only [Option.bind_eq_bind, Option.bind_none, Option.isSome_none, Bool.false_eq_true, false_iff, not_and]
      intro hall
      have := hall event List.mem_cons_self
      omega
    · simp only [Option.bind_eq_bind, Option.bind_some, ih, List.pairwise_cons, List.forall_mem_cons,
        UInt64.lt_iff_toNat_lt, Int.ofNat_lt]
      constructor
      · rintro ⟨hlt, hpair⟩
        exact ⟨⟨by omega, fun e he => by have := hlt e he; omega⟩, hlt, hpair⟩
      · rintro ⟨-, hlt, hpair⟩
        exact ⟨hlt, hpair⟩

theorem Session.receiveAll_iff (events : List Event) :
    (Session.receiveAll events).isSome ↔ events.Pairwise (·.sequence < ·.sequence) := by
  rw [Session.receiveAll, foldlM_receive]
  exact and_iff_right fun event _ => by omega

/-! ## The publishers -/

inductive Publisher where
  | publish (actor : Actor) (topic : Topic) (payload : Json)
  | publishStatusEvent (status : Option Json)

def Publisher.program : Publisher → Prog Call.Answer Unit
  | .publish actor topic payload => (Daemon.publish topic payload).task actor fun _ => ()
  | .publishStatusEvent status => (Daemon.publishStatusEvent status).task () fun _ => ()

/-- What the publishers share: the counter and the hub. Beside them stand all events published so far, and the numbers that
were taken and not yet published, each with its publisher. -/
structure Stream (ι : Type) where
  sequence : UInt64
  hub : EventHub
  published : List Event
  pending : List (ι × UInt64)

variable {ι : Type} [DecidableEq ι]

/-- The answers that the calls of publisher `i` get. -/
def StreamAnswers (i : ι) : Answering Call.Answer (Stream ι)
  | .nextSequence, w, r, w' => r = w.sequence ∧
      w' = { w with sequence := w.sequence + 1, pending := w.pending ++ [(i, w.sequence)] }
  | .publishHub event, w, _, w' => w' = { w with
      hub := w.hub.publish event
      published := w.published ++ [event]
      pending := w.pending.filter fun taken => taken.1 ≠ i }
  | _, w, _, w' => w' = w

/-- A publisher publishes the number that it took. -/
def publisherProtocol : Protocol Call.Answer (Option UInt64) where
  start := none
  may
    | some sequence, .publishHub event => event.sequence = sequence
    | some _, _ => False
    | none, .publishHub _ => False
    | none, _ => True
  learn
    | _, .nextSequence, sequence => some sequence
    | _, .publishHub _, _ => none
    | taken, _, _ => taken

theorem obeys_publisher (t : Publisher) : t.program.Obeys publisherProtocol (fun taken _ => taken = none) none := by
  cases t with
  | publish actor topic payload => exact ⟨trivial, fun _ => ⟨rfl, fun _ => rfl⟩⟩
  | publishStatusEvent status =>
    cases status with
    | none => rfl
    | some payload => exact ⟨trivial, fun _ => ⟨rfl, fun _ => rfl⟩⟩

def Took (i : ι) (taken : Option UInt64) (w : Stream ι) : Prop := ∀ n, (i, n) ∈ w.pending ↔ taken = some n

variable {i : ι} {w w' : Stream ι} {call : Call} {taken : Option UInt64} {r : call.Answer}

theorem StreamAnswers.others {j : ι}
    (h : StreamAnswers i call w r w') (hj : j ≠ i) (n : UInt64) : (j, n) ∈ w'.pending ↔ (j, n) ∈ w.pending := by
  cases call with
  | nextSequence => simp [h.2, hj]
  | publishHub event => simp [show w' = _ from h, hj]
  | _ => rw [show w' = w from h]

theorem StreamAnswers.took (h : StreamAnswers i call w r w') (hmay : publisherProtocol.may taken call) (ht : Took i taken w) :
    Took i (publisherProtocol.learn taken call r) w' := by
  intro n
  cases call with
  | nextSequence =>
    obtain ⟨hr, hw⟩ := h
    cases taken with
    | some m => exact hmay.elim
    | none =>
      have hnot := (ht n).not.2 nofun
      simp [hw, hnot, publisherProtocol, show r = w.sequence from hr, eq_comm]
  | publishHub event => simp [show w' = _ from h, publisherProtocol]
  | _ =>
    rw [show w' = w from h]
    exact ht n

theorem publisher_guards : Tasks.Guards publisherProtocol (fun taken _ => taken = none) Took Publisher.program
    (fun i : ι => StreamAnswers i) where
  begins := obeys_publisher
  own h hmay ht := h.took hmay ht
  other hj h _ _ ht n := (h.others hj n).trans (ht n)
  ends hq ht := by rwa [hq] at ht

/-! ## Interleavings -/

abbrev Streams (ι : Type) : Type := Tasks Call.Answer Unit ι (Stream ι)

/-- A step of a publisher, a new subscriber, or a subscriber that takes an event. -/
inductive StreamLabel (ι : Type) where
  | task (l : TaskLabel Call.Answer Unit ι Publisher)
  | subscribe
  | recv (k : Nat)

inductive StreamStep : Streams ι → StreamLabel ι → Streams ι → Prop where
  | task {s s' : Streams ι} {l : TaskLabel Call.Answer Unit ι Publisher} :
      Tasks.Step Publisher.program StreamAnswers s l s' → StreamStep s (.task l) s'
  | subscribe {s : Streams ι} : StreamStep s .subscribe ⟨s.task, { s.world with hub := s.world.hub.subscribe }⟩
  | recv {s : Streams ι} {k : Nat} {c c' : Channel Event} {event : Event} : s.world.hub.subscribers[k]? = some c →
      c.recv = some (event, c') →
      StreamStep s (.recv k) ⟨s.task, { s.world with hub := ⟨s.world.hub.subscribers.set k c'⟩ }⟩

/-- The publisher with the oldest number that is still to be published publishes first, and the counter does not wrap
around. -/
def InOrder (s : Streams ι) : StreamLabel ι → Prop
  | .task (.call i (.publishHub _) _) => s.world.pending.head?.map Prod.fst = some i
  | .task (.call _ .nextSequence n) => n.toNat + 1 < UInt64.size
  | _ => True

def Stream.numbers (w : Stream ι) : List UInt64 := w.published.map Event.sequence ++ w.pending.map Prod.snd

/-- The numbers increase up to the counter, and each subscriber follows what is published. -/
structure Ordered (w : Stream ι) : Prop where
  increasing : w.numbers.Pairwise (· < ·)
  below : ∀ n ∈ w.numbers, n < w.sequence
  follows : ∀ c ∈ w.hub.subscribers, ∃ k ≤ w.published.length, c.Follows (w.published.drop k)

theorem EventHub.follows_publish {hub : EventHub} {published : List Event} (event : Event)
    (h : ∀ c ∈ hub.subscribers, ∃ k ≤ published.length, c.Follows (published.drop k)) :
    ∀ c ∈ (hub.publish event).subscribers, ∃ k ≤ (published ++ [event]).length,
      c.Follows ((published ++ [event]).drop k) := by
  intro c hc
  obtain ⟨c, hmem, rfl⟩ := List.mem_map.1 hc
  obtain ⟨k, hk, hfollows⟩ := h c hmem
  refine ⟨k, hk.trans (by simp), ?_⟩
  rw [List.drop_append_of_le_length hk]
  exact hfollows.send eventQueueCapacity event

theorem pending_publish {n : UInt64} (hw : Ordered w) (ht : Took i (some n) w)
    (hf : w.pending.head?.map Prod.fst = some i) :
    ∃ rest, w.pending = (i, n) :: rest ∧ w.pending.filter (fun taken => taken.1 ≠ i) = rest := by
  cases hp : w.pending with
  | nil =>
    rw [hp] at hf
    cases hf
  | cons first rest =>
    obtain ⟨j, m⟩ := first
    rw [hp] at hf
    obtain rfl : j = i := Option.some.inj hf
    have hm : m = n := (Option.some.inj ((ht m).1 (by rw [hp]; exact List.mem_cons_self))).symm
    subst hm
    refine ⟨rest, rfl, ?_⟩
    have hrest : ∀ taken ∈ rest, taken.1 ≠ j := by
      rintro ⟨j', m'⟩ hmem rfl
      have hm' := Option.some.inj ((ht m').1 (by rw [hp]; exact List.mem_cons_of_mem _ hmem))
      have hlt := (List.pairwise_append.1 hw.increasing).2.1
      rw [hp, List.map_cons, List.pairwise_cons] at hlt
      exact absurd (hlt.1 m' (List.mem_map_of_mem hmem)) (by rw [hm']; exact UInt64.lt_irrefl _)
    rw [List.filter_cons_of_neg (by simp)]
    exact List.filter_eq_self.2 fun taken hmem => by simpa using hrest taken hmem

theorem StreamAnswers.ordered (h : StreamAnswers i call w r w') (hmay : publisherProtocol.may taken call) (ht : Took i taken w)
    (hf : ∀ event, call = .publishHub event → w.pending.head?.map Prod.fst = some i)
    (hroom : call = .nextSequence → w.sequence.toNat + 1 < UInt64.size) (hw : Ordered w) : Ordered w' := by
  cases call with
  | nextSequence =>
    obtain ⟨-, hw'⟩ := h
    have hnumbers : w'.numbers = w.numbers ++ [w.sequence] := by simp [hw', Stream.numbers]
    have hlt : w.sequence < w.sequence + 1 := by
      have hroom := hroom rfl
      rw [UInt64.size] at hroom
      rw [UInt64.lt_iff_toNat_lt, UInt64.toNat_add, UInt64.toNat_one, Nat.mod_eq_of_lt hroom]
      exact Nat.lt_succ_self _
    refine ⟨?_, ?_, by rw [hw']; exact hw.follows⟩
    · rw [hnumbers, List.pairwise_append]
      exact ⟨hw.increasing, List.pairwise_singleton _ _, by simpa using hw.below⟩
    · rw [hnumbers, hw']
      intro n hn
      rcases List.mem_append.1 hn with hn | hn
      · exact UInt64.lt_trans (hw.below n hn) hlt
      · rw [List.mem_singleton.1 hn]
        exact hlt
  | publishHub event =>
    cases taken with
    | none => exact hmay.elim
    | some n =>
      obtain rfl : event.sequence = n := hmay
      obtain ⟨rest, hp, hfilter⟩ := pending_publish hw ht (hf event rfl)
      obtain rfl : w' = _ := h
      have hnumbers : Stream.numbers (ι := ι) ⟨w.sequence, w.hub.publish event, w.published ++ [event],
          w.pending.filter fun taken => taken.1 ≠ i⟩ = w.numbers := by
        rw [Stream.numbers, Stream.numbers, hfilter, hp]
        simp
      exact ⟨by rw [hnumbers]; exact hw.increasing, by rw [hnumbers]; exact hw.below,
        EventHub.follows_publish event hw.follows⟩
  | _ =>
    rw [show w' = w from h]
    exact hw

def InOrderStep (s : Streams ι) (l : StreamLabel ι) (s' : Streams ι) : Prop := StreamStep s l s' ∧ InOrder s l

structure WellOrdered (s : Streams ι) : Prop where
  sound : s.Sound publisherProtocol (fun taken _ => taken = none) Took
  ordered : Ordered s.world

theorem InOrderStep.wellOrdered {s s' : Streams ι} {l : StreamLabel ι} (h : InOrderStep s l s') (hs : WellOrdered s) :
    WellOrdered s' := by
  obtain ⟨h, hin⟩ := h
  cases h with
  | subscribe =>
    refine ⟨hs.sound, hs.ordered.increasing, hs.ordered.below, fun c hc => ?_⟩
    rcases List.mem_append.1 hc with hc | hc
    · exact hs.ordered.follows c hc
    · obtain rfl := List.mem_singleton.1 hc
      refine ⟨_, le_rfl, ?_⟩
      rw [List.drop_length]
      exact Channel.follows_fresh
  | recv hk hrecv =>
    refine ⟨hs.sound, hs.ordered.increasing, hs.ordered.below, fun c hc => ?_⟩
    rcases List.mem_or_eq_of_mem_set hc with hc | rfl
    · exact hs.ordered.follows c hc
    · obtain ⟨n, hn, hfollows⟩ := hs.ordered.follows _ (List.mem_of_getElem? hk)
      exact ⟨n, hn, hfollows.recv hrecv⟩
  | task h =>
    refine ⟨h.sound publisher_guards hs.sound, ?_⟩
    cases h with
    | spawn => exact hs.ordered
    | finish => exact hs.ordered
    | call hp hr =>
      obtain ⟨taken, ⟨hmay, -⟩, ht⟩ := hs.sound.running hp
      refine hr.ordered hmay ht (fun event he => ?_) (fun he => ?_) hs.ordered
      · subst he
        exact hin
      · subst he
        rw [← hr.1]
        exact hin

theorem publish_calls (actor : Actor) (topic : Topic) (payload : Json) (n : UInt64) : ∃ publishes done,
    (Publisher.publish actor topic payload).program = .call .nextSequence publishes ∧
      publishes n = .call (.publishHub ⟨ipcVersion, n, topic, payload⟩) done :=
  ⟨_, _, rfl, rfl⟩

theorem publishStatusEvent_calls (payload : Json) (n : UInt64) : ∃ publishes done,
    (Publisher.publishStatusEvent (some payload)).program = .call .nextSequence publishes ∧
      publishes n = .call (.publishHub ⟨ipcVersion, n, .status, payload⟩) done :=
  ⟨_, _, rfl, rfl⟩

/-- **If events are published in the order of their numbers, every subscriber receives them in that order,** so the bridge
keeps the connection. -/
theorem sequences_increase {s s' : Streams ι} {ls : List (StreamLabel ι)} (hidle : ∀ i, s.task i = none)
    (hpublished : s.world.published = []) (hpending : s.world.pending = []) (hnone : s.world.hub.subscribers = [])
    (h : Run InOrderStep s ls s') :
    ∀ c ∈ s'.world.hub.subscribers, c.taken.Pairwise (·.sequence < ·.sequence) ∧ (Session.receiveAll c.taken).isSome := by
  have hs : WellOrdered s := by
    refine ⟨fun i => ?_, ?_, ?_, ?_⟩
    · rw [hidle i]
      intro n
      simp [hpending, publisherProtocol]
    all_goals simp [Stream.numbers, hpublished, hpending, hnone]
  have hs' : WellOrdered s' := h.invariant (fun _ _ _ hstep => hstep.wellOrdered) hs
  intro c hc
  obtain ⟨k, -, hfollows⟩ := hs'.ordered.follows c hc
  have hall : s'.world.published.Pairwise (·.sequence < ·.sequence) :=
    List.pairwise_map.1 (List.pairwise_append.1 hs'.ordered.increasing).1
  have htaken := hall.sublist (hfollows.taken.sublist.trans (List.drop_sublist ..))
  exact ⟨htaken, (Session.receiveAll_iff _).2 htaken⟩

def blankActor : Actor := ⟨[], [], [], false, [], none, none, none⟩

/-- No publisher at work, and nobody has subscribed. -/
def quietStream : Streams Bool := ⟨fun _ => none, ⟨1, ⟨[]⟩, [], []⟩⟩

/-- A client subscribes; then the chat actor and the core take a number each, and both are about to publish. -/
theorem run_numbered : ∃ ls task done done', Run InOrderStep quietStream ls
      ⟨task, ⟨3, ⟨[.fresh]⟩, [], [(false, 1), (true, 2)]⟩⟩ ∧
    task false = some (.call (.publishHub ⟨ipcVersion, 1, .messages, .null⟩) done) ∧
    task true = some (.call (.publishHub ⟨ipcVersion, 2, .status, .null⟩) done') := by
  obtain ⟨publishes, done, hprogram, hpublishes⟩ := publish_calls blankActor .messages .null 1
  obtain ⟨publishes', done', hprogram', hpublishes'⟩ := publishStatusEvent_calls .null 2
  have h : Run InOrderStep quietStream [.subscribe, .task (.spawn false (.publish blankActor .messages .null)),
      .task (.call false .nextSequence 1), .task (.spawn true (.publishStatusEvent (some .null))),
      .task (.call true .nextSequence 2)] _ :=
    .cons ⟨.subscribe, trivial⟩ <| .cons ⟨.task (.spawn _ rfl), trivial⟩ <|
    .cons ⟨.task (.call_next hprogram ⟨rfl, rfl⟩), by simp [InOrder, UInt64.size]⟩ <|
    .cons ⟨.task (.spawn _ rfl), trivial⟩ <|
    .cons ⟨.task (.call_next hprogram' ⟨rfl, rfl⟩), by simp [InOrder, UInt64.size]⟩ (.nil _)
  exact ⟨_, _, done, done', h, congrArg some hpublishes, congrArg some hpublishes'⟩

/-- The chat actor and the core take a number each before either publishes, and publish in that order. -/
theorem sequences_increase_two_publishers : ∃ ls s, Run InOrderStep quietStream ls s ∧
    ∃ c ∈ s.world.hub.subscribers, c.taken.map Event.sequence = [1, 2] ∧ c.taken.Pairwise (·.sequence < ·.sequence) ∧
      (Session.receiveAll c.taken).isSome := by
  obtain ⟨ls, task, done, done', hnumbered, hchat, hcore⟩ := run_numbered
  have h := hnumbered.append <| .cons ⟨.task (.call (r := ()) hchat rfl), rfl⟩ <|
    .cons ⟨.task (.call (i := true) (r := ()) hcore rfl), rfl⟩ <| .cons ⟨.recv (k := 0) rfl rfl, trivial⟩ <|
    .cons ⟨.recv (k := 0) rfl rfl, trivial⟩ (.nil _)
  exact ⟨_, _, h, _, List.mem_singleton_self _, rfl, sequences_increase (fun _ => rfl) rfl rfl rfl h _
    (List.mem_singleton_self _)⟩

/-- The core takes its number after the chat actor and publishes before it: the subscriber receives 2 before 1, and the
bridge drops the connection. -/
theorem published_out_of_order : ∃ ls s, Run StreamStep quietStream ls s ∧
    ∃ c ∈ s.world.hub.subscribers, c.taken.map Event.sequence = [2, 1] ∧ Session.receiveAll c.taken = none := by
  obtain ⟨ls, task, done, done', hnumbered, hchat, hcore⟩ := run_numbered
  have h := (hnumbered.mono fun _ _ _ h => h.1).append <| .cons (.task (.call (r := ()) hcore rfl)) <|
    .cons (.task (.call (i := false) (r := ()) hchat rfl)) <| .cons (.recv (k := 0) rfl rfl) <|
    .cons (.recv (k := 0) rfl rfl) (.nil _)
  exact ⟨_, _, h, _, List.mem_singleton_self _, rfl, rfl⟩

end OmaChat.Daemon
