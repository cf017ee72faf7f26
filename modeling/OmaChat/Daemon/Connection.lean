import OmaChat.Daemon.Hub
import OmaChat.Daemon.Answers

/-!
# A connection of a client

`serve_client` as a machine with one step for each thing that it waits for: the requests of the client, the answer of the
chat actor, the events of the hub, and the socket. A `Subscribe` registers with the hub first and asks for the snapshot
then; a subscription whose queue was full gets no more events, and ends when the queue is empty.

* `ConnectionStep.inStep` : what was written since the last `Subscribe` starts with its answer, and its events are those
  that matched, without gaps.
* `ConnectionStep.receiver_cases`, `Connection.ends` : nothing is added to a queue but by the hub, and a connection whose queue
  was full comes to its end by itself.
-/

namespace OmaChat.Daemon
open Wire Proto Broadcast

variable {channel channel' : Channel Event} {event : Event} {id : String} {outcome : ResponseOutcome}
  {p : Nostr.Primitives}

/-- A line that `serve_client` writes. -/
inductive Line where
  | response (id : String) (outcome : ResponseOutcome)
  | event (event : Event)

def Line.toEvent : Line → Option Event
  | .response _ _ => none
  | .event e => some e

/-- Where `serve_client` is. -/
inductive Phase where
  | select
  /-- It handles a `Subscribe` and waits for the snapshot of the chat actor. -/
  | subscribing (id : String)
  /-- It has the snapshot, without the topics and the status. -/
  | snapshot (id : String) (value : Json)
  | answering (id : String) (outcome : ResponseOutcome)
  | writing (event : Event)
  | ended

/-- The state of `serve_client`, and of the last `Subscribe` its id, the lines written since and the events published
since. -/
structure Connection where
  phase : Phase
  topics : List Topic
  receiver : Option (Channel Event)
  subscription : Option String
  lines : List Line
  sent : List Event

variable {c c' : Connection}

namespace Connection

def accepted : Connection := ⟨.select, [], none, none, [], []⟩

def hear (event : Event) (c : Connection) : Connection :=
  { c with receiver := c.receiver.map (Channel.send eventQueueCapacity event), sent := c.sent ++ [event] }

def close (c : Connection) : Connection := { c with phase := .ended, receiver := none }

def put (line : Line) (c : Connection) : Connection := { c with phase := .select, lines := c.lines ++ [line] }

/-- An event that was taken from the queue is skipped if it is of another topic, and else written if it fits on a line. -/
def take (event : Event) (receiver : Channel Event) (c : Connection) : Connection :=
  if event.topic ∉ c.topics then { c with receiver := some receiver }
  else if (encodeLine event.json).isNone then c.close
  else { c with receiver := some receiver, phase := .writing event }

def reply (x : Except ChatError Json) (c : Connection) : Connection :=
  match c.phase, x with
  | .subscribing id, .ok value => { c with phase := .snapshot id value }
  | _, _ => c

/-- The events written since the last `Subscribe`. -/
def written (c : Connection) : List Event := c.lines.filterMap Line.toEvent

def inHand (c : Connection) : List Event :=
  match c.phase with
  | .writing event => [event]
  | _ => []

def matching (c : Connection) (event : Event) : Bool := event.topic ∈ c.topics

theorem foldl_hear (events : List Event) (c : Connection) (h : c.receiver = some channel) :
    events.foldl (fun c event => c.hear event) c = { c with
      receiver := some (events.foldl (fun channel event => channel.send eventQueueCapacity event) channel)
      sent := c.sent ++ events } := by
  induction events generalizing c channel with
  | nil => simp [← h]
  | cons event events ih =>
    have hsend : (c.hear event).receiver = some (channel.send eventQueueCapacity event) := by
      rw [hear, h]
      rfl
    rw [List.foldl_cons, ih (c.hear event) hsend]
    simp [hear]

end Connection

/-- What `serve_client` does by itself: it writes the answer that it has, takes the next event of the queue and writes it, and
ends where the queue has ended. -/
inductive ServeStep : Connection → Connection → Prop where
  | respond {c : Connection} {id : String} {outcome : ResponseOutcome} : c.phase = .answering id outcome →
      (respond id outcome).isSome → ServeStep c (c.put (.response id outcome))
  | overlong {c : Connection} {id : String} {outcome : ResponseOutcome} : c.phase = .answering id outcome →
      respond id outcome = none → ServeStep c c.close
  | recv {c : Connection} {channel channel' : Channel Event} {event : Event} : c.phase = .select →
      c.receiver = some channel → channel.recv = some (event, channel') → ServeStep c (c.take event channel')
  | write {c : Connection} {event : Event} : c.phase = .writing event → ServeStep c (c.put (.event event))
  | drained {c : Connection} {channel : Channel Event} : c.phase = .select → c.receiver = some channel →
      channel.queue = [] → channel.active = false → ServeStep c c.close

/-- One step of `serve_client` between two waits. Requests other than `Subscribe` are answered in any way. -/
inductive ConnectionStep (p : Nostr.Primitives) : Connection → Connection → Prop where
  | subscribe {c : Connection} (id : String) (topics : List Topic) : c.phase = .select →
      ConnectionStep p c ⟨.subscribing id, topics, some .fresh, some id, [], []⟩
  | request {c : Connection} (id : String) (outcome : ResponseOutcome) : c.phase = .select →
      ConnectionStep p c { c with phase := .answering id outcome }
  | refuse {c : Connection} {id : String} (code : IpcErrorCode) (message : String) : c.phase = .subscribing id →
      ConnectionStep p c { c with phase := .answering id (.error code message) }
  | status {c : Connection} {id : String} {value : Json} (status : DaemonStatus p) : c.phase = .snapshot id value →
      ConnectionStep p c { c with phase := .answering id (.ok (subscribeResult value c.topics status)) }
  | noStatus {c : Connection} {id : String} {value : Json} (code : IpcErrorCode) (message : String) :
      c.phase = .snapshot id value → ConnectionStep p c { c with phase := .answering id (.error code message) }
  | serve {c c' : Connection} : ServeStep c c' → ConnectionStep p c c'
  /-- The socket fails, the client leaves, or the daemon stops. -/
  | stop (c : Connection) : ConnectionStep p c c.close

/-! ## What is written -/

/-- Where the phase stands to the last `Subscribe`. -/
def Connection.AtPhase (c : Connection) : Prop :=
  match c.phase with
  | .select => c.subscription.isSome → c.lines ≠ []
  | .writing _ => c.receiver.isSome ∧ c.lines ≠ []
  | .subscribing id | .snapshot id _ => c.subscription = some id ∧ c.lines = []
  | .answering id _ => c.lines = [] → c.subscription.isSome → c.subscription = some id
  | .ended => True

/-- The lines and events of the last `Subscribe` are as they should be. -/
structure Connection.InStep (c : Connection) : Prop where
  phase : c.AtPhase
  subscribed : c.receiver.isSome → c.subscription.isSome
  first : ∀ id, c.subscription = some id → c.lines = [] ∨ ∃ outcome rest, c.lines = .response id outcome :: rest
  follows : ∀ channel, c.receiver = some channel → channel.Follows c.sent
  taken : ∀ channel, c.receiver = some channel → channel.taken.filter c.matching = c.written ++ c.inHand
  gapless : c.subscription.isSome → c.written <+: c.sent.filter c.matching

theorem Connection.inStep_accepted : Connection.accepted.InStep := ⟨nofun, nofun, nofun, nofun, nofun, nofun⟩

theorem Connection.InStep.close (h : c.InStep) : c.close.InStep := ⟨trivial, nofun, h.first, nofun, nofun, h.gapless⟩

namespace Connection
theorem AtPhase.select (h : c.AtPhase) (hp : c.phase = .select) : c.subscription.isSome → c.lines ≠ [] := by
  rw [AtPhase, hp] at h
  exact h

theorem AtPhase.writing (h : c.AtPhase) (hp : c.phase = .writing event) : c.receiver.isSome ∧ c.lines ≠ [] := by
  rw [AtPhase, hp] at h
  exact h

theorem AtPhase.subscribing (h : c.AtPhase) (hp : c.phase = .subscribing id) : c.subscription = some id ∧ c.lines = [] := by
  rw [AtPhase, hp] at h
  exact h

theorem AtPhase.snapshot (h : c.AtPhase) {value : Json} (hp : c.phase = .snapshot id value) :
    c.subscription = some id ∧ c.lines = [] := by
  rw [AtPhase, hp] at h
  exact h

theorem AtPhase.answering (h : c.AtPhase)
    (hp : c.phase = .answering id outcome) : c.lines = [] → c.subscription.isSome → c.subscription = some id := by
  rw [AtPhase, hp] at h
  exact h

theorem written_of_taken (hf : channel.Follows c.sent)
    (ht : channel.taken.filter c.matching = c.written ++ c.inHand) : c.written <+: c.sent.filter c.matching := by
  have hall := hf.taken.filter c.matching
  rw [ht] at hall
  exact (List.prefix_append _ _).trans hall

theorem AtPhase.hear (h : c.AtPhase) (event : Event) : (c.hear event).AtPhase := by
  obtain ⟨phase, topics, receiver, subscription, lines, sent⟩ := c
  cases phase
  case ended => trivial
  all_goals simpa [Connection.hear, AtPhase] using h

theorem InStep.hear (h : c.InStep) (event : Event) : (c.hear event).InStep := by
  refine ⟨h.phase.hear event, fun hr => h.subscribed (by simpa [Connection.hear] using hr), h.first, fun channel hr => ?_,
    fun channel hr => ?_, fun hs => ?_⟩
  · obtain ⟨old, hold, rfl⟩ := Option.map_eq_some_iff.1 hr
    exact (h.follows old hold).send eventQueueCapacity event
  · obtain ⟨old, hold, rfl⟩ := Option.map_eq_some_iff.1 hr
    rw [Channel.taken_send]
    exact h.taken old hold
  · refine (h.gapless hs).trans ?_
    show c.sent.filter c.matching <+: (c.sent ++ [event]).filter c.matching
    rw [List.filter_append]
    exact List.prefix_append _ _

theorem InStep.goTo (h : c.InStep) {phase : Phase} (hp : ({ c with phase := phase } : Connection).AtPhase)
    (hhand : ({ c with phase := phase } : Connection).inHand = c.inHand) :
    ({ c with phase := phase } : Connection).InStep := by
  refine ⟨hp, h.subscribed, h.first, h.follows, fun channel hr => ?_, h.gapless⟩
  rw [hhand]
  exact h.taken channel hr

theorem written_put (line : Line) (c : Connection) : (c.put line).written = c.written ++ line.toEvent.toList := by
  rw [written, put, List.filterMap_append, ← written]
  cases line <;> rfl

theorem InStep.respond (h : c.InStep) (hp : c.phase = .answering id outcome) : (c.put (.response id outcome)).InStep := by
  have hwr : (c.put (.response id outcome)).written = c.written := by
    rw [written_put]
    exact List.append_nil _
  have hhand : c.inHand = [] := by rw [inHand, hp]
  refine ⟨fun _ => by simp [put], h.subscribed, fun id' hs => ?_, h.follows, fun channel hr => ?_, fun hs => ?_⟩
  · obtain hnil | ⟨outcome', rest, hlines⟩ := h.first id' hs
    · -- the first line since the `Subscribe`, so it answers it
      have hid := h.phase.answering hp hnil (Option.isSome_of_eq_some hs)
      obtain rfl := Option.some.inj (hs.symm.trans hid)
      exact .inr ⟨outcome, [], by rw [put, hnil]; rfl⟩
    · exact .inr ⟨outcome', rest ++ [.response id outcome], by rw [put, hlines]; rfl⟩
  · rw [hwr]
    have htaken := h.taken channel hr
    rwa [hhand] at htaken
  · rw [hwr]
    exact h.gapless hs

theorem InStep.write (h : c.InStep) (hp : c.phase = .writing event) : (c.put (.event event)).InStep := by
  have hhand : c.inHand = [event] := by rw [inHand, hp]
  have hwr : (c.put (.event event)).written = c.written ++ c.inHand := by rw [written_put, hhand]; rfl
  obtain ⟨hrcvr, hne⟩ := h.phase.writing hp
  have htaken : ∀ channel, c.receiver = some channel →
      channel.taken.filter c.matching = (c.put (.event event)).written ++ [] := by
    intro channel hr
    rw [hwr, List.append_nil]
    exact h.taken channel hr
  refine ⟨fun _ => by simp [put], h.subscribed, fun id hs => ?_, h.follows, htaken, fun _ => ?_⟩
  · obtain hnil | ⟨outcome, rest, hlines⟩ := h.first id hs
    · exact absurd hnil hne
    · exact .inr ⟨outcome, rest ++ [.event event], by rw [put, hlines]; rfl⟩
  · obtain ⟨channel, hr⟩ := Option.isSome_iff_exists.1 hrcvr
    exact written_of_taken (c := c.put (.event event)) (h.follows channel hr) (htaken channel hr)

theorem InStep.take (h : c.InStep) (hp : c.phase = .select)
    (hr : c.receiver = some channel) (hrecv : channel.recv = some (event, channel')) : (c.take event channel').InStep := by
  obtain ⟨-, -, htaken'⟩ := Channel.recv_eq_some hrecv
  have hfollows := (h.follows channel hr).recv hrecv
  have htaken := h.taken channel hr
  have hhand : c.inHand = [] := by rw [inHand, hp]
  have hsome : c.receiver.isSome := Option.isSome_of_eq_some hr
  have hsel := h.phase.select hp
  rw [hhand, List.append_nil] at htaken
  unfold Connection.take
  split_ifs with htopic hline
  · exact h.close
  · -- to be written
    have hmatching : c.matching event = true := decide_eq_true htopic
    refine ⟨⟨rfl, hsel (h.subscribed hsome)⟩, fun _ => h.subscribed hsome, h.first, ?_, ?_, h.gapless⟩
    · rintro _ ⟨⟩
      exact hfollows
    · rintro _ ⟨⟩
      show channel'.taken.filter c.matching = c.written ++ [event]
      rw [htaken', List.filter_append, htaken, List.filter_singleton, hmatching]
      rfl
  · -- skipped
    have hmatching : c.matching event = false := decide_eq_false htopic
    refine ⟨?_, fun _ => h.subscribed hsome, h.first, ?_, ?_, h.gapless⟩
    · rw [AtPhase, show ({ c with receiver := some channel' } : Connection).phase = _ from hp]
      exact hsel
    · rintro _ ⟨⟩
      exact hfollows
    · rintro _ ⟨⟩
      show channel'.taken.filter c.matching = c.written ++ c.inHand
      rw [htaken', List.filter_append, htaken, hhand, List.filter_singleton, hmatching]
      rfl

end Connection

/-- **Every step of a connection keeps it in step.** -/
theorem ConnectionStep.inStep (h : ConnectionStep p c c') (hc : c.InStep) : c'.InStep := by
  cases h with
  | subscribe id topics =>
    refine ⟨⟨rfl, rfl⟩, fun _ => rfl, fun _ _ => .inl rfl, ?_, ?_, fun _ => List.prefix_refl []⟩
    · rintro _ ⟨⟩
      exact Channel.follows_fresh
    · rintro _ ⟨⟩
      rfl
  | request id outcome hp =>
    refine hc.goTo (fun hnil hs => absurd hnil (hc.phase.select hp hs)) ?_
    rw [Connection.inHand, Connection.inHand, hp]
  | refuse code message hp =>
    refine hc.goTo (fun _ _ => (hc.phase.subscribing hp).1) ?_
    rw [Connection.inHand, Connection.inHand, hp]
  | status status hp =>
    refine hc.goTo (fun _ _ => (hc.phase.snapshot hp).1) ?_
    rw [Connection.inHand, Connection.inHand, hp]
  | noStatus code message hp =>
    refine hc.goTo (fun _ _ => (hc.phase.snapshot hp).1) ?_
    rw [Connection.inHand, Connection.inHand, hp]
  | serve h =>
    cases h with
    | respond hp _ => exact hc.respond hp
    | recv hp hr hrecv => exact hc.take hp hr hrecv
    | write hp => exact hc.write hp
    | overlong | drained => exact hc.close
  | stop => exact hc.close

theorem Connection.InStep.reply (h : c.InStep) (x : Except ChatError Json) : (c.reply x).InStep := by
  unfold Connection.reply
  split
  · rename_i hp
    refine h.goTo (h.phase.subscribing hp) ?_
    rw [Connection.inHand, Connection.inHand, hp]
  · exact h

@[simp] theorem Connection.sent_reply (c : Connection) (x : Except ChatError Json) : (c.reply x).sent = c.sent := by
  unfold Connection.reply
  split <;> rfl

/-! ## The result of a subscription -/

/-- The result of the last `Subscribe`: the snapshot that it will hold, the one that is about to be answered, or the one
that was answered. -/
inductive Connection.Result (c : Connection) : Json → Prop where
  | snapshot {id : String} {value : Json} : c.phase = .snapshot id value → c.Result value
  | answering {id : String} {result : Json} : c.phase = .answering id (.ok result) → c.lines = [] →
      c.subscription.isSome → c.Result result
  | answered {id : String} {result : Json} {rest : List Line} : c.lines = .response id (.ok result) :: rest →
      c.subscription.isSome → c.Result result

theorem Connection.Result.of_lines {result : Json} (h : c'.Result result)
    (hsnap : ∀ id value, c'.phase ≠ .snapshot id value) (hanswering : ∀ id result, c'.phase ≠ .answering id (.ok result))
    (hlines : c'.lines = c.lines) (hsub : c'.subscription = c.subscription) : c.Result result := by
  cases h with
  | snapshot hp => exact absurd hp (hsnap _ _)
  | answering hp => exact absurd hp (hanswering _ _)
  | answered hl hs => exact .answered (hlines ▸ hl) (hsub ▸ hs)

theorem Connection.Result.of_hear {result : Json} (h : (c.hear event).Result result) : c.Result result := by
  cases h with
  | snapshot hp => exact .snapshot hp
  | answering hp hl hs => exact .answering hp hl hs
  | answered hl hs => exact .answered hl hs

theorem Connection.Result.of_reply {x : Except ChatError Json} {result : Json} (hc : c.InStep)
    (h : (c.reply x).Result result) : c.Result result ∨ x = .ok result := by
  unfold Connection.reply at h
  split at h
  · rename_i id value hp
    cases h with
    | snapshot hp' =>
      cases hp'
      exact .inr rfl
    | answering hp' => cases hp'
    | answered hl _ =>
      have hnil : c.lines = [] := (hc.phase.subscribing hp).2
      cases hnil.symm.trans hl
  · exact .inl h

theorem Connection.Result.of_put {line : Line} {result : Json} (h : (c.put line).Result result) :
    c.Result result ∨ (c.lines = [] ∧ c.subscription.isSome ∧ ∃ id, line = .response id (.ok result)) := by
  cases h with
  | snapshot hp => cases hp
  | answering hp => cases hp
  | answered hl hs =>
    cases hc : c.lines with
    | nil =>
      rw [put, hc] at hl
      exact .inr ⟨rfl, hs, _, (List.cons.inj hl).1⟩
    | cons first rest =>
      rw [put, hc] at hl
      exact .inl (.answered (hc.trans (congrArg (· :: rest) (List.cons.inj hl).1)) hs)

theorem ConnectionStep.result {result : Json} (h : ConnectionStep p c c') (hc : c.InStep)
    (hr : c'.Result result) : c'.sent = c.sent ∧
      (c.Result result ∨ ∃ value status, c.Result value ∧ result = subscribeResult (p := p) value c.topics status) := by
  cases h with
  | subscribe id topics => cases hr <;> contradiction
  | request id outcome hp =>
    refine ⟨rfl, .inl ?_⟩
    cases hr with
    | snapshot hp' => cases hp'
    | answering _ hnil hs => exact absurd hnil (hc.phase.select hp hs)
    | answered hl hs => exact .answered hl hs
  | refuse code message hp => exact ⟨rfl, .inl (hr.of_lines nofun nofun rfl rfl)⟩
  | noStatus code message hp => exact ⟨rfl, .inl (hr.of_lines nofun nofun rfl rfl)⟩
  | status status hp =>
    refine ⟨rfl, ?_⟩
    cases hr with
    | snapshot hp' => cases hp'
    | answering hp' =>
      obtain ⟨-, hres⟩ := Phase.answering.inj hp'
      exact .inr ⟨_, status, .snapshot hp, (ResponseOutcome.ok.inj hres).symm⟩
    | answered hl hs => exact .inl (.answered hl hs)
  | serve h =>
    cases h with
    | respond hp _ =>
      refine ⟨rfl, .inl ?_⟩
      obtain hr | ⟨hnil, hs, _, hline⟩ := hr.of_put
      · exact hr
      · obtain ⟨rfl, rfl⟩ := Line.response.inj hline
        exact .answering hp hnil hs
    | write hp =>
      refine ⟨rfl, .inl ?_⟩
      obtain hr | ⟨-, -, _, hline⟩ := hr.of_put
      · exact hr
      · cases hline
    | recv hp _ _ =>
      unfold Connection.take at hr ⊢
      split_ifs at hr ⊢
      · exact ⟨rfl, .inl (hr.of_lines nofun nofun rfl rfl)⟩
      · exact ⟨rfl, .inl (hr.of_lines nofun nofun rfl rfl)⟩
      · refine ⟨rfl, .inl (hr.of_lines ?_ ?_ rfl rfl)⟩ <;> simp [hp]
    | overlong | drained => exact ⟨rfl, .inl (hr.of_lines nofun nofun rfl rfl)⟩
  | stop => exact ⟨rfl, .inl (hr.of_lines nofun nofun rfl rfl)⟩

/-! ## The end of a queue -/

/-- A step begins a new subscription, or it leaves of the queue what it was, but for what it takes from it. -/
theorem ConnectionStep.receiver_cases (h : ConnectionStep p c c') (hr : c'.receiver = some channel') :
    (∃ id topics, c' = ⟨.subscribing id, topics, some .fresh, some id, [], []⟩) ∨
      (∀ id, c'.phase ≠ .subscribing id) ∧ ∃ channel, c.receiver = some channel ∧ channel'.active = channel.active ∧
        channel'.queue <:+ channel.queue := by
  have hkept (hp : ∀ id, c'.phase ≠ .subscribing id) (hsame : c'.receiver = c.receiver) :
      (∀ id, c'.phase ≠ .subscribing id) ∧ ∃ channel, c.receiver = some channel ∧ channel'.active = channel.active ∧
        channel'.queue <:+ channel.queue := ⟨hp, channel', hsame ▸ hr, rfl, List.suffix_refl _⟩
  cases h with
  | subscribe id topics => exact .inl ⟨id, topics, rfl⟩
  | request | refuse | status | noStatus => exact .inr (hkept nofun rfl)
  | serve h =>
    cases h with
    | respond | write => exact .inr (hkept nofun rfl)
    | overlong | drained => cases hr
    | @recv channel next event hp hold hrecv =>
      obtain ⟨hact, hq, -⟩ := Channel.recv_eq_some hrecv
      have hsuffix : next.queue <:+ channel.queue := hq ▸ List.suffix_cons event next.queue
      unfold Connection.take at hr ⊢
      split_ifs at hr ⊢
      · cases hr
      · obtain rfl := Option.some.inj hr
        exact .inr ⟨nofun, channel, hold, hact, hsuffix⟩
      · obtain rfl := Option.some.inj hr
        refine .inr ⟨fun id hid => ?_, channel, hold, hact, hsuffix⟩
        cases hp.symm.trans hid
  | stop => cases hr

namespace Connection

theorem serveStep_unique {c₁ : Connection} (h : ServeStep c c') (h₁ : ServeStep c c₁) : c₁ = c' := by
  cases h <;> cases h₁ <;> simp_all [Channel.recv]

/-- The connection, left to itself, comes to its end: it goes on, and every way leads there. -/
inductive Ends : Connection → Prop where
  | ended {c : Connection} : c.phase = .ended → Ends c
  | goesOn {c c' : Connection} : ServeStep c c' → (∀ c', ServeStep c c' → Ends c') → Ends c

theorem Ends.head (h : ServeStep c c') (hends : c'.Ends) : c.Ends :=
  .goesOn h fun _ h₁ => serveStep_unique h h₁ ▸ hends

theorem ends_close (c : Connection) : c.close.Ends := .ended rfl

theorem ends_of_select (hp : c.phase = .select) (hr : c.receiver = some channel) (hact : channel.active = false) : c.Ends := by
  -- what is queued is taken, and nothing comes after it
  induction hq : channel.queue generalizing c channel with
  | nil => exact .head (.drained hp hr hq hact) (ends_close c)
  | cons event queue ih =>
    have hrecv : channel.recv = some (event, ⟨channel.active, queue, channel.taken ++ [event]⟩) := by rw [Channel.recv, hq]
    refine .head (.recv hp hr hrecv) ?_
    unfold take
    split_ifs
    · exact ends_close c
    · exact .head (.write rfl) (ih rfl rfl hact rfl)
    · exact ih hp rfl hact rfl

/-- **A connection whose queue was full ends**: it writes what it has, takes what is left and ends. -/
theorem ends (hr : c.receiver = some channel) (hact : channel.active = false) (hsub : ∀ id, c.phase ≠ .subscribing id)
    (hsnap : ∀ id value, c.phase ≠ .snapshot id value) : c.Ends := by
  cases hp : c.phase with
  | select => exact ends_of_select hp hr hact
  | subscribing id => exact absurd hp (hsub id)
  | snapshot id value => exact absurd hp (hsnap id value)
  | answering id outcome =>
    cases hfits : respond id outcome with
    | none => exact .head (.overlong hp hfits) (ends_close c)
    | some line => exact .head (.respond hp (Option.isSome_of_eq_some hfits)) (ends_of_select rfl hr hact)
  | writing event => exact .head (.write hp) (ends_of_select rfl hr hact)
  | ended => exact .ended hp

end Connection

end OmaChat.Daemon
