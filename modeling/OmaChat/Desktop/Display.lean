import OmaChat.Daemon.Announcing
import OmaChat.Desktop.ChatState

/-!
# The window shows the daemon's messages

The daemon and the window each keep the last 128 messages, and the window learns of new ones only through events. It has
registered for them before the snapshot is taken, so the first events may be about messages that the snapshot lists.

* `Shows l events l'` : the events lead from the list `l` to `l'`, by messages that are listed or new;
* `Displays.step` : what a call of the actor keeps of the snapshot, the events and the list;
* `window_shows_history` : in every state that the daemon reaches, once all events are delivered, the window shows the
  daemon's list.
-/

namespace OmaChat.Desktop
open Wire Effects Proto Durable Transition Broadcast Daemon
open Nostr (Primitives transparent)

variable {event : Event} {g : Ledger} {w w' : LiveWorld} {x : Except ChatError Json} {p : Primitives}
  {l l' : List StoredMessage} {m : StoredMessage}

/-! ## Lists and events -/

/-- A list of messages as the actor holds them. -/
structure History (l : List StoredMessage) : Prop where
  bounded : l.length ≤ maxMessages
  distinct : (l.map StoredMessage.id).Nodup

theorem history_nil : History [] := ⟨Nat.zero_le _, List.nodup_nil⟩

theorem History.push (h : History l) (hm : m.id ∉ l.map StoredMessage.id) : History (Window.push maxMessages l m) := by
  refine ⟨Window.length_push_le (by decide) h.bounded m, Window.nodup_map_push h.distinct fun hmem => hm ?_⟩
  exact ((Window.evict_sublist maxMessages l).map _).subset hmem

/-- The events lead from a list to another: those of the messages announce one that is listed, or a new one. -/
inductive Shows : List StoredMessage → List Event → List StoredMessage → Prop where
  | nil (l : List StoredMessage) : Shows l [] l
  | other {l l' : List StoredMessage} {event : Event} {events : List Event} : event.topic ≠ .messages →
      Shows l events l' → Shows l (event :: events) l'
  | again {l l' : List StoredMessage} {event : Event} {events : List Event} {m : StoredMessage} : Announces event m →
      m ∈ l → Shows l events l' → Shows l (event :: events) l'
  | new {l l' : List StoredMessage} {event : Event} {events : List Event} {m : StoredMessage} : Announces event m →
      m.id ∉ l.map StoredMessage.id → Shows (Window.push maxMessages l m) events l' → Shows l (event :: events) l'

variable {c c' : Connection} {events : List Event} {call : Call} {s : Live} {records : World}

theorem Shows.append {l'' : List StoredMessage} {events' : List Event} (h : Shows l events l')
    (h' : Shows l' events' l'') : Shows l (events ++ events') l'' := by
  induction h with
  | nil => exact h'
  | other htopic _ ih => exact .other htopic (ih h')
  | again ha hm _ ih => exact .again ha hm (ih h')
  | new ha hm _ ih => exact .new ha hm (ih h')

theorem Shows.filter {f : Event → Bool} (h : Shows l events l')
    (hf : ∀ event : Event, event.topic = .messages → f event = true) : Shows l (events.filter f) l' := by
  induction h with
  | nil => exact .nil _
  | @other _ _ event _ htopic _ ih =>
    rw [List.filter_cons]
    split
    · exact .other htopic ih
    · exact ih
  | again ha hm _ ih =>
    rw [List.filter_cons, if_pos (hf _ ha.1)]
    exact .again ha hm ih
  | new ha hm _ ih =>
    rw [List.filter_cons, if_pos (hf _ ha.1)]
    exact .new ha hm ih

theorem shows_listed (h : ∀ event ∈ events, event.topic = .messages → ∃ m ∈ l, Announces event m) :
    Shows l events l := by
  induction events with
  | nil => exact .nil l
  | cons event events ih =>
    have hrest := ih fun e he => h e (List.mem_cons_of_mem _ he)
    by_cases htopic : event.topic = .messages
    · obtain ⟨m, hm, ha⟩ := h event List.mem_cons_self htopic
      exact .again ha hm hrest
    · exact .other htopic hrest

/-! ## The window follows -/

section
open ChatState

theorem field_id_value (m : StoredMessage) : m.value.field "id" = some (.str m.id) := by
  rw [m.value_eq]
  rfl

theorem truthy_value (m : StoredMessage) : truthy m.value = true := by
  rw [m.value_eq]
  rfl

theorem null_not_mem_values (l : List StoredMessage) : .null ∉ l.map StoredMessage.value := by
  intro hmem
  obtain ⟨m, -, hm⟩ := List.mem_map.1 hmem
  have htruthy := truthy_value m
  rw [hm] at htruthy
  cases htruthy

theorem findIndex_value (l : List StoredMessage) (m : StoredMessage) :
    findIndex (fun existing => (property "id" existing).map (strictEq · (m.value.field "id"))) (l.map StoredMessage.value) =
      some (l.findIdx? fun x => x.id == m.id) := by
  rw [findIndex_property _ _ (null_not_mem_values l), List.findIdx?_map]
  simp only [Function.comp_def, field_id_value, strictEq]

theorem putMessage_listed (hl : History l) (hm : m ∈ l) :
    putMessage m.value (l.map StoredMessage.value) = some (l.map StoredMessage.value) := by
  obtain ⟨i, hi⟩ : ∃ i, l.findIdx? (fun x => x.id == m.id) = some i :=
    Option.isSome_iff_exists.1 (List.findIdx?_isSome.trans (List.any_eq_true.2 ⟨m, hm, BEq.rfl⟩))
  obtain ⟨hlt, hid, -⟩ := List.findIdx?_eq_some_iff_getElem.1 hi
  have heq : l[i] = m := List.inj_on_of_nodup_map hl.distinct (List.getElem_mem hlt) hm (eq_of_beq hid)
  have hset : (l.map StoredMessage.value).set i m.value = l.map StoredMessage.value := by
    rw [← List.map_set, ← heq, List.set_getElem_self]
  have hbd : ¬ maxShown < (l.map StoredMessage.value).length := by
    rw [List.length_map]
    exact Nat.not_lt.2 hl.bounded
  unfold putMessage
  rw [findIndex_value, hi]
  simp only [Option.bind_eq_bind, Option.bind_some, hset, if_neg hbd]

theorem putMessage_new (hl : History l) (hm : m.id ∉ l.map StoredMessage.id) :
    putMessage m.value (l.map StoredMessage.value) = some ((Window.push maxMessages l m).map StoredMessage.value) := by
  have hnone : l.findIdx? (fun x => x.id == m.id) = none := by
    rw [List.findIdx?_eq_none_iff]
    intro x hx
    exact beq_eq_false_iff_ne.2 fun heq => hm (heq ▸ List.mem_map_of_mem hx)
  have hbd := hl.bounded
  unfold putMessage
  rw [findIndex_value, hnone]
  simp only [Option.bind_eq_bind, Option.bind_some, Option.some.injEq, List.length_append, List.length_map,
    List.length_singleton]
  rw [Window.push, Window.evict]
  by_cases hfull : l.length = maxMessages
  · -- both drop the oldest
    rw [if_pos (by rw [hfull]; decide), if_pos hfull, List.map_append, List.map_tail,
      List.tail_append_of_ne_nil (by rintro hnil; simp [List.map_eq_nil_iff.1 hnil, maxMessages] at hfull), List.map_singleton]
  · have hroom : ¬ maxShown < l.length + 1 := by
      have : maxShown = maxMessages := rfl
      omega
    rw [if_neg hroom, if_neg hfull, List.map_append, List.map_singleton]

theorem field_topic_json (event : Event) : event.json.field "topic" = some (.str event.topic.name) := rfl

variable {state : ChatState}

theorem event_announced (ha : Announces event m) (hmsgs : state.messages = .arr (l.map StoredMessage.value)) :
    state.event event.json = (putMessage m.value (l.map StoredMessage.value)).map fun messages =>
      { state with messages := .arr messages } := by
  refine event_messages rfl ?_ ?_ (truthy_value m) hmsgs
  · rw [field_topic_json, ha.1]
    rfl
  · show some event.payload = _
    rw [ha.2]

theorem topic_name_ne {topic : Topic} (h : topic ≠ .messages) : topic.name ≠ "messages" := by
  cases topic with
  | messages => exact absurd rfl h
  | _ => decide

/-- **The window follows the events.** -/
theorem Shows.fold (h : Shows l events l') (hl : History l)
    (hmsgs : state.messages = .arr (l.map StoredMessage.value)) (hcts : state.ContactsReadable) :
    ∃ final, (events.map Event.json).foldlM ChatState.event state = some final ∧
      final.messages = .arr (l'.map StoredMessage.value) := by
  induction h generalizing state with
  | nil l => exact ⟨state, rfl, hmsgs⟩
  | other htopic _ ih =>
    obtain ⟨state', hev, hsame, hcts'⟩ := event_other (field_topic_json _) (topic_name_ne htopic) hcts
    rw [List.map_cons, List.foldlM_cons, hev]
    exact ih hl (hsame.trans hmsgs) hcts'
  | again ha hm _ ih =>
    rw [List.map_cons, List.foldlM_cons, event_announced ha hmsgs, putMessage_listed hl hm]
    exact ih hl rfl hcts
  | new ha hm _ ih =>
    rw [List.map_cons, List.foldlM_cons, event_announced ha hmsgs, putMessage_new hl hm]
    exact ih (hl.push hm) rfl hcts

end

/-! ## The connection -/

/-- The result of a `Subscribe` lists messages, and contacts that the window can read. -/
structure Lists (listed : List StoredMessage) (result : Json) : Prop where
  messages : result.field "messages" = some (.arr (listed.map StoredMessage.value))
  contacts : ∃ contacts, result.field "contacts" = some (.arr contacts) ∧ .null ∉ contacts

theorem lists_snapshotOf (actor : Actor) (secret : Option (NostrSecret p)) : Lists actor.messages (snapshotOf actor secret) := by
  refine ⟨field_messages_snapshotOf actor secret, actor.contacts.map Contact.value, ?_, ?_⟩
  · simp [snapshotOf, Json.object, Json.insertField, Json.keyLt, Json.field]
  · intro hmem
    obtain ⟨contact, -, hct⟩ := List.mem_map.1 hmem
    rw [contact.value_eq] at hct
    cases hct

theorem Lists.subscribeResult {listed : List StoredMessage} {snapshot : Json} (h : Lists listed snapshot) (topics : List Topic)
    (status : DaemonStatus p) : Lists listed (subscribeResult snapshot topics status) := by
  have hf : ∀ key, key ≠ "status" → key ≠ "topics" → (Daemon.subscribeResult snapshot topics status).field key =
      snapshot.field key := fun key hstat htopics => by
    rw [Daemon.subscribeResult, field_setField_of_ne hstat, field_setField_of_ne htopics]
  refine ⟨?_, ?_⟩
  · rw [hf _ (by decide) (by decide)]
    exact h.messages
  · rw [hf _ (by decide) (by decide)]
    exact h.contacts

/-- The events that a subscriber waits with are recent: nothing was taken from the queue, and at most as many messages came
since. -/
structure Waits (l : List StoredMessage) (c : Connection) (channel : Channel Event) : Prop where
  untaken : channel.taken = []
  room : channel.queue.length ≤ eventQueueCapacity
  recent : ∀ event ∈ c.sent, event.topic = .messages → ∃ m, Announces event m ∧ Window.Recent c.sent.length m l

/-- While the actor has announced `l`, the connection has heard of it all: the events are recent until the snapshot is taken,
and from then on they lead from the snapshot to `l`. -/
structure Follows (l : List StoredMessage) (c : Connection) : Prop where
  waits : ∀ id channel, c.phase = .subscribing id → c.receiver = some channel → channel.active = true → Waits l c channel
  told : ∀ result channel, c.Result result → c.receiver = some channel → channel.active = true →
    ∃ listed, Lists listed result ∧ History listed ∧ Shows listed c.sent l

/-- What an event does to the list that was announced. -/
inductive Tells (event : Event) (l : List StoredMessage) : List StoredMessage → Prop where
  | other : event.topic ≠ .messages → Tells event l l
  | new {m : StoredMessage} : Announces event m → m.id ∉ l.map StoredMessage.id →
    Tells event l (Window.push maxMessages l m)

theorem Tells.shows (h : Tells event l l') : Shows l [event] l' := by
  cases h with
  | other htopic => exact .other htopic (.nil _)
  | new ha hm => exact .new ha hm (.nil _)

theorem Tells.recent (h : Tells event l l') {k : Nat} (hk : k + 1 < maxMessages)
    (hm : Window.Recent k m l) : Window.Recent (k + 1) m l' := by
  cases h with
  | other => exact hm.mono (Nat.le_succ k)
  | new => exact hm.push hk _

theorem Tells.announced (h : Tells event l l') (htopic : event.topic = .messages) (k : Nat) :
    ∃ m, Announces event m ∧ Window.Recent k m l' := by
  cases h with
  | other hne => exact absurd htopic hne
  | new ha _ => exact ⟨_, ha, (Window.recent_push_self _ _ _).mono (Nat.zero_le k)⟩

theorem Waits.hear {channel : Channel Event} (h : Waits l c channel) (hc : c.InStep)
    (hrcvr : c.receiver = some channel) (hact : (channel.send eventQueueCapacity event).active = true)
    (ht : Tells event l l') : Waits l' (c.hear event) (channel.send eventQueueCapacity event) := by
  obtain ⟨hold, hroom, hq⟩ := Channel.send_active hact
  have hsent : c.sent.length = channel.queue.length := by
    rw [← (hc.follows channel hrcvr).complete hold, Channel.got, h.untaken, List.nil_append]
  have hlen : (c.hear event).sent.length = c.sent.length + 1 := List.length_append
  refine ⟨?_, ?_, fun e he htopic => ?_⟩
  · rw [Channel.taken_send, h.untaken]
  · rw [hq, List.length_append, List.length_singleton]
    exact hroom
  · rw [hlen]
    rcases List.mem_append.1 (show e ∈ c.sent ++ [event] from he) with he | he
    · obtain ⟨m, ha, hm⟩ := h.recent e he htopic
      refine ⟨m, ha, ht.recent ?_ hm⟩
      have : eventQueueCapacity < maxMessages := by decide
      omega
    · obtain rfl := List.mem_singleton.1 he
      exact ht.announced htopic _

theorem Follows.hear (h : Follows l c) (hc : c.InStep) (ht : Tells event l l') : Follows l' (c.hear event) := by
  constructor
  · intro id channel hp hr hact
    obtain ⟨old, hold, rfl⟩ := Option.map_eq_some_iff.1 hr
    exact (h.waits id old hp hold (Channel.send_active hact).1).hear hc hold hact ht
  · intro result channel hres hr hact
    obtain ⟨old, hold, rfl⟩ := Option.map_eq_some_iff.1 hr
    obtain ⟨listed, hlists, hhistory, hshows⟩ := h.told result old hres.of_hear hold (Channel.send_active hact).1
    exact ⟨listed, hlists, hhistory, hshows.append ht.shows⟩

theorem sent_step (h : ConnectionStep p c c') : c'.sent = [] ∨ c'.sent = c.sent := by
  cases h with
  | subscribe => exact .inl rfl
  | serve h =>
    cases h with
    | recv =>
      unfold Connection.take
      split_ifs <;> exact .inr rfl
    | _ => exact .inr rfl
  | _ => exact .inr rfl

theorem Follows.serve (h : Follows l c) (hc : c.InStep) (hstep : ConnectionStep p c c') : Follows l c' := by
  constructor
  · intro id channel hp hr hact
    rcases hstep.receiver_cases hr with ⟨id, topics, rfl⟩ | ⟨hne, -⟩
    · obtain rfl := Option.some.inj hr
      exact ⟨rfl, Nat.zero_le _, nofun⟩
    · exact absurd hp (hne id)
  · intro result channel hres hr hact
    rcases hstep.receiver_cases hr with ⟨id, topics, rfl⟩ | ⟨-, old, hold, hsame, -⟩
    · cases hres <;> contradiction
    · obtain ⟨hsent, hres | ⟨value, status, hv, rfl⟩⟩ := hstep.result hc hres
      · rw [hsent]
        exact h.told result old hres hold (hsame.symm.trans hact)
      · rw [hsent]
        obtain ⟨listed, hlists, hrest⟩ := h.told value old hv hold (hsame.symm.trans hact)
        exact ⟨listed, hlists.subscribeResult _ status, hrest⟩

/-- **A snapshot is taken**: the events so far are about messages that it lists. -/
theorem Follows.reply (h : Follows l c) (hc : c.InStep) (hl : History l)
    (hx : ∀ value, x = .ok value → Lists l value) : Follows l (c.reply x) := by
  unfold Connection.reply
  split
  · rename_i id value hp
    refine ⟨nofun, fun result channel hres hr hact => ?_⟩
    obtain rfl : result = value := by
      cases hres with
      | snapshot hp' => cases hp'; rfl
      | answering hp' => cases hp'
      | answered hlines _ => cases (hc.phase.subscribing hp).2.symm.trans hlines
    refine ⟨l, hx _ rfl, hl, shows_listed fun event he htopic => ?_⟩
    obtain ⟨m, ha, hm⟩ := (h.waits id channel hp hr hact).recent event he htopic
    exact ⟨m, hm.mem, ha⟩
  · exact h

/-! ## The actor's calls -/

def plain : Call → Bool
  | .read .messages | .write .messages _ | .publishHub _ => false
  | _ => true

theorem plain_cases (call : Call) : plain call = true ∨ call = .read .messages ∨
    (∃ saved, call = .write .messages saved) ∨ ∃ event, call = .publishHub event := by
  cases call with
  | read record | write record _ =>
    cases record <;> simp [plain]
  | _ => simp [plain]

theorem learn_plain (h : plain call = true) (g : Ledger) (answer : call.Answer) : g.learn call answer = g := by
  cases call with
  | publishHub event => cases h
  | read record | write record _ =>
    cases record with
    | messages => cases h
    | _ => cases g <;> rfl
  | _ => cases g <;> rfl

theorem answers_plain {r : call.Answer} (h : LiveAnswers call w r w')
    (hcall : plain call = true) : w'.records.messages = w.records.messages ∧ w'.connection = w.connection := by
  obtain ⟨records, ha, rfl⟩ := h
  cases call with
  | publishHub event => cases hcall
  | read record | write record _ =>
    cases record with
    | messages => cases hcall
    | contacts | relays =>
      obtain ⟨d, -, rfl⟩ := ha
      exact ⟨rfl, rfl⟩
    | identity =>
      obtain rfl := show records = w.records from ha
      exact ⟨rfl, rfl⟩
  | _ =>
    obtain rfl := show records = w.records from ha
    exact ⟨rfl, rfl⟩

/-- Before the messages are loaded: no snapshot was taken, and no message was announced. -/
structure Unread (w : LiveWorld) : Prop where
  stored : ∀ kept, w.records.messages.stored = some kept → History kept.value
  result : ∀ result, ¬ w.connection.Result result
  sent : ∀ event ∈ w.connection.sent, event.topic ≠ .messages
  follows : Follows [] w.connection

/-- Once they are loaded: the connection follows what was announced. -/
structure Holds (l : List StoredMessage) (owed : Option StoredMessage) (w : LiveWorld) : Prop where
  stored : ∀ kept, w.records.messages.stored = some kept → History kept.value
  history : History l
  held : held w.records = owed.elim l (Window.push maxMessages l)
  owed : ∀ m, owed = some m → m.id ∉ l.map StoredMessage.id
  follows : Follows l w.connection

def Displays : Ledger → LiveWorld → Prop
  | .loading => Unread
  | .holds l owed => Holds l owed

/-- What is asked of a call: a save succeeds, and its message has an id that none of those held has. -/
def OrderlyCall : (call : Call) → LiveWorld → call.Answer → Prop
  | .write .messages saved, w, answer =>
    answer = .ok () ∧ ∀ m, saved.getLast? = some m → m.id ∉ (held w.records).map StoredMessage.id
  | _, _, _ => True

theorem Displays.same (h : Displays g w) (hm : w'.records.messages = w.records.messages)
    (hc : w'.connection = w.connection) : Displays g w' := by
  have hheld : held w'.records = held w.records := by rw [held, held, hm]
  cases g with
  | loading =>
    obtain ⟨hsto, hres, hsent, hfollows⟩ := h
    exact ⟨hm ▸ hsto, hc ▸ hres, hc ▸ hsent, hc ▸ hfollows⟩
  | holds l owed =>
    obtain ⟨hsto, hhistory, hheld', howed, hfollows⟩ := h
    exact ⟨hm ▸ hsto, hhistory, hheld.trans hheld', howed, hc ▸ hfollows⟩

theorem Unread.read (h : Unread w) {r : Except StoreError (Option (List StoredMessage))}
    (hanswers : LiveAnswers (.read .messages) w r w') : Holds (r.toOption.join.getD []) none w' := by
  obtain ⟨records, ⟨d, hd, rfl⟩, rfl⟩ := hanswers
  have hhistory : History (r.toOption.join.getD []) := by
    rcases hd.answer with ⟨v, hv, hsto⟩ | hnone
    · rw [hv]
      exact h.stored _ hsto
    · rw [hnone]
      exact history_nil
  refine ⟨fun kept hkept => h.stored kept (hd.stored ▸ hkept), hhistory, ?_, nofun, ?_, ?_⟩
  · show d.attempted.getD [] = _
    rw [hd.attempted_eq, hd.saved_eq]
    rfl
  · intro id channel hp hr hact
    obtain ⟨huntaken, hroom, -⟩ := h.follows.waits id channel hp hr hact
    exact ⟨huntaken, hroom, fun event he htopic => absurd htopic (h.sent event he)⟩
  · exact fun result _ hres => absurd hres (h.result result)

theorem Holds.write (h : Holds l none w) (hanswers : LiveAnswers (.write .messages (Window.push maxMessages l m)) w (.ok ()) w')
    (hm : m.id ∉ l.map StoredMessage.id) : Holds l (some m) w' := by
  have hheld := hanswers.write.1
  obtain ⟨records, ⟨d, hd, rfl⟩, rfl⟩ := hanswers
  refine ⟨fun kept hkept => ?_, h.history, hheld, ?_, h.follows⟩
  · cases hd
    obtain rfl := Option.some.inj hkept
    exact h.history.push hm
  · rintro _ ⟨⟩
    exact hm

theorem Holds.announce (h : Holds l (some m) w) (hc : w.connection.InStep) (ha : Announces event m) :
    Holds (Window.push maxMessages l m) none { w with connection := w.connection.hear event } := by
  have hm := h.owed m rfl
  exact ⟨h.stored, h.history.push hm, h.held, nofun, h.follows.hear hc (.new ha hm)⟩

theorem Displays.hears (h : Displays g w) (hc : w.connection.InStep)
    (htopic : event.topic ≠ .messages) : Displays g { w with connection := w.connection.hear event } := by
  cases g with
  | loading =>
    refine ⟨h.stored, fun result hres => h.result result hres.of_hear, ?_, h.follows.hear hc (.other htopic)⟩
    intro e he
    rcases List.mem_append.1 (show e ∈ w.connection.sent ++ [event] from he) with he | he
    · exact h.sent e he
    · exact List.mem_singleton.1 he ▸ htopic
  | holds l owed => exact ⟨h.stored, h.history, h.held, h.owed, h.follows.hear hc (.other htopic)⟩

/-- **Every call of the actor keeps the connection following.** -/
theorem Displays.step {r : call.Answer} (h : Displays g w) (hc : w.connection.InStep)
    (hmay : g.May call) (hanswers : LiveAnswers call w r w') (horderly : OrderlyCall call w r) :
    Displays (g.learn call r) w' := by
  rcases plain_cases call with hplain | rfl | ⟨saved, rfl⟩ | ⟨event, rfl⟩
  · rw [learn_plain hplain]
    obtain ⟨hm, hsame⟩ := answers_plain hanswers hplain
    exact h.same hm hsame
  · rcases g with _ | ⟨l, _ | m⟩
    · exact h.read hanswers
    · cases hmay
    · cases hmay
  · rcases g with _ | ⟨l, _ | m⟩
    · cases hmay
    · obtain ⟨m, rfl⟩ := hmay
      obtain ⟨rfl, hfresh⟩ := horderly
      have hlast : (Window.push maxMessages l m).getLast? = some m := by simp [Window.push]
      have hm := hfresh m hlast
      rw [h.held] at hm
      show Displays (.holds l (Window.push maxMessages l m).getLast?) w'
      rw [hlast]
      exact h.write hanswers hm
    · cases hmay
  · obtain ⟨records, hw, rfl⟩ := hanswers
    obtain rfl := show records = w.records from hw
    rcases g with _ | ⟨l, _ | m⟩
    · exact Displays.same (Displays.hears (g := .loading) h hc hmay) rfl rfl
    · exact Displays.same (Displays.hears (g := .holds l none) h hc hmay) rfl rfl
    · exact Displays.same (g := .holds _ none) (h.announce hc hmay) rfl rfl

/-! ## The system -/

/-- What is asked of a step: the actor's calls are orderly, and the other tasks publish the status only, as they do. -/
def Orderly (s : Live) : LiveLabel → Prop
  | .calls call answer => OrderlyCall call s.world answer
  | .publishes event => event.topic = .status
  | .begins _ | .replies | .serves => True

/-- A step of the daemon while saves succeed and the ids of messages are distinct. -/
def OrderlyStep (p : Primitives) (s : Live) (label : LiveLabel) (s' : Live) : Prop := LiveStep p s label s' ∧ Orderly s label

def TellsWell (p : Primitives) (w : LiveWorld) : ActorState → Prop
  | .idle a => Holds a.messages none w
  | .busy job rest => ∃ g, rest.Obeys historyProtocol (fun g y => job.Ends p g y.1 y.2) g ∧ Displays g w

structure Tracked (p : Primitives) (s : Live) : Prop where
  connection : s.world.connection.InStep
  actor : TellsWell p s.world s.actor

theorem TellsWell.mono {a : ActorState} (h : TellsWell p w a) (hw : ∀ g, Displays g w → Displays g w') :
    TellsWell p w' a := by
  cases a with
  | idle a => exact hw (.holds a.messages none) h
  | busy job rest =>
    obtain ⟨g, hobeys, hg⟩ := h
    exact ⟨g, hobeys, hw g hg⟩

theorem Displays.serves (h : Displays g w) (hc : w.connection.InStep) {connection : Connection}
    (hstep : ConnectionStep p w.connection connection) : Displays g { w with connection := connection } := by
  cases g with
  | loading =>
    refine ⟨h.stored, fun result hres => ?_, ?_, h.follows.serve hc hstep⟩
    · rcases (hstep.result hc hres).2 with hres | ⟨value, -, hv, -⟩
      · exact h.result result hres
      · exact h.result value hv
    · rcases sent_step hstep with hsent | hsent
      · exact fun e he => absurd (hsent ▸ he) List.not_mem_nil
      · exact fun e he => h.sent e (hsent ▸ he)
  | holds l owed => exact ⟨h.stored, h.history, h.held, h.owed, h.follows.serve hc hstep⟩

/-- **Every orderly step keeps it all.** -/
theorem OrderlyStep.tracked {s' : Live} {label : LiveLabel} (h : OrderlyStep p s label s') (hs : Tracked p s) :
    Tracked p s' := by
  obtain ⟨hstep, horderly⟩ := h
  obtain ⟨hconn, hactor⟩ := hs
  cases hstep with
  | @begins a w job hst _ =>
    exact ⟨hconn, .holds a.messages none, Method.obeys_iff.1 (Job.obeys p hst a), hactor⟩
  | @calls job call next r w w' hanswers =>
    obtain ⟨g, hobeys, hg⟩ := hactor
    refine ⟨?_, g.learn call r, hobeys.2 r, hg.step hconn hobeys.1 hanswers horderly⟩
    obtain ⟨records, -, rfl⟩ := hanswers
    exact hconn.hearCall call
  | @replies job x a w =>
    obtain ⟨_, ⟨rfl, hsnap⟩, hg⟩ := hactor
    cases job with
    | snapshot =>
      refine ⟨hconn.reply x, hg.stored, hg.history, hg.held, hg.owed, ?_⟩
      refine hg.follows.reply hconn hg.history fun value hv => ?_
      obtain ⟨secret, rfl⟩ := hsnap rfl value hv
      exact lists_snapshotOf a secret
    | _ => exact ⟨hconn, hg⟩
  | publishes _ event =>
    have htopic : event.topic ≠ .messages := by
      rw [show event.topic = .status from horderly]
      decide
    exact ⟨hconn.hear event, hactor.mono fun g hg => hg.hears hconn htopic⟩
  | serves hserve => exact ⟨hserve.inStep hconn, hactor.mono fun g hg => hg.serves hconn hserve⟩

theorem tracked_spawn (relays : List String) (actor : Actor) (confirmed : Set StoredMessage)
    (hsto : ∀ kept, records.messages.stored = some kept → History kept.value) :
    Tracked p (Live.spawn p relays actor records confirmed) := by
  refine ⟨Connection.inStep_accepted, .loading, Method.obeys_iff.1 (obeys_start p relays actor), hsto, ?_, nofun, nofun, ?_⟩
  · rintro result hres
    cases hres <;> contradiction
  · rintro result channel _ hr
    cases hr

/-! ## Orderly runs -/

section
open Method

theorem onSaves_orderly : OnSaves Orderly where
  begins _ _ := trivial
  calls s call r h := by
    show OrderlyCall call s.world r
    cases call with
    | write record saved =>
      cases record with
      | messages => exact absurd rfl (h saved)
      | _ => trivial
    | _ => trivial
  replies _ := trivial
  serves _ := trivial

/-- The connection of the client once it has the event of the message. -/
def delivered (n : UInt64) : Connection :=
  ⟨.select, [.messages], some ⟨true, [], [firstEvent n]⟩, some "1",
    [.response "1" (.ok firstResult), .event (firstEvent n)], [firstEvent n]⟩

theorem run_orderly_delivers (n : UInt64) (confirmed : Set StoredMessage) (hfits : (encodeLine (firstEvent n).json).isSome) :
    ∃ ls confirmed', Run (OrderlyStep firstPrimitives)
      ⟨.idle (afterStart [firstRumor] [firstSeal]).1, (afterStart [firstRumor] [firstSeal]).2, confirmed, subscribed⟩ ls
      ⟨.idle (stored (afterStart [firstRumor] [firstSeal]) firstMessage).1,
        (stored (afterStart [firstRumor] [firstSeal]) firstMessage).2, confirmed', delivered n⟩ := by
  obtain ⟨ls, confirmed', hrun, -⟩ := run_delivers onSaves_orderly n confirmed subscribed fun a w hw =>
    ⟨rfl, fun m _ => by rw [hw]; exact List.not_mem_nil⟩
  -- the event is taken from the queue and written
  have htake : Connection.take (firstEvent n) ⟨true, [], [firstEvent n]⟩ (subscribed.hear (firstEvent n)) =
      { subscribed with phase := .writing (firstEvent n), receiver := some ⟨true, [], [firstEvent n]⟩,
                        sent := [firstEvent n] } := by
    rw [Connection.take, if_neg (by simp [firstEvent, Connection.hear, subscribed]),
      if_neg (by rw [Option.isNone_iff_eq_none]; exact Option.isSome_iff_ne_none.1 hfits)]
    rfl
  have hrecv : ConnectionStep firstPrimitives (subscribed.hear (firstEvent n))
      (Connection.take (firstEvent n) ⟨true, [], [firstEvent n]⟩ (subscribed.hear (firstEvent n))) :=
    .serve (.recv rfl rfl rfl)
  rw [htake] at hrecv
  exact ⟨_, _, hrun.append (.cons ⟨.serves hrecv, trivial⟩ (.cons ⟨.serves (.serve (.write rfl)), trivial⟩ (.nil _)))⟩

end

/-! ## The window -/

/-- **In every state that the daemon reaches by orderly steps**, from a record that holds a history: once a client's
`Subscribe` was answered, the actor is between two jobs, and all events are delivered, the window that starts from the answer
and takes the events in turn shows exactly the daemon's messages. It may leave out events of other topics. -/
theorem window_shows_history {relays : List String} {actor : Actor} {records : World} {confirmed : Set StoredMessage}
    {ls : List LiveLabel} {s : Live} (hstored : ∀ kept, records.messages.stored = some kept → History kept.value)
    (h : Run (OrderlyStep p) (Live.spawn p relays actor records confirmed) ls s) {a : Actor} (hidle : s.actor = .idle a)
    {c : Connection} (hc : s.world.connection = c) {id : String} {result : Json} {rest : List Line}
    (hlines : c.lines = .response id (.ok result) :: rest) (hid : c.subscription = some id) (htopic : .messages ∈ c.topics)
    {channel : Channel Event} (hreceiver : c.receiver = some channel) (hactive : channel.active = true)
    (hqueue : channel.queue = []) (hhand : c.inHand = []) (keep : Topic → Bool) (hkeep : keep .messages = true)
    (state : ChatState) :
    ∃ shown final, state.snapshot result = some shown ∧
      ((c.written.filter fun event => keep event.topic).map Event.json).foldlM ChatState.event shown = some final ∧
      final.messages = .arr (a.messages.map StoredMessage.value) := by
  subst hc
  obtain ⟨hconnection, hactor⟩ :=
    h.invariant (fun _ _ _ hstep => hstep.tracked) (tracked_spawn relays actor confirmed hstored)
  rw [hidle] at hactor
  obtain ⟨listed, hlists, hhistory, hshows⟩ :=
    hactor.follows.told result channel (.answered hlines (Option.isSome_of_eq_some hid)) hreceiver hactive
  -- all that matches was written
  have hwritten : s.world.connection.written = s.world.connection.sent.filter s.world.connection.matching := by
    rw [← (hconnection.follows channel hreceiver).complete hactive, Channel.got, hqueue, List.append_nil,
      hconnection.taken channel hreceiver, hhand, List.append_nil]
  have hshown := (hshows.filter (f := s.world.connection.matching) fun event he => by
    rw [Connection.matching, he]
    exact decide_eq_true htopic).filter (f := fun event => keep event.topic) fun event he => by rw [he, hkeep]
  obtain ⟨contacts, hcontacts, hnull⟩ := hlists.contacts
  obtain ⟨shown, hsnapshot, hmessages, hreadable⟩ := state.snapshot_lists hlists.messages hcontacts hnull
  rw [← hwritten] at hshown
  obtain ⟨final, hfold, hfinal⟩ := hshown.fold hhistory hmessages hreadable
  exact ⟨shown, final, hsnapshot, hfold, hfinal⟩

/-- A client subscribes, Alice's first message comes, and the window shows it. -/
theorem window_shows_history_delivered : ∃ ls s a shown final,
    Run (OrderlyStep firstPrimitives)
      (Live.spawn firstPrimitives [] atRest.1 atRest.2 ∅) ls s ∧
    s.actor = .idle a ∧ ChatState.create.snapshot firstResult = some shown ∧
    (s.world.connection.written.map Event.json).foldlM ChatState.event shown = some final ∧
    final.messages = .arr [firstMessage.value] := by
  have hfits : (encodeLine (firstEvent 1).json).isSome := by
    have hsize : (firstEvent 1).json.size ≤ maxLineBytes := by decide +kernel
    rw [encodeLine, Json.utf8ByteSize_render, if_neg (Nat.not_lt.2 hsize)]
    rfl
  obtain ⟨ls₁, confirmed, hrun₁⟩ := run_subscribes onSaves_orderly
  obtain ⟨ls₂, confirmed', hrun₂⟩ := run_orderly_delivers 1 confirmed hfits
  obtain ⟨shown, final, hsnapshot, hfold, hfinal⟩ := window_shows_history
    (fun kept (h : none = some kept) => by cases h) (hrun₁.append hrun₂) rfl rfl rfl rfl (List.mem_singleton_self _) rfl rfl
    rfl rfl (fun _ => true) rfl ChatState.create
  rw [List.filter_true] at hfold
  exact ⟨_, _, _, shown, final, hrun₁.append hrun₂, rfl, hsnapshot, hfold, hfinal⟩

end OmaChat.Desktop
