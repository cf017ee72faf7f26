import OmaChat.Daemon.Connection
import OmaChat.Daemon.Durability

/-!
# Snapshot and live events

The chat actor, a connection and the other publishers of events at work side by side: each call of the actor is a step,
and between two of them the connection and the others may do anything.

* `storeMessage_confirms` : a message is confirmed exactly when its `store_message` returns `Ok`.
* `LiveStep.sound` : what every step keeps. A snapshot lists whatever is confirmed when it is taken, and whatever is
  confirmed later is published.
* `stream_complete` : so the snapshot and the events of a subscriber have every confirmed message that is held, until its
  queue is full (`confirmed_message_dropped`). From then on nothing more is queued, and the connection comes to its end.
-/

namespace OmaChat.Daemon
open Wire Effects Nostr Proto Durable Transition Broadcast

variable {a : Actor} {c : Actor × World} {records : World} {x : Except ChatError Json} {p : Primitives}

/-! ## The messages that the daemon holds -/

/-- The messages that the actor holds: it saves every change at once, so they are those that it last tried to save, or
loaded. -/
def held (w : World) : List StoredMessage := w.messages.attempted.getD []

def Announces (event : Event) (message : StoredMessage) : Prop := event.topic = .messages ∧ event.payload = message.value

/-- The call with which `store_message` comes to its end. -/
def Confirms (call : Call) (w : World) (message : StoredMessage) : Prop :=
  ∃ event, call = .publishHub event ∧ (held w).getLast? = some message ∧ Announces event message

/-- What the actor's calls act on: its records and the connection. Beside them stand the messages whose `store_message`
returned `Ok`, as long as they are held. -/
structure LiveWorld where
  records : World
  confirmed : Set StoredMessage
  connection : Connection

def Connection.hearCall : Call → Connection → Connection
  | .publishHub event, c => c.hear event
  | _, c => c

/-- The world after a call that leaves the records `records`. -/
def LiveWorld.after (w : LiveWorld) (call : Call) (records : World) : LiveWorld where
  records := records
  confirmed := { m | (m ∈ w.confirmed ∨ Confirms call w.records m) ∧ m ∈ held records }
  connection := w.connection.hearCall call

/-- The answers that a call of the actor can get, and what it does. -/
def LiveAnswers (call : Call) (w : LiveWorld) (r : call.Answer) (w' : LiveWorld) : Prop :=
  ∃ records, Answers call w.records r records ∧ w' = w.after call records

variable {w w' : LiveWorld}

section Confirmed
open Method

theorem LiveAnswers.write {l : List StoredMessage} {r : Except StoreError Unit}
    (h : LiveAnswers (.write .messages l) w r w') :
    held w'.records = l ∧ w'.confirmed = { m | m ∈ w.confirmed ∧ m ∈ l } := by
  obtain ⟨records, ⟨d, hd, hw⟩, rfl⟩ := h
  have hheld : held records = l := by rw [hw, held, hd.attempted]; rfl
  refine ⟨hheld, ?_⟩
  ext m
  simp [LiveWorld.after, Confirms, hheld]

theorem LiveAnswers.publishHub {event : Event} {r : Unit} (h : LiveAnswers (.publishHub event) w r w') :
    held w'.records = held w.records ∧ w'.confirmed =
      { m | (m ∈ w.confirmed ∨ (held w.records).getLast? = some m ∧ Announces event m) ∧ m ∈ held w.records } := by
  obtain ⟨records, hw, rfl⟩ := h
  obtain rfl : records = w.records := hw
  refine ⟨rfl, ?_⟩
  ext m
  simp [LiveWorld.after, Confirms]

theorem LiveAnswers.nextSequence {r : UInt64} (h : LiveAnswers .nextSequence w r w') :
    held w'.records = held w.records ∧ w'.confirmed = { m | m ∈ w.confirmed ∧ m ∈ held w.records } := by
  obtain ⟨records, hw, rfl⟩ := h
  obtain rfl : records = w.records := hw
  refine ⟨rfl, ?_⟩
  ext m
  simp [LiveWorld.after, Confirms]

/-- **A message is confirmed exactly when its `store_message` returns `Ok`.** Those from before stay confirmed while they
are held. -/
theorem storeMessage_confirms {message : StoredMessage} {x : Except ChatError StoredMessage} {c c' : Actor × LiveWorld}
    (h : (storeMessage message).Exec LiveAnswers c x c') :
    c'.2.confirmed = { m | (m ∈ c.2.confirmed ∨ x = .ok message ∧ m = message) ∧
      m ∈ Window.push maxMessages c.1.messages message } := by
  have h := exec_get_bind.1 (exec_modify_bind.1 h)
  rcases exec_bind.1 h with ⟨e, rfl, hsave⟩ | ⟨_, c₁, hsave, h⟩
  · obtain ⟨r, hr, -⟩ := exec_saveRecord.1 hsave
    rw [hr.write.2]
    simp
  · obtain ⟨r, hr, -⟩ := exec_saveRecord.1 hsave
    obtain ⟨n, w₁, u, w₂, hn, hu, h⟩ := exec_publish_bind.1 h
    obtain ⟨rfl, rfl⟩ := exec_pure.1 h
    -- the save, the number and the publication in turn
    obtain ⟨hheld, hconf⟩ := hr.write
    obtain ⟨hheld₁, hconf₁⟩ := hn.nextSequence
    have hlast : (held w₁.records).getLast? = some message := by
      rw [hheld₁, hheld]
      simp [Window.push]
    rw [hu.publishHub.2, hlast, hconf₁, hconf, hheld₁, hheld]
    ext m
    simp only [Set.mem_ofPred_eq, Option.some.injEq, Announces]
    constructor
    · rintro ⟨⟨⟨hm, -⟩, -⟩ | ⟨rfl, -⟩, hmem⟩
      · exact ⟨.inl hm, hmem⟩
      · exact ⟨.inr ⟨trivial, rfl⟩, hmem⟩
    · rintro ⟨hm | ⟨-, rfl⟩, hmem⟩
      · exact ⟨.inl ⟨⟨hm, hmem⟩, hmem⟩, hmem⟩
      · exact ⟨.inr ⟨rfl, trivial, rfl⟩, hmem⟩

end Confirmed

/-! ## The system -/

inductive Job where
  | start (configuredRelays : List String)
  | request (request : ChatRequest)
  | notification (notification : RelayNotification)
  | snapshot

def Job.method (p : Primitives) : Job → ChatMethod Json
  | .start configuredRelays => do
    Daemon.start p configuredRelays
    pure .null
  | .request asked => handle p asked
  | .notification heard => do
    onNotification p heard
    pure .null
  | .snapshot => handle p .snapshot

def Job.reply : Job → Except ChatError Json → Connection → Connection
  | .snapshot, x, c => c.reply x
  | _, _, c => c

/-- The actor between two jobs, or with what is left of one. -/
inductive ActorState where
  | idle (actor : Actor)
  | busy (job : Job) (rest : Prog Call.Answer (Except ChatError Json × Actor))

structure Live where
  actor : ActorState
  world : LiveWorld

/-- The steps: the actor takes up a job, makes a call or comes to the end of the job; another task publishes an event; the
connection goes on. -/
inductive LiveLabel where
  | begins (job : Job)
  | calls (call : Call) (answer : call.Answer)
  | replies
  | publishes (event : Event)
  | serves

/-- One step of the system. A start is the actor's first job and comes only once. -/
inductive LiveStep (p : Primitives) : Live → LiveLabel → Live → Prop where
  | begins {a : Actor} {w : LiveWorld} (job : Job) : (∀ relays, job ≠ .start relays) →
      (job = .snapshot → ∃ id, w.connection.phase = .subscribing id) →
      LiveStep p ⟨.idle a, w⟩ (.begins job) ⟨.busy job (job.method p a), w⟩
  | calls {job : Job} {call : Call} {next : call.Answer → Prog Call.Answer _} {r : call.Answer} {w w' : LiveWorld} :
      LiveAnswers call w r w' → LiveStep p ⟨.busy job (.call call next), w⟩ (.calls call r) ⟨.busy job (next r), w'⟩
  | replies {job : Job} {x : Except ChatError Json} {a : Actor} {w : LiveWorld} :
      LiveStep p ⟨.busy job (.ret (x, a)), w⟩ .replies ⟨.idle a, { w with connection := job.reply x w.connection }⟩
  | publishes (s : Live) (event : Event) : LiveStep p s (.publishes event)
      { s with world := { s.world with connection := s.world.connection.hear event } }
  | serves {s : Live} {connection : Connection} : ConnectionStep p s.world.connection connection →
      LiveStep p s .serves { s with world := { s.world with connection := connection } }

/-- The actor is spawned; a client has connected. Messages may have been confirmed before the daemon was restarted. -/
def Live.spawn (p : Primitives) (configuredRelays : List String) (actor : Actor) (records : World)
    (confirmed : Set StoredMessage) : Live where
  actor := .busy (.start configuredRelays) ((Job.start configuredRelays).method p actor)
  world := ⟨records, confirmed, .accepted⟩

/-! ## What a job keeps -/

section
open Method
variable {c' : Actor × World}

theorem exec_of_then_null {m : ChatMethod Unit} (h : (m >>= fun _ => (pure .null : ChatMethod Json)).Exec Answers c x c') :
    ∃ y, m.Exec Answers c y c' := by
  rcases exec_bind.1 h with ⟨e, -, h⟩ | ⟨_, c₁, h, hnull⟩
  · exact ⟨_, h⟩
  · obtain ⟨-, rfl⟩ := exec_pure.1 hnull
    exact ⟨_, h⟩

theorem Job.tracking {job : Job} (h : (job.method p).Exec Answers c x c')
    (hc : (∀ relays, job ≠ .start relays) → Tracking (books c)) : Tracking (books c') := by
  cases job with
  | start relays => exact tracking_start (exec_of_then_null h)
  | request asked =>
    obtain ⟨l, hl⟩ := handle_step h
    exact tracking_step hl (hc nofun)
  | notification heard =>
    obtain ⟨y, h⟩ := exec_of_then_null h
    rcases exec_bind.1 h with ⟨e, -, h⟩ | ⟨message, c₁, h₁, h₂⟩
    · have hsame : books c' = books c := (calm_incoming p heard).quiet _ _ _ h
      rw [hsame]
      exact hc nofun
    · have hl : ChatStep (p := p) c (.deliver heard message) c' := ⟨c₁, h₁, y, h₂⟩
      exact tracking_step hl (hc nofun)
  | snapshot =>
    obtain ⟨l, hl⟩ := handle_step (show (handle p .snapshot).Exec Answers c x c' from h)
    exact tracking_step hl (hc nofun)

theorem snapshot_lists_held {value : Json} (h : (handle p .snapshot).Exec Answers c (.ok value) c')
    (hc : Tracking (books c)) : value.field "messages" = some (.arr ((held c'.2).map StoredMessage.value)) := by
  have hsame : books c' = books c := (calm_handle p rfl).quiet _ _ _ h
  have hdisk : c'.2.messages = c.2.messages := congrArg (fun b => b.messages.disk) hsame
  have hmemory : c.1.messages = held c'.2 := by
    rw [held, hdisk]
    exact hc.messages
  obtain ⟨secret, rfl⟩ := exec_handle_snapshot h
  rw [field_messages_snapshotOf, hmemory]

end

/-! ## The invariant -/

/-- The lists in memory are those that were last tried; while the actor has a job, they were when it began. -/
def ActorState.Tracks (p : Primitives) (w : World) : ActorState → Prop
  | .idle a => Tracking (books (a, w))
  | .busy job rest => ∃ c : Actor × World, ((∀ relays, job ≠ .start relays) → Tracking (books c)) ∧
      (job.method p c.1).Resumes Answers c.2 rest w

/-- A subscriber misses nothing: every confirmed message is in the result of the `Subscribe`, or was published since. -/
def LiveWorld.Covered (w : LiveWorld) : Prop :=
  ∀ result, w.connection.Result result → ∃ listed : List StoredMessage,
    result.field "messages" = some (.arr (listed.map StoredMessage.value)) ∧
      ∀ m ∈ w.confirmed, m ∈ listed ∨ ∃ event ∈ w.connection.sent, Announces event m

structure Live.Sound (p : Primitives) (s : Live) : Prop where
  actor : s.actor.Tracks p s.world.records
  confirmed : ∀ m ∈ s.world.confirmed, m ∈ held s.world.records
  connection : s.world.connection.InStep
  covered : s.world.Covered

theorem sound_spawn (relays : List String) (actor : Actor) {confirmed : Set StoredMessage}
    (hconf : ∀ m ∈ confirmed, m ∈ held records) : (Live.spawn p relays actor records confirmed).Sound p := by
  refine ⟨⟨(actor, records), fun h => absurd rfl (h relays), Prog.resumes_start _ _⟩, hconf,
    Connection.inStep_accepted, ?_⟩
  rintro result hres
  cases hres <;> contradiction

theorem LiveWorld.Covered.hear (h : w.Covered) (event : Event) (hconn : w'.connection = w.connection.hear event)
    (hconf : ∀ m ∈ w'.confirmed, m ∈ w.confirmed ∨ Announces event m) : w'.Covered := by
  intro result hres
  rw [hconn] at hres ⊢
  obtain ⟨listed, hlisted, hall⟩ := h result hres.of_hear
  refine ⟨listed, hlisted, fun m hm => ?_⟩
  rcases hconf m hm with hm | hm
  · exact (hall m hm).imp_right fun ⟨e, he, ha⟩ => ⟨e, List.mem_append_left _ he, ha⟩
  · exact .inr ⟨event, List.mem_append_right _ (List.mem_singleton_self _), hm⟩

/-- **Whatever a call of the actor confirms, it also publishes.** -/
theorem LiveWorld.Covered.after (h : w.Covered) (call : Call) (records : World) : (w.after call records).Covered := by
  by_cases hp : ∃ event, call = .publishHub event
  · obtain ⟨event, rfl⟩ := hp
    refine h.hear event rfl ?_
    rintro m ⟨hm | ⟨_, hcall, -, hm⟩, -⟩
    · exact .inl hm
    · cases hcall
      exact .inr hm
  · have hsame : (w.after call records).connection = w.connection := by
      rw [LiveWorld.after, Connection.hearCall]
      exact fun event hcall => hp ⟨event, hcall⟩
    intro result hres
    rw [hsame] at hres ⊢
    obtain ⟨listed, hlisted, hall⟩ := h result hres
    refine ⟨listed, hlisted, ?_⟩
    rintro m ⟨hm | ⟨event, hcall, -⟩, -⟩
    · exact hall m hm
    · exact absurd ⟨event, hcall⟩ hp

theorem LiveWorld.Covered.serve (h : w.Covered) (hc : w.connection.InStep) {connection : Connection}
    (hstep : ConnectionStep p w.connection connection) : ({ w with connection := connection } : LiveWorld).Covered := by
  intro result hres
  obtain ⟨hsent, hres | ⟨value, status, hv, rfl⟩⟩ := hstep.result hc hres
  · rw [show ({ w with connection := connection } : LiveWorld).connection.sent = _ from hsent]
    exact h result hres
  · rw [show ({ w with connection := connection } : LiveWorld).connection.sent = _ from hsent, subscribeResult,
      field_setField_of_ne (by decide), field_setField_of_ne (by decide)]
    exact h value hv

/-- **A snapshot lists whatever is confirmed when it is taken.** -/
theorem LiveWorld.Covered.reply (h : w.Covered) (hc : w.connection.InStep) (hheld : ∀ m ∈ w.confirmed, m ∈ held w.records)
    (hexec : (handle p .snapshot).Exec Answers c x (a, w.records)) (ht : Tracking (books c)) :
    ({ w with connection := w.connection.reply x } : LiveWorld).Covered := by
  intro result hres
  rw [show ({ w with connection := w.connection.reply x } : LiveWorld).connection.sent = _ from w.connection.sent_reply x]
  rcases hres.of_reply hc with hres | rfl
  · exact h result hres
  · exact ⟨held w.records, snapshot_lists_held hexec ht, fun m hm => .inl (hheld m hm)⟩

theorem Connection.InStep.hearCall {c : Connection} (h : c.InStep) (call : Call) : (c.hearCall call).InStep := by
  unfold Connection.hearCall
  split
  · exact h.hear _
  · exact h

variable {s s' : Live} {l : LiveLabel} {channel : Channel Event}

/-- **Every step of the system keeps the invariant.** -/
theorem LiveStep.sound (h : LiveStep p s l s') (hs : s.Sound p) : s'.Sound p := by
  obtain ⟨hactor, hconf, hconn, hcovered⟩ := hs
  cases h with
  | @begins a w job _ _ => exact ⟨⟨(a, w.records), fun _ => hactor, Prog.resumes_start _ _⟩, hconf, hconn, hcovered⟩
  | @calls job call next r w _ hanswers =>
    obtain ⟨records, ha, rfl⟩ := hanswers
    obtain ⟨c, ht, hrest⟩ := hactor
    exact ⟨⟨c, ht, hrest.call ha⟩, fun m hm => hm.2, hconn.hearCall call, hcovered.after call records⟩
  | @replies job x a w =>
    obtain ⟨c, ht, hrest⟩ := hactor
    have hexec : (job.method p).Exec Answers c x (a, w.records) := hrest.ret
    refine ⟨Job.tracking hexec ht, hconf, ?_, ?_⟩
    · cases job with
      | snapshot => exact hconn.reply x
      | _ => exact hconn
    · cases job with
      | snapshot => exact hcovered.reply hconn hconf hexec (ht nofun)
      | _ => exact hcovered
  | publishes _ event =>
    exact ⟨hactor, hconf, hconn.hear event, hcovered.hear event rfl fun _ hm => .inl hm⟩
  | serves hstep => exact ⟨hactor, hconf, hstep.inStep hconn, hcovered.serve hconn hstep⟩

/-! ## After an overflow -/

theorem Connection.receiver_hear {c : Connection} (h : c.receiver = some channel)
    (hact : channel.active = false) (event : Event) : (c.hear event).receiver = some channel := by
  have hsame : ({ channel with active := false } : Channel Event) = channel := by rw [← hact]
  rw [Connection.hear, h, Option.map_some, Channel.send_inactive hact, hsame]

/-- Once the queue was full, a step leaves of it what is not taken, or the subscription is over. -/
theorem LiveStep.queue_shrinks (h : LiveStep p s l s')
    (hr : s.world.connection.receiver = some channel) (hact : channel.active = false) :
    s'.world.connection.receiver = none ∨ s'.world.connection.receiver = some .fresh ∨
      ∃ channel', s'.world.connection.receiver = some channel' ∧ channel'.active = false ∧
        channel'.queue <:+ channel.queue := by
  have hkept (hsame : s'.world.connection.receiver = some channel) : ∃ channel',
      s'.world.connection.receiver = some channel' ∧ channel'.active = false ∧ channel'.queue <:+ channel.queue :=
    ⟨channel, hsame, hact, List.suffix_refl _⟩
  cases h with
  | begins => exact .inr (.inr (hkept hr))
  | @calls _ call _ _ w _ hanswers =>
    obtain ⟨records, -, rfl⟩ := hanswers
    refine .inr (.inr (hkept ?_))
    show (w.connection.hearCall call).receiver = _
    unfold Connection.hearCall
    split
    · exact Connection.receiver_hear hr hact _
    · exact hr
  | @replies job x a w =>
    refine .inr (.inr (hkept ?_))
    cases job with
    | snapshot =>
      show (w.connection.reply x).receiver = _
      unfold Connection.reply
      split <;> exact hr
    | _ => exact hr
  | publishes _ event => exact .inr (.inr (hkept (Connection.receiver_hear hr hact event)))
  | @serves _ connection hstep =>
    cases hr' : connection.receiver with
    | none => exact .inl rfl
    | some channel' =>
      refine .inr ?_
      rcases hstep.receiver_cases hr' with ⟨id, topics, rfl⟩ | ⟨-, old, hold, hsame, hsuffix⟩
      · exact .inl hr'.symm
      · cases hr.symm.trans hold
        exact .inr ⟨channel', rfl, hsame.trans hact, hsuffix⟩

/-! ## Runs -/

section
open Method

variable {G : Live → LiveLabel → Prop} {call : Call}

/-- A condition on steps that asks something only of the saves of the messages and of other tasks. -/
structure OnSaves (G : Live → LiveLabel → Prop) : Prop where
  begins : ∀ s job, G s (.begins job)
  calls : ∀ s call r, (∀ saved, call ≠ .write .messages saved) → G s (.calls call r)
  replies : ∀ s, G s .replies
  serves : ∀ s, G s .serves

theorem onSaves_true : OnSaves fun _ _ => True :=
  ⟨fun _ _ => trivial, fun _ _ _ _ => trivial, fun _ => trivial, fun _ => trivial⟩

/-- The answers to the calls of the actor in a run whose steps meet the condition. -/
def Allowed (G : Live → LiveLabel → Prop) (call : Call) (w : LiveWorld) (r : call.Answer) (w' : LiveWorld) : Prop :=
  LiveAnswers call w r w' ∧ ∀ a, G ⟨a, w⟩ (.calls call r)

theorem OnSaves.allowed (hG : OnSaves G) (hcall : ∀ saved, call ≠ .write .messages saved) {r : call.Answer}
    (h : LiveAnswers call w r w') : Allowed G call w r w' := ⟨h, fun _ => hG.calls _ call r hcall⟩

theorem run_exec (job : Job) {rest : Prog Call.Answer (Except ChatError Json × Actor)}
    {y : Except ChatError Json × Actor} (h : rest.Exec (Allowed G) w y w') :
    ∃ ls, Run (fun s l s' => LiveStep p s l s' ∧ G s l) ⟨.busy job rest, w⟩ ls ⟨.busy job (.ret y), w'⟩ := by
  induction h with
  | ret y w => exact ⟨[], .nil _⟩
  | call hs _ ih =>
    obtain ⟨ls, hrun⟩ := ih
    exact ⟨_ :: ls, .cons ⟨.calls hs.1, hs.2 _⟩ hrun⟩

theorem run_job (hG : OnSaves G) (job : Job) {a' : Actor}
    (hst : ∀ relays, job ≠ .start relays) (hsnap : job = .snapshot → ∃ id, w.connection.phase = .subscribing id)
    (h : (job.method p).Exec (Allowed G) (a, w) x (a', w')) :
    ∃ ls, Run (fun s l s' => LiveStep p s l s' ∧ G s l) ⟨.idle a, w⟩ ls
      ⟨.idle a', { w' with connection := job.reply x w'.connection }⟩ := by
  obtain ⟨ls, hrun⟩ := run_exec (p := p) job h
  exact ⟨_, .cons ⟨.begins job hst hsnap, hG.begins _ job⟩ (hrun.append (.cons ⟨.replies, hG.replies _⟩ (.nil _)))⟩

theorem run_publishes (events : List Event) (a : ActorState) (records : World) (confirmed : Set StoredMessage)
    (c : Connection) : Run (LiveStep p) ⟨a, records, confirmed, c⟩ (events.map .publishes)
      ⟨a, records, confirmed, events.foldl (fun c event => c.hear event) c⟩ := by
  induction events generalizing c with
  | nil => exact .nil _
  | cons event events ih => exact .cons (.publishes _ event) (ih _)

theorem exec_live (hG : OnSaves G) {α : Type} {rest : Prog Call.Answer α} {records' : World} {y : α}
    (h : rest.Exec Unsaved records y records') (hw : w.records = records) :
    ∃ w', rest.Exec (Allowed G) w y w' ∧ w'.records = records' ∧ w'.connection.phase = w.connection.phase := by
  induction h generalizing w with
  | ret y records => exact ⟨w, .ret _ _, hw, rfl⟩
  | @call call next r y records records₁ records' hs _ ih =>
    subst hw
    obtain ⟨w', hexec, hrecs, hph⟩ := ih (w := w.after call records₁) rfl
    refine ⟨w', .call (hG.allowed hs.1 ⟨records₁, hs.2, rfl⟩) hexec, hrecs, hph.trans ?_⟩
    show (w.connection.hearCall call).phase = _
    unfold Connection.hearCall
    split <;> rfl

def firstResult : Json :=
  subscribeResult (snapshotOf (afterStart [firstRumor] [firstSeal]).1 (some (aliceSecret [firstRumor] [firstSeal])))
    [.messages] (aliceStatus [firstRumor] [firstSeal])

theorem field_messages_firstResult : firstResult.field "messages" = some (.arr []) := by
  rw [firstResult, subscribeResult, field_setField_of_ne (by decide), field_setField_of_ne (by decide),
    field_messages_snapshotOf]
  rfl

/-- The connection of Alice's client after its `Subscribe` was answered. -/
def subscribed : Connection := ⟨.select, [.messages], some .fresh, some "1", [.response "1" (.ok firstResult)], []⟩

theorem run_subscribes (hG : OnSaves G) : ∃ ls confirmed,
    Run (fun s l s' => LiveStep firstPrimitives s l s' ∧ G s l)
    (Live.spawn firstPrimitives [] atRest.1 atRest.2 ∅) ls
    ⟨.idle (afterStart [firstRumor] [firstSeal]).1, (afterStart [firstRumor] [firstSeal]).2, confirmed, subscribed⟩ := by
  let p := firstPrimitives
  let c := afterStart [firstRumor] [firstSeal]
  -- the start
  have hst : ((Job.start []).method p).Exec Unsaved atRest (.ok .null) c :=
    exec_bind_ok.2 ⟨(), c, exec_start_atRest, exec_pure.2 ⟨rfl, rfl⟩⟩
  obtain ⟨⟨records, confirmed, connection⟩, hlive, hrecs, hph⟩ :=
    exec_live hG hst (w := ⟨atRest.2, ∅, .accepted⟩) rfl
  obtain rfl : records = c.2 := hrecs
  obtain ⟨ls₁, hrun₁⟩ := run_exec (p := p) (.start []) hlive
  -- the `Subscribe` and its snapshot
  let waiting : LiveWorld := ⟨c.2, confirmed, ⟨.subscribing "1", [.messages], some .fresh, some "1", [], []⟩⟩
  have hsnap : (handle p .snapshot).Exec (Allowed G) (c.1, waiting) _ (c.1, waiting.after (.read .identity) c.2) :=
    exec_snapshot_of (aliceSecret _ _) (hG.allowed (by simp) ⟨c.2, rfl, rfl⟩)
  obtain ⟨ls₂, hrun₂⟩ := run_job hG .snapshot nofun (fun _ => ⟨"1", rfl⟩) hsnap
  have hfits : (respond "1" (.ok firstResult)).isSome := by
    rw [firstResult, respond_isSome_iff, size_subscribeResult]
    exact subscribe_fits _ _
  have hrun₃ := hrun₂.append (.cons ⟨.serves (.status (aliceStatus _ _) rfl), hG.serves _⟩
    (.cons ⟨.serves (.serve (.respond rfl hfits)), hG.serves _⟩ (.nil _)))
  exact ⟨_, _, hrun₁.append (.cons ⟨.replies, hG.replies _⟩
    (.cons ⟨.serves (.subscribe "1" [.messages] hph), hG.serves _⟩ hrun₃))⟩

def firstEvent (n : UInt64) : Event := ⟨ipcVersion, n, .messages, firstMessage.value⟩

theorem run_delivers (hG : OnSaves G) (n : UInt64) (confirmed : Set StoredMessage) (connection : Connection)
    (hsave : ∀ a w, w.records = (afterStart [firstRumor] [firstSeal]).2 →
      G ⟨a, w⟩ (.calls (.write .messages [firstMessage]) (.ok ()))) :
    ∃ ls confirmed', Run (fun s l s' => LiveStep firstPrimitives s l s' ∧ G s l)
      ⟨.idle (afterStart [firstRumor] [firstSeal]).1, (afterStart [firstRumor] [firstSeal]).2, confirmed, connection⟩ ls
      ⟨.idle (stored (afterStart [firstRumor] [firstSeal]) firstMessage).1,
        (stored (afterStart [firstRumor] [firstSeal]) firstMessage).2, confirmed', connection.hear (firstEvent n)⟩ ∧
      firstMessage ∈ confirmed' := by
  let c := afterStart [firstRumor] [firstSeal]
  let c' := stored c firstMessage
  let w : LiveWorld := ⟨c.2, confirmed, connection⟩
  obtain ⟨opened, hopen, hmsg⟩ := firstCopy_opens c.1.contacts
  -- five calls: the identity, the time, the save, the number and the publication
  let w₂ := (w.after (.read .identity) c.2).after .now c.2
  let w₅ :=
    ((w₂.after (.write .messages [firstMessage]) c'.2).after .nextSequence c'.2).after (.publishHub (firstEvent n)) c'.2
  have hincoming : (incoming _ (.event "" firstCopy)).Exec (Allowed G) (c.1, w) (.ok (some firstMessage)) (c.1, w₂) :=
    exec_incoming rfl hopen hmsg (hG.allowed (by simp) ⟨c.2, rfl, rfl⟩) (hG.allowed (by simp) ⟨c.2, rfl, rfl⟩)
  have hstore : (storeMessage firstMessage).Exec (Allowed G) (c.1, w₂) (.ok firstMessage) (c'.1, w₅) :=
    exec_storeMessage_of firstMessage ⟨⟨c'.2, ⟨_, .ok _ _, rfl⟩, rfl⟩, fun a => hsave a w₂ rfl⟩
      (hG.allowed (by simp) ⟨c'.2, rfl, rfl⟩) (hG.allowed (by simp) ⟨c'.2, rfl, rfl⟩)
  have hjob : ((Job.notification (.event "" firstCopy)).method firstPrimitives).Exec (Allowed G)
      (c.1, w) (.ok .null) (c'.1, w₅) :=
    exec_bind_ok.2 ⟨(), _, exec_bind_ok.2 ⟨_, _, hincoming, exec_storeIncoming (List.not_mem_nil) hstore⟩,
      exec_pure.2 ⟨rfl, rfl⟩⟩
  obtain ⟨ls, hrun⟩ := run_job hG (.notification (.event "" firstCopy)) nofun nofun hjob
  refine ⟨ls, _, hrun, ?_⟩
  show firstMessage ∈ w₅.confirmed
  rw [storeMessage_confirms (hstore.mono fun _ _ _ _ h => h.1)]
  exact ⟨.inr ⟨rfl, rfl⟩, Window.mem_push_self _ _ _⟩

end

/-! ## The stream of a subscriber -/

/-- **In every state that the daemon reaches, since the last `Subscribe` of a connection:** its answer is the first line;
the events that were written are a first part of those published that match, without gaps; and as long as the queue was
never full, every message that is held and was confirmed is in the answered snapshot, or in an event that was written, is
being written or is in the queue. Once the queue was full, no step adds to it until the subscription is over, and the
connection, unless it waits for a snapshot, goes on by itself to its end. -/
theorem stream_complete {relays : List String} {actor : Actor} {records : World} {confirmed : Set StoredMessage}
    {ls : List LiveLabel} {s : Live} (hconfirmed : ∀ m ∈ confirmed, m ∈ held records)
    (h : Run (LiveStep p) (Live.spawn p relays actor records confirmed) ls s) {c : Connection}
    (hc : s.world.connection = c) {id : String} (hid : c.subscription = some id) :
    (c.lines = [] ∨ ∃ outcome rest, c.lines = .response id outcome :: rest) ∧
      c.written <+: c.sent.filter c.matching ∧
      (∀ result rest channel, c.lines = .response id (.ok result) :: rest → .messages ∈ c.topics →
        c.receiver = some channel → channel.active = true →
        ∃ listed : List StoredMessage, result.field "messages" = some (.arr (listed.map StoredMessage.value)) ∧
          ∀ m ∈ s.world.confirmed, m ∈ listed ∨
            ∃ event ∈ c.written ++ c.inHand ++ channel.queue, Announces event m) ∧
      ∀ channel, c.receiver = some channel → channel.active = false →
        (∀ l s', LiveStep p s l s' → s'.world.connection.receiver = none ∨ s'.world.connection.receiver = some .fresh ∨
          ∃ channel', s'.world.connection.receiver = some channel' ∧ channel'.active = false ∧
            channel'.queue <:+ channel.queue) ∧
        ((∀ id, c.phase ≠ .subscribing id) → (∀ id value, c.phase ≠ .snapshot id value) → c.Ends) := by
  subst hc
  have hsome := Option.isSome_of_eq_some hid
  obtain ⟨-, -, hconnection, hcovered⟩ := h.invariant (fun _ _ _ hstep => hstep.sound) (sound_spawn relays actor hconfirmed)
  refine ⟨hconnection.first id hid, hconnection.gapless hsome, fun result rest channel hlines htopic hreceiver hactive => ?_,
    fun channel hreceiver hactive => ⟨fun _ _ hstep => hstep.queue_shrinks hreceiver hactive,
      Connection.ends hreceiver hactive⟩⟩
  obtain ⟨listed, hlisted, hall⟩ := hcovered result (.answered hlines hsome)
  refine ⟨listed, hlisted, fun m hm => (hall m hm).imp_right ?_⟩
  rintro ⟨event, hsent, hannounces⟩
  refine ⟨event, ?_, hannounces⟩
  rw [← (hconnection.follows channel hreceiver).complete hactive] at hsent
  rw [← hconnection.taken channel hreceiver]
  rcases List.mem_append.1 hsent with htaken | hqueue
  · refine List.mem_append_left _ (List.mem_filter.2 ⟨htaken, ?_⟩)
    rw [Connection.matching, hannounces.1]
    exact decide_eq_true htopic
  · exact List.mem_append_right _ hqueue

/-- A client has subscribed when a message comes, and the queue has it. -/
theorem stream_complete_delivered : ∃ ls s channel, Run (LiveStep firstPrimitives)
    (Live.spawn firstPrimitives [] atRest.1 atRest.2 ∅) ls s ∧
      s.world.connection.receiver = some channel ∧ firstMessage ∈ s.world.confirmed ∧
      ∃ event ∈ s.world.connection.written ++ s.world.connection.inHand ++ channel.queue, Announces event firstMessage := by
  obtain ⟨ls₁, confirmed, hrun₁⟩ := run_subscribes onSaves_true
  obtain ⟨ls₂, confirmed', hrun₂, hmem⟩ := run_delivers onSaves_true 1 confirmed subscribed fun _ _ _ => trivial
  have hrun := (hrun₁.append hrun₂).mono fun _ _ _ h => h.1
  obtain ⟨-, -, hcomplete, -⟩ := stream_complete (fun m hm => absurd hm (Set.notMem_empty m)) hrun rfl rfl
  obtain ⟨listed, hlisted, hall⟩ := hcomplete firstResult [] _ rfl (List.mem_singleton_self _) rfl rfl
  refine ⟨_, _, _, hrun, rfl, hmem, (hall firstMessage hmem).resolve_left fun hm => ?_⟩
  rw [field_messages_firstResult, Option.some.injEq, Json.arr.injEq] at hlisted
  rw [List.map_eq_nil_iff.1 hlisted.symm] at hm
  cases hm

/-- Status events that fill the queue of a client that does not read. -/
def statusEvents : List Event :=
  (List.range eventQueueCapacity).map fun i =>
    ⟨ipcVersion, .ofNat (i + 1), .status, (aliceStatus [firstRumor] [firstSeal]).value⟩

/-- A client has subscribed and does not read; the queue is full of status events when a message comes. The message is
stored, confirmed and held, and the connection has not ended, but the message is not in the snapshot, nor in an event that
was written, is being written or is in the queue. -/
theorem confirmed_message_dropped : ∃ ls s channel, Run (LiveStep firstPrimitives)
    (Live.spawn firstPrimitives [] atRest.1 atRest.2 ∅) ls s ∧
      s.world.connection.phase = .select ∧ s.world.connection.topics = [.messages] ∧
      s.world.connection.lines = [.response "1" (.ok firstResult)] ∧
      firstResult.field "messages" = some (.arr []) ∧ s.world.connection.receiver = some channel ∧
      firstMessage ∈ s.world.confirmed ∧ firstMessage ∈ held s.world.records ∧
      ∀ event ∈ s.world.connection.written ++ s.world.connection.inHand ++ channel.queue, event.topic = .status := by
  obtain ⟨ls₁, confirmed, hrun₁⟩ := run_subscribes onSaves_true
  have hrun₂ := (hrun₁.mono fun _ _ _ h => h.1).append (run_publishes statusEvents _ _ confirmed subscribed)
  obtain ⟨ls₃, confirmed', hrun₃, hmem⟩ :=
    run_delivers onSaves_true 65 confirmed (statusEvents.foldl (fun c event => c.hear event) subscribed) fun _ _ _ => trivial
  have hrun := hrun₂.append (hrun₃.mono fun _ _ _ h => h.1)
  have hlength : statusEvents.length = eventQueueCapacity := by rw [statusEvents, List.length_map, List.length_range]
  have hfull : (statusEvents.foldl (fun c event => c.hear event) subscribed).hear (firstEvent 65) =
      { subscribed with receiver := some ⟨false, statusEvents, []⟩, sent := statusEvents ++ [firstEvent 65] } := by
    rw [Connection.foldl_hear statusEvents subscribed rfl, Channel.fresh,
      Channel.foldl_send statusEvents [] [] (by rw [hlength]; rfl), Connection.hear]
    simp only [Option.map_some, List.nil_append, Channel.send_full [] (Nat.le_of_eq hlength.symm)]
    rfl
  rw [hfull] at hrun
  refine ⟨_, _, _, hrun, rfl, rfl, rfl, field_messages_firstResult, rfl, hmem, List.mem_singleton_self _, ?_⟩
  intro event hevent
  obtain ⟨i, -, rfl⟩ := List.mem_map.1 (show event ∈ statusEvents from hevent)
  rfl

end OmaChat.Daemon
