import OmaChat.Daemon.Authorship

/-!
# The message history

What the daemon's history of at most `MAX_MESSAGES` messages keeps along every run of the actor, restarts included.

* `message_ids_nodup` : the ids stay distinct as long as no text is sent to a peer while the history holds the same text, of
  the same second, with this peer. `Actor::send` does not look for one, and two such sends make the same rumor
  (`sent_twice_in_a_second`).
* `redelivery_unchanged_iff` : a message that is delivered again changes nothing exactly when its id is still in the
  history. `Actor::on_notification` looks nowhere else, so after `MAX_MESSAGES` newer messages it is stored again
  (`redelivered_after_eviction`).
-/

namespace OmaChat.Daemon
open Wire Effects Nostr Durable Transition

variable {p : Primitives} {peer text : String}

/-! ## Distinct ids -/

structure Distinct (messages : List StoredMessage) : Prop where
  ids : (messages.map StoredMessage.id).Nodup
  length : messages.length ≤ maxMessages

theorem distinct_nil : Distinct [] := ⟨List.nodup_nil, Nat.zero_le _⟩

variable {c c' : Actor × World} {message : StoredMessage} {l : ChatLabel p}

theorem Distinct.push {messages : List StoredMessage} (h : Distinct messages)
    (hid : message.id ∉ (Window.evict maxMessages messages).map StoredMessage.id) :
    Distinct (Window.push maxMessages messages message) :=
  ⟨Window.nodup_map_push h.ids hid, Window.length_push_le (by decide) h.length _⟩

/-! ## Rumors -/

/-- A rumor that is sent, or that a gift wrap brings, in a step of `ls`. -/
def RumorIn (ls : List (ChatLabel p)) (rumor : Rumor) : Prop :=
  (∃ peer text outgoing, .send peer text (some outgoing) ∈ ls ∧ rumor = outgoing.rumor) ∨
    ∃ subscription giftWrap message secret now sealEvent, .deliver (.event subscription giftWrap) message ∈ ls ∧
      Opens p giftWrap secret now defaultLimits sealEvent rumor

/-- SHA-256 has no collision among the rumors of the run. -/
def CollisionFree (ls : List (ChatLabel p)) : Prop :=
  ∀ a b, RumorIn ls a → RumorIn ls b → ¬ Collision p a.unsigned.canonicalJson b.unsigned.canonicalJson

/-- The message is that of the rumor, for a user who is one of the two. -/
structure Tells (p : Primitives) (rumor : Rumor) (message : StoredMessage) : Prop where
  id : message.id = hexEncode (rumor.unsigned.id p).val
  text : message.text = rumor.content
  createdAt : message.createdAt = rumor.createdAt
  peer : ∃ mine, rumorPeer mine rumor = some message.peer

section
open Method
variable {ω : Type} {step : Answering Call.Answer ω} {a a' : Actor × ω} {outgoing : Outgoing p}

theorem rumor_of_prepareSend (h : (prepareSend p peer text).Exec step a (.ok outgoing) a') :
    outgoing.rumor = chatMessage p outgoing.secret.publicKey outgoing.recipient outgoing.now text := by
  unfold prepareSend at h
  split at h
  · cases (exec_throw.1 h).1
  obtain ⟨⟨secret, _⟩, _, -, h⟩ := exec_bind_ok.1 h
  obtain ⟨_, _, -, h⟩ := exec_bind_ok.1 h
  obtain ⟨⟨recipient, _⟩, _, -, h⟩ := exec_bind_ok.1 h
  dsimp only at h
  split at h
  · cases (exec_throw.1 h).1
  obtain ⟨_, _, -, h⟩ := exec_bind_ok.1 h
  obtain ⟨now, _, -, h⟩ := exec_bind_ok.1 h
  obtain ⟨rumor, _, hrumor, h⟩ := exec_bind_ok.1 h
  obtain rfl := Except.ok.inj (exec_pure.1 h).1
  exact eq_chatMessage_of_createChatRumor secret.valid (mapError_ok_iff.1 (exec_ofExcept.1 hrumor).1.symm)

theorem tells_of_prepareSend (h : (prepareSend p peer text).Exec step a (.ok outgoing) a') :
    Tells p outgoing.rumor (outgoingMessage p outgoing text) := by
  have hrumor := rumor_of_prepareSend h
  refine ⟨?_, ?_, rfl, outgoing.secret.pubkey, ?_⟩
  · exact (congrArg Rumor.id hrumor).trans (by rw [hrumor]; rfl)
  · rw [hrumor]
    rfl
  · rw [hrumor, rumorPeer]
    exact if_pos rfl

end

/-- One of the two that a sent rumor is between is the peer of its message. -/
theorem peer_of_chatMessage {rumor : Rumor} {mine : String} {sender recipient : Bytes 32} {now : UInt64}
    (h : rumor.unsigned = (chatMessage p sender recipient now text).unsigned) (hpeer : rumorPeer mine rumor = some peer) :
    peer = hexEncode recipient.val ∨ peer = hexEncode sender.val := by
  unfold rumorPeer at hpeer
  have htags : rumor.tags = [["p", hexEncode recipient.val]] := congrArg UnsignedEvent.tags h
  split at hpeer
  · rw [htags] at hpeer
    exact .inl (Option.some.inj hpeer).symm
  · exact .inr ((Option.some.inj hpeer).symm.trans (congrArg UnsignedEvent.pubkey h))

/-- If the step sends a text, none of the messages that stay is this text of the same second with the same peer, or came
from the user's own key when they had another one. -/
def FreshSend (c : Actor × World) : ChatLabel p → Prop
  | .send _ text (some outgoing) => ∀ m ∈ Window.evict maxMessages c.1.messages, m.text = text →
      m.createdAt = outgoing.now → m.peer ≠ hexEncode outgoing.recipient.val ∧ m.peer ≠ outgoing.secret.pubkey
  | _ => True

/-- Every message that is held tells a rumor of `ls`. -/
def Recounts (ls : List (ChatLabel p)) (messages : List StoredMessage) : Prop :=
  ∀ m ∈ messages, ∃ rumor, RumorIn ls rumor ∧ Tells p rumor m

section
variable {ls : List (ChatLabel p)}

theorem recounts_step (h : ChatStep c l c') (hl : l ∈ ls) (hc : (books c).messages.All (Recounts ls)) :
    (books c').messages.All (Recounts ls) := by
  refine provenance_step (P := fun m => ∃ rumor, RumorIn ls rumor ∧ Tells p rumor m) h ?_ ?_ hc
  · rintro peer text outgoing rfl
    obtain ⟨_, hprepare, _⟩ := h
    exact ⟨outgoing.rumor, .inl ⟨peer, text, outgoing, hl, rfl⟩, tells_of_prepareSend hprepare⟩
  · rintro notification message rfl
    obtain ⟨_, hincoming, _⟩ := h
    obtain ⟨subscription, giftWrap, rfl, -, secret, _, now, sealEvent, rumor, -, hopens, hmsg⟩ := incoming_some hincoming
    obtain ⟨hid, htext, htime, hpeer, -⟩ := rumorMessage_some hmsg
    refine ⟨rumor, .inr ⟨subscription, giftWrap, _, secret.secret, now, sealEvent, hl, hopens⟩,
      ?_, htext, htime, _, hpeer⟩
    rw [hid, rumor_id_of_verify hopens.rumorVerified]

theorem id_not_held {outgoing : Outgoing p} (hfree : CollisionFree ls)
    (h : ChatStep c (.send peer text (some outgoing)) c') (hl : .send peer text (some outgoing) ∈ ls)
    (hfresh : FreshSend c (.send peer text (some outgoing))) (hc : Recounts ls c.1.messages) :
    outgoing.rumor.id ∉ (Window.evict maxMessages c.1.messages).map StoredMessage.id := by
  intro hmem
  obtain ⟨m, hm, hid⟩ := List.mem_map.1 hmem
  obtain ⟨rumor, hin, htells⟩ := hc m ((Window.evict_sublist _ _).subset hm)
  obtain ⟨_, hprepare, _⟩ := h
  have hids : rumor.unsigned.id p = outgoing.rumor.unsigned.id p := by
    apply hexEncode_val_inj
    rw [← htells.id, hid]
    exact (tells_of_prepareSend hprepare).id
  have hsame := (eq_or_collision hids).resolve_right (hfree _ _ hin (.inl ⟨peer, text, outgoing, hl, rfl⟩))
  rw [rumor_of_prepareSend hprepare] at hsame
  obtain ⟨mine, hpeer⟩ := htells.peer
  obtain ⟨hrecipient, hown⟩ := hfresh m hm (htells.text.trans (congrArg UnsignedEvent.content hsame))
    (htells.createdAt.trans (congrArg UnsignedEvent.createdAt hsame))
  exact (peer_of_chatMessage hsame hpeer).elim hrecipient hown

theorem distinct_step (hfree : CollisionFree ls) (h : ChatStep c l c') (hl : l ∈ ls) (hfresh : FreshSend c l)
    (hrecounts : Recounts ls c.1.messages) (hc : (books c).messages.All Distinct) : (books c').messages.All Distinct := by
  obtain hm | ⟨relays, rfl, r, hloads⟩ | ⟨peer, text, outgoing, rfl, r, hs⟩ |
    ⟨notification, message, rfl, hid, r, hs⟩ :=
    messages_cases (chatStep_books h)
  · rw [hm]
    exact hc
  · exact hloads.all hc distinct_nil
  · exact hs.all hc (hc.memory.push (id_not_held hfree h hl hfresh hrecounts))
  · refine hs.all hc (hc.memory.push fun hmem => hid ?_)
    exact ((Window.evict_sublist maxMessages _).map StoredMessage.id).subset hmem

end

/-- **In every run from an empty history in which no text is sent to a peer while the same text of the same second is held
with this peer, the ids stay distinct,** if SHA-256 has no collision among the rumors of the run; and there are at most
`MAX_MESSAGES` messages. -/
theorem message_ids_nodup {c₀ c : Actor × World} {ls : List (ChatLabel p)} (hfree : CollisionFree ls)
    (hempty : c₀.1.messages = []) (hdisk : c₀.2.messages.stored = none)
    (hrun : Run (fun c l c' => ChatStep c l c' ∧ FreshSend c l) c₀ ls c) :
    (c.1.messages.map StoredMessage.id).Nodup ∧ c.1.messages.length ≤ maxMessages := by
  have hstart {P : List StoredMessage → Prop} (hnil : P []) : (books c₀).messages.All P := by
    refine ⟨?_, fun s hs => ?_⟩
    · rw [books_messages, hempty]
      exact hnil
    · rw [books_messages, hdisk] at hs
      cases hs
  have hall := (hrun.labels fun _ hl => hl).invariant
    (I := fun c => (books c).messages.All (Recounts ls) ∧ (books c).messages.All Distinct)
    (fun c l c' ⟨⟨hstep, hfresh⟩, hl⟩ ⟨hrecounts, hdistinct⟩ =>
      ⟨recounts_step hstep hl hrecounts, distinct_step hfree hstep hl hfresh hrecounts.memory hdistinct⟩)
    ⟨hstart fun m hm => absurd hm List.not_mem_nil, hstart distinct_nil⟩
  exact ⟨hall.2.memory.ids, hall.2.memory.length⟩

/-- Alice sends Bob two texts in one second. -/
theorem message_ids_nodup_two_texts :
    let ls := [ChatLabel.start [], .send bobNpub "hi" (some (toBob [] [] 1000 "hi")),
      .send bobNpub "there" (some (toBob [] [] 1000 "there"))]
    ∃ c, Run (fun c l c' => ChatStep c l c' ∧ FreshSend c l) atRest ls c ∧
      (c.1.messages.map StoredMessage.id).Nodup ∧ c.1.messages.length ≤ maxMessages := by
  intro ls
  have hids : (toBob [] [] 1000 "there").rumor.id ≠ (toBob [] [] 1000 "hi").rumor.id := chatRumor_id_ne (by decide)
  have hfree : CollisionFree ls := by
    have hin (rumor : Rumor) (h : RumorIn ls rumor) :
        rumor = (toBob [] [] 1000 "hi").rumor ∨ rumor = (toBob [] [] 1000 "there").rumor := by
      rcases h with ⟨peer, text, outgoing, hmem, rfl⟩ | ⟨_, _, _, _, _, _, hmem, -⟩
      · simp only [ls, List.mem_cons, ChatLabel.send.injEq, Option.some.injEq, reduceCtorEq, false_or, List.not_mem_nil,
          or_false] at hmem
        rcases hmem with ⟨-, -, rfl⟩ | ⟨-, -, rfl⟩
        · exact .inl rfl
        · exact .inr rfl
      · simp [ls] at hmem
    rintro a b ha hb ⟨hne, hhash⟩
    rcases hin a ha with rfl | rfl <;> rcases hin b hb with rfl | rfl
    · exact hne rfl
    · exact hids (congrArg (fun hash : Bytes 32 => hexEncode hash.val) hhash.symm)
    · exact hids (congrArg (fun hash : Bytes 32 => hexEncode hash.val) hhash)
    · exact hne rfl
  let c := stored (afterStart [] []) (outgoingMessage _ (toBob [] [] 1000 "hi") "hi")
  have hrun : Run (fun c l c' => ChatStep c l c' ∧ FreshSend c l) atRest ls
      (stored c (outgoingMessage _ (toBob [] [] 1000 "there") "there")) := by
    refine .cons ⟨start_atRest, trivial⟩ (.cons ⟨send_stores (sends_toBob 1000 ?_ ?_), ?_⟩
      (.cons ⟨send_stores (sends_toBob 1000 ?_ ?_).stored, ?_⟩ (.nil _)))
    · decide
    · decide
    · exact fun m hm => absurd hm List.not_mem_nil
    · decide
    · decide
    · intro m hm htext
      obtain rfl := List.mem_singleton.1 hm
      exact absurd htext (by decide)
  exact ⟨_, hrun, message_ids_nodup hfree rfl rfl hrun⟩

/-- Alice sends Bob the same text twice in one second. -/
theorem sent_twice_in_a_second :
    let hi := ChatLabel.send bobNpub "hi" (some (toBob [] [] 1000 "hi"))
    ∃ c, Run ChatStep atRest [.start [], hi, hi] c ∧ ¬ (c.1.messages.map StoredMessage.id).Nodup := by
  have hsends : Sends (afterStart [] []).1 bobNpub "hi" (toBob [] [] 1000 "hi") := sends_toBob 1000 (by decide) (by decide)
  refine ⟨_, .cons start_atRest (run_sends [("hi", toBob [] [] 1000 "hi"), ("hi", toBob [] [] 1000 "hi")] ?_), ?_⟩
  · simpa using hsends
  · rw [sent_messages]
    simp [afterStart, started, Window.push, Window.evict, maxMessages]

/-! ## Messages that come again -/

def ChatLabel.mayStore : ChatLabel p → Bool
  | .send _ _ (some _) | .deliver _ (some _) => true
  | _ => false

/-- The step stores `message`. -/
def Stores (message : StoredMessage) (c : Actor × World) (l : ChatLabel p) (c' : Actor × World) : Prop :=
  ChatStep c l c' ∧ c'.1.messages = Window.push maxMessages c.1.messages message

/-- A step of the actor; a restart loads the messages that it had. -/
def ReloadingStep (c : Actor × World) (l : ChatLabel p) (c' : Actor × World) : Prop :=
  ChatStep c l c' ∧ ∀ relays, l = .start relays → c'.1.messages = c.1.messages

theorem reloadingStep_messages (h : ReloadingStep c l c') : c'.1.messages = c.1.messages ∨
      (l.mayStore = true ∧ ∃ message, c'.1.messages = Window.push maxMessages c.1.messages message) := by
  obtain hm | ⟨relays, rfl, r, hl⟩ | ⟨peer, text, outgoing, rfl, r, hs⟩ | ⟨notification, message, rfl, hid, r, hs⟩ :=
    messages_cases (chatStep_books h.1)
  · exact .inl (congrArg Mirror.memory hm)
  · exact .inl (h.2 relays rfl)
  · exact .inr ⟨rfl, _, hs.memory⟩
  · exact .inr ⟨rfl, _, hs.memory⟩

theorem recent_run {ls : List (ChatLabel p)} {k : Nat}
    (hrun : Run ReloadingStep c ls c') (hrecent : Window.Recent k message c.1.messages)
    (hk : k + ls.countP ChatLabel.mayStore < maxMessages) : message ∈ c'.1.messages := by
  induction hrun generalizing k with
  | nil => exact hrecent.mem
  | @cons c c₁ c' l ls hstep _ ih =>
    rw [List.countP_cons] at hk
    rcases reloadingStep_messages hstep with hm | ⟨hl, newer, hm⟩
    · rw [← hm] at hrecent
      exact ih hrecent (by omega)
    · rw [if_pos hl] at hk
      have hrecent' := hrecent.push (n := maxMessages) (by omega) newer
      rw [← hm] at hrecent'
      exact ih hrecent' (by omega)

theorem delivery_unchanged_iff {notification : RelayNotification}
    {message : Option StoredMessage} (h : ChatStep (p := p) c (.deliver notification message) c') :
    c'.1.messages = c.1.messages ↔ ∀ m ∈ message, m.id ∈ c.1.messages.map StoredMessage.id := by
  cases message with
  | none =>
    refine ⟨fun _ m hm => absurd hm (Option.not_mem_none m), fun _ => ?_⟩
    exact congrArg (fun b => b.messages.memory) (chatStep_books h)
  | some m =>
    simp only [Option.mem_def, Option.some.injEq, forall_eq']
    obtain ⟨hid, hb⟩ | ⟨hid, hs⟩ := chatStep_books h
    · exact ⟨fun _ => hid, fun _ => congrArg (fun b => b.messages.memory) hb⟩
    · refine ⟨fun hsame => ?_, fun hmem => absurd hmem hid⟩
      obtain ⟨r, hs⟩ := hs.messages
      have hm : m ∈ c'.1.messages := by
        rw [show c'.1.messages = _ from hs.memory]
        exact Window.mem_push_self _ _ _
      exact List.mem_map_of_mem (hsame ▸ hm)

/-- **A message that is delivered again, after any steps of the actor, leaves the history as it is exactly when its id
is still there** (or the notification brings no message), and so does one that is followed by fewer than `MAX_MESSAGES`
others. -/
theorem redelivery_unchanged_iff {c₁ c₂ c c' : Actor × World} {l : ChatLabel p} {ls : List (ChatLabel p)}
    {first : StoredMessage} {notification : RelayNotification} {again : Option StoredMessage}
    (hfirst : Stores first c₁ l c₂) (hrun : Run ReloadingStep c₂ ls c)
    (hagain : ChatStep (p := p) c (.deliver notification again) c') (hid : ∀ m ∈ again, m.id = first.id) :
    (c'.1.messages = c.1.messages ↔ again = none ∨ first.id ∈ c.1.messages.map StoredMessage.id) ∧
      (ls.countP ChatLabel.mayStore < maxMessages → c'.1.messages = c.1.messages) := by
  have hiff : c'.1.messages = c.1.messages ↔ again = none ∨ first.id ∈ c.1.messages.map StoredMessage.id := by
    rw [delivery_unchanged_iff hagain]
    cases again with
    | none => simp
    | some m =>
      have hm := hid m rfl
      simp [← hm]
  refine ⟨hiff, fun hcount => hiff.2 (.inr ?_)⟩
  have hrecent : Window.Recent 0 first c₂.1.messages := by
    rw [hfirst.2]
    exact Window.recent_push_self _ _ _
  exact List.mem_map_of_mem (recent_run hrun hrecent (by omega))

def firstRumor : Rumor := chatRumor aliceKey bobKey 1000 "hi"

/-- Its seal, which Alice's daemon can open. -/
def firstSeal : SignedEvent := sealOf firstRumor aliceKey 1000

/-- The copy that Alice's daemon published for her other devices. -/
def firstCopy : SignedEvent := wrapOf firstSeal aliceKey (Bytes.replicate 32 3) 1000

/-- Primitives that can open the copy. -/
abbrev firstPrimitives : Primitives := transparent [firstRumor] [firstSeal]

def aliceSends (now : UInt64) (text : String) : String × Outgoing firstPrimitives :=
  (text, toBob [firstRumor] [firstSeal] now text)

def firstMessage : StoredMessage :=
  outgoingMessage firstPrimitives (toBob [firstRumor] [firstSeal] 1000 "hi") "hi"

theorem firstCopy_opens (contacts : List Contact) :
    ∃ opened, openGiftWrap firstPrimitives firstCopy (aliceSecret [firstRumor] [firstSeal]).secret
        1000 defaultLimits = .ok opened ∧
      rumorMessage firstPrimitives contacts (aliceSecret [firstRumor] [firstSeal]).pubkey
        opened.rumor = some firstMessage := by
  refine ⟨_, transparent_opens_chat ?_ 1000 ?_ ?_,
    rumorMessage_chatRumor (toBob [firstRumor] [firstSeal] 1000 "hi") rfl ?_ ?_⟩
  · decide
  · decide
  · decide
  · decide
  · decide

theorem deliver_firstCopy (c : Actor × World) :
    ChatStep (p := firstPrimitives) c (.deliver (.event "" firstCopy) (some firstMessage))
      (if firstMessage.id ∈ c.1.messages.map StoredMessage.id then c else stored c firstMessage) := by
  obtain ⟨opened, hopen, hmsg⟩ := firstCopy_opens c.1.contacts
  exact deliver_brings rfl hopen hmsg

theorem sends_aliceSends (now : UInt64) (hv : validText text = true) (hsize : Json.escapedSize text ≤ 5000) :
    Sends (afterStart [firstRumor] [firstSeal]).1 bobNpub (aliceSends now text).1 (aliceSends now text).2 :=
  sends_toBob now hv hsize

/-- The copy of a message comes back at once. -/
theorem redelivery_unchanged_at_once :
    let c := stored (afterStart [firstRumor] [firstSeal]) firstMessage
    Stores firstMessage (afterStart [firstRumor] [firstSeal])
        (.send bobNpub "hi" (some (toBob [firstRumor] [firstSeal] 1000 "hi"))) c ∧
      ∃ c', ChatStep (p := firstPrimitives) c
        (.deliver (.event "" firstCopy) (some firstMessage)) c' ∧ c'.1.messages = c.1.messages := by
  intro c
  have hstores : Stores firstMessage (afterStart [firstRumor] [firstSeal])
      (.send bobNpub "hi" (some (toBob [firstRumor] [firstSeal] 1000 "hi"))) c :=
    ⟨send_stores (sends_aliceSends 1000 (by decide) (by decide)), rfl⟩
  have hagain := deliver_firstCopy c
  have hcount : ([] : List (ChatLabel firstPrimitives)).countP ChatLabel.mayStore < maxMessages :=
    by decide
  exact ⟨hstores, _, hagain, (redelivery_unchanged_iff hstores (.nil c) hagain (by simp)).2 hcount⟩

/-- Alice's daemon sends 128 messages after the first one, and then gets the copy of the first one from a relay. -/
theorem redelivered_after_eviction :
    let later := (List.range 128).map fun i => aliceSends (UInt64.ofNat (1001 + i)) "and another message"
    ∃ c₁ c c', Run ChatStep atRest
        [.start [], .send bobNpub "hi" (some (toBob [firstRumor] [firstSeal] 1000 "hi"))] c₁ ∧
      firstMessage ∈ c₁.1.messages ∧
      Run ChatStep c₁ (later.map fun send => .send bobNpub send.1 (some send.2)) c ∧
      ChatStep (p := firstPrimitives) c
        (.deliver (.event "" firstCopy) (some firstMessage)) c' ∧ c'.1.messages ≠ c.1.messages := by
  intro later
  have hlater : ∀ send ∈ later, ∃ now, send = aliceSends now "and another message" := by
    intro send hsend
    obtain ⟨i, -, rfl⟩ := List.mem_map.1 hsend
    exact ⟨_, rfl⟩
  let c₁ := stored (afterStart [firstRumor] [firstSeal]) firstMessage
  have hrun : Run ChatStep c₁ (later.map fun send => .send bobNpub send.1 (some send.2)) (sent c₁ later) := by
    refine run_sends later fun send hsend => ?_
    obtain ⟨now, rfl⟩ := hlater send hsend
    exact (sends_aliceSends now (by decide) (by decide)).stored
  have hmessages : (sent c₁ later).1.messages =
      later.map fun send => outgoingMessage firstPrimitives send.2 send.1 := by
    rw [sent_messages, Window.foldl_push (by decide) _ (by decide)]
    rw [show c₁.1.messages = [firstMessage] from rfl]
    simp [later, maxMessages]
  have hid : firstMessage.id ∉ (sent c₁ later).1.messages.map StoredMessage.id := by
    rw [hmessages]
    intro hmem
    simp only [List.map_map, List.mem_map, Function.comp_apply] at hmem
    obtain ⟨send, hsend, hid⟩ := hmem
    obtain ⟨now, rfl⟩ := hlater send hsend
    refine chatRumor_id_ne ?_ hid
    have htime := size_time_le now
    have hhi : (Json.num (1000 : UInt64).toNat).size + Json.escapedSize "hi" = 6 := by decide
    have htext : Json.escapedSize "and another message" = 19 := by decide
    omega
  have hdeliver := deliver_firstCopy (sent c₁ later)
  rw [if_neg hid] at hdeliver
  refine ⟨c₁, _, _, .cons start_atRest (.cons (send_stores (sends_aliceSends 1000 ?_ ?_)) (.nil _)), ?_, hrun, hdeliver, ?_⟩
  · decide
  · decide
  · exact Window.mem_push_self _ _ _
  · intro hsame
    have hmem : firstMessage ∈ (sent c₁ later).1.messages := by
      rw [← hsame]
      exact Window.mem_push_self _ _ _
    exact hid (List.mem_map_of_mem hmem)

end OmaChat.Daemon
