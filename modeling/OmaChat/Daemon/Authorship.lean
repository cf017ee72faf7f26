import OmaChat.Daemon.Progress
import OmaChat.Nostr.Signed

/-!
# Who wrote a message

The relays decide which events reach the actor, and an adversary may write them. `Authored` is what the actor knows of a
message that such an event brought, from the wrap down to the rumor, and `authorship_of_messages` says that it holds of
every message in the history that this daemon did not send itself, in every run of the actor and with every answer of its
surroundings.

The identity record may hold different secrets in the course of a run; `mine` are those that it may hold. `signs` is what
the holders of keys have signed, so that `Unforgeable` is what a valid signature proves: the curve and the hash together.
-/

namespace OmaChat.Daemon
open Wire Effects Nostr Durable Method Transition

variable {message : StoredMessage} {mine : Bytes 32 → Prop} {notification : RelayNotification} {p : Primitives}
  {signs : Bytes 32 → UnsignedEvent → Prop}

/-! ## Worlds with an identity record -/

/-- The answers of `Answers` in which the identity record holds a secret of `mine`, if it can be read and parsed. -/
def AnswersFrom (mine : Bytes 32 → Prop) : Answering Call.Answer World := fun call w r w' =>
  Answers call w r w' ∧ ∀ secret, (⟨call, r⟩ : Sigma Call.Answer) = ⟨.read .identity, .ok (some secret)⟩ →
    mine secret

/-! ## What a notification proves -/

section
/-- A valid signature is one that the holder of the key made: for every event whose id it verifies over, the holder
signed that event. -/
def Unforgeable (p : Primitives) (signs : Bytes 32 → UnsignedEvent → Prop) : Prop :=
  ∀ key (event : UnsignedEvent) signature, p.verify key (event.id p) signature = true → signs key event

/-- The author that the history shows: this user for an outgoing message, the peer for an incoming one. -/
def shownAuthor (mine : String) (message : StoredMessage) : String := if message.outgoing then mine else message.peer

/-- What a gift wrap proves of the message that it brought to `identity`. -/
structure Authored (p : Primitives) (signs : Bytes 32 → UnsignedEvent → Prop) (identity : NostrSecret p)
    (giftWrap : SignedEvent) (message : StoredMessage) : Prop where
  kind : giftWrap.kind = giftWrapKind
  recipient : ∃ tag, (giftWrap.tags.filter fun tag => tag.head? = some "p") = [tag] ∧ tag[1]? = some identity.pubkey
  /-- The signature of the wrap is one of its key, and its content is a seal for this identity. -/
  wrapped : ∃ key signature sealJson sealEvent author, decodeHex 32 giftWrap.pubkey = .ok key ∧
    decodeHex 64 giftWrap.sig = .ok signature ∧ p.verify key (giftWrap.unsigned.id p) signature = true ∧
    p.nip44Decrypt identity.secret key giftWrap.content = some sealJson ∧ p.decodeEvent (utf8 sealJson) = some sealEvent ∧
    sealEvent.kind = sealKind ∧ sealEvent.tags = [] ∧
    -- the author that is shown signed the seal, and its content is the rumor of the message
    decodeHex 32 (shownAuthor identity.pubkey message) = .ok author ∧ decodeHex 32 sealEvent.pubkey = .ok author ∧
    signs author sealEvent.unsigned ∧
    ∃ rumorJson rumor, p.nip44Decrypt identity.secret author sealEvent.content = some rumorJson ∧
      p.decodeRumor rumorJson = some rumor ∧ rumor.pubkey = shownAuthor identity.pubkey message ∧
      message.id = hexEncode (rumor.unsigned.id p).val ∧ message.text = rumor.content

variable {secret : NostrSecret p} {ω : Type} {contacts : List Contact} {rumor : Rumor}
  {step : Answering Call.Answer ω} {c c' : Actor × ω}

theorem exec_optionalSecret_some (h : (optionalSecret p).Exec step c (.ok (some secret)) c') :
    c'.1 = c.1 ∧ step (.read .identity) c.2 (.ok (some secret.secret)) c'.2 := by
  obtain ⟨r, hr, hactor, hread⟩ := exec_optionalSecret_iff.1 h
  match r, hr, Except.ok.inj hread with
  | .ok (some bytes), hr, hread =>
    rw [NostrSecret.secret_of_fromBytes hread.symm]
    exact ⟨hactor, hr⟩

theorem incoming_some (h : (incoming p notification).Exec step c (.ok (some message)) c') :
    ∃ subscription event, notification = .event subscription event ∧ event.kind = giftWrapKind ∧
      ∃ (secret : NostrSecret p) (w : ω) (now : UInt64) (sealEvent : SignedEvent) (rumor : Rumor),
        step (.read .identity) c.2 (.ok (some secret.secret)) w ∧
        Opens p event secret.secret now defaultLimits sealEvent rumor ∧
        rumorMessage p c.1.contacts secret.pubkey rumor = some message := by
  unfold incoming at h
  cases notification with
  | event subscription event =>
    refine ⟨subscription, event, rfl, ?_⟩
    dsimp only at h
    by_cases hkind : event.kind = giftWrapKind
    · refine ⟨hkind, ?_⟩
      rw [if_neg (not_not.2 hkind)] at h
      obtain ⟨loaded, c₁, h₁, h₂⟩ := exec_bind_ok.1 h
      cases loaded with
      | none => cases (exec_pure.1 h₂).1
      | some secret =>
        obtain ⟨hactor, hread⟩ := exec_optionalSecret_some h₁
        obtain ⟨time, w, -, h₃⟩ := exec_request_bind.1 h₂
        cases time with
        | none => cases (exec_pure.1 h₃).1
        | some now =>
          dsimp only at h₃
          cases hopen : openGiftWrap p event secret.secret now defaultLimits with
          | error e =>
            rw [hopen] at h₃
            cases (exec_pure.1 h₃).1
          | ok opened =>
            rw [hopen] at h₃
            have h₄ := exec_get_bind.1 h₃
            have hmsg := Except.ok.inj (exec_pure.1 h₄).1
            rw [hactor] at hmsg
            exact ⟨secret, c₁.2, now, opened.sealEvent, opened.rumor, hread, openGiftWrap_ok_iff.1 hopen, hmsg.symm⟩
    · rw [if_pos hkind] at h
      cases (exec_pure.1 h).1
  | _ => cases (exec_pure.1 h).1

theorem rumorMessage_some {mine : String} (h : rumorMessage p contacts mine rumor = some message) :
    message.id = rumor.id ∧ message.text = rumor.content ∧ message.createdAt = rumor.createdAt ∧
      rumorPeer mine rumor = some message.peer ∧ shownAuthor mine message = rumor.pubkey := by
  unfold rumorMessage at h
  split_ifs at h with hrefused
  cases hpeer : rumorPeer mine rumor with
  | none =>
    rw [hpeer] at h
    cases h
  | some peer =>
    rw [hpeer] at h
    dsimp only at h
    by_cases hself : peer = mine
    · rw [if_pos hself] at h
      cases h
    · rw [if_neg hself] at h
      obtain rfl := Option.some.inj h
      refine ⟨rfl, rfl, rfl, rfl, ?_⟩
      unfold shownAuthor
      by_cases hmine : rumor.pubkey = mine
      · simp [hmine]
      · rw [rumorPeer, if_neg hmine] at hpeer
        simpa [hmine] using (Option.some.inj hpeer).symm

/-- **The checks of a gift wrap prove who wrote the message.** -/
theorem authored_of_opens (hforge : Unforgeable p signs)
    {identity : NostrSecret p} {giftWrap sealEvent : SignedEvent} {now : UInt64} {limits : EventLimits}
    (hkind : giftWrap.kind = giftWrapKind) (hopens : Opens p giftWrap identity.secret now limits sealEvent rumor)
    (hmsg : rumorMessage p contacts identity.pubkey rumor = some message) :
    Authored p signs identity giftWrap message := by
  obtain ⟨hid, htext, -, -, hshown⟩ := rumorMessage_some hmsg
  obtain ⟨key, sealJson, hkey, hsealJson, -, hseal⟩ := hopens.wrapped
  obtain ⟨key', signature, hkey', -, hsig, hverify⟩ := hopens.wrapVerified.signed
  obtain rfl : key = key' := Except.ok.inj (hkey.symm.trans hkey')
  obtain ⟨author, rumorJson, hauth, hrumorJson, -, hrumor⟩ := hopens.sealed
  obtain ⟨author', sealSignature, hauth', -, -, hsealVerify⟩ := hopens.sealVerified.signed
  obtain rfl : author = author' := Except.ok.inj (hauth.symm.trans hauth')
  obtain ⟨recipient, hrcpt, htags⟩ := hopens.recipient
  refine ⟨hkind, ?_, key, signature, sealJson, sealEvent, author, hkey, hsig, hverify, hsealJson, hseal, hopens.sealKind,
    hopens.sealTags, ?_, hauth, hforge author sealEvent.unsigned sealSignature hsealVerify, rumorJson, rumor, hrumorJson,
    hrumor, hshown.symm, ?_, htext⟩
  · obtain rfl : recipient = identity.publicKey := Option.some.inj (hrcpt.symm.trans identity.valid)
    obtain ⟨tag, rest, htag, hname, hrest⟩ := List.map_eq_cons_iff.1 htags
    exact ⟨tag, by rw [htag, List.map_eq_nil_iff.1 hrest], hname⟩
  · rw [hshown, hopens.author]
    exact hauth
  · rw [hid]
    exact rumor_id_of_verify hopens.rumorVerified

end

/-! ## Runs -/

section
/-- A message that this daemon sent in a step of `ls`. -/
def SentIn (ls : List (ChatLabel p)) (message : StoredMessage) : Prop :=
  ∃ peer text outgoing, .send peer text (some outgoing) ∈ ls ∧ message = outgoingMessage p outgoing text

/-- A message that a gift wrap brought in a step of `ls`, to an identity of `mine` and with its author proved. -/
def BroughtIn (mine : Bytes 32 → Prop) (signs : Bytes 32 → UnsignedEvent → Prop) (ls : List (ChatLabel p))
    (message : StoredMessage) : Prop :=
  ∃ (subscription : String) (giftWrap : SignedEvent) (identity : NostrSecret p),
    .deliver (.event subscription giftWrap) (some message) ∈ ls ∧ mine identity.secret ∧
      Authored p signs identity giftWrap message

variable {c c' : Actor × World}

theorem authored_step (hforge : Unforgeable p signs)
    (h : ChatStepIn (p := p) (AnswersFrom mine) c (.deliver notification (some message)) c')
    {ls : List (ChatLabel p)} (hmem : .deliver notification (some message) ∈ ls) : BroughtIn mine signs ls message := by
  obtain ⟨c₁, hincoming, -⟩ := h
  obtain ⟨subscription, giftWrap, rfl, hkind, secret, w, now, sealEvent, rumor, hread, hopens, hmsg⟩ :=
    incoming_some hincoming
  exact ⟨subscription, giftWrap, secret, hmem, hread.2 secret.secret rfl, authored_of_opens hforge hkind hopens hmsg⟩

theorem provenance_step {P : StoredMessage → Prop} {l : ChatLabel p} (h : ChatStep c l c')
    (hsend : ∀ peer text outgoing, l = .send peer text (some outgoing) → P (outgoingMessage p outgoing text))
    (hdeliver : ∀ notification message, l = .deliver notification (some message) → P message)
    (hc : (books c).messages.All fun messages => ∀ m ∈ messages, P m) :
    (books c').messages.All fun messages => ∀ m ∈ messages, P m := by
  have hpush {message : StoredMessage} (hP : P message) :
      ∀ m ∈ Window.push maxMessages (books c).messages.memory message, P m := by
    intro m hm
    obtain rfl | hold := Window.eq_or_mem_of_mem_push hm
    · exact hP
    · exact hc.memory m hold
  obtain hm | ⟨relays, rfl, r, hl⟩ | ⟨peer, text, outgoing, rfl, r, hs⟩ | ⟨notification, message, rfl, -, r, hs⟩ :=
    messages_cases (chatStep_books h)
  · rw [hm]
    exact hc
  · exact hl.all hc fun m hm => absurd hm List.not_mem_nil
  · exact hs.all hc (hpush (hsend peer text outgoing rfl))
  · exact hs.all hc (hpush (hdeliver notification message rfl))

/-- **Every message in the history was sent by this daemon, or its shown author signed it.** In every run of the actor
from an empty history, whatever events the relays deliver, a message that no send of the run made was brought by a gift
wrap of the run: a wrap of kind 1059 with a valid signature and one `p` tag, that of an identity of the daemon; in it a
seal of kind 13 without tags, signed by the key that the history shows as the author; in that a rumor of this author, whose
hash is the id of the message and whose content is its text. -/
theorem authorship_of_messages (hforge : Unforgeable p signs) {c₀ c : Actor × World} {ls : List (ChatLabel p)}
    (hempty : c₀.1.messages = []) (hdisk : c₀.2.messages.stored = none)
    (hrun : Run (ChatStepIn (AnswersFrom mine)) c₀ ls c) :
    ∀ message ∈ c.1.messages, SentIn ls message ∨ BroughtIn mine signs ls message := by
  have hstart : (books c₀).messages.All fun messages => ∀ m ∈ messages, SentIn ls m ∨ BroughtIn mine signs ls m := by
    refine ⟨?_, fun s hs => ?_⟩
    · rw [books_messages, hempty]
      exact fun m hm => absurd hm List.not_mem_nil
    · rw [books_messages, hdisk] at hs
      cases hs
  refine ((hrun.labels fun _ hl => hl).invariant (I := fun c => (books c).messages.All fun messages =>
    ∀ m ∈ messages, SentIn ls m ∨ BroughtIn mine signs ls m) (fun c l c' ⟨hstep, hl⟩ => ?_) hstart).memory
  apply provenance_step (hstep.mono fun _ _ _ _ h => h.1)
  · intro peer text outgoing heq
    exact .inl ⟨peer, text, outgoing, heq ▸ hl, rfl⟩
  · intro notification message heq
    rw [heq] at hstep hl
    exact .inr (authored_step hforge hstep hl)

end

/-! A message from Bob reaches Alice's daemon. -/

def bobRumor : Rumor := chatRumor bobKey aliceKey 1000 "hi"

def bobSeal : SignedEvent := sealOf bobRumor bobKey 1000

def bobWrap : SignedEvent := wrapOf bobSeal aliceKey carolKey 1000

/-- Bob's message is in Alice's history, and it is his. -/
theorem authorship_of_bobs_message :
    let p := transparent [bobRumor] [bobSeal]
    let signs := fun key (event : UnsignedEvent) => ∃ signature, p.verify key (event.id p) signature = true
    ∃ message c, Run (ChatStepIn (p := p) (AnswersFrom fun _ => True)) atRest
        [.start [], .deliver (.event "" bobWrap) (some message)] c ∧
      message ∈ c.1.messages ∧ message.text = "hi" ∧ message.peer = hexEncode bobKey.val ∧
      ∃ identity, Authored p signs identity bobWrap message := by
  intro p signs
  have hforge : Unforgeable p signs := fun key event signature h => ⟨signature, h⟩
  have hopen : openGiftWrap p bobWrap (aliceSecret [bobRumor] [bobSeal]).secret 1000 defaultLimits =
      .ok ⟨bobSeal, bobRumor⟩ := by
    refine transparent_opens_chat ?_ 1000 ?_ ?_
    · decide
    · decide
    · decide
  obtain ⟨message, hmessage, -, htext, hpeer, -⟩ : ∃ message, rumorMessage p [bobContact]
      (aliceSecret [bobRumor] [bobSeal]).pubkey bobRumor = some message ∧ message.id = bobRumor.id ∧
      message.text = "hi" ∧ message.peer = hexEncode bobKey.val ∧ message.outgoing = false := by
    rw [bobRumor, chatRumor_eq_chatMessage [bobRumor] [bobSeal]]
    exact rumorMessage_received (by decide) (by decide)
  have hnew : message.id ∉ (afterStart [bobRumor] [bobSeal]).1.messages.map StoredMessage.id := List.not_mem_nil
  have hdeliver : ChatStep (p := p) (afterStart [bobRumor] [bobSeal]) (.deliver (.event "" bobWrap) (some message))
      (if message.id ∈ (afterStart [bobRumor] [bobSeal]).1.messages.map StoredMessage.id then
        afterStart [bobRumor] [bobSeal] else stored (afterStart [bobRumor] [bobSeal]) message) :=
    deliver_brings rfl hopen hmessage
  rw [if_neg hnew] at hdeliver
  have hrun : Run (ChatStepIn (p := p) (AnswersFrom fun _ => True)) atRest
      [.start [], .deliver (.event "" bobWrap) (some message)] (stored (afterStart [bobRumor] [bobSeal]) message) :=
    .cons (start_atRest.mono fun _ _ _ _ h => ⟨h, fun _ _ => trivial⟩)
      (.cons (hdeliver.mono fun _ _ _ _ h => ⟨h, fun _ _ => trivial⟩) (.nil _))
  have hmem : message ∈ (stored (afterStart [bobRumor] [bobSeal]) message).1.messages := Window.mem_push_self _ _ _
  refine ⟨message, _, hrun, hmem, htext, hpeer, ?_⟩
  obtain ⟨peer, text, outgoing, hsend, -⟩ | ⟨subscription, giftWrap, identity, hbrought, -, hauthored⟩ :=
    authorship_of_messages hforge rfl rfl hrun message hmem
  · simp at hsend
  · obtain ⟨⟨-, rfl⟩, -⟩ : (subscription = "" ∧ giftWrap = bobWrap) ∧ message = message := by simpa using hbrought
    exact ⟨identity, hauthored⟩

end OmaChat.Daemon
