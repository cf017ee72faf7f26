import OmaChat.Nostr.RoundTrip
import OmaChat.Daemon.Progress

/-!
# Accepted texts are delivered

From a text that `Actor::send` accepts to the history of its recipient: the rumor, the seal and the gift wrap are made
within the limits of events, and `Actor::on_notification` of the recipient opens them and stores the message.

* `validText_bounds` : what an accepted text takes in JSON;
* `createGiftWrap_draws` : the random material of a gift wrap;
* `exec_onNotification_stores` : a gift wrap that opens is stored, whatever the store and the hub answer;
* `accepted_text_delivered` : the whole, for two different keys. A text to oneself has no rumor (`text_to_self_refused`).
-/

namespace OmaChat.Daemon
open Wire Effects Nostr Crypto Method

variable {p : Primitives} {rumor : Rumor} {ω : Type}

/-! ## The text -/

theorem validText_bounds {text : String} (h : validText text = true) :
    text.utf8ByteSize ≤ 4096 ∧ Json.escapedSize text ≤ 8192 := by
  unfold validText maxTextBytes at h
  simp only [Bool.not_eq_true', Bool.or_eq_false_iff, decide_eq_false_iff_not, not_lt] at h
  obtain ⟨⟨-, hlong⟩, hchars⟩ := h
  have hplain : ∀ c ∈ text.toList, 32 ≤ c.toNat ∨ c.toNat = 9 ∨ c.toNat = 10 := by
    intro c hc
    have hctl := List.any_eq_false.1 hchars c hc
    by_cases hlow : 32 ≤ c.toNat
    · exact .inl hlow
    · have hiscontrol : isControl c = true := by
        unfold isControl
        simp only [Bool.or_eq_true, decide_eq_true_eq]
        exact .inl (by omega)
      simp only [hiscontrol, Bool.true_and, Bool.and_eq_true, bne_iff_ne, ne_eq, not_and_or, not_not] at hctl
      rcases hctl with rfl | rfl
      · exact .inr (.inr rfl)
      · exact .inr (.inl rfl)
  have hdouble := Json.escapedSize_le_two_mul hplain
  omega

/-! ## The random material -/

section
variable {step : Answering Call.Answer ω} {c c' : Actor × ω}

/-- The error of a random source that does not answer, or answers no key in all its attempts. -/
def noRandomness : ChatError := .send (.giftWrap .randomnessUnavailable)

variable {x : Except ChatError (Bytes 32)} {now : UInt64} {β : Type}

theorem exec_randomArray_cases (h : randomArray.Exec step c x c') : x = .error noRandomness ∨ ∃ bytes, x = .ok bytes := by
  obtain ⟨r, w, -, h⟩ := exec_request_bind.1 h
  cases r with
  | none => exact .inl (exec_throw.1 h).1
  | some bytes => exact .inr ⟨bytes, (exec_pure.1 h).1⟩

theorem exec_randomSecretKey_cases {attempts : Nat} (h : (randomSecretKey p attempts).Exec step c x c') :
    x = .error noRandomness ∨ ∃ bytes, x = .ok bytes ∧ (p.publicKey bytes).isSome := by
  induction attempts generalizing c with
  | zero => exact .inl (exec_throw.1 h).1
  | succ attempts ih =>
    rcases exec_bind.1 h with ⟨e, rfl, h₁⟩ | ⟨candidate, c₁, -, h₂⟩
    · obtain he | ⟨bytes, hok⟩ := exec_randomArray_cases h₁
      · exact .inl he
      · cases hok
    · by_cases hv : (p.publicKey candidate).isSome
      · rw [if_pos hv] at h₂
        exact .inr ⟨candidate, (exec_pure.1 h₂).1, hv⟩
      · rw [if_neg hv] at h₂
        exact ih h₂

theorem exec_randomPastTimestamp_cases {x : Except ChatError UInt64}
    (h : (randomPastTimestamp now).Exec step c x c') : x = .error noRandomness ∨ ∃ t, x = .ok t ∧ t ≤ now := by
  obtain ⟨r, w, -, h⟩ := exec_request_bind.1 h
  cases r with
  | none => exact .inl (exec_throw.1 h).1
  | some bytes =>
    refine .inr ⟨_, (exec_pure.1 h).1, ?_⟩
    rw [UInt64.le_iff_toNat_le, toNat_satSub]
    omega

/-- What `create_gift_wrap` draws: a wrapper secret that has a key, and stamps that are not after `now`. -/
structure Drawn (p : Primitives) (material : GiftWrapMaterial) (now : UInt64) : Prop where
  wrapper : (p.publicKey material.wrapperSecretKey).isSome
  sealed : material.sealCreatedAt ≤ now
  wrapped : material.wrapperCreatedAt ≤ now

variable {y : Except ChatError β}

theorem exec_draw_bind {α : Type} {m : ChatMethod α} {f : α → ChatMethod β} {P : α → Prop}
    (hm : ∀ {c c' x}, m.Exec step c x c' → x = .error noRandomness ∨ ∃ a, x = .ok a ∧ P a)
    (h : (m >>= f).Exec step c y c') : y = .error noRandomness ∨ ∃ a c₁, P a ∧ (f a).Exec step c₁ y c' := by
  rcases exec_bind.1 h with ⟨e, rfl, h₁⟩ | ⟨a, c₁, h₁, h₂⟩
  · obtain he | ⟨a, hok, -⟩ := hm h₁
    · exact .inl (by rw [Except.error.inj he])
    · cases hok
  · obtain he | ⟨a', hok, ha⟩ := hm h₁
    · cases he
    · rw [← Except.ok.inj hok] at ha
      exact .inr ⟨a, c₁, ha, h₂⟩

theorem exec_randomArray_bind {f : Bytes 32 → ChatMethod β} (h : (randomArray >>= f).Exec step c y c') :
    y = .error noRandomness ∨ ∃ bytes c₁, (f bytes).Exec step c₁ y c' := by
  have hm {c c' : Actor × ω} {x : Except ChatError (Bytes 32)} (h : randomArray.Exec step c x c') :
      x = .error noRandomness ∨ ∃ bytes, x = .ok bytes ∧ True := by simpa using exec_randomArray_cases h
  obtain he | ⟨bytes, c₁, -, h⟩ := exec_draw_bind hm h
  · exact .inl he
  · exact .inr ⟨bytes, c₁, h⟩

/-- **A gift wrap is made from drawn material,** unless the random source fails. -/
theorem createGiftWrap_draws {sender recipient : Bytes 32} {x : Except ChatError SignedEvent}
    (h : (createGiftWrap p rumor sender recipient now).Exec step c x c') :
    x = .error noRandomness ∨ ∃ material, Drawn p material now ∧
      x = (createGiftWrapWithMaterial p rumor sender recipient .persistent material defaultLimits).mapError
        (fun error => .send (.giftWrap error)) := by
  unfold createGiftWrap at h
  obtain he | ⟨sealedAt, _, hsealed, h⟩ := exec_draw_bind exec_randomPastTimestamp_cases h
  · exact .inl he
  obtain he | ⟨nonce, _, h⟩ := exec_randomArray_bind h
  · exact .inl he
  obtain he | ⟨auxiliary, _, h⟩ := exec_randomArray_bind h
  · exact .inl he
  obtain he | ⟨wrapper, _, hwrapper, h⟩ := exec_draw_bind exec_randomSecretKey_cases h
  · exact .inl he
  obtain he | ⟨wrappedAt, _, hwrapped, h⟩ := exec_draw_bind exec_randomPastTimestamp_cases h
  · exact .inl he
  obtain he | ⟨nonce', _, h⟩ := exec_randomArray_bind h
  · exact .inl he
  obtain he | ⟨auxiliary', _, h⟩ := exec_randomArray_bind h
  · exact .inl he
  exact .inr ⟨_, ⟨hwrapper, hsealed, hwrapped⟩, (exec_ofExcept.1 h).1⟩

end

/-! ## Reception -/

section
variable {step : Answering Call.Answer ω} {c c' : Actor × ω}

def SameActor (c c' : Actor × ω) : Prop := c'.1 = c.1

instance : IsPreorder (Actor × ω) SameActor where
  refl _ := rfl
  trans _ _ _ h h' := Eq.trans h' h

theorem sameActor_request {ε : Type} (call : Call) :
    Keeps step SameActor (Method.request call : Method Call.Answer Actor ε call.Answer) :=
  keeps_request fun _ _ _ _ _ => rfl

variable {message : StoredMessage} {reader : NostrSecret p} {sent : UInt64}

theorem exec_storeMessage_messages {x : Except ChatError StoredMessage} (h : (storeMessage message).Exec step c x c') :
    c'.1.messages = Window.push maxMessages c.1.messages message := by
  have hrest (l : List StoredMessage) : Keeps step SameActor (do
      saveRecord .messages l
      publish .messages message.value
      pure message : ChatMethod StoredMessage) := by
    refine keeps_bind (keeps_bind (sameActor_request _) fun written => ?_) fun _ =>
      keeps_bind (keeps_bind (sameActor_request _) fun _ => sameActor_request _) fun _ => keeps_pure _
    split
    · exact keeps_pure _
    · exact keeps_throw _
  have hsame := hrest _ _ _ _ (exec_get_bind.1 (exec_modify_bind.1 h))
  exact congrArg Actor.messages hsame

/-- The world answers that the identity is `reader`, and a time that is at most fifteen minutes before `sent`. -/
structure Receives (step : Answering Call.Answer ω) (reader : NostrSecret p) (sent : UInt64) : Prop where
  identity : ∀ w r w', step (.read .identity) w r w' → r = .ok (some reader.secret)
  clock : ∀ w r w', step .now w r w' → ∃ now, r = some now ∧ sent.toNat ≤ now.toNat + 15 * 60

theorem exec_optionalSecret_reads (hworld : Receives step reader sent)
    {x : Except ChatError (Option (NostrSecret p))} (h : (optionalSecret p).Exec step c x c') :
    x = .ok (some reader) ∧ c'.1 = c.1 := by
  obtain ⟨r, hr, hactor, hx⟩ := exec_optionalSecret_iff.1 h
  obtain rfl := hworld.identity _ _ _ hr
  rw [readSecret, NostrSecret.fromBytes_secret] at hx
  exact ⟨hx, hactor⟩

/-- **A gift wrap that opens to the rumor of a new message is stored.** -/
theorem exec_onNotification_stores (hworld : Receives step reader sent) {subscription : String} {event : SignedEvent}
    (hkind : event.kind = giftWrapKind)
    (hopen : ∀ now : UInt64, sent.toNat ≤ now.toNat + 15 * 60 → ∃ sealEvent,
      openGiftWrap p event reader.secret now defaultLimits = .ok ⟨sealEvent, rumor⟩)
    (hmsg : rumorMessage p c.1.contacts reader.pubkey rumor = some message)
    (hnew : message.id ∉ c.1.messages.map StoredMessage.id) {x : Except ChatError Unit}
    (h : (onNotification p (.event subscription event)).Exec step c x c') :
    x = .ok () ∧ c'.1.messages = Window.push maxMessages c.1.messages message := by
  have hincoming {y : Except ChatError (Option StoredMessage)} {c₁ : Actor × ω}
      (h : (incoming p (.event subscription event)).Exec step c y c₁) : y = .ok (some message) ∧ c₁.1 = c.1 := by
    unfold incoming at h
    simp only [hkind, ne_eq, not_true_eq_false, if_false] at h
    rcases exec_bind.1 h with ⟨e, -, h₁⟩ | ⟨loaded, c₂, h₁, h₂⟩
    · cases (exec_optionalSecret_reads hworld h₁).1
    · obtain ⟨hloaded, hactor⟩ := exec_optionalSecret_reads hworld h₁
      rw [Except.ok.inj hloaded] at h₂
      obtain ⟨r, w, hr, h₃⟩ := exec_request_bind.1 h₂
      obtain ⟨now, rfl, hnow⟩ := hworld.clock _ _ _ hr
      obtain ⟨sealEvent, hopened⟩ := hopen now hnow
      simp only [hopened] at h₃
      have h₄ := exec_get_bind.1 h₃
      obtain ⟨hy, hc⟩ := exec_pure.1 h₄
      rw [hactor, hmsg] at hy
      exact ⟨hy, by rw [hc]; exact hactor⟩
  rcases exec_bind.1 h with ⟨e, -, h₁⟩ | ⟨brought, c₁, h₁, h₂⟩
  · cases (hincoming h₁).1
  · obtain ⟨hbrought, hactor⟩ := hincoming h₁
    rw [Except.ok.inj hbrought] at h₂
    have h₃ := exec_get_bind.1 h₂
    rw [hactor, if_neg (mt any_id_iff.1 hnew)] at h₃
    rcases exec_bind.1 h₃ with ⟨e, -, h₄⟩ | ⟨outcome, c₂, h₄, h₅⟩
    · obtain ⟨z, -, hz⟩ := exec_attempt.1 h₄
      cases hz
    · obtain ⟨z, hz, -⟩ := exec_attempt.1 h₄
      obtain ⟨hx, hc⟩ := exec_pure.1 h₅
      refine ⟨hx, ?_⟩
      rw [hc, exec_storeMessage_messages hz, hactor]

end

/-! ## From the text to the history -/

/-- A machine as a world that answers in one way. -/
def answering {ω : Type} (machine : (call : Call) → ω → call.Answer × ω) (call : Call) (w : ω)
    (r : call.Answer) (w' : ω) :
    Prop := machine call w = (r, w')

/-- Wherever `reader` has its identity and a clock at most fifteen minutes behind `sent`, and holds no message with the
id, `on_notification` for the gift wrap ends with such a message at the end of the history. -/
def Delivers {p : Primitives} (reader : NostrSecret p) (sent : UInt64) (giftWrap : SignedEvent) (id : String)
    (such : StoredMessage → Prop) : Prop :=
  ∀ {ω : Type} (machine : (call : Call) → ω → call.Answer × ω), Receives (answering machine) reader sent →
    ∀ (subscription : String) (actor : Actor) (w : ω), id ∉ actor.messages.map StoredMessage.id →
      ∃ message, such message ∧
        ((onNotification p (.event subscription giftWrap) actor).run machine w).1.1 = .ok () ∧
        ((onNotification p (.event subscription giftWrap) actor).run machine w).1.2.messages =
          Window.push maxMessages actor.messages message

/-- **An accepted text is delivered.** For two different keys the rumor of a text that `Actor::send` accepts is made, its
gift wrap is made from whatever the random source yields, and the recipient's `on_notification` appends the text as a
message from the sender. -/
theorem accepted_text_delivered {p : Primitives} {q : Nip44.Primitives} (laws : Laws p q) (total : Total p q)
    {text : String} (htext : validText text = true) (sender reader : NostrSecret (p.withNip44 q))
    (hne : sender.publicKey ≠ reader.publicKey) (now : UInt64) :
    ∃ rumor, createChatRumor (p.withNip44 q) sender.secret now [reader.publicKey] text defaultLimits = .ok rumor ∧
      ∀ {ω : Type} {step : Answering Call.Answer ω} {c c' : Actor × ω}
        {x : Except ChatError SignedEvent},
        (createGiftWrap (p.withNip44 q) rumor sender.secret reader.publicKey now).Exec step c x c' →
        x = .error noRandomness ∨ ∃ giftWrap, x = .ok giftWrap ∧ Delivers reader now giftWrap rumor.id fun message =>
          message.text = text ∧ message.peer = hexEncode sender.publicKey.val ∧ message.outgoing = false := by
  obtain ⟨hbytes, hescaped⟩ := validText_bounds htext
  let rumor := chatMessage p sender.publicKey reader.publicKey now text
  refine ⟨rumor, createChatRumor_eq sender.valid hne.symm (by omega), ?_⟩
  intro ω step c c' x hmake
  obtain he | ⟨material, hdrawn, hx⟩ := createGiftWrap_draws hmake
  · exact .inl he
  -- the gift wrap is made
  obtain ⟨key, hkey⟩ := Option.isSome_iff_exists.1 hdrawn.wrapper
  obtain ⟨sealEvent, giftWrap, hwraps⟩ : ∃ sealEvent giftWrap, Wraps (p.withNip44 q) rumor sender.secret reader.publicKey
      .persistent material {} sealEvent giftWrap :=
    wraps_chatMessage laws total .persistent material sender.valid reader.valid hkey hescaped
  rw [show createGiftWrapWithMaterial _ rumor _ _ _ _ defaultLimits = .ok giftWrap from
    createGiftWrap_ok_iff.2 ⟨sealEvent, hwraps⟩] at hx
  refine .inr ⟨giftWrap, hx, ?_⟩
  -- and opens
  intro ω' machine hworld subscription actor w hnew
  obtain ⟨message, hmessage, hid, hfields⟩ : ∃ message, rumorMessage (p.withNip44 q) actor.contacts reader.pubkey rumor =
      some message ∧ message.id = rumor.id ∧ message.text = text ∧ message.peer = hexEncode sender.publicKey.val ∧
      message.outgoing = false := rumorMessage_received hne hbytes
  have hopen (received : UInt64) (hclock : now.toNat ≤ received.toNat + 15 * 60) : ∃ sealEvent,
      openGiftWrap (p.withNip44 q) giftWrap reader.secret received defaultLimits = .ok ⟨sealEvent, rumor⟩ := by
    have hsealed := UInt64.le_iff_toNat_le.1 hdrawn.sealed
    have hwrapped := UInt64.le_iff_toNat_le.1 hdrawn.wrapped
    exact ⟨sealEvent, openGiftWrap_ok_iff.2 (opens_of_wraps laws reader.valid hwraps ⟨by omega, by omega⟩)⟩
  have hkind : giftWrap.kind = giftWrapKind := by
    obtain ⟨_, _, -, -, hsigned⟩ := hwraps.wrapped
    obtain ⟨-, _, _, -, -, -, rfl⟩ := signWithAux_ok_iff.1 hsigned
    rfl
  have hanswers (call : Call) (w : ω') : answering machine call w (machine call w).1 (machine call w).2 := rfl
  have hrun := Prog.exec_run hanswers (onNotification (p.withNip44 q) (.event subscription giftWrap) actor) w
  have hid' : message.id ∉ actor.messages.map StoredMessage.id := by
    rw [hid]
    exact hnew
  exact ⟨message, hfields, exec_onNotification_stores (c := (actor, w)) hworld hkind hopen hmessage hid'
    (show Method.Exec _ _ _ _ (_, _) from hrun)⟩

/-- The secret whose bytes are all `b`. -/
noncomputable def plainSecret (b : UInt8) : NostrSecret (clear.withNip44 clearCurve) :=
  ⟨Bytes.replicate 32 b, Bytes.replicate 32 b, rfl⟩

/-- A daemon of the secret whose bytes are all `b`, with nothing in its store. -/
def plainMachine (b : UInt8) (call : Call) (_ : Unit) : call.Answer × Unit :=
  match call with
  | .read .identity => (.ok (some (Bytes.replicate 32 b)), ())
  | .read .contacts | .read .messages | .read .relays => (.error .recordNotFound, ())
  | .write _ _ => (.ok (), ())
  | .now => (some 1700000000, ())
  | .random length => (some (Bytes.replicate length 0), ())
  | .resolveHandle _ _ => (.error .notFound, ())
  | .canonicalUrl _ => (none, ())
  | .createDmRelayList _ _ _ => (none, ())
  | .spawnPool _ => (false, ())
  | .waitConnected => (false, ())
  | .publishPool _ => (.ok (), ())
  | .nextSequence => ((0 : UInt64), ())
  | .shutdownPool | .subscribePool _ _ | .publishHub _ => ((), ())

/-- The key `1…1` says hello to the key `2…2`, whose history is empty. -/
theorem accepted_text_delivered_hello :
    let p := clear.withNip44 clearCurve
    ∃ rumor giftWrap, createChatRumor p (plainSecret 1).secret 1700000000 [(plainSecret 2).publicKey] "hello" defaultLimits =
        .ok rumor ∧
      (createGiftWrap p rumor (plainSecret 1).secret (plainSecret 2).publicKey 1700000000).Exec Answers atRest
        (.ok giftWrap) atRest ∧
      ∀ actor : Actor, actor.messages = [] → ∃ message,
        message.text = "hello" ∧ message.peer = hexEncode (plainSecret 1).publicKey.val ∧ message.outgoing = false ∧
        ((onNotification p (.event "" giftWrap) actor).run (plainMachine 2) ()).1.2.messages = [message] := by
  intro p
  let rumor := chatMessage clear (plainSecret 1).publicKey (plainSecret 2).publicKey 1700000000 "hello"
  let zero := Bytes.replicate 32 0
  have htext : validText "hello" = true := by decide
  obtain ⟨rumor', hrumor, hdelivers⟩ := accepted_text_delivered laws_clear total_clear htext (plainSecret 1)
    (plainSecret 2) (by decide) 1700000000
  obtain rfl : rumor = rumor' := by
    have hmade : createChatRumor p (plainSecret 1).secret 1700000000 [(plainSecret 2).publicKey] "hello" {} = .ok rumor :=
      createChatRumor_eq rfl (by decide) (by decide)
    exact Except.ok.inj (hmade.symm.trans hrumor)
  obtain ⟨sealEvent, giftWrap, hwraps⟩ : ∃ sealEvent giftWrap, Wraps p rumor (plainSecret 1).secret
      (plainSecret 2).publicKey .persistent ⟨1700000000, zero, zero, zero, 1700000000, zero, zero⟩ {} sealEvent giftWrap :=
    wraps_chatMessage laws_clear total_clear .persistent _ rfl rfl rfl (by decide)
  have hexec : (createGiftWrap p rumor (plainSecret 1).secret (plainSecret 2).publicKey 1700000000).Exec Answers atRest
      (.ok giftWrap) atRest := exec_createGiftWrap rfl (createGiftWrap_ok_iff.2 ⟨sealEvent, hwraps⟩)
  obtain he | ⟨giftWrap', hsame, hdelivered⟩ := hdelivers hexec
  · cases he
  obtain rfl : giftWrap = giftWrap' := Except.ok.inj hsame
  have hworld : Receives (answering (plainMachine 2)) (plainSecret 2) 1700000000 := by
    refine ⟨fun w r w' h => ?_, fun w r w' h => ⟨1700000000, ?_, by decide⟩⟩
    · exact (Prod.mk.inj h).1.symm
    · exact (Prod.mk.inj h).1.symm
  refine ⟨rumor, giftWrap, hrumor, hexec, fun actor hempty => ?_⟩
  obtain ⟨message, ⟨htext, hpeer, hincoming⟩, -, hmessages⟩ := hdelivered (plainMachine 2) hworld "" actor ()
    (by rw [hempty]; exact List.not_mem_nil)
  rw [hempty] at hmessages
  exact ⟨message, htext, hpeer, hincoming, hmessages⟩

/-- A text to one's own key is accepted, but there is no rumor for it. -/
theorem text_to_self_refused :
    validText "hello" = true ∧
      createChatRumor (clear.withNip44 clearCurve) (plainSecret 1).secret 1700000000 [(plainSecret 1).publicKey] "hello"
        defaultLimits = .error .duplicateOrSelfRecipient :=
  ⟨by decide, createChatRumor_self (plainSecret 1).valid⟩

end OmaChat.Daemon
