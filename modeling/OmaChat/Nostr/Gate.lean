import OmaChat.Nostr.RelayWalk
import OmaChat.Nostr.Signed

/-!
# The gate of a relay connection

A relay may challenge a client to prove its key, and the actor then keeps back what the relay would not take. `gateEvents`
reads the log of an actor's calls: the challenges that the relay sent on the present connection, the events that the actor
wrote to answer them, and the verdicts of the relay on events. `gated_write` says what must stand there when the actor writes
an event, a request or a close.
-/

namespace OmaChat.Nostr
open Wire Effects

variable {challenge challenge' : String} {events : List GateEvent}

section Gate
variable (library : RelayLibrary) (config : RelayConfig)

/-- What a call and its answer mean for the gate. -/
def gateStep (events : List GateEvent) : (call : RelayCall) → call.Answer → List GateEvent
  | .connect, true => []
  | .select, .message (some (.ok (.text text))) => events ++ (gateEvent library config text).toList
  | .write (.auth signed) _, .ok _ => events ++ [.answered signed]
  | _, _ => events

/-- What happened to the gate of the present connection. -/
def gateEvents (log : RelayLog) : List GateEvent :=
  log.foldl (fun events x => gateStep library config events x.1 x.2) []

theorem learn_events (g : View) (call : RelayCall) (r : call.Answer) :
    (g.learn library config call r).events = gateStep library config g.events call r := by
  cases call with
  | connect => cases r <;> rfl
  | select =>
    rcases r with (_ | ⟨_, _⟩ | ⟨_, _, _⟩ | ⟨_, _⟩ | _) | (_ | _ | (_ | _ | _ | _ | _ | _)) | _ | _ <;> rfl
  | write frame text => cases frame <;> cases r <;> rfl
  | ping => cases r <;> rfl
  | notify notification => cases r <;> rfl
  | health health => cases health <;> rfl
  | wait delay => rcases r with _ | _ | _ | _ | _ | _ <;> rfl
  | _ => rfl

theorem learnAll_events (fuel : Nat) (g : View) (log : RelayLog) :
    ((relayRules library config fuel).learnAll g log).events =
      log.foldl (fun events x => gateStep library config events x.1 x.2) g.events := by
  induction log generalizing g with
  | nil => rfl
  | cons x log ih =>
    rw [List.foldl_cons, ← learn_events]
    exact ih _

end Gate

/-! ## The answers of an actor -/

section
variable {library : RelayLibrary} {config : RelayConfig}

theorem LatestChallenge.unique (h : LatestChallenge events challenge)
    (h' : LatestChallenge events challenge') : challenge = challenge' := by
  obtain ⟨before, after, rfl, ha⟩ := h
  obtain ⟨before', after', heq, ha'⟩ := h'
  rcases List.append_eq_append_iff.1 heq with ⟨between, -, hrest⟩ | ⟨between, -, hrest⟩
  · cases between with
    | nil => exact GateEvent.challenged.inj (List.cons.inj hrest).1
    | cons event between =>
      refine absurd ?_ (ha challenge')
      rw [(List.cons.inj hrest).2]
      simp
  · cases between with
    | nil => exact (GateEvent.challenged.inj (List.cons.inj hrest).1).symm
    | cons event between =>
      refine absurd ?_ (ha' challenge)
      rw [(List.cons.inj hrest).2]
      simp

variable (library config) in
/-- Every event that the actor wrote to answer a challenge answers the one that was the latest then. -/
def AllAnswer (events : List GateEvent) : Prop :=
  ∀ before signed after, events = before ++ .answered signed :: after → AnswersLatest library config before signed

theorem allAnswer_nil : AllAnswer library config [] := by
  intro before signed after h
  cases before <;> cases h

theorem AllAnswer.snoc {event : GateEvent} (h : AllAnswer library config events)
    (hev : ∀ signed, event = .answered signed → AnswersLatest library config events signed) :
    AllAnswer library config (events ++ [event]) := by
  intro before signed after heq
  rcases List.eq_nil_or_concat after with rfl | ⟨after, last, rfl⟩
  · obtain ⟨rfl, hlast⟩ := List.append_inj' heq rfl
    exact hev signed (List.cons.inj hlast).1
  · rw [List.concat_eq_append, ← List.cons_append, ← List.append_assoc] at heq
    exact h before signed after (List.append_inj' heq rfl).1

theorem AllAnswer.heard (h : AllAnswer library config events) (text : String) :
    AllAnswer library config (events ++ (gateEvent library config text).toList) := by
  have hnot : ∀ signed, gateEvent library config text ≠ some (.answered signed) := by
    intro signed
    unfold gateEvent
    split <;> simp
  cases hev : gateEvent library config text with
  | none => simpa using h
  | some event =>
    apply h.snoc
    rintro signed rfl
    exact absurd hev (hnot signed)

variable {fuel : Nat} {call : RelayCall}

theorem AllAnswer.step {g : View} (h : AllAnswer library config g.events)
    (hmay : MayCall library config fuel g call) (r : call.Answer) :
    AllAnswer library config (g.learn library config call r).events := by
  rw [learn_events]
  unfold gateStep
  split
  · exact allAnswer_nil
  · exact h.heard _
  · apply h.snoc
    intro signed heq
    cases heq
    exact hmay.auth _ _ rfl
  · exact h

theorem allAnswer_gateEvents {log : RelayLog} (hcalls : (runActor library config fuel {}).Calls log call) :
    AllAnswer library config (gateEvents library config log) := by
  obtain ⟨next, ha⟩ := hcalls
  have h := (Method.obeys_iff.1 (obeys_runActor library config fuel)).learned ha
    (I := fun g => AllAnswer library config g.events) (fun g e r hmay hg => hg.step hmay r) allAnswer_nil
  rw [learnAll_events] at h
  exact h

end

/-! ## The gate -/

section
variable {library : RelayLibrary} {config : RelayConfig}

variable (config) in
def Answers (challenge : String) (signed : SignedEvent) : Prop :=
  ∃ signer now, config.auth = some signer ∧ signed.unsigned = challengeAnswer signer config.url challenge now

variable (library) in
/-- No two different events with which the actor answered challenges have the same hash. -/
def HashesDiffer (events : List GateEvent) : Prop :=
  ∀ signed signed', .answered signed ∈ events → .answered signed' ∈ events →
    library.primitives.sha256 (utf8 signed.unsigned.canonicalJson) =
      library.primitives.sha256 (utf8 signed'.unsigned.canonicalJson) →
    utf8 signed.unsigned.canonicalJson = utf8 signed'.unsigned.canonicalJson

/-- The latest challenge was answered, and then the relay accepted the answer; and answers to other challenges have other
ids, so that it was not one of them that the relay accepted. -/
def LatestAccepted (config : RelayConfig) (events : List GateEvent) : Prop :=
  ∃ before challenge between signed after last,
    events = before ++ .challenged challenge :: (between ++ .answered signed :: (after ++ .verdict signed.id true :: last)) ∧
    Unchallenged between ∧ Unchallenged after ∧ Unchallenged last ∧ Answers config challenge signed ∧
    ∀ challenge' signed', .answered signed' ∈ events → Answers config challenge' signed' → challenge' ≠ challenge →
      signed'.id ≠ signed.id

theorem id_ne_of_answers {signed signed' : SignedEvent}
    (hall : AllAnswer library config events) (hhash : HashesDiffer library events) (hmem : .answered signed ∈ events)
    (hmem' : .answered signed' ∈ events) (h : Answers config challenge signed) (h' : Answers config challenge' signed')
    (hne : challenge' ≠ challenge) : signed'.id ≠ signed.id := by
  have hid : ∀ signed, .answered signed ∈ events → signed.id = hexEncode (signed.unsigned.id library.primitives).val := by
    intro signed hmem
    obtain ⟨before, after, heq⟩ := List.append_of_mem hmem
    obtain ⟨_, _, _, _, _, huns, hid⟩ := hall before signed after heq
    rw [hid, huns]
  intro heq
  rw [hid signed hmem, hid signed' hmem'] at heq
  have htags := congrArg UnsignedEvent.tags
    (canonicalJson_injective (utf8_inj (hhash signed' signed hmem' hmem (hexEncode_val_inj heq))))
  obtain ⟨_, _, _, huns⟩ := h
  obtain ⟨_, _, _, huns'⟩ := h'
  rw [huns, huns'] at htags
  apply hne
  simpa [challengeAnswer] using htags

theorem GateOpen.latestAccepted {signer : RelayAuthSigner} (hopen : GateOpen config events)
    (hauth : config.auth = some signer) (hall : AllAnswer library config events) (hhash : HashesDiffer library events) :
    config.authenticationPolicy = .authenticateWhenChallenged ∧ Unchallenged events ∨ LatestAccepted config events := by
  rcases hopen with hnone | ⟨hst, hunchallenged⟩ | ⟨pre, signed, last, rfl, hansd, hlast⟩
  · rw [hauth] at hnone
    cases hnone
  · refine .inl ⟨?_, hunchallenged⟩
    simpa [RelayConfig.startsOpen, hauth] using hst
  · obtain ⟨before, challenge, between, after, rfl, hbetween, ha⟩ := hansd
    have heq : before ++ .challenged challenge :: (between ++ .answered signed :: after) ++ .verdict signed.id true :: last =
        before ++ .challenged challenge :: (between ++ .answered signed :: (after ++ .verdict signed.id true :: last)) := by
      simp
    rw [heq] at hall hhash ⊢
    have hanswers : Answers config challenge signed := by
      obtain ⟨signer', challenge', now, hauth', hlatest, huns, -⟩ :=
        hall (before ++ .challenged challenge :: between) signed (after ++ .verdict signed.id true :: last) (by simp)
      rw [hlatest.unique ⟨before, between, rfl, hbetween⟩] at huns
      exact ⟨signer', now, hauth', huns⟩
    refine .inr ⟨before, challenge, between, signed, after, last, rfl, hbetween, ha, hlast, hanswers, ?_⟩
    intro challenge' signed' hmem' hanswers' hne
    exact id_ne_of_answers hall hhash (by simp) hmem' hanswers hanswers' hne

/-- **The gate of a relay connection.** When an actor with a signer writes an event, a request or a close, whatever commands
and frames came before, then on this connection either the actor does not wait for a challenge and none was received, or the
latest challenge was answered and the relay has accepted that answer, which is not the answer to any other challenge. -/
theorem gated_write {fuel : Nat} {log : RelayLog} {frame : ClientFrame} {text : String}
    {signer : RelayAuthSigner} (hauth : config.auth = some signer)
    (hcalls : (runActor library config fuel {}).Calls log (.write frame text)) (hframe : frame.isGated = true)
    (hhash : HashesDiffer library (gateEvents library config log)) :
    config.authenticationPolicy = .authenticateWhenChallenged ∧ Unchallenged (gateEvents library config log) ∨
      LatestAccepted config (gateEvents library config log) := by
  have hmay := (Method.obeys_iff.1 (obeys_runActor library config fuel)).may hcalls
  have hopen := hmay.gated frame text rfl hframe
  rw [learnAll_events] at hopen
  exact GateOpen.latestAccepted hopen hauth (allAnswer_gateEvents hcalls) hhash

end

/-! ### A challenge that is met -/

/-- The readers of JSON, for the given frames. -/
def frameReader (frames : List Json) : FrameLibrary where
  fromSlice bytes := frames.find? fun json => utf8 json.render == bytes
  eventOf _ := none

variable {json : Json} {frames : List Json} {now : UInt64} {p : Primitives} {frame : ClientFrame}

theorem fromSlice_frameReader (h : json ∈ frames) : (frameReader frames).fromSlice (utf8 json.render) = some json := by
  show frames.find? (fun other => utf8 other.render == utf8 json.render) = some json
  cases hfind : frames.find? (fun other => utf8 other.render == utf8 json.render) with
  | none =>
    have hnone := List.find?_eq_none.1 hfind json h
    simp at hnone
  | some other =>
    have hrender := List.find?_some hfind
    rw [beq_iff_eq] at hrender
    rw [Json.render_inj (utf8_inj hrender)]

theorem fromJson_frameReader {frame : RelayFrame}
    {eventLimits : EventLimits} {frameLimits : FrameLimits} (hmem : json ∈ frames)
    (hsize : json.size ≤ frameLimits.maxFrameBytes)
    (hframe : wireRelayFrame (frameReader frames) json = some frame)
    (hv : frame.validate p now eventLimits frameLimits = .ok ()) :
    RelayFrame.fromJson (frameReader frames) p (utf8 json.render) now eventLimits frameLimits = .ok frame := by
  unfold RelayFrame.fromJson validateFrameSize
  rw [Json.length_utf8_render, if_neg (Nat.not_lt.2 hsize), fromSlice_frameReader hmem, Option.bind_some, hframe]
  exact bind_ok_iff.2 ⟨(), rfl, bind_ok_iff.2 ⟨(), hv, rfl⟩⟩

/-- A relay that the actor authenticates to before it writes. -/
def guardedRelay : RelayConfig :=
  ⟨"wss://relay.example", some ⟨.replicate 32 1, .replicate 32 1⟩, .requireWhenConfigured, 1000, 60000, {}, {}⟩

def metAnswer : SignedEvent :=
  signed (challengeAnswer ⟨.replicate 32 1, .replicate 32 1⟩ "wss://relay.example" "x" 0) (.replicate 32 1)

def challengeJson : Json := .arr [.str "AUTH", .str "x"]

def verdictJson : Json := .arr [.str "OK", .str metAnswer.id, .bool true, .str ""]

def guardedLibrary : RelayLibrary := ⟨unsealed, frameReader [challengeJson, verdictJson], fun _ _ => 0⟩

theorem fromJson_challenge (now : UInt64) :
    RelayFrame.fromJson guardedLibrary.frames guardedLibrary.primitives (utf8 challengeJson.render) now
      guardedRelay.eventLimits guardedRelay.frameLimits = .ok (.authChallenge "x") :=
  fromJson_frameReader (by simp) (by decide) rfl (show validateMessage "x" {} = .ok () by decide)

theorem validateHexId_hexEncode (b : Bytes 32) : validateHexId (hexEncode b.val) = .ok () := by
  have hsize : (hexEncode b.val).utf8ByteSize = 64 := by rw [utf8ByteSize_hexEncode, b.property]
  have hlower : (utf8 (hexEncode b.val)).all isLowerHex = true := by
    rw [List.all_eq_true]
    intro x hx
    obtain ⟨k, hk, hx⟩ := mem_utf8_hexEncode hx
    exact isLowerHex_hexDigit k hk x hx
  unfold validateHexId
  rw [if_pos ⟨hsize, hlower⟩]

theorem fromJson_ok {id : Bytes 32} (hmem : .arr [.str "OK", .str (hexEncode id.val), .bool true, .str ""] ∈ frames) :
    RelayFrame.fromJson (frameReader frames) p
      (utf8 (Json.arr [.str "OK", .str (hexEncode id.val), .bool true, .str ""]).render) now {} {} =
      .ok (.ok (hexEncode id.val) true "") := by
  refine fromJson_frameReader hmem ?_ rfl ?_
  · have hid := Json.escapedSize_hexEncode id
    have hrest : (Json.str "OK").size = 4 ∧ (Json.bool true).size = 4 ∧ (Json.str "").size = 2 := by decide
    rw [Json.size_arr]
    simp [hrest, Json.size_str (hexEncode id.val)]
    omega
  · exact bind_ok_iff.2 ⟨(), validateHexId_hexEncode id, show validateMessage "" {} = .ok () by decide⟩

theorem fromJson_verdict (now : UInt64) :
    RelayFrame.fromJson guardedLibrary.frames guardedLibrary.primitives (utf8 verdictJson.render) now
      guardedRelay.eventLimits guardedRelay.frameLimits = .ok (.ok metAnswer.id true "") :=
  fromJson_ok (List.mem_cons_of_mem _ List.mem_cons_self)

theorem size_challengeAnswer_le {key : Bytes 32} {url : String} :
    (signed (challengeAnswer ⟨key, key⟩ url challenge now) key).json.size ≤
      2000 + (tagsJson [["relay", url], ["challenge", challenge]]).size + Json.escapedSize "" := size_signed_le rfl

theorem size_metAnswer : metAnswer.json.size ≤ 3000 := by
  have hparts : (tagsJson [["relay", "wss://relay.example"], ["challenge", "x"]]).size + Json.escapedSize "" ≤ 1000 := by
    decide
  refine size_challengeAnswer_le.trans ?_
  omega

theorem toJson_of_size (hjson : frame.json {} = .ok json) (hsize : json.size ≤ 524288) : frame.toJson {} = .ok json.render := by
  have hchecked : validateFrameSize json.render.utf8ByteSize {} = .ok () := by
    rw [Json.utf8ByteSize_render]
    exact if_neg (Nat.not_lt.2 hsize)
  exact bind_ok_iff.2 ⟨json, hjson, bind_ok_iff.2 ⟨(), hchecked, rfl⟩⟩

theorem toJson_pair {name : String} (hname : name.utf8ByteSize ≤ 5)
    (hsize : json.size ≤ 3000) (hjson : frame.json {} = .ok (.arr [.str name, json])) :
    frame.toJson {} = .ok (Json.arr [.str name, json]).render := by
  have hesc := Json.escapedSize_le name
  apply toJson_of_size hjson
  rw [Json.size_arr]
  simp [Json.size_str]
  omega

/-- The connection, the challenge, its answer, the verdict, and a publication. -/
def metChallenge : RelayLog :=
  [⟨.health .connecting, ()⟩, ⟨.connect, true⟩, ⟨.health .connected, ()⟩, ⟨.notify .connected, .ok ()⟩,
   ⟨.select, .message (some (.ok (.text challengeJson.render)))⟩, ⟨.unixTimestamp, (0 : UInt64)⟩,
   ⟨.notify (.authChallenge "x"), .ok ()⟩, ⟨.unixTimestamp, (0 : UInt64)⟩, ⟨.random, some (Bytes.replicate 32 0)⟩,
   ⟨.write (.auth metAnswer) (Json.arr [.str "AUTH", metAnswer.json]).render, .ok ()⟩,
   ⟨.select, .message (some (.ok (.text verdictJson.render)))⟩, ⟨.unixTimestamp, (0 : UInt64)⟩,
   ⟨.iterate 0, Equiv.refl (Fin 0)⟩, ⟨.notify (.authenticated metAnswer.pubkey), .ok ()⟩,
   ⟨.select, .command (some (.publish metAnswer 0))⟩]

theorem signs_metAnswer : (do
    (challengeAnswer ⟨.replicate 32 1, .replicate 32 1⟩ guardedRelay.url "x" 0).validate guardedRelay.eventLimits
    (challengeAnswer ⟨.replicate 32 1, .replicate 32 1⟩ guardedRelay.url "x" 0).signWithAux guardedLibrary.primitives
      (.replicate 32 1) (.replicate 32 0) guardedRelay.eventLimits) = .ok metAnswer := by
  have hv : (challengeAnswer ⟨.replicate 32 1, .replicate 32 1⟩ guardedRelay.url "x" 0).validate {} = .ok () := by
    decide +kernel
  exact bind_ok_iff.2 ⟨(), hv, @transparent_signs _ _ _ _ (.replicate 32 0) rfl hv⟩

theorem calls_metChallenge :
    (runActor guardedLibrary guardedRelay 4 {}).Calls metChallenge
      (.write (.event metAnswer) (Json.arr [.str "EVENT", metAnswer.json]).render) := by
  have hcl : guardedRelay.startsOpen = false := rfl
  have hauth : guardedRelay.auth = some ⟨.replicate 32 1, .replicate 32 1⟩ := rfl
  have hans : (ClientFrame.auth metAnswer).toJson guardedRelay.frameLimits =
      .ok (Json.arr [.str "AUTH", metAnswer.json]).render := toJson_pair (by decide) size_metAnswer rfl
  have hev : (ClientFrame.event metAnswer).toJson guardedRelay.frameLimits =
      .ok (Json.arr [.str "EVENT", metAnswer.json]).render := toJson_pair (by decide) size_metAnswer rfl
  rw [Prog.calls_iff_follow]
  simp [metChallenge, runActor, runActorLoop, connect, onConnected, beginSession, session, takeTurn, onMessage,
    handleRelayFrame, onChallenge, signChallenge, sendFrame, notify, call, progress, onOk, onAuthenticationOk,
    replaySubscriptions, inOrder, replayEach, onCommand, onPublish, isAwaited, sendAndReply, Method.bind_apply,
    Method.pure_apply, Method.ite_apply, Method.request, Method.attempt, Method.get, Method.modify, Method.ofExcept,
    Except.mapError, Option.filter, Prog.bind, Prog.follow, Prog.head?, hcl, hauth, fromJson_challenge,
    signs_metAnswer, hans, fromJson_verdict, hev]

theorem gateEvents_metChallenge :
    gateEvents guardedLibrary guardedRelay metChallenge =
      [.challenged "x", .answered metAnswer, .verdict metAnswer.id true] := by
  have hchal : gateEvent guardedLibrary guardedRelay challengeJson.render = some (.challenged "x") := by
    rw [gateEvent, fromJson_challenge]
  have hverdict : gateEvent guardedLibrary guardedRelay verdictJson.render = some (.verdict metAnswer.id true) := by
    rw [gateEvent, fromJson_verdict]
  simp [gateEvents, metChallenge, gateStep, hchal, hverdict]

theorem metChallenge_gated :
    guardedRelay.authenticationPolicy = .requireWhenConfigured ∧
      LatestAccepted guardedRelay (gateEvents guardedLibrary guardedRelay metChallenge) := by
  refine ⟨rfl, (gated_write rfl calls_metChallenge rfl ?_).resolve_left ?_⟩
  · rw [gateEvents_metChallenge]
    intro signed signed' hmem hmem' _
    simp only [List.mem_cons, List.not_mem_nil, reduceCtorEq, GateEvent.answered.injEq, or_false, false_or] at hmem hmem'
    rw [hmem, hmem']
  · rintro ⟨hpolicy, -⟩
    cases hpolicy

end OmaChat.Nostr
