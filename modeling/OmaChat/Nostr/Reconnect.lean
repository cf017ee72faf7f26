import OmaChat.Nostr.RelayWalk
import OmaChat.Nostr.Transparent

/-!
# A relay actor and its network

An actor that nobody stops has to live with its network: whatever becomes of its connections, it connects again.

* `Undisturbed` : the caller keeps the command channel and the notification queue, and sends no shutdown;
* `ReplaysSucceed` : no write fails between a connection and the first turn of its session;
* `never_stops` : while both hold, the actor does not return, and connects within a bounded number of calls after each loss.

`replay_stops` shows that the second is needed: the error of a write that replays a subscription ends the actor.
-/

namespace OmaChat.Nostr
open Wire Effects

variable {fuel : Nat} {log : RelayLog}

/-! ## What happens to an actor -/

/-- The caller neither stops the actor nor leaves it. -/
@[simp] def Undisturbed : Sigma RelayCall.Answer → Prop
  | ⟨.select, .command none⟩ | ⟨.select, .command (some .shutdown)⟩ => False
  | ⟨.wait _, .command none⟩ | ⟨.wait _, .command (some .shutdown)⟩ => False
  | ⟨.notify _, .error _⟩ => False
  | _ => True

/-- A subscription that is taken can be written, if the actor may store it unwritten and replay it when it connects: with a
signer, and unless it waits for the authentication. -/
@[simp] def TakesWritable (config : RelayConfig) : Sigma RelayCall.Answer → Prop
  | ⟨.select, .command (some (.subscribe subscriptionId filters _))⟩ =>
    config.auth = none ∨ config.startsOpen = false ∨ (ClientFrame.request subscriptionId filters).Encodes config
  | _ => True

/-- No write fails between a connection and the first turn of its session. -/
def ReplaysSucceed (log : RelayLog) : Prop :=
  ∀ before between after frame text error,
    log = before ++ ⟨.connect, true⟩ :: (between ++ ⟨.write frame text, .error error⟩ :: after) →
      ∃ next, ⟨.select, next⟩ ∈ between

/-- The calls that tell of a lost connection, or of one that could not be made. -/
@[simp] def IsLoss : Sigma RelayCall.Answer → Prop
  | ⟨.connect, false⟩ | ⟨.health .disconnected, _⟩ | ⟨.write _ _, .error _⟩ | ⟨.ping, .error _⟩ => True
  | ⟨.select, .idle⟩ | ⟨.select, .message none⟩ | ⟨.select, .message (some (.error _))⟩ => True
  | ⟨.select, .message (some (.ok .close))⟩ | ⟨.select, .message (some (.ok .binary))⟩ => True
  | ⟨.select, .message (some (.ok .frame))⟩ => True
  | _ => False

@[simp] def isPublication : Sigma RelayCall.Answer → Bool
  | ⟨.select, .command (some (.publish _ _))⟩ => true
  | _ => false

@[simp] def isFailedWrite : Sigma RelayCall.Answer → Bool
  | ⟨.write _ _, .error _⟩ => true
  | _ => false

/-! ## The view along a log -/

section
variable {library : RelayLibrary} {config : RelayConfig} {g : View}

variable (config) in
structure Learned (g : View) (x : Sigma RelayCall.Answer) (g' : View) : Prop where
  calls : g'.calls = g.calls + 1
  publishes : g'.publishes = g.publishes + if isPublication x then 1 else 0
  fine : g'.fine = true ↔ g.fine = true ∧ Undisturbed x ∧ TakesWritable config x ∧
    (isFailedWrite x = true → g.replaying = false)
  replaying : g'.replaying = true → x = ⟨.connect, true⟩ ∨ g.replaying = true ∧ ∀ next, x ≠ ⟨.select, next⟩
  lost : IsLoss x → ∃ m, g'.lost = some m

theorem learned (x : Sigma RelayCall.Answer) : Learned config g x (g.learn library config x.1 x.2) := by
  obtain ⟨call, r⟩ := x
  cases call with
  | connect => cases r <;> constructor <;> simp [View.learn, View.tick]
  | select =>
    rcases r with (_ | ⟨_, _⟩ | ⟨_, _, _⟩ | ⟨_, _⟩ | _) | (_ | _ | (_ | _ | _ | _ | _ | _)) | _ | _ <;>
      constructor <;> simp [View.learn, View.turn, View.take, View.tick]
  | write frame text => cases frame <;> cases r <;> constructor <;> simp [View.learn, View.tick]
  | ping => cases r <;> constructor <;> simp [View.learn, View.tick]
  | notify notification => cases r <;> constructor <;> simp [View.learn, View.tick]
  | health health => cases health <;> constructor <;> simp [View.learn, View.tick]
  | wait delay => rcases r with _ | _ | _ | _ | _ | _ <;> constructor <;> simp [View.learn, View.tick]
  | _ => constructor <;> simp [View.learn, View.tick]

variable {m : Nat}

theorem lost_of_isCleanup {x : Sigma RelayCall.Answer} (hlost : g.lost = some m) (hcall : x.1.isCleanup = true)
    (hconnect : ∀ answer, x ≠ ⟨.connect, answer⟩) : (g.learn library config x.1 x.2).lost = some (m + 1) := by
  obtain ⟨call, r⟩ := x
  cases call with
  | connect => exact absurd rfl (hconnect r)
  | health health => cases health <;> simp [View.learn, View.tick, hlost]
  | notify notification => cases r <;> simp [View.learn, View.tick, hlost]
  | wait delay => rcases r with _ | _ | _ | _ | _ | _ <;> simp [View.learn, View.tick, hlost]
  | iterate | respond | pending => simp [View.learn, View.tick, hlost]
  | _ => cases hcall

/-! ### Logs -/

variable (library config) in
def viewAfter (log : RelayLog) : View := (relayRules library config 0).learnAll .start log

theorem viewAfter_snoc (log : RelayLog) (x : Sigma RelayCall.Answer) :
    viewAfter library config (log ++ [x]) = (viewAfter library config log).learn library config x.1 x.2 :=
  List.foldl_append

theorem viewAfter_calls : (viewAfter library config log).calls = log.length := by
  induction log using List.reverseRecOn with
  | nil => rfl
  | append_singleton log x ih => rw [viewAfter_snoc, (learned x).calls, ih, List.length_append, List.length_singleton]

variable (library config) in
theorem viewAfter_publishes : (viewAfter library config log).publishes = log.countP isPublication := by
  induction log using List.reverseRecOn with
  | nil => rfl
  | append_singleton log x ih => rw [viewAfter_snoc, (learned x).publishes, ih, List.countP_append, List.countP_singleton]

theorem viewAfter_replaying (h : (viewAfter library config log).replaying = true) :
    ∃ before between, log = before ++ ⟨.connect, true⟩ :: between ∧ ∀ next, ⟨.select, next⟩ ∉ between := by
  induction log using List.reverseRecOn with
  | nil => cases h
  | append_singleton log x ih =>
    rw [viewAfter_snoc] at h
    rcases (learned x).replaying h with rfl | ⟨hb, hsel⟩
    · exact ⟨log, [], rfl, fun next hnext => by cases hnext⟩
    · obtain ⟨before, between, rfl, hbetween⟩ := ih hb
      refine ⟨before, between ++ [x], by simp, fun next hnext => ?_⟩
      rcases List.mem_append.1 hnext with hnext | hnext
      · exact hbetween next hnext
      · exact hsel next (List.mem_singleton.1 hnext).symm

theorem ReplaysSucceed.of_append {log' : RelayLog} (h : ReplaysSucceed (log ++ log')) :
    ReplaysSucceed log := by
  rintro before between after frame text error rfl
  exact h before between (after ++ log') frame text error (by simp)

theorem viewAfter_fine (hcaller : ∀ x ∈ log, Undisturbed x) (hwritable : ∀ x ∈ log, TakesWritable config x)
    (hreplays : ReplaysSucceed log) : (viewAfter library config log).fine = true := by
  induction log using List.reverseRecOn with
  | nil => rfl
  | append_singleton log x ih =>
    rw [List.forall_mem_append] at hcaller hwritable
    rw [viewAfter_snoc, (learned x).fine]
    refine ⟨ih hcaller.1 hwritable.1 hreplays.of_append, hcaller.2 x (by simp), hwritable.2 x (by simp), fun hfailed => ?_⟩
    by_contra hrpl
    obtain ⟨before, between, rfl, hsel⟩ := viewAfter_replaying (by simpa using hrpl)
    obtain ⟨frame, text, error, rfl⟩ : ∃ frame text error, x = ⟨.write frame text, .error error⟩ := by
      unfold isFailedWrite at hfailed
      split at hfailed
      · exact ⟨_, _, _, rfl⟩
      · cases hfailed
    obtain ⟨next, hnext⟩ := hreplays before between [] frame text error (by simp)
    exact hsel next hnext

/-! ## Never stopping -/

theorem learnAll_fine (h : ((relayRules library config fuel).learnAll g log).fine = true) : g.fine = true := by
  induction log generalizing g with
  | nil => exact h
  | cons x log ih => exact ((learned x).fine.1 (ih h)).1

theorem lost_along {α : Type} {p q : Prog RelayCall.Answer α} {Q : View → α → Prop}
    (hp : p.Obeys (relayRules library config fuel) Q g) (ha : p.After log q)
    (hfine : ((relayRules library config fuel).learnAll g log).fine = true) (hlost : g.lost = some m)
    (hconnect : ∀ answer, ⟨.connect, answer⟩ ∉ log) :
    ((relayRules library config fuel).learnAll g log).lost = some (m + log.length) := by
  induction ha generalizing g m with
  | nil p => exact hlost
  | @cons e next r log q _ ih =>
    obtain ⟨hmay, hnext⟩ := hp
    have hcleanup := (hmay.cleans (learnAll_fine hfine) m hlost).1
    have hstep : (g.learn library config e r).lost = some (m + 1) :=
      lost_of_isCleanup (x := ⟨e, r⟩) hlost hcleanup fun answer heq => hconnect answer (heq ▸ List.mem_cons_self)
    have hrest := ih (hnext r) hfine hstep fun answer hmem => hconnect answer (List.mem_cons_of_mem _ hmem)
    rw [List.length_cons, Nat.add_comm log.length, ← Nat.add_assoc]
    exact hrest

/-- **Network failures never stop a relay actor**, as long as no replay fails: at every moment of a run in which the caller
neither stops the actor nor leaves it, and no write fails between a connection and the first turn of its session, the actor
has not returned; and after each lost connection it connects again before it has made more calls than there are publications
to answer, and seven. -/
theorem never_stops {q : Prog RelayCall.Answer (Except RelayError Unit × Actor)}
    (hafter : (runActor library config fuel {}).After log q) (hfuel : log.length < fuel) (hcaller : ∀ x ∈ log, Undisturbed x)
    (hwritable : ∀ x ∈ log, TakesWritable config x) (hreplays : ReplaysSucceed log) :
    (∃ call next, q = .call call next ∧ call ≠ .pending) ∧
      ∀ before loss after, log = before ++ loss :: after → IsLoss loss → (∀ answer, ⟨.connect, answer⟩ ∉ after) →
        after.length ≤ 7 + log.countP isPublication := by
  have hfine : (viewAfter library config log).fine = true := viewAfter_fine hcaller hwritable hreplays
  have hobeys := Method.obeys_iff.1 (obeys_runActor library config fuel)
  have hq : q.Obeys (relayRules library config fuel) (fun g _ => g.fine = false) (viewAfter library config log) :=
    hobeys.after hafter
  cases q with
  | ret outcome =>
    rw [show (viewAfter library config log).fine = false from hq] at hfine
    cases hfine
  | call call next =>
    obtain ⟨hmay, -⟩ := hq
    refine ⟨⟨call, next, rfl, fun hpending => ?_⟩, ?_⟩
    · have hcalls := hmay.goesOn hpending
      rw [viewAfter_calls] at hcalls
      omega
    · rintro before loss after rfl hloss hconnect
      have hsplit : before ++ loss :: after = (before ++ [loss]) ++ after := by simp
      rw [hsplit] at hafter hmay hfine ⊢
      obtain ⟨rest, hbefore, hrest⟩ := hafter.split
      obtain ⟨m, hlost⟩ : ∃ m, (viewAfter library config (before ++ [loss])).lost = some m := by
        rw [viewAfter_snoc]
        exact (learned loss).lost hloss
      have hview : viewAfter library config ((before ++ [loss]) ++ after) =
          (relayRules library config fuel).learnAll (viewAfter library config (before ++ [loss])) after := List.foldl_append
      have halong := lost_along (hobeys.after hbefore) hrest (hview ▸ hfine) hlost hconnect
      rw [← viewAfter_publishes library config]
      have hbound := (hmay.cleans hfine (m + after.length) (hview ▸ halong)).2
      omega

end

/-! ### A replay -/

def openRelay : RelayConfig := ⟨"wss://relay.example", none, .requireWhenConfigured, 1000, 60000, {}, {}⟩

/-- The library of an actor that is sent no frame. -/
def quietLibrary : RelayLibrary := ⟨unsealed, ⟨fun _ => none, fun _ => none⟩, fun _ _ => 0⟩

def requestText : String := (Json.arr [.str "REQ", .str "s", .obj []]).render

section Replay
variable {s : Actor}

def subscribed (failures : UInt32) : Actor :=
  { subscriptions := [("s", [.obj []])], sessionAuthenticated := true, consecutiveFailures := failures }

/-- A connection on which the subscription is taken, and which is then lost. -/
def lostConnection : RelayLog :=
  [⟨.health .connecting, ()⟩, ⟨.connect, true⟩, ⟨.health .connected, ()⟩, ⟨.notify .connected, .ok ()⟩,
   ⟨.iterate 0, Equiv.refl (Fin 0)⟩, ⟨.select, .command (some (.subscribe "s" [.obj []] 0))⟩,
   ⟨.write (.request "s" [.obj []]) requestText, .ok ()⟩, ⟨.respond 0 .done, ()⟩, ⟨.select, .message none⟩,
   ⟨.iterate 0, Equiv.refl (Fin 0)⟩, ⟨.health .disconnected, ()⟩, ⟨.notify .disconnected, .ok ()⟩]

/-- The calls until the next connection replays the subscription. -/
def untilReplay : RelayLog :=
  lostConnection ++
    [⟨.wait (reconnectDelay quietLibrary openRelay 1), .elapsed⟩, ⟨.health .connecting, ()⟩, ⟨.connect, true⟩,
     ⟨.health .connected, ()⟩, ⟨.notify .connected, .ok ()⟩, ⟨.iterate 1, Equiv.refl (Fin 1)⟩]

def replayWritten : RelayLog := untilReplay ++ [⟨.write (.request "s" [.obj []]) requestText, .ok ()⟩]

theorem calls_replayWritten : (runActor quietLibrary openRelay 30 {}).Calls replayWritten .select := by
  decide +kernel

theorem undisturbed_untilReplay : ∀ x ∈ untilReplay, Undisturbed x ∧ TakesWritable openRelay x ∧
    isFailedWrite x = false := by
  simp [untilReplay, lostConnection, openRelay]

theorem replaysSucceed_of_written (h : ∀ x ∈ log, isFailedWrite x = false) : ReplaysSucceed log := by
  rintro before between after frame text error rfl
  have hfailed := h ⟨.write frame text, .error error⟩ (by simp)
  cases hfailed

theorem replayWritten_goes_on :
    ∃ next, (runActor quietLibrary openRelay 30 {}).After replayWritten (.call .select next) ∧
      (∃ call next', Prog.call RelayCall.select next = .call call next' ∧ call ≠ .pending) ∧
      ∀ before loss after, replayWritten = before ++ loss :: after → IsLoss loss →
        (∀ answer, ⟨.connect, answer⟩ ∉ after) → after.length ≤ 7 + replayWritten.countP isPublication := by
  obtain ⟨next, hafter⟩ := calls_replayWritten
  have hall : ∀ x ∈ replayWritten, Undisturbed x ∧ TakesWritable openRelay x ∧ isFailedWrite x = false := by
    unfold replayWritten
    rw [List.forall_mem_append]
    exact ⟨undisturbed_untilReplay, by simp⟩
  exact ⟨next, hafter, never_stops hafter (by decide) (fun x hx => (hall x hx).1) (fun x hx => (hall x hx).2.1)
    (replaysSucceed_of_written fun x hx => (hall x hx).2.2)⟩

def replayFailed : RelayLog :=
  untilReplay ++
    [⟨.write (.request "s" [.obj []]) requestText, .error "Connection reset by peer"⟩, ⟨.health .stopped, ()⟩]

/-- A write that fails while a subscription is replayed ends the actor, though nobody stopped it. -/
theorem replay_stops :
    (∃ s, (runActor quietLibrary openRelay 30 {}).After replayFailed
      (.ret (.error (.webSocket "Connection reset by peer"), s))) ∧
    ∀ x ∈ replayFailed, Undisturbed x ∧ TakesWritable openRelay x := by
  refine ⟨⟨subscribed 1, by decide +kernel⟩, ?_⟩
  unfold replayFailed
  rw [List.forall_mem_append]
  exact ⟨fun x hx => ⟨(undisturbed_untilReplay x hx).1, (undisturbed_untilReplay x hx).2.1⟩, by simp⟩

end Replay

end OmaChat.Nostr
