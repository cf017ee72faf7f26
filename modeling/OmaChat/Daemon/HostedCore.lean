import OmaChat.Daemon.Answers
import OmaChat.Daemon.Config
import OmaChat.Daemon.HostedOutcomes

/-!
# The hosted account in the daemon

`core.rs`: the account that the daemon remembers (`hosted_account`), which the events of the transport install and a claimed
handle updates. The transport, the queue of events, the task that handles them, the commands and the server take their steps
in any order; the server reports the stored handle when it authenticates the daemon.

* `hostedStatus`, `hostedBindingContext` : what the daemon reports of the account, and asks of it for a binding;
* `CoreStep` : one step of all of them; `CoreSound` : what holds in every state;
* `claimed_handle_remembered_iff` : a claimed handle is remembered unless an account without a handle is still on its way from
  the transport to the daemon when the claim comes back.
-/

namespace OmaChat.Daemon
open Wire Proto Oneshot Transition

variable {event : HostedEvent} {frame : Json} {fromStr : String → Option Json} {g : Given} {handle : String}
  {stored : Option String}

/-- `DaemonCore::hosted_status`, from the configuration, the state that the transport shows, if there is one, and the
account. -/
def hostedStatus (config : Option HostedConfig) (state : Option HostedState) (account : Option HostedAccount) : HostedStatus :=
  match config with
  | none => ⟨"disabled", none, none, none, none, none, none⟩
  | some hosted =>
    let shown : String × Option String :=
      match state with
      | none => ("starting", none)
      | some (.disconnected reason) => ("disconnected", some reason)
      | some other => (other.label, none)
    { state := shown.1
      url := some hosted.url
      serverPublicKey := some hosted.pinnedServerPublicKey
      accountId := account.map HostedAccount.accountId
      handle := account.bind HostedAccount.handle
      displayName := account.bind HostedAccount.displayName
      reason := shown.2 }

/-- The errors of `DaemonCore::hosted_binding_context`. -/
inductive BindingError where
  /-- `CoreError::HostedUnavailable` -/
  | hostedUnavailable
  /-- `CoreError::Hosted` -/
  | hosted (error : ServerError)
  /-- `CoreError::InvalidConfig` -/
  | invalidConfig
  deriving DecidableEq

def handleMissing : BindingError := .hosted ⟨.invalidHandle, "claim a handle before binding a nostr key"⟩

def hostedBindingContext (status : HostedStatus) : Except BindingError (String × String × Bytes 32) :=
  if status.state ≠ "connected" then .error .hostedUnavailable
  else
    match status.accountId with
    | none => .error .hostedUnavailable
    | some accountId =>
      match status.handle with
      | none => .error handleMissing
      | some handle =>
        match status.serverPublicKey with
        | none => .error .hostedUnavailable
        | some encoded =>
          match (hexDecode encoded).bind (Bytes.ofList? 32) with
          | some serverPublicKey => .ok (accountId, handle, serverPublicKey)
          | none => .error .invalidConfig

/-- What `DaemonCore::hosted_claim_handle` asks of the server. -/
def claimRequest (handle : String) : HostedRequest := ⟨"claim-handle", .object [("handle", .str handle)]⟩

/-- `DaemonCore::hosted_claim_handle`: what it does to the account when the server has answered. -/
def claimHandle (result : Json) (account : Option HostedAccount) : Option HostedAccount :=
  match textField "handle" result with
  | none => account
  | some claimed => account.map fun account => { account with handle := some claimed }

/-! ## The server -/

/-- What the server answers to a request of the account, and the handle that is stored afterwards. A handle is claimed once;
the answers to other requests only have their id. -/
inductive Serves (handle : Option String) (g : Given) : Json → Option String → Prop where
  | claimed (name : String) : g.request.method = "claim-handle" → handle = none →
      Serves handle g (successReply g.id (.obj [("handle", .str name)])) (some name)
  | refused (error : ServerError) : g.request.method = "claim-handle" → Serves handle g (failureReply g.id error) handle
  | other (frame : Json) : g.request.method ≠ "claim-handle" → textField "id" frame = some g.id →
    Serves handle g frame handle

/-! ## The daemon, its transport and the server -/

/-- Where a `HostedClaimHandle` command is, past its call. -/
inductive ClaimStage where
  | calling
  | updated (result : Json)
  | returned (outcome : Except HostedError Json)

structure HostedCore where
  transport : Hosted
  /-- `hosted_account` -/
  account : Option HostedAccount
  /-- The event that the task which handles them has taken from the queue. -/
  consumer : Option HostedEvent
  active : Bool
  /-- The daemon has a `HostedHandle`. -/
  held : Bool
  claims : CallId → ClaimStage
  /-- The handle that the server has stored. -/
  handle : Option String
  /-- The account that the server has reported on a connection which is not ready yet. -/
  greeting : Option HostedAccount
  /-- The requests on their way to the server. -/
  inbox : List Given
  /-- The answers on their way to the daemon, as it reads them. -/
  wire : List (Given × Json)

variable {s s' : HostedCore}

namespace HostedCore

/-- `DaemonCore::start_hosted_with`, with what the server has stored. -/
def start (handle : Option String) : HostedCore where
  transport := .spawn
  account := none
  consumer := none
  active := true
  held := true
  claims := fun _ => .calling
  handle := handle
  greeting := none
  inbox := []
  wire := []

def setClaim (s : HostedCore) (i : CallId) (stage : ClaimStage) : HostedCore :=
  { s with claims := Function.update s.claims i stage }

theorem claims_setClaim_self (s : HostedCore) (i : CallId) (stage : ClaimStage) : (s.setClaim i stage).claims i = stage :=
  Function.update_self ..

def receiveHostedEvent (s : HostedCore) (event : HostedEvent) : HostedCore :=
  if s.active = false then s
  else
    match event with
    | .state state =>
      match state.account with
      | some account => { s with account := some account }
      | none => s
    | .server _ _ => s

end HostedCore

/-- The labels of steps that neither the server nor the task that handles events takes part in. -/
def HostedLabel.isLocal : HostedLabel → Bool
  | .send _ | .finish _ _ | .stop | .run | .close _ | .connect (.error _) => true
  | _ => false

/-- The labels of steps that `connect` does not wait through. -/
def HostedLabel.ofConnect : HostedLabel → Bool
  | .run | .connect _ => true
  | _ => false

inductive CoreLabel where
  | transport (l : HostedLabel)
  /-- The server authenticates the daemon, and reports an account. -/
  | greet (account : HostedAccount)
  | serve (g : Given) (frame : Json)
  | receive
  | update (i : CallId)
  | finish (i : CallId)
  | retire
  /-- `perform_panic_cleanup` takes the handle of the transport. -/
  | release
  /-- `perform_panic_cleanup` takes the account. -/
  | erase

inductive CoreStep (fromStr : String → Option Json) : HostedCore → CoreLabel → HostedCore → Prop where
  | call {s : HostedCore} {i : CallId} {request : HostedRequest} {t' : Hosted} : s.held = true →
      HostedStep fromStr s.transport (.call i request) t' →
      CoreStep fromStr s (.transport (.call i request)) { s with transport := t' }
  | alone {s : HostedCore} {l : HostedLabel} {t' : Hosted} : l.isLocal = true → HostedStep fromStr s.transport l t' →
      CoreStep fromStr s (.transport l) { s with transport := t', greeting := if l.ofConnect then none else s.greeting }
  | greet {s : HostedCore} {account : HostedAccount} : s.transport.phase = .connecting → account.handle = s.handle →
      CoreStep fromStr s (.greet account) { s with greeting := some account }
  | connect {s : HostedCore} {account : HostedAccount} {t' : Hosted} : s.greeting = some account →
      HostedStep fromStr s.transport (.connect (.ok account)) t' →
      CoreStep fromStr s (.transport (.connect (.ok account))) { s with transport := t', greeting := none }
  | accept {s : HostedCore} {g : Given} {t' : Hosted} : HostedStep fromStr s.transport .accept t' →
      t'.given = s.transport.given ++ [g] →
      CoreStep fromStr s (.transport .accept) { s with transport := t', inbox := s.inbox ++ [g] }
  | serve {s : HostedCore} {g : Given} {before after : List Given} {frame : Json} {handle : Option String} :
      s.inbox = before ++ g :: after → Serves s.handle g frame handle →
      CoreStep fromStr s (.serve g frame)
        { s with handle := handle, inbox := before ++ after, wire := s.wire ++ [(g, frame)] }
  | read {s : HostedCore} {g : Given} {before after : List (Given × Json)} {frame : Json} {text : String} {t' : Hosted} :
      s.wire = before ++ (g, frame) :: after → g.connection = s.transport.connection → fromStr text = some frame →
      HostedStep fromStr s.transport (.frame text) t' →
      CoreStep fromStr s (.transport (.frame text)) { s with transport := t', wire := before ++ after }
  | push {s : HostedCore} {frame : Json} {kind text : String} {t' : Hosted} : textField "event" frame = some kind →
      fromStr text = some frame → HostedStep fromStr s.transport (.frame text) t' →
      CoreStep fromStr s (.transport (.frame text)) { s with transport := t' }
  | take {s : HostedCore} {event : HostedEvent} {t' : Hosted} : s.consumer = none →
      HostedStep fromStr s.transport (.take event) t' →
      CoreStep fromStr s (.transport (.take event)) { s with transport := t', consumer := some event }
  | receive {s : HostedCore} {event : HostedEvent} : s.consumer = some event →
      CoreStep fromStr s .receive { s.receiveHostedEvent event with consumer := none }
  | update {s : HostedCore} {i : CallId} {handle : String} {result : Json} :
      s.transport.calls i = some ⟨claimRequest handle, .finished (.ok result)⟩ → s.claims i = .calling →
      CoreStep fromStr s (.update i) { s.setClaim i (.updated result) with account := claimHandle result s.account }
  | fail {s : HostedCore} {i : CallId} {handle : String} {error : HostedError} :
      s.transport.calls i = some ⟨claimRequest handle, .finished (.error error)⟩ →
      CoreStep fromStr s (.finish i) (s.setClaim i (.returned (.error error)))
  | finish {s : HostedCore} {i : CallId} {result : Json} : s.claims i = .updated result →
      CoreStep fromStr s (.finish i) (s.setClaim i (.returned (.ok result)))
  | retire (s : HostedCore) : CoreStep fromStr s .retire { s with active := false }
  | release {s : HostedCore} : s.active = false → CoreStep fromStr s .release { s with held := false }
  | erase {s : HostedCore} : s.active = false → CoreStep fromStr s .erase { s with account := none }

/-! ## Accounts on their way -/

def HostedEvent.account : HostedEvent → Option HostedAccount
  | .state published => published.account
  | .server _ _ => none

theorem HostedCore.receiveHostedEvent_eq (s : HostedCore) (event : HostedEvent) :
    s.receiveHostedEvent event = { s with account := if s.active = true then event.account.or s.account else s.account } := by
  obtain ⟨transport, account, consumer, active, held, claims, handle, greeting, inbox, wire⟩ := s
  cases active with
  | false => rfl
  | true =>
    cases event with
    | state published => cases published <;> rfl
    | server => rfl

def HostedPhase.account : HostedPhase → Option HostedAccount
  | .publishing state | .queueing state => state.account
  | _ => none

namespace HostedCore

/-- An account on its way through the transport. -/
def Carries (s : HostedCore) (account : HostedAccount) : Prop :=
  s.greeting = some account ∨ s.transport.phase.account = some account

/-- An account on its way from the transport to the daemon. -/
def Queues (s : HostedCore) (account : HostedAccount) : Prop :=
  ∃ event, (event ∈ s.transport.events ∨ s.consumer = some event) ∧ event.account = some account

/-- An account without a handle will still be installed. -/
def Stale (s : HostedCore) : Prop := s.active = true ∧ ∃ account, s.Queues account ∧ account.handle = none

end HostedCore

def Hosted.Claimed (t : Hosted) (handle : String) : Prop :=
  ∃ r ∈ t.receipts, ∃ g ∈ t.given, g.call = r.call ∧ g.request.method = "claim-handle" ∧
    ∃ result, responseOutcome r.frame = .ok result ∧ textField "handle" result = some handle

section Transport
variable {t t' : Hosted} {l : HostedLabel}

theorem Hosted.account_endSession (t : Hosted) (reason : String) : (t.endSession reason).phase.account = none := by
  unfold Hosted.endSession
  dsimp only
  split <;> rfl

theorem Hosted.account_goOn (t : Hosted) (state : HostedState) : (t.goOn state).phase.account = none := by
  cases state <;> rfl

theorem Hosted.account_readFrame (hp : t.phase = .session) (frame : Json) : (t.readFrame frame).phase.account = none := by
  unfold Hosted.readFrame
  split
  · rfl
  split
  · exact t.account_endSession _
  split
  · rw [hp]
    rfl
  · exact congrArg HostedPhase.account hp

section
variable (h : HostedStep fromStr t l t')
include h

theorem HostedStep.phase_account {account : HostedAccount}
    (ha : t'.phase.account = some account) : t.phase.account = some account ∨ l = .connect (.ok account) := by
  have hnone {t₁ : Hosted} (h : t₁.phase.account = none) (ha : t₁.phase.account = some account) : False := by
    rw [h] at ha
    cases ha
  cases h with
  | watch hp => exact .inl (hp ▸ ha)
  | queue => exact (hnone (Hosted.account_goOn _ _) ha).elim
  | connect account' hp =>
    cases ha
    exact .inr rfl
  | acceptFails | malformed | close => exact (hnone (Hosted.account_endSession _ _) ha).elim
  | frame hp => exact (hnone (Hosted.account_readFrame hp _) ha).elim
  | top =>
    dsimp only at ha
    split at ha <;> cases ha
  | connectFails =>
    dsimp only at ha
    split at ha <;> cases ha
  | interrupt | wake | quit | forward | ended => cases ha
  | _ => exact .inl ha

theorem HostedStep.event_account (he : event ∈ t'.events) :
    event ∈ t.events ∨ event.account = none ∨ event.account = t.phase.account := by
  have hnew {events : List HostedEvent} {event' : HostedEvent} (he : event ∈ events ++ [event']) :
      event ∈ events ∨ event = event' := (List.mem_append.1 he).imp_right List.mem_singleton.1
  cases h with
  | @queue state hp _ =>
    rw [(Hosted.same_goOn _ _).2.2.1] at he
    rcases hnew he with he | rfl
    · exact .inl he
    · exact .inr (.inr (by rw [hp]; rfl))
  | forward =>
    rcases hnew he with he | rfl
    · exact .inl he
    · exact .inr (.inl rfl)
  | take hr => exact .inl (hr ▸ List.mem_cons_of_mem _ he)
  | frame =>
    rw [(Hosted.same_readFrame _ _).2.2.1] at he
    exact .inl he
  | _ => exact .inl he

theorem HostedStep.given_cases : t'.given = t.given ∨ (l = .accept ∧ ∃ g, t'.given = t.given ++ [g]) := by
  cases h with
  | accept => exact .inr ⟨rfl, _, rfl⟩
  | queue => exact .inl (Hosted.same_goOn _ _).2.2.2
  | frame => exact .inl (Hosted.same_readFrame _ _).2.2.2
  | _ => exact .inl rfl

theorem HostedStep.given_subset (hg : g ∈ t.given) : g ∈ t'.given := by
  rcases h.given_cases with hsame | ⟨-, g', hnew⟩
  · rw [hsame]
    exact hg
  · rw [hnew]
    exact List.mem_append_left _ hg

theorem HostedStep.connecting_stays (hp : t.phase = .connecting) (hl : l.ofConnect = false) : t'.phase = .connecting := by
  have hne {phase : HostedPhase} (h : t.phase = phase) (hph : phase ≠ .connecting) : False := hph (h.symm.trans hp)
  cases h with
  | call | send | refuse | receive | dropped | timeout | stop | take => exact hp
  | accept h | frame h | malformed h | close _ h => exact (hne h nofun).elim
  | _ =>
    cases hl

/-- What a step can add to the claims that were read: the answer to a claim, on the connection of its request. -/
theorem HostedStep.claimed_cases (ht : t.Sound) (hclaimed : t'.Claimed handle) :
    t.Claimed handle ∨ t.phase = .session ∧ ∃ text frame, l = .frame text ∧ fromStr text = some frame ∧
      textField "event" frame = none ∧
      ∃ g ∈ t.given, g.connection = t.connection ∧ textField "id" frame = some g.id ∧
        g.request.method = "claim-handle" ∧
        ∃ result, responseOutcome frame = .ok result ∧ textField "handle" result = some handle := by
  obtain ⟨r, hr, g, hg, hcall, hmeth, hres⟩ := hclaimed
  have ht' := h.sound ht
  rcases h.receipt hr with hold | ⟨text, rfl, hp, htext, hev, hconn, hgiven⟩
  · -- the call of an older receipt had its id before
    obtain ⟨-, g', hg', -, -, hcall'⟩ := ht.book.receipts r hold
    have heq : g = g' := ht'.book.distinct g hg g' (h.given_subset hg') (.inr (hcall.trans hcall'.symm))
    exact .inl ⟨r, hold, g', hg', hcall', heq ▸ hmeth, hres⟩
  · obtain ⟨hid, g', hg', hconn', hid', hcall'⟩ := ht'.book.receipts r hr
    have heq : g = g' := ht'.book.distinct g hg g' hg' (.inr (hcall.trans hcall'.symm))
    subst heq
    exact .inr ⟨hp, text, r.frame, rfl, htext, hev, g, hgiven ▸ hg, hconn'.trans hconn, hid' ▸ hid, hmeth, hres⟩

end

end Transport

/-! ## What a step can do -/

section
variable {l : CoreLabel} {account : HostedAccount}

section
variable (h : CoreStep fromStr s l s')
include h

theorem CoreStep.transport_cases :
    s'.transport = s.transport ∨ ∃ l', l = .transport l' ∧ HostedStep fromStr s.transport l' s'.transport := by
  cases h with
  | call _ hl | alone _ hl | connect _ hl | accept hl | read _ _ _ hl | push _ _ hl | take _ hl => exact .inr ⟨_, rfl, hl⟩
  | receive =>
    rw [HostedCore.receiveHostedEvent_eq]
    exact .inl rfl
  | _ => exact .inl rfl

theorem CoreStep.carries (ha : s'.Carries account) : s.Carries account ∨ account.handle = s.handle := by
  -- a step of the transport that does not connect
  have hkeeps {l : HostedLabel} {t' : Hosted} (hl : HostedStep fromStr s.transport l t')
      (hconnect : ∀ account, l ≠ .connect (.ok account))
      (ha : s.greeting = some account ∨ t'.phase.account = some account) :
      s.Carries account ∨ account.handle = s.handle :=
    .inl (ha.imp_right fun h => (hl.phase_account h).resolve_right (hconnect account))
  cases h with
  | call _ hl | accept hl | read _ _ _ hl | push _ _ hl | take _ hl => exact hkeeps hl nofun ha
  | @alone l _ hloc hl =>
    refine hkeeps hl ?_ (ha.imp_left fun h => ?_)
    · rintro account rfl
      cases hloc
    · have hgreeting : (if l.ofConnect then none else s.greeting) = some account := h
      split at hgreeting
      · cases hgreeting
      · exact hgreeting
  | greet _ hhdl =>
    rcases ha with ha | ha
    · cases ha
      exact .inr hhdl
    · exact .inl (.inr ha)
  | connect hgreeting hl =>
    rcases ha with ha | ha
    · cases ha
    · rcases hl.phase_account ha with ha | ha
      · exact .inl (.inr ha)
      · cases ha
        exact .inl (.inl hgreeting)
  | receive =>
    rw [HostedCore.receiveHostedEvent_eq] at ha
    exact .inl ha
  | _ => exact .inl ha

theorem CoreStep.queues (ha : s'.Queues account) : s.Carries account ∨ s.Queues account := by
  obtain ⟨event, hev, hacct⟩ := ha
  have hqs (h : event ∈ s.transport.events ∨ s.consumer = some event) : s.Carries account ∨ s.Queues account :=
    .inr ⟨event, h, hacct⟩
  have hmoves {l : HostedLabel} {t' : Hosted} (hl : HostedStep fromStr s.transport l t') (hmem : event ∈ t'.events) :
      s.Carries account ∨ s.Queues account := by
    rcases hl.event_account hmem with h | h | h
    · exact hqs (.inl h)
    · cases h.symm.trans hacct
    · exact .inl (.inr (h.symm.trans hacct))
  cases h with
  | call _ hl | alone _ hl | connect _ hl | accept hl | read _ _ _ hl | push _ _ hl =>
    exact hev.elim (hmoves hl) fun h => hqs (.inr h)
  | take _ hl =>
    rcases hev with hmem | hmem
    · exact hmoves hl hmem
    · cases hmem
      cases hl with
      | take hevs => exact hqs (.inl (hevs ▸ List.mem_cons_self))
  | receive =>
    rw [HostedCore.receiveHostedEvent_eq] at hev
    rcases hev with hmem | hmem
    · exact hqs (.inl hmem)
    · cases hmem
  | _ => exact hqs hev

theorem CoreStep.handle_cases : s'.handle = s.handle ∨ s.handle = none := by
  cases h with
  | serve _ hserves =>
    cases hserves with
    | claimed _ _ hnone => exact .inr hnone
    | refused | other => exact .inl rfl
  | receive =>
    rw [HostedCore.receiveHostedEvent_eq]
    exact .inl rfl
  | _ =>
    exact .inl rfl

theorem CoreStep.inbox_cases (hg : g ∈ s'.inbox) : g ∈ s.inbox ∨ g ∈ s'.transport.given := by
  cases h with
  | accept _ hgiven =>
    rcases List.mem_append.1 hg with hg | hg
    · exact .inl hg
    · rw [List.mem_singleton.1 hg, hgiven]
      exact .inr (List.mem_append_right _ (List.mem_singleton_self _))
  | serve hin _ =>
    rw [hin]
    exact .inl (List.mem_append.2 ((List.mem_append.1 hg).imp_right (List.mem_cons_of_mem _)))
  | receive =>
    rw [HostedCore.receiveHostedEvent_eq] at hg
    exact .inl hg
  | _ => exact .inl hg

theorem CoreStep.wire_cases {x : Given × Json} (hx : x ∈ s'.wire) :
    x ∈ s.wire ∨ (x.1 ∈ s.inbox ∧ Serves s.handle x.1 x.2 s'.handle) := by
  cases h with
  | serve hin hserves =>
    rcases List.mem_append.1 hx with hx | hx
    · exact .inl hx
    · rw [List.mem_singleton.1 hx, hin]
      exact .inr ⟨List.mem_append_right _ List.mem_cons_self, hserves⟩
  | read hwire =>
    rw [hwire]
    exact .inl (List.mem_append.2 ((List.mem_append.1 hx).imp_right (List.mem_cons_of_mem _)))
  | receive =>
    rw [HostedCore.receiveHostedEvent_eq] at hx
    exact .inl hx
  | _ => exact .inl hx

end

theorem CoreStep.read_wire {text : String} (h : CoreStep fromStr s (.transport (.frame text)) s')
    (htext : fromStr text = some frame) (hev : textField "event" frame = none) :
    ∃ g, (g, frame) ∈ s.wire ∧ g.connection = s.transport.connection := by
  cases h with
  | alone hloc => cases hloc
  | @read g _ _ _ _ _ hwire hconn htext' =>
    cases htext.symm.trans htext'
    exact ⟨g, hwire ▸ List.mem_append_right _ List.mem_cons_self, hconn⟩
  | push hkind htext' =>
    cases htext.symm.trans htext'
    cases hev.symm.trans hkind

theorem CoreStep.greeting_phase (h : CoreStep fromStr s l s') (hs : s.greeting ≠ none → s.transport.phase = .connecting)
    (hne : s'.greeting ≠ none) : s'.transport.phase = .connecting := by
  cases h with
  | call _ hl | accept hl | read _ _ _ hl | push _ _ hl | take _ hl => exact hl.connecting_stays (hs hne) rfl
  | @alone l _ _ hl =>
    have hgreeting : (if l.ofConnect then none else s.greeting) ≠ none := hne
    cases hwaits : l.ofConnect with
    | true =>
      rw [hwaits] at hgreeting
      exact absurd rfl hgreeting
    | false =>
      rw [hwaits] at hgreeting
      exact hl.connecting_stays (hs hgreeting) hwaits
  | connect => exact absurd rfl hne
  | greet hp => exact hp
  | receive =>
    rw [HostedCore.receiveHostedEvent_eq] at hne ⊢
    exact hs hne
  | _ => exact hs hne

end

/-! ## What holds in every state -/

/-- What holds in every state of the daemon, the transport and the server. -/
structure CoreSound (s : HostedCore) : Prop where
  transport : s.transport.Sound
  /-- The server gets requests with the ids that were given to them. -/
  inbox : ∀ g ∈ s.inbox, g ∈ s.transport.given
  /-- An answer has the id of its request, and tells the stored handle if it is to a claim. -/
  wire : ∀ x ∈ s.wire, x.1 ∈ s.transport.given ∧ textField "id" x.2 = some x.1.id ∧
    (x.1.request.method = "claim-handle" → ∀ result handle, responseOutcome x.2 = .ok result →
      textField "handle" result = some handle → s.handle = some handle)
  greeting : s.greeting ≠ none → s.transport.phase = .connecting
  /-- The accounts that are reported have no handle, or the stored one. -/
  reported : ∀ account, s.Carries account ∨ s.Queues account → account.handle = none ∨ account.handle = s.handle
  /-- Once a claim is answered, its handle is stored, and the accounts that are reported from then on have it. -/
  claimed : ∀ handle, s.transport.Claimed handle → s.handle = some handle ∧ ∀ account, s.Carries account →
    account.handle = some handle

theorem coreSound_start (handle : Option String) : CoreSound (.start handle) where
  transport := Hosted.sound_spawn
  inbox := nofun
  wire := nofun
  greeting := nofun
  reported := by
    rintro account ((h | h) | ⟨event, h | h, -⟩)
    · cases h
    · cases h
    · cases h
    · cases h
  claimed := by
    rintro handle ⟨r, hr, -⟩
    cases hr

theorem Serves.tells {stored' : Option String} (h : Serves stored g frame stored') :
    textField "id" frame = some g.id ∧
      (g.request.method = "claim-handle" → ∀ result handle, responseOutcome frame = .ok result →
      textField "handle" result = some handle → stored' = some handle) := by
  cases h with
  | claimed name hmeth hnone =>
    rw [successReply_fields]
    refine ⟨rfl, fun _ result handle hres hhdl => ?_⟩
    cases hres
    cases hhdl
    rfl
  | refused error hmeth =>
    have hok : (failureReply g.id error).field "ok" = some (.bool false) := by rw [failureReply_fields]; rfl
    refine ⟨by rw [failureReply_fields]; rfl, fun _ result handle hres _ => ?_⟩
    unfold responseOutcome at hres
    rw [hok] at hres
    dsimp only at hres
    split at hres <;> cases hres
  | other frame hmeth hid => exact ⟨hid, fun h => absurd h hmeth⟩

section Sound
variable {l : CoreLabel}

theorem CoreStep.given_subset (h : CoreStep fromStr s l s') (hg : g ∈ s.transport.given) : g ∈ s'.transport.given := by
  rcases h.transport_cases with hsame | ⟨l', -, hl⟩
  · rw [hsame]
    exact hg
  · exact hl.given_subset hg

/-- **Every step keeps the daemon, the transport and the server sound.** -/
theorem CoreStep.sound (h : CoreStep fromStr s l s') (hs : CoreSound s) : CoreSound s' where
  transport := by
    rcases h.transport_cases with hsame | ⟨l', -, hl⟩
    · rw [hsame]
      exact hs.transport
    · exact hl.sound hs.transport
  inbox g hg := (h.inbox_cases hg).elim (fun hg => h.given_subset (hs.inbox g hg)) id
  wire x hx := by
    rcases h.wire_cases hx with hx | ⟨hin, hserves⟩
    · obtain ⟨hgiven, hid, htells⟩ := hs.wire x hx
      refine ⟨h.given_subset hgiven, hid, fun hmeth result handle hres hhdl => ?_⟩
      have hsto := htells hmeth result handle hres hhdl
      rcases h.handle_cases with hsame | hnone
      · rw [hsame, hsto]
      · cases hnone.symm.trans hsto
    · exact ⟨h.given_subset (hs.inbox _ hin), hserves.tells⟩
  greeting := h.greeting_phase hs.greeting
  reported account hacct := by
    have hold : account.handle = none ∨ account.handle = s.handle := by
      rcases hacct with ha | ha
      · exact (h.carries ha).elim (fun ha => hs.reported account (.inl ha)) .inr
      · exact hs.reported account (h.queues ha)
    rcases h.handle_cases with hsame | hnone
    · rw [hsame]
      exact hold
    · exact .inl (hold.elim id fun heq => heq.trans hnone)
  claimed handle hclaimed := by
    -- a claim that was read before, or is read now
    have hcases : s.handle = some handle ∧ ∀ account, s.Carries account → account.handle = some handle := by
      rcases h.transport_cases with hsame | ⟨l', rfl, hl⟩
      · exact hs.claimed handle (hsame ▸ hclaimed)
      rcases hl.claimed_cases hs.transport hclaimed with
        hold | ⟨hp, text, frame, rfl, htext, hev, g, hg, hconn, hid, hmeth, result, hres, hhdl⟩
      · exact hs.claimed handle hold
      -- the frame answers the request with its id, which is the claim
      obtain ⟨g', hmem, hconn'⟩ := h.read_wire htext hev
      obtain ⟨hg', hid', htells⟩ := hs.wire _ hmem
      have hsame : g' = g := by
        refine hs.transport.book.distinct g' hg' g hg (.inl ⟨hconn'.trans hconn.symm, ?_⟩)
        exact Option.some.inj (hid'.symm.trans hid)
      subst hsame
      refine ⟨htells hmeth result handle hres hhdl, fun account hacct => ?_⟩
      rcases hacct with ha | ha
      · cases hp.symm.trans (hs.greeting (ha ▸ nofun))
      · rw [hp] at ha
        cases ha
    obtain ⟨hsto, htold⟩ := hcases
    refine ⟨?_, fun account ha => ?_⟩
    · rcases h.handle_cases with hsame | hnone
      · rw [hsame, hsto]
      · cases hnone.symm.trans hsto
    · exact (h.carries ha).elim (htold account) fun heq => heq.trans hsto

variable {account : HostedAccount} {result : Json} {ls : List CoreLabel} {i : CallId}

theorem run_coreSound (h : Run (CoreStep fromStr) (.start stored) ls s) : CoreSound s :=
  h.invariant (fun _ _ _ hl hs => hl.sound hs) (coreSound_start stored)

theorem CoreSound.claimed_of_finished (hs : CoreSound s) {asked : String}
    (hcall : s.transport.calls i = some ⟨claimRequest asked, .finished (.ok result)⟩)
    (hhdl : textField "handle" result = some handle) : s.transport.Claimed handle := by
  have hbook := hs.transport.book
  rcases hbook.finished i _ _ hcall with htimeout | hexplains
  · cases htimeout
  · generalize hout : (Except.ok result : Except HostedError Json) = outcome at hexplains
    cases hexplains with
    | lost => cases hout
    | @frame r hr hri =>
      obtain ⟨-, g, hg, -, -, hgcall⟩ := hbook.receipts r hr
      obtain ⟨-, stage, hstage, -⟩ := hbook.given g hg
      have hreq : g.request = claimRequest asked := by
        rw [hgcall, hri] at hstage
        exact (HostedCall.mk.inj (Option.some.inj (hstage.symm.trans hcall))).1
      exact ⟨r, hr, g, hg, hgcall, by rw [hreq]; rfl, result, hout.symm, hhdl⟩

/-! ## Claimed handles -/

/-- The daemon has the handle, and no event will take it away. -/
structure HostedCore.Remembers (s : HostedCore) (handle : String) : Prop where
  stored : s.handle = some handle
  account : ∀ account, s.account = some account → account.handle = some handle
  fresh : s.active = true → ∀ account, s.Carries account ∨ s.Queues account → account.handle = some handle

theorem claimHandle_eq_some {before : Option HostedAccount} (h : claimHandle result before = some account) :
    before = some account ∨ ∃ handle, textField "handle" result = some handle ∧ account.handle = some handle := by
  unfold claimHandle at h
  split at h
  · exact .inl h
  · rename_i handle hhdl
    obtain ⟨account', -, rfl⟩ := Option.map_eq_some_iff.1 h
    exact .inr ⟨handle, hhdl, rfl⟩

theorem CoreStep.account_cases (h : CoreStep fromStr s l s') (hs : CoreSound s) (ha : s'.account = some account) :
    s.account = some account ∨ (s.active = true ∧ s.Queues account) ∨
      ∃ handle, s.transport.Claimed handle ∧ account.handle = some handle := by
  cases h with
  | @receive event hev =>
    rw [HostedCore.receiveHostedEvent_eq] at ha
    have hinstalled : (if s.active = true then event.account.or s.account else s.account) = some account := ha
    split at hinstalled
    · rename_i hact
      rcases Option.or_eq_some_iff.1 hinstalled with h | ⟨-, h⟩
      · exact .inr (.inl ⟨hact, event, .inr hev, h⟩)
      · exact .inl h
    · exact .inl hinstalled
  | update hcall _ =>
    rcases claimHandle_eq_some ha with h | ⟨handle, hhdl, h⟩
    · exact .inl h
    · exact .inr (.inr ⟨handle, hs.claimed_of_finished hcall hhdl, h⟩)
  | erase => cases ha
  | _ => exact .inl ha

theorem CoreStep.active_of (h : CoreStep fromStr s l s') (ha : s'.active = true) : s.active = true := by
  cases h with
  | receive =>
    rw [HostedCore.receiveHostedEvent_eq] at ha
    exact ha
  | retire => cases ha
  | _ => exact ha

/-- **A handle that is remembered stays.** -/
theorem CoreStep.remembers (h : CoreStep fromStr s l s') (hs : CoreSound s) (hr : s.Remembers handle) :
    s'.Remembers handle where
  stored := by
    rcases h.handle_cases with hsame | hnone
    · rw [hsame, hr.stored]
    · cases hnone.symm.trans hr.stored
  account account ha := by
    rcases h.account_cases hs ha with ha | ⟨hact, ha⟩ | ⟨handle', hclaimed, ha⟩
    · exact hr.account account ha
    · exact hr.fresh hact account (.inr ha)
    · rw [ha, ← (hs.claimed handle' hclaimed).1, hr.stored]
  fresh hact account ha := by
    have hwas := h.active_of hact
    rcases ha with ha | ha
    · exact (h.carries ha).elim (fun ha => hr.fresh hwas account (.inl ha)) fun heq => heq.trans hr.stored
    · exact hr.fresh hwas account (h.queues ha)

theorem run_remembers (h : Run (CoreStep fromStr) s ls s') (hs : CoreSound s) (hr : s.Remembers handle) : s'.Remembers handle :=
  (h.invariant (I := fun s => CoreSound s ∧ s.Remembers handle) (fun _ _ _ hl h => ⟨hl.sound h.1, hl.remembers h.1 h.2⟩)
    ⟨hs, hr⟩).2

theorem remembers_of_update (h : CoreStep fromStr s (.update i) s')
    (hs : CoreSound s) (hres : s'.claims i = .updated result) (hhdl : textField "handle" result = some handle)
    (hfresh : ¬ s.Stale) : s'.Remembers handle := by
  cases h with
  | @update _ _ result' hcall _ =>
    have hsame : result' = result := by
      exact ClaimStage.updated.inj ((s.claims_setClaim_self i _).symm.trans hres)
    subst hsame
    obtain ⟨hsto, htold⟩ := hs.claimed handle (hs.claimed_of_finished hcall hhdl)
    refine ⟨hsto, fun account ha => ?_, fun hact account ha => ?_⟩
    · unfold claimHandle at ha
      rw [hhdl] at ha
      obtain ⟨account', -, rfl⟩ := Option.map_eq_some_iff.1 ha
      rfl
    · rcases ha with ha | ha
      · exact htold account ha
      · rcases hs.reported account (.inr ha) with hnone | heq
        · exact absurd ⟨hact, account, ha, hnone⟩ hfresh
        · exact heq.trans hsto

theorem step_receive (hev : s.consumer = some event) (hact : s.active = true) :
    CoreStep fromStr s .receive { s with account := event.account.or s.account, consumer := none } := by
  have hrecv : CoreStep fromStr s .receive _ := .receive hev
  rw [HostedCore.receiveHostedEvent_eq, if_pos hact] at hrecv
  exact hrecv

theorem run_events (hacct : event.account = some account) {events : List HostedEvent} (hev : event ∈ events) :
    ∀ {s : HostedCore}, s.transport.events = events → s.consumer = none → s.active = true →
      ∃ ls u, Run (CoreStep fromStr) s ls u ∧ u.account = some account ∧ u.claims = s.claims ∧
        u.transport.state = s.transport.state := by
  induction events with
  | nil => cases hev
  | cons first rest ih =>
    intro s hevs hconsumer hact
    let t' : Hosted := { s.transport with events := rest }
    let taken : HostedCore := { s with transport := t', consumer := some first }
    have htake : CoreStep fromStr s (.transport (.take first)) taken := .take hconsumer (.take hevs)
    have hrun := Run.cons htake (.cons (step_receive (s := taken) rfl hact) (.nil _))
    rcases List.mem_cons.1 hev with rfl | hrest
    · refine ⟨_, _, hrun, ?_, rfl, rfl⟩
      show event.account.or s.account = some account
      rw [hacct, Option.some_or]
    · obtain ⟨ls, u, hl, hlast⟩ := ih hrest (s := { taken with account := first.account.or taken.account, consumer := none })
        rfl rfl hact
      exact ⟨_, u, hrun.append hl, hlast⟩

theorem run_installs (hact : s.active = true) (hqs : s.Queues account) :
    ∃ ls u, Run (CoreStep fromStr) s ls u ∧ u.account = some account ∧ u.claims = s.claims ∧
      u.transport.state = s.transport.state := by
  obtain ⟨event, hev, hacct⟩ := hqs
  cases hconsumer : s.consumer with
  | none => exact run_events hacct (hev.resolve_right (by rw [hconsumer]; nofun)) rfl hconsumer hact
  | some first =>
    have hrecv : CoreStep fromStr s .receive _ := step_receive hconsumer hact
    rcases hev with hmem | heq
    · obtain ⟨ls, u, hl, hlast⟩ := run_events hacct hmem
        (s := { s with account := first.account.or s.account, consumer := none }) rfl rfl hact
      exact ⟨_, u, .cons hrecv hl, hlast⟩
    · cases hconsumer.symm.trans heq
      exact ⟨_, _, .cons hrecv (.nil _), by rw [hacct, Option.some_or], rfl, rfl⟩

end Sound

theorem hostedBindingContext_missing {status : HostedStatus} (h : hostedBindingContext status = .error handleMissing) :
    status.accountId ≠ none ∧ status.handle = none := by
  unfold hostedBindingContext at h
  split at h
  · cases h
  split at h
  · cases h
  rename_i accountId hacct
  split at h
  · rename_i hnone
    exact ⟨hacct ▸ nofun, hnone⟩
  split at h
  · cases h
  split at h <;> cases h

/-- **When a claimed handle is remembered.** A claim has come back with a handle, and updates the account. Then, in every later
state, the status has that handle whenever it has an account, and a binding is not refused for a missing one, exactly if no
account without a handle is still in the queue of events of the active daemon at that moment. -/
theorem claimed_handle_remembered_iff {fromStr : String → Option Json} (config : HostedConfig) {stored : Option String}
    {ls : List CoreLabel} {s s' : HostedCore} {i : CallId} {result : Json} {handle : String}
    (hrun : Run (CoreStep fromStr) (.start stored) ls s) (hstep : CoreStep fromStr s (.update i) s')
    (hresult : s'.claims i = .updated result) (hhandle : textField "handle" result = some handle) :
    (∀ ls' u, Run (CoreStep fromStr) s' ls' u → u.claims i = .returned (.ok result) → ∀ state,
      ((hostedStatus (some config) state u.account).accountId ≠ none →
        (hostedStatus (some config) state u.account).handle = some handle) ∧
      hostedBindingContext (hostedStatus (some config) state u.account) ≠ .error handleMissing) ↔ ¬ s.Stale := by
  have hs := run_coreSound hrun
  constructor
  · rintro hremembered ⟨hactive, account, hqueues, hnone⟩
    have hstale : s'.active = true ∧ s'.Queues account := by
      cases hstep with
      | update => exact ⟨hactive, hqueues⟩
    -- the claim returns, and then the account is installed
    let returned := s'.setClaim i (.returned (.ok result))
    have hfinish : CoreStep fromStr s' (.finish i) returned := .finish hresult
    obtain ⟨ls', u, hrun', haccount, hclaims, -⟩ := run_installs (s := returned) hstale.1 hstale.2
    have hreturned : u.claims i = .returned (.ok result) := by
      rw [hclaims]
      exact s'.claims_setClaim_self i _
    obtain ⟨hreports, -⟩ := hremembered _ u (.cons hfinish hrun') hreturned none
    rw [haccount] at hreports
    have hlost := hreports nofun
    rw [show (hostedStatus (some config) none (some account)).handle = account.handle from rfl, hnone] at hlost
    cases hlost
  · intro hfresh ls' u hrun' _ state
    have hr := run_remembers hrun' (hstep.sound hs) (remembers_of_update hstep hs hresult hhandle hfresh)
    have hreports : (hostedStatus (some config) state u.account).accountId ≠ none →
        (hostedStatus (some config) state u.account).handle = some handle := by
      intro hid
      cases haccount : u.account with
      | none =>
        rw [haccount] at hid
        exact absurd rfl hid
      | some account => exact hr.account account haccount
    refine ⟨hreports, fun hmissing => ?_⟩
    obtain ⟨hid, hnone⟩ := hostedBindingContext_missing hmissing
    cases hnone.symm.trans (hreports hid)

/-! ### A claim in the first session -/

def claimedResult : Json := .obj [("handle", .str "ada")]

/-- The daemon in its first session, with events in the queue. -/
def HostedCore.online (account : HostedAccount) (events : List HostedEvent) (installed : Option HostedAccount) : HostedCore :=
  { HostedCore.start none with transport := { Hosted.online account with events := events }, account := installed }

section Claim
variable (account : HostedAccount)

theorem run_first_session (h : account.handle = none) :
    Run (CoreStep fromStr) (.start none)
      [.transport .run, .transport .run, .transport .run, .greet account, .transport (.connect (.ok account)), .transport .run,
        .transport .run] (.online account [.state .connecting, .state (.connected account)] none) := by
  have hempty : 0 < hostedEventQueue := by decide
  have hone : 1 < hostedEventQueue := by decide
  exact .cons (.alone rfl (.top rfl)) <| .cons (.alone rfl (.watch rfl)) <| .cons (.alone rfl (.queue rfl hempty)) <|
    .cons (.greet rfl h) <| .cons (.connect rfl (.connect account rfl)) <| .cons (.alone rfl (.watch rfl)) <|
    .cons (.alone rfl (.queue rfl hone)) <| .nil _

theorem run_claim (hread : fromStr (successFrame "1" claimedResult) = some (successReply "1" claimedResult))
    (events : List HostedEvent) (installed : Option HostedAccount) :
    ∃ ls s, Run (CoreStep fromStr) (.online account events installed) ls s ∧
      s.transport.calls 0 = some ⟨claimRequest "ada", .finished (.ok claimedResult)⟩ ∧ s.claims 0 = .calling ∧
      s.transport.events = events ∧ s.consumer = none ∧ s.active = true ∧ s.account = installed ∧
      s.transport.state = .connected account := by
  let request := claimRequest "ada"
  let start : HostedCore := .online account events installed
  let called : Hosted := start.transport.setCall 0 ⟨request, .sending⟩
  let sent : Hosted := { called.setCall 0 ⟨request, .waiting⟩ with requests := [(0, request)] }
  let accepted : Hosted := Hosted.accept { sent with requests := [] } 0 request
  let given : Given := ⟨1, "1", 0, request⟩
  let frame := successReply "1" claimedResult
  let served : HostedCore := { start with transport := accepted, handle := some "ada", wire := [(given, frame)] }
  let answered : Hosted := accepted.readFrame frame
  have hroom : 0 < requestQueue := by decide
  have hlookup : accepted.pending.lookup "1" = some 0 := show List.lookup "1" [(toString 1, 0)] = some 0 by decide
  have hgiven : accepted.given = [given] :=
    congrArg (fun id => [(⟨1, id, 0, request⟩ : Given)]) (by decide : toString 1 = "1")
  have hansd : answered = { accepted.reply 0 (.ok claimedResult) with
      pending := accepted.pending.filter fun entry => entry.1 ≠ "1"
      receipts := accepted.receipts ++ [⟨accepted.connection, "1", 0, frame⟩] } := by
    have hfields := successReply_fields "1" claimedResult
    have hout : responseOutcome frame = .ok claimedResult := by
      rw [show frame = _ from hfields]
      rfl
    rw [← hout]
    refine Hosted.readFrame_reply ?_ ?_ hlookup
    · rw [show frame = _ from hfields]
      rfl
    · rw [show frame = _ from hfields]
      rfl
  have hwaits : answered.calls 0 = some ⟨request, .waiting⟩ := by
    rw [hansd]
    exact called.calls_setCall_self 0 _
  have hrep : answered.replies 0 = .sent (.ok claimedResult) := by
    rw [hansd]
    exact send_self accepted.replies 0 _
  have hcall : CoreStep fromStr start (.transport (.call 0 request)) { start with transport := called } :=
    .call rfl (.call request rfl)
  have hsend : CoreStep fromStr { start with transport := called } (.transport (.send 0)) { start with transport := sent } :=
    .alone rfl (.send (Hosted.calls_setCall_self ..) rfl hroom)
  have haccept : CoreStep fromStr { start with transport := sent } (.transport .accept)
      { start with transport := accepted, inbox := [given] } := .accept (.accept rfl rfl) hgiven
  have hserve : CoreStep fromStr { start with transport := accepted, inbox := [given] } (.serve given frame) served :=
    @CoreStep.serve fromStr _ given [] [] _ _ rfl (.claimed "ada" rfl rfl)
  have hframe : CoreStep fromStr served (.transport (.frame (successFrame "1" claimedResult)))
      { served with transport := answered, wire := [] } :=
    @CoreStep.read fromStr _ given [] [] frame _ _ rfl rfl hread (.frame rfl hread)
  have hfin : CoreStep fromStr { served with transport := answered, wire := [] } (.transport (.finish 0 (.ok claimedResult)))
      { served with transport := answered.setCall 0 ⟨request, .finished (.ok claimedResult)⟩, wire := [] } :=
    .alone rfl (.receive hwaits hrep)
  refine ⟨_, _, .cons hcall <| .cons hsend <| .cons haccept <| .cons hserve <| .cons hframe <| .cons hfin <| .nil _,
    answered.calls_setCall_self 0 _, rfl, ?_, rfl, rfl, rfl, ?_⟩
  · show answered.events = events
    rw [hansd]
    rfl
  · show answered.state = .connected account
    rw [hansd]
    rfl

end Claim

def exampleConfig : HostedConfig :=
  ⟨"wss://chat.example", "5866666666666666666666666666666666666666666666666666666666666666", none⟩

theorem reads_claimed :
    Function.partialInv Json.render (successFrame "1" claimedResult) = some (successReply "1" claimedResult) :=
  Function.partialInv_left (fun _ _ h => Json.render_inj h) _

/-- The claim is answered while the account of the connection, which has no handle yet, waits in the queue of events. Then the
handle is lost: the daemon reports an account without one, and refuses a binding. -/
theorem claimed_handle_lost :
    ∃ ls u, Run (CoreStep (Function.partialInv Json.render)) (.start none) ls u ∧
      u.claims 0 = .returned (.ok claimedResult) ∧
      hostedBindingContext (hostedStatus (some exampleConfig) (some u.transport.state) u.account) = .error handleMissing := by
  let account : HostedAccount := ⟨"a", none, none, true⟩
  obtain ⟨ls, s, hclaim, hcalls, hcalling, hevents, hconsumer, hactive, -, hstate⟩ :=
    run_claim account reads_claimed [.state .connecting, .state (.connected account)] none
  let updated : HostedCore := { s.setClaim 0 (.updated claimedResult) with account := claimHandle claimedResult s.account }
  let returned := updated.setClaim 0 (.returned (.ok claimedResult))
  have hupdate : CoreStep (Function.partialInv Json.render) s (.update 0) updated := .update hcalls hcalling
  have hfinish : CoreStep (Function.partialInv Json.render) updated (.finish 0) returned :=
    .finish (s.claims_setClaim_self 0 _)
  have hqueues : returned.Queues account := by
    refine ⟨.state (.connected account), .inl ?_, rfl⟩
    rw [show returned.transport.events = _ from hevents]
    exact List.mem_cons_of_mem _ List.mem_cons_self
  obtain ⟨ls', u, hinstall, haccount, hclaims, hstate'⟩ := run_installs (s := returned) hactive hqueues
  refine ⟨_, u, ((run_first_session account rfl).append hclaim).append (.cons hupdate (.cons hfinish hinstall)), ?_, ?_⟩
  · rw [hclaims]
    exact updated.claims_setClaim_self 0 _
  · rw [haccount, hstate', show returned.transport.state = _ from hstate]
    decide

theorem claimed_handle_remembered_ada :
    ∃ s s' : HostedCore, CoreStep (Function.partialInv Json.render) s (.update 0) s' ∧
      s'.claims 0 = .updated claimedResult ∧
      ∀ ls u, Run (CoreStep (Function.partialInv Json.render)) s' ls u →
        u.claims 0 = .returned (.ok claimedResult) → ∀ state,
        ((hostedStatus (some exampleConfig) state u.account).accountId ≠ none →
          (hostedStatus (some exampleConfig) state u.account).handle = some "ada") ∧
        hostedBindingContext (hostedStatus (some exampleConfig) state u.account) ≠ .error handleMissing := by
  let account : HostedAccount := ⟨"a", none, none, true⟩
  let first : HostedCore := .online account [.state .connecting, .state (.connected account)] none
  -- the daemon handles both events before the claim
  have hdrain : Run (CoreStep (Function.partialInv Json.render)) first
      [.transport (.take (.state .connecting)), .receive, .transport (.take (.state (.connected account))), .receive]
      (.online account [] (some account)) :=
    .cons (.take rfl (.take rfl)) <| .cons (.receive rfl) <| .cons (.take rfl (.take rfl)) <| .cons (.receive rfl) <| .nil _
  obtain ⟨ls, s, hclaim, hcalls, hcalling, hevents, hconsumer, hactive, -, -⟩ :=
    run_claim account reads_claimed [] (some account)
  let s' : HostedCore := { s.setClaim 0 (.updated claimedResult) with account := claimHandle claimedResult s.account }
  have hupdate : CoreStep (Function.partialInv Json.render) s (.update 0) s' := .update hcalls hcalling
  have hresult : s'.claims 0 = .updated claimedResult := s.claims_setClaim_self 0 _
  have hfresh : ¬ s.Stale := by
    rintro ⟨-, _, ⟨event, hevent, -⟩, -⟩
    rw [hevents, hconsumer] at hevent
    rcases hevent with h | h <;> cases h
  have hrun := ((run_first_session account rfl).append hdrain).append hclaim
  exact ⟨s, s', hupdate, hresult, (claimed_handle_remembered_iff exampleConfig hrun hupdate hresult rfl).2 hfresh⟩

end OmaChat.Daemon
