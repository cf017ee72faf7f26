import OmaChat.Nostr.Links

/-!
# Closed subscriptions

Once a caller has closed a subscription, no relay of its pool is to be asked for it again.

* `Sound.next` : every label keeps the invariant of a network;
* `Closed.next` : a subscription that is closed everywhere stays so until `subscribe` is called with it;
* `closed_stays_closed` : what that means for the requests of the actors, once a session of every actor that runs has taken the
  close.

`backoff_reopens` is a run in which the close comes while an actor waits to connect again.
-/

namespace OmaChat.Nostr
open Wire Effects Transition

variable {fuel n : Nat} {library : RelayLibrary} {operation : PoolOperation}
  {q : Prog RelayCall.Answer (Except RelayError Unit × Actor)}

section Networks
variable {configs : Fin n → RelayConfig} {s : Network n} {relay : Fin n} {sub : String}

/-! ## Runs -/

theorem poolViewAfter_snoc (log : List (Sigma (PoolCall.Answer (n := n)))) (call : PoolCall n) (answer : call.Answer) :
    poolViewAfter sub (log ++ [⟨call, answer⟩]) = (poolViewAfter sub log).learn sub call answer := by
  unfold poolViewAfter Protocol.learnAll
  rw [List.foldl_append]
  rfl

variable {call : PoolCall n} {log : List (Sigma (PoolCall.Answer (n := n)))} {label : Label n}

theorem mayAsk_of_calls
    (h : (operation.run fuel ()).Calls log call) :
    MayAsk sub (operation.adds sub) (poolViewAfter sub log) call :=
  (Method.obeys_iff.1 (Method.yields_iff.1 (yields_run sub operation fuel))).may h

variable {answer : call.Answer}

theorem tokensOk_afterAsk {g : PoolView n} (h : OperationSound library configs sub s operation g)
    (htok : ∀ relay, TokensOk (s.link library configs relay))
    (hmay : MayAsk sub (operation.adds sub) g call) (other : Fin n) :
    TokensOk ((s.afterAsk call answer).link library configs other) := by
  unfold Network.afterAsk
  split
  · exact htok other
  · exact evolves_withChannel.keeps other (htok other) fun _ => (htok other).step
  · refine forall_withQueue (P := fun _ => TokensOk) ((htok _).push fun response hresp => ?_) (fun other _ => htok other) other
    obtain ⟨response', hch, hresp'⟩ := hmay.sends _ _ rfl
    cases hresp.symm.trans hresp'
    exact (h.channel _ _ hch).1
  · exact htok other
  · exact htok other

theorem sound_start : Sound library configs sub (Network.start : Network n) := by
  refine ⟨fun relay => ⟨List.nodup_nil, fun response hmem => ?_, fun response hmem => ?_⟩, fun operation log heq => ?_⟩
  · cases hmem
  · cases hmem
  · cases heq

theorem operationSound_begin (s : Network n) (operation : PoolOperation) :
    OperationSound library configs sub s operation {} := by
  refine ⟨fun _ _ hnone => ?_, fun b hb => ?_, fun _ _ hsent => ?_, fun hbusy => absurd rfl hbusy⟩
  · cases hnone
  · cases hb
  · cases hsent

theorem Sound.next (h : Sound library configs sub s)
    (hen : s.Enabled library configs fuel label) : Sound library configs sub (s.next label) := by
  cases label with
  | actor relay call answer =>
    exact h.evolve (evolves_actor hen) (s.pool_afterCall relay call answer) (s.operation_afterCall relay call answer)
  | stop relay => exact h.evolve evolves_stop rfl rfl
  | begin operation =>
    refine ⟨h.tokens, fun operation' log heq => ?_⟩
    cases heq
    exact operationSound_begin _ operation
  | operate call answer =>
    obtain ⟨operation, log, hop, hcalls, hans⟩ := hen
    have hb := h.operation operation log hop
    refine ⟨tokensOk_afterAsk hb h.tokens (mayAsk_of_calls hcalls), fun operation' log' heq => ?_⟩
    rw [Network.next, hop] at heq
    cases heq
    rw [poolViewAfter_snoc]
    have ha := hb.next h.tokens (mayAsk_of_calls hcalls) hans
    exact ha.evolve (tokensOk_afterAsk hb h.tokens (mayAsk_of_calls hcalls)) (fun _ => .inl rfl) rfl
  | finish | abandon =>
    refine ⟨h.tokens, fun operation log heq => ?_⟩
    cases heq
  | publish relay signed => exact h.publish
  | shutdown relay => exact h.shutdown

/-- The label is a call of `subscribe` with the subscription. -/
def Label.subscribes (sub : String) : Label n → Bool
  | .begin operation => operation.adds sub
  | _ => false

section
variable (h : Closed library configs sub s) (hsound : Sound library configs sub s)
include h hsound

theorem Closed.ask
    (hop : s.operation = some (operation, log)) (hcalls : (operation.run fuel ()).Calls log call) :
    (s.afterAsk call answer).pool.wants sub = false ∧
      ∀ relay, ClosedAt sub ((s.afterAsk call answer).link library configs relay) := by
  have hmay : MayAsk sub (operation.adds sub) (poolViewAfter sub log) call := mayAsk_of_calls hcalls
  have hb := hsound.operation operation log hop
  have hunknown : (poolViewAfter sub log).known ≠ some true := by
    intro hk
    cases (hb.known true hk).symm.trans h.unwanted
  unfold Network.afterAsk
  split
  · rename_i pool _
    refine ⟨Bool.eq_false_iff.2 fun hwants => ?_, h.links⟩
    rcases hmay.writes pool rfl hwants with hadds | hk
    · rw [h.operation operation log hop] at hadds
      cases hadds
    · exact hunknown hk
  · exact ⟨h.unwanted, fun relay => evolves_withChannel.keeps relay (h.links relay) fun _ => (h.links relay).step⟩
  · refine ⟨h.unwanted, closedAt_push h.links fun filters response heq => ?_⟩
    subst heq
    exact hunknown (hmay.asks _ filters response rfl)
  · exact ⟨h.unwanted, h.links⟩
  · exact ⟨h.unwanted, h.links⟩

theorem Closed.next
    (hen : s.Enabled library configs fuel label) (hlabel : label.subscribes sub = false) :
    Closed library configs sub (s.next label) := by
  cases label with
  | actor relay call answer =>
    exact h.evolve (evolves_actor hen) (s.pool_afterCall relay call answer) (s.operation_afterCall relay call answer)
  | stop relay => exact h.evolve evolves_stop rfl rfl
  | begin operation =>
    refine ⟨h.unwanted, h.links, fun operation' log heq => ?_⟩
    cases heq
    exact hlabel
  | operate call answer =>
    obtain ⟨operation, log, hop, hcalls, hans⟩ := hen
    obtain ⟨hwants, hlinks⟩ := h.ask hsound hop hcalls
    refine ⟨hwants, hlinks, fun operation' log' heq => ?_⟩
    rw [Network.next, hop] at heq
    cases heq
    exact h.operation operation log hop
  | finish | abandon =>
    refine ⟨h.unwanted, h.links, fun operation log heq => ?_⟩
    cases heq
  | publish relay signed =>
    have hch : Closed library configs sub (s.withChannel relay) := h.evolve evolves_withChannel rfl rfl
    exact ⟨h.unwanted, closedAt_push hch.links (fun _ _ heq => by cases heq), h.operation⟩
  | shutdown relay => exact ⟨h.unwanted, closedAt_push h.links (fun _ _ heq => by cases heq), h.operation⟩

end

/-- The operation under way is the close of the subscription, and a session of the relay's actor has taken the command that it
sent there. -/
def TakesClose (sub : String) (s : Network n) (relay : Fin n) : Prop :=
  ∃ log response, s.operation = some (.closeSubscription sub, log) ∧
    ⟨.trySend relay (.close sub response), .ok ()⟩ ∈ log ∧
      ⟨.select, .command (some (.close sub response))⟩ ∈ s.logs relay

theorem mem_sent {response : Nat} (h : ⟨.trySend relay (.close sub response), .ok ()⟩ ∈ log) :
    (relay, response) ∈ (poolViewAfter sub log).sent := by
  induction log using List.reverseRecOn with
  | nil => cases h
  | append_singleton log x ih =>
    obtain ⟨call, answer⟩ := x
    rw [poolViewAfter_snoc]
    rcases List.mem_append.1 h with hmem | hlast
    · exact mem_sent_learn (ih hmem)
    · cases List.mem_singleton.1 hlast
      rw [learn_close, if_pos rfl]
      exact List.mem_cons_self

theorem TakesClose.closedAt (hsound : Sound library configs sub s) (h : TakesClose sub s relay) :
    ClosedAt sub (s.link library configs relay) := by
  obtain ⟨log, response, hop, hsent, htaken⟩ := h
  have hclose := (hsound.operation _ log hop).sent relay response (mem_sent hsent)
  refine hclose.underway.resolve_left fun hwaiting => hwaiting.untaken (mem_tokens.2 ⟨.close sub response, ?_, rfl⟩)
  exact List.mem_filterMap.2 ⟨_, htaken, rfl⟩

theorem closed_of_finish {result : PoolResult n} (hsound : Sound library configs sub s)
    (hen : s.Enabled library configs fuel (.finish (.closeSubscription sub) result))
    (htaken : ∀ relay, s.ended relay = true ∨ TakesClose sub s relay) :
    Closed library configs sub (s.next (.finish (.closeSubscription sub) result)) := by
  obtain ⟨log, hop, ha⟩ := hen
  have hend := (Method.obeys_iff.1 (Method.yields_iff.1 (yields_run sub (.closeSubscription sub) fuel))).after ha
  have hknown := (hsound.operation _ log hop).known false (hend _ rfl rfl)
  exact ⟨hknown, fun relay => (htaken relay).elim .inl (TakesClose.closedAt hsound), fun operation log heq => by cases heq⟩

theorem Closed.no_request (h : Closed library configs sub s) {filters : List Json} {text : String}
    {answer : (RelayCall.write (.request sub filters) text).Answer} :
    ¬ s.Enabled library configs fuel (.actor relay (.write (.request sub filters) text) answer) := by
  rintro ⟨hrun, hcalls, -⟩
  have hmay := (Method.obeys_iff.1 (obeys_runActor library (configs relay) fuel)).may hcalls
  rcases h.links relay with hended | ⟨hheld, -⟩
  · rw [show s.ended relay = true from hended] at hrun
    cases hrun
  · exact hheld (hmay.holds sub filters text rfl)

/-- After the close of a subscription, a run without another call of `subscribe` keeps the invariants and asks no relay for
it. -/
theorem Closed.run {s' : Network n} {after : List (Label n)} (hsound : Sound library configs sub s)
    (h : Closed library configs sub s) (hrun : Run (Network.Step library configs fuel) s after s')
    (ha : ∀ label ∈ after, label.subscribes sub = false) (relay : Fin n) (filters : List Json) (text : String)
    (answer : (RelayCall.write (.request sub filters) text).Answer) :
    .actor relay (.write (.request sub filters) text) answer ∉ after := by
  induction hrun with
  | nil s => exact List.not_mem_nil
  | cons hstep _ ih =>
    obtain ⟨hen, rfl⟩ := hstep
    obtain ⟨hlabel, hrest⟩ := List.forall_mem_cons.1 ha
    rw [List.mem_cons, not_or]
    refine ⟨fun heq => ?_, ih (hsound.next hen) (h.next hsound hen hlabel) hrest⟩
    subst heq
    exact h.no_request hen

theorem sound_run {before : List (Label n)} (hrun : Run (Network.Step library configs fuel) .start before s) :
    Sound library configs sub s := by
  refine hrun.invariant (I := Sound library configs sub) (fun s label s' hstep h => ?_) sound_start
  obtain ⟨hen, rfl⟩ := hstep
  exact h.next hen

/-- **Closed subscriptions stay closed.** If a session of every actor that runs has taken the command of a close before that
close is finished, whatever it returns, then no relay is asked for the subscription again, whatever happens to the connections,
until `subscribe` is called with it. -/
theorem closed_stays_closed {subscriptionId : String} {s' : Network n} {before after : List (Label n)} {result : PoolResult n}
    (hbefore : Run (Network.Step library configs fuel) .start before s)
    (htaken : ∀ relay, s.ended relay = true ∨ TakesClose subscriptionId s relay)
    (hfinish : s.Enabled library configs fuel (.finish (.closeSubscription subscriptionId) result))
    (hafter : Run (Network.Step library configs fuel) (s.next (.finish (.closeSubscription subscriptionId) result)) after s')
    (hsubscribe : ∀ label ∈ after, label.subscribes subscriptionId = false) (relay : Fin n) (filters : List Json)
    (text : String) (answer : (RelayCall.write (.request subscriptionId filters) text).Answer) :
    .actor relay (.write (.request subscriptionId filters) text) answer ∉ after := by
  have hsound : Sound library configs subscriptionId s := sound_run hbefore
  have hclosed := closed_of_finish hsound hfinish htaken
  exact hclosed.run (hsound.next hfinish) hafter hsubscribe relay filters text answer

end Networks

/-! ## Two runs of a pool with one relay -/

section
variable {configs : Fin n → RelayConfig} {s : Network n} {relay : Fin n}

/-- The answers to the calls of an actor are possible in the states in which they come. -/
def AnswersCalls (relay : Fin n) : Network n → RelayLog → Prop
  | _, [] => True
  | s, x :: log => s.MayAnswer relay x.1 x.2 ∧ AnswersCalls relay (s.next (.actor relay x.1 x.2)) log

/-- The answers to the calls of an operation are possible in the states in which they come. -/
def AnswersAsks : Network n → List (Sigma (PoolCall.Answer (n := n))) → Prop
  | _, [] => True
  | s, x :: log => s.MayAnswerAsk x.1 x.2 ∧ AnswersAsks (s.next (.operate x.1 x.2)) log

def actorLabels (relay : Fin n) (log : RelayLog) : List (Label n) :=
  log.map fun x => .actor relay x.1 x.2

def operateLabels (log : List (Sigma (PoolCall.Answer (n := n)))) : List (Label n) := log.map fun x => .operate x.1 x.2

def Network.nextAll (s : Network n) (labels : List (Label n)) : Network n := labels.foldl Network.next s

theorem subscribes_actorLabels {log : RelayLog} : ∀ label ∈ actorLabels relay log, label.subscribes sub = false := by
  intro label hlabel
  obtain ⟨x, -, rfl⟩ := List.mem_map.1 hlabel
  rfl

theorem run_actor {log : RelayLog} {next : RelayCall} (hrun : s.ended relay = false)
    (hcalls : (runActor library (configs relay) fuel {}).Calls (s.logs relay ++ log) next)
    (hanswers : AnswersCalls relay s log) :
    Run (Network.Step library configs fuel) s (actorLabels relay log) (s.nextAll (actorLabels relay log)) := by
  induction log generalizing s with
  | nil => exact .nil s
  | cons x log ih =>
    obtain ⟨call, answer⟩ := x
    obtain ⟨hans, hrest⟩ := hanswers
    obtain ⟨hended, -, -, -⟩ := s.afterCall_frame relay call answer
    have hlogs : (s.next (.actor relay call answer)).logs relay = s.logs relay ++ [⟨call, answer⟩] := Function.update_self ..
    obtain ⟨_, ha⟩ := hcalls
    refine .cons ⟨⟨hrun, ha.calls, hans⟩, rfl⟩ (ih ?_ ?_ hrest)
    · exact (congrFun hended relay).trans hrun
    · rw [hlogs, List.append_assoc]
      exact ⟨_, ha⟩

theorem run_operation {log log' : List (Sigma (PoolCall.Answer (n := n)))}
    {q : Prog (PoolCall.Answer (n := n)) (Except RelayError (PoolResult n) × Unit)}
    (hop : s.operation = some (operation, log)) (ha : (operation.run fuel ()).After (log ++ log') q)
    (hanswers : AnswersAsks s log') :
    Run (Network.Step library configs fuel) s (operateLabels log') (s.nextAll (operateLabels log')) := by
  induction log' generalizing s log with
  | nil => exact .nil s
  | cons x log' ih =>
    obtain ⟨call, answer⟩ := x
    obtain ⟨hans, hrest⟩ := hanswers
    have hnext : (s.next (.operate call answer)).operation = some (operation, log ++ [⟨call, answer⟩]) := by
      simp only [Network.next, hop, Option.map_some]
    refine .cons ⟨⟨operation, log, hop, ha.calls, hans⟩, rfl⟩ (ih hnext ?_ hrest)
    rw [List.append_assoc]
    exact ha

theorem run_append {labels labels' : List (Label n)}
    (h : Run (Network.Step library configs fuel) s labels (s.nextAll labels))
    (h' : Run (Network.Step library configs fuel) (s.nextAll labels) labels' ((s.nextAll labels).nextAll labels')) :
    Run (Network.Step library configs fuel) s (labels ++ labels') (s.nextAll (labels ++ labels')) := by
  have hall : s.nextAll (labels ++ labels') = (s.nextAll labels).nextAll labels' := List.foldl_append
  rw [hall]
  exact h.append h'

theorem run_singleton {label : Label n} (h : s.Enabled library configs fuel label) :
    Run (Network.Step library configs fuel) s [label] (s.nextAll [label]) := .cons ⟨h, rfl⟩ (.nil _)

end

/-- A pool that has the subscription, before its relay has it. -/
def storedPool : RelayPool 1 := { RelayPool.unsync {} "s" with subscriptions := insertKey "s" [.obj []] [] }

def syncedPool : RelayPool 1 := storedPool.syncEach "s" ((List.finRange 1).zip [.ok ()])

def removedPool : RelayPool 1 := { syncedPool.unsync "s" with subscriptions := removeKey "s" syncedPool.subscriptions }

/-- `subscribe` until its command is sent. -/
def subscribeSent : List (Sigma (PoolCall.Answer (n := 1))) :=
  [⟨.read, {}⟩, ⟨.write storedPool, ()⟩, ⟨.channel 0, (0 : Nat)⟩,
    ⟨.trySend 0 (.subscribe "s" [.obj []] 0), .ok ()⟩]

def subscribeAnswered : List (Sigma (PoolCall.Answer (n := 1))) :=
  [⟨.await 0 0, .reply (.ok ())⟩, ⟨.write syncedPool, ()⟩]

/-- `close_subscription` until its command is sent. -/
def closeSent : List (Sigma (PoolCall.Answer (n := 1))) :=
  [⟨.read, syncedPool⟩, ⟨.write removedPool, ()⟩, ⟨.channel 0, (1 : Nat)⟩, ⟨.trySend 0 (.close "s" 1), .ok ()⟩]

theorem after_subscribePool (fuel : Nat) : (PoolOperation.run (n := 1) fuel (.subscribe "s" [.obj []]) ()).After
    (subscribeSent ++ subscribeAnswered) (.ret (.ok (.results [.ok ()]), ())) :=
  .cons (.cons (.cons (.cons (.cons (.cons (.nil _))))))

theorem after_closePool (fuel : Nat) (result : Except RelayError Unit) :
    (PoolOperation.run (n := 1) fuel (.closeSubscription "s") ()).After (closeSent ++ [⟨.await 0 1, .reply result⟩])
      (.ret (.ok (.results [result]), ())) := by
  cases result <;> exact .cons (.cons (.cons (.cons (.cons (.nil _)))))

def connects : RelayLog :=
  [⟨.health .connecting, ()⟩, ⟨.connect, true⟩, ⟨.health .connected, ()⟩, ⟨.notify .connected, .ok ()⟩]

def connectSubscribed : RelayLog :=
  connects ++ [⟨.iterate 0, Equiv.refl (Fin 0)⟩, ⟨.select, .command (some (.subscribe "s" [.obj []] 0))⟩,
   ⟨.write (.request "s" [.obj []]) requestText, .ok ()⟩, ⟨.respond 0 .done, ()⟩]

def opening : List (Label 1) :=
  [.begin (.subscribe "s" [.obj []])] ++ operateLabels subscribeSent ++ actorLabels 0 connectSubscribed ++
    operateLabels subscribeAnswered ++ [.finish (.subscribe "s" [.obj []]) (.results [.ok ()])]

theorem run_opening :
    Run (Network.Step quietLibrary (fun _ => openRelay) 30) .start opening (Network.nextAll .start opening) := by
  have hconnect : (runActor quietLibrary openRelay 30 {}).Calls connectSubscribed .select := by decide +kernel
  obtain ⟨_, hsent, -⟩ := (after_subscribePool 30).split
  unfold opening
  refine run_append (run_append (run_append (run_append (run_singleton rfl) ?_) ?_) ?_) ?_
  · exact run_operation rfl hsent ⟨rfl, trivial, rfl, rfl, trivial⟩
  · exact run_actor rfl hconnect ⟨trivial, trivial, trivial, trivial, trivial, rfl, trivial, trivial, trivial⟩
  · exact run_operation rfl (after_subscribePool 30) ⟨rfl, trivial, trivial⟩
  · exact run_singleton ⟨subscribeSent ++ subscribeAnswered, rfl, after_subscribePool 30⟩

/-! ### A close that a session takes -/

def closeText : String := (Json.arr [.str "CLOSE", .str "s"]).render

def closeTaken : RelayLog :=
  [⟨.select, .command (some (.close "s" 1))⟩, ⟨.write (.close "s") closeText, .ok ()⟩, ⟨.respond 1 .done, ()⟩]

def lost : RelayLog :=
  [⟨.select, .message none⟩, ⟨.iterate 0, Equiv.refl (Fin 0)⟩, ⟨.health .disconnected, ()⟩,
    ⟨.notify .disconnected, .ok ()⟩]

def reconnected : RelayLog :=
  lost ++ [⟨.wait (reconnectDelay quietLibrary openRelay 1), .elapsed⟩] ++ connects ++ [⟨.iterate 0, Equiv.refl (Fin 0)⟩]

def closing : List (Label 1) :=
  opening ++ [.begin (.closeSubscription "s")] ++ operateLabels closeSent ++ actorLabels 0 closeTaken ++
    operateLabels [⟨.await 0 1, .reply (.ok ())⟩]

theorem run_closing :
    Run (Network.Step quietLibrary (fun _ => openRelay) 30) .start closing (Network.nextAll .start closing) := by
  have htaken : (runActor quietLibrary openRelay 30 {}).Calls (connectSubscribed ++ closeTaken) .select := by decide +kernel
  obtain ⟨_, hsent, -⟩ := (after_closePool 30 (.ok ())).split
  unfold closing
  refine run_append (run_append (run_append (run_append run_opening ?_) ?_) ?_) ?_
  · exact run_singleton rfl
  · exact run_operation rfl hsent ⟨rfl, trivial, rfl, rfl, trivial⟩
  · exact run_actor rfl htaken ⟨rfl, trivial, trivial, trivial⟩
  · exact run_operation rfl (after_closePool 30 (.ok ())) ⟨rfl, trivial⟩

/-- The actor connects again and does not ask its relay for the subscription. -/
theorem reconnected_stays_closed :
    (∃ s', Run (Network.Step quietLibrary (fun _ => openRelay) 30)
      ((Network.nextAll .start closing).next (.finish (.closeSubscription "s") (.results [.ok ()])))
      (actorLabels 0 reconnected) s') ∧
    ∀ relay filters text answer,
      .actor relay (.write (.request "s" filters) text) answer ∉ actorLabels (0 : Fin 1) reconnected := by
  have hreconnected : (runActor quietLibrary openRelay 30 {}).Calls ((connectSubscribed ++ closeTaken) ++ reconnected)
      .select := by decide +kernel
  have hrun : Run (Network.Step quietLibrary (fun _ => openRelay) 30)
      ((Network.nextAll .start closing).next (.finish (.closeSubscription "s") (.results [.ok ()])))
      (actorLabels 0 reconnected) (Network.nextAll _ (actorLabels 0 reconnected)) :=
    run_actor rfl hreconnected ⟨trivial, trivial, trivial, trivial, trivial, trivial, trivial,
      trivial, trivial, trivial, trivial⟩
  have htaken : TakesClose "s" (Network.nextAll (.start : Network 1) closing) 0 := by
    refine ⟨closeSent ++ [⟨.await 0 1, .reply (.ok ())⟩], 1, rfl, ?_, ?_⟩
    · simp [closeSent]
    · exact List.mem_append_right connectSubscribed (List.mem_cons_self (l := closeTaken.tail))
  refine ⟨⟨_, hrun⟩, closed_stays_closed run_closing (fun relay => .inr ?_) ⟨_, rfl, after_closePool 30 (.ok ())⟩ hrun
    subscribes_actorLabels⟩
  rw [Fin.fin_one_eq_zero relay]
  exact htaken

/-! ### A close that comes while the actor waits to connect again -/

def closeRefused : RelayLog :=
  [⟨.wait (reconnectDelay quietLibrary openRelay 1), .command (some (.close "s" 1))⟩,
   ⟨.respond 1 (.failed .disconnected), ()⟩]

def reopened : RelayLog :=
  connects ++ [⟨.iterate 1, Equiv.refl (Fin 1)⟩, ⟨.write (.request "s" [.obj []]) requestText, .ok ()⟩]

/-- The steps until the close, which comes in the backoff, is finished. -/
def closingInBackoff : List (Label 1) :=
  opening ++ actorLabels 0 lost ++ [.begin (.closeSubscription "s")] ++ operateLabels closeSent ++
    actorLabels 0 closeRefused ++ operateLabels [⟨.await 0 1, .reply (.error .disconnected)⟩]

/-- A close that comes while an actor waits to connect again returns, and the actor asks its relay for the subscription as
soon as it has connected. -/
theorem backoff_reopens :
    Run (Network.Step quietLibrary (fun _ => openRelay) 30) .start closingInBackoff (Network.nextAll .start closingInBackoff) ∧
    (Network.nextAll .start closingInBackoff).Enabled quietLibrary (fun _ => openRelay) 30
      (.finish (.closeSubscription "s") (.results [.error .disconnected])) ∧
    (∃ s', Run (Network.Step quietLibrary (fun _ => openRelay) 30)
      ((Network.nextAll .start closingInBackoff).next (.finish (.closeSubscription "s") (.results [.error .disconnected])))
      (actorLabels 0 reopened) s') ∧
    (∀ label ∈ actorLabels (0 : Fin 1) reopened, label.subscribes "s" = false) ∧
    .actor 0 (.write (.request "s" [.obj []]) requestText) (.ok ()) ∈ actorLabels (0 : Fin 1) reopened := by
  have hlost : (runActor quietLibrary openRelay 30 {}).Calls (connectSubscribed ++ lost)
      (.wait (reconnectDelay quietLibrary openRelay 1)) := by decide +kernel
  have hrefused : (runActor quietLibrary openRelay 30 {}).Calls ((connectSubscribed ++ lost) ++ closeRefused)
      (.health .connecting) := by decide +kernel
  have hreopened : (runActor quietLibrary openRelay 30 {}).Calls (((connectSubscribed ++ lost) ++ closeRefused) ++ reopened)
      .select := by decide +kernel
  obtain ⟨_, hsent, -⟩ := (after_closePool 30 (.error .disconnected)).split
  refine ⟨?_, ⟨_, rfl, after_closePool 30 (.error .disconnected)⟩,
    ⟨_, run_actor rfl hreopened ⟨trivial, trivial, trivial, trivial, trivial, trivial, trivial⟩⟩, subscribes_actorLabels,
    by simp [actorLabels, reopened]⟩
  unfold closingInBackoff
  refine run_append (run_append (run_append (run_append (run_append run_opening ?_) ?_) ?_) ?_) ?_
  · exact run_actor rfl hlost ⟨trivial, trivial, trivial, trivial, trivial⟩
  · exact run_singleton rfl
  · exact run_operation rfl hsent ⟨rfl, trivial, rfl, rfl, trivial⟩
  · exact run_actor rfl hrefused ⟨rfl, trivial, trivial⟩
  · exact run_operation rfl (after_closePool 30 (.error .disconnected)) ⟨rfl, trivial⟩

end OmaChat.Nostr
