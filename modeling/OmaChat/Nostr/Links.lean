import OmaChat.Nostr.PoolRules
import OmaChat.Nostr.Reconnect

/-!
# The connections of a pool

A `Link` is what a connection of a pool has to do with one subscription `sub`: the queue of its actor, the subscriptions that
the actor may hold and the commands that its sessions have taken.

* `LinkStep` : what can become of a link, but for the commands that the pool sends;
* `ClosedAt`, `Waiting`, `Ready`, `TokensOk` : the subscription is closed at a relay, its close is under way, a reply channel
  is new, and the channels of a link are kept apart; each has a lemma that says what a step makes of it;
* `Sound` : what an operation on the pool has seen of its relays is so. The steps of actors, and the calls of operations one
  by one, keep it.
-/

namespace OmaChat.Nostr
open Wire Effects
open Function (update_of_ne update_self update)

variable {call : RelayCall} {command : RelayCommand} {operation : PoolOperation} {response : Nat}

/-! ## Links -/

structure Link where
  ended : Bool
  queue : List RelayCommand
  issued : Nat
  held : List String
  taken : List RelayCommand

/-- What a session holds once it has taken a command. -/
def heldAfter (command : RelayCommand) (held : List String) : List String :=
  match command with
  | .subscribe subscriptionId _ _ => subscriptionId :: held
  | .close subscriptionId _ => held.filter (· ≠ subscriptionId)
  | .publish _ _ | .shutdown => held

/-- What can become of a link, but for the commands that the pool sends. -/
inductive LinkStep (l : Link) : Link → Prop where
  | stop : LinkStep l { l with ended := true }
  | channel : LinkStep l { l with issued := l.issued + 1 }
  | take {command : RelayCommand} {rest : List RelayCommand} : l.queue = command :: rest →
      LinkStep l { l with queue := rest, held := heldAfter command l.held, taken := l.taken ++ [command] }
  /-- A command comes while the actor waits to connect again. -/
  | refuse {command : RelayCommand} {rest : List RelayCommand} : l.queue = command :: rest → LinkStep l { l with queue := rest }

variable {l l' : Link}

section Links
variable {sub : String}

/-- The reply channels of a link are kept apart. -/
structure TokensOk (l : Link) : Prop where
  nodup : (tokens l.queue).Nodup
  below : ∀ response ∈ tokens l.queue, response < l.issued
  taken : ∀ response ∈ tokens l.taken, response < l.issued

/-- The reply channel was made, and no command carries it. -/
structure Ready (response : Nat) (l : Link) : Prop where
  below : response < l.issued
  queued : response ∉ tokens l.queue
  untaken : response ∉ tokens l.taken

/-- The command does not ask for the subscription. -/
def RelayCommand.Spares (command : RelayCommand) (sub : String) : Prop :=
  ∀ filters response, command ≠ .subscribe sub filters response

def NoSubscribe (sub : String) (queue : List RelayCommand) : Prop :=
  ∀ filters response, .subscribe sub filters response ∉ queue

/-- The subscription is closed: the actor does not run, or neither holds the subscription nor will be asked for it. -/
def ClosedAt (sub : String) (l : Link) : Prop := l.ended = true ∨ sub ∉ l.held ∧ NoSubscribe sub l.queue

/-- No session has taken the close of the subscription: it is queued, or it was refused. -/
structure Waiting (sub : String) (response : Nat) (l : Link) : Prop where
  untaken : response ∉ tokens l.taken
  queued : (∃ before after, l.queue = before ++ .close sub response :: after ∧ NoSubscribe sub after) ∨
    response ∉ tokens l.queue

theorem mem_tokens {queue : List RelayCommand} : response ∈ tokens queue ↔
    ∃ command ∈ queue, command.response = some response :=
  List.mem_filterMap

variable {rest queue : List RelayCommand}

theorem mem_tokens_of_cons (hq : l.queue = command :: rest) (h : response ∈ tokens rest) : response ∈ tokens l.queue := by
  obtain ⟨other, ho, hresp⟩ := mem_tokens.1 h
  rw [hq]
  exact mem_tokens.2 ⟨other, List.mem_cons_of_mem _ ho, hresp⟩

theorem mem_tokens_head (hq : l.queue = command :: rest)
    (h : command.response = some response) : response ∈ tokens l.queue := by
  rw [hq]
  exact mem_tokens.2 ⟨command, List.mem_cons_self, h⟩

theorem mem_tokens_push : response ∈ tokens (queue ++ [command]) ↔
    response ∈ tokens queue ∨ command.response = some response := by
  simp [mem_tokens, or_and_right, exists_or]

theorem not_mem_tokens_push (h : response ∉ tokens queue) (hcmd : command.response ≠ some response) :
    response ∉ tokens (queue ++ [command]) := fun hmem => (mem_tokens_push.1 hmem).elim h hcmd

theorem NoSubscribe.tail (h : NoSubscribe sub l.queue) (hq : l.queue = command :: rest) :
    NoSubscribe sub rest :=
  fun filters response hmem => h filters response (hq ▸ List.mem_cons_of_mem _ hmem)

theorem NoSubscribe.push (h : NoSubscribe sub queue) (hcmd : command.Spares sub) : NoSubscribe sub (queue ++ [command]) := by
  intro filters response hmem
  rcases List.mem_append.1 hmem with hmem | hmem
  · exact h filters response hmem
  · exact hcmd filters response (List.mem_singleton.1 hmem).symm

theorem TokensOk.head (h : TokensOk l) (hq : l.queue = command :: rest) :
    (tokens rest).Nodup ∧ ∀ response, command.response = some response → response ∉ tokens rest := by
  have hnd := h.nodup
  rw [hq, tokens, List.filterMap_cons] at hnd
  cases hresp : command.response with
  | none =>
    rw [hresp] at hnd
    exact ⟨hnd, fun response heq => by cases heq⟩
  | some token =>
    rw [hresp] at hnd
    obtain ⟨htoken, hrest⟩ := List.nodup_cons.1 hnd
    refine ⟨hrest, fun response heq => ?_⟩
    cases heq
    exact htoken

theorem TokensOk.step (h : TokensOk l) (hstep : LinkStep l l') : TokensOk l' := by
  cases hstep with
  | stop => exact ⟨h.nodup, h.below, h.taken⟩
  | channel =>
    exact ⟨h.nodup, fun response hmem => Nat.lt_succ_of_lt (h.below response hmem),
      fun response hmem => Nat.lt_succ_of_lt (h.taken response hmem)⟩
  | take hq =>
    refine ⟨(h.head hq).1, fun response hmem => h.below response (mem_tokens_of_cons hq hmem), fun response hmem => ?_⟩
    rcases mem_tokens_push.1 hmem with hmem | hresp
    · exact h.taken response hmem
    · exact h.below response (mem_tokens_head hq hresp)
  | refuse hq => exact ⟨(h.head hq).1, fun response hmem => h.below response (mem_tokens_of_cons hq hmem), h.taken⟩

theorem TokensOk.push (h : TokensOk l) (hfresh : ∀ response, command.response = some response → Ready response l) :
    TokensOk { l with queue := l.queue ++ [command] } := by
  refine ⟨?_, fun response hmem => ?_, h.taken⟩
  · show (tokens (l.queue ++ [command])).Nodup
    rw [tokens, List.filterMap_append, List.nodup_append']
    refine ⟨h.nodup, ?_, fun response h' h'' => ?_⟩
    · cases hresp : command.response <;> simp [hresp]
    · exact (hfresh response (by simpa using h'')).queued h'
  · rcases mem_tokens_push.1 hmem with hmem | hresp
    · exact h.below response hmem
    · exact (hfresh response hresp).below

theorem Ready.step (h : Ready response l) (hstep : LinkStep l l') : Ready response l' := by
  cases hstep with
  | stop => exact ⟨h.below, h.queued, h.untaken⟩
  | channel => exact ⟨Nat.lt_succ_of_lt h.below, h.queued, h.untaken⟩
  | take hq =>
    exact ⟨h.below, fun hmem => h.queued (mem_tokens_of_cons hq hmem),
      not_mem_tokens_push h.untaken fun hresp => h.queued (mem_tokens_head hq hresp)⟩
  | refuse hq => exact ⟨h.below, fun hmem => h.queued (mem_tokens_of_cons hq hmem), h.untaken⟩

theorem TokensOk.ready (h : TokensOk l) : Ready l.issued { l with issued := l.issued + 1 } :=
  ⟨Nat.lt_succ_self _, fun hmem => Nat.lt_irrefl _ (h.below _ hmem), fun hmem => Nat.lt_irrefl _ (h.taken _ hmem)⟩

theorem ClosedAt.step (h : ClosedAt sub l) (hstep : LinkStep l l') : ClosedAt sub l' := by
  rcases h with hended | ⟨hheld, hq⟩
  · cases hstep with
    | stop => exact .inl rfl
    | _ => exact .inl hended
  · cases hstep with
    | stop => exact .inl rfl
    | channel => exact .inr ⟨hheld, hq⟩
    | @take command rest hcons =>
      refine .inr ⟨?_, hq.tail hcons⟩
      cases command with
      | publish | shutdown => exact hheld
      | close => exact fun hmem => hheld (List.mem_filter.1 hmem).1
      | subscribe other filters response =>
        intro hmem
        rcases List.mem_cons.1 hmem with rfl | hmem
        · exact hq filters response (hcons ▸ List.mem_cons_self)
        · exact hheld hmem
    | refuse hcons => exact .inr ⟨hheld, hq.tail hcons⟩

theorem ClosedAt.push (h : ClosedAt sub l)
    (hcmd : command.Spares sub) :
    ClosedAt sub { l with queue := l.queue ++ [command] } := by
  rcases h with hended | ⟨hheld, hq⟩
  · exact .inl hended
  · exact .inr ⟨hheld, hq.push hcmd⟩

theorem Waiting.step (h : Waiting sub response l) (htok : TokensOk l) (hstep : LinkStep l l') :
    Waiting sub response l' ∨ ClosedAt sub l' := by
  cases hstep with
  | stop => exact .inr (.inl rfl)
  | channel => exact .inl ⟨h.untaken, h.queued⟩
  | @take command rest hcons =>
    rcases h.queued with ⟨before, after, hq, ha⟩ | hqueued
    · rw [hcons] at hq
      cases before with
      | nil =>
        -- a session takes the close itself
        cases hq
        exact .inr (.inr ⟨fun hmem => of_decide_eq_true (List.mem_filter.1 hmem).2 rfl, ha⟩)
      | cons first before =>
        cases hq
        refine .inl ⟨not_mem_tokens_push h.untaken fun hresp => (htok.head hcons).2 response hresp ?_,
          .inl ⟨before, after, rfl, ha⟩⟩
        exact mem_tokens.2 ⟨.close sub response, by simp, rfl⟩
    · exact .inl ⟨not_mem_tokens_push h.untaken fun hresp => hqueued (mem_tokens_head hcons hresp),
        .inr fun hmem => hqueued (mem_tokens_of_cons hcons hmem)⟩
  | @refuse command rest hcons =>
    refine .inl ⟨h.untaken, ?_⟩
    rcases h.queued with ⟨before, after, hq, ha⟩ | hqueued
    · rw [hcons] at hq
      cases before with
      | nil =>
        cases hq
        exact .inr ((htok.head hcons).2 response rfl)
      | cons first before =>
        cases hq
        exact .inl ⟨before, after, rfl, ha⟩
    · exact .inr fun hmem => hqueued (mem_tokens_of_cons hcons hmem)

theorem Waiting.push (h : Waiting sub response l) (hcmd : command.Spares sub) (hresp : command.response ≠ some response) :
    Waiting sub response { l with queue := l.queue ++ [command] } := by
  refine ⟨h.untaken, ?_⟩
  rcases h.queued with ⟨before, after, hq, ha⟩ | hqueued
  · exact .inl ⟨before, after ++ [command], by simp [hq], ha.push hcmd⟩
  · exact .inr (not_mem_tokens_push hqueued hresp)

theorem Ready.push (h : Ready response l) (hcmd : command.response ≠ some response) :
    Ready response { l with queue := l.queue ++ [command] } :=
  ⟨h.below, not_mem_tokens_push h.queued hcmd, h.untaken⟩

theorem Ready.waiting (h : Ready response l) :
    Waiting sub response { l with queue := l.queue ++ [.close sub response] } :=
  ⟨h.untaken, .inl ⟨l.queue, [], rfl, fun _ _ hmem => by cases hmem⟩⟩

variable (sub) in
/-- The close with the reply channel was sent: it waits for a session, or the subscription is closed. -/
structure SentClose (response : Nat) (l : Link) : Prop where
  below : response < l.issued
  underway : Waiting sub response l ∨ ClosedAt sub l

theorem LinkStep.issued_le (h : LinkStep l l') : l.issued ≤ l'.issued := by
  cases h with
  | channel => exact Nat.le_succ _
  | _ => exact Nat.le_refl _

theorem SentClose.step (h : SentClose sub response l) (htok : TokensOk l) (hstep : LinkStep l l') :
    SentClose sub response l' :=
  ⟨h.below.trans_le hstep.issued_le, h.underway.elim (fun hwaiting => hwaiting.step htok hstep) fun hcl =>
    .inr (hcl.step hstep)⟩

theorem SentClose.push (h : SentClose sub response l) (hcmd : command.Spares sub) (hresp : command.response ≠ some response) :
    SentClose sub response { l with queue := l.queue ++ [command] } :=
  ⟨h.below, h.underway.imp (fun hwaiting => hwaiting.push hcmd hresp) fun hcl => hcl.push hcmd⟩

end Links

/-! ## The links of a network -/

/-- The commands that the sessions of an actor have taken. -/
def takenIn (log : RelayLog) : List RelayCommand :=
  log.filterMap fun
    | ⟨.select, .command (some command)⟩ => some command
    | _ => none

section
variable {library : RelayLibrary} {config : RelayConfig} {g : View}

theorem learn_take (command : RelayCommand) :
    (g.learn library config .select (.command (some command))).held = heldAfter command g.held := by
  cases command <;> rfl

theorem learn_work (log : RelayLog) (answer : call.Answer)
    (h : ∀ command, (⟨call, answer⟩ : Sigma RelayCall.Answer) ≠ ⟨.select, .command (some command)⟩)
    (library : RelayLibrary) (config : RelayConfig) :
    (g.learn library config call answer).held = g.held ∧ takenIn (log ++ [⟨call, answer⟩]) = takenIn log := by
  unfold takenIn
  rw [List.filterMap_append, List.append_right_eq_self]
  cases call with
  | connect => cases answer <;> exact ⟨rfl, rfl⟩
  | select =>
    rcases answer with (_ | command) | (_ | _ | (_ | _ | _ | _ | _ | _)) | _ | _
    case command.some => exact absurd rfl (h command)
    all_goals exact ⟨rfl, rfl⟩
  | write frame text => cases frame <;> cases answer <;> exact ⟨rfl, rfl⟩
  | ping => cases answer <;> exact ⟨rfl, rfl⟩
  | notify notification => cases answer <;> exact ⟨rfl, rfl⟩
  | health health => cases health <;> exact ⟨rfl, rfl⟩
  | wait delay => rcases answer with _ | _ | _ | _ | _ | _ <;> exact ⟨rfl, rfl⟩
  | _ => exact ⟨rfl, rfl⟩

end

section Networks
variable {n : Nat} (library : RelayLibrary) (configs : Fin n → RelayConfig)

def Network.link (s : Network n) (relay : Fin n) : Link :=
  ⟨s.ended relay, s.queues relay, s.issued relay, (viewAfter library (configs relay) (s.logs relay)).held,
    takenIn (s.logs relay)⟩

variable {library configs} {s : Network n} {relay other : Fin n} {fuel : Nat}

section
variable (s : Network n) (relay : Fin n) (call : RelayCall) (answer : call.Answer)

theorem Network.afterCall_frame :
    (s.afterCall relay call answer).ended = s.ended ∧ (s.afterCall relay call answer).issued = s.issued ∧
      (s.afterCall relay call answer).logs = s.logs ∧ ∀ other, other ≠ relay →
        (s.afterCall relay call answer).queues other = s.queues other := by
  unfold Network.afterCall
  split
  · exact ⟨rfl, rfl, rfl, fun other h => update_of_ne h _ _⟩
  · exact ⟨rfl, rfl, rfl, fun other h => update_of_ne h _ _⟩
  · exact ⟨rfl, rfl, rfl, fun other _ => rfl⟩
  · exact ⟨rfl, rfl, rfl, fun other _ => rfl⟩
  · exact ⟨rfl, rfl, rfl, fun other _ => rfl⟩

theorem Network.pool_afterCall : (s.afterCall relay call answer).pool = s.pool := by
  unfold Network.afterCall
  split <;> rfl

theorem Network.operation_afterCall : (s.afterCall relay call answer).operation = s.operation := by
  unfold Network.afterCall
  split <;> rfl

end

variable {s' : Network n} {g : PoolView n} {answer : call.Answer}

theorem Network.link_actor_of_ne (h : other ≠ relay) :
    (s.next (.actor relay call answer)).link library configs other = s.link library configs other := by
  obtain ⟨hended, hissued, -, ho⟩ := s.afterCall_frame relay call answer
  unfold Network.link
  simp only [Network.next, hended, hissued, ho other h, update_of_ne h]

theorem Network.link_actor : (s.next (.actor relay call answer)).link library configs relay =
      { s.link library configs relay with
        queue := (s.afterCall relay call answer).queues relay
        held := ((viewAfter library (configs relay) (s.logs relay)).learn library (configs relay) call answer).held
        taken := takenIn (s.logs relay ++ [⟨call, answer⟩]) } := by
  obtain ⟨hended, hissued, -, -⟩ := s.afterCall_frame relay call answer
  unfold Network.link
  simp only [Network.next, hended, hissued, update_self, viewAfter_snoc]

/-- What a step of an actor makes of its link: a session takes a command, one is refused, or nothing. -/
theorem Network.linkStep_actor (hans : s.MayAnswer relay call answer) :
    (s.next (.actor relay call answer)).link library configs relay = s.link library configs relay ∨
      LinkStep (s.link library configs relay) ((s.next (.actor relay call answer)).link library configs relay) := by
  rw [Network.link_actor]
  by_cases htake : ∃ command, (⟨call, answer⟩ : Sigma RelayCall.Answer) = ⟨.select, .command (some command)⟩
  · obtain ⟨command, heq⟩ := htake
    cases heq
    obtain ⟨rest, hq⟩ := List.head?_eq_some_iff.1 (show (s.queues relay).head? = some command from hans)
    have hrest : (s.afterCall relay .select (.command (some command))).queues relay = rest := by
      show update s.queues relay (s.queues relay).tail relay = rest
      rw [update_self, hq, List.tail_cons]
    have htaken : takenIn (s.logs relay ++ [⟨.select, .command (some command)⟩]) = takenIn (s.logs relay) ++ [command] := by
      rw [takenIn, List.filterMap_append]
      rfl
    rw [hrest, htaken, learn_take]
    exact .inr (.take hq)
  · have hwork := learn_work (g := viewAfter library (configs relay) (s.logs relay)) (s.logs relay) answer
      fun command heq => htake ⟨command, heq⟩
    obtain ⟨hheld, htaken⟩ := hwork library (configs relay)
    rw [hheld, htaken]
    cases call with
    | wait delay =>
      rcases answer with _ | _ | command
      · exact .inl rfl
      · exact .inl rfl
      · obtain ⟨rest, hq⟩ := List.head?_eq_some_iff.1 (show (s.queues relay).head? = some command from hans)
        have hrest : (s.afterCall relay (.wait delay) (.command (some command))).queues relay = rest := by
          show update s.queues relay (s.queues relay).tail relay = rest
          rw [update_self, hq, List.tail_cons]
        rw [hrest]
        exact .inr (.refuse hq)
    | notify notification => cases answer <;> exact .inl rfl
    | select =>
      rcases answer with (_ | command) | _ | _ | _
      · exact .inl rfl
      · exact absurd ⟨command, rfl⟩ htake
      all_goals exact .inl rfl
    | _ => exact .inl rfl

/-! ## The invariant -/

variable {sub : String}

variable (sub) in
def poolViewAfter (log : List (Sigma (PoolCall.Answer (n := n)))) : PoolView n := (poolRules sub false).learnAll {} log

variable (library configs sub) in
structure OperationSound (s : Network n) (operation : PoolOperation) (g : PoolView n) : Prop where
  channel : ∀ relay response, g.channel = some (relay, response) →
    Ready response (s.link library configs relay) ∧ (relay, response) ∉ g.sent
  known : ∀ b, g.known = some b → s.pool.wants sub = b
  sent : ∀ relay response, (relay, response) ∈ g.sent → SentClose sub response (s.link library configs relay)
  busy : g.sent ≠ [] → operation.adds sub = false ∧ s.pool.wants sub = false

variable (library configs sub) in
structure Sound (s : Network n) : Prop where
  tokens : ∀ relay, TokensOk (s.link library configs relay)
  operation : ∀ operation log, s.operation = some (operation, log) →
    OperationSound library configs sub s operation (poolViewAfter sub log)

variable (library configs sub) in
/-- The subscription is closed everywhere, and no operation is to open it. -/
structure Closed (s : Network n) : Prop where
  unwanted : s.pool.wants sub = false
  links : ∀ relay, ClosedAt sub (s.link library configs relay)
  operation : ∀ operation log, s.operation = some (operation, log) → operation.adds sub = false

variable (library configs) in
def Evolves (s s' : Network n) : Prop := ∀ relay, s'.link library configs relay = s.link library configs relay ∨
  LinkStep (s.link library configs relay) (s'.link library configs relay)

theorem Evolves.keeps (h : Evolves library configs s s') (relay : Fin n) {P : Link → Prop}
    (hlink : P (s.link library configs relay)) (hstep : ∀ l', LinkStep (s.link library configs relay) l' → P l') :
    P (s'.link library configs relay) := by
  rcases h relay with heq | hlinkStep
  · rw [heq]
    exact hlink
  · exact hstep _ hlinkStep

theorem OperationSound.evolve
    (h : OperationSound library configs sub s operation g) (htok : ∀ relay, TokensOk (s.link library configs relay))
    (hevolves : Evolves library configs s s') (hpool : s'.pool = s.pool) :
    OperationSound library configs sub s' operation g := by
  refine ⟨fun relay response hch => ?_, fun b hb => hpool ▸ h.known b hb, fun relay response hsent => ?_,
    fun hbusy => hpool ▸ h.busy hbusy⟩
  · obtain ⟨hrdy, hunsent⟩ := h.channel relay response hch
    exact ⟨hevolves.keeps relay hrdy fun _ => hrdy.step, hunsent⟩
  · have hclose := h.sent relay response hsent
    exact hevolves.keeps relay hclose fun _ => hclose.step (htok relay)

theorem Sound.evolve (h : Sound library configs sub s) (hevolves : Evolves library configs s s')
    (hpool : s'.pool = s.pool) (hop : s'.operation = s.operation) : Sound library configs sub s' :=
  ⟨fun relay => hevolves.keeps relay (h.tokens relay) fun _ => (h.tokens relay).step, fun operation log heq =>
    (h.operation operation log (hop ▸ heq)).evolve h.tokens hevolves hpool⟩

theorem Closed.evolve (h : Closed library configs sub s) (hevolves : Evolves library configs s s')
    (hpool : s'.pool = s.pool) (hop : s'.operation = s.operation) : Closed library configs sub s' :=
  ⟨hpool ▸ h.unwanted, fun relay => hevolves.keeps relay (h.links relay) fun _ => (h.links relay).step,
    fun operation log heq => h.operation operation log (hop ▸ heq)⟩

/-! ### Steps of actors -/

theorem evolves_of_ne (hstep : s'.link library configs relay = s.link library configs relay ∨
      LinkStep (s.link library configs relay) (s'.link library configs relay))
    (ho : ∀ other, other ≠ relay → s'.link library configs other = s.link library configs other) :
    Evolves library configs s s' := by
  intro other
  by_cases heq : other = relay
  · exact heq ▸ hstep
  · exact .inl (ho other heq)

theorem evolves_actor (h : s.Enabled library configs fuel (.actor relay call answer)) :
    Evolves library configs s (s.next (.actor relay call answer)) := by
  obtain ⟨-, -, hans⟩ := h
  exact evolves_of_ne (Network.linkStep_actor hans) fun _ => Network.link_actor_of_ne

theorem evolves_stop : Evolves library configs s (s.next (.stop relay)) := by
  have hlink : (s.next (.stop relay)).link library configs relay = { s.link library configs relay with ended := true } := by
    simp only [Network.link, Network.next, update_self]
  refine evolves_of_ne (.inr (by rw [hlink]; exact .stop)) fun other ho => ?_
  simp only [Network.link, Network.next, update_of_ne ho]

theorem link_withChannel : (s.withChannel relay).link library configs relay =
    { s.link library configs relay with issued := s.issued relay + 1 } := by
  simp only [Network.link, Network.withChannel, Network.withReply, update_self]

theorem link_withChannel_of_ne (h : other ≠ relay) :
    (s.withChannel relay).link library configs other = s.link library configs other := by
  simp only [Network.link, Network.withChannel, Network.withReply, update_of_ne h]

theorem evolves_withChannel : Evolves library configs s (s.withChannel relay) :=
  evolves_of_ne (.inr (by rw [link_withChannel]; exact .channel)) fun _ => link_withChannel_of_ne

theorem link_withQueue (queue : List RelayCommand) : (s.withQueue relay queue).link library configs relay =
    { s.link library configs relay with queue := queue } := by
  simp only [Network.link, Network.withQueue, update_self]

theorem forall_withQueue {P : Fin n → Link → Prop} {queue : List RelayCommand}
    (hr : P relay { s.link library configs relay with queue := queue })
    (h : ∀ other, other ≠ relay → P other (s.link library configs other)) (other : Fin n) :
    P other ((s.withQueue relay queue).link library configs other) := by
  by_cases heq : other = relay
  · subst heq
    rw [link_withQueue]
    exact hr
  · have hlink : (s.withQueue relay queue).link library configs other = s.link library configs other := by
      simp only [Network.link, Network.withQueue, update_of_ne heq]
    rw [hlink]
    exact h other heq

/-! ### Commands of the pool -/

theorem OperationSound.push (h : OperationSound library configs sub s operation g)
    (hcmd : command.Spares sub)
    (hch : ∀ response, g.channel = some (relay, response) → command.response ≠ some response)
    (hsent : ∀ response, (relay, response) ∈ g.sent → command.response ≠ some response) :
    OperationSound library configs sub (s.withQueue relay (s.queues relay ++ [command])) operation g := by
  refine ⟨?_, h.known, ?_, h.busy⟩
  · refine forall_withQueue (P := fun other l => ∀ response, g.channel = some (other, response) →
      Ready response l ∧ (other, response) ∉ g.sent) ?_ fun other _ => h.channel other
    intro response ho
    obtain ⟨hrdy, hunsent⟩ := h.channel relay response ho
    exact ⟨hrdy.push (hch response ho), hunsent⟩
  · exact forall_withQueue (P := fun other l => ∀ response, (other, response) ∈ g.sent → SentClose sub response l)
      (fun response hmem => (h.sent relay response hmem).push hcmd (hsent response hmem)) fun other _ => h.sent other

theorem closedAt_push (hcl : ∀ relay, ClosedAt sub (s.link library configs relay))
    (hcmd : command.Spares sub) :
    ∀ other, ClosedAt sub ((s.withQueue relay (s.queues relay ++ [command])).link library configs other) :=
  forall_withQueue (P := fun _ => ClosedAt sub) ((hcl relay).push hcmd) fun other _ => hcl other

theorem Sound.shutdown (h : Sound library configs sub s) : Sound library configs sub (s.next (.shutdown relay)) := by
  refine ⟨forall_withQueue (P := fun _ => TokensOk) ((h.tokens relay).push fun _ hr => by cases hr)
    fun other _ => h.tokens other, fun operation log heq => ?_⟩
  exact (h.operation operation log heq).push (fun _ _ hc => by cases hc) (fun _ _ hr => by cases hr)
    fun _ _ hr => by cases hr

theorem Sound.publish {signed : SignedEvent} (h : Sound library configs sub s) :
    Sound library configs sub (s.next (.publish relay signed)) := by
  have hch : Sound library configs sub (s.withChannel relay) := h.evolve evolves_withChannel rfl rfl
  refine ⟨forall_withQueue (P := fun _ => TokensOk) ((hch.tokens relay).push fun response hr => ?_)
    fun other _ => hch.tokens other, fun operation log heq => ?_⟩
  · cases hr
    rw [link_withChannel]
    exact (h.tokens relay).ready
  · have hb := h.operation operation log heq
    refine (hch.operation operation log heq).push (fun _ _ hc => by cases hc) (fun response hc hr => ?_)
      fun response hsent hr => ?_
    · cases hr
      exact Nat.lt_irrefl _ (hb.channel relay _ hc).1.below
    · cases hr
      exact Nat.lt_irrefl _ (hb.sent relay _ hsent).below

/-! ### Calls of an operation -/

section
variable {g : PoolView n}

section
variable (h : OperationSound library configs sub s operation g)
include h

theorem OperationSound.forget :
    OperationSound library configs sub s operation { g with channel := none } :=
  ⟨(fun _ _ hnone => by cases hnone), h.known, h.sent, h.busy⟩

theorem OperationSound.read : OperationSound library configs sub s operation { g with known := some (s.pool.wants sub) } := by
  refine ⟨h.channel, fun b hb => ?_, h.sent, h.busy⟩
  cases hb
  rfl

theorem OperationSound.write {pool : RelayPool n}
    (hmay : MayAsk sub (operation.adds sub) g (.write pool)) :
    OperationSound library configs sub { s with pool := pool } operation
      { g with known := some (pool.wants sub) } := by
  refine ⟨h.channel, fun b hb => ?_, h.sent, fun hbusy => ?_⟩
  · cases hb
    rfl
  · obtain ⟨hadds, hwants⟩ := h.busy hbusy
    refine ⟨hadds, Bool.eq_false_iff.2 fun hpool => ?_⟩
    rcases hmay.writes pool rfl hpool with htrue | hk
    · rw [hadds] at htrue
      cases htrue
    · rw [h.known true hk] at hwants
      cases hwants

theorem OperationSound.channel_new
    (htok : ∀ relay, TokensOk (s.link library configs relay)) :
    OperationSound library configs sub (s.withChannel relay) operation
      { g with channel := some (relay, s.issued relay) } := by
  have hevolved : OperationSound library configs sub (s.withChannel relay) operation g :=
    h.evolve htok evolves_withChannel rfl
  refine ⟨fun other response hch => ?_, hevolved.known, hevolved.sent, hevolved.busy⟩
  cases hch
  refine ⟨?_, fun hsent => Nat.lt_irrefl _ (h.sent relay _ hsent).below⟩
  rw [link_withChannel]
  exact (htok relay).ready

theorem OperationSound.close
    (hrdy : Ready response (s.link library configs relay)) (hunsent : (relay, response) ∉ g.sent)
    (hadds : operation.adds sub = false) (hwants : s.pool.wants sub = false) :
    OperationSound library configs sub
      (s.withQueue relay (s.queues relay ++ [.close sub response])) operation
      { g with channel := none, sent := (relay, response) :: g.sent } := by
  refine ⟨(fun _ _ hnone => by cases hnone), h.known, ?_, fun _ => ⟨hadds, hwants⟩⟩
  refine forall_withQueue
    (P := fun other l => ∀ response', (other, response') ∈ (relay, response) :: g.sent → SentClose sub response' l) ?_ ?_
  · intro response' hmem
    rcases List.mem_cons.1 hmem with heq | hmem
    · cases heq
      exact ⟨hrdy.below, .inl hrdy.waiting⟩
    · refine (h.sent relay response' hmem).push (fun _ _ heq => by cases heq) fun hresp => ?_
      cases hresp
      exact hunsent hmem
  · intro other ho response' hmem
    refine h.sent other response' ((List.mem_cons.1 hmem).resolve_left fun heq => ?_)
    cases heq
    exact ho rfl

theorem OperationSound.trySend
    (hmay : MayAsk sub (operation.adds sub) g (.trySend relay command)) :
    OperationSound library configs sub (s.withQueue relay (s.queues relay ++ [command])) operation
      (g.learn sub (.trySend relay command) (.ok ())) := by
  obtain ⟨response, hch, hresp⟩ := hmay.sends relay command rfl
  obtain ⟨hrdy, hunsent⟩ := h.channel relay response hch
  have hfresh : ∀ response', (relay, response') ∈ g.sent → command.response ≠ some response' := by
    intro response' hsent hresp'
    cases hresp.symm.trans hresp'
    exact hunsent hsent
  have hplain (hcmd : command.Spares sub) :
      OperationSound library configs sub (s.withQueue relay (s.queues relay ++ [command])) operation
        { g with channel := none } :=
    h.forget.push hcmd (fun _ hnone => by cases hnone) hfresh
  cases command with
  | publish | shutdown => exact hplain fun _ _ heq => by cases heq
  | subscribe asked filters response' =>
    by_cases heq : asked = sub
    · -- the pool has the subscription, so no relay is about to close it
      subst heq
      have hidle : g.sent = [] := by
        by_contra hbusy
        have hwants := (h.busy hbusy).2
        rw [h.known true (hmay.asks relay filters response' rfl)] at hwants
        cases hwants
      refine ⟨(fun _ _ hnone => by cases hnone), h.known, fun other response hsent => ?_, h.busy⟩
      have hnone : (other, response) ∈ ([] : List (Fin n × Nat)) := hidle ▸ hsent
      cases hnone
    · refine hplain fun filters' response' hcmd => ?_
      cases hcmd
      exact heq rfl
  | close closed response' =>
    by_cases heq : closed = sub
    · subst heq
      cases hresp
      obtain ⟨hadds, hk⟩ := hmay.closes relay response rfl
      have hclose := h.close hrdy hunsent hadds (h.known false hk)
      rw [learn_close, if_pos rfl]
      exact hclose
    · rw [learn_close, if_neg heq]
      exact hplain fun _ _ hcmd => by cases hcmd

theorem OperationSound.next {call : PoolCall n} {answer : call.Answer}
    (htok : ∀ relay, TokensOk (s.link library configs relay))
    (hmay : MayAsk sub (operation.adds sub) g call) (hans : s.MayAnswerAsk call answer) :
    OperationSound library configs sub (s.afterAsk call answer) operation (g.learn sub call answer) := by
  cases call with
  | read =>
    cases (show answer = s.pool from hans)
    exact h.read
  | write pool => exact h.write hmay
  | channel relay =>
    cases (show answer = s.issued relay from hans)
    exact h.channel_new htok
  | trySend relay command =>
    cases answer with
    | ok _ => exact h.trySend hmay
    | error _ => cases command <;> exact h.forget
  | notification =>
    rcases answer with _ | ⟨relay, _ | notification⟩
    · exact h
    · exact h
    · exact h.evolve htok (fun _ => .inl rfl) rfl
  | _ => exact h

end

end

end Networks

end OmaChat.Nostr
