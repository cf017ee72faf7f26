import OmaChat.Lib.BoundedMap
import OmaChat.Lib.Run
import OmaChat.Server.Session

/-!
# The connections of a host

`run_host` of `host.rs`: it accepts connections, spawns a session task for each that its limits admit, and joins the tasks that
end. Two counters go with the tasks, one for all of them and one by address.

* `finish` : a task that returned gives back its address and both counters go down; of a task that panicked the address is
  not known any more, and only the total goes down;
* `Counted` : so the counter of an address is the number of its live tasks and of its panicked ones. `counted_next` is the step
  and `counted_run` the run;
* `connection_counts_iff` : the counters are exact in every state of a run just if no task of the run panicked.

An address is a key of a map and nothing else, so its type is a parameter.
-/

open Std (ExtTreeMap TransOrd LawfulEqOrd)

namespace OmaChat.Server

/-! ## Limits -/

/-- `HostLimits`. The two timeouts of the session limits that are answers of calls in a session stand here. -/
structure HostLimits where
  maxConnections : Nat
  maxConnectionsPerIp : Nat
  session : SessionLimits
  admissionTimeout : Nat
  unauthenticatedTimeout : Nat
  shutdownGrace : Nat

inductive HostError (Ip : Type) where
  | invalidLimits
  | listener (error : String)
  | nonLoopbackListener (address : Ip)
  deriving DecidableEq

variable {Ip : Type} {limits : HostLimits}

def HostLimits.validate (limits : HostLimits) : Except (HostError Ip) HostLimits :=
  if limits.maxConnections = 0 ∨ limits.maxConnectionsPerIp = 0 ∨ limits.maxConnections < limits.maxConnectionsPerIp ∨
      limits.admissionTimeout = 0 ∨ limits.unauthenticatedTimeout = 0 ∨ limits.session.idleTimeout = 0 ∨
      limits.session.requestsPerSecond = 0 ∨ limits.session.requestBurst = 0 ∨ limits.shutdownGrace = 0 then
    .error .invalidLimits
  else .ok limits

structure HostReport where
  admittedConnections : Nat := 0
  rejectedGlobalLimit : Nat := 0
  rejectedPerIpLimit : Nat := 0
  authenticatedSessions : Nat := 0
  failedSessions : Nat := 0
  laggedSessions : Nat := 0
  forcedShutdown : Bool := false
  abortedConnections : Nat := 0
  deriving DecidableEq

/-! ## The two loops -/

/-- A session task: its session id, and the address that it returns. -/
structure SessionTask (Ip : Type) where
  sessionId : Nat
  ip : Ip
  deriving DecidableEq

/-- Where `run_host` is: in its loop, in the drain after a shutdown, or it has returned its report or an error. -/
inductive HostPhase where
  | serving
  | draining
  | returned
  | failed (error : String)
  deriving DecidableEq

/-- The state of `run_host`. The `JoinSet` holds the live tasks: those that were spawned and not joined yet. -/
structure Host (Ip : Type) [Ord Ip] [TransOrd Ip] where
  activeByIp : ExtTreeMap Ip Nat := ∅
  activeTotal : Nat := 0
  nextSessionId : Nat := 1
  report : HostReport := {}
  sessions : List (SessionTask Ip) := []
  phase : HostPhase := .serving

inductive SessionEnd where
  | returned (report : SessionReport)
  | panicked
  deriving DecidableEq

/-- What `run_host` waits for. -/
inductive HostEvent (Ip : Type) where
  | accepted (ip : Ip)
  | acceptFailed (error : String)
  | joined (task : SessionTask Ip) (ended : SessionEnd)
  | shutdown
  | drained
  | graceElapsed
  deriving DecidableEq

inductive Admission where
  | admitted
  | rejectedGlobalLimit
  | rejectedPerIpLimit
  deriving DecidableEq

namespace Host
variable [Ord Ip] [TransOrd Ip]

/-- The beginning of `run_host`, for the address of the listener. -/
def start (isLoopback : Ip → Bool) (limits : HostLimits) (localAddr : Except String Ip) : Except (HostError Ip) (Host Ip) := do
  let _ ← limits.validate
  let address ← localAddr.mapError HostError.listener
  if !isLoopback address then .error (.nonLoopbackListener address) else .ok {}

def admission (limits : HostLimits) (host : Host Ip) (ip : Ip) : Admission :=
  if limits.maxConnections ≤ host.activeTotal then .rejectedGlobalLimit
  else if limits.maxConnectionsPerIp ≤ host.activeByIp[ip]?.getD 0 then .rejectedPerIpLimit
  else .admitted

def accept (limits : HostLimits) (host : Host Ip) (ip : Ip) : Host Ip :=
  match host.admission limits ip with
  | .rejectedGlobalLimit =>
    { host with report.rejectedGlobalLimit := host.report.rejectedGlobalLimit + 1 }
  | .rejectedPerIpLimit =>
    { host with report.rejectedPerIpLimit := host.report.rejectedPerIpLimit + 1 }
  | .admitted =>
    { host with
      activeTotal := host.activeTotal + 1
      activeByIp := host.activeByIp.insert ip (host.activeByIp[ip]?.getD 0 + 1)
      report.admittedConnections := host.report.admittedConnections + 1
      sessions := host.sessions ++ [⟨host.nextSessionId, ip⟩]
      nextSessionId := host.nextSessionId + 1 }

def release (ip : Ip) (host : Host Ip) : Host Ip :=
  { host with
    activeTotal := host.activeTotal - 1
    activeByIp :=
      match host.activeByIp[ip]? with
      | none => host.activeByIp
      | some count =>
        if count - 1 = 0 then (host.activeByIp.insert ip (count - 1)).erase ip else host.activeByIp.insert ip (count - 1) }

def releasePanickedSessionWithoutPeerAddress (host : Host Ip) : Host Ip :=
  { host with activeTotal := host.activeTotal - 1, report.failedSessions := host.report.failedSessions + 1 }

def finish (task : SessionTask Ip) (ended : SessionEnd) (host : Host Ip) : Host Ip :=
  match ended with
  | .returned session =>
    let host := host.release task.ip
    { host with
      report.authenticatedSessions := host.report.authenticatedSessions + if session.authenticated then 1 else 0
      report.laggedSessions := host.report.laggedSessions + if session.reason = .lagged then 1 else 0
      report.failedSessions := host.report.failedSessions + if session.error.isSome then 1 else 0 }
  | .panicked => host.releasePanickedSessionWithoutPeerAddress

/-- The state after an event, if `run_host` waits for it. -/
def next [DecidableEq Ip] (limits : HostLimits) (host : Host Ip) (event : HostEvent Ip) : Option (Host Ip) :=
  match event, host.phase with
  | .accepted ip, .serving => some (host.accept limits ip)
  | .acceptFailed error, .serving => some { host with phase := .failed error }
  | .shutdown, .serving => some { host with phase := .draining }
  | .joined task ended, .serving | .joined task ended, .draining =>
    if task ∈ host.sessions then some ({ host with sessions := host.sessions.erase task }.finish task ended) else none
  | .drained, .draining => if host.sessions = [] then some { host with phase := .returned } else none
  | .graceElapsed, .draining =>
    some { host with
      phase := .returned, report.forcedShutdown := true, report.abortedConnections := host.activeTotal }
  | _, _ => none

def live [DecidableEq Ip] (host : Host Ip) (ip : Ip) : Nat := host.sessions.countP (·.ip = ip)

end Host

/-! ## One event -/

section
variable [Ord Ip] [TransOrd Ip] [DecidableEq Ip] {host host' : Host Ip} {event : HostEvent Ip}

/-- What an event does to the tasks and their counters: nothing, one more, one less, or one less whose address is lost. -/
theorem Host.next_cases (h : host.next limits event = some host') :
    ((∀ task, event ≠ .joined task .panicked) ∧ host'.sessions = host.sessions ∧ host'.activeTotal = host.activeTotal ∧
        host'.activeByIp = host.activeByIp) ∨
      (∃ ip, event = .accepted ip ∧ host.admission limits ip = .admitted ∧
        host'.sessions = host.sessions ++ [⟨host.nextSessionId, ip⟩] ∧ host'.activeTotal = host.activeTotal + 1 ∧
        host'.activeByIp = host.activeByIp.insert ip (host.activeByIp[ip]?.getD 0 + 1)) ∨
      (∃ task report, event = .joined task (.returned report) ∧ task ∈ host.sessions ∧
        host'.sessions = host.sessions.erase task ∧ host'.activeTotal = host.activeTotal - 1 ∧
        host'.activeByIp = (host.release task.ip).activeByIp) ∨
      ∃ task, event = .joined task .panicked ∧ task ∈ host.sessions ∧ host'.sessions = host.sessions.erase task ∧
        host'.activeTotal = host.activeTotal - 1 ∧ host'.activeByIp = host.activeByIp := by
  have hjoined : ∀ task ended, (if task ∈ host.sessions then
      some ({ host with sessions := host.sessions.erase task }.finish task ended) else none) = some host' →
      (∃ report, ended = .returned report ∧ task ∈ host.sessions ∧
        host'.sessions = host.sessions.erase task ∧ host'.activeTotal = host.activeTotal - 1 ∧
        host'.activeByIp = (host.release task.ip).activeByIp) ∨
      (ended = .panicked ∧ task ∈ host.sessions ∧ host'.sessions = host.sessions.erase task ∧
        host'.activeTotal = host.activeTotal - 1 ∧ host'.activeByIp = host.activeByIp) := by
    intro task ended h
    rw [Option.ite_none_right_eq_some] at h
    obtain ⟨hmem, heq⟩ := h
    cases heq
    cases ended with
    | returned report => exact .inl ⟨report, rfl, hmem, rfl, rfl, rfl⟩
    | panicked => exact .inr ⟨rfl, hmem, rfl, rfl, rfl⟩
  unfold Host.next at h
  split at h
  case h_1 ip _ =>
    cases h
    unfold Host.accept
    cases hadmission : host.admission limits ip with
    | admitted => exact .inr (.inl ⟨ip, rfl, hadmission, rfl, rfl, rfl⟩)
    | rejectedGlobalLimit => exact .inl ⟨by simp, rfl, rfl, rfl⟩
    | rejectedPerIpLimit => exact .inl ⟨by simp, rfl, rfl, rfl⟩
  case h_4 task ended _ | h_5 task ended _ =>
    obtain ⟨report, rfl, hreturned⟩ | ⟨rfl, hpanicked⟩ := hjoined task ended h
    · exact .inr (.inr (.inl ⟨task, report, rfl, hreturned⟩))
    · exact .inr (.inr (.inr ⟨task, rfl, hpanicked⟩))
  case h_6 =>
    rw [Option.ite_none_right_eq_some] at h
    cases h.2
    exact .inl ⟨by simp, rfl, rfl, rfl⟩
  case h_8 => cases h
  all_goals
    cases h
    exact .inl ⟨by simp, rfl, rfl, rfl⟩

end

/-! ## The counters along a run -/

/-- The entry of a counter: a counter that is zero is removed. -/
def counterEntry (count : Nat) : Option Nat := if count = 0 then none else some count

/-- The total is the number of live tasks, the counter of an address the number of its live tasks and of those that panicked,
and the live tasks are within the limits. -/
structure Counted [Ord Ip] [TransOrd Ip] [DecidableEq Ip] (limits : HostLimits) (panicked : Ip → Nat)
    (host : Host Ip) : Prop where
  total : host.activeTotal = host.sessions.length
  byIp : ∀ ip, host.activeByIp[ip]? = counterEntry (host.live ip + panicked ip)
  limit : host.sessions.length ≤ limits.maxConnections
  limitPerIp : ∀ ip, host.live ip ≤ limits.maxConnectionsPerIp

section Counters
variable [Ord Ip] [TransOrd Ip] [DecidableEq Ip] {host host' : Host Ip} {event : HostEvent Ip} {events : List (HostEvent Ip)}
  {panicked : Ip → Nat} {ip : Ip} {task : SessionTask Ip}

theorem getD_counterEntry (count : Nat) : (counterEntry count).getD 0 = count := by
  unfold counterEntry
  split_ifs with hzero
  · exact hzero.symm
  · rfl

theorem live_append (htasks : host'.sessions = host.sessions ++ [task]) (ip : Ip) :
    host'.live ip = host.live ip + if task.ip = ip then 1 else 0 := by
  unfold Host.live
  rw [htasks, List.countP_append, List.countP_singleton]
  simp

theorem live_erase (hmem : task ∈ host.sessions) (htasks : host'.sessions = host.sessions.erase task) (ip : Ip) :
    host'.live ip + (if task.ip = ip then 1 else 0) = host.live ip := by
  unfold Host.live
  rw [htasks, (List.perm_cons_erase hmem).countP_eq, List.countP_cons]
  simp

variable [LawfulEqOrd Ip]

theorem getElem?_release {count : Nat} (hcnt : host.activeByIp[ip]? = counterEntry (count + 1)) (other : Ip) :
    (host.release ip).activeByIp[other]? = if ip = other then counterEntry count else host.activeByIp[other]? := by
  have hsome : host.activeByIp[ip]? = some (count + 1) := hcnt
  unfold Host.release
  rw [hsome]
  dsimp only
  rw [Nat.add_sub_cancel]
  by_cases hzero : count = 0
  · rw [if_pos hzero, ExtTreeMap.getElem?_erase, BoundedMap.getElem?_insert_eq]
    simp only [Std.LawfulEqCmp.compare_eq_iff_eq, counterEntry, if_pos hzero]
    split_ifs <;> rfl
  · rw [if_neg hzero, BoundedMap.getElem?_insert_eq]
    simp only [counterEntry, if_neg hzero]

/-- **An event** leaves the counters as they were meant, but for a task that panicked: its address counts one more from
then on. -/
theorem counted_next (h : host.next limits event = some host') (hcnt : Counted limits panicked host) :
    ∃ panicked', Counted limits panicked' host' ∧ (∀ ip, panicked ip ≤ panicked' ip) ∧
      ((∃ task, event = .joined task .panicked) → ∃ ip, panicked ip < panicked' ip) ∧
      ((∀ task, event ≠ .joined task .panicked) → panicked' = panicked) := by
  obtain ⟨hev, htasks, htot, hbyIp⟩ | ⟨ip, rfl, hadmitted, htasks, htot, hbyIp⟩ |
      ⟨task, report, rfl, hmem, htasks, htot, hbyIp⟩ | ⟨task, rfl, hmem, htasks, htot, hbyIp⟩ := Host.next_cases h
  · have hlive : host'.live = host.live := by
      funext ip
      unfold Host.live
      rw [htasks]
    refine ⟨panicked, ⟨?_, ?_, ?_, ?_⟩, fun _ => le_rfl, fun ⟨task, htask⟩ => absurd htask (hev task), fun _ => rfl⟩
    · rw [htot, htasks, hcnt.total]
    · rw [hbyIp, hlive]
      exact hcnt.byIp
    · rw [htasks]
      exact hcnt.limit
    · rw [hlive]
      exact hcnt.limitPerIp
  · have hroom : host.activeTotal < limits.maxConnections ∧ host.activeByIp[ip]?.getD 0 < limits.maxConnectionsPerIp := by
      unfold Host.admission at hadmitted
      split_ifs at hadmitted with htot hper
      omega
    have hcount : host.activeByIp[ip]?.getD 0 = host.live ip + panicked ip := by
      rw [hcnt.byIp, getD_counterEntry]
    refine ⟨panicked, ⟨?_, fun other => ?_, ?_, fun other => ?_⟩, fun _ => le_rfl, by simp, fun _ => rfl⟩
    · rw [htot, htasks, hcnt.total, List.length_append, List.length_singleton]
    · rw [hbyIp, BoundedMap.getElem?_insert_eq, live_append htasks, hcount]
      split_ifs with hip
      · subst hip
        simp [counterEntry]
        omega
      · exact hcnt.byIp other
    · rw [htasks, List.length_append, List.length_singleton, ← hcnt.total]
      exact hroom.1
    · have ho := hcnt.limitPerIp other
      rw [live_append htasks]
      split_ifs with hip
      · dsimp only at hip
        subst hip
        omega
      · exact ho
  · have hlive := live_erase hmem htasks
    have hlen := List.length_erase_of_mem hmem
    refine ⟨panicked, ⟨?_, fun other => ?_, ?_, fun other => ?_⟩, fun _ => le_rfl, by simp, fun _ => rfl⟩
    · rw [htot, htasks, hcnt.total, hlen]
    · have hone := hlive task.ip
      rw [if_pos rfl] at hone
      have hcount := hcnt.byIp task.ip
      rw [← hone, Nat.add_right_comm] at hcount
      rw [hbyIp, getElem?_release hcount]
      split_ifs with hip
      · rw [hip]
      · rw [hcnt.byIp, ← hlive other, if_neg hip, Nat.add_zero]
    · have hlimit := hcnt.limit
      rw [htasks]
      omega
    · have ho := hcnt.limitPerIp other
      have hone := hlive other
      omega
  · have hlive := live_erase hmem htasks
    have hlen := List.length_erase_of_mem hmem
    refine ⟨fun ip => panicked ip + if task.ip = ip then 1 else 0, ⟨?_, fun other => ?_, ?_, fun other => ?_⟩,
      fun ip => Nat.le_add_right _ _, fun _ => ⟨task.ip, by simp⟩, fun hnone => absurd rfl (hnone task)⟩
    · rw [htot, htasks, hcnt.total, hlen]
    · rw [hbyIp, hcnt.byIp, ← hlive other, Nat.add_assoc, Nat.add_comm (panicked other)]
    · have hlimit := hcnt.limit
      rw [htasks]
      omega
    · have ho := hcnt.limitPerIp other
      have hone := hlive other
      omega

theorem counted_run (h : events.foldlM (Host.next limits) host = some host') (hcnt : Counted limits panicked host) :
    ∃ panicked', Counted limits panicked' host' ∧ (∀ ip, panicked ip ≤ panicked' ip) ∧
      ((∃ task, .joined task .panicked ∈ events) → ∃ ip, panicked ip < panicked' ip) ∧
      ((∀ task, .joined task .panicked ∉ events) → panicked' = panicked) := by
  induction events generalizing host panicked with
  | nil =>
    cases h
    exact ⟨panicked, hcnt, fun _ => le_rfl, by simp, fun _ => rfl⟩
  | cons event events ih =>
    rw [List.foldlM_cons] at h
    obtain ⟨host₁, hnext, hrest⟩ := Option.bind_eq_some_iff.1 h
    obtain ⟨panicked₁, hcnt₁, hle₁, hsome₁, hnone₁⟩ := counted_next hnext hcnt
    obtain ⟨panicked', hcnt', hle, hsome, hnone⟩ := ih hrest hcnt₁
    refine ⟨panicked', hcnt', fun ip => (hle₁ ip).trans (hle ip), ?_, fun hall => ?_⟩
    · rintro ⟨task, htask⟩
      rcases List.mem_cons.1 htask with heq | htask
      · obtain ⟨ip, hip⟩ := hsome₁ ⟨task, heq.symm⟩
        exact ⟨ip, hip.trans_le (hle ip)⟩
      · obtain ⟨ip, hip⟩ := hsome ⟨task, htask⟩
        exact ⟨ip, (hle₁ ip).trans_lt hip⟩
    · rw [hnone fun task htask => hall task (List.mem_cons_of_mem _ htask),
        hnone₁ fun task htask => hall task (htask ▸ List.mem_cons_self)]

end Counters

/-! ## Exact counters -/

/-- The counters are those of the live tasks, which are within the limits, and a client is refused only at a limit. -/
structure Host.Exact [Ord Ip] [TransOrd Ip] [DecidableEq Ip] (limits : HostLimits) (host : Host Ip) : Prop where
  total : host.activeTotal = host.sessions.length
  byIp : ∀ ip, host.activeByIp[ip]?.getD 0 = host.live ip
  keys : ∀ ip, ip ∈ host.activeByIp → 0 < host.live ip
  limit : host.sessions.length ≤ limits.maxConnections
  limitPerIp : ∀ ip, host.live ip ≤ limits.maxConnectionsPerIp
  refused : ∀ ip, host.admission limits ip ≠ .admitted →
    limits.maxConnections ≤ host.sessions.length ∨ limits.maxConnectionsPerIp ≤ host.live ip

section Exact
variable [Ord Ip] [TransOrd Ip] [DecidableEq Ip] {host : Host Ip} {panicked : Ip → Nat}

omit [DecidableEq Ip] in
theorem start_ok {isLoopback : Ip → Bool} {localAddr : Except String Ip}
    (h : Host.start isLoopback limits localAddr = .ok host) : host = {} := by
  unfold Host.start at h
  cases hv : (limits.validate : Except (HostError Ip) HostLimits) with
  | error error =>
    rw [hv] at h
    cases h
  | ok valid =>
    rw [hv] at h
    cases localAddr with
    | error error => cases h
    | ok address =>
      change (if (!isLoopback address) = true then _ else _) = Except.ok host at h
      split_ifs at h
      cases h
      rfl

theorem counted_start : Counted limits (fun _ => 0) ({} : Host Ip) where
  total := rfl
  byIp := by simp [counterEntry, Host.live]
  limit := Nat.zero_le _
  limitPerIp := fun _ => Nat.zero_le _

theorem exact_iff (hcnt : Counted limits panicked host) : host.Exact limits ↔ ∀ ip, panicked ip = 0 := by
  have hcount : ∀ ip, host.activeByIp[ip]?.getD 0 = host.live ip + panicked ip := by
    intro ip
    rw [hcnt.byIp, getD_counterEntry]
  constructor
  · intro hexact ip
    have hlive := hexact.byIp ip
    rw [hcount] at hlive
    omega
  · intro hnone
    have hbyIp : ∀ ip, host.activeByIp[ip]?.getD 0 = host.live ip := by
      intro ip
      rw [hcount, hnone, Nat.add_zero]
    refine ⟨hcnt.total, hbyIp, fun ip hmem => ?_, hcnt.limit, hcnt.limitPerIp, fun ip hrefused => ?_⟩
    · rw [ExtTreeMap.mem_iff_isSome_getElem?, hcnt.byIp, hnone, Nat.add_zero] at hmem
      unfold counterEntry at hmem
      split_ifs at hmem with hzero
      · cases hmem
      · exact Nat.pos_of_ne_zero hzero
    · unfold Host.admission at hrefused
      rw [hcnt.total, hbyIp] at hrefused
      split_ifs at hrefused with htot hper
      · exact .inl htot
      · exact .inr hper
      · exact absurd rfl hrefused

end Exact

/-- **Connection counts.** In a run of `run_host` with any limits the counters are exact in every state, the limits are never
exceeded and a client is refused only at a limit, just if no session task of the run panicked. -/
theorem connection_counts_iff [Ord Ip] [TransOrd Ip] [LawfulEqOrd Ip] [DecidableEq Ip] (isLoopback : Ip → Bool)
    (limits : HostLimits) (localAddr : Except String Ip) (events : List (HostEvent Ip)) (first last : Host Ip)
    (hstart : Host.start isLoopback limits localAddr = .ok first)
    (hrun : events.foldlM (Host.next limits) first = some last) :
    (∀ before host, before <+: events → before.foldlM (Host.next limits) first = some host → host.Exact limits) ↔
      ∀ task, .joined task .panicked ∉ events := by
  have hcounted : Counted limits (fun _ => 0) first := by
    rw [start_ok hstart]
    exact counted_start
  constructor
  · intro hexact task htask
    obtain ⟨panicked, hlast, -, hsome, -⟩ := counted_run hrun hcounted
    obtain ⟨ip, hip⟩ := hsome ⟨task, htask⟩
    have hzero := (exact_iff hlast).1 (hexact events last (List.prefix_refl _) hrun) ip
    omega
  · intro hnone before host hbefore hreached
    obtain ⟨panicked, hlast, -, -, hsame⟩ := counted_run hreached hcounted
    refine (exact_iff hlast).2 fun ip => ?_
    rw [hsame fun task htask => hnone task (hbefore.subset htask)]

/-! ## A small host -/

def smallHost : HostLimits := ⟨2, 1, ⟨1, 1, 1⟩, 1, 1, 1⟩

/-- The address `127.0.0.1`. -/
def localhost : UInt32 := 0x7f000001

/-- Once a task of an address has panicked, the address counts one task though none is live, and the host refuses it. -/
theorem panicked_address_refused :
    ∃ first last : Host UInt32, Host.start (· = localhost) smallHost (.ok localhost) = .ok first ∧
      [.accepted localhost, .joined ⟨1, localhost⟩ .panicked].foldlM (Host.next smallHost) first = some last ∧
      last.sessions = [] ∧ last.activeByIp[localhost]?.getD 0 = 1 ∧
      last.admission smallHost localhost = .rejectedPerIpLimit := by
  refine ⟨{}, _, rfl, rfl, rfl, rfl, rfl⟩

/-- A client that comes back after its session. -/
theorem connection_counts_return :
    ∃ last : Host UInt32, [.accepted localhost, .joined ⟨1, localhost⟩ (.returned {}), .accepted localhost].foldlM
        (Host.next smallHost) {} = some last ∧ last.Exact smallHost ∧ last.live localhost = 1 := by
  refine ⟨_, rfl, ?_, rfl⟩
  exact (connection_counts_iff (· = localhost) smallHost (.ok localhost)
    [.accepted localhost, .joined ⟨1, localhost⟩ (.returned {}), .accepted localhost] {} _ rfl rfl).2 (by simp)
    [.accepted localhost, .joined ⟨1, localhost⟩ (.returned {}), .accepted localhost] _ (List.prefix_refl _) rfl

end OmaChat.Server
