import OmaChat.Nostr.Checks
import OmaChat.Nostr.RelayList

/-!
# What the readers of relay lists accept

The conditions under which `discovery.rs` and `inbox.rs` accept a list. A list that was accepted is accepted at every later
time, and its age is the only thing that an inbox can be refused for then.
-/

namespace OmaChat.Nostr
open Wire

variable {event : SignedEvent} {eventLimits : EventLimits} {inbox : VerifiedDmInbox} {key : Bytes 32} {kind : UInt32}
  {limits : RelayDiscoveryLimits} {list : RelayList} {now : UInt64} {policy : DmInboxPolicy} {tagRelay : TagReader}
variable {p : Primitives} {urls : RelayUrlLibrary}

theorem parseRelayList_ok_iff :
    parseRelayList p urls kind tagRelay event now eventLimits limits = .ok list ↔
      Verified p event now eventLimits ∧ event.kind = kind ∧ validateLimits limits = .ok () ∧
        mergeTags urls tagRelay limits [] event.tags = .ok list.relays ∧ list.relays ≠ [] ∧
        list.publicKey = event.pubkey ∧ list.createdAt = event.createdAt := by
  unfold parseRelayList
  rw [then_ok_iff, refuse_ok_iff, then_ok_iff, bind_ok_iff, mapError_ok_iff, verify_ok_iff, not_not]
  refine and_congr_right fun _ => and_congr_right fun _ => and_congr_right fun _ => ?_
  constructor
  · rintro ⟨relays, hmerge, hlist⟩
    obtain ⟨hsome, hlist⟩ := refuse_ok_iff.1 hlist
    cases hlist
    exact ⟨hmerge, hsome, rfl, rfl⟩
  · rintro ⟨hmerge, hsome, hkey, htime⟩
    obtain ⟨publicKey, createdAt, relays⟩ := list
    cases hkey
    cases htime
    exact ⟨relays, hmerge, if_neg hsome⟩

theorem parseRelayList_publicKey
    (h : parseRelayList p urls kind tagRelay event now eventLimits limits = .ok list) : list.publicKey = event.pubkey := by
  obtain ⟨-, -, -, -, -, hkey, -⟩ := parseRelayList_ok_iff.1 h
  exact hkey

theorem verifyDmInbox_ok_iff {limits : EventLimits} :
    verifyDmInbox p urls event key now limits policy = .ok inbox ↔
      validatePolicy policy = .ok () ∧ ∃ list,
        parseNip17DmRelayList p urls event now limits ⟨policy.maxRelays, policy.maxUrlBytes⟩ = .ok list ∧
        list.publicKey = hexEncode key.val ∧ list.createdAt ≤ now ∧ now - list.createdAt ≤ policy.maximumAgeSeconds ∧
        (policy.requireTls = true → ∀ relay ∈ list.relays, secureOrLoopback urls relay.url = true) ∧
        inbox = ⟨hexEncode key.val, event.id, list.createdAt, list.relays.map (·.url), event⟩ := by
  unfold verifyDmInbox
  rw [then_ok_iff, bind_ok_iff]
  simp only [mapError_ok_iff, refuse_ok_iff, not_not, ne_eq, UInt64.not_lt, Except.ok.injEq, List.any_map, List.any_eq_true,
    Function.comp_apply, Bool.not_eq_true', not_and, not_exists, Bool.not_eq_false, eq_comm (a := inbox)]

/-! ## Later times -/

theorem Verified.later {later : UInt64} {limits : EventLimits} (h : Verified p event now limits)
    (hl : event.createdAt ≤ later) : Verified p event later limits :=
  ⟨h.size, le_satAdd (Nat.le_add_right_of_le (UInt64.le_iff_toNat_le.1 hl)), h.valid, h.id, h.signed⟩

section
variable (h : parseRelayList p urls kind tagRelay event now eventLimits limits = .ok list)
include h

theorem parseRelayList_later {later : UInt64} (hl : event.createdAt ≤ later) :
    parseRelayList p urls kind tagRelay event later eventLimits limits = .ok list := by
  obtain ⟨hvrf, hlist⟩ := parseRelayList_ok_iff.1 h
  exact parseRelayList_ok_iff.2 ⟨hvrf.later hl, hlist⟩

theorem createdAt_of_parseRelayList : list.createdAt = event.createdAt := by
  obtain ⟨-, -, -, -, -, -, htime⟩ := parseRelayList_ok_iff.1 h
  exact htime

end

theorem verifyDmInbox_later {later : UInt64} {limits : EventLimits}
    (h : verifyDmInbox p urls event key now limits policy = .ok inbox) (hl : event.createdAt ≤ later) :
    verifyDmInbox p urls event key later limits { policy with maximumAgeSeconds := UInt64.ofNat (2 ^ 64 - 1) } = .ok inbox := by
  obtain ⟨hpolicy, list, hlist, hkey, -, -, htls, hin⟩ := verifyDmInbox_ok_iff.1 h
  have htime := createdAt_of_parseRelayList hlist
  refine verifyDmInbox_ok_iff.2 ⟨?_, list, parseRelayList_later hlist hl, hkey, ?_, ?_, htls, hin⟩
  · unfold validatePolicy at hpolicy ⊢
    have hv := (refuse_ok_iff.1 hpolicy).1
    rw [if_neg]
    rintro (hage | hrest)
    · have hmax : UInt64.ofNat (2 ^ 64 - 1) ≠ 0 := by decide
      exact hmax hage
    · exact hv (.inr hrest)
  · rw [htime]
    exact hl
  · rw [UInt64.le_iff_toNat_le]
    exact Nat.le_sub_one_of_lt (UInt64.toNat_lt _)

end OmaChat.Nostr
