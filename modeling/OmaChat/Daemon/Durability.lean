import OmaChat.Daemon.History

/-!
# Memory and disk

The contacts and the messages are loaded when the actor starts; every change is made in memory and then saved.

* `memory_follows_saved` : in every state that the actor reaches, a list in memory is the one last saved if its last write
  succeeded. The first write that fails leaves the change in memory (`failed_save_kept_in_memory`).
* `unreadable_record_kept_iff` : a record that could not be loaded starts out as the empty list, and is kept as long as every
  write of it fails. The first one that does not fail loses what is not in memory (`unreadable_record_overwritten`).
-/

namespace OmaChat.Daemon
open Wire Effects Nostr Durable Transition

variable {p : Primitives}

variable {c c' : Actor × World} {l : ChatLabel p} {ls : List (ChatLabel p)}

/-! ## What a step does to a list -/

/-- Only a history that is full can be the same after a message came and the oldest one went. -/
def HasRoom (messages : List StoredMessage) : Prop := messages.length < maxMessages

theorem contacts_step (h : ChatStep c l c') :
    Mirror.Step Absent (fun _ => True) (∃ relays, l = .start relays) (books c).contacts (books c').contacts := by
  obtain hsame | ⟨relays, hl, r, hloads⟩ | ⟨_, contact, r, hs⟩ | ⟨keep, hkeep, r, hs⟩ :=
    contacts_cases (chatStep_books h)
  · exact .same hsame
  · exact .loads ⟨relays, hl⟩ r hloads
  · exact .saves _ r (fun _ => by simp) hs
  · exact .saves _ r (fun _ => hkeep) hs

theorem messages_step (h : ChatStep c l c') :
    Mirror.Step Absent HasRoom (∃ relays, l = .start relays) (books c).messages (books c').messages := by
  have hpush (message : StoredMessage) (hroom : HasRoom (books c).messages.memory) :
      Window.push maxMessages (books c).messages.memory message ≠ (books c).messages.memory := by
    rw [Window.push, Window.evict, if_neg (Nat.ne_of_lt hroom)]
    simp
  obtain hsame | ⟨relays, hl, r, hloads⟩ | ⟨_, _, _, _, r, hs⟩ | ⟨_, _, _, _, r, hs⟩ :=
    messages_cases (chatStep_books h)
  · exact .same hsame
  · exact .loads ⟨relays, hl⟩ r hloads
  · exact .saves _ r (hpush _) hs
  · exact .saves _ r (hpush _) hs

/-! ## What was saved -/

structure Tracking (b : Books) : Prop where
  contacts : b.contacts.Tracks
  messages : b.messages.Tracks

theorem tracking_start {relays : List String} (h : ChatStep (p := p) c (.start relays) c') : Tracking (books c') := by
  obtain ⟨⟨_, hc⟩, _, hm⟩ := chatStep_books h
  exact ⟨hc.tracks, hm.tracks⟩

theorem tracking_step (h : ChatStep c l c') (hc : Tracking (books c)) : Tracking (books c') :=
  ⟨(contacts_step h).tracks hc.contacts, (messages_step h).tracks hc.messages⟩

/-- **In every state that the actor reaches, a list in memory is the one that was last saved (or loaded) if its last write
since the load succeeded, or there was none. If that write failed, and is the first that did, the lists differ:** the
contacts always, the messages unless the history is full. -/
theorem memory_follows_saved {c₀ c : Actor × World} {relays : List String} {ls : List (ChatLabel p)}
    (hrun : Run ChatStep c₀ (.start relays :: ls) c) :
    (c.2.contacts.LastOk → c.1.contacts = (books c).contacts.saved) ∧
      (c.2.contacts.FirstFailure → c.1.contacts ≠ (books c).contacts.saved) ∧
      (c.2.messages.LastOk → c.1.messages = (books c).messages.saved) ∧
      (c.2.messages.FirstFailure → HasRoom (books c).messages.saved → c.1.messages ≠ (books c).messages.saved) := by
  cases hrun with
  | cons hstart hrun =>
    obtain ⟨⟨_, hcontacts⟩, _, hmessages⟩ := chatStep_books hstart
    have hc := hrun.invariant (I := fun c => (books c).contacts.Follows fun _ => True)
      (fun _ _ _ hstep => (contacts_step hstep).follows) hcontacts.follows
    have hm := hrun.invariant (I := fun c => (books c).messages.Follows HasRoom)
      (fun _ _ _ hstep => (messages_step hstep).follows) hmessages.follows
    exact ⟨hc.agrees, fun hfails => hc.differs hfails trivial, hm.agrees, hm.differs⟩

theorem adds_carol_afterStart {r : Except StoreError Unit} {d : Disk (List Contact)}
    (hsave : Writes (afterStart [] []).2.contacts [bobContact, carolContact] r d) :
    Run (ChatStep (p := unsealed)) atRest [.start [], .request (.addContact carolNpub)]
      (added (afterStart [] []) carolContact d) :=
  .cons start_atRest <| .cons
    (adds_carol (c := afterStart [] []) (ready_started _ _ _ _) (List.Subset.refl _) (by decide) hsave) (.nil _)

/-- Alice adds Carol, and both contacts are saved. -/
theorem memory_follows_saved_after_addition :
    ∃ c, Run (ChatStep (p := unsealed)) atRest [.start [], .request (.addContact carolNpub)] c ∧
      c.1.contacts = [bobContact, carolContact] ∧ c.1.contacts = (books c).contacts.saved := by
  have hrun := adds_carol_afterStart (.ok _ _)
  refine ⟨_, hrun, rfl, (memory_follows_saved hrun).1 ?_⟩
  simp [Disk.LastOk, added]

/-- Alice adds Carol, the save fails, and Carol stays in memory. -/
theorem failed_save_kept_in_memory :
    ∃ c, Run (ChatStep (p := unsealed)) atRest [.start [], .request (.addContact carolNpub)] c ∧
      c.1.contacts = [bobContact, carolContact] ∧ (books c).contacts.saved = [bobContact] :=
  ⟨_, adds_carol_afterStart (.before _ _ StoreError.io), rfl, rfl⟩

/-! ## What could not be loaded -/

/-- A step that goes on, without a start, between states with `P`. -/
def GoesOn (P : Actor × World → Actor × World → Prop) (c : Actor × World) (l : ChatLabel p) (c' : Actor × World) : Prop :=
  ChatStep c l c' ∧ (¬ ∃ relays, l = .start relays) ∧ P c c'

section Blank
variable {V : Type} {mirror : Actor × World → Mirror V} {Room : List V → Prop}
  {P : Actor × World → Actor × World → Prop}
  (hsteps : ∀ ⦃c l c'⦄, ChatStep (p := p) c l c' →
    Mirror.Step Absent Room (∃ relays, l = .start relays) (mirror c) (mirror c')) (hrun : Run (GoesOn P) c ls c')
include hsteps hrun

variable {s : Sealed (List V)}

theorem stored_of_unreplaced (hsto : (mirror c).disk.stored = some s) :
    (mirror c').disk.Unreplaced → (mirror c').disk.stored = some s :=
  hrun.invariant (I := fun c => (mirror c).disk.Unreplaced → (mirror c).disk.stored = some s)
    (fun _ _ _ hstep => (hsteps hstep.1).kept hstep.2.1) fun _ => hsto

theorem lacks_of_blank {x : V} (hblank : (mirror c).memory = []) (hnone : (mirror c).disk.outcomes = [])
    (hP : ∀ c c', P c c' → x ∈ (mirror c').memory → x ∈ (mirror c).memory) :
    ¬ (mirror c').disk.Unreplaced → ∀ s, (mirror c').disk.stored = some s → x ∉ s.value := by
  have hfirst : (mirror c).disk.Unreplaced := by simp [Disk.Unreplaced, hnone]
  refine (hrun.invariant (I := fun c => x ∉ (mirror c).memory ∧
    (¬ (mirror c).disk.Unreplaced → ∀ s, (mirror c).disk.stored = some s → x ∉ s.value)) ?_ ?_).2
  · intro c l c' hstep hc
    have hx : x ∉ (mirror c').memory := fun hx => hc.1 (hP c c' hstep.2.2 hx)
    exact ⟨hx, (hsteps hstep.1).lacks hstep.2.1 hx hc.2⟩
  · exact ⟨by simp [hblank], fun hreplaced => absurd hfirst hreplaced⟩

theorem holds_iff_unreplaced {r : Except StoreError (Option (List V))} {m : Mirror V} (hloads : m.Loads Absent r (mirror c))
    (hunread : (mirror c).disk.saved = none) (hs : m.disk.stored = some s) :
    ((mirror c').disk.Unreplaced → (mirror c').disk.stored = some s) ∧
      ∀ x ∈ s.value, (∀ c c', P c c' → x ∈ (mirror c').memory → x ∈ (mirror c).memory) →
        ((mirror c').Holds s.value ↔ (mirror c').disk.Unreplaced) := by
  obtain ⟨hblank, hsame⟩ := hloads.blank hunread
  have hkept := stored_of_unreplaced hsteps hrun (hsame.trans hs)
  refine ⟨hkept, fun x hx hP => ⟨fun ⟨s', hs', hall⟩ => ?_, fun hfailed => ⟨s, hkept hfailed, fun _ h => h⟩⟩⟩
  by_contra hreplaced
  exact lacks_of_blank hsteps hrun hblank hloads.reads.outcomes hP hreplaced s' hs' (hall x hx)

end Blank

/-- **What becomes of a record that exists and cannot be loaded,** in every run of steps that go on. As long as every write
of it fails before the record is replaced, the record is the one that was there; and if the run's steps, which have `P`, do
not add one of its entries, it has all its entries exactly as long. -/
theorem unreadable_record_kept_iff {c₀ c₁ c : Actor × World} {relays : List String} {ls : List (ChatLabel p)}
    {P : Actor × World → Actor × World → Prop} (hstart : ChatStep (p := p) c₀ (.start relays) c₁)
    (hrun : Run (GoesOn P) c₁ ls c) :
    (∀ s, c₀.2.contacts.stored = some s → c₁.2.contacts.saved = none →
      (c.2.contacts.Unreplaced → c.2.contacts.stored = some s) ∧
        ∀ x ∈ s.value, (∀ c c', P c c' → x ∈ c'.1.contacts → x ∈ c.1.contacts) →
          ((books c).contacts.Holds s.value ↔ c.2.contacts.Unreplaced)) ∧
      ∀ s, c₀.2.messages.stored = some s → c₁.2.messages.saved = none →
        (c.2.messages.Unreplaced → c.2.messages.stored = some s) ∧
          ∀ x ∈ s.value, (∀ c c', P c c' → x ∈ c'.1.messages → x ∈ c.1.messages) →
            ((books c).messages.Holds s.value ↔ c.2.messages.Unreplaced) := by
  obtain ⟨⟨_, hcontacts⟩, _, hmessages⟩ := chatStep_books hstart
  refine ⟨fun s hs hunread => ?_, fun s hs hunread => ?_⟩
  · exact holds_iff_unreplaced (fun _ _ _ => contacts_step) hrun hcontacts hunread hs
  · exact holds_iff_unreplaced (fun _ _ _ => messages_step) hrun hmessages hunread hs

/-- Alice's daemon before its start, when the record of the contacts no longer authenticates. -/
def damaged : Actor × World :=
  (atRest.1, { atRest.2 with contacts := ⟨some ⟨[bobContact], .unauthentic⟩, none, none, []⟩ })

def afterDamage : Actor × World :=
  (started (aliceSecret [] []) aliceRelays [] [], { (afterStart [] []).2 with contacts := damaged.2.contacts })

theorem start_damaged : ChatStep (p := unsealed) damaged (.start []) afterDamage := by
  have hrs : Reads Absent damaged.2.relays (.ok (some aliceRelays)) afterDamage.2.relays := .value rfl
  have hcts : Reads Absent damaged.2.contacts (.error .authentication) afterDamage.2.contacts :=
    .error fun h => StoreError.noConfusion h
  have hmsgs : Reads Absent damaged.2.messages (.error .recordNotFound) afterDamage.2.messages := .error fun _ => rfl
  exact ⟨.ok (), (exec_start (aliceSecret [] []) hrs hcts hmsgs (List.cons_ne_nil _ _)).mono fun _ _ _ _ h => h.2⟩

theorem bob_ne_carol : bobContact ≠ carolContact := by
  intro h
  have hkeys : bobKey ≠ carolKey := by decide
  exact hkeys (hexEncode_val_inj (congrArg Contact.pubkey h))

theorem adds_carol_afterDamage {r : Except StoreError Unit} {d : Disk (List Contact)}
    (hsave : Writes damaged.2.contacts [carolContact] r d) :
    ChatStep (p := unsealed) afterDamage (.request (.addContact carolNpub))
      (added afterDamage carolContact d) :=
  adds_carol (c := afterDamage) (ready_started _ _ _ _) (List.nil_subset _) (by decide) hsave

/-- A save that fails leaves the record. -/
theorem unreadable_record_kept_failed_save :
    ∃ c', ChatStep (p := unsealed) damaged (.start []) afterDamage ∧
      Run (GoesOn fun c c' => bobContact ∈ c'.1.contacts → bobContact ∈ c.1.contacts) afterDamage
        [ChatLabel.request (p := unsealed) (.addContact carolNpub)] c' ∧ (books c').contacts.Holds [bobContact] := by
  have hadds := adds_carol_afterDamage (.before damaged.2.contacts [carolContact] StoreError.io)
  have hstep : GoesOn (fun c c' => bobContact ∈ c'.1.contacts → bobContact ∈ c.1.contacts) afterDamage _ _ :=
    ⟨hadds, by simp, fun hbob => absurd (List.mem_singleton.1 hbob) bob_ne_carol⟩
  have hrun := Run.cons hstep (.nil _)
  have hkept := (unreadable_record_kept_iff start_damaged hrun).1 ⟨[bobContact], .unauthentic⟩ rfl rfl
  refine ⟨_, start_damaged, hrun, (hkept.2 bobContact (List.mem_singleton_self _) fun _ _ h => h).2 ?_⟩
  simp [Disk.Unreplaced, added, damaged]

/-- Alice's contacts cannot be authenticated when her daemon starts; she adds Carol, and Bob is gone. -/
theorem unreadable_record_overwritten :
    ∃ c', ChatStep (p := unsealed) damaged (.start []) afterDamage ∧
      ChatStep (p := unsealed) afterDamage (.request (.addContact carolNpub)) c' ∧
      c'.2.contacts.stored = some ⟨[carolContact], .readable⟩ ∧ ¬ (books c').contacts.Holds [bobContact] := by
  have hadds := adds_carol_afterDamage (.ok damaged.2.contacts [carolContact])
  refine ⟨_, start_damaged, hadds, rfl, ?_⟩
  rintro ⟨s, hs, hall⟩
  rw [Option.some.inj hs.symm] at hall
  exact bob_ne_carol (List.mem_singleton.1 (hall bobContact (List.mem_singleton_self _)))

end OmaChat.Daemon
