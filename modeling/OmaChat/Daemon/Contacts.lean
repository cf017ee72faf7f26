import OmaChat.Daemon.Progress

/-!
# The keys of the contacts

A peer is an npub, a hexadecimal key, a name that is resolved, or the name of a contact. A contact whose bytes are not the
x-coordinate of a point can be stored and never written to.

* `resolvePeer_valid_iff` : with valid contacts a peer resolves to valid keys only, exactly if it is not the npub of an
  invalid one;
* `contacts_valid` : if no request has such an npub as its peer, every contact is valid in every state of the actor.
-/

namespace OmaChat.Daemon
open Wire Effects Nostr Durable Transition

variable {c c' : Actor × World} {peer : String} {p : Primitives}

/-- The answers of the world, where `nip05::resolve_handle` resolves the names. -/
def Resolves (p : Primitives) : Answering Call.Answer World
  | .resolveHandle handle loopback, w, r, w' =>
    (∃ urls fromSlice fetch, r = resolveHandle urls fromSlice p.keyValid fetch handle loopback) ∧ w' = w
  | call, w, r, w' => Answers call w r w'

theorem within_resolves : Within (Resolves p) := by
  intro call w r w' h
  cases call
  case resolveHandle => exact h.2
  all_goals exact h

abbrev ResolvedStep : Actor × World → ChatLabel p → Actor × World → Prop := ChatStepIn (Resolves p)

variable {pubkey : Bytes 32}

/-! ## Peers -/

/-- The bytes of a contact's key are an x-only public key. -/
def ValidContact (p : Primitives) (contact : Contact) : Prop :=
  ∃ key, (hexDecode contact.pubkey).bind (Bytes.ofList? 32) = some key ∧ p.keyValid key = true

/-- The peer is not the npub of bytes that are no key. -/
def ValidPeer (p : Primitives) (peer : String) : Prop :=
  '@' ∉ (trim peer).toList → ∀ key, p.fromNpub (trim peer) = some key → p.keyValid key = true

theorem validContact_newContact (h : p.keyValid pubkey = true) (nip05 : Option String) :
    ValidContact p (newContact p pubkey nip05) := by
  refine ⟨pubkey, ?_, h⟩
  rw [newContact, hexDecode_hexEncode]
  exact Bytes.ofList?_val pubkey

theorem keyValid_of_resolveHandle {urls : UrlLibrary} {fromSlice : List UInt8 → Option Json} {keyValid : Bytes 32 → Bool}
    {fetch : DocumentUrl → Option (List UInt8)} {handle : String} {loopbackBase : Option String} {resolved : ResolvedNip05}
    (h : resolveHandle urls fromSlice keyValid fetch handle loopbackBase = .ok resolved) :
    keyValid resolved.publicKey = true := by
  obtain ⟨⟨name, domain⟩, -, h⟩ := bind_ok_iff.1 h
  obtain ⟨url, -, h⟩ := bind_ok_iff.1 h
  split at h
  · cases h
  · obtain ⟨key, hkey, h⟩ := bind_ok_iff.1 h
    cases h
    exact keyValid_of_publicKeyFromDocument hkey

theorem keyValid_of_resolvePeer {nip05 : Option String}
    (hcts : ∀ contact ∈ c.1.contacts, ValidContact p contact) (hpeer : ValidPeer p peer)
    (h : (resolvePeer p peer).Exec (Resolves p) c (.ok (pubkey, nip05)) c') : p.keyValid pubkey = true := by
  unfold resolvePeer at h
  dsimp only at h
  rw [Method.exec_get_bind] at h
  split at h
  · obtain ⟨r, w, ⟨⟨urls, fromSlice, fetch, hr⟩, -⟩, h⟩ := Method.exec_request_bind.1 h
    cases r with
    | error error =>
      obtain ⟨heq, -⟩ := Method.exec_throw.1 h
      cases heq
    | ok resolved =>
      obtain ⟨heq, -⟩ := Method.exec_pure.1 h
      cases heq
      exact keyValid_of_resolveHandle hr.symm
  rename_i hat
  split at h
  · rename_i key hkey
    obtain ⟨heq, -⟩ := Method.exec_pure.1 h
    cases heq
    exact hpeer hat _ hkey
  split at h
  · split at h
    · obtain ⟨heq, -⟩ := Method.exec_throw.1 h
      cases heq
    split at h
    · rename_i hv
      obtain ⟨heq, -⟩ := Method.exec_pure.1 h
      cases heq
      exact hv
    · obtain ⟨heq, -⟩ := Method.exec_throw.1 h
      cases heq
  split at h
  · obtain ⟨heq, -⟩ := Method.exec_throw.1 h
    cases heq
  rename_i contact hfind
  split at h
  · obtain ⟨heq, -⟩ := Method.exec_throw.1 h
    cases heq
  · rename_i key hkey
    obtain ⟨heq, -⟩ := Method.exec_pure.1 h
    cases heq
    obtain ⟨key', hkey', hv⟩ := hcts contact (List.mem_of_find?_eq_some hfind)
    rw [hkey'] at hkey
    cases hkey
    exact hv

theorem resolvePeer_valid_iff (hcts : ∀ contact ∈ c.1.contacts, ValidContact p contact) (peer : String) :
    (∀ pubkey nip05 c', (resolvePeer p peer).Exec (Resolves p) c (.ok (pubkey, nip05)) c' → p.keyValid pubkey = true) ↔
      ValidPeer p peer := by
  constructor
  · intro h hat key hkey
    exact h key none c (exec_resolvePeer hat hkey)
  · intro hpeer pubkey nip05 c' h
    exact keyValid_of_resolvePeer hcts hpeer h

/-! ## Contacts -/

def ChatLabel.peersValid : ChatLabel p → Prop
  | .request (.addContact peer) | .send peer _ _ => ValidPeer p peer
  | _ => True

def ContactsValid (p : Primitives) (c : Actor × World) : Prop :=
  (books c).contacts.All fun contacts => ∀ contact ∈ contacts, ValidContact p contact

theorem ContactsValid.of_sameBooks (h : ContactsValid p c) (hb : SameBooks c c') : ContactsValid p c' := by
  unfold ContactsValid
  rw [show books c' = books c from hb]
  exact h

theorem ContactsValid.addsPeer (h : ContactsValid p c) (hpeer : ValidPeer p peer)
    (hadds : AddsPeer p (Resolves p) peer c c') : ContactsValid p c' := by
  cases hadds with
  | same hb => exact h.of_sameBooks hb
  | adds hb hresolve hsaves =>
    obtain ⟨r, hs⟩ := hsaves.contacts
    have hv := keyValid_of_resolvePeer (h.of_sameBooks hb).memory hpeer hresolve
    refine hs.all h fun contact hct => ?_
    rcases List.mem_append.1 hct with hct | hct
    · exact h.memory contact hct
    · rw [List.mem_singleton.1 hct]
      exact validContact_newContact hv _

theorem ContactsValid.step {l : ChatLabel p} (h : ContactsValid p c) (hl : l.peersValid) (hstep : ResolvedStep c l c') :
    ContactsValid p c' := by
  -- the steps that add no contact keep, load or filter the contacts
  have ho (hnone : l.mayAddContact = false) : ContactsValid p c' := by
    obtain hsame | ⟨_, _, _, hloads⟩ | ⟨hadd, _⟩ | ⟨keep, _, _, hs⟩ :=
      contacts_cases (chatStep_books (hstep.mono within_resolves))
    · unfold ContactsValid
      rw [hsame]
      exact h
    · exact hloads.all h (by simp)
    · rw [hnone] at hadd
      cases hadd
    · exact hs.all h fun contact hct => h.memory contact (List.mem_filter.1 hct).1
  match l, hl, hstep, ho with
  | .request (.addContact peer), hl, ⟨_, x, hexec⟩, _ => exact h.addsPeer hl (addContact_peer p within_resolves hexec)
  | .send peer text none, hl, ⟨e, hexec⟩, _ => exact h.addsPeer hl (prepareSend_peer p within_resolves hexec)
  | .send peer text (some outgoing), hl, ⟨c₁, hexec, x, hsend⟩, _ =>
    have h₁ := h.addsPeer hl (prepareSend_peer p within_resolves hexec)
    rcases sendRumor_books p (hsend.mono within_resolves) with hb | hs
    · exact h₁.of_sameBooks hb
    · unfold ContactsValid
      rw [hs.contacts]
      exact h₁
  | .start _, _, _, ho | .deliver _ _, _, _, ho => exact ho rfl
  | .request .prepare, _, _, ho | .request (.removeContact _), _, _, ho | .request .listContacts, _, _, ho
  | .request .showRelays, _, _, ho | .request (.setRelays _), _, _, ho | .request .messages, _, _, ho
  | .request .reload, _, _, ho | .request .snapshot, _, _, ho | .request (.loopback _), _, _, ho
  | .request .shutdown, _, _, ho => exact ho rfl
  | .request (.send peer text), _, ⟨hne, _⟩, _ => exact absurd rfl (hne peer text)

def ValidStep (c : Actor × World) (l : ChatLabel p) (c' : Actor × World) : Prop := l.peersValid ∧ ResolvedStep c l c'

/-- **Every contact is a usable key,** in every state that the actor reaches from an empty or valid record, if no request has
the npub of an invalid key as its peer. In such a state a peer resolves to valid keys only, exactly if it is not such an
npub. -/
theorem contacts_valid {c₀ c : Actor × World} {relays : List String} {ls : List (ChatLabel p)}
    (hstored : ∀ s, c₀.2.contacts.stored = some s → ∀ contact ∈ s.value, ValidContact p contact)
    (hrun : Run ValidStep c₀ (.start relays :: ls) c) :
    (∀ contact ∈ c.1.contacts, ValidContact p contact) ∧
      (∀ s, c.2.contacts.stored = some s → ∀ contact ∈ s.value, ValidContact p contact) ∧
      ∀ peer, (∀ pubkey nip05 c', (resolvePeer p peer).Exec (Resolves p) c (.ok (pubkey, nip05)) c' →
        p.keyValid pubkey = true) ↔
        ValidPeer p peer := by
  cases hrun with
  | @cons _ c₁ _ _ _ hstart hrun =>
    have hstarted : ContactsValid p c₁ := by
      obtain ⟨⟨r, hloads⟩, -⟩ := chatStep_books (hstart.2.mono within_resolves)
      -- what was in memory before the start does not matter
      have hloads' : Mirror.Loads Absent r ⟨[], c₀.2.contacts⟩ (books c₁).contacts := ⟨hloads.memory, hloads.reads⟩
      exact hloads'.all ⟨by simp, hstored⟩ (by simp)
    have hvalid := hrun.invariant (I := ContactsValid p) (fun _ _ _ hstep h => h.step hstep.1 hstep.2) hstarted
    exact ⟨hvalid.memory, hvalid.stored, resolvePeer_valid_iff hvalid.memory⟩

/-! ### A run -/

/-- No x-coordinate of a point is this large. -/
def noKey : Bytes 32 := Bytes.replicate 32 255

def noKeyNpub : String := "npub1lllllllllllllllllllllllllllllllllllllllllllllllllllsq7lrjw"

/-- The primitives without secrets, where the bytes above are no key but have an npub. -/
def strict : Primitives :=
  { unsealed with
    keyValid := fun key => key ≠ noKey
    npub := fun key => if key = noKey then noKeyNpub else unsealed.npub key
    fromNpub := fun text => if text = noKeyNpub then some noKey else unsealed.fromNpub text }

def readRecord {V : Type} (d : Disk V) : Except StoreError (Option V) × Disk V :=
  match d.stored with
  | some ⟨v, .readable⟩ => (.ok (some v), { d with saved := some v, attempted := some v, outcomes := [] })
  | some ⟨_, .malformed⟩ => (.ok none, { d with saved := none, attempted := none, outcomes := [] })
  | some ⟨_, .unauthentic⟩ => (.error .io, { d with saved := none, attempted := none, outcomes := [] })
  | none => (.error .recordNotFound, { d with saved := none, attempted := none, outcomes := [] })

theorem reads_readRecord {V : Type} (d : Disk V) : Reads Absent d (readRecord d).1 (readRecord d).2 := by
  unfold readRecord
  split
  · rename_i hsto
    exact .value hsto
  · rename_i hsto
    exact .malformed hsto
  · exact .error fun habsent => (nomatch habsent)
  · rename_i hsto
    exact .error fun _ => hsto

def writeRecord {V : Type} (d : Disk V) (v : V) : Disk V :=
  ⟨some ⟨v, .readable⟩, some v, some v, d.outcomes ++ [.ok]⟩

/-- A world with Alice's identity and without a network. -/
def offline : (call : Call) → World → call.Answer × World
  | .read .identity, w => (.ok (some aliceKey), w)
  | .read .contacts, w => ((readRecord w.contacts).1, { w with contacts := (readRecord w.contacts).2 })
  | .read .messages, w => ((readRecord w.messages).1, { w with messages := (readRecord w.messages).2 })
  | .read .relays, w => ((readRecord w.relays).1, { w with relays := (readRecord w.relays).2 })
  | .write .identity _, w => (.ok (), w)
  | .write .contacts l, w => (.ok (), { w with contacts := writeRecord w.contacts l })
  | .write .messages l, w => (.ok (), { w with messages := writeRecord w.messages l })
  | .write .relays l, w => (.ok (), { w with relays := writeRecord w.relays l })
  | .now, w => (none, w)
  | .random _, w => (none, w)
  | .resolveHandle handle loopback, w =>
    (resolveHandle ⟨fun _ => false, fun _ => none⟩ (fun _ => none) strict.keyValid (fun _ => none) handle loopback, w)
  | .canonicalUrl _, w => (none, w)
  | .createDmRelayList _ _ _, w => (none, w)
  | .spawnPool _, w => (false, w)
  | .shutdownPool, w => ((), w)
  | .subscribePool _ _, w => ((), w)
  | .waitConnected, w => (false, w)
  | .publishPool _, w => (.error .connection, w)
  | .nextSequence, w => (0, w)
  | .publishHub _, w => ((), w)

theorem resolves_offline (call : Call) (w : World) : Resolves strict call w (offline call w).1 (offline call w).2 := by
  match call with
  | .read .contacts => exact ⟨_, reads_readRecord w.contacts, rfl⟩
  | .read .messages => exact ⟨_, reads_readRecord w.messages, rfl⟩
  | .read .relays => exact ⟨_, reads_readRecord w.relays, rfl⟩
  | .write .contacts l => exact ⟨_, .ok w.contacts l, rfl⟩
  | .write .messages l => exact ⟨_, .ok w.messages l, rfl⟩
  | .write .relays l => exact ⟨_, .ok w.relays l, rfl⟩
  | .resolveHandle _ _ => exact ⟨⟨⟨fun _ => false, fun _ => none⟩, fun _ => none, fun _ => none, rfl⟩, rfl⟩
  | .read .identity | .write .identity _ | .now | .random _ | .canonicalUrl _ | .createDmRelayList _ _ _ | .spawnPool _
  | .shutdownPool | .subscribePool _ _ | .waitConnected | .publishPool _ | .nextSequence | .publishHub _ => rfl

def fresh : Actor × World :=
  (⟨[], [], [], false, [], none, none, none⟩,
    ⟨⟨none, none, none, []⟩, ⟨none, none, none, []⟩, ⟨none, none, none, []⟩⟩)

def firstStart : Actor × World := ((start strict []).run offline fresh).2

def contactAdded (npub : String) : Actor × World := ((handle strict (.addContact npub)).run offline firstStart).2

theorem exec_offline {α : Type} (m : ChatMethod α) (c : Actor × World) :
    m.Exec (Resolves strict) c (m.run offline c).1 (m.run offline c).2 := Prog.exec_run resolves_offline _ _

theorem firstStart_step : ResolvedStep (p := strict) fresh (.start []) firstStart := ⟨_, exec_offline (start strict []) fresh⟩

theorem contactAdded_step (npub : String) :
    ResolvedStep (p := strict) firstStart (.request (.addContact npub)) (contactAdded npub) :=
  ⟨fun _ _ h => ChatRequest.noConfusion h, _, exec_offline (handle strict (.addContact npub)) firstStart⟩

/-- Carol's key is valid. -/
theorem carol_valid :
    (contactAdded carolNpub).1.contacts = [carolContact] ∧
      ∀ contact ∈ (contactAdded carolNpub).1.contacts, ValidContact strict contact := by
  have hpeer : ValidPeer strict carolNpub := by
    intro _ key hkey
    have hcarol : strict.fromNpub (trim carolNpub) = some carolKey := by decide +kernel
    rw [hcarol] at hkey
    cases hkey
    decide +kernel
  have hrun : Run (ValidStep (p := strict)) fresh [.start [], .request (.addContact carolNpub)] (contactAdded carolNpub) :=
    .cons ⟨trivial, firstStart_step⟩ (.cons ⟨hpeer, contactAdded_step carolNpub⟩ (.nil _))
  exact ⟨by decide +kernel, (contacts_valid (fun s hs => by cases hs) hrun).1⟩

/-- The npub of bytes that are no key becomes a contact, in memory and on disk. -/
theorem noKey_contact :
    ∃ contact, Run (ResolvedStep (p := strict)) fresh [.start [], .request (.addContact noKeyNpub)] (contactAdded noKeyNpub) ∧
      (contactAdded noKeyNpub).1.contacts = [contact] ∧
      (contactAdded noKeyNpub).2.contacts.stored.map Sealed.value = some [contact] ∧ ¬ ValidContact strict contact := by
  refine ⟨⟨hexEncode noKey.val, noKeyNpub, none, noKeyNpub⟩,
    .cons firstStart_step (.cons (contactAdded_step noKeyNpub) (.nil _)), by decide +kernel, by decide +kernel, ?_⟩
  rintro ⟨key, hkey, hvalid⟩
  rw [hexDecode_hexEncode, Option.bind_some, Bytes.ofList?_val, Option.some.injEq] at hkey
  exact of_decide_eq_true hvalid hkey.symm

end OmaChat.Daemon
