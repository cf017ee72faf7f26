import OmaChat.Lib.Json
import OmaChat.Lib.Text

/-!
# The state of the window

`snapshot` and `event` of `ChatState.js`: what the window keeps of the daemon's answer to its `Subscribe`, and how each event
changes it. A value that is read is `none` where the script has `undefined`; a function gives `none` where it throws.

* `event_messages` : an event of the messages replaces the message with its id, or adds one and drops the oldest beyond 128;
* `event_other` : any other event leaves the messages as they are.
-/

namespace OmaChat.Desktop
open Wire

/-! ## Values of the script -/

def truthy : Json → Bool
  | .null | .bool false | .num 0 | .str "" => false
  | _ => true

/-- `value || default` -/
def orElse (value : Option Json) (default : Json) : Json := (value.filter truthy).getD default

/-- `a === b`: objects and arrays that were parsed apart are never the same. -/
def strictEq : Option Json → Option Json → Bool
  | none, none => true
  | some .null, some .null => true
  | some (.bool a), some (.bool b) => a == b
  | some (.num a), some (.num b) => a == b
  | some (.str a), some (.str b) => a == b
  | _, _ => false

/-- `value.key` -/
def property (key : String) : Json → Option (Option Json)
  | .null => none
  | value => some (value.field key)

/-- `array.findIndex(test)` on the items of an array, where `test` may throw. -/
def findIndex (test : Json → Option Bool) : List Json → Option (Option Nat)
  | [] => some none
  | item :: items => do
    if ← test item then some (some 0)
    else
      let index ← findIndex test items
      some (index.map (· + 1))

mutual

/-- `String(value)` -/
def toText : Json → String
  | .null => "null"
  | .bool true => "true"
  | .bool false => "false"
  | .num n => toString n
  | .str s => s
  | .arr items => ",".intercalate (toTexts items)
  | .obj _ => "[object Object]"

/-- The texts of the items of an array, where `null` is empty. -/
def toTexts : List Json → List String
  | [] => []
  | .null :: items => "" :: toTexts items
  | item :: items => toText item :: toTexts items

end

/-! ## The state -/

/-- The state, as far as `snapshot` and `event` read or write it. -/
structure ChatState where
  ready : Bool
  notice : String
  npub : Json
  pubkey : Json
  relays : Json
  contacts : Json
  messages : Json
  selected : Option Json
  hosted : Json

def ChatState.create : ChatState where
  ready := false
  notice := ""
  npub := .str ""
  pubkey := .str ""
  relays := .arr []
  contacts := .arr []
  messages := .arr []
  selected := some (.str "")
  hosted := .obj []

namespace ChatState

/-- `if (state.contacts.length) state.selected = state.contacts[0].pubkey` -/
def selectFirst (state : ChatState) : Option ChatState :=
  match state.contacts with
  | .arr (contact :: _) => do
    let pubkey ← property "pubkey" contact
    some { state with selected := pubkey }
  -- the first character of a text has no key
  | .str _ => some { state with selected := none }
  | .obj fields =>
    if ((fields.lookup "length").any truthy) then do
      let contact ← fields.lookup "0"
      let pubkey ← property "pubkey" contact
      some { state with selected := pubkey }
    else some state
  | .arr [] | .null | .bool _ | .num _ => some state

/-- `snapshot` up to the choice of a contact. -/
def fill (state : ChatState) (data : Json) : ChatState :=
  let identity := orElse (data.field "identity") (.obj [])
  { state with
    ready := true
    notice := ""
    relays := orElse (data.field "relays") (.arr [])
    contacts := orElse (data.field "contacts") (.arr [])
    messages := orElse (data.field "messages") (.arr [])
    npub := orElse (identity.field "npub") (.str "")
    pubkey := orElse (identity.field "pubkey") (.str "")
    hosted := orElse (((data.field "status").filter truthy).bind (Json.field "hosted")) (.obj []) }

def snapshot (state : ChatState) (data : Json) : Option ChatState :=
  match data with
  | .null => none
  | data =>
    let state := state.fill data
    if state.selected.any truthy then some state else state.selectFirst

def maxShown : Nat := 128

/-- The branch of `event` for a message, on the items of `state.messages`. -/
def putMessage (message : Json) (messages : List Json) : Option (List Json) := do
  let index ← findIndex (fun existing => (property "id" existing).map (strictEq · (message.field "id"))) messages
  let messages := match index with
    | some index => messages.set index message
    | none => messages ++ [message]
  some (if maxShown < messages.length then messages.tail else messages)

/-- `String(conversation).replace(/^dm:/, "")` -/
def conversationPubkey (conversation : Json) : String :=
  let text := toText conversation
  if text.startsWith "dm:" then String.ofList (text.toList.drop 3) else text

/-- The branch of `event` for a conversation, on the items of `state.contacts`. -/
def putContact (conversation : Json) (name : Option Json) (contacts : List Json) : Option (List Json) := do
  let pubkey := conversationPubkey conversation
  let index ← findIndex (fun contact => (property "pubkey" contact).map (strictEq · (some (.str pubkey)))) contacts
  some (if index.isSome then contacts
    else contacts ++ [.obj [("pubkey", .str pubkey), ("display", orElse name (.str pubkey)), ("npub", .str "")]])

/-- The items of an array; the methods of an array throw on anything else. -/
def items : Json → Option (List Json)
  | .arr items => some items
  | _ => none

def event (state : ChatState) (data : Json) : Option ChatState :=
  if !truthy data then some state
  else
    match (data.field "payload").filter truthy with
    | none => some state
    | some payload =>
      let topic := data.field "topic"
      if strictEq topic (some (.str "messages")) then do
        let messages ← items state.messages
        let messages ← putMessage payload messages
        some { state with messages := .arr messages }
      else if strictEq topic (some (.str "conversations")) && (payload.field "conversation").any truthy then do
        let conversation ← payload.field "conversation"
        let contacts ← items state.contacts
        let contacts ← putContact conversation (payload.field "name") contacts
        some { state with contacts := .arr contacts }
      else if strictEq topic (some (.str "status")) then
        some { state with
          hosted := orElse (payload.field "hosted") state.hosted
          npub := orElse (((payload.field "nostr").filter truthy).bind (Json.field "npub")) state.npub }
      else some state

end ChatState

/-! ## What an event does to the lists -/

theorem property_of_ne_null (key : String) {value : Json} (h : value ≠ .null) :
    property key value = some (value.field key) := by
  cases value with
  | null => exact absurd rfl h
  | _ => rfl

variable {l : List Json}

theorem findIndex_eq {test : Json → Option Bool} {f : Json → Bool} (h : ∀ x ∈ l, test x = some (f x)) :
    findIndex test l = some (l.findIdx? f) := by
  induction l with
  | nil => rfl
  | cons x l ih =>
    rw [findIndex, h x List.mem_cons_self, ih fun y hy => h y (List.mem_cons_of_mem _ hy), List.findIdx?_cons]
    cases f x <;> rfl

theorem findIndex_property (key : String) (f : Option Json → Bool) (h : .null ∉ l) :
    findIndex (fun x => (property key x).map f) l = some (l.findIdx? fun x => f (x.field key)) := by
  apply findIndex_eq
  intro x hx
  rw [property_of_ne_null key fun hnull => h (hnull ▸ hx)]
  rfl

namespace ChatState
variable {state : ChatState} {data payload : Json}

/-- The contacts are an array without `null`, on which no function here throws. -/
def ContactsReadable (state : ChatState) : Prop := ∃ contacts, state.contacts = .arr contacts ∧ .null ∉ contacts

variable {contacts messages : List Json}

theorem event_messages (hdata : truthy data) (htopic : data.field "topic" = some (.str "messages"))
    (hpay : data.field "payload" = some payload) (htruthy : truthy payload)
    (hmsgs : state.messages = .arr messages) :
    state.event data = (putMessage payload messages).map fun messages => { state with messages := .arr messages } := by
  unfold event
  rw [hdata, hpay, Option.filter_some_pos htruthy, htopic, hmsgs]
  simp only [strictEq, items, BEq.rfl, Bool.not_true, Bool.false_eq_true, if_true, if_false, Option.bind_eq_bind,
    Option.bind_some]
  cases putMessage payload messages <;> rfl

theorem selectFirst_eq (h : state.contacts = .arr contacts) (hnull : .null ∉ contacts) :
    ∃ selected, state.selectFirst = some { state with selected := selected } := by
  obtain ⟨ready, notice, npub, pubkey, relays, _, messages, selected, hosted⟩ := state
  subst h
  cases contacts with
  | nil => exact ⟨selected, rfl⟩
  | cons contact rest =>
    have hct : contact ≠ .null := fun heq => hnull (heq ▸ List.mem_cons_self)
    refine ⟨contact.field "pubkey", ?_⟩
    simp [selectFirst, property_of_ne_null _ hct]

theorem snapshot_lists (state : ChatState)
    (hmsgs : data.field "messages" = some (.arr messages)) (hcts : data.field "contacts" = some (.arr contacts))
    (hnull : .null ∉ contacts) :
    ∃ shown, state.snapshot data = some shown ∧ shown.messages = .arr messages ∧ shown.ContactsReadable := by
  have hfill : (state.fill data).messages = .arr messages ∧ (state.fill data).contacts = .arr contacts := by
    rw [fill, hmsgs, hcts]
    exact ⟨rfl, rfl⟩
  unfold snapshot
  split
  · cases hmsgs
  dsimp only
  split
  · exact ⟨_, rfl, hfill.1, contacts, hfill.2, hnull⟩
  · obtain ⟨selected, hsel⟩ := selectFirst_eq hfill.2 hnull
    exact ⟨_, hsel, hfill.1, contacts, hfill.2, hnull⟩

theorem putContact_readable (conversation : Json) (name : Option Json) (h : .null ∉ contacts) :
    ∃ contacts', putContact conversation name contacts = some contacts' ∧ .null ∉ contacts' := by
  unfold putContact
  dsimp only
  rw [findIndex_property _ _ h]
  refine ⟨_, rfl, ?_⟩
  split
  · exact h
  · simp [h]

theorem event_other {topic : String} (htopic : data.field "topic" = some (.str topic)) (hne : topic ≠ "messages")
    (hcts : state.ContactsReadable) :
    ∃ state', state.event data = some state' ∧ state'.messages = state.messages ∧ state'.ContactsReadable := by
  have ho : strictEq (data.field "topic") (some (.str "messages")) = false := by
    rw [htopic]
    exact beq_eq_false_iff_ne.2 hne
  have hsame : ∃ state', some state = some state' ∧ state'.messages = state.messages ∧ state'.ContactsReadable :=
    ⟨state, rfl, rfl, hcts⟩
  unfold event
  split
  · exact hsame
  split
  · exact hsame
  rename_i payload hpay
  dsimp only
  rw [ho, if_neg Bool.false_ne_true]
  split
  · rename_i hconversation
    obtain ⟨contacts, harr, hnull⟩ := hcts
    obtain ⟨conversation, hf, -⟩ := (Option.any_eq_true _ _).1 (Bool.and_eq_true_iff.1 hconversation).2
    obtain ⟨contacts', hput, hnull'⟩ := putContact_readable conversation (payload.field "name") hnull
    refine ⟨{ state with contacts := .arr contacts' }, ?_, rfl, contacts', rfl, hnull'⟩
    rw [hf, harr]
    simp [items, hput]
  split
  · exact ⟨_, rfl, rfl, hcts⟩
  · exact hsame

end ChatState

end OmaChat.Desktop
