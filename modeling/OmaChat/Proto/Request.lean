import OmaChat.Lib.Serde
import OmaChat.Proto.Ipc

/-!
# Requests of the line protocol

`ipc.rs`: a request is written through `FlatRequestRef`, which flattens its command into it, and read through
`StrictRequestWire`, which has a record for every method. `fromJson_json` : what is written is read back, whatever the command
and its texts.
-/

namespace OmaChat.Proto
open Wire

inductive Command where
  | hello (minimumVersion maximumVersion : UInt16)
  | status
  | fingerprint
  | identityShow
  | identityExport
  | identityGenerate
  | identityImport (nsec : String)
  | requestPanicConfirmation
  | panic (confirmation : String)
  | subscribe (topics : List Topic)
  | hostedClaimHandle (handle : String)
  | hostedResolveHandle (handle : String)
  | hostedBindNostr
  | hostedUnbindNostr
  | chatPrepare
  | contactsAdd (peer : String)
  | contactsRemove (npub : String)
  | contactsList
  | relaysShow
  | relaysSet (relays : List String)
  | send (peer text : String)
  | messages
  deriving DecidableEq

structure Request where
  version : UInt16
  id : String
  command : Command
  deriving DecidableEq

/-! ## Writing -/

def Command.method : Command → String
  | .hello _ _ => "hello"
  | .status => "status"
  | .fingerprint => "fingerprint"
  | .identityShow => "identity-show"
  | .identityExport => "identity-export"
  | .identityGenerate => "identity-generate"
  | .identityImport _ => "identity-import"
  | .requestPanicConfirmation => "request-panic-confirmation"
  | .panic _ => "panic"
  | .subscribe _ => "subscribe"
  | .hostedClaimHandle _ => "hosted-claim-handle"
  | .hostedResolveHandle _ => "hosted-resolve-handle"
  | .hostedBindNostr => "hosted-bind-nostr"
  | .hostedUnbindNostr => "hosted-unbind-nostr"
  | .chatPrepare => "chat-prepare"
  | .contactsAdd _ => "contacts-add"
  | .contactsRemove _ => "contacts-remove"
  | .contactsList => "contacts-list"
  | .relaysShow => "relays-show"
  | .relaysSet _ => "relays-set"
  | .send _ _ => "send"
  | .messages => "messages"

def Command.params : Command → Option (List (String × Json))
  | .hello minimumVersion maximumVersion =>
    some [("minimum_version", .num minimumVersion.toNat), ("maximum_version", .num maximumVersion.toNat)]
  | .identityImport nsec => some [("nsec", .str nsec)]
  | .panic confirmation => some [("confirmation", .str confirmation)]
  | .subscribe topics => some [("topics", .arr (topics.map fun topic => .str topic.name))]
  | .hostedClaimHandle handle | .hostedResolveHandle handle => some [("handle", .str handle)]
  | .contactsAdd peer => some [("peer", .str peer)]
  | .contactsRemove npub => some [("npub", .str npub)]
  | .relaysSet relays => some [("relays", .arr (relays.map .str))]
  | .send peer text => some [("peer", .str peer), ("text", .str text)]
  | _ => none

/-- `FlatRequestRef` -/
def Request.json (request : Request) : Json :=
  .obj ([("version", .num request.version.toNat), ("id", .str request.id), ("method", .str request.command.method)] ++
    match request.command.params with
    | some params => [("params", .obj params)]
    | none => [])

/-! ## Reading -/

/-- A variant of `StrictRequestWire` without parameters -/
def bare (command : Command) (content : Json) : Option Request := do
  let [version, id] ← content.fields ["version", "id"] | none
  pure ⟨← version.u16, ← id.string, command⟩

/-- A variant of `StrictRequestWire` with parameters -/
def withParams (params : Json → Option Command) (content : Json) : Option Request := do
  let [version, id, inner] ← content.fields ["version", "id", "params"] | none
  pure ⟨← version.u16, ← id.string, ← params inner⟩

def oneParam {α : Type} (name : String) (read : Json → Option α) (command : α → Command)
    (params : Json) : Option Command := do
  let [value] ← params.fields [name] | none
  pure (command (← read value))

def twoParams {α : Type} (name name' : String) (read : Json → Option α) (command : α → α → Command) (params : Json) :
    Option Command := do
  let [value, value'] ← params.fields [name, name'] | none
  pure (command (← read value) (← read value'))

def Topic.ofName (name : String) : Option Topic :=
  [Topic.status, .conversations, .messages, .presence, .delivery].find? (·.name = name)

/-- A topic is its name, or an object with that name and nothing else. -/
def Topic.fromJson : Json → Option Topic
  | .str name => Topic.ofName name
  | .obj [(name, .null)] => Topic.ofName name
  | _ => none

def helloParams : Json → Option Command := twoParams "minimum_version" "maximum_version" Json.u16 .hello

def sendParams : Json → Option Command := twoParams "peer" "text" Json.string .send

/-- `StrictRequestWire`, and the conversion to `Request` -/
def Request.fromJson (value : Json) : Option Request := do
  let (method, content) ← value.tagged "method"
  match method with
  | "hello" => withParams helloParams content
  | "status" => bare .status content
  | "fingerprint" => bare .fingerprint content
  | "identity-show" => bare .identityShow content
  | "identity-export" => bare .identityExport content
  | "identity-generate" => bare .identityGenerate content
  | "identity-import" => withParams (oneParam "nsec" Json.string .identityImport) content
  | "request-panic-confirmation" => bare .requestPanicConfirmation content
  | "panic" => withParams (oneParam "confirmation" Json.string .panic) content
  | "subscribe" => withParams (oneParam "topics" (Json.vec Topic.fromJson) .subscribe) content
  | "hosted-claim-handle" => withParams (oneParam "handle" Json.string .hostedClaimHandle) content
  | "hosted-resolve-handle" => withParams (oneParam "handle" Json.string .hostedResolveHandle) content
  | "hosted-bind-nostr" => bare .hostedBindNostr content
  | "hosted-unbind-nostr" => bare .hostedUnbindNostr content
  | "chat-prepare" => bare .chatPrepare content
  | "contacts-add" => withParams (oneParam "peer" Json.string .contactsAdd) content
  | "contacts-remove" => withParams (oneParam "npub" Json.string .contactsRemove) content
  | "contacts-list" => bare .contactsList content
  | "relays-show" => bare .relaysShow content
  | "relays-set" => withParams (oneParam "relays" (Json.vec Json.string) .relaysSet) content
  | "send" => withParams sendParams content
  | "messages" => bare .messages content
  | _ => none

/-! ## The round trip -/

section
variable (version : UInt16) (id : String)

theorem bare_obj (command : Command) :
    bare command (.obj [("version", .num version.toNat), ("id", .str id)]) = some ⟨version, id, command⟩ := by
  have hfields : Json.fields ["version", "id"] (.obj [("version", .num version.toNat), ("id", .str id)]) =
      some [.num version.toNat, .str id] := Json.fields_obj (by decide) rfl
  simp [bare, hfields, Json.u16_num, Json.string]

theorem withParams_obj {params : Json → Option Command} {inner : Json} {command : Command} (h : params inner = some command) :
    withParams params (.obj [("version", .num version.toNat), ("id", .str id), ("params", inner)]) =
      some ⟨version, id, command⟩ := by
  have hfields : Json.fields ["version", "id", "params"]
      (.obj [("version", .num version.toNat), ("id", .str id), ("params", inner)]) =
        some [.num version.toNat, .str id, inner] := Json.fields_obj (by decide) rfl
  simp [withParams, hfields, Json.u16_num, Json.string, h]

variable {α : Type} {value : Json} {read : Json → Option α} {a : α}

theorem oneParam_obj (name : String) (command : α → Command)
    (h : read value = some a) : oneParam name read command (.obj [(name, value)]) = some (command a) := by
  have hfields : Json.fields [name] (.obj [(name, value)]) = some [value] := Json.fields_obj (List.nodup_singleton name) rfl
  simp [oneParam, hfields, h]

theorem twoParams_obj {value' : Json} {a' : α} {name name' : String}
    (command : α → α → Command) (hne : name ≠ name') (h : read value = some a) (h' : read value' = some a') :
    twoParams name name' read command (.obj [(name, value), (name', value')]) = some (command a a') := by
  have hfields : Json.fields [name, name'] (.obj [(name, value), (name', value')]) = some [value, value'] :=
    Json.fields_obj (by simp [hne]) rfl
  simp [twoParams, hfields, h, h']

theorem Topic.fromJson_name (topic : Topic) : Topic.fromJson (.str topic.name) = some topic := by
  cases topic <;> rfl

theorem Request.fromJson_json (request : Request) : Request.fromJson request.json = some request := by
  obtain ⟨version, id, command⟩ := request
  cases command with
  | hello minimumVersion maximumVersion =>
    exact withParams_obj version id (twoParams_obj _ (by decide) (Json.u16_num _) (Json.u16_num _))
  | send peer text => exact withParams_obj version id (twoParams_obj _ (by decide) rfl rfl)
  | subscribe topics => exact withParams_obj version id (oneParam_obj _ _ (Json.vec_arr Topic.fromJson_name topics))
  | relaysSet relays => exact withParams_obj version id (oneParam_obj _ _ (Json.vec_arr Json.string_str relays))
  | identityImport | panic | hostedClaimHandle | hostedResolveHandle | contactsAdd | contactsRemove =>
    exact withParams_obj version id (oneParam_obj _ _ rfl)
  | _ => exact bare_obj version id _

end

end OmaChat.Proto
