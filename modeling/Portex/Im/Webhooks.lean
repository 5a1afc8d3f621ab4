import Portex.Foundation.PythonJson
import Portex.Foundation.Raises
import Portex.Workspace.TextFiles

/-!
# The normalisers of the webhooks

`TelegramClient.handle_update` and `FeishuClient.handle_webhook_event`, over any Python primitives.
What they check raises their own errors, which the routes turn into answers of status 400; what
they leave to a primitive raises what the primitive does.

## Main definitions

* `PyPrimitives`: the numbers, the clock, Base64, AES and JSON
* `TelegramClient.handleUpdate`, `FeishuClient.handleWebhookEvent`: the two normalisers
* `TelegramReadable`, `FeishuReadable`: no primitive raises on the payload

## Main results

* `own_handleUpdate_iff`, `own_handleWebhookEvent_iff`: each normaliser
* `normalisers_iff`: the payloads on which both raise only their own errors
* `exists_escaping`: payloads on which other errors come out of them
-/

namespace Portex

open Foundation

/-! ## Exceptions and primitives -/

inductive PyException
  /-- `TelegramClientError` or `FeishuClientError`. -/
  | client (detail : String)
  /-- `ValueError`, and `binascii.Error` among them. -/
  | value
  | overflow
  /-- `OSError`. -/
  | os
  | unicodeDecode
  | jsonDecode
  | recursion
  | attribute
  deriving DecidableEq

/-- The errors that the routes catch. -/
def PyException.IsClient : PyException → Prop
  | .client _ => True
  | _ => False

instance : DecidablePred PyException.IsClient := fun error => by
  unfold PyException.IsClient
  cases error <;> infer_instance

/-- How `datetime.fromtimestamp` fails. -/
inductive TimestampError
  | value | overflow | os
  deriving DecidableEq

def TimestampError.exception : TimestampError → PyException
  | .value => .value
  | .overflow => .overflow
  | .os => .os

def jsonException : LoadsError → PyException
  | .decode => .jsonDecode
  | .recursion => .recursion
  | .digits => .value

/-- The primitives that the normalisers call, with floats `φ` and points in time `τ`. -/
structure PyPrimitives (φ τ : Type) where
  /-- `float` of a string; `none` is the `ValueError`. -/
  floatOfStr : PyStr → Option φ
  /-- `float` of an integer; `none` is the `OverflowError`. -/
  floatOfInt : ℤ → Option φ
  /-- `abs(numeric) >= 1_000_000_000_000`. -/
  isMillis : φ → Bool
  /-- `numeric / 1000.0`. -/
  thousandth : φ → φ
  /-- `datetime.fromtimestamp` in UTC. -/
  fromTimestamp : φ → Except TimestampError τ
  utcnow : τ
  /-- The digits that `str` of an integer may have; beyond is a `ValueError`. -/
  maxStrDigits : ℕ
  /-- `base64.b64decode`; `none` is the `ValueError`. -/
  b64decode : PyStr → Option (List UInt8)
  /-- AES in CBC mode with a key and an initial vector; `none` is the `ValueError`. -/
  aesCbc : List UInt8 → List UInt8 → List UInt8 → Option (List UInt8)
  loads : PyStr → Except LoadsError (PyValue φ)

section Webhooks

variable {φ τ : Type} (p : PyPrimitives φ τ)

/-- The value of a call, or its exception. -/
def orRaise {α : Type} (error : PyException) : Option α → Except PyException α
  | some a => .ok a
  | none => .error error

/-- `str` of an integer. -/
def strOfInt (n : ℤ) : Except PyException PyStr :=
  if (toString n.natAbs).length ≤ p.maxStrDigits then .ok (.ofString (toString n))
  else .error .value

/-- A string that is not empty. -/
def nonEmptyStr? : PyValue φ → Option PyStr
  | .str chars => if chars = [] then none else some chars
  | _ => none

/-- A value as a number: `float(value)`, with the error of the client where it is none. -/
def numericOf (detail : String) : PyValue φ → Except PyException φ
  | .str chars => orRaise (.client detail) (p.floatOfStr chars)
  | .int n => orRaise .overflow (p.floatOfInt n)
  | .float x => .ok x
  | _ => .error (.client detail)

/-- The point in time of a number, in seconds or in milliseconds. -/
def timestampOf (numeric : φ) : Except PyException τ :=
  (p.fromTimestamp (if p.isMillis numeric then p.thousandth numeric else numeric)).mapError
    TimestampError.exception

/-- A message event of either channel. -/
structure WebhookEvent (φ τ : Type) where
  eventType : PyStr
  chatId : PyStr
  messageId : PyStr
  senderId : PyStr
  messageType : PyStr
  text : Option PyStr
  rawEvent : List (PyStr × PyValue φ)
  timestamp : τ

/-! ## Telegram -/

namespace TelegramClient

def extractRequiredIdentifier (value : PyValue φ) (fieldName : String) :
    Except PyException PyStr :=
  match value with
  | .int n => strOfInt p n
  | value => orRaise (.client ("invalid Telegram " ++ fieldName ++ " payload")) (nonEmptyStr? value)

def messageTypes : List String :=
  ["photo", "document", "voice", "sticker", "video", "audio", "animation"]

def extractMessageType (message : List (PyStr × PyValue φ)) : PyStr :=
  .ofString (if (PyValue.get? (.ofString "text") message).isSome then "text"
    else (messageTypes.find? fun candidate =>
      (PyValue.get? (.ofString candidate) message).isSome).getD "unknown")

def extractText (message : List (PyStr × PyValue φ)) : Option PyStr :=
  nonEmptyStr? (PyValue.getD message "text")

def extractTimestamp (message : List (PyStr × PyValue φ)) : Except PyException τ :=
  match PyValue.getD message "date" with
  | .none => .ok p.utcnow
  | value => do
    let numeric ← numericOf p "invalid Telegram message timestamp" value
    timestampOf p numeric

/-- A member that has to be an object. -/
def requireDict (detail : String) : PyValue φ → Except PyException (List (PyStr × PyValue φ))
  | .dict members => .ok members
  | _ => .error (.client detail)

def handleUpdate (update : List (PyStr × PyValue φ)) :
    Except PyException (Option (WebhookEvent φ τ)) :=
  match PyValue.getD update "message" with
  | .none => .ok none
  | value => do
    let message ← requireDict "invalid Telegram message payload" value
    let chat ← requireDict "invalid Telegram chat payload" (PyValue.getD message "chat")
    let sender ← requireDict "invalid Telegram sender payload" (PyValue.getD message "from")
    let chatId ← extractRequiredIdentifier p (PyValue.getD chat "id") "chat"
    let messageId ← extractRequiredIdentifier p (PyValue.getD message "message_id") "message"
    let senderId ← extractRequiredIdentifier p (PyValue.getD sender "id") "sender"
    let timestamp ← extractTimestamp p message
    .ok (some {
      eventType := .ofString "message", chatId, messageId, senderId
      messageType := extractMessageType message, text := extractText message
      rawEvent := message, timestamp })

end TelegramClient

/-! ## Feishu -/

structure FeishuClient where
  appId : String
  encryptKey : Option PyStr := none

namespace FeishuClient

def pkcs7Unpad (value : List UInt8) : Except PyException (List UInt8) :=
  match value.getLast? with
  | none => .error (.client "invalid padded payload")
  | some padding =>
    if padding.toNat ≤ 0 ∨ 16 < padding.toNat then .error (.client "invalid padded payload")
    else if value.drop (value.length - padding.toNat) ≠ List.replicate padding.toNat padding then
      .error (.client "invalid padded payload")
    else .ok (value.take (value.length - padding.toNat))

/-- `int.from_bytes(…, byteorder="big")`. -/
def ofBigEndian (bytes : List UInt8) : ℕ := bytes.foldl (fun n byte => 256 * n + byte.toNat) 0

/-- What follows the random bytes: a length, so many bytes of JSON, and the id of the app. -/
def readContent (c : FeishuClient) (content : List UInt8) : Except PyException (PyValue φ) := do
  let jsonLength := ofBigEndian (content.take 4)
  let jsonBytes := (content.drop 4).take jsonLength
  let appId ← orRaise .unicodeDecode (decodeStrict (content.drop (4 + jsonLength)))
  if appId ≠ c.appId.toList then .error (.client "Feishu event app_id does not match client")
  else do
    let payload ← orRaise .unicodeDecode (decodeStrict jsonBytes)
    (p.loads (payload.map CodePoint.ofChar)).mapError jsonException

def decryptEvent (c : FeishuClient) (encrypt : PyStr) : Except PyException (PyValue φ) :=
  match c.encryptKey with
  | none => .error (.client "encrypt_key is required to decrypt Feishu events")
  | some encryptKey => do
    let key ← orRaise .value (p.b64decode (encryptKey ++ .ofString "="))
    let encrypted ← orRaise .value (p.b64decode encrypt)
    let decrypted ← orRaise .value (p.aesCbc key (key.take 16) encrypted)
    let unpadded ← pkcs7Unpad decrypted
    let content := unpadded.drop 16
    if content.length < 4 then .error (.client "invalid Feishu encrypted payload")
    else c.readContent p content

/-- `_extract_event`; a payload without `get` raises an `AttributeError`. -/
def extractEvent : PyValue φ → Except PyException (Option (PyStr × List (PyStr × PyValue φ)))
  | .dict payload =>
    let ofType : Option (PyStr × List (PyStr × PyValue φ)) :=
      (PyValue.getD payload "type").str?.map fun eventType => (eventType, payload)
    match PyValue.getD payload "header" with
    | .dict header =>
      match PyValue.getD header "event_type", PyValue.getD payload "event" with
      | .str eventType, .dict event => .ok (some (eventType, event))
      | _, _ => .ok ofType
    | _ => .ok ofType
  | _ => .error .attribute

def extractSenderId (event : List (PyStr × PyValue φ)) : Except PyException PyStr :=
  match PyValue.getD event "sender" with
  | .dict sender =>
    match PyValue.getD sender "sender_id" with
    | .dict senderId =>
      orRaise (.client "invalid Feishu sender payload")
        (["open_id", "user_id", "union_id"].findSome? fun key =>
          nonEmptyStr? (PyValue.getD senderId key))
    | _ => .error (.client "invalid Feishu sender payload")
  | _ => .error (.client "missing Feishu sender payload")

def extractText (content : PyValue φ) : Except PyException (Option PyStr) :=
  match content with
  | .str content =>
    match p.loads content with
    | .ok (.dict parsed) => .ok (nonEmptyStr? (PyValue.getD parsed "text"))
    | .ok _ => .ok none
    | .error .decode => .ok none
    | .error error => .error (jsonException error)
  | _ => .ok none

/-- The first of the two times that is there. -/
def timestampValue (event message : List (PyStr × PyValue φ)) : Option (PyValue φ) :=
  [PyValue.getD message "create_time", PyValue.getD event "create_time"].find? fun
    | .none => false
    | _ => true

def extractTimestamp (event message : List (PyStr × PyValue φ)) : Except PyException τ :=
  match timestampValue event message with
  | none => .ok p.utcnow
  | some value => do
    let numeric ← numericOf p "invalid Feishu message timestamp" value
    timestampOf p numeric

/-- The ids of the chat and of the message, and the type of the message. -/
def requireFields (message : List (PyStr × PyValue φ)) :
    Except PyException (PyStr × PyStr × PyStr) :=
  match nonEmptyStr? (PyValue.getD message "chat_id"),
    nonEmptyStr? (PyValue.getD message "message_id"),
    nonEmptyStr? (PyValue.getD message "message_type") with
  | some chatId, some messageId, some messageType => .ok (chatId, messageId, messageType)
  | _, _, _ => .error (.client "invalid Feishu message payload")

/-- The event of a message, from its sender, its message and their fields. -/
def messageEvent (eventType : PyStr) (rawEvent : List (PyStr × PyValue φ)) :
    Except PyException (WebhookEvent φ τ) := do
  let senderId ← extractSenderId rawEvent
  let message ←
    TelegramClient.requireDict "missing Feishu message payload" (PyValue.getD rawEvent "message")
  let (chatId, messageId, messageType) ← requireFields message
  let text ← extractText p (PyValue.getD message "content")
  let timestamp ← extractTimestamp p rawEvent message
  .ok { eventType, chatId, messageId, senderId, messageType, text, rawEvent, timestamp }

/-- The payload itself, or what it holds encrypted. -/
def normalizedPayload (c : FeishuClient) (payload : List (PyStr × PyValue φ)) :
    Except PyException (PyValue φ) :=
  match PyValue.get? (.ofString "encrypt") payload with
  | none => .ok (.dict payload)
  | some (.str encrypt) => c.decryptEvent p encrypt
  | some _ => .error (.client "invalid Feishu encrypted payload")

/-- The event of a payload that is not encrypted any more. -/
def eventOf (normalized : PyValue φ) : Except PyException (Option (WebhookEvent φ τ)) := do
  match ← extractEvent normalized with
  | none => .ok none
  | some (eventType, rawEvent) =>
    if eventType ≠ .ofString "im.message.receive_v1" then .ok none
    else (messageEvent p eventType rawEvent).map some

def handleWebhookEvent (c : FeishuClient) (payload : List (PyStr × PyValue φ)) :
    Except PyException (Option (WebhookEvent φ τ)) := do
  let normalized ← c.normalizedPayload p payload
  eventOf p normalized

end FeishuClient

/-! ## The property and its condition -/

/-- An integer has no more digits than `str` prints. -/
def Printable (value : PyValue φ) : Prop :=
  ∀ n, value = .int n → (toString n.natAbs).length ≤ p.maxStrDigits

/-- An integer, or a string that is not empty. -/
def IsIdentifier (value : PyValue φ) : Prop :=
  (∃ n, value = .int n) ∨ ∃ chars, nonEmptyStr? value = some chars

/-- The number that `float` makes of a value. -/
def number? : PyValue φ → Option φ
  | .str chars => p.floatOfStr chars
  | .int n => p.floatOfInt n
  | .float x => some x
  | _ => none

/-- Where the value is a number, it is one that a `float` and a `datetime` can hold. -/
def Dated (value : PyValue φ) : Prop :=
  (∀ n, value = .int n → ∃ x, p.floatOfInt n = some x) ∧
    ∀ x, number? p value = some x →
      ∃ t, p.fromTimestamp (if p.isMillis x then p.thousandth x else x) = .ok t

/-- The update is no message, or one whose identifiers can be printed and whose date can be held,
as far as it is read before an error of the client. -/
def TelegramReadable (update : List (PyStr × PyValue φ)) : Prop :=
  ∀ message chat sender, PyValue.getD update "message" = .dict message →
    PyValue.getD message "chat" = .dict chat → PyValue.getD message "from" = .dict sender →
    Printable p (PyValue.getD chat "id") ∧
      (IsIdentifier (PyValue.getD chat "id") → Printable p (PyValue.getD message "message_id") ∧
        (IsIdentifier (PyValue.getD message "message_id") →
          Printable p (PyValue.getD sender "id") ∧
            (IsIdentifier (PyValue.getD sender "id") → Dated p (PyValue.getD message "date"))))

namespace FeishuClient

/-- The JSON of a content that is a string raises a `JSONDecodeError` at most. -/
def TextReadable (content : PyValue φ) : Prop :=
  ∀ chars, content = .str chars → ∀ error, p.loads chars = .error error → error = .decode

/-- The three fields of a message are strings that are not empty. -/
def HasFields (message : List (PyStr × PyValue φ)) : Prop :=
  ∀ name ∈ ["chat_id", "message_id", "message_type"],
    ∃ chars, nonEmptyStr? (PyValue.getD message name) = some chars

/-- A message with a sender and its fields has a content and a time that can be read. -/
def MessageReadable (rawEvent : List (PyStr × PyValue φ)) : Prop :=
  ∀ senderId message, extractSenderId rawEvent = .ok senderId →
    PyValue.getD rawEvent "message" = .dict message → HasFields message →
    TextReadable p (PyValue.getD message "content") ∧
      ∀ value, timestampValue rawEvent message = some value → Dated p value

/-- The payload is an object, and where it is the event of a message, this can be read. -/
def EventReadable (normalized : PyValue φ) : Prop :=
  ∃ members, normalized = .dict members ∧ ∀ rawEvent,
    extractEvent normalized = .ok (some (.ofString "im.message.receive_v1", rawEvent)) →
      MessageReadable p rawEvent

/-- The id of the app is UTF-8, and where it is the right one, so is the payload, which is the JSON
of an object that can be read. -/
def ContentReadable (c : FeishuClient) (content : List UInt8) : Prop :=
  let jsonLength := ofBigEndian (content.take 4)
  ∃ appId, decodeStrict (content.drop (4 + jsonLength)) = some appId ∧
    (appId = c.appId.toList → ∃ text normalized,
      decodeStrict ((content.drop 4).take jsonLength) = some text ∧
      p.loads (text.map CodePoint.ofChar) = .ok normalized ∧ EventReadable p normalized)

/-- With a key to decrypt, the key and the payload are Base64 and can be decrypted, and what is
padded as it should, and long enough, can be read. -/
def DecryptReadable (c : FeishuClient) (encrypt : PyStr) : Prop :=
  ∀ encryptKey, c.encryptKey = some encryptKey → ∃ key encrypted decrypted,
    p.b64decode (encryptKey ++ .ofString "=") = some key ∧ p.b64decode encrypt = some encrypted ∧
    p.aesCbc key (key.take 16) encrypted = some decrypted ∧
    ∀ unpadded, pkcs7Unpad decrypted = .ok unpadded → 4 ≤ (unpadded.drop 16).length →
      ContentReadable p c (unpadded.drop 16)

/-- The payload can be read, or decrypted and read. -/
def FeishuReadable (c : FeishuClient) (payload : List (PyStr × PyValue φ)) : Prop :=
  (PyValue.get? (.ofString "encrypt") payload = none → EventReadable p (.dict payload)) ∧
    ∀ encrypt, PyValue.get? (.ofString "encrypt") payload = some (.str encrypt) →
      DecryptReadable p c encrypt

end FeishuClient

/-! ## The steps -/

variable {p} {value : PyValue φ} {detail : String}

/-- The exceptions of a call are of the client. -/
def Own {α : Type} (r : Except PyException α) : Prop := RaisesOnly PyException.IsClient r

theorem own_orRaise_client {α : Type} (found : Option α) :
    Own (orRaise (.client detail) found) := by
  cases found with
  | none => exact raisesOnly_error_iff.mpr trivial
  | some a => exact raisesOnly_ok

/-- A primitive that fails is not of the client. -/
theorem own_orRaise_iff {α : Type} {error : PyException} (h : ¬ error.IsClient)
    {found : Option α} : Own (orRaise error found) ↔ ∃ a, found = some a := by
  cases found with
  | none => exact iff_of_false (fun hown => h (raisesOnly_error_iff.mp hown)) (by simp)
  | some a => exact iff_of_true raisesOnly_ok ⟨a, rfl⟩

theorem orRaise_eq_ok {α : Type} {error : PyException} {found : Option α} {a : α} :
    orRaise error found = .ok a ↔ found = some a := by
  cases found with
  | none => simp [orRaise]
  | some b => simp [orRaise]

theorem own_timestampOf_iff {x : φ} : Own (timestampOf p x) ↔
    ∃ t, p.fromTimestamp (if p.isMillis x then p.thousandth x else x) = .ok t := by
  unfold timestampOf
  cases p.fromTimestamp (if p.isMillis x then p.thousandth x else x) with
  | error error =>
    refine iff_of_false (fun h => ?_) (by simp)
    have hclient := raisesOnly_error_iff.mp h
    cases error <;> exact hclient
  | ok t => exact iff_of_true raisesOnly_ok ⟨t, rfl⟩

/-- The number of a value raises more than the client does where an integer is too large. -/
theorem own_numericOf_iff : Own (numericOf p detail value) ↔
    ∀ n, value = .int n → ∃ x, p.floatOfInt n = some x := by
  cases value with
  | int n =>
    have hoverflow : ¬ PyException.overflow.IsClient := by decide
    refine (own_orRaise_iff hoverflow).trans ⟨?_, fun h => h n rfl⟩
    rintro hx m hm
    obtain rfl := PyValue.int.inj hm
    exact hx
  | str chars => exact iff_of_true (own_orRaise_client _) (by simp)
  | float x => exact iff_of_true raisesOnly_ok (by simp)
  | none | bool | list | dict => exact iff_of_true (raisesOnly_error_iff.mpr trivial) (by simp)

theorem numericOf_eq_ok {x : φ} : numericOf p detail value = .ok x ↔ number? p value = some x := by
  cases value with
  | str chars => exact orRaise_eq_ok
  | int n => exact orRaise_eq_ok
  | float y => simp [numericOf, number?]
  | none | bool | list | dict => simp [numericOf, number?]

/-- **A point in time** raises only the errors of the client just if it can be held. -/
theorem own_timestamp_iff :
    Own (numericOf p detail value >>= timestampOf p) ↔ Dated p value := by
  refine raisesOnly_bind_iff.trans (and_congr own_numericOf_iff ?_)
  simp only [numericOf_eq_ok]
  exact forall_congr' fun x => imp_congr_right fun _ => own_timestampOf_iff

/-- Steps that do not use what they were given. -/
theorem own_bind_const_iff {α β : Type} {r : Except PyException α} {f : α → Except PyException β}
    {P : Prop} (hf : ∀ a, Own (f a) ↔ P) :
    Own (r >>= f) ↔ Own r ∧ ((∃ a, r = .ok a) → P) := by
  refine raisesOnly_bind_iff.trans (and_congr_right' ?_)
  constructor
  · rintro h ⟨a, ha⟩
    exact (hf a).mp (h a ha)
  · intro h a ha
    exact (hf a).mpr (h ⟨a, ha⟩)

/-! ## Telegram -/

namespace TelegramClient

theorem own_strOfInt_iff {n : ℤ} :
    Own (strOfInt p n) ↔ (toString n.natAbs).length ≤ p.maxStrDigits := by
  unfold strOfInt
  split
  · rename_i hle
    exact iff_of_true raisesOnly_ok hle
  · rename_i hlt
    exact iff_of_false (fun h => raisesOnly_error_iff.mp h) hlt

theorem identifier_of_not_int {fieldName : String} (h : ∀ n, value ≠ .int n) :
    extractRequiredIdentifier p value fieldName =
      orRaise (.client ("invalid Telegram " ++ fieldName ++ " payload")) (nonEmptyStr? value) := by
  cases value with
  | int n => exact absurd rfl (h n)
  | none | bool | float | str | list | dict => rfl

theorem own_identifier_iff {fieldName : String} :
    Own (extractRequiredIdentifier p value fieldName) ↔ Printable p value := by
  by_cases hint : ∃ n, value = .int n
  · obtain ⟨n, rfl⟩ := hint
    refine own_strOfInt_iff.trans ⟨fun hle m hm => ?_, fun h => h n rfl⟩
    obtain rfl := PyValue.int.inj hm
    exact hle
  · have hnot : ∀ n, value ≠ .int n := fun n hn => hint ⟨n, hn⟩
    rw [identifier_of_not_int hnot]
    exact iff_of_true (own_orRaise_client _) fun n hn => absurd hn (hnot n)

theorem identifier_ok_iff {fieldName : String} (hprintable : Printable p value) :
    (∃ chars, extractRequiredIdentifier p value fieldName = .ok chars) ↔ IsIdentifier value := by
  by_cases hint : ∃ n, value = .int n
  · obtain ⟨n, rfl⟩ := hint
    exact iff_of_true ⟨_, if_pos (hprintable n rfl)⟩ (.inl ⟨n, rfl⟩)
  · rw [identifier_of_not_int fun n hn => hint ⟨n, hn⟩]
    simp only [orRaise_eq_ok]
    exact ⟨.inr, fun h => h.resolve_left hint⟩

/-- An identifier, and then what does not depend on it. -/
theorem own_identifier_bind_iff {β : Type} {fieldName : String}
    {f : PyStr → Except PyException β} {P : Prop} (hf : ∀ chars, Own (f chars) ↔ P) :
    Own (extractRequiredIdentifier p value fieldName >>= f) ↔
      Printable p value ∧ (IsIdentifier value → P) := by
  rw [own_bind_const_iff hf, own_identifier_iff]
  exact and_congr_right fun hprintable => by rw [identifier_ok_iff hprintable]

theorem own_extractTimestamp_iff {message : List (PyStr × PyValue φ)} :
    Own (extractTimestamp p message) ↔ Dated p (PyValue.getD message "date") := by
  unfold extractTimestamp
  split
  · rename_i hnone
    refine iff_of_true raisesOnly_ok ?_
    rw [hnone]
    exact ⟨nofun, nofun⟩
  · exact own_timestamp_iff

/-- An object, and then what is done with it. -/
theorem own_requireDict_bind_iff {β : Type} {f : List (PyStr × PyValue φ) → Except PyException β} :
    Own (requireDict detail value >>= f) ↔ ∀ members, value = .dict members → Own (f members) := by
  refine raisesOnly_bind_iff.trans ?_
  cases value with
  | dict members =>
    constructor
    · rintro ⟨-, h⟩ members' hmembers
      obtain rfl := PyValue.dict.inj hmembers
      exact h members rfl
    · intro h
      refine ⟨raisesOnly_ok, fun members' hmembers => ?_⟩
      obtain rfl := Except.ok.inj hmembers
      exact h members rfl
  | none | bool | int | float | str | list =>
    exact iff_of_true ⟨raisesOnly_error_iff.mpr trivial, nofun⟩ nofun

/-- **Telegram**: no other error than its own, just if the update can be read. -/
theorem own_handleUpdate_iff (update : List (PyStr × PyValue φ)) :
    Own (handleUpdate p update) ↔ TelegramReadable p update := by
  unfold handleUpdate TelegramReadable
  split
  · rename_i hnone
    refine iff_of_true raisesOnly_ok fun message chat sender hmessage => ?_
    rw [hnone] at hmessage
    cases hmessage
  · -- The objects first, then the identifiers, and the date at last.
    have hids (message chat sender : List (PyStr × PyValue φ)) := fun messageType text =>
      @own_identifier_bind_iff φ τ p (PyValue.getD chat "id") (Option (WebhookEvent φ τ)) "chat"
        (fun chatId => do
          let messageId ←
            extractRequiredIdentifier p (PyValue.getD message "message_id") "message"
          let senderId ← extractRequiredIdentifier p (PyValue.getD sender "id") "sender"
          let timestamp ← extractTimestamp p message
          .ok (some {
            eventType := .ofString "message", chatId, messageId, senderId, messageType, text
            rawEvent := message, timestamp })) _ fun chatId =>
        own_identifier_bind_iff fun messageId => own_identifier_bind_iff fun senderId =>
          (own_bind_const_iff fun timestamp => iff_of_true raisesOnly_ok trivial).trans
            ((and_iff_left fun _ => trivial).trans own_extractTimestamp_iff)
    refine own_requireDict_bind_iff.trans ?_
    simp only [own_requireDict_bind_iff, hids]
    constructor
    · intro h message chat sender hmessage hchat hsender
      exact h message hmessage chat hchat sender hsender
    · intro h message hmessage chat hchat sender hsender
      exact h message chat sender hmessage hchat hsender

end TelegramClient

/-! ## Feishu -/

namespace FeishuClient

theorem own_pkcs7Unpad (bytes : List UInt8) : Own (pkcs7Unpad bytes) := by
  have herror : Own (.error (.client "invalid padded payload") : Except PyException (List UInt8)) :=
    raisesOnly_error_iff.mpr trivial
  unfold pkcs7Unpad
  split
  · exact herror
  split
  · exact herror
  split
  · exact herror
  · exact raisesOnly_ok

theorem own_extractSenderId (rawEvent : List (PyStr × PyValue φ)) :
    Own (extractSenderId rawEvent) := by
  unfold extractSenderId
  split
  · split
    · exact own_orRaise_client _
    · exact raisesOnly_error_iff.mpr trivial
  · exact raisesOnly_error_iff.mpr trivial

/-- The content is read, or `json.loads` raises what is not caught. -/
theorem extractText_spec (p : PyPrimitives φ τ) (value : PyValue φ) :
    (TextReadable p value ∧ ∃ text, extractText p value = .ok text) ∨
      ¬ TextReadable p value ∧ ¬ Own (extractText p value) := by
  cases value with
  | str chars =>
    cases hloads : p.loads chars with
    | ok parsed =>
      refine .inl ⟨fun chars' hchars error herror => ?_, ?_⟩
      · obtain rfl := PyValue.str.inj hchars
        cases hloads.symm.trans herror
      · simp only [extractText, hloads]
        cases parsed with
        | dict members => exact ⟨_, rfl⟩
        | none | bool | int | float | str | list => exact ⟨_, rfl⟩
    | error error =>
      have hraises (hne : error ≠ .decode) : ¬ TextReadable p (.str chars) :=
        fun h => hne (h chars rfl error hloads)
      cases error with
      | decode =>
        refine .inl ⟨fun chars' hchars error herror => ?_, none, by simp only [extractText, hloads]⟩
        obtain rfl := PyValue.str.inj hchars
        exact (Except.error.inj (hloads.symm.trans herror)).symm
      | recursion =>
        refine .inr ⟨hraises (by decide), fun h => ?_⟩
        simp only [extractText, hloads] at h
        exact raisesOnly_error_iff.mp h
      | digits =>
        refine .inr ⟨hraises (by decide), fun h => ?_⟩
        simp only [extractText, hloads] at h
        exact raisesOnly_error_iff.mp h
  | none | bool | int | float | list | dict => exact .inl ⟨nofun, none, rfl⟩

/-- The content, and then what does not depend on it. -/
theorem own_extractText_bind_iff {β : Type} {f : Option PyStr → Except PyException β} {P : Prop}
    (hf : ∀ text, Own (f text) ↔ P) :
    Own (extractText p value >>= f) ↔ TextReadable p value ∧ P := by
  rw [own_bind_const_iff hf]
  rcases extractText_spec p value with ⟨hreadable, text, htext⟩ | ⟨hreadable, hown⟩
  · rw [htext]
    exact and_congr (iff_of_true raisesOnly_ok hreadable) (forall_prop_of_true ⟨text, rfl⟩)
  · exact iff_of_false (fun h => hown h.1) fun h => hreadable h.1

theorem own_extractTimestamp_iff {rawEvent message : List (PyStr × PyValue φ)} :
    Own (extractTimestamp p rawEvent message) ↔
      ∀ value, timestampValue rawEvent message = some value → Dated p value := by
  unfold extractTimestamp
  cases timestampValue rawEvent message with
  | none => exact iff_of_true raisesOnly_ok nofun
  | some value =>
    refine own_timestamp_iff.trans ⟨fun h value' hvalue => ?_, fun h => h value rfl⟩
    obtain rfl := Option.some.inj hvalue
    exact h

theorem own_requireFields (message : List (PyStr × PyValue φ)) : Own (requireFields message) := by
  unfold requireFields
  split
  · exact raisesOnly_ok
  · exact raisesOnly_error_iff.mpr trivial

theorem requireFields_ok_iff {message : List (PyStr × PyValue φ)} :
    (∃ fields, requireFields message = .ok fields) ↔ HasFields message := by
  have hfields : HasFields message ↔
      (∃ chars, nonEmptyStr? (PyValue.getD message "chat_id") = some chars) ∧
      (∃ chars, nonEmptyStr? (PyValue.getD message "message_id") = some chars) ∧
      ∃ chars, nonEmptyStr? (PyValue.getD message "message_type") = some chars := by
    simp [HasFields]
  rw [hfields]
  unfold requireFields
  split
  · rename_i chatId messageId messageType hchat hmessage htype
    exact iff_of_true ⟨_, rfl⟩ ⟨⟨_, hchat⟩, ⟨_, hmessage⟩, _, htype⟩
  · rename_i hnone
    refine iff_of_false (by simp) ?_
    rintro ⟨⟨chatId, hchat⟩, ⟨messageId, hmessage⟩, messageType, htype⟩
    exact hnone chatId messageId messageType hchat hmessage htype

/-- **The event of a message**: once there are a sender and the fields, its content and its time
are all that can go wrong. -/
theorem own_messageEvent_iff {eventType : PyStr} {rawEvent : List (PyStr × PyValue φ)} :
    Own (messageEvent p eventType rawEvent) ↔ MessageReadable p rawEvent := by
  unfold messageEvent MessageReadable
  refine raisesOnly_bind_iff.trans ((and_iff_right (own_extractSenderId rawEvent)).trans ?_)
  refine forall_congr' fun senderId => ?_
  have hmessage (message : List (PyStr × PyValue φ)) : Own (do
      let (chatId, messageId, messageType) ← requireFields message
      let text ← extractText p (PyValue.getD message "content")
      let timestamp ← extractTimestamp p rawEvent message
      (.ok { eventType, chatId, messageId, senderId, messageType, text, rawEvent, timestamp } :
        Except PyException (WebhookEvent φ τ))) ↔
      (HasFields message → TextReadable p (PyValue.getD message "content") ∧
        ∀ value, timestampValue rawEvent message = some value → Dated p value) := by
    refine (own_bind_const_iff fun fields => own_extractText_bind_iff fun text =>
      (own_bind_const_iff fun timestamp => iff_of_true raisesOnly_ok trivial).trans
        ((and_iff_left fun _ => trivial).trans own_extractTimestamp_iff)).trans ?_
    rw [and_iff_right (own_requireFields message), requireFields_ok_iff]
  constructor
  · intro h message hsender hdict
    exact (hmessage message).mp
      (TelegramClient.own_requireDict_bind_iff.mp (h hsender) message hdict)
  · intro h hsender
    exact TelegramClient.own_requireDict_bind_iff.mpr fun message hdict =>
      (hmessage message).mpr (h message hsender hdict)

/-- The events that are found in a payload. -/
theorem own_eventOf_iff {normalized : PyValue φ} :
    Own (eventOf p normalized) ↔ EventReadable p normalized := by
  cases normalized with
  | dict members =>
    have hiff : EventReadable p (.dict members) ↔ ∀ rawEvent,
        extractEvent (.dict members) =
          .ok (some (.ofString "im.message.receive_v1", rawEvent)) → MessageReadable p rawEvent := by
      constructor
      · rintro ⟨members', -, h⟩
        exact h
      · intro h
        exact ⟨members, rfl, h⟩
    rw [hiff]
    have hown : Own (extractEvent (.dict members)) := by
      unfold extractEvent
      dsimp only
      split
      · split
        · exact raisesOnly_ok
        · exact raisesOnly_ok
      · exact raisesOnly_ok
    unfold eventOf
    refine raisesOnly_bind_iff.trans ((and_iff_right hown).trans ?_)
    constructor
    · intro h rawEvent hevent
      have hmessage := h _ hevent
      simp only [ne_eq, not_true_eq_false, if_false] at hmessage
      exact own_messageEvent_iff.mp (raisesOnly_map_iff.mp hmessage)
    · intro h found hfound
      match found with
      | none => exact raisesOnly_ok
      | some (eventType, rawEvent) =>
        dsimp only
        split
        · exact raisesOnly_ok
        · rename_i htype
          rw [not_not] at htype
          subst htype
          exact raisesOnly_map_iff.mpr (own_messageEvent_iff.mpr (h rawEvent hfound))
  | none | bool | int | float | str | list =>
    have hraises : ¬ Own (.error .attribute : Except PyException (Option (WebhookEvent φ τ))) :=
      fun h => raisesOnly_error_iff.mp h
    refine iff_of_false hraises ?_
    rintro ⟨members, hdict, -⟩
    cases hdict

/-- A primitive that raises no error of the client, and then what is done with its value. -/
theorem own_orRaise_bind_iff {α β : Type} {error : PyException} (herror : ¬ error.IsClient)
    {found : Option α} {f : α → Except PyException β} :
    Own (orRaise error found >>= f) ↔ ∃ a, found = some a ∧ Own (f a) := by
  refine raisesOnly_bind_iff.trans ?_
  cases found with
  | none => exact iff_of_false (fun h => herror (raisesOnly_error_iff.mp h.1)) (by simp)
  | some a =>
    constructor
    · rintro ⟨-, h⟩
      exact ⟨a, rfl, h a rfl⟩
    · rintro ⟨b, hb, h⟩
      obtain rfl := Option.some.inj hb
      refine ⟨raisesOnly_ok, fun c hc => ?_⟩
      obtain rfl := Except.ok.inj hc
      exact h

theorem own_loads_bind_iff {chars : PyStr} : Own (do
      let normalized ← (p.loads chars).mapError jsonException
      eventOf p normalized) ↔
    ∃ normalized, p.loads chars = .ok normalized ∧ EventReadable p normalized := by
  refine raisesOnly_bind_iff.trans ?_
  cases p.loads chars with
  | error error =>
    refine iff_of_false (fun h => ?_) (by simp)
    have hclient := raisesOnly_error_iff.mp h.1
    cases error <;> exact hclient
  | ok normalized =>
    constructor
    · rintro ⟨-, h⟩
      exact ⟨normalized, rfl, own_eventOf_iff.mp (h normalized rfl)⟩
    · rintro ⟨value, hvalue, h⟩
      obtain rfl := Except.ok.inj hvalue
      refine ⟨raisesOnly_ok, fun value' hvalue' => ?_⟩
      obtain rfl := Except.ok.inj hvalue'
      exact own_eventOf_iff.mpr h

theorem own_readContent_iff {c : FeishuClient} {content : List UInt8} :
    Own (c.readContent p content >>= eventOf p) ↔ ContentReadable p c content := by
  have hdecode : ¬ PyException.unicodeDecode.IsClient := by decide
  unfold readContent ContentReadable
  simp only [bind_assoc]
  refine (own_orRaise_bind_iff hdecode).trans
    (exists_congr fun appId => and_congr_right fun _ => ?_)
  split
  · rename_i hne
    exact iff_of_true (raisesOnly_error_iff.mpr trivial) fun heq => absurd heq hne
  · rename_i heq
    rw [not_not] at heq
    rw [forall_prop_of_true heq]
    simp only [bind_assoc]
    refine (own_orRaise_bind_iff hdecode).trans (exists_congr fun text => ?_)
    rw [own_loads_bind_iff]
    constructor
    · rintro ⟨htext, normalized, h⟩
      exact ⟨normalized, htext, h⟩
    · rintro ⟨normalized, htext, h⟩
      exact ⟨htext, normalized, h⟩

theorem own_decryptEvent_iff {c : FeishuClient} {encrypt : PyStr} :
    Own (c.decryptEvent p encrypt >>= eventOf p) ↔ DecryptReadable p c encrypt := by
  have hvalue : ¬ PyException.value.IsClient := by decide
  unfold decryptEvent DecryptReadable
  cases c.encryptKey with
  | none => exact iff_of_true (raisesOnly_error_iff.mpr trivial) nofun
  | some encryptKey =>
    -- What is left once the bytes are decrypted.
    have hrest (decrypted : List UInt8) : Own (pkcs7Unpad decrypted >>= fun unpadded =>
        (if (unpadded.drop 16).length < 4 then
            .error (.client "invalid Feishu encrypted payload")
          else c.readContent p (unpadded.drop 16)) >>= eventOf p) ↔
        ∀ unpadded, pkcs7Unpad decrypted = .ok unpadded → 4 ≤ (unpadded.drop 16).length →
          ContentReadable p c (unpadded.drop 16) := by
      refine raisesOnly_bind_iff.trans ((and_iff_right (own_pkcs7Unpad decrypted)).trans ?_)
      refine forall_congr' fun unpadded => imp_congr_right fun _ => ?_
      split
      · rename_i hshort
        exact iff_of_true (raisesOnly_error_iff.mpr trivial) fun hlong => by omega
      · rename_i hlong
        rw [forall_prop_of_true (Nat.le_of_not_lt hlong)]
        exact own_readContent_iff
    have hsteps := (own_orRaise_bind_iff hvalue).trans <| exists_congr fun key =>
      and_congr_right fun (_ : p.b64decode (encryptKey ++ .ofString "=") = some key) =>
        (own_orRaise_bind_iff hvalue).trans <| exists_congr fun encrypted =>
          and_congr_right fun (_ : p.b64decode encrypt = some encrypted) =>
            (own_orRaise_bind_iff hvalue).trans <| exists_congr fun decrypted =>
              and_congr_right fun (_ : p.aesCbc key (key.take 16) encrypted = some decrypted) =>
                hrest decrypted
    simp only [bind_assoc, Option.some.injEq, forall_eq']
    refine hsteps.trans ⟨?_, ?_⟩
    · rintro ⟨key, hkey, encrypted, hencrypted, decrypted, hdecrypted, h⟩
      exact ⟨key, encrypted, decrypted, hkey, hencrypted, hdecrypted, h⟩
    · rintro ⟨key, encrypted, decrypted, hkey, hencrypted, hdecrypted, h⟩
      exact ⟨key, hkey, encrypted, hencrypted, decrypted, hdecrypted, h⟩

/-- **Feishu**: no other error than its own, just if the payload can be read. -/
theorem own_handleWebhookEvent_iff (c : FeishuClient) (payload : List (PyStr × PyValue φ)) :
    Own (c.handleWebhookEvent p payload) ↔ FeishuReadable p c payload := by
  unfold handleWebhookEvent normalizedPayload FeishuReadable
  cases PyValue.get? (.ofString "encrypt") payload with
  | none =>
    refine own_eventOf_iff.trans ⟨fun h => ⟨fun _ => h, nofun⟩, fun h => h.1 rfl⟩
  | some encrypted =>
    cases encrypted with
    | str encrypt =>
      refine own_decryptEvent_iff.trans ⟨fun h => ⟨nofun, fun encrypt' hencrypt => ?_⟩,
        fun h => h.2 encrypt rfl⟩
      obtain rfl := PyValue.str.inj (Option.some.inj hencrypt)
      exact h
    | none | bool | int | float | list | dict =>
      exact iff_of_true (raisesOnly_error_iff.mpr trivial) ⟨nofun, nofun⟩

end FeishuClient

/-- **The webhooks.** Over all payloads, the normalisers raise only the errors that the routes catch
if and only if no primitive raises on what they read of the payloads. -/
theorem normalisers_iff (p : PyPrimitives φ τ) (c : FeishuClient)
    (update payload : List (PyStr × PyValue φ)) :
    Own (TelegramClient.handleUpdate p update) ∧ Own (c.handleWebhookEvent p payload) ↔
      TelegramReadable p update ∧ c.FeishuReadable p payload :=
  and_congr (TelegramClient.own_handleUpdate_iff update)
    (FeishuClient.own_handleWebhookEvent_iff c payload)

/-- The exception of a call. -/
def raised? {α : Type} : Except PyException α → Option PyException
  | .ok _ => none
  | .error error => some error

theorem not_own_of_raised {α : Type} {r : Except PyException α} {error : PyException}
    (h : raised? r = some error) (herror : ¬ error.IsClient) : ¬ Own r := by
  cases r with
  | ok a => cases h
  | error error' =>
    obtain rfl := Option.some.inj h
    exact fun hown => herror (raisesOnly_error_iff.mp hown)

end Webhooks

/-- The primitives on whole seconds from 1970 to the year 9999, and on the Base64 of zeros. -/
def wholePrimitives : PyPrimitives ℤ ℤ where
  floatOfStr _ := none
  floatOfInt n := if n.natAbs.log2 < 1024 then some n else none
  isMillis x := decide (1000000000000 ≤ x.natAbs)
  thousandth x := x / 1000
  fromTimestamp x := if 0 ≤ x ∧ x ≤ 253402300799 then .ok x else .error .value
  utcnow := 0
  maxStrDigits := 4300
  b64decode text := if text.length % 4 = 0 then some (List.replicate 32 0) else none
  aesCbc _ _ _ := none
  loads text := pyLoads defaultLimits (fun _ => 0)
    (text.map fun c => Char.ofNat c.val)

/-- A message of the year 33658. -/
def lateUpdate : List (PyStr × PyValue ℤ) :=
  [(.ofString "message", .dict [
    (.ofString "message_id", .int 1), (.ofString "chat", .dict [(.ofString "id", .int 1)]),
    (.ofString "from", .dict [(.ofString "id", .int 1)]),
    (.ofString "date", .int 999999999999)])]

/-- The client of an app with a key to decrypt. -/
def encryptedClient : FeishuClient where
  appId := "cli_app"
  encryptKey := some (.ofString "AAAAAAAAAAAAAAAAAAAAAAAAAAAAAAAAAAAAAAAAAAA")

/-- A payload that is not Base64. -/
def unreadablePayload : List (PyStr × PyValue ℤ) :=
  [(.ofString "encrypt", .str (.ofString "abcde"))]

/-- The `ValueError` of `fromtimestamp` comes out of the one, the `binascii.Error` of `b64decode`
out of the other. -/
theorem exists_escaping :
    ¬ Own (TelegramClient.handleUpdate wholePrimitives lateUpdate) ∧
      ¬ Own (encryptedClient.handleWebhookEvent wholePrimitives unreadablePayload) := by
  have htelegram : raised? (TelegramClient.handleUpdate wholePrimitives lateUpdate) =
    some .value := by decide +kernel
  have hfeishu : raised? (encryptedClient.handleWebhookEvent wholePrimitives unreadablePayload) =
    some .value := by decide +kernel
  exact ⟨not_own_of_raised htelegram (by decide), not_own_of_raised hfeishu (by decide)⟩

end Portex
