import LinkSuffix.Js.JsonText
import LinkSuffix.Lib.Base64

/-!
# Encrypted state files

`readEncryptedJsonSync` and `writeEncryptedJsonSync` (`secure-state.ts`): a value as JSON in an
AES-256-GCM envelope, itself JSON, or in plain text where no key is configured. The cipher is a
parameter; `atomicPrivateWrite` is the text it leaves in the file.

* `Environment`, `encryptionKey`: the configuration both sides read.
* `Aead`, `Aead.Delivers`: the cipher, and what is relied on of it.
* `isEnvelope`, `writeEncryptedJsonSync`, `readEncryptedJsonSync`: the code.
-/

namespace LinkSuffix.SecureState

/-! ## Configuration -/

/-- The environment variables read. -/
structure Environment where
  stateEncryptionKey : Option String := none
  nodeEnv : Option String := none
  requireEncryptedState : Option String := none

/-- `Buffer.from(value, "hex")` of a text of hexadecimal digits. -/
def hexBytes : List Char → List Nat
  | a :: b :: cs => (16 * (hexValue a).getD 0 + (hexValue b).getD 0) :: hexBytes cs
  | _ => []

/-- `encryptionKey()`. -/
def encryptionKey (env : Environment) : Except String (Option (List Nat)) :=
  let raw := trim (env.stateEncryptionKey.getD "")
  if raw = "" then .ok none
  else
    let value := if hasPrefix "base64:" raw then raw.toList.drop 7 else raw.toList
    let key := if value.length = 64 ∧ value.all fun c => (hexValue c).isSome then hexBytes value
      else Base64.decode value
    if key.length = 32 then .ok (some key)
    else .error "TAH_STATE_ENCRYPTION_KEY must encode exactly 32 bytes"

/-- Plain text is refused: in production, or by configuration. -/
def Environment.requires (env : Environment) : Prop :=
  env.nodeEnv = some "production" ∨ env.requireEncryptedState = some "true"

instance (env : Environment) : Decidable env.requires :=
  inferInstanceAs (Decidable (_ ∨ _))

/-! ## The cipher -/

/-- An authenticated cipher: `(key, iv, associated data, plaintext)` to ciphertext and tag, and
back. -/
structure Aead where
  encrypt : List Nat → List Nat → List Nat → List Nat → List Nat × List Nat
  decrypt : List Nat → List Nat → List Nat → List Nat × List Nat → Option (List Nat)

/-- What is relied on for a message: it is decrypted, with another key or other associated data it
is refused, the ciphertext is as long as the plaintext and the tag has 16 bytes. -/
structure Aead.Delivers (aead : Aead) (key iv aad plaintext : List Nat) : Prop where
  decrypts : aead.decrypt key iv aad (aead.encrypt key iv aad plaintext) = some plaintext
  authentic : ∀ key' aad', key' ≠ key ∨ aad' ≠ aad →
    aead.decrypt key' iv aad' (aead.encrypt key iv aad plaintext) = none
  size : (aead.encrypt key iv aad plaintext).1.length = plaintext.length
  tagSize : (aead.encrypt key iv aad plaintext).2.length = 16
  isBytes : ∀ b ∈ (aead.encrypt key iv aad plaintext).1 ++ (aead.encrypt key iv aad plaintext).2, b < 256

/-! ## Files -/

def algorithm : String := "aes-256-gcm"

def envelopeProperty : String := "_tahEncryptedState"

def maxStateBytes : Nat := 8 * 1024 * 1024

def associatedData (purpose : String) : List Nat :=
  utf8Bytes ("traffic-armour:".toList ++ purpose.toList ++ ":v1".toList)

/-- `isEnvelope(value)`. -/
def isEnvelope (value : JsValue) : Bool :=
  let envelope := value.get envelopeProperty
  (match envelope.get "version" with
    | .number version => version = .finite 1
    | _ => false) &&
  (envelope.get "algorithm").isText algorithm && (envelope.get "iv").text?.isSome &&
  (envelope.get "tag").text?.isSome && (envelope.get "ciphertext").text?.isSome

/-- The envelope of a sealed message. -/
def envelope (iv : List Nat) (message : List Nat × List Nat) : JsValue :=
  .object [(envelopeProperty, .object [
    ("algorithm", .string algorithm),
    ("ciphertext", .string (String.ofList (Base64.encode message.1))),
    ("iv", .string (String.ofList (Base64.encode iv))),
    ("tag", .string (String.ofList (Base64.encode message.2))),
    ("version", .ofNat 1)])]

/-- `${JSON.stringify(value, null, 2)}\n`, as `atomicPrivateWrite` leaves it in the file. -/
def fileText (value : JsValue) : List Char :=
  (stringify 2 value).getD "undefined".toList ++ ['\n']

/-- `statSync(filePath).size`. -/
def fileSize (text : List Char) : Nat := (utf8Bytes text).length

/-- `writeEncryptedJsonSync(filePath, value, purpose)`: the text of the file; `iv` is
`randomBytes(12)`. -/
def writeEncryptedJsonSync (aead : Aead) (env : Environment) (iv : List Nat) (value : JsValue)
    (purpose : String) : Except String (List Char) := do
  match ← encryptionKey env with
  | none =>
    if env.requires then
      throw ("TAH_STATE_ENCRYPTION_KEY is required to persist " ++ purpose)
    return fileText value
  | some key =>
    match stringify 0 value with
    | none => throw "The first argument must be of type string"
    | some text =>
      let plaintext := utf8Bytes text
      if maxStateBytes < plaintext.length then throw "State exceeds 8388608 bytes"
      return fileText (envelope iv (aead.encrypt key iv (associatedData purpose) plaintext))

/-- The bytes a text field of the envelope stands for. -/
def envelopeBytes (envelope : JsValue) (name : String) : List Nat :=
  Base64.decode ((envelope.get name).text?.getD "").toList

/-- `readEncryptedJsonSync(filePath, fallback, purpose)`; `none` is a file that does not exist. -/
def readEncryptedJsonSync (aead : Aead) (env : Environment) (file : Option (List Char))
    (fallback : JsValue) (purpose : String) : Except String JsValue :=
  match file with
  | none => .ok fallback
  | some text => do
    if maxStateBytes < fileSize text then throw "Encrypted state exceeds 8388608 bytes"
    match parseJson text with
    | none => throw "Unexpected token in JSON"
    | some parsed =>
      if isEnvelope parsed = false then
        if env.requires then throw ("Legacy plaintext state is forbidden for " ++ purpose)
        return parsed
      match ← encryptionKey env with
      | none => throw ("TAH_STATE_ENCRYPTION_KEY is required to decrypt " ++ purpose)
      | some key =>
        let envelope := parsed.get envelopeProperty
        match aead.decrypt key (envelopeBytes envelope "iv") (associatedData purpose)
          (envelopeBytes envelope "ciphertext", envelopeBytes envelope "tag") with
        | none => throw "Unsupported state or unable to authenticate data"
        | some plaintext =>
          if maxStateBytes < plaintext.length then
            throw "Decrypted state exceeds the configured limit"
          match parseJson (utf8Decode .initial plaintext) with
          | none => throw "Unexpected token in JSON"
          | some value => return value

end LinkSuffix.SecureState
