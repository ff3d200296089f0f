import LinkSuffix.Web.SecureState

/-!
# State files read back

What `writeEncryptedJsonSync` leaves in a file, `readEncryptedJsonSync` gives back.

* `fileSize_envelope`, `fileSize_sealed`: the size of an envelope, and the reader's limit as a limit
  on the JSON of the state.
* `read_plain`, `read_envelope`: the reader on the two forms of a file.
* `sealed_faithful`, `state_read_back`: the round trip, and who else can read the file.
-/

namespace LinkSuffix.SecureState

theorem envelope_regular (iv : List Nat) (message : List Nat × List Nat) :
    (envelope iv message).Regular ∧ (envelope iv message).json = envelope iv message := by
  refine ⟨?_, by simp [envelope, JsValue.json, JsValue.jsonFields, JsValue.ofNat,
    JsNumber.isFinite]⟩
  have hone : Written 1 := by
    unfold Written
    norm_num
  simp [envelope, JsValue.Regular, JsValue.RegularFields, JsValue.ofNat, hone]

theorem isEnvelope_envelope (iv : List Nat) (message : List Nat × List Nat) :
    isEnvelope (envelope iv message) = true := by
  simp [isEnvelope, envelope, JsValue.get, JsValue.record, JsValue.lookup, envelopeProperty,
    JsValue.isText, JsValue.text?, JsValue.ofNat]

/-! ## The size of an envelope -/

/-- Base64 stands in quotes as it is. -/
theorem size_quote_encode {bs : List Nat} (h : ∀ b ∈ bs, b < 256) :
    (utf8Bytes (quote (String.ofList (Base64.encode bs)))).length =
      (4 * bs.length + 2) / 3 + 2 := by
  have hplain : ∀ n < 64, quoteChar (Base64.sextetChar n) = [Base64.sextetChar n] ∧
      (Base64.sextetChar n).toNat < 0x80 := by decide
  have hkept : (Base64.encode bs).flatMap quoteChar = Base64.encode bs := by
    have heach : ∀ cs : List Char, (∀ c ∈ cs, quoteChar c = [c]) → cs.flatMap quoteChar = cs := by
      intro cs hcs
      induction cs with
      | nil => rfl
      | cons c cs ih =>
        rw [List.flatMap_cons, hcs c List.mem_cons_self, ih fun d hd => hcs d (List.mem_cons_of_mem c hd)]
        rfl
    refine heach _ fun c hc => ?_
    obtain ⟨n, hn, rfl⟩ := Base64.mem_encode h hc
    exact (hplain n hn).1
  have hascii : (utf8Bytes (Base64.encode bs)).length = (Base64.encode bs).length :=
    utf8Bytes_ascii fun c hc => by
      obtain ⟨n, hn, rfl⟩ := Base64.mem_encode h hc
      exact (hplain n hn).2
  have hquote : quote (String.ofList (Base64.encode bs)) =
      ['\x22'] ++ Base64.encode bs ++ ['\x22'] := by
    unfold quote
    rw [String.toList_ofList, hkept]
    rfl
  have hmark : (utf8Bytes ['\x22']).length = 1 := rfl
  rw [hquote, utf8Bytes_append, utf8Bytes_append, List.length_append, List.length_append, hascii,
    hmark, Base64.encode_length]
  omega

/-- The text of an envelope. -/
theorem fileText_envelope (iv : List Nat) (message : List Nat × List Nat) :
    fileText (envelope iv message) =
      (("\x7b\n  \"_tahEncryptedState\": ".toList ++
        (("\x7b\n    \"algorithm\": \"aes-256-gcm\"".toList) ++
        ((",\n    \"ciphertext\": ".toList ++ quote (String.ofList (Base64.encode message.1))) ++
        ((",\n    \"iv\": ".toList ++ quote (String.ofList (Base64.encode iv))) ++
        ((",\n    \"tag\": ".toList ++ quote (String.ofList (Base64.encode message.2))) ++
        ",\n    \"version\": 1\n  \x7d".toList))))) ++ "\n\x7d".toList) ++ ['\n'] := by
  rfl

/-- The size of an envelope: four characters for three bytes, and the JSON around them. -/
theorem fileSize_envelope {iv : List Nat} {message : List Nat × List Nat} (hiv : iv.length = 12)
    (hivBytes : ∀ b ∈ iv, b < 256) (htag : message.2.length = 16)
    (hmessage : ∀ b ∈ message.1 ++ message.2, b < 256) :
    fileSize (fileText (envelope iv message)) = (4 * message.1.length + 2) / 3 + 172 := by
  obtain ⟨hciphertext, htagBytes⟩ := List.forall_mem_append.mp hmessage
  have hopening : (utf8Bytes "\x7b\n  \"_tahEncryptedState\": ".toList).length = 26 := by
    decide +kernel
  have halgorithm :
      (utf8Bytes "\x7b\n    \"algorithm\": \"aes-256-gcm\"".toList).length = 32 := by
    decide +kernel
  have hciphertextName : (utf8Bytes ",\n    \"ciphertext\": ".toList).length = 20 := by
    decide +kernel
  have hivName : (utf8Bytes ",\n    \"iv\": ".toList).length = 12 := by decide +kernel
  have htagName : (utf8Bytes ",\n    \"tag\": ".toList).length = 13 := by decide +kernel
  have hversion : (utf8Bytes ",\n    \"version\": 1\n  \x7d".toList).length = 22 := by decide +kernel
  have hclosing : (utf8Bytes "\n\x7d".toList).length = 2 := by decide +kernel
  have hend : (utf8Bytes ['\n']).length = 1 := rfl
  unfold fileSize
  rw [fileText_envelope]
  simp only [utf8Bytes_append, List.length_append, size_quote_encode hciphertext,
    size_quote_encode htagBytes, size_quote_encode hivBytes, hiv, htag, hopening, halgorithm,
    hciphertextName, hivName, htagName, hversion, hclosing, hend]
  omega

/-! ## Reading a file back -/

/-- A value JSON can hold. -/
structure IsJson (value : JsValue) : Prop where
  regular : value.Regular
  json : value.json = value

theorem IsJson.text {value : JsValue} (h : IsJson value) (gap : Nat) :
    ∃ text, stringify gap value = some text := by
  have hjson := h.json
  cases value with
  | undefined => cases hjson
  | null => exact ⟨_, rfl⟩
  | bool value => exact ⟨_, rfl⟩
  | number value => exact ⟨_, rfl⟩
  | string value => exact ⟨_, rfl⟩
  | array items => exact ⟨_, rfl⟩
  | object fields => exact ⟨_, rfl⟩

theorem isJson_envelope (iv : List Nat) (message : List Nat × List Nat) :
    IsJson (envelope iv message) :=
  ⟨(envelope_regular iv message).1, (envelope_regular iv message).2⟩

theorem IsJson.parse {value : JsValue} (h : IsJson value) : parseJson (fileText value) = some value := by
  obtain ⟨text, htext⟩ := h.text 2
  have hparse := parseJson_stringify h.regular htext ['\n'] (by decide)
  unfold fileText
  rw [htext, Option.getD_some, hparse, h.json]

theorem IsJson.parse_bytes {value : JsValue} (h : IsJson value) {text : List Char}
    (htext : stringify 0 value = some text) :
    parseJson (utf8Decode .initial (utf8Bytes text)) = some value := by
  have hparse := parseJson_stringify h.regular htext [] (by decide)
  rw [List.append_nil] at hparse
  rw [utf8Decode_bytes, hparse, h.json]

variable {aead : Aead} {env : Environment} {iv : List Nat} {value : JsValue} {purpose : String}
  {file : List Char}

/-- Reading a plain file. -/
theorem read_plain (h : IsJson value) (hsize : fileSize (fileText value) ≤ maxStateBytes)
    (hplain : isEnvelope value = false) (fallback : JsValue) :
    readEncryptedJsonSync aead env (some (fileText value)) fallback purpose =
      if env.requires then .error ("Legacy plaintext state is forbidden for " ++ purpose)
      else .ok value := by
  unfold readEncryptedJsonSync
  dsimp only
  rw [if_neg (Nat.not_lt.mpr hsize), h.parse]
  dsimp only
  rw [if_pos hplain]
  split <;> rfl

/-- What a reader makes of a sealed message. -/
def openMessage (aead : Aead) (env : Environment) (iv : List Nat) (message : List Nat × List Nat)
    (purpose : String) : Except String JsValue := do
  match ← encryptionKey env with
  | none => throw ("TAH_STATE_ENCRYPTION_KEY is required to decrypt " ++ purpose)
  | some key =>
    match aead.decrypt key iv (associatedData purpose) message with
    | none => throw "Unsupported state or unable to authenticate data"
    | some plaintext =>
      if maxStateBytes < plaintext.length then
        throw "Decrypted state exceeds the configured limit"
      match parseJson (utf8Decode .initial plaintext) with
      | none => throw "Unexpected token in JSON"
      | some value => return value

theorem read_envelope {message : List Nat × List Nat} (hiv : ∀ b ∈ iv, b < 256)
    (hmessage : ∀ b ∈ message.1 ++ message.2, b < 256)
    (hsize : fileSize (fileText (envelope iv message)) ≤ maxStateBytes) (fallback : JsValue) :
    readEncryptedJsonSync aead env (some (fileText (envelope iv message))) fallback purpose =
      openMessage aead env iv message purpose := by
  obtain ⟨hciphertext, htag⟩ := List.forall_mem_append.mp hmessage
  have hbytes {name : String} {bs : List Nat} (hbs : ∀ b ∈ bs, b < 256)
      (hname : ((envelope iv message).get envelopeProperty).get name =
        .string (String.ofList (Base64.encode bs))) :
      envelopeBytes ((envelope iv message).get envelopeProperty) name = bs := by
    unfold envelopeBytes
    rw [hname]
    exact (congrArg Base64.decode (String.toList_ofList)).trans (Base64.decode_encode hbs)
  unfold readEncryptedJsonSync
  dsimp only
  rw [if_neg (Nat.not_lt.mpr hsize), (isJson_envelope iv message).parse]
  dsimp only
  rw [if_neg (by rw [isEnvelope_envelope]; simp), hbytes hiv rfl, hbytes hciphertext rfl,
    hbytes htag rfl]
  rfl

/-! ## What was written -/

theorem write_plain (hkey : encryptionKey env = .ok none)
    (h : writeEncryptedJsonSync aead env iv value purpose = .ok file) :
    ¬env.requires ∧ file = fileText value := by
  unfold writeEncryptedJsonSync at h
  rw [hkey] at h
  by_cases hrequires : env.requires
  · have herror : Except.error ("TAH_STATE_ENCRYPTION_KEY is required to persist " ++ purpose) =
        Except.ok file := by
      rw [← h]
      exact (if_pos hrequires).symm
    cases herror
  · have hok : Except.ok (fileText value) = Except.ok (ε := String) file := by
      rw [← h]
      exact (if_neg hrequires).symm
    exact ⟨hrequires, (Except.ok.inj hok).symm⟩

theorem write_sealed {key : List Nat} (hkey : encryptionKey env = .ok (some key)) {text : List Char}
    (htext : stringify 0 value = some text)
    (h : writeEncryptedJsonSync aead env iv value purpose = .ok file) :
    (utf8Bytes text).length ≤ maxStateBytes ∧
      file = fileText (envelope iv
        (aead.encrypt key iv (associatedData purpose) (utf8Bytes text))) := by
  unfold writeEncryptedJsonSync at h
  rw [hkey] at h
  by_cases hsize : maxStateBytes < (utf8Bytes text).length
  · have herror : Except.error "State exceeds 8388608 bytes" = Except.ok file := by
      rw [← h]
      simp only [bind, Except.bind, htext]
      exact (if_pos hsize).symm
    cases herror
  · have hok : Except.ok (fileText (envelope iv
        (aead.encrypt key iv (associatedData purpose) (utf8Bytes text)))) =
          Except.ok (ε := String) file := by
      rw [← h]
      simp only [bind, Except.bind, htext]
      exact (if_neg hsize).symm
    exact ⟨Nat.not_lt.mp hsize, (Except.ok.inj hok).symm⟩

theorem associatedData_injective {purpose purpose' : String}
    (h : associatedData purpose = associatedData purpose') : purpose = purpose' := by
  have htext := utf8Bytes_injective h
  exact String.toList_injective (List.append_cancel_left (List.append_cancel_right htext))

/-! ## The round trip -/

/-- Reading the file gives the value, whatever the fallback. -/
def ReadsBack (aead : Aead) (env : Environment) (purpose : String) (file : List Char)
    (value : JsValue) : Prop :=
  ∀ fallback, readEncryptedJsonSync aead env (some file) fallback purpose = .ok value

/-- Reading the file throws. -/
def Refuses (aead : Aead) (env : Environment) (purpose : String) (file : List Char) : Prop :=
  ∀ fallback, ∃ message,
    readEncryptedJsonSync aead env (some file) fallback purpose = .error message

/-- What is written is read back by who has the key and the purpose, and by nobody else. -/
structure Faithful (aead : Aead) (env : Environment) (purpose : String) (file : List Char)
    (value : JsValue) : Prop where
  same : ReadsBack aead env purpose file value
  other : ∀ env' purpose', purpose' ≠ purpose ∨ encryptionKey env' ≠ encryptionKey env →
    Refuses aead env' purpose' file

theorem read_large (h : maxStateBytes < fileSize file) : Refuses aead env purpose file :=
  fun _ => ⟨_, if_pos h⟩

/-- A sealed state whose file is in the limit. -/
theorem sealed_faithful {key : List Nat} {text : List Char} (hvalue : IsJson value)
    (htext : stringify 0 value = some text) (hkey : encryptionKey env = .ok (some key))
    (hiv : ∀ b ∈ iv, b < 256)
    (hcipher : aead.Delivers key iv (associatedData purpose) (utf8Bytes text))
    (hwrite : writeEncryptedJsonSync aead env iv value purpose = .ok file)
    (hsize : fileSize file ≤ maxStateBytes) : Faithful aead env purpose file value := by
  obtain ⟨hplaintext, rfl⟩ := write_sealed hkey htext hwrite
  refine ⟨fun fallback => ?_, fun env' purpose' hother fallback => ?_⟩
  · rw [read_envelope hiv hcipher.isBytes hsize]
    unfold openMessage
    rw [hkey]
    simp only [bind, Except.bind, hcipher.decrypts]
    rw [if_neg (Nat.not_lt.mpr hplaintext), hvalue.parse_bytes htext]
    rfl
  · rw [read_envelope hiv hcipher.isBytes hsize]
    unfold openMessage
    cases hkey' : encryptionKey env' with
    | error message => exact ⟨message, rfl⟩
    | ok key' =>
      cases key' with
      | none => exact ⟨_, rfl⟩
      | some key' =>
        have hne : key' ≠ key ∨ associatedData purpose' ≠ associatedData purpose := by
          rcases hother with hpurpose | hkeys
          · exact Or.inr fun h => hpurpose (associatedData_injective h)
          · refine Or.inl fun h => hkeys ?_
            rw [hkey', hkey, h]
        simp only [bind, Except.bind, hcipher.authentic key' _ hne]
        exact ⟨_, rfl⟩

/-- **A state file is read back.** With a key, a state whose file is in the limit is read by who
has the key and the purpose and by nobody else. Without one, a state that has not itself the shape
of an envelope is read under every purpose and key, as long as plain text is not refused. -/
theorem state_read_back (aead : Aead) (env : Environment) (iv : List Nat) (value : JsValue)
    (purpose : String) (file : List Char) (hvalue : IsJson value) (hiv : ∀ b ∈ iv, b < 256)
    (hcipher : ∀ key text, encryptionKey env = .ok (some key) → stringify 0 value = some text →
      aead.Delivers key iv (associatedData purpose) (utf8Bytes text))
    (hwrite : writeEncryptedJsonSync aead env iv value purpose = .ok file)
    (hsize : fileSize file ≤ maxStateBytes) :
    (∀ key, encryptionKey env = .ok (some key) → Faithful aead env purpose file value) ∧
    (encryptionKey env = .ok none → isEnvelope value = false →
      ReadsBack aead env purpose file value ∧
      ∀ env' purpose', if env'.requires then Refuses aead env' purpose' file
        else ReadsBack aead env' purpose' file value) := by
  refine ⟨fun key hkey => ?_, fun hkey hplain => ?_⟩
  · obtain ⟨text, htext⟩ := hvalue.text 0
    exact sealed_faithful hvalue htext hkey hiv (hcipher key text hkey htext) hwrite hsize
  · obtain ⟨hrequires, rfl⟩ := write_plain hkey hwrite
    refine ⟨fun fallback => ?_, fun env' purpose' => ?_⟩
    · rw [read_plain hvalue hsize hplain, if_neg hrequires]
    · split
      · rename_i hrequires'
        exact fun fallback => ⟨_, by rw [read_plain hvalue hsize hplain, if_pos hrequires']⟩
      · rename_i hrequires'
        exact fun fallback => by rw [read_plain hvalue hsize hplain, if_neg hrequires']

/-- The reader's limit on the file of a sealed state, as a limit on its JSON: less than the limit of
the writer. -/
theorem fileSize_sealed {key : List Nat} {text : List Char}
    (htext : stringify 0 value = some text) (hkey : encryptionKey env = .ok (some key))
    (hiv : iv.length = 12) (hivBytes : ∀ b ∈ iv, b < 256)
    (hcipher : aead.Delivers key iv (associatedData purpose) (utf8Bytes text))
    (hwrite : writeEncryptedJsonSync aead env iv value purpose = .ok file) :
    fileSize file ≤ maxStateBytes ↔ (utf8Bytes text).length ≤ 6291327 := by
  obtain ⟨-, rfl⟩ := write_sealed hkey htext hwrite
  rw [fileSize_envelope hiv hivBytes hcipher.tagSize hcipher.isBytes, hcipher.size]
  unfold maxStateBytes
  omega

section Sample

def sampleKey : List Nat := List.replicate 32 0

def sampleEnvironment : Environment :=
  { stateEncryptionKey := some "0000000000000000000000000000000000000000000000000000000000000000" }

def sampleIv : List Nat := List.replicate 12 7

/-- A cipher that opens for one key and one purpose. -/
def sampleAead : Aead where
  encrypt _ _ _ plaintext := (plaintext, List.replicate 16 9)
  decrypt key _ aad message :=
    if key = sampleKey ∧ aad = associatedData "google-ads-state" then some message.1 else none

theorem sampleAead_decrypt (key iv aad : List Nat) (message : List Nat × List Nat) :
    sampleAead.decrypt key iv aad message =
      if key = sampleKey ∧ aad = associatedData "google-ads-state" then some message.1 else none :=
  rfl

theorem sampleKey_eq : encryptionKey sampleEnvironment = .ok (some sampleKey) := by
  decide +kernel

theorem sampleAead_delivers {text : List Char} :
    sampleAead.Delivers sampleKey sampleIv (associatedData "google-ads-state") (utf8Bytes text) where
  decrypts := by
    rw [sampleAead_decrypt]
    exact if_pos ⟨rfl, rfl⟩
  authentic key' aad' hne := by
    rw [sampleAead_decrypt]
    refine if_neg fun h => ?_
    rcases hne with hne | hne
    · exact hne h.1
    · exact hne h.2
  size := rfl
  tagSize := rfl
  isBytes b hb := by
    rcases List.mem_append.mp hb with hb | hb
    · exact utf8Bytes_lt hb
    · rw [List.eq_of_mem_replicate hb]
      decide

/-- The file of a text under the sample's key. -/
def sampleFile (text : List Char) : List Char :=
  fileText (envelope sampleIv (sampleAead.encrypt sampleKey sampleIv
    (associatedData "google-ads-state") (utf8Bytes text)))

theorem write_sample {value : JsValue} (text : List Char) (htext : stringify 0 value = some text)
    (hsize : (utf8Bytes text).length ≤ maxStateBytes) :
    writeEncryptedJsonSync sampleAead sampleEnvironment sampleIv value "google-ads-state" =
      .ok (sampleFile text) := by
  unfold writeEncryptedJsonSync
  rw [sampleKey_eq]
  simp only [bind, Except.bind, htext]
  exact if_neg (Nat.not_lt.mpr hsize)

theorem state_read_back_short :
    (∀ key, encryptionKey sampleEnvironment = .ok (some key) →
      Faithful sampleAead sampleEnvironment "google-ads-state" (sampleFile "\"gclid=a\"".toList)
        (.string "gclid=a")) ∧
    (encryptionKey sampleEnvironment = .ok none → isEnvelope (.string "gclid=a") = false →
      ReadsBack sampleAead sampleEnvironment "google-ads-state" (sampleFile "\"gclid=a\"".toList)
        (.string "gclid=a") ∧
      ∀ env' purpose', if env'.requires then
          Refuses sampleAead env' purpose' (sampleFile "\"gclid=a\"".toList)
        else ReadsBack sampleAead env' purpose' (sampleFile "\"gclid=a\"".toList)
          (.string "gclid=a")) := by
  refine state_read_back sampleAead sampleEnvironment sampleIv (.string "gclid=a")
    "google-ads-state" _ ⟨trivial, rfl⟩ (by decide) (fun key text hkey _ => ?_)
    (write_sample "\"gclid=a\"".toList (by decide +kernel) (by decide +kernel))
    (by decide +kernel)
  rw [sampleKey_eq] at hkey
  rw [← Option.some.inj (Except.ok.inj hkey)]
  exact sampleAead_delivers

/-- A text of one letter, `count` times. -/
def letters (count : Nat) : JsValue := .string (String.ofList (List.replicate count 'a'))

theorem letters_text (count : Nat) :
    ∃ text, stringify 0 (letters count) = some text ∧ (utf8Bytes text).length = count + 2 := by
  have hkept : (List.replicate count 'a').flatMap quoteChar = List.replicate count 'a' := by
    induction count with
    | zero => rfl
    | succ count ih =>
      rw [List.replicate_succ, List.flatMap_cons, ih]
      rfl
  refine ⟨quote (String.ofList (List.replicate count 'a')), rfl, ?_⟩
  unfold quote
  rw [String.toList_ofList, hkept, utf8Bytes_ascii]
  · simp
  · intro c hc
    have hcases : c = '\x22' ∨ c = 'a' := by
      simp only [List.mem_append, List.mem_cons, List.mem_replicate, List.not_mem_nil] at hc
      tauto
    rcases hcases with rfl | rfl <;> decide

/-- **A state is not always read back, and not only by its key.** Without a key a state is read under
another purpose; with one, a state of seven million letters is written and then refused. -/
theorem state_lost_or_shared :
    (∃ file, writeEncryptedJsonSync sampleAead {} sampleIv (letters 1) "google-ads-state" = .ok file ∧
      ReadsBack sampleAead {} "another-state" file (letters 1)) ∧
    ∃ file, writeEncryptedJsonSync sampleAead sampleEnvironment sampleIv (letters 7000000)
        "google-ads-state" = .ok file ∧
      Refuses sampleAead sampleEnvironment "google-ads-state" file := by
  constructor
  · refine ⟨fileText (letters 1), rfl, fun fallback => ?_⟩
    have hjson : IsJson (letters 1) := ⟨trivial, rfl⟩
    rw [read_plain hjson (by decide +kernel) rfl, if_neg (by decide)]
  · obtain ⟨text, htext, hsize⟩ := letters_text 7000000
    have hwrite := write_sample _ htext (by
      rw [hsize]
      decide)
    have hlarge : maxStateBytes < fileSize (sampleFile text) := by
      rw [← Nat.not_le, fileSize_sealed htext sampleKey_eq rfl (by decide) sampleAead_delivers hwrite,
        hsize]
      decide
    exact ⟨_, hwrite, read_large hlarge⟩

end Sample

end LinkSuffix.SecureState
