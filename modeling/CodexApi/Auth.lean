import CodexApi.Error

/-!
# Authentication

`authenticate` takes the client's key from the only `Authorization` header of a request. A header
value is a byte string here (`HeaderBytes`), and both validators of a secret are stated over its UTF-8
bytes (`utf8`): the configuration takes every secret without ASCII white space, while the parser of
the header takes visible ASCII.

Whoever is let in has sent the secret of the key (`authenticate_eq_ok`). The converse holds for a key
exactly when its secret is ASCII, or cannot be carried by a header at all (`authenticate_iff`).
-/

namespace CodexApi

/-! ### Bytes of texts -/

/-- The UTF-8 bytes of a string, `as_bytes`. -/
def utf8 (s : String) : List UInt8 := s.toList.flatMap String.utf8EncodeChar

@[simp]
theorem utf8_append (s t : String) : utf8 (s ++ t) = utf8 s ++ utf8 t := by
  simp [utf8]

/-- A string is determined by its bytes. -/
theorem utf8_injective {s t : String} (h : utf8 s = utf8 t) : s = t := by
  rw [← String.toByteArray_inj, ← String.utf8Encode_toList, ← String.utf8Encode_toList]
  exact congrArg List.toByteArray h

/-- The character of a byte, for bytes that are ASCII. -/
def asciiChar (b : UInt8) : Char := Char.ofNat b.toNat

theorem utf8EncodeChar_asciiChar {b : UInt8} (h : b < 128) :
    String.utf8EncodeChar (asciiChar b) = [b] := by
  have hlt : b.toNat < 128 := h
  have hvalue : (asciiChar b).val.toNat = b.toNat := by
    have hvalid : b.toNat.isValidChar := .inl (by omega)
    rw [asciiChar, Char.ofNat, dif_pos hvalid]
    rfl
  rw [String.utf8EncodeChar, hvalue, if_pos (by omega), UInt8.ofNat_toNat]

/-- A text of ASCII bytes has these bytes. -/
theorem utf8_ofList_asciiChar {bytes : List UInt8} (h : ∀ b ∈ bytes, b < 128) :
    utf8 (String.ofList (bytes.map asciiChar)) = bytes := by
  rw [utf8, String.toList_ofList]
  induction bytes with
  | nil => rfl
  | cons b bytes ih =>
    rw [List.map_cons, List.flatMap_cons, utf8EncodeChar_asciiChar (h b List.mem_cons_self),
      ih fun b' hb' => h b' (List.mem_cons_of_mem _ hb')]
    rfl

/-! ### Headers -/

/-- Whether a header value may hold the byte. -/
def isHeaderByte (b : UInt8) : Bool := b = 9 || (32 ≤ b && b ≠ 127)

/-- A header value. -/
structure HeaderBytes where
  bytes : List UInt8
  all_header : bytes.all isHeaderByte = true
deriving DecidableEq

/-- The headers of a request, in order, with lower-case names. -/
abbrev RequestHeaders := List (String × HeaderBytes)

/-- `HeaderMap::get_all`. -/
def RequestHeaders.getAll (headers : RequestHeaders) (name : String) : List HeaderBytes :=
  headers.filterMap fun header => if header.1 = name then some header.2 else none

/-- Visible ASCII, space and tab. -/
def isVisibleAscii (b : UInt8) : Bool := (32 ≤ b && b < 127) || b = 9

/-- `HeaderValue::to_str`. -/
def HeaderBytes.toStr (value : HeaderBytes) : Option String :=
  if value.bytes.all isVisibleAscii then some (String.ofList (value.bytes.map asciiChar)) else none

/-! ### The key of a request -/

/-- Who a request comes from. -/
structure ClientIdentity where
  id : String
  quota : QuotaLimits
deriving DecidableEq

/-- The identity of the holder of a key. -/
def ApiKeyConfig.identity (key : ApiKeyConfig) : ClientIdentity := ⟨key.id, key.quota⟩

/-- `strip_prefix`. -/
def stripPrefix (s text : String) : Option String :=
  if s.toList <+: text.toList then some (String.ofList (text.toList.drop s.toList.length)) else none

/-- `authenticate`. -/
def authenticate (headers : RequestHeaders) (config : Config) : Except ApiError ClientIdentity :=
  let authorizationValues := headers.getAll "authorization"
  match authorizationValues.head?.bind HeaderBytes.toStr with
  | none => .error .invalidApiKey
  | some authorization =>
    if authorizationValues.tail ≠ [] then .error .invalidApiKey
    else
      match (stripPrefix "Bearer " authorization).filter
          fun token => token ≠ "" && !token.toList.any isAsciiWhitespace with
      | none => .error .invalidApiKey
      | some provided =>
        match config.apiKeys.find? fun candidate => utf8 provided = utf8 candidate.secret with
        | none => .error .invalidApiKey
        | some candidate => .ok candidate.identity

/-! ### Who is let in -/

variable {config : Config} {headers : RequestHeaders} {key : ApiKeyConfig} {value : HeaderBytes}
  {identity : ClientIdentity}

theorem isVisibleAscii_lt {b : UInt8} (h : isVisibleAscii b = true) : b < 128 := by
  simp only [isVisibleAscii, Bool.or_eq_true, Bool.and_eq_true, decide_eq_true_eq] at h
  rcases h with ⟨-, h⟩ | rfl
  · exact UInt8.lt_trans h (by decide)
  · decide

/-- The text of a value has its bytes. -/
theorem utf8_of_toStr {text : String} (h : value.toStr = some text) :
    value.bytes.all isVisibleAscii = true ∧ utf8 text = value.bytes := by
  simp only [HeaderBytes.toStr] at h
  split_ifs at h with hvisible
  cases h
  exact ⟨hvisible, utf8_ofList_asciiChar fun b hb =>
    isVisibleAscii_lt (List.all_eq_true.mp hvisible b hb)⟩

/-- A value of visible ASCII that has the bytes of a text is that text. -/
theorem toStr_eq_some {text : String} (hvisible : value.bytes.all isVisibleAscii = true)
    (hbytes : value.bytes = utf8 text) : value.toStr = some text := by
  have hstr : value.toStr = some (String.ofList (value.bytes.map asciiChar)) := if_pos hvisible
  rw [hstr, utf8_injective ((utf8_of_toStr hstr).2.trans hbytes)]

theorem stripPrefix_eq_some {s text rest : String} :
    stripPrefix s text = some rest ↔ text = s ++ rest := by
  unfold stripPrefix
  constructor
  · intro h
    split_ifs at h with hprefix
    obtain ⟨tail, htail⟩ := hprefix
    cases h
    rw [← String.toList_inj, ← htail]
    simp
  · rintro rfl
    simp

/-- The header that sends a secret. -/
def bearer (secret : String) : List UInt8 := utf8 "Bearer " ++ utf8 secret

/-- A request has exactly one `Authorization` value, which sends the secret. -/
def SendsOnly (headers : RequestHeaders) (secret : String) : Prop :=
  ∃ value, headers.getAll "authorization" = [value] ∧ value.bytes = bearer secret

theorem visible_bearer {secret : String} :
    (bearer secret).all isVisibleAscii = (utf8 secret).all isVisibleAscii := by
  rw [bearer, List.all_append, show (utf8 "Bearer ").all isVisibleAscii = true by decide,
    Bool.true_and]

/-- **Who is let in**: the holder of a key that is of visible ASCII, who sends it in the only
`Authorization` header. -/
theorem authenticate_eq_ok (hconfig : config.validate = .ok ()) :
    authenticate headers config = .ok identity ↔ ∃ key ∈ config.apiKeys,
      SendsOnly headers key.secret ∧ (utf8 key.secret).all isVisibleAscii = true ∧
        key.identity = identity := by
  constructor
  · intro h
    simp only [authenticate] at h
    split at h
    · cases h
    next authorization hauthorization =>
    split_ifs at h with hsole
    split at h
    · cases h
    next provided hprovided =>
    split at h
    · cases h
    next candidate hfind =>
    cases h
    obtain ⟨value, hhead, hstr⟩ := Option.bind_eq_some_iff.mp hauthorization
    obtain ⟨hvisible, hbytes⟩ := utf8_of_toStr hstr
    obtain rfl := stripPrefix_eq_some.mp (Option.filter_eq_some_iff.mp hprovided).1
    have hsecret : utf8 provided = utf8 candidate.secret := by simpa using List.find?_some hfind
    have hbearer : value.bytes = bearer candidate.secret := by
      rw [← hbytes, utf8_append, hsecret, bearer]
    refine ⟨candidate, List.mem_of_find?_eq_some hfind, ⟨value, ?_, hbearer⟩, ?_, rfl⟩
    · rw [← List.cons_head?_tail hhead, not_not.mp hsole]
    · rw [← visible_bearer, ← hbearer, hvisible]
  · rintro ⟨key, hkey, ⟨value, hall, hbytes⟩, hvisible, rfl⟩
    obtain ⟨hnonempty, hspace⟩ := config.validated_secret hconfig hkey
    have hstr : value.toStr = some ("Bearer " ++ key.secret) :=
      toStr_eq_some (by rw [hbytes, visible_bearer, hvisible]) (by rw [hbytes, utf8_append, bearer])
    have htoken : (stripPrefix "Bearer " ("Bearer " ++ key.secret)).filter
        (fun token => token ≠ "" && !token.toList.any isAsciiWhitespace) = some key.secret := by
      rw [stripPrefix_eq_some.mpr rfl, Option.filter_some, if_pos (by simp [hnonempty, hspace])]
    have hfind : config.apiKeys.find? (fun candidate => utf8 key.secret = utf8 candidate.secret) =
        some key := by
      obtain ⟨candidate, hcandidate⟩ := Option.isSome_iff_exists.mp
        (List.find?_isSome (p := fun candidate => utf8 key.secret = utf8 candidate.secret).mpr
          ⟨key, hkey, decide_eq_true rfl⟩)
      have heq : utf8 key.secret = utf8 candidate.secret := by simpa using List.find?_some hcandidate
      rw [hcandidate, config.validated_secret_unique hconfig hkey
        (List.mem_of_find?_eq_some hcandidate) (utf8_injective heq)]
    simp only [authenticate, hall, List.head?_cons, Option.bind_some, hstr, List.tail_cons, ne_eq,
      not_true_eq_false, if_false]
    rw [htoken]
    simp only [hfind]

/-- The identity of a key is given to nobody else. -/
theorem authenticate_key (hconfig : config.validate = .ok ()) (hkey : key ∈ config.apiKeys) :
    authenticate headers config = .ok key.identity ↔
      SendsOnly headers key.secret ∧ (utf8 key.secret).all isVisibleAscii = true := by
  rw [authenticate_eq_ok hconfig]
  constructor
  · rintro ⟨key', hkey', hsends, hvisible, hidentity⟩
    have hid : key'.id = key.id := congrArg ClientIdentity.id hidentity
    cases config.validated_unique hconfig hkey' hkey hid
    exact ⟨hsends, hvisible⟩
  · rintro ⟨hsends, hvisible⟩
    exact ⟨key, hkey, hsends, hvisible, rfl⟩

/-- A byte that a header can hold is visible ASCII exactly when it is ASCII. -/
theorem isVisibleAscii_iff_of_isHeaderByte {b : UInt8} (h : isHeaderByte b = true) :
    isVisibleAscii b = true ↔ b < 128 := by
  refine ⟨isVisibleAscii_lt, fun hlt => ?_⟩
  simp only [isHeaderByte, isVisibleAscii, Bool.or_eq_true, Bool.and_eq_true, decide_eq_true_eq,
    ne_eq, UInt8.lt_iff_toNat_lt, UInt8.le_iff_toNat_le, ← UInt8.toNat_inj] at *
  simp only [show (127 : UInt8).toNat = 127 from rfl, show (128 : UInt8).toNat = 128 from rfl] at *
  omega

/-- A secret that a header can carry. -/
def Carried (secret : String) : Prop := ∀ b ∈ utf8 secret, isHeaderByte b = true

/-- **Authentication accepts exactly the configured secrets that are ASCII.** For a key of a
validated configuration: over all requests, its identity is given exactly to those that send its
secret in their only `Authorization` header, if and only if the secret is ASCII or cannot be carried
by a header at all. -/
theorem authenticate_iff (hconfig : config.validate = .ok ()) (hkey : key ∈ config.apiKeys) :
    (∀ headers : RequestHeaders,
      authenticate headers config = .ok key.identity ↔ SendsOnly headers key.secret) ↔
    (Carried key.secret → ∀ b ∈ utf8 key.secret, b < 128) := by
  have hvisible_iff : Carried key.secret →
      ((utf8 key.secret).all isVisibleAscii = true ↔ ∀ b ∈ utf8 key.secret, b < 128) := by
    intro hcarried
    rw [List.all_eq_true]
    exact forall₂_congr fun b hb => isVisibleAscii_iff_of_isHeaderByte (hcarried b hb)
  constructor
  · intro hexact hcarried
    have hall : (bearer key.secret).all isHeaderByte = true := by
      rw [bearer, List.all_append, show (utf8 "Bearer ").all isHeaderByte = true by decide,
        Bool.true_and, List.all_eq_true]
      exact hcarried
    have hsends : SendsOnly [("authorization", ⟨bearer key.secret, hall⟩)] key.secret :=
      ⟨⟨bearer key.secret, hall⟩, rfl, rfl⟩
    exact (hvisible_iff hcarried).mp
      ((authenticate_key hconfig hkey).mp ((hexact _).mpr hsends)).2
  · intro hascii headers
    rw [authenticate_key hconfig hkey, and_iff_left_iff_imp]
    rintro ⟨value, -, hbytes⟩
    have hcarried : Carried key.secret := by
      intro b hb
      refine List.all_eq_true.mp value.all_header b ?_
      rw [hbytes]
      exact List.mem_append_right _ hb
    exact (hvisible_iff hcarried).mpr (hascii hcarried)

/-! ### A secret outside ASCII -/

/-- A configuration of two keys, one with a secret outside ASCII. -/
def accentConfig : Config where
  enableWebsockets := false
  supportsWebsockets := false
  statePath := "state"
  authFile := "auth"
  baseUrlScheme := "https"
  oauthTokenUrlScheme := "https"
  fallbackModel := none
  apiKeys := [.unlimited "plain" "secret", .unlimited "accent" "café"]
  modelPrices := OrdMap.ofList [("gpt", ⟨.zero, .zero, .zero, none⟩)]

/-- The headers of a request that sends a secret. -/
def sending (secret : String) (h : (bearer secret).all isHeaderByte = true := by decide) :
    RequestHeaders :=
  [("host", ⟨utf8 "host", by decide⟩), ("authorization", ⟨bearer secret, h⟩)]

/-- The key with the plain secret is its holder's. -/
theorem authenticate_iff_plain :
    accentConfig.validate = .ok () ∧
      ∀ headers : RequestHeaders,
        authenticate headers accentConfig = .ok ⟨"plain", ⟨none, none⟩⟩ ↔
          SendsOnly headers "secret" := by
  have hconfig : accentConfig.validate = .ok () := by decide
  have hkey : ApiKeyConfig.unlimited "plain" "secret" ∈ accentConfig.apiKeys := List.mem_cons_self
  exact ⟨hconfig, (authenticate_iff hconfig hkey).mpr fun _ => by decide +kernel⟩

/-- **A secret that never authenticates.** The configuration is accepted and the request sends the
secret as the header allows, but is refused. -/
theorem accent_refused :
    accentConfig.validate = .ok () ∧
      SendsOnly (sending "café") "café" ∧
      authenticate (sending "café") accentConfig = .error .invalidApiKey ∧
      authenticate (sending "secret") accentConfig = .ok ⟨"plain", ⟨none, none⟩⟩ :=
  ⟨by decide, ⟨_, rfl, rfl⟩, by decide, by decide⟩

end CodexApi
