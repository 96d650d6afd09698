import DomProtocol.Bech32m

/-! # Addresses (`dom-core/address`)

A Wallet V3 address is a versioned payload of forty octets, written in Bech32m under the
human-readable part of its network. **`Address`** carries what every constructor checks.

`Address.decode` lowercases its text with the Unicode mapping of the standard library before it
looks for non-ASCII characters. That mapping is the parameter **`LowercaseMapping`**. It sends the
Kelvin sign to `k`, which is why more texts are accepted than encodings and their uppercase forms
(**`decode_eq_ok`**). -/

namespace DomProtocol

/-! ## Lowercase -/

/-- U+212A KELVIN SIGN, the only character outside ASCII whose lowercase form is in ASCII. -/
def kelvinSign : Char := Char.ofNat 0x212A

/-- What lowercasing does to one character. -/
def Lowers (c : Char) (image : List Char) : Prop :=
  if c.toNat < 128 then image = [c.toLower]
  else if c = kelvinSign then image = ['k']
  else ∃ d ∈ image, 128 ≤ d.toNat

/-- The Unicode lowercase mapping of the standard library (`str::to_lowercase`). The image of a
character may depend on its surroundings, as that of a final sigma does. -/
class LowercaseMapping where
  toLowercase : String → String
  images : ∀ text, ∃ pieces, List.Forall₂ Lowers text.toList pieces ∧
    (toLowercase text).toList = pieces.flatten

/-- `u8::is_ascii_lowercase`. -/
def isAsciiLowercase (octet : UInt8) : Bool := 97 ≤ octet.toNat && octet.toNat ≤ 122

/-- `u8::is_ascii_uppercase`. -/
def isAsciiUppercase (octet : UInt8) : Bool := 65 ≤ octet.toNat && octet.toNat ≤ 90

/-- `str::to_ascii_uppercase`. -/
def toAsciiUppercase (text : String) : String := String.ofList (text.toList.map Char.toUpper)

/-! ## Networks and keys -/

def addressHrpMainnet : String := "dom"
def addressHrpTestnet : String := "tdom"
def addressHrpRegtest : String := "rdom"
def addressPayloadVersionV3 : UInt8 := 1
def addressTypeStandard : UInt8 := 0
def addressKeyTypeSecp256k1Compressed : UInt8 := 0
def addressV3PayloadLen : Nat := 1 + 1 + 1 + 4 + 33
def maxAddressLen : Nat := 90

/-- The human-readable part of a supported network. -/
def hrpForNetworkMagic (networkMagic : UInt32) : Option String :=
  if networkMagic = networkMagicMainnet then some addressHrpMainnet
  else if networkMagic = networkMagicTestnet then some addressHrpTestnet
  else if networkMagic = networkMagicRegtest then some addressHrpRegtest
  else none

/-- The network has a human-readable part. -/
def SupportedNetwork (networkMagic : UInt32) : Prop := (hrpForNetworkMagic networkMagic).isSome

instance (networkMagic : UInt32) : Decidable (SupportedNetwork networkMagic) :=
  inferInstanceAs (Decidable (_ = true))

/-- The network a human-readable part announces. -/
def networkMagicForHrp (hrp : String) : Option { magic : UInt32 // SupportedNetwork magic } :=
  if hrp = addressHrpMainnet then some ⟨networkMagicMainnet, by decide⟩
  else if hrp = addressHrpTestnet then some ⟨networkMagicTestnet, by decide⟩
  else if hrp = addressHrpRegtest then some ⟨networkMagicRegtest, by decide⟩
  else none

/-- The first octet of a key. -/
def keyPrefix (key : Octets 33) : UInt8 := key.toList.getD 0 0

/-- The key starts like a compressed secp256k1 public key. -/
def CompressedPublicKey (key : Octets 33) : Prop := keyPrefix key = 0x02 ∨ keyPrefix key = 0x03

instance (key : Octets 33) : Decidable (CompressedPublicKey key) :=
  inferInstanceAs (Decidable (_ ∨ _))

/-- Reject a key that does not start like a compressed public key. -/
def validateCompressedPublicKey (key : Octets 33) : Result (PLift (CompressedPublicKey key)) :=
  require (CompressedPublicKey key) (.malformed
    s!"address key is not a compressed secp256k1 public key: prefix 0x{hexNat 2 (keyPrefix key).toNat}")

/-! ## Addresses -/

/-- A DOM address, with what every constructor checks. -/
@[ext] structure Address where
  payload : Octets 33
  isMainnet : Bool
  version : UInt8
  addressType : UInt8
  keyType : UInt8
  networkMagic : UInt32
  compressed : CompressedPublicKey payload
  supported : SupportedNetwork networkMagic
  isMainnet_eq : isMainnet = decide (networkMagic = networkMagicMainnet)
  version_eq : version = addressPayloadVersionV3
  addressType_eq : addressType = addressTypeStandard
  keyType_eq : keyType = addressKeyTypeSecp256k1Compressed

namespace Address

variable {magic : { magic : UInt32 // SupportedNetwork magic }} {address : Address} {s : String}
  {P : Char → Prop} {c : Char} {image : List Char}

/-- The human-readable part `encode` writes. -/
def networkHrp (address : Address) : String :=
  (hrpForNetworkMagic address.networkMagic).get address.supported

/-- Return the final Wallet V3 binary payload bytes. -/
def toPayloadBytes (address : Address) : Bytes :=
  [address.version, address.addressType, address.keyType] ++
    leBytes 4 address.networkMagic.toNat ++ address.payload.toList

/-- Encode address to Bech32m string. -/
def encode (address : Address) : String := bech32mEncode address.networkHrp address.toPayloadBytes

/-- The second half of `decode`: the fields of a payload of forty octets. -/
def ofPayload (hrpNetworkMagic : { magic : UInt32 // SupportedNetwork magic }) (payload : Bytes) :
    Result Address := do
  let version := payload.getD 0 0
  let versionEq ← require (version = addressPayloadVersionV3)
    (.malformed s!"unsupported address payload version {version}")
  let addressType := payload.getD 1 0
  let addressTypeEq ← require (addressType = addressTypeStandard)
    (.malformed s!"unsupported address type {addressType}")
  let keyType := payload.getD 2 0
  let keyTypeEq ← require (keyType = addressKeyTypeSecp256k1Compressed)
    (.malformed s!"unsupported address key type {keyType}")
  let networkMagic := UInt32.ofNat (leNat ((payload.drop 3).take 4))
  let sameNetwork ← require (networkMagic = hrpNetworkMagic)
    (.malformed "address HRP does not match payload network magic")
  let key : Octets 33 := Octets.ofList (payload.drop 7)
  let compressed ← validateCompressedPublicKey key
  .ok {
    payload := key
    isMainnet := decide (networkMagic = networkMagicMainnet)
    version, addressType, keyType, networkMagic
    compressed := compressed.down
    supported := by rw [sameNetwork.down]; exact hrpNetworkMagic.2
    isMainnet_eq := rfl
    version_eq := versionEq.down
    addressType_eq := addressTypeEq.down
    keyType_eq := keyTypeEq.down }

/-- An address is determined by its key and its network. -/
theorem eq_of_payload_of_networkMagic {left right : Address} (hpayload : left.payload = right.payload)
    (hmagic : left.networkMagic = right.networkMagic) : left = right := by
  ext1
  · exact hpayload
  · rw [left.isMainnet_eq, right.isMainnet_eq, hmagic]
  · rw [left.version_eq, right.version_eq]
  · rw [left.addressType_eq, right.addressType_eq]
  · rw [left.keyType_eq, right.keyType_eq]
  · exact hmagic

/-- The payload of an address has forty octets. -/
theorem length_toPayloadBytes (address : Address) :
    address.toPayloadBytes.length = addressV3PayloadLen := by
  simp [toPayloadBytes, addressV3PayloadLen]

/-- A payload needs no padding. -/
theorem whole (address : Address) : address.toPayloadBytes.length % 5 = 0 := by
  rw [length_toPayloadBytes]
  rfl

/-- The four octets of a network magic are read back. -/
theorem ofNat_leNat_leBytes (magic : UInt32) :
    UInt32.ofNat (leNat (leBytes 4 magic.toNat)) = magic := by
  rw [leNat_leBytes magic.toNat_lt, UInt32.ofNat_toNat]

/-- Any four octets are those of the network magic they are read as. -/
theorem leBytes_ofNat_leNat {octets : Bytes} (size : octets.length = 4) :
    leBytes 4 (UInt32.ofNat (leNat octets)).toNat = octets := by
  have hfits : leNat octets < 2 ^ 32 := by
    have := leNat_lt octets
    rw [size] at this
    exact this
  rw [UInt32.toNat_ofNat_of_lt' hfits, ← size, leBytes_leNat]

/-- **A payload is read as the address it was written from.** -/
theorem ofPayload_eq_ok {payload : Bytes} (size : payload.length = addressV3PayloadLen) :
    ofPayload magic payload = .ok address ↔
      address.networkMagic = magic ∧ payload = address.toPayloadBytes := by
  constructor
  · intro h
    simp only [ofPayload, bind_eq_ok] at h
    obtain ⟨version, -, addressType, -, keyType, -, sameNetwork, -, compressed, -, h⟩ := h
    cases h
    refine ⟨sameNetwork.down, ?_⟩
    have hmagic : ((payload.drop 3).take 4).length = 4 := by
      rw [List.length_take, List.length_drop, size]
      rfl
    have hkey : (payload.drop 7).length = 33 := by
      rw [List.length_drop, size]
      rfl
    -- the fields are consecutive slices of the payload
    rw [toPayloadBytes, leBytes_ofNat_leNat hmagic, Octets.toList_ofList hkey]
    match payload, size with
    | b0 :: b1 :: b2 :: b3 :: b4 :: b5 :: b6 :: rest, _ => rfl
  · rintro ⟨hmagic, rfl⟩
    have hread : UInt32.ofNat (leNat ((address.toPayloadBytes.drop 3).take 4)) =
        address.networkMagic := ofNat_leNat_leBytes address.networkMagic
    have hkey : (Octets.ofList (address.toPayloadBytes.drop 7) : Octets 33) = address.payload :=
      Octets.ofList_toList address.payload
    simp only [ofPayload, bind_eq_ok]
    refine ⟨⟨address.version_eq⟩, require_of _ _, ⟨address.addressType_eq⟩, require_of _ _,
      ⟨address.keyType_eq⟩, require_of _ _, ⟨hread.trans hmagic⟩, require_of _ _,
      ⟨hkey ▸ address.compressed⟩, require_of _ _, ?_⟩
    exact congrArg Except.ok (eq_of_payload_of_networkMagic hkey hread)

/-! ## Reading an encoded address -/

theorem networkMagicForHrp_eq_some {hrp : String} :
    networkMagicForHrp hrp = some magic ↔ hrpForNetworkMagic magic = some hrp := by
  obtain ⟨magic, supported⟩ := magic
  constructor
  · intro h
    unfold networkMagicForHrp at h
    split_ifs at h with hmain htest hreg
    · cases h
      rw [hmain]
      rfl
    · cases h
      rw [htest]
      rfl
    · cases h
      rw [hreg]
      rfl
  · intro h
    unfold hrpForNetworkMagic at h
    split_ifs at h with hmain htest hreg
    · cases h
      subst hmain
      rfl
    · cases h
      subst htest
      rfl
    · cases h
      subst hreg
      rfl

theorem networkHrp_mem (address : Address) :
    address.networkHrp ∈ [addressHrpMainnet, addressHrpTestnet, addressHrpRegtest] := by
  have hsome := Option.some_get address.supported
  change some address.networkHrp = _ at hsome
  generalize address.networkHrp = hrp at hsome ⊢
  unfold hrpForNetworkMagic at hsome
  split_ifs at hsome <;> cases hsome <;> decide

/-- The characters of an encoded address: ASCII, and none of them uppercase. -/
def PlainChar (c : Char) : Prop := c.toNat < 128 ∧ ¬ (65 ≤ c.toNat ∧ c.toNat ≤ 90)

instance (c : Char) : Decidable (PlainChar c) := inferInstanceAs (Decidable (_ ∧ _))

theorem plainChar_charsetAt (v : Nat) : PlainChar (charsetAt v) :=
  of_decide_eq_true (charsetAt_of_all (p := fun c => PlainChar c) (by decide) v)

theorem toList_encode (address : Address) :
    address.encode.toList = address.networkHrp.toList ++
      '1' :: (encodedValues address.networkHrp address.toPayloadBytes).map charsetAt :=
  toList_bech32mEncode _ _

theorem plainChar_encode (address : Address) : ∀ c ∈ address.encode.toList, PlainChar c := by
  have hhrps : [addressHrpMainnet, addressHrpTestnet, addressHrpRegtest].all
      (fun hrp => hrp.toList.all fun c => PlainChar c) = true := by decide
  have hhrp := List.all_eq_true.mp hhrps _ address.networkHrp_mem
  rw [toList_encode, List.forall_mem_append, List.forall_mem_cons]
  refine ⟨fun c hc => of_decide_eq_true (List.all_eq_true.mp hhrp c hc), by decide, ?_⟩
  intro c hc
  obtain ⟨v, -, rfl⟩ := List.mem_map.mp hc
  exact plainChar_charsetAt v

/-- An encoded address is short enough to be decoded. -/
theorem length_utf8_encode_le (address : Address) :
    (utf8 address.encode).length ≤ maxAddressLen := by
  have hhrps : ∀ hrp ∈ [addressHrpMainnet, addressHrpTestnet, addressHrpRegtest],
      hrp.toList.length ≤ 4 := by decide
  have hhrp := hhrps _ address.networkHrp_mem
  obtain ⟨acc, hdata⟩ := to5bit_regrouped address.whole
  have hsize := hdata.size
  rw [List.length_map, address.length_toPayloadBytes] at hsize
  rw [← String.ofList_toList (s := address.encode), utf8_of_ascii fun c hc =>
    (address.plainChar_encode c hc).1, List.length_map, toList_encode, List.length_append,
    List.length_cons, List.length_map, encodedValues, List.length_append, length_checksumGroups]
  simp only [addressV3PayloadLen, maxAddressLen] at hsize ⊢
  omega

variable [LowercaseMapping]

/-- Decode a Bech32m address string. -/
def decode (s : String) : Result Address := do
  rejectIf (maxAddressLen < (utf8 s).length) (.malformed "address too long")
  let hasLower := (utf8 s).any isAsciiLowercase
  let hasUpper := (utf8 s).any isAsciiUppercase
  rejectIf (hasLower && hasUpper) (.malformed "mixed-case bech32m address is not allowed")
  let decoded ← bech32mDecode (LowercaseMapping.toLowercase s)
  rejectIf (decoded.2.length ≠ addressV3PayloadLen) (.malformed
    s!"address payload must be {addressV3PayloadLen} bytes, got {decoded.2.length}")
  let hrpNetworkMagic ← okOr (.malformed s!"unknown address HRP: {decoded.1}")
    (networkMagicForHrp decoded.1)
  ofPayload hrpNetworkMagic decoded.2

/-- **The text behind the case rules**: decoding succeeds exactly when the lowercase form is an
encoded address. -/
theorem decode_eq_ok_lowercase :
    decode s = .ok address ↔
      (utf8 s).length ≤ maxAddressLen ∧
        ¬ ((utf8 s).any isAsciiLowercase = true ∧ (utf8 s).any isAsciiUppercase = true) ∧
        LowercaseMapping.toLowercase s = address.encode := by
  simp only [decode, bind_eq_ok, rejectIf_eq_ok, okOr_eq_ok, Nat.not_lt, not_not, Bool.and_eq_true]
  have whole : ∀ payload : Bytes, payload.length = addressV3PayloadLen → payload.length % 5 = 0 := by
    intro payload hsize
    rw [hsize]
    rfl
  constructor
  · rintro ⟨⟨⟩, hlong, ⟨⟩, hcase, ⟨hrp, payload⟩, hdecode, ⟨⟩, hsize, magic, hmagic, hpayload⟩
    obtain ⟨-, htext⟩ := (bech32mDecode_eq_ok (whole payload hsize)).mp hdecode
    obtain ⟨hnetwork, rfl⟩ := (ofPayload_eq_ok hsize).mp hpayload
    refine ⟨hlong, hcase, ?_⟩
    rw [networkMagicForHrp_eq_some, ← hnetwork] at hmagic
    rw [htext, encode, networkHrp]
    simp only [hmagic, Option.get_some]
  · rintro ⟨hlong, hcase, htext⟩
    have hne : address.networkHrp ≠ "" := by
      have hhrps : ∀ hrp ∈ [addressHrpMainnet, addressHrpTestnet, addressHrpRegtest],
          hrp ≠ "" := by decide
      exact hhrps _ address.networkHrp_mem
    have hsize := address.length_toPayloadBytes
    refine ⟨(), hlong, (), hcase, (address.networkHrp, address.toPayloadBytes),
      (bech32mDecode_eq_ok (whole _ hsize)).mpr ⟨hne, htext⟩, (), hsize,
      ⟨address.networkMagic, address.supported⟩, ?_, (ofPayload_eq_ok hsize).mpr ⟨rfl, rfl⟩⟩
    rw [networkMagicForHrp_eq_some]
    exact (Option.some_get address.supported).symm

/-! ## Case -/

/-- A character, or the letter put in place of the Kelvin sign. -/
def kelvinTo (letter c : Char) : Char := if c = kelvinSign then letter else c

/-- A text with a letter in place of every Kelvin sign. -/
def replaceKelvin (letter : Char) (s : String) : String :=
  String.ofList (s.toList.map (kelvinTo letter))

/-- The lowercase form of a character of ASCII, or of the Kelvin sign. -/
def lowerChar (c : Char) : Char := if c = kelvinSign then 'k' else c.toLower

section

omit [LowercaseMapping]

theorem ascii_induction (h : ∀ n < 128, P (Char.ofNat n)) (ascii : c.toNat < 128) : P c := by
  have := h c.toNat ascii
  rwa [Char.ofNat_toNat] at this

/-- The characters whose lowercase form is in ASCII. -/
def LowersToAscii (c : Char) : Prop := c.toNat < 128 ∨ c = kelvinSign

theorem lowerChar_of_ascii (ascii : c.toNat < 128) : lowerChar c = c.toLower := by
  refine if_neg ?_
  rintro rfl
  exact absurd ascii (by decide)

/-- The image of a character that lowers to ASCII is one character of ASCII. -/
theorem lowers_of_lowersToAscii (h : Lowers c image)
    (hc : LowersToAscii c) : image = [lowerChar c] ∧ (lowerChar c).toNat < 128 := by
  obtain hascii | rfl := hc
  · rw [Lowers, if_pos hascii] at h
    rw [lowerChar_of_ascii hascii]
    exact ⟨h, ascii_induction (P := fun c => c.toLower.toNat < 128) (by decide) hascii⟩
  · exact ⟨h, by decide⟩

/-- No other character has an image in ASCII. -/
theorem lowersToAscii_of_lowers (h : Lowers c image)
    (ascii : ∀ d ∈ image, d.toNat < 128) : LowersToAscii c := by
  by_contra hc
  obtain ⟨hother, hkelvin⟩ := not_or.mp hc
  rw [Lowers, if_neg hother, if_neg hkelvin] at h
  obtain ⟨d, hd, hlarge⟩ := h
  exact absurd (ascii d hd) (Nat.not_lt.mpr hlarge)

end

/-- **Lowercase forms in ASCII** come from texts of ASCII characters and Kelvin signs, character by
character. -/
theorem toLowercase_eq_iff {text : List Char} (ascii : ∀ c ∈ text, c.toNat < 128) :
    LowercaseMapping.toLowercase s = String.ofList text ↔
      (∀ c ∈ s.toList, LowersToAscii c) ∧ s.toList.map lowerChar = text := by
  obtain ⟨pieces, hpieces, hflat⟩ := LowercaseMapping.images s
  rw [← String.toList_inj, hflat, String.toList_ofList]
  clear hflat
  generalize s.toList = chars at hpieces ⊢
  induction hpieces generalizing text with
  | nil => simp
  | @cons c image chars pieces hhead hrest ih =>
    rw [List.flatten_cons, List.forall_mem_cons, List.map_cons]
    constructor
    · rintro rfl
      rw [List.forall_mem_append] at ascii
      have hc := lowersToAscii_of_lowers hhead ascii.1
      obtain ⟨hchars, hmap⟩ := (ih ascii.2).mp rfl
      rw [hmap, (lowers_of_lowersToAscii hhead hc).1]
      exact ⟨⟨hc, hchars⟩, rfl⟩
    · rintro ⟨⟨hc, hchars⟩, rfl⟩
      rw [List.forall_mem_cons] at ascii
      rw [(lowers_of_lowersToAscii hhead hc).1, (ih ascii.2).mpr ⟨hchars, rfl⟩]
      rfl

section

omit [LowercaseMapping]

/-- A case test of the source on the octets is a range test on the characters. -/
theorem any_range_iff {low high : Nat} (hhigh : high < 128) (s : String) :
    ((utf8 s).any fun octet => decide (low ≤ octet.toNat) && decide (octet.toNat ≤ high)) = true ↔
      ∃ c ∈ s.toList, low ≤ c.toNat ∧ c.toNat ≤ high := by
  rw [any_utf8 (by intro octet h; simp at h; omega), List.any_eq_true]
  refine exists_congr fun c => and_congr_right fun _ => ?_
  by_cases hc : c.toNat < 128
  · have : c.toNat % 256 = c.toNat := by omega
    simp [hc, this]
  · simp [hc]
    omega

theorem lowerChar_eq_toLower (c : Char) : lowerChar c = (kelvinTo 'K' c).toLower := by
  unfold lowerChar kelvinTo
  split <;> rfl

/-- Without uppercase letters, lowercasing only replaces Kelvin signs. -/
theorem lowerChar_of_not_upper (hc : LowersToAscii c)
    (h : ¬ (65 ≤ c.toNat ∧ c.toNat ≤ 90)) : lowerChar c = kelvinTo 'k' c := by
  obtain hascii | rfl := hc
  · have hlower := ascii_induction
      (P := fun c => ¬ (65 ≤ c.toNat ∧ c.toNat ≤ 90) → lowerChar c = kelvinTo 'k' c)
      (by decide) hascii
    exact hlower h
  · rfl

/-- Without lowercase letters, lowercasing is undone by the ASCII uppercase form, Kelvin signs
apart. -/
theorem toUpper_lowerChar (hc : LowersToAscii c)
    (h : ¬ (97 ≤ c.toNat ∧ c.toNat ≤ 122)) : (lowerChar c).toUpper = kelvinTo 'K' c := by
  obtain hascii | rfl := hc
  · have hupper := ascii_induction
      (P := fun c => ¬ (97 ≤ c.toNat ∧ c.toNat ≤ 122) → (lowerChar c).toUpper = kelvinTo 'K' c)
      (by decide) hascii
    exact hupper h
  · rfl

/-- The uppercase form of a plain character is in ASCII, not lowercase, and lowers back to it. -/
theorem PlainChar.toUpper {d : Char} (plain : PlainChar d) :
    d.toUpper.toNat < 128 ∧ ¬ (97 ≤ d.toUpper.toNat ∧ d.toUpper.toNat ≤ 122) ∧
      d.toUpper.toLower = d := by
  have hall := ascii_induction
    (P := fun d => ¬ (65 ≤ d.toNat ∧ d.toNat ≤ 90) → d.toUpper.toNat < 128 ∧
      ¬ (97 ≤ d.toUpper.toNat ∧ d.toUpper.toNat ≤ 122) ∧ d.toUpper.toLower = d)
    (by decide) plain.1
  exact hall plain.2

/-- A character that is the Kelvin sign or a given one has the property of both. -/
theorem of_kelvinTo {letter : Char} (kelvin : P kelvinSign)
    (other : P (kelvinTo letter c)) : P c := by
  unfold kelvinTo at other
  split at other
  · subst ‹c = kelvinSign›
    exact kelvin
  · exact other

end

/-- **Which spellings of a text in plain characters are accepted**: written in lowercase or in
uppercase throughout, where Kelvin signs may stand for the letter k of either case. -/
theorem spelling_iff {text : String} (plain : ∀ c ∈ text.toList, PlainChar c) :
    ¬ ((utf8 s).any isAsciiLowercase = true ∧ (utf8 s).any isAsciiUppercase = true) ∧
        LowercaseMapping.toLowercase s = text ↔
      replaceKelvin 'k' s = text ∨ replaceKelvin 'K' s = toAsciiUppercase text := by
  have hlow : (utf8 s).any isAsciiLowercase = true ↔ _ := any_range_iff (by decide) s
  have hhigh : (utf8 s).any isAsciiUppercase = true ↔ _ := any_range_iff (by decide) s
  have hlowercase := toLowercase_eq_iff (s := s) fun c hc => (plain c hc).1
  rw [String.ofList_toList] at hlowercase
  rw [hlow, hhigh, hlowercase, toAsciiUppercase, replaceKelvin, replaceKelvin,
    String.ofList_inj, ← String.toList_inj, String.toList_ofList]
  generalize s.toList = chars
  generalize text.toList = letters at plain
  constructor
  · rintro ⟨hcase, hchars, rfl⟩
    by_cases hupper : ∃ c ∈ chars, 65 ≤ c.toNat ∧ c.toNat ≤ 90
    · -- some letter is uppercase, so none is lowercase
      right
      rw [List.map_map]
      refine List.map_congr_left fun c hc => (toUpper_lowerChar (hchars c hc) ?_).symm
      exact fun hlower => hcase ⟨⟨c, hc, hlower⟩, hupper⟩
    · left
      refine List.map_congr_left fun c hc => (lowerChar_of_not_upper (hchars c hc) ?_).symm
      exact fun h => hupper ⟨c, hc, h⟩
  · rintro (rfl | hmap)
    · have hplain : ∀ c ∈ chars, PlainChar (kelvinTo 'k' c) := fun c hc =>
        plain _ (List.mem_map_of_mem hc)
      have hchars : ∀ c ∈ chars, LowersToAscii c := fun c hc =>
        of_kelvinTo (.inr rfl) (.inl (hplain c hc).1)
      have hupper : ∀ c ∈ chars, ¬ (65 ≤ c.toNat ∧ c.toNat ≤ 90) := fun c hc =>
        of_kelvinTo (P := fun c => ¬ (65 ≤ c.toNat ∧ c.toNat ≤ 90)) (by decide) (hplain c hc).2
      refine ⟨?_, hchars, List.map_congr_left fun c hc =>
        lowerChar_of_not_upper (hchars c hc) (hupper c hc)⟩
      rintro ⟨-, c, hc, h⟩
      exact hupper c hc h
    · have hmem : ∀ c ∈ chars, ∃ d, PlainChar d ∧ kelvinTo 'K' c = d.toUpper := by
        intro c hc
        have hc' := List.mem_map_of_mem (f := kelvinTo 'K') hc
        rw [hmap] at hc'
        obtain ⟨d, hd, heq⟩ := List.mem_map.mp hc'
        exact ⟨d, plain d hd, heq.symm⟩
      refine ⟨?_, ?_, ?_⟩
      · rintro ⟨⟨c, hc, h⟩, -⟩
        obtain ⟨d, hd, heq⟩ := hmem c hc
        have hlower : ¬ (97 ≤ (kelvinTo 'K' c).toNat ∧ (kelvinTo 'K' c).toNat ≤ 122) := by
          rw [heq]
          exact hd.toUpper.2.1
        exact of_kelvinTo (P := fun c => ¬ (97 ≤ c.toNat ∧ c.toNat ≤ 122)) (by decide) hlower h
      · intro c hc
        obtain ⟨d, hd, heq⟩ := hmem c hc
        exact of_kelvinTo (.inr rfl) (.inl (by rw [heq]; exact hd.toUpper.1))
      · have hlowered := congrArg (List.map Char.toLower) hmap
        rw [List.map_map, List.map_map] at hlowered
        rw [List.map_congr_left fun c _ => lowerChar_eq_toLower c]
        exact hlowered.trans ((List.map_congr_left fun d hd => (plain d hd).toUpper.2.2).trans
          (List.map_id _))

/-- **Which texts are decoded**: the encoding of an address or its uppercase form, where Kelvin
signs may stand for the letter k, if the text is short enough. -/
theorem decode_eq_ok :
    decode s = .ok address ↔ (utf8 s).length ≤ maxAddressLen ∧
      (replaceKelvin 'k' s = address.encode ∨
        replaceKelvin 'K' s = toAsciiUppercase address.encode) := by
  rw [decode_eq_ok_lowercase, spelling_iff address.plainChar_encode]

section

omit [LowercaseMapping]

theorem replaceKelvin_of_not_mem (absent : kelvinSign ∉ s.toList) (letter : Char) :
    replaceKelvin letter s = s := by
  have hmap : s.toList.map (kelvinTo letter) = s.toList.map id := by
    refine List.map_congr_left fun c hc => if_neg ?_
    rintro rfl
    exact absent hc
  rw [replaceKelvin, hmap, List.map_id, String.ofList_toList]

theorem kelvinSign_not_mem_encode (address : Address) : kelvinSign ∉ address.encode.toList :=
  fun h => absurd (address.plainChar_encode _ h).1 (by decide)

theorem kelvinSign_not_mem_uppercase (address : Address) :
    kelvinSign ∉ (toAsciiUppercase address.encode).toList := by
  rw [toAsciiUppercase, String.toList_ofList, List.mem_map]
  rintro ⟨d, hd, heq⟩
  have hascii := (address.plainChar_encode d hd).toUpper.1
  rw [heq] at hascii
  exact absurd hascii (by decide)

/-- The uppercase form of an encoded address is as long as the address. -/
theorem length_utf8_uppercase_le (address : Address) :
    (utf8 (toAsciiUppercase address.encode)).length ≤ maxAddressLen := by
  have hlength := address.length_utf8_encode_le
  rw [← String.ofList_toList (s := address.encode), utf8_of_ascii fun c hc =>
    (address.plainChar_encode c hc).1, List.length_map] at hlength
  rw [toAsciiUppercase, utf8_of_ascii, List.length_map, List.length_map]
  · exact hlength
  · intro c hc
    obtain ⟨d, hd, rfl⟩ := List.mem_map.mp hc
    exact (address.plainChar_encode d hd).toUpper.1

end

/-- Decoding accepts a text as exactly the addresses it spells. -/
def DecodesExactly (s : String) : Prop :=
  ∀ address : Address, decode s = .ok address ↔
    s = address.encode ∨ s = toAsciiUppercase address.encode

/-- Some address is spelled with Kelvin signs in place of letters. -/
def SpelledWithKelvin (s : String) : Prop :=
  kelvinSign ∈ s.toList ∧ (utf8 s).length ≤ maxAddressLen ∧
    ∃ address : Address, replaceKelvin 'k' s = address.encode ∨
      replaceKelvin 'K' s = toAsciiUppercase address.encode

/-- **Decoding is the exact inverse of encoding, up to the Kelvin sign.** Every address is read back
from its encoding, and a text is decoded to precisely the addresses whose encoding or uppercase form
it is, unless it spells an address with Kelvin signs. -/
theorem decode_exact_iff :
    (∀ address : Address, decode address.encode = .ok address) ∧
      ∀ s : String, DecodesExactly s ↔ ¬ SpelledWithKelvin s := by
  refine ⟨fun address => ?_, fun s => ?_⟩
  · rw [decode_eq_ok, replaceKelvin_of_not_mem address.kelvinSign_not_mem_encode]
    exact ⟨address.length_utf8_encode_le, .inl rfl⟩
  · by_cases hkelvin : kelvinSign ∈ s.toList
    · -- a text with a Kelvin sign is no encoding, so it must not be decoded
      have hneither : ∀ address : Address,
          ¬ (s = address.encode ∨ s = toAsciiUppercase address.encode) := by
        rintro address (rfl | rfl)
        · exact address.kelvinSign_not_mem_encode hkelvin
        · exact address.kelvinSign_not_mem_uppercase hkelvin
      simp only [DecodesExactly, decode_eq_ok, SpelledWithKelvin, hkelvin, hneither, true_and,
        iff_false, not_and, not_exists]
      exact ⟨fun h hlength address => h address hlength, fun h address hlength => h hlength address⟩
    · simp only [DecodesExactly, decode_eq_ok, SpelledWithKelvin, hkelvin, false_and,
        not_false_eq_true, iff_true, replaceKelvin_of_not_mem hkelvin]
      rintro address
      refine ⟨fun h => h.2, ?_⟩
      rintro (rfl | rfl)
      · exact ⟨address.length_utf8_encode_le, .inl rfl⟩
      · exact ⟨address.length_utf8_uppercase_le, .inr rfl⟩

end Address

/-! ## An address spelled with a Kelvin sign -/

/-- The lowercase mapping that leaves every other character outside ASCII as it is. -/
@[reducible] def kelvinLowercase : LowercaseMapping where
  toLowercase s := String.ofList (s.toList.map Address.lowerChar)
  images s := by
    refine ⟨s.toList.map fun c => [Address.lowerChar c], ?_, ?_⟩
    · rw [List.forall₂_map_right_iff, List.forall₂_same]
      intro c _
      unfold Lowers
      split
      · rw [Address.lowerChar_of_ascii ‹_›]
      · split
        · subst ‹c = kelvinSign›
          rfl
        · refine ⟨_, List.mem_singleton_self _, ?_⟩
          have hlarge : 128 ≤ c.toNat := Nat.not_lt.mp ‹_›
          have hsame : c.toLower = c := by
            unfold Char.toLower
            refine dif_neg fun h => ?_
            have hle : c.toNat ≤ 90 := h.2
            omega
          rwa [Address.lowerChar, if_neg ‹_›, hsame]
    · rw [String.toList_ofList, List.map_eq_flatMap]
      rfl

namespace Transparent

attribute [local instance] kelvinLowercase

/-- A mainnet address whose encoding has the letter k in it. -/
def sampleAddress : Address where
  payload := Octets.ofList (0x02 :: List.replicate 32 0x11)
  isMainnet := true
  version := addressPayloadVersionV3
  addressType := addressTypeStandard
  keyType := addressKeyTypeSecp256k1Compressed
  networkMagic := networkMagicMainnet
  compressed := by decide +kernel
  supported := by decide
  isMainnet_eq := by decide
  version_eq := rfl
  addressType_eq := rfl
  keyType_eq := rfl

/-- The encoding of the sample address, with a Kelvin sign for its letter k. -/
def kelvinSpelling : String :=
  String.ofList ("dom1qyqqqv2dfazqyyg3zyg3zyg3zyg3zyg3zyg3zyg3zyg3zyg3zyg3zyg3zyg3zyg3ssxd".toList
    ++ [kelvinSign, '2'])

/-- **A text that is no address is decoded**: the Kelvin sign is lowercased to the letter k before
the check for characters outside ASCII. -/
theorem decode_kelvinSpelling :
    Address.decode kelvinSpelling = .ok sampleAddress ∧
      ¬ ∃ address : Address,
        kelvinSpelling = address.encode ∨ kelvinSpelling = toAsciiUppercase address.encode := by
  have hkelvin : kelvinSign ∈ kelvinSpelling.toList := by decide +kernel
  constructor
  · rw [Address.decode_eq_ok]
    exact ⟨by decide +kernel, .inl (by decide +kernel)⟩
  · rintro ⟨address, h | h⟩
    · rw [h] at hkelvin
      exact address.kelvinSign_not_mem_encode hkelvin
    · rw [h] at hkelvin
      exact address.kelvinSign_not_mem_uppercase hkelvin

end Transparent

/-! ## Corrupted addresses -/

namespace Address

variable {address : Address} {s : String}

/-- **A short corruption**: behind the separator, up to six consecutive characters are replaced, and
not only by the same characters of the alphabet in another spelling. -/
structure Corrupted (s s' : String) (front window window' back : List Char) : Prop where
  text : s.toList = front ++ (window ++ back)
  corrupted : s'.toList = front ++ (window' ++ back)
  behind : '1' ∈ front
  size : window.length = window'.length
  short : window.length ≤ 6
  changed : window.map lowerChar ≠ window'.map lowerChar

/-- The parts of an encoded address, read off its text on both sides of a separator. -/
theorem parts_of_encode {front rest : List Char}
    (text : front ++ '1' :: rest = address.encode.toList) :
    address.networkHrp.toList = front ∧
      (encodedValues address.networkHrp address.toPayloadBytes).map charsetAt = rest ∧
      encodedValues address.networkHrp address.toPayloadBytes = rest.map charset.idxOf := by
  have hhrps : ∀ hrp ∈ [addressHrpMainnet, addressHrpTestnet, addressHrpRegtest],
      '1' ∉ hrp.toList := by decide
  have hindex : ∀ v < 2 ^ 5, charset.idxOf (charsetAt v) = v := by decide
  rw [toList_encode, eq_comm, List.append_cons_inj_of_notMem (hhrps _ address.networkHrp_mem)
    (separator_not_mem _)] at text
  obtain ⟨hfront, -, rfl⟩ := text
  refine ⟨hfront, rfl, ?_⟩
  rw [List.map_map]
  exact ((List.map_congr_left fun v hv =>
    hindex v (encodedValues_lt _ address.whole v hv)).trans (List.map_id _)).symm

variable [LowercaseMapping]

/-- An accepted text is an encoded address in lowercase. -/
theorem map_lowerChar_of_decode (h : decode s = .ok address) :
    s.toList.map lowerChar = address.encode.toList := by
  obtain ⟨-, -, hlower⟩ := decode_eq_ok_lowercase.mp h
  rw [← String.ofList_toList (s := address.encode),
    toLowercase_eq_iff fun c hc => (address.plainChar_encode c hc).1] at hlower
  exact hlower.2

/-- **A short corruption is detected**: the checksum of the one text fits the other only if the
replaced characters stand for the same values. -/
theorem decode_corrupted {s' : String} {front window window' back : List Char}
    (valid : decode s = .ok address) (corruption : Corrupted s s' front window window' back) :
    ∃ e, decode s' = .error e := by
  match hdecode : decode s' with
  | .error e => exact ⟨e, rfl⟩
  | .ok address' =>
    refine absurd ?_ corruption.changed
    have hlower := map_lowerChar_of_decode valid
    have hlower' := map_lowerChar_of_decode hdecode
    rw [corruption.text, List.map_append, List.map_append] at hlower
    rw [corruption.corrupted, List.map_append, List.map_append] at hlower'
    -- both texts have one human-readable part, and the values before and behind the window in common
    obtain ⟨hrp, data, hfront⟩ : ∃ hrp data, front.map lowerChar = hrp ++ '1' :: data :=
      List.append_of_mem (List.mem_map.mpr ⟨_, corruption.behind, rfl⟩)
    rw [hfront, List.append_assoc, List.cons_append] at hlower hlower'
    obtain ⟨hhrp, htext, hvalues⟩ := parts_of_encode hlower
    obtain ⟨hhrp', htext', hvalues'⟩ := parts_of_encode hlower'
    have hsame : address'.networkHrp = address.networkHrp :=
      String.toList_injective (hhrp'.trans hhrp.symm)
    have hfits := encodedValues_lt address.networkHrp address.whole
    have hfits' := encodedValues_lt address'.networkHrp address'.whole
    have hsum := polymod_encodedValues address.networkHrp address.whole
    have hsum' := polymod_encodedValues address'.networkHrp address'.whole
    rw [hvalues, List.map_append, List.map_append] at hfits hsum
    rw [hvalues', List.map_append, List.map_append] at hfits' hsum'
    simp only [List.forall_mem_append] at hfits hfits'
    have hwide : ∀ {values : List Nat}, (∀ v ∈ values, v < 2 ^ 5) → ∀ v ∈ values, v < 2 ^ 30 :=
      fun h v hv => (h v hv).trans (by decide)
    have hwindow := window_eq_of_polymod (List.forall_mem_append.mpr
        ⟨fun v hv => (hrpExpand_lt hv).trans (by decide), hwide hfits.1⟩)
      (by simp only [List.length_map, corruption.size]) (by simpa using corruption.short)
      hfits.2.1 hfits'.2.1 (hwide hfits.2.2)
      (by rw [List.append_assoc, List.append_assoc, hsum, ← hsame, hsum'])
    have hall : encodedValues address.networkHrp address.toPayloadBytes =
        encodedValues address'.networkHrp address'.toPayloadBytes := by
      rw [hvalues, hvalues', List.map_append, List.map_append, hwindow, List.map_append,
        List.map_append]
    rw [hall, htext'] at htext
    simpa using htext.symm

end Address

namespace Transparent

attribute [local instance] kelvinLowercase

/-- The sample address with one character mistyped is rejected. -/
theorem decode_mistyped : ∃ e, Address.decode
    "dom1qyqqqv2dfazqyyg3zyg3zyg3zyg3zyg3zyg3zyg3zyg3zyg3zyg3zyg3zyg3zyg3ssxdl2" = .error e := by
  have hvalid : Address.decode sampleAddress.encode = .ok sampleAddress := by
    rw [Address.decode_eq_ok]
    exact ⟨by decide +kernel, .inl (by decide +kernel)⟩
  have hcorrupted : Address.Corrupted sampleAddress.encode
      "dom1qyqqqv2dfazqyyg3zyg3zyg3zyg3zyg3zyg3zyg3zyg3zyg3zyg3zyg3zyg3zyg3ssxdl2"
      (sampleAddress.encode.toList.take 72) ['k'] ['l'] ['2'] := by
    constructor <;> decide +kernel
  exact Address.decode_corrupted hvalid hcorrupted

end Transparent

end DomProtocol
