import EndCloseRelay.Engine.Errors

/-!
# How payloads are stored

`engine/codec.ts` over `crypto/at-rest.ts`.  AES-256-GCM is a parameter: what
`createCipheriv` and `createDecipheriv` compute under a key and an iv.
-/

namespace EndCloseRelay

/-- `PayloadCodec`.  `encode` also takes the random bytes it may draw. -/
structure PayloadCodec where
  encode : Bytes → Bytes → Bytes × Option Bytes
  decode : Bytes → Option Bytes → Except RelayError Bytes

/-- AES-256-GCM: key, iv and text to a body and its tag, and back unless the tag is wrong. -/
structure AesGcm where
  encipher : Bytes → Bytes → Bytes → Bytes × Bytes
  decipher : Bytes → Bytes → Bytes → Bytes → Option Bytes

/-- `TAG_BYTES`. -/
def tagBytes : Nat := 16

/-- `encrypt(key, plaintext)`, with the iv it drew. -/
def encrypt (gcm : AesGcm) (key iv plaintext : Bytes) : Bytes × Bytes :=
  let (body, tag) := gcm.encipher key iv plaintext
  (body ++ tag, iv)

/-- `decrypt(key, ciphertext, iv)`. -/
def decrypt (gcm : AesGcm) (key ciphertext iv : Bytes) : Except RelayError Bytes :=
  let body := ciphertext.take (ciphertext.length - tagBytes)
  let tag := ciphertext.drop (ciphertext.length - tagBytes)
  match gcm.decipher key iv body tag with
  | some plaintext => .ok plaintext
  | none => .error (.other "Unsupported state or unable to authenticate data")

/-- `aesGcmCodec(key)`. -/
def aesGcmCodec (gcm : AesGcm) (key : Bytes) : PayloadCodec where
  encode iv plain :=
    let (ciphertext, iv) := encrypt gcm key iv plain
    (ciphertext, some iv)
  decode payload iv :=
    match iv with
    | none => .error (.other "encrypted payload has no iv")
    | some iv => decrypt gcm key payload iv

/-- `plainCodec`. -/
def plainCodec : PayloadCodec where
  encode _ plain := (plain, none)
  decode payload _ := .ok payload

/-! ## What is encoded decodes -/

/-- `IV_BYTES`. -/
def ivBytes : Nat := 12

/-- Under a key and an iv of `IV_BYTES`, tags are of `TAG_BYTES` and what was
enciphered is deciphered. -/
structure AesGcm.Inverts (gcm : AesGcm) (key : Bytes) : Prop where
  tagLength : ∀ iv plain, iv.length = ivBytes → (gcm.encipher key iv plain).2.length = tagBytes
  opens : ∀ iv plain, iv.length = ivBytes →
    gcm.decipher key iv (gcm.encipher key iv plain).1 (gcm.encipher key iv plain).2 = some plain

/-- Under an iv of `IV_BYTES`, a codec decodes what it encoded, makes nothing of
no text only, and stores no empty iv. -/
structure PayloadCodec.Returns (codec : PayloadCodec) : Prop where
  decodes : ∀ iv plain, iv.length = ivBytes →
    codec.decode (codec.encode iv plain).1 (codec.encode iv plain).2 = .ok plain
  fills : ∀ iv plain, iv.length = ivBytes → plain ≠ [] → (codec.encode iv plain).1 ≠ []
  marks : ∀ iv plain, iv.length = ivBytes → (codec.encode iv plain).2 ≠ some []

theorem aesGcmCodec_returns {gcm : AesGcm} {key : Bytes} (inverts : gcm.Inverts key) :
    (aesGcmCodec gcm key).Returns where
  decodes iv plain drawn := by
    have cut : ((gcm.encipher key iv plain).1 ++ (gcm.encipher key iv plain).2).length - tagBytes =
        (gcm.encipher key iv plain).1.length := by
      rw [List.length_append, inverts.tagLength iv plain drawn]
      omega
    simp only [aesGcmCodec, encrypt, decrypt, cut, List.take_left, List.drop_left,
      inverts.opens iv plain drawn]
  fills iv plain drawn _ nothing := by
    have tag := inverts.tagLength iv plain drawn
    rw [(List.append_eq_nil_iff.mp nothing).2] at tag
    cases tag
  marks iv plain drawn nothing := by
    rw [show iv = [] from Option.some.inj nothing] at drawn
    cases drawn

theorem plainCodec_returns : plainCodec.Returns where
  decodes _ _ _ := rfl
  fills _ _ _ some_ := some_
  marks _ _ _ nothing := by cases nothing

/-- A key as `deriveKey` makes them. -/
structure AesKey where
  bytes : Bytes
  length : bytes.length = 32

/-- The codecs of the engine. -/
inductive CodecKind
  | aesGcm (gcm : AesGcm) (key : AesKey)
  | plain

namespace CodecKind

def codec : CodecKind → PayloadCodec
  | aesGcm gcm key => aesGcmCodec gcm key.bytes
  | plain => plainCodec

/-- What a codec relies on of the platform. -/
def Inverts : CodecKind → Prop
  | aesGcm gcm key => gcm.Inverts key.bytes
  | plain => True

theorem returns {kind : CodecKind} (inverts : kind.Inverts) : kind.codec.Returns := by
  cases kind with
  | aesGcm gcm key => exact aesGcmCodec_returns inverts
  | plain => exact plainCodec_returns

end CodecKind

end EndCloseRelay
