import ZtGateway.Spec.Services

/-! `totp.util.ts` and `aes-gcm.util.ts` over the primitives of `node:crypto`. A
buffer is a list of bytes; the base32 accumulators are 32-bit words, as
JavaScript's shifts make them. -/

namespace ZTG

abbrev Buffer := List (BitVec 8)

/-- `node:crypto`, `Buffer` and the string methods the two files call -/
structure Crypto where
  /-- lower-case hex of SHA-256 over the UTF-8 bytes -/
  sha256Hex : String → String
  hmacSha1 : Buffer → Buffer → Buffer
  hmacSha1_length : ∀ key msg, (hmacSha1 key msg).length = 20
  /-- AES-256-GCM decryption; `none` where `createDecipheriv` or `final` throws -/
  gcmOpen : (key iv ciphertext authTag : Buffer) → Option Buffer
  base64Decode : String → Buffer
  utf8Decode : Buffer → String
  toUpperCase : String → String

def BASE32_CHARS : List Char := "ABCDEFGHIJKLMNOPQRSTUVWXYZ234567".toList

/-- `.replace(/=+$/, '')` -/
def stripPadding (s : List Char) : List Char := (s.reverse.dropWhile (· == '=')).reverse

/-- the loop of `base32Decode` -/
def base32DecodeFrom (out : Buffer) (buf : BitVec 32) (bits : ℕ) : List Char → Except Err Buffer
  | [] => .ok out
  | ch :: s =>
    match BASE32_CHARS.idxOf? ch with
    | none => .error (.error ("Invalid base32 character: " ++ ch.toString))
    | some idx =>
      let buf := (buf <<< 5) ||| BitVec.ofNat 32 idx
      let bits := bits + 5
      if 8 ≤ bits then base32DecodeFrom (out ++ [(buf >>> (bits - 8)).truncate 8]) buf (bits - 8) s
      else base32DecodeFrom out buf bits s

def base32Decode (c : Crypto) (input : String) : Except Err Buffer :=
  base32DecodeFrom [] 0 0 (stripPadding (c.toUpperCase input).toList)

/-- `writeUInt32BE`, which throws outside 0..2^32-1 -/
def writeUInt32BE (n : ℤ) : Except Err Buffer :=
  if 0 ≤ n ∧ n < 2 ^ 32 then
    let w := BitVec.ofInt 32 n
    .ok [(w >>> 24).truncate 8, (w >>> 16).truncate 8, (w >>> 8).truncate 8, w.truncate 8]
  else .error (.error "ERR_OUT_OF_RANGE")

/-- `readUInt32BE`; the offset is at most 15 and the buffer has 20 bytes -/
def readUInt32BE (b : Buffer) (offset : ℕ) : BitVec 32 :=
  ((b.drop offset).take 4).foldl (fun acc byte => (acc <<< 8) ||| byte.zeroExtend 32) 0

def padStart (width : ℕ) (pad : Char) (s : String) : String :=
  String.ofList (List.replicate (width - s.length) pad ++ s.toList)

def hotp (c : Crypto) (key : Buffer) (counter : ℤ) : Except Err String := do
  let hi ← writeUInt32BE (counter / 0x100000000)
  let lo ← writeUInt32BE (counter % 0x100000000)
  let hmac := c.hmacSha1 key (hi ++ lo)
  let offset := (hmac.getD 19 0 &&& 0x0f).toNat
  let code := (readUInt32BE hmac offset &&& 0x7fffffff).toNat % 1000000
  pure (padStart 6 '0' (toString code))

/-- `currentCounter()` at `now` milliseconds -/
def currentCounter (now : ℕ) : ℤ := (now / 1000 / 30 : ℕ)

/-- `totp.verify`: the steps before, at and after the current one, in that order -/
def totpVerify (c : Crypto) (now : ℕ) (token secret : String) : Except Err Bool := do
  let key ← base32Decode c secret
  let t := currentCounter now
  if (← hotp c key (t - 1)) = token then pure true
  else if (← hotp c key t) = token then pure true
  else if (← hotp c key (t + 1)) = token then pure true
  else pure false

def IV_BYTES : ℕ := 12
def AUTH_TAG_BYTES : ℕ := 16

def aesGcmDecrypt (c : Crypto) (ciphertextBase64 keyBase64 : String) : Option String :=
  let key := c.base64Decode keyBase64
  let buf := c.base64Decode ciphertextBase64
  if buf.length < IV_BYTES + AUTH_TAG_BYTES then none
  else
    let iv := buf.take IV_BYTES
    let authTag := buf.drop (buf.length - AUTH_TAG_BYTES)
    let ciphertext := (buf.drop IV_BYTES).take (buf.length - AUTH_TAG_BYTES - IV_BYTES)
    (c.gcmOpen key iv ciphertext authTag).map c.utf8Decode

/-- the inner loop of `base32Encode`: a character for every five bits, and the bits left -/
def base32Drain (buf : BitVec 32) : ℕ → List Char × ℕ
  | n + 5 =>
    let (chars, left) := base32Drain buf n
    (BASE32_CHARS.getD ((buf >>> n) &&& 0x1f).toNat 'A' :: chars, left)
  | n => ([], n)

/-- the loop of `base32Encode` -/
def base32EncodeFrom (buf : BitVec 32) (bits : ℕ) : Buffer → List Char
  | [] => if 0 < bits then [BASE32_CHARS.getD ((buf <<< (5 - bits)) &&& 0x1f).toNat 'A'] else []
  | byte :: bytes =>
    let buf := (buf <<< 8) ||| byte.zeroExtend 32
    let (chars, left) := base32Drain buf (bits + 8)
    chars ++ base32EncodeFrom buf left bytes

def base32Encode (bytes : Buffer) : String := String.ofList (base32EncodeFrom 0 0 bytes)

/-- the encrypting half of `node:crypto` -/
structure Cipher extends Crypto where
  /-- AES-256-GCM encryption to ciphertext and tag; `none` where `createCipheriv` throws -/
  gcmSeal : (key iv plaintext : Buffer) → Option (Buffer × Buffer)
  base64Encode : Buffer → String
  utf8Encode : String → Buffer

/-- `randomBytes(IV_BYTES)` -/
abbrev Iv := { b : Buffer // b.length = IV_BYTES }

/-- `none` is a throw -/
def aesGcmEncrypt (c : Cipher) (plaintext keyBase64 : String) (iv : Iv) : Option String :=
  (c.gcmSeal (c.base64Decode keyBase64) iv.1 (c.utf8Encode plaintext)).map
    fun (ciphertext, authTag) => c.base64Encode (iv.1 ++ ciphertext ++ authTag)

end ZTG
