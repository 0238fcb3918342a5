import ZtGateway.Lib.BigEndian
import ZtGateway.Spec.Numeric

/-! `hotp` against RFC 4226. Each number operator of the source is brought to what it does on the
naturals that come up: the halves of the counter, the offset, the word and the code. -/

namespace ZTG

section Words

variable {c : Crypto} {key : Buffer}

/-- A written word is its number. -/
theorem writeUInt32BE_bytes {n : ℕ} (hn : n < 2 ^ 32) :
    ∃ b, writeUInt32BE n = .ok b ∧ b.length = 4 ∧ bigEndian b = n := by
  have hrange : (0 : ℤ) ≤ n ∧ (n : ℤ) < 2 ^ 32 := ⟨Int.natCast_nonneg n, by exact_mod_cast hn⟩
  refine ⟨_, if_pos hrange, rfl, ?_⟩
  simp only [bigEndian, BitVec.ofInt_natCast, BitVec.truncate_eq_setWidth, BitVec.toNat_setWidth,
    BitVec.toNat_ushiftRight, BitVec.toNat_ofNat, Nat.shiftRight_eq_div_pow, List.length_cons,
    List.length_nil]
  omega

theorem bigEndian_four (b₀ b₁ b₂ b₃ : BitVec 8) : bigEndian [b₀, b₁, b₂, b₃] =
    b₀.toNat * 2 ^ 24 + b₁.toNat * 2 ^ 16 + b₂.toNat * 2 ^ 8 + b₃.toNat := by
  simp only [bigEndian, List.length_cons, List.length_nil]
  omega

/-- A read inside the buffer is the number of its four bytes. -/
theorem readUInt32BE_bytes {b : Buffer} {offset : ℕ} (hbounds : offset + 4 ≤ b.length) :
    Numeric.readUInt32BE b offset = .ok (bigEndian ((b.drop offset).take 4) : ℕ) := by
  obtain ⟨b₀, b₁, b₂, b₃, rest, hdrop⟩ :
      ∃ b₀ b₁ b₂ b₃ rest, b.drop offset = b₀ :: b₁ :: b₂ :: b₃ :: rest := by
    have hlen : 4 ≤ (b.drop offset).length := by
      rw [List.length_drop]
      omega
    match b.drop offset, hlen with
    | b₀ :: b₁ :: b₂ :: b₃ :: rest, _ => exact ⟨b₀, b₁, b₂, b₃, rest, rfl⟩
  rw [Numeric.readUInt32BE, if_pos (Int.natCast_nonneg offset), Int.toNat_natCast, hdrop]
  have htake : (b₀ :: b₁ :: b₂ :: b₃ :: rest).take 4 = [b₀, b₁, b₂, b₃] := rfl
  rw [htake, bigEndian_four]
  push_cast
  rfl

/-- One byte more in the register. -/
theorem toNat_push {acc : BitVec 32} (hacc : acc.toNat < 2 ^ 24) (byte : BitVec 8) :
    ((acc <<< 8) ||| byte.zeroExtend 32).toNat = acc.toNat * 2 ^ 8 + byte.toNat := by
  have hbyte : (byte.zeroExtend 32).toNat = byte.toNat := by
    rw [BitVec.toNat_setWidth, Nat.mod_eq_of_lt (byte.isLt.trans (by norm_num))]
  rw [BitVec.toNat_or, BitVec.toNat_shiftLeft, hbyte, Nat.shiftLeft_eq, Nat.mod_eq_of_lt (by omega),
    ← Nat.shiftLeft_eq, ← Nat.shiftLeft_add_eq_or_of_lt byte.isLt, Nat.shiftLeft_eq]

/-- The register has room for the bytes that are still to come. -/
theorem toNat_pushes (bytes : Buffer) {acc : BitVec 32}
    (hroom : (acc.toNat + 1) * 2 ^ (8 * bytes.length) ≤ 2 ^ 32) :
    (bytes.foldl (fun (acc : BitVec 32) byte => (acc <<< 8) ||| byte.zeroExtend 32) acc).toNat =
      acc.toNat * 2 ^ (8 * bytes.length) + bigEndian bytes := by
  induction bytes generalizing acc with
  | nil => simp [bigEndian]
  | cons byte bytes ih =>
    have hlen : 2 ^ (8 * (byte :: bytes).length) = 2 ^ 8 * 2 ^ (8 * bytes.length) := by
      rw [List.length_cons, ← pow_add]
      ring
    have hpos : 1 ≤ 2 ^ (8 * bytes.length) := Nat.one_le_two_pow
    rw [hlen] at hroom
    have hacc : acc.toNat < 2 ^ 24 := by
      have hle : (acc.toNat + 1) * (2 ^ 8 * 1) ≤ (acc.toNat + 1) * (2 ^ 8 * 2 ^ (8 * bytes.length)) :=
        Nat.mul_le_mul_left _ (Nat.mul_le_mul_left _ hpos)
      omega
    have hpush := toNat_push hacc byte
    have hnext : (acc.toNat * 2 ^ 8 + byte.toNat + 1) * 2 ^ (8 * bytes.length) ≤ 2 ^ 32 := by
      have hbyte := byte.isLt
      calc (acc.toNat * 2 ^ 8 + byte.toNat + 1) * 2 ^ (8 * bytes.length)
          ≤ ((acc.toNat + 1) * 2 ^ 8) * 2 ^ (8 * bytes.length) :=
            Nat.mul_le_mul_right _ (by omega)
        _ = (acc.toNat + 1) * (2 ^ 8 * 2 ^ (8 * bytes.length)) := by ring
        _ ≤ 2 ^ 32 := hroom
    rw [List.foldl_cons, ih (by rwa [hpush]), hpush, hlen, bigEndian]
    ring

theorem toNat_readUInt32BE (b : Buffer) (offset : ℕ) :
    (readUInt32BE b offset).toNat = bigEndian ((b.drop offset).take 4) := by
  have hlen : 8 * ((b.drop offset).take 4).length ≤ 32 := by
    have := List.length_take_le 4 (b.drop offset)
    omega
  have hzero : (0 : BitVec 32).toNat = 0 := rfl
  have hroom : ((0 : BitVec 32).toNat + 1) * 2 ^ (8 * ((b.drop offset).take 4).length) ≤ 2 ^ 32 := by
    rw [hzero, Nat.zero_add, Nat.one_mul]
    exact Nat.pow_le_pow_right two_pos hlen
  rw [readUInt32BE, toNat_pushes _ hroom, hzero, Nat.zero_mul, Nat.zero_add]

end Words

/-- The decimal text of a number below 10^6, filled up with zeros. -/
theorem padStart_digits {n : ℕ} (hn : n < 10 ^ 6) :
    (padStart 6 '0' (toString n)).toList.length = 6 ∧
      (∀ ch ∈ (padStart 6 '0' (toString n)).toList, ch.isDigit = true) ∧
      Nat.ofDigitChars 10 (padStart 6 '0' (toString n)).toList 0 = n := by
  have hlen : (Nat.toDigits 10 n).length ≤ 6 :=
    (Nat.length_toDigits_le_iff (by norm_num) (by norm_num)).mpr hn
  have htext : (padStart 6 '0' (toString n)).toList =
      List.replicate (6 - (Nat.toDigits 10 n).length) '0' ++ Nat.toDigits 10 n := by
    rw [padStart, String.toList_ofList, Nat.toString_eq_repr, Nat.toList_repr, ← Nat.toList_repr,
      String.length_toList]
  rw [htext]
  refine ⟨?_, fun ch hch => ?_, ?_⟩
  · rw [List.length_append, List.length_replicate]
    omega
  · rcases List.mem_append.mp hch with h | h
    · rw [List.eq_of_mem_replicate h]
      decide
    · exact Nat.isDigit_of_mem_toDigits (by norm_num) (by norm_num) h
  · rw [Nat.ofDigitChars_append, Nat.ofDigitChars_replicate_zero, Nat.mul_zero,
      Nat.ofDigitChars_ten_toDigits]

/-- the offset that the last byte of the result gives -/
def dynamicOffset (hmac : Buffer) : ℕ := (hmac.getD 19 0).toNat % 16

/-- the four bytes at the dynamic offset, without the top bit -/
def truncated (hmac : Buffer) : ℕ := bigEndian ((hmac.drop (dynamicOffset hmac)).take 4) % 2 ^ 31

theorem dynamicOffset_eq (hmac : Buffer) :
    Js.bitAnd (hmac.getD 19 0).toNat 0x0f = dynamicOffset hmac := by
  have hmask : (0x0f : ℤ) = (2 ^ 4 - 1 : ℕ) := by norm_num
  rw [hmask, Js.bitAnd_mask _ (by norm_num)]
  rfl

theorem code_eq (n : ℕ) : Js.remainder (Js.bitAnd n 0x7fffffff) 1000000 =
    (n % 2 ^ 31 % 10 ^ 6 : ℕ) := by
  have hmask : (0x7fffffff : ℤ) = (2 ^ 31 - 1 : ℕ) := by norm_num
  rw [hmask, Js.bitAnd_mask n (by norm_num), Js.remainder,
    Int.tmod_eq_emod_of_nonneg (Int.natCast_nonneg _)]
  rfl

/-- Division and shift split a counter that a number holds exactly. -/
theorem counter_split {counter : ℕ} (h : counter < 2 ^ 53) :
    Js.floorDiv counter 0x100000000 = (counter / 2 ^ 32 : ℕ) ∧
      Js.unsignedShiftRight counter 0 = (counter % 2 ^ 32 : ℕ) := by
  have habs : |(counter : ℤ)| < 2 ^ 53 := by
    rw [abs_of_nonneg (Int.natCast_nonneg counter)]
    exact_mod_cast h
  constructor
  · rw [show (0x100000000 : ℤ) = 2 ^ 32 by norm_num, Js.floorDiv_pow habs (by norm_num)]
    rfl
  · rw [Js.unsignedShiftRight_zero]
    rfl

/-- The two words that `hotp` writes are the counter. -/
theorem counter_words {counter : ℕ} (h : counter < 2 ^ 53) :
    ∃ hi lo, writeUInt32BE (counter / 2 ^ 32 : ℕ) = .ok hi ∧
      writeUInt32BE (counter % 2 ^ 32 : ℕ) = .ok lo ∧
      (hi ++ lo).length = 8 ∧ bigEndian (hi ++ lo) = counter := by
  obtain ⟨hi, hwrite, hlength, hvalue⟩ := @writeUInt32BE_bytes (counter / 2 ^ 32) (by omega)
  obtain ⟨lo, hwrite', hlength', hvalue'⟩ :=
    @writeUInt32BE_bytes (counter % 2 ^ 32) (Nat.mod_lt _ (by norm_num))
  refine ⟨hi, lo, hwrite, hwrite', ?_, ?_⟩
  · rw [List.length_append, hlength, hlength']
  · rw [bigEndian_append, hvalue, hvalue', hlength']
    omega

/-- The word model of the truncation gives the same code. -/
theorem code_word (hmac : Buffer) :
    (readUInt32BE hmac (hmac.getD 19 0 &&& 0x0f).toNat &&& 0x7fffffff).toNat % 1000000 =
      truncated hmac % 10 ^ 6 := by
  have hoffset : (hmac.getD 19 0 &&& 0x0f).toNat = dynamicOffset hmac :=
    Nat.and_two_pow_sub_one_eq_mod (hmac.getD 19 0).toNat 4
  have hmask : (readUInt32BE hmac (dynamicOffset hmac) &&& 0x7fffffff).toNat =
      (readUInt32BE hmac (dynamicOffset hmac)).toNat % 2 ^ 31 :=
    Nat.and_two_pow_sub_one_eq_mod _ 31
  rw [hoffset, hmask, toNat_readUInt32BE]
  rfl

/-- For every counter that a number holds exactly: the eight bytes of the counter are hashed, the
four bytes at the dynamic offset are inside the result, and the text is their six digits; the
words of `hotp` on 32 bits come to the same. -/
theorem hotp_conforms (c : Crypto) (key : Buffer) (counter : ℕ) (h : counter < 2 ^ 53) :
    ∃ msg : Buffer, msg.length = 8 ∧ bigEndian msg = counter ∧
      dynamicOffset (c.hmacSha1 key msg) + 4 ≤ (c.hmacSha1 key msg).length ∧
      ∃ text, Numeric.hotp c key counter = .ok text ∧ hotp c key counter = .ok text ∧
        text.toList.length = 6 ∧ (∀ ch ∈ text.toList, ch.isDigit = true) ∧
        Nat.ofDigitChars 10 text.toList 0 = truncated (c.hmacSha1 key msg) % 10 ^ 6 := by
  obtain ⟨hdiv, hshift⟩ := counter_split h
  obtain ⟨hi, lo, hhi, hlo, hlength, hvalue⟩ := counter_words h
  have hbounds : dynamicOffset (c.hmacSha1 key (hi ++ lo)) + 4 ≤
      (c.hmacSha1 key (hi ++ lo)).length := by
    rw [c.hmacSha1_length, dynamicOffset]
    omega
  refine ⟨hi ++ lo, hlength, hvalue, hbounds, _, ?_, ?_,
    padStart_digits (Nat.mod_lt (truncated (c.hmacSha1 key (hi ++ lo))) (by norm_num))⟩
  · unfold Numeric.hotp
    rw [hdiv, hshift, hhi, hlo]
    simp only [bind, Except.bind]
    rw [dynamicOffset_eq, readUInt32BE_bytes hbounds]
    dsimp only
    rw [code_eq]
    rfl
  · have hquotient : (counter : ℤ) / 0x100000000 = (counter / 2 ^ 32 : ℕ) := rfl
    have hremainder : (counter : ℤ) % 0x100000000 = (counter % 2 ^ 32 : ℕ) := rfl
    unfold hotp
    rw [hquotient, hremainder, hhi, hlo]
    simp only [bind, Except.bind]
    rw [code_word]
    rfl

/-- the primitives, with the HMAC of the first test vector of RFC 4226 -/
def vectorCrypto : Crypto where
  sha256Hex _ := ""
  hmacSha1 key msg :=
    if key = Utf8.encode "12345678901234567890".toList ∧ msg = List.replicate 8 0 then
      [0xcc, 0x93, 0xcf, 0x18, 0x50, 0x8d, 0x94, 0x93, 0x4c, 0x64, 0xb6, 0x5d, 0x8b, 0xa7, 0x66,
        0x7f, 0xb7, 0xcd, 0xe4, 0xb0]
    else List.replicate 20 0
  hmacSha1_length key msg := by split_ifs <;> rfl
  gcmOpen _ _ _ _ := none
  base64Decode _ := []
  utf8Decode _ := ""
  toUpperCase s := s

theorem hotp_conforms_vector :
    hotp vectorCrypto (Utf8.encode "12345678901234567890".toList) 0 = .ok "755224" ∧
      Numeric.hotp vectorCrypto (Utf8.encode "12345678901234567890".toList) 0 = .ok "755224" := by
  have hcode : hotp vectorCrypto (Utf8.encode "12345678901234567890".toList) 0 = .ok "755224" := by
    decide +kernel
  obtain ⟨msg, -, -, -, text, htext, htext', -⟩ :=
    hotp_conforms vectorCrypto (Utf8.encode "12345678901234567890".toList) 0 (by norm_num)
  refine ⟨hcode, ?_⟩
  rw [Nat.cast_zero] at htext htext'
  rw [htext, ← htext', hcode]

end ZTG
