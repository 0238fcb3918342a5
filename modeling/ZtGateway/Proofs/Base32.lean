import Mathlib.Algebra.Order.Floor.Div
import ZtGateway.Lib.Bits
import ZtGateway.Proofs.EnrollmentBound

/-! `base32Encode` and `base32Decode` over the stream of bits. Neither accumulator is ever cleared,
but only its low bits are read, and these are the bits that were taken in and not yet given out. -/

namespace ZTG

/-- The upper case of a text of ASCII characters; beyond ASCII it is left open. -/
def Crypto.AsciiUpper (c : Crypto) : Prop :=
  ∀ s : String, (∀ ch ∈ s.toList, ch.toNat < 128) →
    c.toUpperCase s = String.ofList (s.toList.map Char.toUpper)

namespace Base32

/-- the five bits that a character stands for -/
def digitBits (ch : Char) : List Bool := lowBits (BitVec.ofNat 32 (BASE32_CHARS.idxOf ch)) 5

/-- the eight bits of a byte -/
def byteBits (byte : BitVec 8) : List Bool := lowBits byte 8

theorem byteBits_injective : Function.Injective byteBits := lowBits_injective

theorem length_byteBits (byte : BitVec 8) : (byteBits byte).length = 8 := length_lowBits byte 8

theorem length_digitBits (ch : Char) : (digitBits ch).length = 5 := length_lowBits _ 5

/-- The letters and digits are two ranges of codes. -/
theorem alphabet_codes :
    BASE32_CHARS.map Char.toNat = List.range' 65 26 ++ List.range' 50 6 := by
  have hchars : BASE32_CHARS = ['A', 'B', 'C', 'D', 'E', 'F', 'G', 'H', 'I', 'J', 'K', 'L', 'M',
      'N', 'O', 'P', 'Q', 'R', 'S', 'T', 'U', 'V', 'W', 'X', 'Y', 'Z', '2', '3', '4', '5', '6',
      '7'] := String.toList_ofList
  rw [hchars]
  rfl

theorem length_alphabet : BASE32_CHARS.length = 32 := by
  rw [← List.length_map Char.toNat, alphabet_codes]
  rfl

theorem alphabet_code {ch : Char} (h : ch ∈ BASE32_CHARS) :
    65 ≤ ch.toNat ∧ ch.toNat < 91 ∨ 50 ≤ ch.toNat ∧ ch.toNat < 56 := by
  have hcode := List.mem_map_of_mem (f := Char.toNat) h
  rw [alphabet_codes, List.mem_append, List.mem_range'_1, List.mem_range'_1] at hcode
  omega

theorem nodup_alphabet : BASE32_CHARS.Nodup := by
  refine List.Nodup.of_map Char.toNat ?_
  rw [alphabet_codes]
  refine List.nodup_append'.mpr ⟨List.nodup_range', List.nodup_range', fun n hn hn' => ?_⟩
  rw [List.mem_range'_1] at hn hn'
  omega

theorem getD_alphabet {i : ℕ} (hi : i < BASE32_CHARS.length) :
    BASE32_CHARS.getD i 'A' = BASE32_CHARS[i] := by
  rw [List.getD_eq_getElem?_getD, List.getElem?_eq_getElem hi, Option.getD_some]

theorem alphabet_digit : ∀ i < 32, BASE32_CHARS.getD i 'A' ∈ BASE32_CHARS ∧
    BASE32_CHARS.idxOf (BASE32_CHARS.getD i 'A') = i := by
  intro i hi
  have hlt : i < BASE32_CHARS.length := length_alphabet ▸ hi
  rw [getD_alphabet hlt]
  exact ⟨List.getElem_mem hlt, nodup_alphabet.idxOf_getElem i hlt⟩

theorem idxOf?_alphabet : ∀ ch ∈ BASE32_CHARS,
    BASE32_CHARS.idxOf? ch = some (BASE32_CHARS.idxOf ch) ∧ BASE32_CHARS.idxOf ch < 32 := by
  intro ch hch
  refine ⟨?_, length_alphabet ▸ List.idxOf_lt_length_of_mem hch⟩
  obtain ⟨i, hi, rfl⟩ := List.mem_iff_getElem.mp hch
  rw [nodup_alphabet.idxOf_getElem i hi, ← getD_alphabet hi, Base64.idxOf?_getD nodup_alphabet hi]

theorem alphabet_upper : ∀ ch ∈ BASE32_CHARS,
    ch.toUpper = ch ∧ ch.toNat < 128 ∧ (ch == '=') = false := by
  intro ch hch
  have hcode := alphabet_code hch
  refine ⟨?_, by omega, ?_⟩
  · unfold Char.toUpper
    refine dif_neg fun hlower => ?_
    have hle : 97 ≤ ch.toNat := UInt32.le_iff_toNat_le.mp hlower.1
    omega
  · rw [beq_eq_false_iff_ne]
    rintro rfl
    exact absurd hcode (by decide)

theorem mask_digit : ∀ i < 5, (0x1f : BitVec 32).getLsbD i = true := by decide

theorem masked_lt (x : BitVec 32) : (x &&& 0x1f).toNat < 32 := by
  rw [BitVec.toNat_and]
  exact lt_of_le_of_lt Nat.and_le_right (by decide)

/-- The character for five bits of the accumulator stands for these bits. -/
theorem digitBits_char (x : BitVec 32) :
    BASE32_CHARS.getD (x &&& 0x1f).toNat 'A' ∈ BASE32_CHARS ∧
      digitBits (BASE32_CHARS.getD (x &&& 0x1f).toNat 'A') = lowBits x 5 := by
  obtain ⟨hmem, hidx⟩ := alphabet_digit _ (masked_lt x)
  refine ⟨hmem, ?_⟩
  rw [digitBits, hidx, BitVec.ofNat_toNat, BitVec.setWidth_eq]
  exact lowBits_and_mask mask_digit

theorem base32Drain_add (buf : BitVec 32) (n : ℕ) :
    base32Drain buf (n + 5) = (BASE32_CHARS.getD ((buf >>> n) &&& 0x1f).toNat 'A' ::
      (base32Drain buf n).1, (base32Drain buf n).2) := by
  rw [base32Drain]

theorem base32Drain_lt (buf : BitVec 32) {n : ℕ} (h : n < 5) : base32Drain buf n = ([], n) := by
  match n, h with
  | 0, _ | 1, _ | 2, _ | 3, _ | 4, _ => rfl

/-- The inner loop gives out five bits at a time and keeps fewer than five. -/
theorem base32Drain_spec (buf : BitVec 32) (n : ℕ) :
    (∀ ch ∈ (base32Drain buf n).1, ch ∈ BASE32_CHARS) ∧ (base32Drain buf n).2 < 5 ∧
      (base32Drain buf n).1.flatMap digitBits ++ lowBits buf (base32Drain buf n).2 =
        lowBits buf n := by
  induction n using Nat.strong_induction_on with
  | h n ih =>
    by_cases hlt : n < 5
    · rw [base32Drain_lt buf hlt]
      exact ⟨fun ch h => absurd h List.not_mem_nil, hlt, rfl⟩
    · obtain ⟨m, rfl⟩ : ∃ m, n = m + 5 := ⟨n - 5, by omega⟩
      obtain ⟨hmem, hleft, hbits⟩ := ih m (by omega)
      obtain ⟨hchar, hdigit⟩ := digitBits_char (buf >>> m)
      rw [base32Drain_add]
      refine ⟨?_, hleft, ?_⟩
      · intro ch hch
        rcases List.mem_cons.mp hch with rfl | hch
        · exact hchar
        · exact hmem ch hch
      · rw [List.flatMap_cons, hdigit, List.append_assoc, hbits, Nat.add_comm m 5, lowBits_add]

theorem lowBits_zero (n : ℕ) : lowBits (0 : BitVec 32) n = List.replicate n false := by
  induction n with
  | zero => rfl
  | succ n ih => rw [lowBits, ih, List.replicate_succ, BitVec.ofNat_eq_ofNat, BitVec.getLsbD_zero]

theorem getLsbD_byte (byte : BitVec 8) (i : ℕ) (h : 8 ≤ i) :
    (byte.zeroExtend 32).getLsbD i = false := by
  rw [BitVec.getLsbD_setWidth, BitVec.getLsbD_of_ge byte i h, Bool.and_false]

/-- A byte goes in after the bits that the accumulator still has to give out. -/
theorem push_byte (buf : BitVec 32) {bits : ℕ} (h : bits < 5) (byte : BitVec 8) :
    lowBits ((buf <<< 8) ||| byte.zeroExtend 32) (bits + 8) = lowBits buf bits ++ byteBits byte := by
  rw [lowBits_push (by omega) (getLsbD_byte byte)]
  exact congrArg (lowBits buf bits ++ ·) (lowBits_setWidth byte (by omega))

/-- The characters stand for the bits held, the bits of the bytes and fewer than five zeros. -/
theorem base32EncodeFrom_spec (bytes : Buffer) (buf : BitVec 32) {bits : ℕ} (h : bits < 5) :
    (∀ ch ∈ base32EncodeFrom buf bits bytes, ch ∈ BASE32_CHARS) ∧ ∃ pad < 5,
      (base32EncodeFrom buf bits bytes).flatMap digitBits =
        lowBits buf bits ++ bytes.flatMap byteBits ++ List.replicate pad false := by
  induction bytes generalizing buf bits with
  | nil =>
    rw [base32EncodeFrom]
    split_ifs with hpos
    · obtain ⟨hchar, hdigit⟩ := digitBits_char (buf <<< (5 - bits))
      refine ⟨fun ch hch => List.mem_singleton.mp hch ▸ hchar, 5 - bits, by omega, ?_⟩
      have hpush := @lowBits_push 32 buf 0 bits (5 - bits) (by omega) fun i _ => by
        rw [BitVec.ofNat_eq_ofNat, BitVec.getLsbD_zero]
      rw [show bits + (5 - bits) = 5 by omega, BitVec.ofNat_eq_ofNat, BitVec.or_zero,
        ← BitVec.ofNat_eq_ofNat, lowBits_zero] at hpush
      rw [List.flatMap_singleton, hdigit, hpush, List.flatMap_nil, List.append_nil]
    · obtain rfl : bits = 0 := by omega
      exact ⟨fun ch hch => absurd hch List.not_mem_nil, 0, by omega, rfl⟩
  | cons byte bytes ih =>
    rw [base32EncodeFrom]
    obtain ⟨hchars, hleft, hdrain⟩ :=
      base32Drain_spec ((buf <<< 8) ||| byte.zeroExtend 32) (bits + 8)
    obtain ⟨hrest, pad, hpad, hbits⟩ := ih ((buf <<< 8) ||| byte.zeroExtend 32) hleft
    refine ⟨?_, pad, hpad, ?_⟩
    · intro ch hch
      rcases List.mem_append.mp hch with hch | hch
      · exact hchars ch hch
      · exact hrest ch hch
    · rw [List.flatMap_append, hbits, List.flatMap_cons, ← List.append_assoc, ← List.append_assoc,
        hdrain, push_byte buf h byte]
      simp only [List.append_assoc]

theorem getLsbD_digit {idx : ℕ} (h : idx < 32) (i : ℕ) (hi : 5 ≤ i) :
    (BitVec.ofNat 32 idx).getLsbD i = false := by
  rw [BitVec.getLsbD_ofNat, Nat.testBit_lt_two_pow, Bool.and_false]
  calc idx < 2 ^ 5 := h
    _ ≤ 2 ^ i := Nat.pow_le_pow_right (by omega) hi

/-- The bytes read so far, the bits held and the bits of the text are those of the result, with
fewer than eight left over. -/
theorem base32DecodeFrom_spec (s : List Char) (hs : ∀ ch ∈ s, ch ∈ BASE32_CHARS) (out : Buffer)
    (buf : BitVec 32) {bits : ℕ} (h : bits < 8) :
    ∃ out' rest, base32DecodeFrom out buf bits s = .ok out' ∧ rest.length < 8 ∧
      out'.flatMap byteBits ++ rest =
        out.flatMap byteBits ++ lowBits buf bits ++ s.flatMap digitBits := by
  induction s generalizing out buf bits with
  | nil => exact ⟨out, lowBits buf bits, rfl, by rwa [length_lowBits], (List.append_nil _).symm⟩
  | cons ch s ih =>
    obtain ⟨hidx, hlt⟩ := idxOf?_alphabet ch (hs ch List.mem_cons_self)
    have hs' : ∀ ch ∈ s, ch ∈ BASE32_CHARS := fun ch h => hs ch (List.mem_cons_of_mem _ h)
    rw [base32DecodeFrom, hidx]
    dsimp only
    generalize hbuf : (buf <<< 5) ||| BitVec.ofNat 32 (BASE32_CHARS.idxOf ch) = buf'
    have hpush : lowBits buf' (bits + 5) = lowBits buf bits ++ digitBits ch := by
      rw [← hbuf, lowBits_push (by omega) (getLsbD_digit hlt)]
      rfl
    split_ifs with hfull
    · -- a whole byte goes out, and fewer than eight bits stay
      obtain ⟨out', rest, hout, hrest, hbits⟩ :=
        ih hs' (out ++ [(buf' >>> (bits + 5 - 8)).truncate 8]) buf' (show bits + 5 - 8 < 8 by omega)
      refine ⟨out', rest, hout, hrest, ?_⟩
      have hbyte : byteBits ((buf' >>> (bits + 5 - 8)).truncate 8) ++ lowBits buf' (bits + 5 - 8) =
          lowBits buf' (bits + 5) := by
        rw [byteBits, lowBits_setWidth _ le_rfl, ← lowBits_add]
        congr 1
        omega
      rw [hbits, List.flatMap_append, List.flatMap_singleton, List.append_assoc (out.flatMap byteBits),
        hbyte, hpush, List.flatMap_cons]
      simp only [List.append_assoc]
    · obtain ⟨out', rest, hout, hrest, hbits⟩ := ih hs' out buf' (show bits + 5 < 8 by omega)
      refine ⟨out', rest, hout, hrest, ?_⟩
      rw [hbits, hpush, List.flatMap_cons]
      simp only [List.append_assoc]

theorem stripPadding_alphabet {s : List Char} (hs : ∀ ch ∈ s, ch ∈ BASE32_CHARS) :
    stripPadding s = s := by
  unfold stripPadding
  have hkeep : s.reverse.dropWhile (· == '=') = s.reverse := by
    cases hrev : s.reverse with
    | nil => rfl
    | cons ch rest =>
      have hmem : ch ∈ s := List.mem_reverse.mp (hrev ▸ List.mem_cons_self)
      rw [List.dropWhile_cons, (alphabet_upper ch (hs ch hmem)).2.2]
      rfl
  rw [hkeep, List.reverse_reverse]

theorem toUpperCase_alphabet {c : Crypto} (hc : c.AsciiUpper) {s : List Char}
    (hs : ∀ ch ∈ s, ch ∈ BASE32_CHARS) : c.toUpperCase (String.ofList s) = String.ofList s := by
  rw [hc _ fun ch hch => (alphabet_upper ch (hs ch (by simpa using hch))).2.1, String.toList_ofList]
  exact congrArg String.ofList
    ((List.map_congr_left fun ch hch => (alphabet_upper ch (hs ch hch)).1).trans (List.map_id s))

theorem base32Encode_chars (b : Buffer) : ∀ ch ∈ (base32Encode b).toList, ch ∈ BASE32_CHARS := by
  rw [base32Encode, String.toList_ofList]
  exact (base32EncodeFrom_spec b 0 (show 0 < 5 by omega)).1

theorem length_base32Encode (b : Buffer) : (base32Encode b).length = 8 * b.length ⌈/⌉ 5 := by
  obtain ⟨-, pad, hpad, hbits⟩ := base32EncodeFrom_spec b 0 (show 0 < 5 by omega)
  have hlen := congrArg List.length hbits
  rw [List.length_append, List.length_append, length_lowBits, List.length_replicate,
    length_flatMap_digits length_digitBits, length_flatMap_digits length_byteBits] at hlen
  rw [base32Encode, String.length_ofList, Nat.ceilDiv_eq_add_pred_div]
  omega

theorem base32Decode_encode {c : Crypto} (hc : c.AsciiUpper) (b : Buffer) :
    base32Decode c (base32Encode b) = .ok b := by
  obtain ⟨hchars, pad, hpad, hbits⟩ := base32EncodeFrom_spec b 0 (show 0 < 5 by omega)
  obtain ⟨out, rest, hout, hrest, hstream⟩ :=
    base32DecodeFrom_spec _ hchars [] 0 (show 0 < 8 by omega)
  rw [base32Decode, base32Encode, toUpperCase_alphabet hc hchars, String.toList_ofList,
    stripPadding_alphabet hchars, hout]
  rw [hbits] at hstream
  have hbytes := flatMap_digits_inj byteBits_injective length_byteBits hstream hrest
    (by rw [List.length_replicate]; omega)
  exact congrArg Except.ok hbytes.1

/-- Decoding gives back the bytes that were encoded, and the text has a character of the alphabet
for each five bits begun. -/
theorem base32_roundtrip (c : Crypto) (hc : c.AsciiUpper) (b : Buffer) :
    base32Decode c (base32Encode b) = .ok b ∧
      (base32Encode b).length = 8 * b.length ⌈/⌉ 5 ∧
      ∀ ch ∈ (base32Encode b).toList, ch ∈ BASE32_CHARS :=
  ⟨base32Decode_encode hc b, length_base32Encode b, base32Encode_chars b⟩

/-- Two bytes: sixteen bits, so four characters. -/
theorem base32_roundtrip_two_bytes :
    base32Decode sampleCipher.toCrypto (base32Encode [0x48, 0xff]) = .ok [0x48, 0xff] ∧
      (base32Encode [0x48, 0xff]).length = 8 * 2 ⌈/⌉ 5 ∧
      ∀ ch ∈ (base32Encode [0x48, 0xff]).toList, ch ∈ BASE32_CHARS :=
  base32_roundtrip sampleCipher.toCrypto (fun _ _ => rfl) [0x48, 0xff]

end Base32

end ZTG
