import ZtGateway.Lib.BigEndian
import ZtGateway.Proofs.Hashcash
import ZtGateway.Spec.Numeric

/-! The leading zero bits of a digest are those that the number it denotes leaves unused, so a
difficulty is a bound on this number. -/

namespace ZTG

section Count

variable {b fuel count : ℕ}

/-- One test of the bit loop: the top bit of the byte is clear, and the shift makes the number
longer by one bit, or the number has all eight. -/
theorem bit7_cases (hpos : 0 < b) (hlt : b < 2 ^ 8) :
    (b / 0x80 % 2 = 0 ∧ b * 2 < 2 ^ 8 ∧ Nat.size (b * 2) = Nat.size b + 1) ∨
      (b / 0x80 % 2 ≠ 0 ∧ Nat.size b = 8) := by
  by_cases hbit : b / 0x80 % 2 = 0
  · refine .inl ⟨hbit, by omega, ?_⟩
    have hshift := Nat.size_shiftLeft hpos.ne' 1
    rwa [Nat.shiftLeft_eq, pow_one] at hshift
  · refine .inr ⟨hbit, le_antisymm (Nat.size_le.mpr hlt) (Nat.lt_size.mpr ?_)⟩
    omega

theorem shiftsToBit7_size (hpos : 0 < b) (hlt : b < 2 ^ 8) (hfuel : 8 ≤ Nat.size b + fuel) :
    shiftsToBit7 fuel b + Nat.size b = 8 := by
  induction fuel generalizing b with
  | zero =>
    have hsize := Nat.size_le.mpr hlt
    rw [shiftsToBit7]
    omega
  | succ fuel ih =>
    rw [shiftsToBit7]
    rcases bit7_cases hpos hlt with ⟨hbit, hlt', hsize⟩ | ⟨hbit, hsize⟩
    · have h := ih (b := b * 2) (by omega) hlt' (by omega)
      rw [if_pos hbit]
      omega
    · rw [if_neg hbit, hsize]

/-- The `while` loop ends with the zero bits above the number. -/
theorem countBits_size (hpos : 0 < b) (hlt : b < 2 ^ 8) (hfuel : 9 ≤ Nat.size b + fuel) :
    Numeric.countBits fuel b count = some (count + (8 - Nat.size b)) := by
  induction fuel generalizing b count with
  | zero =>
    have hsize := Nat.size_le.mpr hlt
    omega
  | succ fuel ih =>
    have hand : Js.bitAnd b 0x80 = 0 ↔ b / 0x80 % 2 = 0 := Js.bitAnd_bit b (k := 7) (by omega)
    rw [Numeric.countBits]
    rcases bit7_cases hpos hlt with ⟨hbit, hlt', hsize⟩ | ⟨hbit, hsize⟩
    · have hshift : Js.shiftLeft b 1 = (b * 2 : ℕ) := Js.shiftLeft_one (by omega)
      rw [if_pos (hand.mpr hbit), hshift, ih (by omega) hlt' (by omega)]
      have hle := Nat.size_le.mpr hlt'
      congr 1
      omega
    · rw [if_neg fun h => hbit (hand.mp h), hsize]
      rfl

variable {buf : Buffer}

theorem byte_pos {byte : BitVec 8} (h : byte ≠ 0) : 0 < byte.toNat :=
  Nat.pos_of_ne_zero fun hzero => h (BitVec.eq_of_toNat_eq hzero)

theorem byte_size_pos {byte : BitVec 8} (h : byte ≠ 0) : 1 ≤ Nat.size byte.toNat :=
  Nat.size_pos.mpr (byte_pos h)

/-- The zeros and the bits of the number fill the buffer. -/
theorem countLeadingZeroBits_size (buf : Buffer) :
    countLeadingZeroBits buf + Nat.size (bigEndian buf) = 8 * buf.length := by
  induction buf with
  | nil => simp [countLeadingZeroBits, bigEndian]
  | cons byte rest ih =>
    rw [countLeadingZeroBits, List.length_cons]
    by_cases hbyte : byte = 0
    · subst hbyte
      have hrest : bigEndian (0 :: rest) = bigEndian rest := by simp [bigEndian]
      rw [if_pos rfl, hrest]
      omega
    · have hsize := byte_size_pos hbyte
      have hshifts := @shiftsToBit7_size byte.toNat 8 (byte_pos hbyte) byte.isLt (by omega)
      rw [if_neg hbyte, size_bigEndian byte rest hbyte]
      omega

/-- With eight tests for a byte the loops end, with the same count. -/
theorem countBytes_eq (hfuel : 8 ≤ fuel) (buf : Buffer) (count : ℕ) :
    Numeric.countBytes fuel buf count = some (count + countLeadingZeroBits buf) := by
  induction buf generalizing count with
  | nil => rfl
  | cons byte rest ih =>
    rw [Numeric.countBytes, countLeadingZeroBits]
    by_cases hbyte : byte = 0
    · have hzero : byte.toNat = 0 := congrArg BitVec.toNat hbyte
      rw [if_pos hzero, if_pos hbyte, ih, Nat.add_assoc]
    · have hsize := byte_size_pos hbyte
      have hshifts := @shiftsToBit7_size byte.toNat 8 (byte_pos hbyte) byte.isLt (by omega)
      rw [if_neg (byte_pos hbyte).ne', if_neg hbyte,
        countBits_size (byte_pos hbyte) byte.isLt (by omega)]
      congr 1
      omega

theorem le_countLeadingZeroBits_iff {n : ℕ} (hn : n ≤ 8 * buf.length) :
    n ≤ countLeadingZeroBits buf ↔ bigEndian buf < 2 ^ (8 * buf.length - n) := by
  have hsize := countLeadingZeroBits_size buf
  rw [← Nat.size_le]
  omega

end Count

section Target

variable {svc : HashcashDeps} {st : HashcashState} {t : VerifyTicks} {nonce solution : String}
  {liveScore : JsNum} {userId deviceId : String}

/-- what a call can come to, given whether its digest has enough zeros -/
inductive Tested (st : HashcashState) (nonce : String) :
    Bool → Except Err VerifyResult → HashcashState → Prop
  | refused (enough : Bool) (reason : HashcashFailure) (st' : HashcashState)
      (hreason : reason ≠ .insufficientZeros) : Tested st nonce enough (.ok (.fail reason)) st'
  | failed (st' : HashcashState) (haccepted : st'.accepted = st.accepted) :
      Tested st nonce false (.ok (.fail .insufficientZeros)) st'
  | marked (r : Except Err VerifyResult) (st' : HashcashState)
      (hpassed : ∀ reason, r ≠ .ok (.fail reason))
      (haccepted : st'.accepted = st.accepted ++ [nonce]) : Tested st nonce true r st'

def enoughZeros (digest : Buffer) (difficulty : JsNum) : Bool :=
  !(JsNum.num (countLeadingZeroBits digest)).lt difficulty

theorem markUsed_tested (svc : HashcashDeps) {st st' : HashcashState} {nonce : String}
    (payload : NoncePayload) (nowSec : ℕ) (haccepted : st'.accepted = st.accepted) :
    Tested st nonce true (markUsed svc st' nonce payload nowSec).1
      (markUsed svc st' nonce payload nowSec).2 := by
  refine .marked _ _ (fun reason => ?_) ?_
  · unfold markUsed
    dsimp only
    split
    · nofun
    · nofun
  · rw [(markUsed_record svc st' nonce payload nowSec).2.1, haccepted]

theorem verifyPayload_tested (payload : NoncePayload) :
    Tested st nonce (enoughZeros (hashSolution svc nonce solution) payload.diff)
      (verifyPayload svc st t nonce solution liveScore userId deviceId payload).1
      (verifyPayload svc st t nonce solution liveScore userId deviceId payload).2 := by
  unfold verifyPayload
  dsimp only
  split
  · exact .refused _ _ _ (by decide)
  split
  · exact .refused _ _ _ (by decide)
  split
  · exact .refused _ _ _ (by decide)
  split
  · exact .refused _ _ _ (by decide)
  unfold enoughZeros
  cases (JsNum.num (countLeadingZeroBits (hashSolution svc nonce solution))).lt payload.diff with
  | true => exact .failed _ rfl
  | false => exact markUsed_tested svc payload _ rfl

theorem verifySolution_tested {payload : NoncePayload}
    (hpayload : payloadOf svc nonce = .ok payload) :
    Tested st nonce (enoughZeros (hashSolution svc nonce solution) payload.diff)
      (verifySolution svc st t nonce solution liveScore userId deviceId).1
      (verifySolution svc st t nonce solution liveScore userId deviceId).2 := by
  unfold verifySolution
  rw [hpayload]
  dsimp only
  split
  · exact .refused _ _ _ (by decide)
  · exact verifyPayload_tested payload

/-- If no other check refuses the call, the test decides. -/
theorem Tested.iff_enough {enough : Bool} {r : Except Err VerifyResult} {st' : HashcashState}
    (h : Tested st nonce enough r st')
    (honly : ∀ reason, r = .ok (.fail reason) → reason = .insufficientZeros) :
    (st'.accepted = st.accepted ++ [nonce] ↔ enough = true) ∧
      (r = .ok (.fail .insufficientZeros) ↔ ¬ enough = true) := by
  cases h with
  | refused _ reason _ hreason => exact absurd (honly reason rfl) hreason
  | failed _ haccepted => simp [haccepted]
  | marked _ _ hpassed haccepted => simp [haccepted, hpassed]

/-- A digest of this length is below the target of the difficulty. -/
def BelowTarget (digest : Buffer) (difficulty : ℚ) : Prop :=
  bigEndian digest < 2 ^ (8 * digest.length - ⌈difficulty⌉₊)

theorem enoughZeros_iff {digest : Buffer} {difficulty : ℚ}
    (hfits : difficulty ≤ (8 * digest.length : ℕ)) :
    enoughZeros digest (.num difficulty) = true ↔ BelowTarget digest difficulty := by
  rw [BelowTarget, ← le_countLeadingZeroBits_iff (Nat.ceil_le.mpr hfits), Nat.ceil_le]
  simp [enoughZeros, JsNum.lt]

/-- The count of leading zero bits says below which power of two the number of the buffer lies,
its loops end for every byte, and so a call of `verifySolution` that no other check refuses
accepts the nonce exactly if the digest is below the target. -/
theorem leading_zeros_exact :
    (∀ (byte : BitVec 8) (count : ℕ), byte ≠ 0 → ∃ zeros < 8, ∀ fuel, 8 ≤ fuel →
      Numeric.countBits fuel byte.toNat count = some (count + zeros)) ∧
    (∀ buf : Buffer,
      (∀ fuel, 8 ≤ fuel →
        Numeric.countLeadingZeroBits fuel buf = some (countLeadingZeroBits buf)) ∧
      ∀ n, n ≤ 8 * buf.length →
        (n ≤ countLeadingZeroBits buf ↔ bigEndian buf < 2 ^ (8 * buf.length - n))) ∧
    ∀ (svc : HashcashDeps) (st : HashcashState) (t : VerifyTicks) (nonce solution : String)
      (liveScore : JsNum) (userId deviceId : String) (payload : NoncePayload) (difficulty : ℚ),
      payloadOf svc nonce = .ok payload → payload.diff = .num difficulty →
      difficulty ≤ (8 * (hashSolution svc nonce solution).length : ℕ) →
      let r := verifySolution svc st t nonce solution liveScore userId deviceId
      (∀ reason, r.1 = .ok (.fail reason) → reason = .insufficientZeros) →
        (r.2.accepted = st.accepted ++ [nonce] ↔
          BelowTarget (hashSolution svc nonce solution) difficulty) ∧
        (r.1 = .ok (.fail .insufficientZeros) ↔
          ¬ BelowTarget (hashSolution svc nonce solution) difficulty) := by
  refine ⟨fun byte count hbyte => ?_, fun buf => ⟨fun fuel hfuel => ?_, fun n hn => ?_⟩, ?_⟩
  · have hsize := byte_size_pos hbyte
    exact ⟨8 - Nat.size byte.toNat, by omega, fun fuel hfuel =>
      countBits_size (byte_pos hbyte) byte.isLt (by omega)⟩
  · rw [Numeric.countLeadingZeroBits, countBytes_eq hfuel, Nat.zero_add]
  · exact le_countLeadingZeroBits_iff hn
  · intro svc st t nonce solution liveScore userId deviceId payload difficulty hpayload hdiff hfits
      r honly
    rw [← enoughZeros_iff hfits, ← hdiff]
    exact (verifySolution_tested hpayload).iff_enough honly

/-- The solution `5` of the sample challenge, whose difficulty is 4. -/
theorem leading_zeros_exact_sample :
    let r := verifySolution (sampleHashcash 1) { now := 0 } {} nonceU "5" (.num (17 / 20)) "u" "d"
    r.2.accepted = [nonceU] ∧ BelowTarget (hashSolution (sampleHashcash 1) nonceU "5") 4 := by
  dsimp only
  obtain ⟨hok, -⟩ := @sample_redeemed 1 { now := 0 } {} nonceU "5" .empty sample_open (by decide)
    (by decide) rfl zeros_five
  have hzeros := @zeros_five 1
  have hsize := countLeadingZeroBits_size (hashSolution (sampleHashcash 1) nonceU "5")
  have hfits : (4 : ℚ) ≤ (8 * (hashSolution (sampleHashcash 1) nonceU "5").length : ℕ) := by
    exact_mod_cast (show 4 ≤ 8 * (hashSolution (sampleHashcash 1) nonceU "5").length by omega)
  have hbelow : BelowTarget (hashSolution (sampleHashcash 1) nonceU "5") 4 := by
    have hceil : ⌈(4 : ℚ)⌉₊ = 4 := Nat.ceil_ofNat 4
    rw [BelowTarget, hceil]
    exact (le_countLeadingZeroBits_iff (by omega)).mp hzeros
  obtain ⟨haccepted, -⟩ := leading_zeros_exact.2.2 (sampleHashcash 1) { now := 0 } {} nonceU "5"
    (.num (17 / 20)) "u" "d" sampleNoncePayload 4 (payloadOf_of_open sample_open sample_read) rfl
    hfits fun reason hfail => nomatch hok.symm.trans hfail
  exact ⟨haccepted.mpr hbelow, hbelow⟩

end Target

end ZTG
