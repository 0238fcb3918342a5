import ZtGateway.Lib.Operators
import ZtGateway.Spec.Hashcash

/-! `hotp` and `countLeadingZeroBits` with the operators that the source applies to numbers: the
counter is divided as a double, `&` and `<<=` work on signed words, a read outside the buffer
throws, and the `while` loop of the bits need not end. -/

namespace ZTG

namespace Numeric

/-- `readUInt32BE`, which throws unless four bytes are there -/
def readUInt32BE (b : Buffer) (offset : ℤ) : Except Err ℤ :=
  if 0 ≤ offset then
    match b.drop offset.toNat with
    | b₀ :: b₁ :: b₂ :: b₃ :: _ =>
      .ok (b₀.toNat * 2 ^ 24 + b₁.toNat * 2 ^ 16 + b₂.toNat * 2 ^ 8 + b₃.toNat)
    | _ => .error (.error "ERR_OUT_OF_RANGE")
  else .error (.error "ERR_OUT_OF_RANGE")

def hotp (c : Crypto) (key : Buffer) (counter : ℤ) : Except Err String := do
  let hi ← writeUInt32BE (Js.floorDiv counter 0x100000000)
  let lo ← writeUInt32BE (Js.unsignedShiftRight counter 0)
  let hmac := c.hmacSha1 key (hi ++ lo)
  let offset := Js.bitAnd (hmac.getD 19 0).toNat 0x0f
  let word ← readUInt32BE hmac offset
  let code := Js.remainder (Js.bitAnd word 0x7fffffff) 1000000
  pure (padStart 6 '0' (toString code))

/-- `while ((b & 0x80) === 0) { count++; b <<= 1; }`; `none` if `fuel` tests do not end it -/
def countBits : (fuel : ℕ) → ℤ → ℕ → Option ℕ
  | 0, _, _ => none
  | fuel + 1, b, count =>
    if Js.bitAnd b 0x80 = 0 then countBits fuel (Js.shiftLeft b 1) (count + 1) else some count

/-- the loop over the bytes -/
def countBytes (fuel : ℕ) : Buffer → ℕ → Option ℕ
  | [], count => some count
  | byte :: rest, count =>
    if byte.toNat = 0 then countBytes fuel rest (count + 8) else countBits fuel byte.toNat count

def countLeadingZeroBits (fuel : ℕ) (buf : Buffer) : Option ℕ := countBytes fuel buf 0

end Numeric

end ZTG
