import Mathlib.Tactic

/-! UTF-8 as text encoders and decoders of JavaScript runtimes do it. The decoder never
fails: a byte that cannot go on replaces what was begun by U+FFFD and is read again from
the start. -/

namespace ZTG

namespace Utf8

def encodeChar (c : Char) : List ℕ :=
  let n := c.toNat
  if n < 0x80 then [n]
  else if n < 0x800 then [0xC0 + n / 64, 0x80 + n % 64]
  else if n < 0x10000 then [0xE0 + n / 4096, 0x80 + n / 64 % 64, 0x80 + n % 64]
  else [0xF0 + n / 262144, 0x80 + n / 4096 % 64, 0x80 + n / 64 % 64, 0x80 + n % 64]

def encode (s : List Char) : List (BitVec 8) := (s.flatMap encodeChar).map (BitVec.ofNat 8)

/-- the bytes still needed, the bits read so far, and the range of the next byte -/
structure State where
  needed : ℕ
  point : ℕ
  lower : ℕ
  upper : ℕ

def replacement : Char := Char.ofNat 0xFFFD

/-- between characters -/
def State.start : State := ⟨0, 0, 0x80, 0xBF⟩

/-- the first byte of a character -/
def lead (b : ℕ) : List Char × State :=
  if b < 0x80 then ([Char.ofNat b], .start)
  else if b < 0xC2 then ([replacement], .start)
  else if b < 0xE0 then ([], ⟨1, b - 0xC0, 0x80, 0xBF⟩)
  else if b < 0xF0 then
    ([], ⟨2, b - 0xE0, if b = 0xE0 then 0xA0 else 0x80, if b = 0xED then 0x9F else 0xBF⟩)
  else if b < 0xF5 then
    ([], ⟨3, b - 0xF0, if b = 0xF0 then 0x90 else 0x80, if b = 0xF4 then 0x8F else 0xBF⟩)
  else ([replacement], .start)

def next (st : State) (b : ℕ) : List Char × State :=
  if st.needed = 0 then lead b
  else if st.lower ≤ b ∧ b ≤ st.upper then
    let point := st.point * 64 + b % 64
    if st.needed = 1 then ([Char.ofNat point], .start)
    else ([], ⟨st.needed - 1, point, 0x80, 0xBF⟩)
  else (replacement :: (lead b).1, (lead b).2)

def decodeFrom (st : State) : List (BitVec 8) → List Char
  | [] => if st.needed = 0 then [] else [replacement]
  | b :: rest => (next st b.toNat).1 ++ decodeFrom (next st b.toNat).2 rest

def decode (bytes : List (BitVec 8)) : List Char := decodeFrom .start bytes

theorem decodeFrom_cons (st : State) {b : ℕ} (hb : b < 256) (rest : List (BitVec 8)) :
    decodeFrom st (BitVec.ofNat 8 b :: rest) =
      (next st b).1 ++ decodeFrom (next st b).2 rest := by
  rw [decodeFrom, BitVec.toNat_ofNat, Nat.mod_eq_of_lt (by omega)]

theorem next_start (b : ℕ) : next .start b = lead b := if_pos rfl

theorem next_last {p lo hi b : ℕ} (hlo : lo ≤ b) (hhi : b ≤ hi) :
    next ⟨1, p, lo, hi⟩ b = ([Char.ofNat (p * 64 + b % 64)], .start) := by
  simp [next, hlo, hhi]

theorem next_more {n p lo hi b : ℕ} (hn : n ≠ 0) (hlo : lo ≤ b) (hhi : b ≤ hi) :
    next ⟨n + 1, p, lo, hi⟩ b = ([], ⟨n, p * 64 + b % 64, 0x80, 0xBF⟩) := by
  simp [next, hn, hlo, hhi]

/-- No scalar value is a surrogate or beyond the last plane. -/
theorem toNat_valid (c : Char) : c.toNat < 0xD800 ∨ 0xDFFF < c.toNat ∧ c.toNat < 0x110000 :=
  c.valid

theorem decode_encodeChar (c : Char) (rest : List (BitVec 8)) :
    decodeFrom .start ((encodeChar c).map (BitVec.ofNat 8) ++ rest) = c :: decodeFrom .start rest := by
  have hvalid := toNat_valid c
  have hc : ∀ n, n = c.toNat → Char.ofNat n = c := by
    rintro n rfl
    exact Char.ofNat_toNat c
  unfold encodeChar
  simp only
  split_ifs with h1 h2 h3
  · simp only [List.map_cons, List.map_nil, List.cons_append, List.nil_append]
    rw [decodeFrom_cons _ (by omega), next_start, lead, if_pos h1, hc _ rfl]
    rfl
  · simp only [List.map_cons, List.map_nil, List.cons_append, List.nil_append]
    rw [decodeFrom_cons _ (by omega), next_start, lead, if_neg (by omega), if_neg (by omega),
      if_pos (by omega), decodeFrom_cons _ (by omega), next_last (by omega) (by omega),
      hc _ (by omega)]
    rfl
  · have hlo : (if 0xE0 + c.toNat / 4096 = 0xE0 then 0xA0 else 0x80) ≤ 0x80 + c.toNat / 64 % 64 := by
      split_ifs <;> omega
    have hhi : 0x80 + c.toNat / 64 % 64 ≤ if 0xE0 + c.toNat / 4096 = 0xED then 0x9F else 0xBF := by
      split_ifs <;> omega
    simp only [List.map_cons, List.map_nil, List.cons_append, List.nil_append]
    rw [decodeFrom_cons _ (by omega), next_start, lead, if_neg (by omega), if_neg (by omega),
      if_neg (by omega), if_pos (by omega), decodeFrom_cons _ (by omega),
      next_more (by decide) hlo hhi, decodeFrom_cons _ (by omega),
      next_last (by omega) (by omega), hc _ (by omega)]
    rfl
  · have hlo : (if 0xF0 + c.toNat / 262144 = 0xF0 then 0x90 else 0x80) ≤
        0x80 + c.toNat / 4096 % 64 := by
      split_ifs <;> omega
    have hhi : 0x80 + c.toNat / 4096 % 64 ≤
        if 0xF0 + c.toNat / 262144 = 0xF4 then 0x8F else 0xBF := by
      split_ifs <;> omega
    simp only [List.map_cons, List.map_nil, List.cons_append, List.nil_append]
    rw [decodeFrom_cons _ (by omega), next_start, lead, if_neg (by omega), if_neg (by omega),
      if_neg (by omega), if_neg (by omega), if_pos (by omega), decodeFrom_cons _ (by omega),
      next_more (by decide) hlo hhi, decodeFrom_cons _ (by omega),
      next_more (by decide) (by omega) (by omega), decodeFrom_cons _ (by omega),
      next_last (by omega) (by omega), hc _ (by omega)]
    rfl

theorem decode_encode (s : List Char) : decode (encode s) = s := by
  unfold decode encode
  induction s with
  | nil => rfl
  | cons c s ih => rw [List.flatMap_cons, List.map_append, decode_encodeChar, ih]

end Utf8

end ZTG
