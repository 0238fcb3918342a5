import Mathlib.Data.Rat.Defs
import Mathlib.Tactic

/-! JavaScript numbers as far as comparisons see them: finite values, the two
infinities and NaN. Every comparison with NaN is false, so `lt` is not the
negation of `le`. -/

namespace ZTG

inductive JsNum where
  | nan
  | negInf
  | num (q : ℚ)
  | posInf
  deriving DecidableEq

namespace JsNum

def le : JsNum → JsNum → Bool
  | .nan, _ => false
  | _, .nan => false
  | .negInf, _ => true
  | _, .posInf => true
  | .num a, .num b => decide (a ≤ b)
  | _, _ => false

def lt : JsNum → JsNum → Bool
  | .nan, _ => false
  | _, .nan => false
  | _, .negInf => false
  | .posInf, _ => false
  | .num a, .num b => decide (a < b)
  | _, _ => true

/-- `Math.max` of two numbers -/
def max (a b : JsNum) : JsNum :=
  if a = .nan ∨ b = .nan then .nan else if a.le b then b else a

/-- `Math.min` of two numbers -/
def min (a b : JsNum) : JsNum :=
  if a = .nan ∨ b = .nan then .nan else if a.le b then a else b

/-- the sum of two numbers, exact where both are finite -/
def add : JsNum → JsNum → JsNum
  | .nan, _ | _, .nan => .nan
  | .num a, .num b => .num (a + b)
  | .posInf, .negInf | .negInf, .posInf => .nan
  | .posInf, _ | _, .posInf => .posInf
  | .negInf, _ | _, .negInf => .negInf

/-- the product with a finite number, exact where both are finite -/
def scale (c : ℚ) : JsNum → JsNum
  | .nan => .nan
  | .num a => .num (a * c)
  | .posInf => if 0 < c then .posInf else if c < 0 then .negInf else .nan
  | .negInf => if 0 < c then .negInf else if c < 0 then .posInf else .nan

@[simp] theorem num_add (a b : ℚ) : add (.num a) (.num b) = .num (a + b) := rfl

@[simp] theorem scale_num (c a : ℚ) : scale c (.num a) = .num (a * c) := rfl

@[simp] theorem num_max (a b : ℚ) : max (.num a) (.num b) = .num (Max.max a b) := by
  rcases le_total a b with h | h
  · simp [max, le, h]
  · rcases h.eq_or_lt with rfl | hlt
    · simp [max, le]
    · simp [max, le, h, hlt.not_ge]

@[simp] theorem num_min (a b : ℚ) : min (.num a) (.num b) = .num (Min.min a b) := by
  rcases le_total a b with h | h
  · simp [min, le, h]
  · rcases h.eq_or_lt with rfl | hlt
    · simp [min, le]
    · simp [min, le, h, hlt.not_ge]

theorem num_le (a b : ℚ) : le (.num a) (.num b) = true ↔ a ≤ b := by simp [le]

theorem num_lt (a b : ℚ) : lt (.num a) (.num b) = decide (a < b) := rfl

theorem le_trans {a b c : JsNum} (hab : a.le b = true) (hbc : b.le c = true) :
    a.le c = true := by
  cases a <;> cases b <;> cases c <;> simp_all [le]
  exact hab.trans hbc

theorem lt_of_le_of_lt {a b c : JsNum} (hab : a.le b = true) (hbc : b.lt c = true) :
    a.lt c = true := by
  cases a <;> cases b <;> cases c <;> simp_all [le, lt]
  exact hab.trans_lt hbc

theorem lt_of_lt_of_le {a b c : JsNum} (hab : a.lt b = true) (hbc : b.le c = true) :
    a.lt c = true := by
  cases a <;> cases b <;> cases c <;> simp_all [le, lt]
  exact hab.trans_le hbc

end JsNum

end ZTG
