import Mathlib.Algebra.Order.BigOperators.GroupWithZero.List
import Mathlib.Tactic.Ring
import Mathlib.Data.Nat.ModEq

/-!
# Machine words and big-endian integers

The checked operations of an unsigned word of `bits` bits, and the loop that
reads a byte string as a big-endian integer with them. The loop never fails: it
computes the integer modulo the word size, so it is exact below that size.
-/

namespace NdnFwd

/-- Byte strings. -/
abbrev Bytes := List UInt8

namespace Word

/-- `checked_add`: the sum, unless it overflows. -/
def checkedAdd (bits a b : Nat) : Option Nat :=
  if a + b < 2 ^ bits then some (a + b) else none

/-- The operator `+`: a sum that overflows panics in a build with overflow checks, and wraps around
in one without. -/
def add (bits : Nat) (checks : Bool) (a b : Nat) : Option Nat :=
  if a + b < 2 ^ bits then some (a + b) else if checks then none else some ((a + b) % 2 ^ bits)

/-- A sum of several readings, from left to right. A reading may itself be a sum. -/
def sum {α : Type*} (bits : Nat) (checks : Bool) (read : α → Option Nat) (a : Nat) (xs : List α) :
    Option Nat :=
  xs.foldlM (fun n x => (read x).bind (add bits checks n)) a

/-- The operator `*`: a product that overflows panics in a build with overflow checks, and wraps
around in one without. -/
def mul (bits : Nat) (checks : Bool) (a b : Nat) : Option Nat :=
  if a * b < 2 ^ bits then some (a * b) else if checks then none else some (a * b % 2 ^ bits)

/-- A product of several factors, from left to right. -/
def product (bits : Nat) (checks : Bool) (a : Nat) (factors : List Nat) : Option Nat :=
  factors.foldlM (mul bits checks) a

/-- `saturating_add`: the sum, or the largest word if it overflows. -/
def saturatingAdd (bits a b : Nat) : Nat := min (a + b) (2 ^ bits - 1)

/-- `checked_shl`: fails only when the shift distance reaches the width. Bits
shifted out of the word are dropped silently. -/
def checkedShl (bits a k : Nat) : Option Nat :=
  if k < bits then some (a * 2 ^ k % 2 ^ bits) else none

/-- One round of the big-endian loop: `n.checked_shl(8)?.checked_add(b)?`. -/
def pushByte (bits n : Nat) (b : UInt8) : Option Nat :=
  (checkedShl bits n 8).bind fun m => checkedAdd bits m b.toNat

/-- The big-endian loop over a whole byte string. -/
def readBe (bits : Nat) (bs : Bytes) : Option Nat :=
  bs.foldlM (pushByte bits) 0

/-- The unbounded integer that a byte string spells, most significant byte first. -/
def beNat (bs : Bytes) : Nat := bs.foldl (fun n b => n * 256 + b.toNat) 0

/-- The low `width` bytes of `n`, most significant first. -/
def beBytes : Nat → Nat → Bytes
  | 0, _ => []
  | width + 1, n => beBytes width (n / 256) ++ [UInt8.ofNat (n % 256)]

section Sum

variable {α : Type*} {bits a b n : Nat} {read : α → Option Nat} {f : α → Nat}

/-- A sum that fits. -/
theorem add_of_lt (checks : Bool) (h : a + b < 2 ^ bits) : add bits checks a b = some (a + b) :=
  if_pos h

/-- Without overflow checks a sum is taken modulo the word size. -/
theorem add_wrapping (bits a b : Nat) : add bits false a b = some ((a + b) % 2 ^ bits) := by
  by_cases h : a + b < 2 ^ bits
  · rw [add_of_lt false h, Nat.mod_eq_of_lt h]
  · rw [add, if_neg h, if_neg Bool.false_ne_true]

private theorem add_checked_of_le (h : 2 ^ bits ≤ a + b) : add bits true a b = none := by
  rw [add, if_neg (Nat.not_lt.mpr h), if_pos rfl]

/-- With checks a sum is what it should be, or there is none. -/
theorem add_checked_eq_some_iff : add bits true a b = some n ↔ a + b = n ∧ a + b < 2 ^ bits := by
  by_cases h : a + b < 2 ^ bits
  · rw [add_of_lt true h, Option.some.injEq, and_iff_left h]
  · rw [add_checked_of_le (Nat.le_of_not_lt h)]
    exact iff_of_false (fun hn => by cases hn) fun hn => h hn.2

/-- Only the exact sum counts. -/
theorem add_eq_zero_add (bits : Nat) (checks : Bool) (a b : Nat) :
    add bits checks a b = add bits checks 0 (a + b) := by
  rw [add, add, Nat.zero_add]

/-- Two additions in a row are one of the exact sum. -/
theorem add_bind_add (bits : Nat) (checks : Bool) (a b c : Nat) :
    ((add bits checks a b).bind fun n => add bits checks n c) = add bits checks a (b + c) := by
  cases checks with
  | false =>
    rw [add_wrapping, Option.bind_some, add_wrapping, add_wrapping, Nat.mod_add_mod, Nat.add_assoc]
  | true =>
    by_cases h : a + b < 2 ^ bits
    · rw [add_of_lt true h, Option.bind_some, add, add, Nat.add_assoc]
    · rw [add_checked_of_le (Nat.le_of_not_lt h), add_checked_of_le (by omega)]
      rfl

/-- Adding a reading that was itself summed up from zero. -/
theorem add_bind_zero (bits : Nat) (checks : Bool) (a b : Nat) :
    (add bits checks 0 b).bind (add bits checks a) = add bits checks a b := by
  cases checks with
  | false =>
    rw [add_wrapping, Option.bind_some, add_wrapping, add_wrapping, Nat.zero_add, Nat.add_mod_mod]
  | true =>
    by_cases h : 0 + b < 2 ^ bits
    · rw [add_of_lt true h, Option.bind_some, Nat.zero_add]
    · rw [add_checked_of_le (Nat.le_of_not_lt h), add_checked_of_le (by omega)]
      rfl

/-- Readings that are exact up to one overflow add up to a sum that is. -/
theorem sum_eq_add (checks : Bool) (hread : ∀ x, read x = add bits checks 0 (f x))
    (ha : a < 2 ^ bits) (xs : List α) :
    sum bits checks read a xs = add bits checks a (xs.map f).sum := by
  induction xs generalizing a with
  | nil => exact (add_of_lt (b := 0) checks ha).symm
  | cons x xs ih =>
    have hstep : (add bits checks a (f x)).bind (fun n => sum bits checks read n xs) =
        (add bits checks a (f x)).bind fun n => add bits checks n (xs.map f).sum := by
      refine Option.bind_congr fun n hn => ih ?_
      rw [add] at hn
      split_ifs at hn with h
      · exact Option.some.inj hn ▸ h
      · exact Option.some.inj hn ▸ Nat.mod_lt _ (Nat.two_pow_pos bits)
    rw [sum, List.foldlM_cons, hread, add_bind_zero, List.map_cons, List.sum_cons, ← add_bind_add]
    exact hstep

end Sum

section Product

variable {bits a b n : Nat} {factors : List Nat}

private theorem mul_of_lt (checks : Bool) (h : a * b < 2 ^ bits) :
    mul bits checks a b = some (a * b) :=
  if_pos h

private theorem mul_checked_eq_some_iff :
    mul bits true a b = some n ↔ a * b = n ∧ n < 2 ^ bits := by
  by_cases h : a * b < 2 ^ bits
  · rw [mul_of_lt true h, Option.some.injEq, iff_self_and]
    exact fun hn => hn ▸ h
  · rw [mul, if_neg h, if_pos rfl]
    exact iff_of_false nofun fun ⟨hn, hlt⟩ => h (hn ▸ hlt)

private theorem mul_wrapping (bits a b : Nat) : mul bits false a b = some (a * b % 2 ^ bits) := by
  by_cases h : a * b < 2 ^ bits
  · rw [mul_of_lt false h, Nat.mod_eq_of_lt h]
  · rw [mul, if_neg h, if_neg Bool.false_ne_true]

/-- If the whole product fits, so do those on the way to it. -/
theorem product_of_lt (checks : Bool) (hpos : ∀ k ∈ factors, 0 < k)
    (h : a * factors.prod < 2 ^ bits) :
    product bits checks a factors = some (a * factors.prod) := by
  induction factors generalizing a with
  | nil => rw [List.prod_nil, Nat.mul_one]; rfl
  | cons k factors ih =>
    obtain ⟨-, hrest⟩ := List.forall_mem_cons.mp hpos
    rw [List.prod_cons, ← Nat.mul_assoc] at h ⊢
    have hprod : 0 < factors.prod := List.prod_pos hrest
    have hstep : a * k < 2 ^ bits := (Nat.le_mul_of_pos_right _ hprod).trans_lt h
    rw [product, List.foldlM_cons, mul_of_lt checks hstep]
    exact ih hrest h

/-- With overflow checks a product goes through only if it fits. -/
theorem product_checked_eq_some_iff (ha : a < 2 ^ bits) (hpos : ∀ k ∈ factors, 0 < k) :
    product bits true a factors = some n ↔ a * factors.prod = n ∧ n < 2 ^ bits := by
  constructor
  · intro h
    induction factors generalizing a with
    | nil =>
      obtain rfl := Option.some.inj h
      exact ⟨by rw [List.prod_nil, Nat.mul_one], ha⟩
    | cons k factors ih =>
      rw [product, List.foldlM_cons] at h
      obtain ⟨b, hb, hrest⟩ := Option.bind_eq_some_iff.mp h
      obtain ⟨rfl, hlt⟩ := mul_checked_eq_some_iff.mp hb
      rw [List.prod_cons, ← Nat.mul_assoc]
      exact ih hlt (List.forall_mem_cons.mp hpos).2 hrest
  · rintro ⟨rfl, hlt⟩
    exact product_of_lt true hpos hlt

/-- Without them it is taken modulo the word size. -/
theorem product_wrapping (ha : a < 2 ^ bits) (factors : List Nat) :
    product bits false a factors = some (a * factors.prod % 2 ^ bits) := by
  induction factors generalizing a with
  | nil => rw [List.prod_nil, Nat.mul_one, Nat.mod_eq_of_lt ha]; rfl
  | cons k factors ih =>
    have hmod : a * k % 2 ^ bits < 2 ^ bits := Nat.mod_lt _ (Nat.two_pow_pos bits)
    rw [product, List.foldlM_cons, mul_wrapping]
    exact (ih hmod).trans (by rw [Nat.mod_mul_mod, List.prod_cons, Nat.mul_assoc])

end Product

private theorem beNat_append_singleton (bs : Bytes) (b : UInt8) :
    beNat (bs ++ [b]) = beNat bs * 256 + b.toNat := by
  simp only [beNat, List.foldl_append, List.foldl_cons, List.foldl_nil]

/-- So many bytes are written. -/
@[simp] theorem length_beBytes (width n : Nat) : (beBytes width n).length = width := by
  induction width generalizing n with
  | zero => rfl
  | succ width ih => simp only [beBytes, List.length_append, List.length_singleton, ih]

/-- Reading back the low bytes of `n` recovers `n` modulo the width. -/
theorem beNat_beBytes (width n : Nat) : beNat (beBytes width n) = n % 256 ^ width := by
  induction width generalizing n with
  | zero => simp [beBytes, beNat, Nat.mod_one]
  | succ width ih =>
    have hb : (UInt8.ofNat (n % 256)).toNat = n % 256 := by
      rw [UInt8.toNat_ofNat']
      exact Nat.mod_eq_of_lt (Nat.mod_lt _ (by decide))
    rw [beBytes, beNat_append_singleton, ih, hb, pow_succ', Nat.mod_mul]
    ring

/-- The low byte added in a round always fits in the bits the shift has cleared. -/
theorem pushByte_eq {bits : Nat} (h : 8 < bits) (n : Nat) (b : UInt8) :
    pushByte bits n b = some ((n * 256 + b.toNat) % 2 ^ bits) := by
  obtain ⟨k, rfl⟩ : ∃ k, bits = 8 + k := ⟨bits - 8, by omega⟩
  have hp : 2 ^ (8 + k) = 256 * 2 ^ k := by rw [pow_add]; norm_num
  have hb : b.toNat < 256 := b.toNat_lt
  have hm : n * 2 ^ 8 % 2 ^ (8 + k) = 256 * (n % 2 ^ k) := by
    rw [hp, show n * 2 ^ 8 = 256 * n by ring, Nat.mul_mod_mul_left]
  have hlt : n % 2 ^ k < 2 ^ k := Nat.mod_lt _ (Nat.two_pow_pos k)
  have hsum : 256 * (n % 2 ^ k) + b.toNat < 2 ^ (8 + k) := by rw [hp]; omega
  have hmod : (n * 256 + b.toNat) % 2 ^ (8 + k) = 256 * (n % 2 ^ k) + b.toNat := by
    rw [← Nat.mod_eq_of_lt hsum, ← hm, Nat.mod_add_mod, show n * 2 ^ 8 = n * 256 by ring]
  simp only [pushByte, checkedShl, checkedAdd, if_pos h, Option.bind_some, hm, if_pos hsum, hmod]

private theorem foldlM_pushByte {bits : Nat} (h : 8 < bits) (bs : Bytes) (n : Nat) :
    bs.foldlM (pushByte bits) (n % 2 ^ bits) =
      some (bs.foldl (fun n b => n * 256 + b.toNat) n % 2 ^ bits) := by
  induction bs generalizing n with
  | nil => rfl
  | cons b bs ih =>
    have hb : (n % 2 ^ bits * 256 + b.toNat) % 2 ^ bits = (n * 256 + b.toNat) % 2 ^ bits := by
      rw [Nat.add_mod, Nat.mod_mul_mod, ← Nat.add_mod]
    rw [List.foldlM_cons, pushByte_eq h, hb]
    exact ih (n * 256 + b.toNat)

/-- The loop reads the big-endian integer modulo the word size. -/
theorem readBe_eq {bits : Nat} (h : 8 < bits) (bs : Bytes) :
    readBe bits bs = some (beNat bs % 2 ^ bits) := by
  have hz := foldlM_pushByte h bs 0
  rwa [Nat.zero_mod] at hz

end Word

end NdnFwd
