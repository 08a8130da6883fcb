import Abacus.Natural.Arithmetic

/-!
# Quotient, remainder and greatest common divisor

Restoring division brings down one bit of the dividend at a time, from the top, and takes the
divisor away from the remainder whenever it fits. Euclid's algorithm repeats it on remainders.
-/

namespace Abacus.Natural
open Blocks

/-- The blocks with the lowest bit of the number set. -/
def setLowBit : List Nat → List Nat
  | [] => []
  | block :: blocks => (block ||| 1) :: blocks

theorem inRange_setLowBit {blocks : List Nat} (inRange : InRange blocks) :
    InRange (setLowBit blocks) := by
  cases blocks with
  | nil => exact inRange
  | cons block blocks =>
    obtain ⟨fits, restRange⟩ := inRange_cons.mp inRange
    have whole : base = Nat.pow 2 32 := rfl
    rw [whole, Nat.pow_eq] at fits
    refine inRange_cons.mpr ⟨?_, restRange⟩
    rw [whole, Nat.pow_eq]
    exact Nat.or_lt_two_pow fits (by decide)

/-- In an even number the lowest bit is free. -/
theorem value_setLowBit {blocks : List Nat} (some : blocks ≠ []) (even : value blocks % 2 = 0) :
    value (setLowBit blocks) = value blocks + 1 := by
  cases blocks with
  | nil => exact absurd rfl some
  | cons block blocks =>
    have half : base = 2 * 0x80000000 := rfl
    rw [value, half, Nat.mul_assoc, Nat.add_mul_mod_self_left] at even
    have free : block = Nat.pow 2 1 * (block / 2) := by
      rw [Nat.pow_eq]
      omega
    have set := Nat.two_pow_add_eq_or_of_lt (i := 1) (b := 1) (by decide) (block / 2)
    rw [← Nat.pow_eq, ← free] at set
    simp only [setLowBit, value, ← set]
    omega

/-- The remainder with one more bit at its low end. Doubling has made room for it. -/
def bringDown (remainder : Natural) (bit : Bool) : Natural :=
  if bit then
    trimmed (setLowBit remainder.double.blocks) (inRange_setLowBit remainder.double.canonical.inRange)
  else remainder.double

/-- Brings down the bit of `block` at `offset`, given a block of the quotient and the remainder. The
divisor is taken away from the remainder if it fits, which sets the same bit of the quotient. -/
def divideBit (divisor : Natural) (block offset : Nat) (state : Nat × Natural) : Nat × Natural :=
  let longer := state.2.bringDown (block.testBit offset)
  if divisor.greaterThan longer then (state.1, longer)
  else (state.1 ||| 1 <<< offset, (longer.monus divisor).1)

/-- Brings down the `count` low bits of `block`, the most significant first. -/
def divideBits (divisor : Natural) (block : Nat) : (count : Nat) → Nat × Natural → Nat × Natural
  | 0, state => state
  | count + 1, state => divideBits divisor block count (divideBit divisor block count state)

/-- The blocks of the quotient, and the remainder, of the number in `blocks`. -/
def divideBlocks (divisor : Natural) : List Nat → List Nat × Natural
  | [] => ([], zero)
  | block :: blocks =>
    let upper := divideBlocks divisor blocks
    let lower := divideBits divisor block 32 (0, upper.2)
    (lower.1 :: upper.1, lower.2)

/-- A division under way. It has `taken` the top blocks of the dividend, but for the `offset` low bits of
the last of them, which has made the `quotient` and the `remainder` what they are. -/
inductive Dividing (divisor : Natural) :
    (taken : List Nat) → (offset : Nat) → (quotient : List Nat) → (remainder : Natural) → Prop
  | start : Dividing divisor [] 0 [] zero
  | block {taken quotient : List Nat} {remainder : Natural} (block : Nat)
      (before : Dividing divisor taken 0 quotient remainder) :
      Dividing divisor (block :: taken) 32 (0 :: quotient) remainder
  | bit {block offset low : Nat} {taken quotient : List Nat} {remainder : Natural}
      (before : Dividing divisor (block :: taken) (offset + 1) (low :: quotient) remainder) :
      Dividing divisor (block :: taken) offset
        ((divideBit divisor block offset (low, remainder)).1 :: quotient)
        (divideBit divisor block offset (low, remainder)).2

theorem toNat_bringDown (remainder : Natural) (bit : Bool) :
    (remainder.bringDown bit).toNat = 2 * remainder.toNat + bit.toNat := by
  have doubled := toNat_double remainder
  cases bit
  · exact doubled
  · have even : value remainder.double.blocks % 2 = 0 := by
      rw [show value remainder.double.blocks = _ from doubled]
      omega
    rw [bringDown, if_pos rfl, toNat_trimmed,
      value_setLowBit remainder.double.canonical.nonempty even, ← doubled]
    rfl

/-- A bit that was brought down is settled one way or the other: the divisor did not fit, or it was taken
away. -/
theorem divideBit_cases (divisor : Natural) (block offset low : Nat) (remainder : Natural) :
    let next := divideBit divisor block offset (low, remainder)
    let longer := 2 * remainder.toNat + (block.testBit offset).toNat
    next.1 = low ∧ next.2.toNat = longer ∧ longer < divisor.toNat ∨
      next.1 = low ||| Nat.pow 2 offset ∧ next.2.toNat + divisor.toNat = longer := by
  have longer := toNat_bringDown remainder (block.testBit offset)
  by_cases greater : divisor.greaterThan (remainder.bringDown (block.testBit offset)) = true
  · have fits := greaterThan_iff.mp greater
    rw [longer] at fits
    simp only [divideBit, greater, if_true]
    exact .inl ⟨trivial, longer, fits⟩
  · have fits := mt greaterThan_iff.mpr greater
    rw [longer] at fits
    simp only [divideBit, greater, Bool.false_eq_true, if_false, toNat_monus, longer,
      Nat.one_shiftLeft, Nat.pow_eq]
    exact .inr ⟨trivial, by omega⟩

/-- The low `offset` bits of the quotient, which are still to be settled, are clear, and every block of it
fits in its 32 bits. -/
structure Unsettled (offset : Nat) (quotient : List Nat) : Prop where
  offset_le : offset ≤ 32
  clear : quotient.headD 0 % Nat.pow 2 offset = 0
  inRange : InRange quotient

/-- Below bits that are clear, a bit is set by adding it. -/
theorem or_bit_of_clear {low offset : Nat} (clear : low % Nat.pow 2 (offset + 1) = 0) :
    low ||| Nat.pow 2 offset = low + Nat.pow 2 offset := by
  simp only [Nat.pow_eq] at clear ⊢
  have bits : 2 ^ (offset + 1) * (low / 2 ^ (offset + 1)) = low := by
    have split := Nat.div_add_mod low (2 ^ (offset + 1))
    omega
  have room : 2 ^ offset < 2 ^ (offset + 1) := Nat.pow_lt_pow_succ (by decide)
  have set := Nat.two_pow_add_eq_or_of_lt room (low / 2 ^ (offset + 1))
  rw [bits] at set
  exact set.symm

/-- Settling the bit at `offset` leaves the bits below it clear. -/
theorem Unsettled.divideBit {offset low : Nat} {quotient : List Nat}
    (unsettled : Unsettled (offset + 1) (low :: quotient)) (divisor : Natural) (block : Nat)
    (remainder : Natural) :
    Unsettled offset ((divideBit divisor block offset (low, remainder)).1 :: quotient) := by
  obtain ⟨inside, clear, inRange⟩ := unsettled
  obtain ⟨fits, restRange⟩ := inRange_cons.mp inRange
  rw [List.headD_cons] at clear
  have below : low % 2 ^ offset = 0 := by
    have split : low % 2 ^ (offset + 1) = _ := Nat.mod_pow_succ
    rw [← Nat.pow_eq, clear] at split
    omega
  rcases divideBit_cases divisor block offset low remainder with ⟨kept, -⟩ | ⟨set, -⟩
  · rw [kept]
    exact ⟨by omega, below, inRange⟩
  · rw [set]
    refine ⟨by omega, ?_, inRange_cons.mpr ⟨?_, restRange⟩⟩
    · rw [or_bit_of_clear clear]
      simpa [Nat.pow_eq] using below
    · refine Nat.or_lt_two_pow (n := 32) fits ?_
      rw [Nat.pow_eq]
      exact Nat.pow_lt_pow_right (by decide) (by omega)

namespace Dividing
variable {divisor remainder : Natural} {offset : Nat} {taken quotient : List Nat}

theorem unsettled (dividing : Dividing divisor taken offset quotient remainder) :
    Unsettled offset quotient := by
  induction dividing with
  | start => exact ⟨by decide, rfl, nofun⟩
  | block block before ih => exact ⟨by decide, rfl, inRange_cons.mpr ⟨base_pos, ih.inRange⟩⟩
  | bit before ih => exact ih.divideBit divisor _ _

/-- The remainder stays below the divisor. -/
theorem remainder_lt (dividing : Dividing divisor taken offset quotient remainder)
    (positive : 0 < divisor.toNat) : remainder.toNat < divisor.toNat := by
  induction dividing with
  | start => rwa [toNat_zero]
  | block block before ih => exact ih
  | @bit block offset low taken quotient remainder before ih =>
    have bit := (block.testBit offset).toNat_le
    rcases divideBit_cases divisor block offset low remainder with ⟨-, longer, fits⟩ | ⟨-, less⟩
    · rwa [longer]
    · omega

/-- What has been taken of the dividend is the quotient times the divisor, the remainder, and the bits of
the last block that are still to be brought down. -/
theorem balance (dividing : Dividing divisor taken offset quotient remainder) (inRange : InRange taken) :
    value quotient * divisor.toNat + remainder.toNat * Nat.pow 2 offset +
      taken.headD 0 % Nat.pow 2 offset = value taken := by
  induction dividing with
  | start => simp [value]
  | @block taken quotient remainder block before ih =>
    obtain ⟨fits, restRange⟩ := inRange_cons.mp inRange
    have above := congrArg (base * ·) (ih restRange)
    simp only [Nat.pow_eq, Nat.pow_zero, Nat.mul_one, Nat.mod_one, Nat.add_zero, Nat.mul_add] at above
    have whole : block % Nat.pow 2 32 = block := Nat.mod_eq_of_lt fits
    simp only [value, List.headD_cons, whole, Nat.zero_add, ← above]
    rw [show Nat.pow 2 32 = base from rfl, Nat.mul_comm remainder.toNat, Nat.mul_assoc]
    omega
  | @bit block offset low taken quotient remainder before ih =>
    have split : block % 2 ^ (offset + 1) = _ := Nat.mod_pow_succ
    rw [← Nat.toNat_testBit] at split
    have balance := ih inRange
    have clear := before.unsettled.clear
    rw [List.headD_cons] at clear
    simp only [value, List.headD_cons, Nat.pow_eq] at balance ⊢
    rw [split, Nat.pow_succ] at balance
    rw [← balance]
    rcases divideBit_cases divisor block offset low remainder with ⟨kept, longer, -⟩ | ⟨set, less⟩
    · rw [kept, longer]
      grind
    · rw [set, or_bit_of_clear clear, Nat.pow_eq]
      have whole := congrArg (· * 2 ^ offset) less
      grind

end Dividing

/-- All bits of a block are brought down one after the other. -/
theorem dividing_divideBits {divisor remainder : Natural} {block count low : Nat}
    {taken quotient : List Nat}
    (before : Dividing divisor (block :: taken) count (low :: quotient) remainder) :
    let last := divideBits divisor block count (low, remainder)
    Dividing divisor (block :: taken) 0 (last.1 :: quotient) last.2 := by
  induction count generalizing low remainder with
  | zero => exact before
  | succ count ih => exact ih before.bit

theorem dividing_divideBlocks (divisor : Natural) (blocks : List Nat) :
    Dividing divisor blocks 0 (divideBlocks divisor blocks).1 (divideBlocks divisor blocks).2 := by
  induction blocks with
  | nil => exact .start
  | cons block blocks ih => exact dividing_divideBits (ih.block block)

/-- Quotient and remainder; for the divisor zero they mean nothing. -/
def divMod (a divisor : Natural) : Natural × Natural :=
  let result := divideBlocks divisor a.blocks
  (trimmed result.1 (dividing_divideBlocks divisor a.blocks).unsettled.inRange, result.2)

/-- Quotient and remainder; the divisor must not be zero. -/
def divide (a divisor : Natural) : Except Error (Natural × Natural) :=
  if divisor.isZero then .error .divisionByZero else .ok (a.divMod divisor)

/-- The dividend is the quotient times the divisor, and the remainder. -/
theorem divMod_balance (a divisor : Natural) :
    (a.divMod divisor).1.toNat * divisor.toNat + (a.divMod divisor).2.toNat = a.toNat := by
  have balance := (dividing_divideBlocks divisor a.blocks).balance a.canonical.inRange
  rw [Nat.pow_eq, Nat.pow_zero, Nat.mul_one, Nat.mod_one, Nat.add_zero] at balance
  rw [divMod, toNat_trimmed]
  exact balance

theorem divMod_remainder_lt (a : Natural) {divisor : Natural} (positive : 0 < divisor.toNat) :
    (a.divMod divisor).2.toNat < divisor.toNat :=
  (dividing_divideBlocks divisor a.blocks).remainder_lt positive

/-- The quotient of the representations is that of the numbers. -/
theorem toNat_divMod_fst (a : Natural) {divisor : Natural} (positive : 0 < divisor.toNat) :
    (a.divMod divisor).1.toNat = a.toNat / divisor.toNat := by
  have less := a.divMod_remainder_lt positive
  refine (Nat.div_eq_of_lt_le ?_ ?_).symm
  · rw [← a.divMod_balance divisor]
    exact Nat.le_add_right _ _
  · rw [← a.divMod_balance divisor, Nat.succ_mul]
    exact Nat.add_lt_add_left less _

/-- The remainder of the representations is that of the numbers. -/
theorem toNat_divMod_snd (a : Natural) {divisor : Natural} (positive : 0 < divisor.toNat) :
    (a.divMod divisor).2.toNat = a.toNat % divisor.toNat := by
  have less := a.divMod_remainder_lt positive
  rw [← a.divMod_balance divisor, Nat.mul_add_mod_self_right]
  exact (Nat.mod_eq_of_lt less).symm

/-- The greatest common divisor, by Euclid's algorithm. -/
def gcd (a b : Natural) : Natural :=
  if b.isZero then a else gcd b (a.divMod b).2
termination_by b.toNat
decreasing_by
  rename_i nonzero
  have positive : 0 < b.toNat := by
    rw [isZero_iff] at nonzero
    omega
  rw [toNat_divMod_snd a positive]
  exact Nat.mod_lt _ positive

@[simp] theorem toNat_gcd (a b : Natural) : (gcd a b).toNat = Nat.gcd a.toNat b.toNat := by
  fun_induction gcd a b with
  | case1 a b none => rw [isZero_iff.mp none, Nat.gcd_zero_right]
  | case2 a b nonzero ih =>
    have positive : 0 < b.toNat := by
      rw [isZero_iff] at nonzero
      omega
    rw [ih, toNat_divMod_snd a positive, Nat.gcd_comm a.toNat, Nat.gcd_rec b.toNat a.toNat,
      Nat.gcd_comm]

end Abacus.Natural
