import Mathlib.Tactic

namespace Rsrt

/-!
# Protocol integers with wrap-aware arithmetic

The 31-bit packet sequence number, the 26-bit message number, the socket
identifier and the 32-bit wire timestamp.  A sequence number carries the proof
that it fits in 31 bits, so a value outside the range cannot be built.

Unbounded positions are counted from a connection's initial sequence number:
`wire origin t` is the sequence number that position `t` has on the wire.  The
arithmetic of the source is exact on positions less than `2^30` apart, and this
is the only fact about wrapping that the rest of the development uses.
-/

abbrev Bytes := List UInt8

/-- 31-bit packet sequence number, arithmetic mod `2^31`. -/
structure SeqNumber where
  value : Nat
  value_lt : value < 2 ^ 31
deriving DecidableEq

namespace SeqNumber

def mask : Nat := 0x7FFFFFFF

/-- Wraps a 32-bit value into the 31-bit range (`value & MASK`). -/
def new (value : Nat) : SeqNumber :=
  ⟨value % 2 ^ 31, Nat.mod_lt _ (by decide)⟩

instance : Inhabited SeqNumber := ⟨new 0⟩

/-- `self + n` mod `2^31`: a wrapping 32-bit addition of `n as u32`, masked. -/
def add (self : SeqNumber) (n : Int) : SeqNumber :=
  new ((self.value + (n % 2 ^ 32).toNat) % 2 ^ 32)

def next (self : SeqNumber) : SeqNumber := self.add 1

def prev (self : SeqNumber) : SeqNumber := self.add (-1)

/-- Shortest signed distance `self - other` in mod-`2^31` space, in
`-2^30 ..= 2^30 - 1`: a wrapping 32-bit subtraction, masked. -/
def diff (self other : SeqNumber) : Int :=
  let d := ((self.value : Int) - other.value) % 2 ^ 32 % 2 ^ 31
  if ((mask / 2 : Nat) : Int) < d then d - 2 ^ 31 else d

/-- The distance is the plain difference up to a multiple of `2^31`, and the
only such number in the half-open window around zero. -/
theorem diff_spec (self other : SeqNumber) :
    (Exists fun turns : Int =>
      self.diff other = (self.value : Int) - other.value + 2 ^ 31 * turns) ∧
      -2 ^ 30 ≤ self.diff other ∧ self.diff other < 2 ^ 30 := by
  have left := self.value_lt
  have right := other.value_lt
  unfold diff
  by_cases far : ((mask / 2 : Nat) : Int) < ((self.value : Int) - other.value) % 2 ^ 32 % 2 ^ 31
  · simp only [if_pos far]
    simp only [mask] at far
    refine ⟨⟨(((self.value : Int) - other.value) % 2 ^ 32 % 2 ^ 31 - 2 ^ 31 -
      ((self.value : Int) - other.value)) / 2 ^ 31, ?_⟩, ?_, ?_⟩ <;> omega
  · simp only [if_neg far]
    simp only [mask] at far
    refine ⟨⟨(((self.value : Int) - other.value) % 2 ^ 32 % 2 ^ 31 -
      ((self.value : Int) - other.value)) / 2 ^ 31, ?_⟩, ?_, ?_⟩ <;> omega

@[simp] theorem diff_self (self : SeqNumber) : self.diff self = 0 := by
  rcases diff_spec self self with ⟨⟨turns, equal⟩, above, below⟩
  omega

theorem eq_of_diff_eq_zero {self other : SeqNumber} (zero : self.diff other = 0) :
    self = other := by
  have left := self.value_lt
  have right := other.value_lt
  rcases diff_spec self other with ⟨⟨turns, equal⟩, _, _⟩
  cases self
  cases other
  simp only [SeqNumber.mk.injEq] at *
  omega

/-! ## Positions on the wire -/

/-- The sequence number of the position `t` steps after `origin`. -/
def wire (origin : SeqNumber) (t : Int) : SeqNumber :=
  ⟨((origin.value + t) % 2 ^ 31).toNat, by omega⟩

@[simp] theorem wire_zero (origin : SeqNumber) : wire origin 0 = origin := by
  have bound := origin.value_lt
  cases origin
  simp only [wire, SeqNumber.mk.injEq] at *
  omega

@[simp] theorem add_wire (origin : SeqNumber) (t n : Int) :
    (wire origin t).add n = wire origin (t + n) := by
  simp only [wire, add, new, SeqNumber.mk.injEq]
  omega

@[simp] theorem next_wire (origin : SeqNumber) (t : Int) :
    (wire origin t).next = wire origin (t + 1) :=
  add_wire origin t 1

@[simp] theorem prev_wire (origin : SeqNumber) (t : Int) :
    (wire origin t).prev = wire origin (t - 1) :=
  add_wire origin t (-1)

theorem new_eq_wire (origin : SeqNumber) (index : Nat) :
    new ((origin.value + index) % 2 ^ 32) = wire origin index := by
  simp only [wire, new, SeqNumber.mk.injEq]
  omega

/-- Distances below `2^30` survive the wrap exactly. -/
theorem diff_wire (origin : SeqNumber) {left right : Int}
    (above : -2 ^ 30 ≤ left - right) (below : left - right < 2 ^ 30) :
    (wire origin left).diff (wire origin right) = left - right := by
  rcases diff_spec (wire origin left) (wire origin right) with ⟨⟨turns, equal⟩, low, high⟩
  simp only [wire] at equal low high ⊢
  omega

/-- Every sequence number is the wire image of its shortest unwrapping around
any position. -/
theorem wire_unwrap (origin : SeqNumber) (t : Int) (seq : SeqNumber) :
    wire origin (t + seq.diff (wire origin t)) = seq := by
  have bound := seq.value_lt
  rcases diff_spec seq (wire origin t) with ⟨⟨turns, equal⟩, low, high⟩
  rw [equal]
  cases seq
  simp only [wire, SeqNumber.mk.injEq] at *
  omega

theorem wire_inj (origin : SeqNumber) {left right : Int}
    (above : -2 ^ 30 ≤ left - right) (below : left - right < 2 ^ 30)
    (equal : wire origin left = wire origin right) : left = right := by
  have distance := diff_wire origin above below
  rw [equal, diff_self] at distance
  omega

/-- Only whole turns of the sequence space bring a sequence number back. -/
theorem wire_turns (origin : SeqNumber) {left right : Int}
    (equal : wire origin left = wire origin right) :
    Exists fun turns : Int => left = right + 2 ^ 31 * turns := by
  simp only [wire, SeqNumber.mk.injEq] at equal
  exact ⟨(left - right) / 2 ^ 31, by omega⟩

theorem wire_add_turn (origin : SeqNumber) (t : Int) : wire origin (t + 2 ^ 31) = wire origin t := by
  simp only [wire, SeqNumber.mk.injEq]
  omega

/- From here on the arithmetic is used through its lemmas only. -/
attribute [irreducible] add diff wire

end SeqNumber

/-- 26-bit message number, arithmetic mod `2^26`. -/
structure MsgNumber where
  value : Nat
  value_lt : value < 2 ^ 26
deriving DecidableEq

namespace MsgNumber

def new (value : Nat) : MsgNumber :=
  ⟨value % 2 ^ 26, Nat.mod_lt _ (by decide)⟩

def next (self : MsgNumber) : MsgNumber := new (self.value + 1)

end MsgNumber

/-- SRT socket identifier; zero is reserved for handshake-phase packets. -/
structure SocketId where
  value : UInt32
deriving DecidableEq

def SocketId.handshake : SocketId := ⟨0⟩

/-- 32-bit wire timestamp: microseconds since the sending socket was created. -/
structure Timestamp where
  micros : UInt32
deriving DecidableEq

end Rsrt
