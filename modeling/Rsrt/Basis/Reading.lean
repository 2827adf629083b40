import Mathlib.Tactic
import Mathlib.Data.Nat.Bitwise

namespace Rsrt
namespace Basis

/-!
# Readers of untrusted bytes

A reader of a buffer that somebody else filled ends in one of three ways: with a value, with
an error that it reports, or with an access outside of the buffer.  The accessors below make
the third way explicit, so that a proof that a reader never takes it is a proof about every
slice, index and conversion that the reader performs.  A loop is given a number of
iterations, and running out of them is an outcome of its own.

A reader is safe if it ends with a value or an error that it reports.  Safety is closed
under sequencing, and a loop is safe if every iteration is safe and lowers a number that the
iterations cover.
-/

/-- Why a reader stops without a value. -/
inductive Stop (Err : Type)
  /-- An access outside of a buffer, or a conversion to an array of another length. -/
  | fault
  /-- A loop that has not ended after the iterations that it was given. -/
  | hang
  | rejected (err : Err)
deriving DecidableEq

abbrev Reading (Err Val : Type) := Except (Stop Err) Val

namespace Reading

variable {Err Val Out Item State : Type}

/-- The reader ends with a value or with an error that it reports. -/
def Safe (reading : Reading Err Val) : Prop :=
  (Exists fun val => reading = .ok val) ∨ Exists fun err => reading = .error (.rejected err)

theorem Safe.ok (val : Val) : Safe (Except.ok val : Reading Err Val) :=
  Or.inl ⟨val, rfl⟩

theorem Safe.rejected (err : Err) : Safe (Except.error (.rejected err) : Reading Err Val) :=
  Or.inr ⟨err, rfl⟩

@[simp]
theorem ok_bind (val : Val) (next : Val -> Reading Err Out) :
    ((Except.ok val : Reading Err Val) >>= next) = next val :=
  rfl

@[simp]
theorem pure_bind (val : Val) (next : Val -> Reading Err Out) :
    ((pure val : Reading Err Val) >>= next) = next val :=
  rfl

/-- A sequence of readers that ends with a value has got one from each of them. -/
theorem of_bind {reading : Reading Err Val} {next : Val -> Reading Err Out} {out : Out}
    (ended : reading >>= next = .ok out) :
    Exists fun val => reading = .ok val ∧ next val = .ok out := by
  cases reading with
  | ok val => exact ⟨val, rfl, ended⟩
  | error stop => cases ended

/-- A computation that accesses nothing. -/
def report : Except Err Val -> Reading Err Val
  | .ok val => .ok val
  | .error err => .error (.rejected err)

theorem report_safe (outcome : Except Err Val) : (report outcome).Safe := by
  cases outcome with
  | ok val => exact .ok val
  | error err => exact .rejected err

/-- A check that both versions of a reader make. -/
theorem report_if {cond : Prop} [Decidable cond] {yes no : Reading Err Val}
    {yes' no' : Except Err Val} (holds : cond -> yes = report yes')
    (fails : ¬cond -> no = report no') :
    (if cond then yes else no) = report (if cond then yes' else no') := by
  by_cases test : cond
  · rw [if_pos test, if_pos test]
    exact holds test
  · rw [if_neg test, if_neg test]
    exact fails test

/-! ## Accessors -/

/-- The elements from `start` up to `stop`. -/
def slice (buf : List Val) (start stop : Nat) : Reading Err (List Val) :=
  if start ≤ stop ∧ stop ≤ buf.length then .ok ((buf.drop start).take (stop - start))
  else .error .fault

/-- The elements from `start` on. -/
def sliceFrom (buf : List Val) (start : Nat) : Reading Err (List Val) :=
  if start ≤ buf.length then .ok (buf.drop start) else .error .fault

def index (buf : List Val) (i : Nat) : Reading Err Val :=
  match buf[i]? with
  | some val => .ok val
  | none => .error .fault

/-- A conversion to an array of `length` elements, or a copy into one. -/
def fixed (length : Nat) (buf : List Val) : Reading Err (List Val) :=
  if buf.length = length then .ok buf else .error .fault

theorem slice_ok {buf : List Val} {start stop : Nat} (ordered : start ≤ stop)
    (inside : stop ≤ buf.length) :
    (slice buf start stop : Reading Err (List Val)) = .ok ((buf.drop start).take (stop - start)) :=
  if_pos ⟨ordered, inside⟩

theorem sliceFrom_ok {buf : List Val} {start : Nat} (inside : start ≤ buf.length) :
    (sliceFrom buf start : Reading Err (List Val)) = .ok (buf.drop start) :=
  if_pos inside

theorem index_ok {buf : List Val} {i : Nat} (inside : i < buf.length) :
    (index buf i : Reading Err Val) = .ok buf[i] := by
  unfold index
  rw [List.getElem?_eq_getElem inside]

theorem fixed_ok {buf : List Val} {length : Nat} (size : buf.length = length) :
    (fixed length buf : Reading Err (List Val)) = .ok buf :=
  if_pos size

/-! ## Loops -/

/-- Collects the items that the iterations of a loop push. -/
def loop (step : State -> Reading Err (Option (Item × State))) : Nat -> State ->
    Reading Err (List Item)
  | 0, _ => .error .hang
  | fuel + 1, state => do
      match <- step state with
      | none => return []
      | some (item, after) => return item :: (<- loop step fuel after)

variable {step : State -> Reading Err (Option (Item × State))}

theorem loop_done {fuel : Nat} {state : State} (ended : step state = .ok none) :
    loop step (fuel + 1) state = .ok [] := by
  rw [loop, ended]
  rfl

theorem loop_next {fuel : Nat} {state after : State} {item : Item}
    (moved : step state = .ok (some (item, after))) :
    loop step (fuel + 1) state = (loop step fuel after).map (item :: ·) := by
  rw [loop, moved]
  change (do return item :: (<- loop step fuel after)) = _
  cases loop step fuel after with
  | error stop => rfl
  | ok items => rfl

/-- A loop succeeds after an iteration exactly if it succeeds from there on. -/
theorem loop_some_iff {fuel : Nat} {state after : State} {item : Item}
    (moved : step state = .ok (some (item, after))) (items : List Item) :
    loop step (fuel + 1) state = .ok items ↔
      Exists fun tail => items = item :: tail ∧ loop step fuel after = .ok tail := by
  rw [loop_next moved]
  constructor
  · intro ended
    cases rest : loop step fuel after with
    | error stop =>
        rw [rest] at ended
        cases ended
    | ok tail =>
        rw [rest] at ended
        cases ended
        exact ⟨tail, rfl, rfl⟩
  · rintro ⟨tail, rfl, rest⟩
    rw [rest]
    rfl

/-- A loop is safe if its iterations are, each one lowers a number, and there are more
iterations than the number says. -/
theorem loop_safe (measure : State -> Nat) (safe : forall state, (step state).Safe)
    (falls : forall state item after, step state = .ok (some (item, after)) ->
      measure after < measure state) {fuel : Nat} {state : State} (enough : measure state < fuel) :
    (loop step fuel state).Safe := by
  induction fuel generalizing state with
  | zero => exact absurd enough (Nat.not_lt_zero _)
  | succ fuel ih =>
      rcases safe state with ⟨outcome, found⟩ | ⟨err, found⟩
      · cases outcome with
        | none =>
            rw [loop_done found]
            exact .ok []
        | some pair =>
            rcases pair with ⟨item, after⟩
            have fewer := falls state item after found
            rw [loop_next found]
            rcases ih (by omega : measure after < fuel) with ⟨items, rest⟩ | ⟨err, rest⟩
            · rw [rest]
              exact .ok _
            · rw [rest]
              exact .rejected err
      · rw [loop, found]
        exact .rejected err

/-- What holds of every item that an iteration pushes holds of all items. -/
theorem loop_forall (Holds : Item -> Prop)
    (holds : forall state item after, step state = .ok (some (item, after)) -> Holds item)
    {fuel : Nat} {state : State} {items : List Item} (ended : loop step fuel state = .ok items)
    (item : Item) (member : item ∈ items) : Holds item := by
  induction fuel generalizing state items with
  | zero => cases ended
  | succ fuel ih =>
      rw [loop] at ended
      rcases of_bind ended with ⟨outcome, found, rest⟩
      cases outcome with
      | none =>
          cases rest
          cases member
      | some pair =>
          rcases of_bind rest with ⟨tail, later, whole⟩
          cases whole
          rcases List.mem_cons.mp member with rfl | inside
          · exact holds _ _ _ found
          · exact ih later inside

/-- Two numbers of iterations that are both enough give the same outcome. -/
theorem loop_stable (measure : State -> Nat)
    (falls : forall state item after, step state = .ok (some (item, after)) ->
      measure after < measure state) {fuel other : Nat} {state : State}
    (enough : measure state < fuel) (also : measure state < other) :
    loop step fuel state = loop step other state := by
  induction fuel generalizing other state with
  | zero => exact absurd enough (Nat.not_lt_zero _)
  | succ fuel ih =>
      cases other with
      | zero => exact absurd also (Nat.not_lt_zero _)
      | succ other =>
          cases found : step state with
          | error stop =>
              rw [loop, loop, found]
              rfl
          | ok outcome =>
              cases outcome with
              | none => rw [loop_done found, loop_done found]
              | some pair =>
                  rcases pair with ⟨item, after⟩
                  have fewer := falls state item after found
                  rw [loop_next found, loop_next found,
                    ih (by omega : measure after < fuel) (by omega : measure after < other)]

end Reading

/-! ## Big-endian words -/

/-- The low `width` bytes of a number, the most significant one first. -/
def bigEndian : Nat -> Nat -> List UInt8
  | 0, _ => []
  | width + 1, value => UInt8.ofNat (value / 256 ^ width) :: bigEndian width value

def ofBigEndian (bytes : List UInt8) : Nat :=
  bytes.foldl (fun acc byte => acc * 256 + byte.toNat) 0

@[simp]
theorem length_bigEndian (width value : Nat) : (bigEndian width value).length = width := by
  induction width with
  | zero => rfl
  | succ width ih => rw [bigEndian, List.length_cons, ih]

theorem foldl_bigEndian (width value acc : Nat) :
    (bigEndian width value).foldl (fun acc byte => acc * 256 + byte.toNat) acc =
      acc * 256 ^ width + value % 256 ^ width := by
  induction width generalizing acc with
  | zero =>
      rw [Nat.pow_zero, Nat.mod_one, Nat.mul_one]
      rfl
  | succ width ih =>
      have digit : value % 256 ^ (width + 1) =
          value % 256 ^ width + 256 ^ width * (value / 256 ^ width % 256) := Nat.mod_pow_succ
      rw [bigEndian, List.foldl_cons, ih, UInt8.toNat_ofNat', digit, Nat.pow_succ]
      ring

@[simp]
theorem ofBigEndian_bigEndian (width value : Nat) :
    ofBigEndian (bigEndian width value) = value % 256 ^ width := by
  unfold ofBigEndian
  rw [foldl_bigEndian, Nat.zero_mul, Nat.zero_add]

theorem ofBigEndian_lt (bytes : List UInt8) : ofBigEndian bytes < 256 ^ bytes.length := by
  have bound (acc : Nat) :
      bytes.foldl (fun acc byte => acc * 256 + byte.toNat) acc <
        (acc + 1) * 256 ^ bytes.length := by
    induction bytes generalizing acc with
    | nil =>
        change acc < (acc + 1) * 1
        omega
    | cons byte rest ih =>
        have small := byte.toNat_lt
        calc
          _ < (acc * 256 + byte.toNat + 1) * 256 ^ rest.length := ih _
          _ ≤ (acc + 1) * 256 * 256 ^ rest.length := Nat.mul_le_mul_right _ (by omega)
          _ = (acc + 1) * 256 ^ (byte :: rest).length := by
              rw [List.length_cons, Nat.pow_succ]
              ring
  calc
    _ < (0 + 1) * 256 ^ bytes.length := bound 0
    _ = 256 ^ bytes.length := by rw [Nat.zero_add, Nat.one_mul]

/-- The digits above the width are not written. -/
theorem bigEndian_add_mul (width high value : Nat) :
    bigEndian width (high * 256 ^ width + value) = bigEndian width value := by
  induction width generalizing high with
  | zero => rfl
  | succ width ih =>
      have positive : 0 < 256 ^ width := Nat.pow_pos (by decide)
      have digit : (high * 256 ^ (width + 1) + value) / 256 ^ width =
          256 * high + value / 256 ^ width := by
        rw [Nat.pow_succ, Nat.mul_comm (256 ^ width), ← Nat.mul_assoc, Nat.mul_comm _ (256 ^ width),
          Nat.mul_add_div positive, Nat.mul_comm high]
      have lower : high * 256 ^ (width + 1) + value = high * 256 * 256 ^ width + value := by
        rw [Nat.pow_succ, Nat.mul_assoc, Nat.mul_comm 256]
      rw [bigEndian, bigEndian, digit, lower, ih]
      congr 1
      apply UInt8.toNat_inj.mp
      rw [UInt8.toNat_ofNat', UInt8.toNat_ofNat', Nat.mul_add_mod]

theorem ofBigEndian_cons (byte : UInt8) (rest : List UInt8) :
    ofBigEndian (byte :: rest) = byte.toNat * 256 ^ rest.length + ofBigEndian rest := by
  have folded (bytes : List UInt8) (acc : Nat) :
      bytes.foldl (fun acc byte => acc * 256 + byte.toNat) acc =
        acc * 256 ^ bytes.length + ofBigEndian bytes := by
    induction bytes generalizing acc with
    | nil =>
        change acc = acc * 1 + 0
        omega
    | cons head tail ih =>
        unfold ofBigEndian
        rw [List.foldl_cons, List.foldl_cons, ih, ih (0 * 256 + head.toNat), List.length_cons,
          Nat.pow_succ]
        ring
  change rest.foldl _ (0 * 256 + byte.toNat) = _
  rw [folded, Nat.zero_mul, Nat.zero_add]

/-- Writing a word that was read gives its bytes back. -/
theorem bigEndian_ofBigEndian (bytes : List UInt8) :
    bigEndian bytes.length (ofBigEndian bytes) = bytes := by
  induction bytes with
  | nil => rfl
  | cons byte rest ih =>
      have below := ofBigEndian_lt rest
      have digit : (byte.toNat * 256 ^ rest.length + ofBigEndian rest) / 256 ^ rest.length =
          byte.toNat := by
        rw [Nat.mul_comm, Nat.mul_add_div (Nat.pow_pos (by decide)), Nat.div_eq_of_lt below,
          Nat.add_zero]
      rw [List.length_cons, bigEndian, ofBigEndian_cons, digit, bigEndian_add_mul, ih,
        UInt8.ofNat_toNat]

namespace Reading

variable {Err : Type}

/-- The big-endian word of `width` bytes at `off`. -/
def readWord (width : Nat) (buf : List UInt8) (off : Nat) : Reading Err Nat := do
  let word <- slice buf off (off + width)
  let word <- fixed width word
  return ofBigEndian word

theorem readWord_ok {width off : Nat} {buf : List UInt8} (inside : off + width ≤ buf.length) :
    (readWord width buf off : Reading Err Nat) =
      .ok (ofBigEndian ((buf.drop off).take width)) := by
  have size : ((buf.drop off).take (off + width - off)).length = width := by
    rw [List.length_take, List.length_drop]
    omega
  unfold readWord
  rw [slice_ok (by omega) inside]
  change (do
    let word <- fixed width ((buf.drop off).take (off + width - off))
    return ofBigEndian word) = _
  rw [fixed_ok size, Nat.add_sub_cancel_left]
  rfl

theorem readWord_inside {width off value : Nat} {buf : List UInt8}
    (read : (readWord width buf off : Reading Err Nat) = .ok value) :
    off + width ≤ buf.length ∧ value = ofBigEndian ((buf.drop off).take width) := by
  by_cases inside : off + width ≤ buf.length
  · rw [readWord_ok inside] at read
    cases read
    exact ⟨inside, rfl⟩
  · unfold readWord slice at read
    rw [if_neg (fun fits => inside fits.2)] at read
    cases read

theorem readWord_lt {width off value : Nat} {buf : List UInt8}
    (read : (readWord width buf off : Reading Err Nat) = .ok value) : value < 256 ^ width := by
  rcases readWord_inside read with ⟨inside, rfl⟩
  have bound := ofBigEndian_lt ((buf.drop off).take width)
  rw [List.length_take, List.length_drop, Nat.min_eq_left (by omega)] at bound
  exact bound

/-- What was put at the front is read back, cut to the width. -/
theorem readWord_bigEndian (width value : Nat) (rest : List UInt8) :
    (readWord width (bigEndian width value ++ rest) 0 : Reading Err Nat) =
      .ok (value % 256 ^ width) := by
  rw [readWord_ok (by rw [List.length_append, length_bigEndian]; omega), List.drop_zero,
    List.take_left' (length_bigEndian width value), ofBigEndian_bigEndian]

/-- Reading further on skips what is at the front. -/
theorem readWord_skip {width off : Nat} {skipped rest : List UInt8}
    (inside : skipped.length ≤ off) :
    (readWord width (skipped ++ rest) off : Reading Err Nat) =
      readWord width rest (off - skipped.length) := by
  have dropped : (skipped ++ rest).drop off = rest.drop (off - skipped.length) := by
    rw [List.drop_append, List.drop_eq_nil_of_le inside, List.nil_append]
  have fits : (off ≤ off + width ∧ off + width ≤ (skipped ++ rest).length) =
      (off - skipped.length ≤ off - skipped.length + width ∧
        off - skipped.length + width ≤ rest.length) := by
    rw [List.length_append, eq_iff_iff]
    omega
  unfold readWord slice
  rw [Nat.add_sub_cancel_left, Nat.add_sub_cancel_left, dropped]
  simp only [fits]

end Reading

end Basis
end Rsrt
