import Mathlib.Tactic

namespace Rsrt
namespace Basis
namespace Utf8

/-!
# Lossy decoding of UTF-8

A text is a byte string that consists of encoded characters.  The lossy decoder turns any
byte string into a text: encoded characters are kept, and each maximal start of a character
that is not continued as it should be, or byte that starts none, becomes one replacement
character.

The decoder is idempotent, because it keeps texts as they are, and it does not move the end of
a string: a result that ends in a zero byte comes from a string that ends in one.
-/

/-- The bytes that must follow a lead byte, as inclusive ranges; `none` if no character
starts with the byte. -/
def continuation (lead : UInt8) : Option (List (UInt8 × UInt8)) :=
  if lead < 0x80 then some []
  else if 0xC2 ≤ lead ∧ lead ≤ 0xDF then some [(0x80, 0xBF)]
  else if lead = 0xE0 then some [(0xA0, 0xBF), (0x80, 0xBF)]
  else if 0xE1 ≤ lead ∧ lead ≤ 0xEC then some [(0x80, 0xBF), (0x80, 0xBF)]
  else if lead = 0xED then some [(0x80, 0x9F), (0x80, 0xBF)]
  else if 0xEE ≤ lead ∧ lead ≤ 0xEF then some [(0x80, 0xBF), (0x80, 0xBF)]
  else if lead = 0xF0 then some [(0x90, 0xBF), (0x80, 0xBF), (0x80, 0xBF)]
  else if 0xF1 ≤ lead ∧ lead ≤ 0xF3 then some [(0x80, 0xBF), (0x80, 0xBF), (0x80, 0xBF)]
  else if lead = 0xF4 then some [(0x80, 0x8F), (0x80, 0xBF), (0x80, 0xBF)]
  else none

def InRange (range : UInt8 × UInt8) (byte : UInt8) : Prop :=
  range.1 ≤ byte ∧ byte ≤ range.2

instance (range : UInt8 × UInt8) (byte : UInt8) : Decidable (InRange range byte) :=
  inferInstanceAs (Decidable (_ ∧ _))

/-- The bytes that continue a character as they should, the bytes after them, and whether the
character is complete. -/
def accept : List (UInt8 × UInt8) -> List UInt8 -> List UInt8 × List UInt8 × Bool
  | [], bytes => ([], bytes, true)
  | _ :: _, [] => ([], [], false)
  | range :: ranges, byte :: bytes =>
      if InRange range byte then
        let (taken, rest, complete) := accept ranges bytes
        (byte :: taken, rest, complete)
      else ([], byte :: bytes, false)

/-- U+FFFD. -/
def replacement : List UInt8 := [0xEF, 0xBF, 0xBD]

/-- One character or replacement, and the bytes after it. -/
def decodeFirst (lead : UInt8) (bytes : List UInt8) : List UInt8 × List UInt8 :=
  match continuation lead with
  | none => (replacement, bytes)
  | some ranges =>
      let (taken, rest, complete) := accept ranges bytes
      (if complete then lead :: taken else replacement, rest)

/-- At most `fuel` characters of the decoded string. -/
def lossyWithin : Nat -> List UInt8 -> List UInt8
  | 0, _ => []
  | _ + 1, [] => []
  | fuel + 1, lead :: bytes =>
      (decodeFirst lead bytes).1 ++ lossyWithin fuel (decodeFirst lead bytes).2

def lossy (bytes : List UInt8) : List UInt8 :=
  lossyWithin bytes.length bytes

/-- Encoded characters, one after the other. -/
inductive Text : List UInt8 -> Prop
  | nil : Text []
  | cons {lead : UInt8} {ranges : List (UInt8 × UInt8)} {taken rest : List UInt8}
      (starts : continuation lead = some ranges) (continued : List.Forall₂ InRange ranges taken)
      (text : Text rest) : Text (lead :: (taken ++ rest))

/-! ## One character -/

/-- What the decoder takes is a start of the bytes, and a complete character is continued
as it should be. -/
theorem accept_spec (ranges : List (UInt8 × UInt8)) (bytes : List UInt8) :
    bytes = (accept ranges bytes).1 ++ (accept ranges bytes).2.1 ∧
      ((accept ranges bytes).2.2 = true -> List.Forall₂ InRange ranges (accept ranges bytes).1) := by
  induction ranges generalizing bytes with
  | nil => exact ⟨rfl, fun _ => .nil⟩
  | cons range ranges ih =>
      cases bytes with
      | nil =>
          refine ⟨rfl, ?_⟩
          intro complete
          cases complete
      | cons byte bytes =>
          rw [accept]
          split_ifs with inside
          · rcases ih bytes with ⟨whole, continued⟩
            exact ⟨congrArg (byte :: ·) whole, fun complete => .cons inside (continued complete)⟩
          · refine ⟨rfl, ?_⟩
            intro complete
            cases complete

theorem accept_complete {ranges : List (UInt8 × UInt8)} {taken : List UInt8}
    (continued : List.Forall₂ InRange ranges taken) (rest : List UInt8) :
    accept ranges (taken ++ rest) = (taken, rest, true) := by
  induction continued with
  | nil => rfl
  | cons inside _ ih => rw [List.cons_append, accept, if_pos inside, ih]

/-- A character that is cut off is one incomplete start. -/
theorem accept_truncated {ranges : List (UInt8 × UInt8)} {taken missing : List UInt8}
    (continued : List.Forall₂ InRange ranges (taken ++ missing)) (cut : missing ≠ []) :
    accept ranges taken = (taken, [], false) := by
  induction ranges generalizing taken with
  | nil =>
      cases taken with
      | nil => exact absurd (List.forall₂_nil_left_iff.mp continued) cut
      | cons byte taken => cases continued
  | cons range ranges ih =>
      cases taken with
      | nil => rfl
      | cons byte taken =>
          rcases List.forall₂_cons.mp continued with ⟨inside, others⟩
          rw [accept, if_pos inside, ih others]

theorem length_decodeFirst (lead : UInt8) (bytes : List UInt8) :
    (decodeFirst lead bytes).2.length ≤ bytes.length := by
  unfold decodeFirst
  cases continuation lead with
  | none => exact le_refl _
  | some ranges =>
      have whole := congrArg List.length (accept_spec ranges bytes).1
      rw [List.length_append] at whole
      change (accept ranges bytes).2.1.length ≤ bytes.length
      omega

/-- What is left after the first character is an end of the bytes. -/
theorem decodeFirst_suffix (lead : UInt8) (bytes : List UInt8) :
    (decodeFirst lead bytes).2 <:+ bytes := by
  unfold decodeFirst
  cases continuation lead with
  | none => exact List.suffix_refl _
  | some ranges => exact ⟨_, (accept_spec ranges bytes).1.symm⟩

theorem decodeFirst_character {lead : UInt8} {ranges : List (UInt8 × UInt8)} {taken : List UInt8}
    (starts : continuation lead = some ranges) (continued : List.Forall₂ InRange ranges taken)
    (rest : List UInt8) : decodeFirst lead (taken ++ rest) = (lead :: taken, rest) := by
  unfold decodeFirst
  rw [starts]
  dsimp only
  rw [accept_complete continued]
  rfl

/-! ## The whole string -/

theorem lossyWithin_eq {fuel : Nat} {bytes : List UInt8} (enough : bytes.length ≤ fuel) :
    lossyWithin fuel bytes = lossy bytes := by
  have same (fuel more : Nat) (bytes : List UInt8) (enough : bytes.length ≤ fuel) :
      lossyWithin (fuel + more) bytes = lossyWithin fuel bytes := by
    induction fuel generalizing bytes with
    | zero =>
        cases bytes with
        | nil => cases more <;> rfl
        | cons lead bytes => cases enough
    | succ fuel ih =>
        rw [Nat.succ_add]
        cases bytes with
        | nil => rfl
        | cons lead bytes =>
            have shorter := length_decodeFirst lead bytes
            rw [List.length_cons] at enough
            rw [lossyWithin, lossyWithin, ih _ (by omega)]
  have split : fuel = bytes.length + (fuel - bytes.length) := by omega
  rw [split, same _ _ _ (le_refl _)]
  rfl

@[simp]
theorem lossy_nil : lossy [] = [] := rfl

theorem lossy_cons (lead : UInt8) (bytes : List UInt8) :
    lossy (lead :: bytes) = (decodeFirst lead bytes).1 ++ lossy (decodeFirst lead bytes).2 := by
  unfold lossy
  rw [List.length_cons, lossyWithin, lossyWithin_eq (length_decodeFirst lead bytes)]
  rfl

/-- Induction over the characters that the decoder finds. -/
theorem induct_lossy (Holds : List UInt8 -> Prop) (empty : Holds [])
    (next : forall lead bytes, Holds (decodeFirst lead bytes).2 -> Holds (lead :: bytes))
    (bytes : List UInt8) : Holds bytes := by
  induction size : bytes.length using Nat.strong_induction_on generalizing bytes with
  | _ n ih =>
      cases bytes with
      | nil => exact empty
      | cons lead bytes =>
          have shorter := length_decodeFirst lead bytes
          rw [List.length_cons] at size
          exact next lead bytes (ih _ (by omega) _ rfl)

/-- The decoder keeps texts. -/
theorem lossy_text {bytes : List UInt8} (text : Text bytes) : lossy bytes = bytes := by
  induction text with
  | nil => rfl
  | cons starts continued _ ih =>
      rw [lossy_cons, decodeFirst_character starts continued, ih]
      rfl

theorem text_append_of_first (lead : UInt8) (bytes : List UInt8) {rest : List UInt8}
    (text : Text rest) : Text ((decodeFirst lead bytes).1 ++ rest) := by
  have replaced : Text (replacement ++ rest) :=
    @Text.cons 0xEF [(0x80, 0xBF), (0x80, 0xBF)] [0xBF, 0xBD] rest rfl
      (.cons (by decide) (.cons (by decide) .nil)) text
  unfold decodeFirst
  cases starts : continuation lead with
  | none => exact replaced
  | some ranges =>
      dsimp only
      split_ifs with complete
      · exact .cons starts ((accept_spec ranges bytes).2 complete) text
      · exact replaced

/-- What the decoder makes of a string is a text. -/
theorem text_lossy (bytes : List UInt8) : Text (lossy bytes) := by
  apply induct_lossy fun bytes => Text (lossy bytes)
  · exact .nil
  · intro lead bytes text
    rw [lossy_cons]
    exact text_append_of_first lead bytes text

/-! ## Ends of strings -/

/-- No zero byte continues a character. -/
theorem ne_zero_of_continued {lead : UInt8} {ranges : List (UInt8 × UInt8)} {taken : List UInt8}
    (starts : continuation lead = some ranges) (continued : List.Forall₂ InRange ranges taken)
    {byte : UInt8} (member : byte ∈ taken) : byte ≠ 0 := by
  have checked : ranges.all (fun range => 0 < range.1) = true := by
    unfold continuation at starts
    split_ifs at starts
    all_goals
      cases starts
      decide
  have above (range : UInt8 × UInt8) (member : range ∈ ranges) : 0 < range.1 :=
    of_decide_eq_true (List.all_eq_true.mp checked range member)
  clear starts checked
  induction continued with
  | nil => cases member
  | cons inside _ ih =>
      rcases List.mem_cons.mp member with rfl | later
      · exact (UInt8.ne_of_lt (UInt8.lt_of_lt_of_le (above _ List.mem_cons_self) inside.1)).symm
      · exact ih later fun range further => above range (List.mem_cons_of_mem _ further)

theorem decodeFirst_ne_nil (lead : UInt8) (bytes : List UInt8) :
    (decodeFirst lead bytes).1 ≠ [] := by
  unfold decodeFirst
  cases continuation lead with
  | none => exact List.cons_ne_nil _ _
  | some ranges =>
      dsimp only
      split_ifs
      · exact List.cons_ne_nil _ _
      · exact List.cons_ne_nil _ _

theorem eq_nil_of_lossy {bytes : List UInt8} (empty : lossy bytes = []) : bytes = [] := by
  cases bytes with
  | nil => rfl
  | cons lead bytes =>
      rw [lossy_cons] at empty
      exact absurd (List.append_eq_nil_iff.mp empty).1 (decodeFirst_ne_nil lead bytes)

/-- A character that ends in a zero byte is the zero byte. -/
theorem decodeFirst_zero {lead : UInt8} {bytes : List UInt8}
    (zero : (decodeFirst lead bytes).1.getLast? = some 0) :
    lead = 0 ∧ (decodeFirst lead bytes).2 = bytes := by
  unfold decodeFirst at zero ⊢
  cases starts : continuation lead with
  | none =>
      rw [starts] at zero
      cases zero
  | some ranges =>
      rw [starts] at zero
      dsimp only at zero ⊢
      rcases accept_spec ranges bytes with ⟨whole, continued⟩
      generalize accept ranges bytes = split at zero whole continued ⊢
      rcases split with ⟨taken, rest, complete⟩
      cases complete with
      | false => cases zero
      | true =>
          rw [if_pos rfl] at zero
          cases last : taken.getLast? with
          | none =>
              rw [List.getLast?_eq_none_iff] at last
              subst last
              exact ⟨Option.some.inj zero, whole.symm⟩
          | some byte =>
              have nonzero := ne_zero_of_continued starts (continued rfl) (List.mem_of_getLast? last)
              rw [List.getLast?_cons, last] at zero
              exact absurd (Option.some.inj zero) nonzero

/-- A result that ends in a zero byte comes from a string that ends in one. -/
theorem getLast?_of_lossy {bytes : List UInt8} (zero : (lossy bytes).getLast? = some 0) :
    bytes.getLast? = some 0 := by
  revert zero
  apply induct_lossy fun bytes => (lossy bytes).getLast? = some 0 -> bytes.getLast? = some 0
  · intro zero
    cases zero
  · intro lead bytes ih zero
    rw [lossy_cons] at zero
    cases rest : lossy (decodeFirst lead bytes).2 with
    | nil =>
        rw [rest, List.append_nil] at zero
        rcases decodeFirst_zero zero with ⟨rfl, left⟩
        rw [left] at rest
        rw [eq_nil_of_lossy rest]
        rfl
    | cons byte others =>
        rw [List.getLast?_append_of_ne_nil _ (by rw [rest]; exact List.cons_ne_nil _ _)] at zero
        rcases decodeFirst_suffix lead bytes with ⟨before, whole⟩
        have ends := ih zero
        rw [← whole, ← List.cons_append, List.getLast?_append, ends]
        rfl

/-- Cutting a text off inserts at most one replacement, for the character that is cut. -/
theorem length_lossy_start {text start : List UInt8} (valid : Text text) (cut : start <+: text) :
    (lossy start).length ≤ start.length + 2 := by
  induction valid generalizing start with
  | nil =>
      rw [List.prefix_nil.mp cut]
      exact Nat.zero_le _
  | @cons lead ranges taken rest starts continued _ ih =>
      cases start with
      | nil => exact Nat.zero_le _
      | cons first others =>
          rcases List.cons_prefix_cons.mp cut with ⟨rfl, inside⟩
          rcases List.prefix_or_prefix_of_prefix inside (List.prefix_append taken rest) with
            short | ⟨later, rfl⟩
          · rcases short with ⟨missing, whole⟩
            cases missing with
            | nil =>
                rw [List.append_nil] at whole
                subst whole
                have step := decodeFirst_character starts continued []
                rw [List.append_nil] at step
                rw [lossy_cons, step, lossy_nil, List.append_nil]
                exact Nat.le_add_right _ 2
            | cons byte missing =>
                have step : decodeFirst first others = (replacement, []) := by
                  unfold decodeFirst
                  rw [starts]
                  dsimp only
                  rw [accept_truncated (whole ▸ continued) (List.cons_ne_nil byte missing)]
                  rfl
                rw [lossy_cons, step, lossy_nil, List.append_nil, List.length_cons]
                change 3 ≤ _
                omega
          · have bound := ih ((List.prefix_append_right_inj taken).mp inside)
            rw [lossy_cons, decodeFirst_character starts continued]
            dsimp only
            rw [List.length_append, List.length_cons, List.length_cons, List.length_append]
            omega

end Utf8
end Basis
end Rsrt
