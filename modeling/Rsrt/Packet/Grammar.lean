import Rsrt.Packet.ControlCodec
import Rsrt.Packet.HandshakeCodec

namespace Rsrt

open Rsrt.Basis

/-!
# What the list parsers accept

The extension blocks of a handshake and the loss list of a NAK are lists of entries of
different lengths, delimited by what the entries themselves say.  Each parser is compared
with the language of such lists: the byte strings that it accepts are the concatenations of
complete entries, with up to three bytes behind them, and its result is the list of those
entries.
-/

/-! ## Extension blocks -/

/-- A complete extension block: a 16-bit command and a content of whole words, whose number
fits in 16 bits. -/
structure Block where
  cmd : Nat
  content : Bytes
  cmd_lt : cmd < 2 ^ 16
  whole : HsExtension.WholeWords content

namespace Block

def bytes (self : Block) : Bytes :=
  putU16 self.cmd ++ (putU16 (self.content.length / 4) ++ self.content)

/-- The entry that the parser makes of a block has the block's command. -/
def Reads (self : Block) (ext : HsExtension) : Prop :=
  parseExtension self.cmd self.content = .ok ext ∧ ext.cmd = self.cmd

@[simp]
theorem length_bytes (self : Block) : self.bytes.length = 4 + self.content.length := by
  unfold bytes
  simp only [List.length_append, length_putU16]
  omega

end Block

/-- An entry has the command that it was parsed for, whatever the content is. -/
theorem parseExtension_cmd {cmd : Nat} {content : Bytes} {ext : HsExtension}
    (parsed : parseExtension cmd content = .ok ext) : ext.cmd = cmd := by
  by_cases hello : cmd = srtCmdHsreq ∨ cmd = srtCmdHsrsp
  · rw [parseExtension_hello hello] at parsed
    rcases HsExtFields.parse_cases content with ⟨_, err, refused⟩ | ⟨_, fields, _, read⟩
    · rw [refused] at parsed
      cases parsed
      rfl
    · rw [read] at parsed
      cases parsed
      split_ifs with request
      · exact request.symm
      · exact (hello.resolve_left request).symm
  · unfold parseExtension at parsed
    rw [if_neg hello, unpackBytesWords_eq] at parsed
    split_ifs at parsed with request response stream size controller
    · cases parsed
      exact request.symm
    · cases parsed
      exact response.symm
    · cases parsed
      rfl
    · cases parsed
      exact stream.symm
    · cases parsed
      exact controller.symm
    · cases parsed
      rfl

/-- Every block is read, malformed content included. -/
theorem Block.exists_reads (self : Block) : Exists fun ext => self.Reads ext := by
  rcases parseExtension_shaped self.cmd_lt self.whole with ⟨ext, parsed, _⟩
  exact ⟨ext, parsed, parseExtension_cmd parsed⟩

/-- A block at the front is taken off, and the entries behind it are those of the bytes
behind it. -/
theorem parseExtensions_block {block : Block} {ext : HsExtension} (reads : block.Reads ext)
    (rest : Bytes) :
    parseExtensions (block.bytes ++ rest) = (parseExtensions rest).map (ext :: ·) := by
  have step : extensionStep (block.bytes ++ rest) = .ok (some (ext, rest)) := by
    -- On the wire a block looks like an unknown one with the same content.
    have taken : extensionStep (block.bytes ++ rest) =
        (do return some (<- parseExtension block.cmd block.content, rest)) :=
      @extensionStep_encode_of_whole (.unknown block.cmd block.content) block.cmd_lt block.whole
        rest
    rw [taken, reads.1]
    rfl
  have length : (block.bytes ++ rest).length = 4 + block.content.length + rest.length := by
    rw [List.length_append, Block.length_bytes]
  unfold parseExtensions
  rw [Reading.loop_next step]
  congr 1
  apply Reading.loop_stable (fun buf : Bytes => buf.length / 4)
  · intro buf other after moved
    have consumed := (extensionStep_consumes moved).1
    omega
  · omega
  · exact Nat.lt_succ_self _

theorem parseExtensions_stray {stray : Bytes} (short : stray.length ≤ 3) :
    parseExtensions stray = .ok [] := by
  apply Reading.loop_done
  unfold extensionStep
  rw [if_neg (by omega)]
  rfl

/-- The front of an accepted byte string is a complete block, unless it is too short for the
header of one. -/
theorem exists_block {buf : Bytes} {exts : List HsExtension}
    (parsed : parseExtensions buf = .ok exts) (long : 4 ≤ buf.length) :
    Exists fun block : Block => Exists fun rest => buf = block.bytes ++ rest := by
  have header : Exists fun cmd => Exists fun words =>
      cmd < 2 ^ 16 ∧ words < 2 ^ 16 ∧ buf = putU16 cmd ++ (putU16 words ++ buf.drop 4) := by
    match buf, long with
    | a :: b :: c :: d :: rest, _ =>
        have small (high low : UInt8) : ofBigEndian [high, low] < 2 ^ 16 := by
          simpa using ofBigEndian_lt [high, low]
        refine ⟨ofBigEndian [a, b], ofBigEndian [c, d], small a b, small c d, ?_⟩
        change _ = bigEndian [a, b].length _ ++ (bigEndian [c, d].length _ ++ rest)
        rw [bigEndian_ofBigEndian, bigEndian_ofBigEndian]
        rfl
  rcases header with ⟨cmd, words, small, few, shape⟩
  by_cases fits : words * 4 ≤ (buf.drop 4).length
  · refine ⟨⟨cmd, (buf.drop 4).take (words * 4), small, ?_⟩, (buf.drop 4).drop (words * 4), ?_⟩
    · unfold HsExtension.WholeWords
      rw [List.length_take_of_le fits]
      omega
    · unfold Block.bytes
      dsimp only
      rw [List.length_take_of_le fits, Nat.mul_div_cancel _ (by decide), List.append_assoc,
        List.append_assoc, List.take_append_drop]
      exact shape
  · -- The announced content goes past the end: the first iteration refuses the buffer.
    have refused : extensionStep buf = reject (.badHandshake "truncated extension block") := by
      have first : readU16 buf 0 = .ok cmd := by
        rw [shape, readU16_putU16 small]
      have second : readU16 buf 2 = .ok words := by
        rw [shape, readU16_after_putU16 _ _ 0, readU16_putU16 few]
      rw [List.length_drop] at fits
      unfold extensionStep
      rw [if_pos long, first, Reading.ok_bind, second, Reading.ok_bind]
      dsimp only
      rw [if_pos (by omega)]
    unfold parseExtensions at parsed
    rw [Reading.loop, refused] at parsed
    cases parsed

/-- The blocks of an accepted byte string, with the entries made of them. -/
theorem blocks_of_parseExtensions {buf : Bytes} {exts : List HsExtension}
    (parsed : parseExtensions buf = .ok exts) :
    Exists fun blocks : List Block => Exists fun stray : Bytes =>
      stray.length ≤ 3 ∧ buf = blocks.flatMap Block.bytes ++ stray ∧
        List.Forall₂ Block.Reads blocks exts := by
  -- Each block takes at least its header off the buffer.
  induction size : buf.length using Nat.strong_induction_on generalizing buf exts with
  | _ length ih =>
      by_cases long : 4 ≤ buf.length
      · rcases exists_block parsed long with ⟨block, rest, rfl⟩
        rcases block.exists_reads with ⟨ext, reads⟩
        rw [parseExtensions_block reads] at parsed
        cases tail : parseExtensions rest with
        | error stop =>
            rw [tail] at parsed
            cases parsed
        | ok later =>
            rw [tail] at parsed
            cases parsed
            rw [List.length_append, Block.length_bytes] at size
            rcases ih rest.length (by omega) tail rfl with ⟨blocks, stray, short, rfl, entries⟩
            refine ⟨block :: blocks, stray, short, ?_, .cons reads entries⟩
            rw [List.flatMap_cons, List.append_assoc]
      · rw [parseExtensions_stray (by omega)] at parsed
        cases parsed
        exact ⟨[], buf, by omega, rfl, .nil⟩

theorem parseExtensions_blocks {blocks : List Block} {exts : List HsExtension} {stray : Bytes}
    (short : stray.length ≤ 3) (entries : List.Forall₂ Block.Reads blocks exts) :
    parseExtensions (blocks.flatMap Block.bytes ++ stray) = .ok exts := by
  induction entries with
  | nil => exact parseExtensions_stray short
  | cons reads _ ih =>
      rw [List.flatMap_cons, List.append_assoc, parseExtensions_block reads, ih]
      rfl

theorem exists_entries (blocks : List Block) :
    Exists fun exts => List.Forall₂ Block.Reads blocks exts := by
  induction blocks with
  | nil => exact ⟨[], .nil⟩
  | cons block blocks ih =>
      rcases block.exists_reads with ⟨ext, reads⟩
      rcases ih with ⟨exts, entries⟩
      exact ⟨ext :: exts, .cons reads entries⟩

/-- A block at the front of a byte string is determined by it. -/
theorem Block.front_unique {block other : Block} {rest after : Bytes}
    (same : block.bytes ++ rest = other.bytes ++ after) : block = other ∧ rest = after := by
  rcases block with ⟨cmd, content, small, whole⟩
  rcases other with ⟨cmd', content', small', whole'⟩
  unfold Block.bytes at same
  simp only [List.append_assoc] at same
  obtain ⟨commands, behind⟩ := List.append_inj same (by rw [length_putU16, length_putU16])
  obtain ⟨counts, behind⟩ := List.append_inj behind (by rw [length_putU16, length_putU16])
  have injective {a b : Nat} (low : a < 2 ^ 16) (high : b < 2 ^ 16) (written : putU16 a = putU16 b) :
      a = b := by
    have read := congrArg ofBigEndian written
    unfold putU16 at read
    rw [ofBigEndian_bigEndian, ofBigEndian_bigEndian] at read
    change a % 2 ^ 16 = b % 2 ^ 16 at read
    omega
  have cmds := injective small small' commands
  rcases whole with ⟨words, few⟩
  rcases whole' with ⟨words', few'⟩
  have lengths := injective (by omega) (by omega) counts
  obtain ⟨contents, rests⟩ := List.append_inj behind (by omega)
  subst cmds contents
  exact ⟨rfl, rests⟩

theorem blocks_unique {blocks others : List Block} {stray rest : Bytes}
    (short : stray.length ≤ 3) (few : rest.length ≤ 3)
    (same : blocks.flatMap Block.bytes ++ stray = others.flatMap Block.bytes ++ rest) :
    blocks = others ∧ stray = rest := by
  -- A block is longer than what may be left behind the last one.
  have longer (block : Block) (later : List Block) (tail : Bytes) :
      4 ≤ ((block :: later).flatMap Block.bytes ++ tail).length := by
    rw [List.flatMap_cons, List.length_append, List.length_append, Block.length_bytes]
    omega
  induction blocks generalizing others with
  | nil =>
      cases others with
      | nil => exact ⟨rfl, same⟩
      | cons other others =>
          have long := longer other others rest
          rw [← same] at long
          change 4 ≤ stray.length at long
          omega
  | cons block blocks ih =>
      cases others with
      | nil =>
          have long := longer block blocks stray
          rw [same] at long
          change 4 ≤ rest.length at long
          omega
      | cons other others =>
          rw [List.flatMap_cons, List.flatMap_cons, List.append_assoc, List.append_assoc] at same
          rcases Block.front_unique same with ⟨rfl, behind⟩
          rcases ih behind with ⟨rfl, rfl⟩
          exact ⟨rfl, rfl⟩

/-- The grammar of extension blocks.  The parser succeeds exactly on concatenations of
complete blocks with up to three stray bytes behind them.  There is one way to see a byte
string as such a concatenation, and the result has one entry for each of its blocks, in
order, with the block's command.  Whatever a block holds, the bytes behind it are read as if
they stood alone. -/
theorem extension_grammar :
    (forall buf : Bytes, (Exists fun exts => parseExtensions buf = .ok exts) ↔
      Exists fun blocks : List Block => Exists fun stray : Bytes =>
        stray.length ≤ 3 ∧ buf = blocks.flatMap Block.bytes ++ stray) ∧
    (forall (blocks : List Block) (stray : Bytes) (exts : List HsExtension), stray.length ≤ 3 ->
      (parseExtensions (blocks.flatMap Block.bytes ++ stray) = .ok exts ↔
        List.Forall₂ Block.Reads blocks exts)) ∧
    (forall (blocks others : List Block) (stray rest : Bytes),
      stray.length ≤ 3 -> rest.length ≤ 3 ->
      blocks.flatMap Block.bytes ++ stray = others.flatMap Block.bytes ++ rest ->
        blocks = others ∧ stray = rest) ∧
    forall block : Block, Exists fun ext => block.Reads ext ∧ forall rest,
      parseExtensions (block.bytes ++ rest) = (parseExtensions rest).map (ext :: ·) := by
  refine ⟨?_, ?_, ?_, ?_⟩
  · intro buf
    constructor
    · rintro ⟨exts, parsed⟩
      rcases blocks_of_parseExtensions parsed with ⟨blocks, stray, short, shape, _⟩
      exact ⟨blocks, stray, short, shape⟩
    · rintro ⟨blocks, stray, short, rfl⟩
      rcases exists_entries blocks with ⟨exts, entries⟩
      exact ⟨exts, parseExtensions_blocks short entries⟩
  · intro blocks stray exts short
    constructor
    · intro parsed
      rcases blocks_of_parseExtensions parsed with ⟨found, rest, few, shape, entries⟩
      rcases blocks_unique short few shape with ⟨rfl, rfl⟩
      exact entries
    · intro entries
      exact parseExtensions_blocks short entries
  · intro blocks others stray rest short few same
    exact blocks_unique short few same
  · intro block
    rcases block.exists_reads with ⟨ext, reads⟩
    exact ⟨ext, reads, fun rest => parseExtensions_block reads rest⟩

/-- A hello that is too short, in front of an empty key request. -/
def shortHello : List Block :=
  [⟨srtCmdHsreq, [1, 2, 3, 4], by decide, ⟨by decide, by decide⟩⟩, ⟨srtCmdKmreq, [], by decide, ⟨by decide, by decide⟩⟩]

theorem extension_grammar_shortHello :
    shortHello.flatMap Block.bytes ++ [7, 7] = [0, 1, 0, 1, 1, 2, 3, 4, 0, 3, 0, 0, 7, 7] ∧
    parseExtensions [0, 1, 0, 1, 1, 2, 3, 4, 0, 3, 0, 0, 7, 7] =
      .ok [.invalid srtCmdHsreq [1, 2, 3, 4], .kmReq []] ∧
    Exists fun ext => parseExtensions [0, 3, 0, 0] = .ok [ext] ∧ ext.cmd = srtCmdKmreq := by
  refine ⟨by decide, ?_, ?_⟩
  · apply (extension_grammar.2.1 shortHello [7, 7] _ (by decide)).mpr
    exact .cons ⟨rfl, rfl⟩ (.cons ⟨rfl, rfl⟩ .nil)
  · rcases extension_grammar.2.2.2 ⟨srtCmdKmreq, [], by decide, ⟨by decide, by decide⟩⟩ with ⟨ext, reads, alone⟩
    exact ⟨ext, alone [], reads.2⟩

/-! ## Loss lists -/

/-- The words of a loss list, partitioned from left to right: a word with a clear top bit is
a single sequence number; a word with the top bit set starts a range, whose end is the next
word cut to 31 bits.  The end of a range is at most half the circle ahead of its start. -/
inductive LossWords : List Nat -> List LossRange -> Prop
  | done : LossWords [] []
  | single {word : Nat} {words : List Nat} {list : List LossRange} (clear : word < 2 ^ 31)
      (rest : LossWords words list) :
      LossWords (word :: words) (⟨SeqNumber.new word, SeqNumber.new word⟩ :: list)
  | pair {start stop : Nat} {words : List Nat} {list : List LossRange} (marked : 2 ^ 31 ≤ start)
      (ordered : ((stop : Int) - start) % 2 ^ 31 ≤ 2 ^ 30) (rest : LossWords words list) :
      LossWords (start :: stop :: words) (⟨SeqNumber.new start, SeqNumber.new stop⟩ :: list)

/-- The numbers are 32-bit words. -/
def Words (words : List Nat) : Prop :=
  forall word, word ∈ words -> word < 2 ^ 32

/-- The bytes that whole words and up to three bytes behind them are written as. -/
def wordBytes (words : List Nat) (stray : Bytes) : Bytes :=
  words.flatMap putU32 ++ stray

theorem length_wordBytes (words : List Nat) (stray : Bytes) :
    (wordBytes words stray).length = words.length * 4 + stray.length := by
  unfold wordBytes
  rw [List.length_append]
  congr 1
  induction words with
  | nil => rfl
  | cons word words ih =>
      rw [List.flatMap_cons, List.length_append, length_putU32, ih, List.length_cons]
      omega

/-- Every byte string is made of whole words and up to three bytes. -/
theorem exists_words (buf : Bytes) :
    Exists fun words => Exists fun stray : Bytes =>
      Words words ∧ stray.length ≤ 3 ∧ buf = wordBytes words stray := by
  induction buf using chunksOfFour.induct with
  | case5 a b c d rest ih =>
      rcases ih with ⟨words, stray, small, short, rfl⟩
      refine ⟨ofBigEndian [a, b, c, d] :: words, stray, ?_, short, ?_⟩
      · intro word member
        rcases List.mem_cons.mp member with rfl | later
        · simpa using ofBigEndian_lt [a, b, c, d]
        · exact small word later
      · unfold wordBytes
        rw [List.flatMap_cons, List.append_assoc]
        change _ = bigEndian [a, b, c, d].length _ ++ _
        rw [bigEndian_ofBigEndian]
        rfl
  | _ => exact ⟨[], _, fun _ member => absurd member List.not_mem_nil, by simp, rfl⟩

theorem readU32_wordBytes {words : List Nat} (small : Words words) (stray : Bytes) {i word : Nat}
    (here : words[i]? = some word) : readU32 (wordBytes words stray) (i * 4) = .ok word := by
  unfold wordBytes
  induction words generalizing i with
  | nil => cases here
  | cons head words ih =>
      rw [List.flatMap_cons, List.append_assoc]
      cases i with
      | zero =>
          cases here
          rw [Nat.zero_mul]
          exact readU32_putU32 (small _ List.mem_cons_self) _
      | succ i =>
          rw [Nat.succ_mul, readU32_after_putU32]
          exact ih (fun other later => small other (List.mem_cons_of_mem _ later)) here

/-- The source's comparison of the ends of a range, on the circle. -/
theorem diff_new_nonpos (start stop : Nat) :
    ¬ 0 < (SeqNumber.new start).diff (SeqNumber.new stop) ↔
      ((stop : Int) - start) % 2 ^ 31 ≤ 2 ^ 30 := by
  rcases SeqNumber.diff_spec (SeqNumber.new start) (SeqNumber.new stop) with
    ⟨⟨turns, equal⟩, above, below⟩
  change _ = ((start % 2 ^ 31 : Nat) : Int) - ((stop % 2 ^ 31 : Nat) : Int) + 2 ^ 31 * turns
    at equal
  omega

theorem marked_iff {word : Nat} (small : word < 2 ^ 32) :
    word &&& nakRangeFlag ≠ 0 ↔ 2 ^ 31 ≤ word := by
  rw [and_nakRangeFlag]
  omega

/-- A partition of a list that starts with an unmarked word. -/
theorem LossWords.single_iff {word : Nat} {words : List Nat} {list : List LossRange}
    (clear : word < 2 ^ 31) :
    LossWords (word :: words) list ↔
      Exists fun tail => list = ⟨SeqNumber.new word, SeqNumber.new word⟩ :: tail ∧
        LossWords words tail := by
  constructor
  · intro partition
    cases partition with
    | single _ rest => exact ⟨_, rfl, rest⟩
    | pair marked _ _ => omega
  · rintro ⟨tail, rfl, rest⟩
    exact .single clear rest

/-- A partition of a list that starts with a marked word. -/
theorem LossWords.pair_iff {start : Nat} {words : List Nat} {list : List LossRange}
    (marked : 2 ^ 31 ≤ start) :
    LossWords (start :: words) list ↔
      Exists fun stop => Exists fun after => Exists fun tail =>
        words = stop :: after ∧ ((stop : Int) - start) % 2 ^ 31 ≤ 2 ^ 30 ∧
          list = ⟨SeqNumber.new start, SeqNumber.new stop⟩ :: tail ∧ LossWords after tail := by
  constructor
  · intro partition
    cases partition with
    | single clear _ => omega
    | pair _ ordered rest => exact ⟨_, _, _, rfl, ordered, rfl, rest⟩
  · rintro ⟨stop, after, tail, rfl, ordered, rfl, rest⟩
    exact .pair marked ordered rest

/-- The loop, from word `i` on, succeeds exactly on a partition of the words that are left. -/
theorem loop_lossStep_iff {words : List Nat} (small : Words words) (stray : Bytes)
    {fuel i : Nat} (enough : words.length - i < fuel) (list : List LossRange) :
    Reading.loop (lossStep (wordBytes words stray) words.length) fuel i = .ok list ↔
      LossWords (words.drop i) list := by
  induction fuel generalizing i list with
  | zero => exact absurd enough (Nat.not_lt_zero _)
  | succ fuel ih =>
      by_cases more : i < words.length
      · have read := readU32_wordBytes small stray (List.getElem?_eq_getElem more)
        have flag := marked_iff (small _ (List.getElem_mem more))
        rw [List.drop_eq_getElem_cons more]
        generalize words[i] = word at read flag ⊢
        by_cases marked : 2 ^ 31 ≤ word
        · rw [LossWords.pair_iff marked]
          by_cases missing : words.length ≤ i + 1
          · have refused : lossStep (wordBytes words stray) words.length i =
                reject (.badCif "NAK range missing end word") := by
              unfold lossStep
              rw [if_pos more, read, Reading.ok_bind, if_pos (flag.mpr marked), if_pos missing]
            rw [Reading.loop, refused, List.drop_eq_nil_of_le missing]
            constructor
            · intro ended
              cases ended
            · rintro ⟨stop, after, tail, empty, _⟩
              cases empty
          · have inside : i + 1 < words.length := by omega
            have next := readU32_wordBytes small stray (List.getElem?_eq_getElem inside)
            rw [List.drop_eq_getElem_cons inside]
            generalize words[i + 1] = stop at next ⊢
            have step : lossStep (wordBytes words stray) words.length i =
                if 0 < (SeqNumber.new word).diff (SeqNumber.new stop) then
                  reject (.badCif "NAK range start after end")
                else .ok (some (⟨SeqNumber.new word, SeqNumber.new stop⟩, i + 2)) := by
              unfold lossStep
              rw [if_pos more, read, Reading.ok_bind, if_pos (flag.mpr marked), if_neg missing,
                next, Reading.ok_bind]
              rfl
            have order := diff_new_nonpos word stop
            by_cases ordered : ((stop : Int) - word) % 2 ^ 31 ≤ 2 ^ 30
            · rw [if_neg (order.mpr ordered)] at step
              rw [Reading.loop_some_iff step]
              constructor
              · rintro ⟨tail, rfl, later⟩
                exact ⟨stop, _, tail, rfl, ordered, rfl, (ih (by omega) tail).mp later⟩
              · rintro ⟨_, _, tail, same, _, rfl, rest⟩
                cases same
                exact ⟨tail, rfl, (ih (by omega) tail).mpr rest⟩
            · rw [if_pos (not_not.mp (fun fine => ordered (order.mp fine)))] at step
              rw [Reading.loop, step]
              constructor
              · intro ended
                cases ended
              · rintro ⟨_, _, tail, same, fine, _⟩
                cases same
                exact absurd fine ordered
        · have moved : lossStep (wordBytes words stray) words.length i =
              .ok (some (⟨SeqNumber.new word, SeqNumber.new word⟩, i + 1)) := by
            unfold lossStep
            rw [if_pos more, read, Reading.ok_bind, if_neg (by rw [flag]; exact marked)]
            rfl
          rw [Reading.loop_some_iff moved, LossWords.single_iff (by omega)]
          apply exists_congr
          intro tail
          rw [ih (by omega)]
      · rw [Reading.loop_done (by unfold lossStep; rw [if_neg more]; rfl),
          List.drop_eq_nil_of_le (not_lt.mp more)]
        constructor
        · intro ended
          cases ended
          exact .done
        · intro partition
          cases partition
          rfl

/-- Written again, the entries of a partition take no more words than they came from. -/
theorem length_encodeLossList_le {words : List Nat} {list : List LossRange}
    (partition : LossWords words list) : (encodeLossList list).length ≤ words.length * 4 := by
  unfold encodeLossList
  induction partition with
  | done => exact Nat.le_refl _
  | @single word words list clear rest ih =>
      have size : (encodeLossRange ⟨SeqNumber.new word, SeqNumber.new word⟩).length = 4 := by
        unfold encodeLossRange
        rw [if_pos rfl, length_putU32]
      rw [List.flatMap_cons, List.length_append, List.length_cons]
      omega
  | @pair start stop words list marked ordered rest ih =>
      have size := length_encodeLossRange ⟨SeqNumber.new start, SeqNumber.new stop⟩
      rw [List.flatMap_cons, List.length_append, List.length_cons, List.length_cons]
      omega

/-- The grammar of loss lists.  The parser succeeds exactly on byte strings with at least one
whole word whose whole words partition from left to right into singles and ordered pairs; the
result is that partition, up to three bytes behind the last word are ignored, and the result
takes no more words when it is written again. -/
theorem loss_list_grammar :
    (forall (buf : Bytes) (list : List LossRange), parseLossList buf = .ok list ↔
      Exists fun words => Exists fun stray : Bytes =>
        Words words ∧ stray.length ≤ 3 ∧ buf = wordBytes words stray ∧
          words ≠ [] ∧ LossWords words list) ∧
    forall (buf : Bytes) (list : List LossRange), parseLossList buf = .ok list ->
      Exists fun count => (encodeLossList list).length = count * 4 ∧ count ≤ buf.length / 4 := by
  have parsed_iff {words : List Nat} {stray : Bytes} (small : Words words)
      (short : stray.length ≤ 3) (list : List LossRange) :
      parseLossList (wordBytes words stray) = .ok list ↔ words ≠ [] ∧ LossWords words list := by
    have count : (wordBytes words stray).length / 4 = words.length := by
      rw [length_wordBytes]
      omega
    unfold parseLossList
    dsimp only
    rw [count]
    by_cases empty : words = []
    · subst empty
      rw [List.length_nil, if_pos rfl]
      constructor
      · intro parsed
        cases parsed
      · rintro ⟨nonempty, _⟩
        exact absurd rfl nonempty
    · rw [if_neg (fun zero => empty (List.length_eq_zero_iff.mp zero)),
        loop_lossStep_iff small stray (by omega)]
      exact (and_iff_right empty).symm
  constructor
  · intro buf list
    constructor
    · intro parsed
      rcases exists_words buf with ⟨words, stray, small, short, rfl⟩
      exact ⟨words, stray, small, short, rfl, (parsed_iff small short list).mp parsed⟩
    · rintro ⟨words, stray, small, short, rfl, partition⟩
      exact (parsed_iff small short list).mpr partition
  · intro buf list parsed
    rcases exists_words buf with ⟨words, stray, small, short, rfl⟩
    have partition := ((parsed_iff small short list).mp parsed).2
    have bound := length_encodeLossList_le partition
    have whole := (length_encodeLossList list).2
    refine ⟨(encodeLossList list).length / 4, ?_, ?_⟩
    · omega
    · rw [length_wordBytes]
      omega

/-- A range across the end of the sequence space, a single number, and two stray bytes. -/
theorem loss_list_grammar_wrapping :
    parseLossList (wordBytes [0xFFFFFFFF, 0x80000001, 5] [9, 9]) =
      .ok [⟨SeqNumber.new 0x7FFFFFFF, SeqNumber.new 1⟩, ⟨SeqNumber.new 5, SeqNumber.new 5⟩] ∧
    Exists fun count => (encodeLossList
      [⟨SeqNumber.new 0x7FFFFFFF, SeqNumber.new 1⟩, ⟨SeqNumber.new 5, SeqNumber.new 5⟩]).length =
        count * 4 ∧ count ≤ 3 := by
  have parsed : parseLossList (wordBytes [0xFFFFFFFF, 0x80000001, 5] [9, 9]) =
      .ok [⟨SeqNumber.new 0x7FFFFFFF, SeqNumber.new 1⟩, ⟨SeqNumber.new 5, SeqNumber.new 5⟩] := by
    apply (loss_list_grammar.1 _ _).mpr
    refine ⟨_, _, ?_, ?_, rfl, ?_, ?_⟩
    · unfold Words
      decide
    · decide
    · decide
    · exact .pair (by decide) (by decide) (.single (by decide) .done)
  exact ⟨parsed, loss_list_grammar.2 _ _ parsed⟩

end Rsrt
