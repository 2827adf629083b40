import Mathlib.Data.List.DropRight
import Rsrt.Basis.Utf8
import Rsrt.Packet.Wire

namespace Rsrt

open Rsrt.Basis

/-!
# Codec of the handshake

The handshake CIF and its extension blocks.  A block that the parser recognizes but whose
content it does not accept is kept as an invalid block, for the listener to answer; only a
block that is cut off makes the whole CIF undecodable.

A value of the model is `Typed` if it is a value of the source's types, which bound every
number and make every string a text.  An extension block is `Shaped` if the parser can have
produced it, up to the length of its string, and it `Fits` if the string has a length that
the parser takes back.
-/

abbrev cifSize : Nat := 48

def srtCmdHsreq : Nat := 1

def srtCmdHsrsp : Nat := 2

def srtCmdKmreq : Nat := 3

def srtCmdKmrsp : Nat := 4

def srtCmdSid : Nat := 5

def srtCmdCongestion : Nat := 6

namespace HandshakeType

def fromU32 (value : Nat) : Parsed HandshakeType :=
  if value = 0 then .ok waveahand
  else if value = 1 then .ok induction
  else if value = 0xFFFFFFFF then .ok conclusion
  else if value = 0xFFFFFFFE then .ok agreement
  -- Rejection codes are positive as signed numbers.
  else if 1000 ≤ value ∧ value ≤ 0x7FFFFFFF then .ok (rejection value)
  else reject (.badHandshake "unknown handshake type")

def toU32 : HandshakeType -> Nat
  | waveahand => 0
  | induction => 1
  | conclusion => 0xFFFFFFFF
  | agreement => 0xFFFFFFFE
  | rejection code => code

/-- A rejection has a code that is one. -/
def WellFormed : HandshakeType -> Prop
  | rejection code => 1000 ≤ code ∧ code ≤ 0x7FFFFFFF
  | _ => True

theorem fromU32_toU32 {self : HandshakeType} (wellFormed : self.WellFormed) :
    fromU32 self.toU32 = .ok self := by
  cases self with
  | rejection code =>
      rcases wellFormed with ⟨above, below⟩
      change fromU32 code = _
      unfold fromU32
      rw [if_neg (by omega), if_neg (by omega), if_neg (by omega), if_neg (by omega),
        if_pos ⟨above, below⟩]
  | _ => rfl

theorem toU32_lt {self : HandshakeType} (wellFormed : self.WellFormed) :
    self.toU32 < 2 ^ 32 := by
  cases self with
  | rejection code =>
      have below : code ≤ 0x7FFFFFFF := wellFormed.2
      change code < 2 ^ 32
      omega
  | _ => decide

theorem fromU32_wellFormed {value : Nat} {self : HandshakeType} (read : fromU32 value = .ok self) :
    self.WellFormed := by
  unfold fromU32 at read
  split_ifs at read
  all_goals
    cases read
    try trivial

theorem fromU32_safe (value : Nat) : (fromU32 value).Safe := by
  unfold fromU32
  split_ifs
  all_goals
    first
    | exact .ok _
    | exact .rejected _

end HandshakeType

/-! ## HSREQ and HSRSP -/

namespace HsExtFields

def parse (content : Bytes) : Parsed HsExtFields :=
  if content.length < 12 then reject (.badHandshake "HSREQ/HSRSP shorter than 3 words")
  else do
    let latency <- readU32 content 8
    let srtVersion <- readU32 content 0
    let flags <- readU32 content 4
    return {
      srtVersion := srtVersion
      flags := ⟨flags⟩
      -- The receiver's delay is the upper half-word.
      recvLatencyMs := (latency >>> 16) % 2 ^ 16
      sendLatencyMs := latency % 2 ^ 16 }

def encode (self : HsExtFields) : Bytes :=
  putU32 self.srtVersion ++ (putU32 self.flags.bits ++
    putU32 (self.recvLatencyMs <<< 16 ||| self.sendLatencyMs))

structure Typed (fields : HsExtFields) : Prop where
  srtVersion : fields.srtVersion < 2 ^ 32
  flags : fields.flags.bits < 2 ^ 32
  recvLatencyMs : fields.recvLatencyMs < 2 ^ 16
  sendLatencyMs : fields.sendLatencyMs < 2 ^ 16

@[simp]
theorem length_encode (self : HsExtFields) : self.encode.length = 12 := by
  unfold encode
  simp only [List.length_append, length_putU32]

theorem parse_encode {self : HsExtFields} (typed : self.Typed) : parse self.encode = .ok self := by
  have low := typed.sendLatencyMs
  have high := typed.recvLatencyMs
  have latency : self.recvLatencyMs <<< 16 ||| self.sendLatencyMs =
      self.recvLatencyMs * 2 ^ 16 + self.sendLatencyMs := shiftLeft_or _ low
  have small : self.recvLatencyMs * 2 ^ 16 + self.sendLatencyMs < 2 ^ 32 := by omega
  unfold parse
  rw [if_neg (by rw [length_encode]; omega)]
  unfold encode
  simp only [latency, readU32_after_putU32, readU32_putU32 typed.srtVersion,
    readU32_putU32 typed.flags, readU32_putU32_last small, Reading.ok_bind]
  rw [Nat.shiftRight_eq_div_pow]
  have upper : (self.recvLatencyMs * 2 ^ 16 + self.sendLatencyMs) / 2 ^ 16 % 2 ^ 16 =
      self.recvLatencyMs := by omega
  have lower : (self.recvLatencyMs * 2 ^ 16 + self.sendLatencyMs) % 2 ^ 16 =
      self.sendLatencyMs := by omega
  rw [upper, lower]
  rfl

/-- The parser ends with fields, or says that the content is short. -/
theorem parse_cases (content : Bytes) :
    (content.length < 12 ∧ Exists fun err => parse content = reject err) ∨
      12 ≤ content.length ∧ Exists fun fields : HsExtFields =>
        fields.Typed ∧ parse content = .ok fields := by
  unfold parse
  split_ifs with short
  · exact Or.inl ⟨short, _, rfl⟩
  · rcases readU32_ok (by omega : 8 + 4 ≤ content.length) with ⟨latency, read8, _⟩
    rcases readU32_ok (by omega : 0 + 4 ≤ content.length) with ⟨srtVersion, read0, small0⟩
    rcases readU32_ok (by omega : 4 + 4 ≤ content.length) with ⟨flags, read4, small4⟩
    rw [read8, read0, read4]
    exact Or.inr ⟨Nat.not_lt.mp short, _,
      ⟨small0, small4, Nat.mod_lt _ (by decide), Nat.mod_lt _ (by decide)⟩, rfl⟩

end HsExtFields

/-! ## Strings -/

def chunksOfFour : Bytes -> List Bytes
  | [] => []
  | [a] => [[a]]
  | [a, b] => [[a, b]]
  | [a, b, c] => [[a, b, c]]
  | a :: b :: c :: d :: rest => [a, b, c, d] :: chunksOfFour rest

/-- A word of four bytes, padded with zeros and reversed. -/
def packWord (chunk : Bytes) : Bytes :=
  (chunk ++ List.replicate (4 - chunk.length) 0).reverse

def packBytesWords (bytes : Bytes) : Bytes :=
  (chunksOfFour bytes).flatMap packWord

def trimNul (bytes : Bytes) : Bytes :=
  bytes.rdropWhile (· == 0)

def unpackBytesWords (content : Bytes) : Parsed Bytes := do
  let words <- (chunksOfFour content).mapM fun chunk => do
    -- The chunk is copied to the front of a word of four zeros.
    let front <- Reading.slice (List.replicate 4 (0 : UInt8)) 0 chunk.length
    let chunk <- Reading.fixed front.length chunk
    return packWord chunk
  return trimNul words.flatten

theorem length_chunk {bytes chunk : Bytes} (member : chunk ∈ chunksOfFour bytes) :
    chunk.length ≤ 4 := by
  induction bytes using chunksOfFour.induct with
  | case1 => cases member
  | case2 a =>
      rw [List.mem_singleton.mp member]
      simp
  | case3 a b =>
      rw [List.mem_singleton.mp member]
      simp
  | case4 a b c =>
      rw [List.mem_singleton.mp member]
      simp
  | case5 a b c d rest ih =>
      rcases List.mem_cons.mp member with rfl | later
      · exact le_refl 4
      · exact ih later

/-- Unpacking never fails. -/
theorem unpackBytesWords_eq (content : Bytes) :
    unpackBytesWords content = .ok (trimNul (packBytesWords content)) := by
  have words (chunks : List Bytes) (short : forall chunk, chunk ∈ chunks -> chunk.length ≤ 4) :
      (chunks.mapM fun chunk => do
        let front <- Reading.slice (List.replicate 4 (0 : UInt8)) 0 chunk.length
        let chunk <- Reading.fixed front.length chunk
        return packWord chunk) = (.ok (chunks.map packWord) : Parsed (List Bytes)) := by
    induction chunks with
    | nil => rfl
    | cons chunk chunks ih =>
        have fits := short chunk List.mem_cons_self
        rw [List.mapM_cons, Reading.slice_ok (Nat.zero_le _) (by rw [List.length_replicate]; exact fits),
          Reading.ok_bind, Reading.fixed_ok (by simp [fits]), Reading.ok_bind, Reading.pure_bind,
          ih fun other later => short other (List.mem_cons_of_mem _ later)]
        rfl
  unfold unpackBytesWords packBytesWords
  rw [words _ fun chunk member => length_chunk member, Reading.ok_bind, List.flatMap_def]
  rfl

@[simp]
theorem length_packBytesWords (bytes : Bytes) :
    (packBytesWords bytes).length = (bytes.length + 3) / 4 * 4 := by
  unfold packBytesWords
  induction bytes using chunksOfFour.induct with
  | case5 a b c d rest ih =>
      rw [chunksOfFour, List.flatMap_cons, List.length_append, ih]
      change 4 + _ = (rest.length + 4 + 3) / 4 * 4
      omega
  | _ => simp [chunksOfFour, packWord]

/-- Packing a word is reversing it. -/
theorem packBytesWords_cons (a b c d : UInt8) (rest : Bytes) :
    packBytesWords (a :: b :: c :: d :: rest) = d :: c :: b :: a :: packBytesWords rest :=
  rfl

/-- Packing twice pads the string to whole words. -/
theorem packBytesWords_twice (bytes : Bytes) :
    packBytesWords (packBytesWords bytes) =
      bytes ++ List.replicate ((bytes.length + 3) / 4 * 4 - bytes.length) 0 := by
  induction bytes using chunksOfFour.induct with
  | case5 a b c d rest ih =>
      have same : (rest.length + 4 + 3) / 4 * 4 - (rest.length + 4) =
          (rest.length + 3) / 4 * 4 - rest.length := by omega
      rw [packBytesWords_cons, packBytesWords_cons, ih]
      change _ = (a :: b :: c :: d :: rest) ++
        List.replicate ((rest.length + 4 + 3) / 4 * 4 - (rest.length + 4)) 0
      rw [same]
      rfl
  | _ => simp [packBytesWords, chunksOfFour, packWord]

/-- Whole words at the front are packed by themselves. -/
theorem take_packBytesWords (bytes : Bytes) (words : Nat) :
    (packBytesWords bytes).take (words * 4) = packBytesWords (bytes.take (words * 4)) := by
  induction bytes using chunksOfFour.induct generalizing words with
  | case5 a b c d rest ih =>
      cases words with
      | zero => rfl
      | succ words =>
          have next : (words + 1) * 4 = words * 4 + 1 + 1 + 1 + 1 := by omega
          rw [packBytesWords_cons, next]
          simp only [List.take_succ_cons]
          rw [packBytesWords_cons, ih]
  | _ =>
      cases words with
      | zero => rfl
      | succ words =>
          rw [List.take_of_length_le (by rw [length_packBytesWords]; simp),
            List.take_of_length_le (by simp <;> omega)]

theorem trimNul_replicate (bytes : Bytes) (count : Nat) :
    trimNul (bytes ++ List.replicate count 0) = trimNul bytes := by
  unfold trimNul
  induction count with
  | zero => rw [List.replicate_zero, List.append_nil]
  | succ count ih =>
      rw [List.replicate_succ', ← List.append_assoc, List.rdropWhile_concat_pos _ _ _ rfl, ih]

theorem trimNul_of_getLast? {bytes : Bytes} (last : bytes.getLast? ≠ some 0) :
    trimNul bytes = bytes := by
  unfold trimNul
  rw [List.rdropWhile_eq_self_iff]
  intro nonempty zero
  apply last
  rw [List.getLast?_eq_some_getLast nonempty, eq_of_beq zero]

theorem getLast?_trimNul (bytes : Bytes) : (trimNul bytes).getLast? ≠ some 0 := by
  unfold trimNul
  intro zero
  have nonempty : bytes.rdropWhile (· == 0) ≠ [] := by
    intro empty
    rw [empty] at zero
    cases zero
  apply List.rdropWhile_last_not _ _ nonempty
  rw [List.getLast?_eq_some_getLast nonempty] at zero
  rw [Option.some.inj zero]
  rfl

theorem trimNul_start (bytes : Bytes) : trimNul bytes <+: bytes :=
  List.rdropWhile_prefix _ _

/-! ## Extension blocks -/

namespace HsExtension

def cmd : HsExtension -> Nat
  | hsReq _ => srtCmdHsreq
  | hsRsp _ => srtCmdHsrsp
  | streamId _ => srtCmdSid
  | kmReq _ => srtCmdKmreq
  | kmRsp _ => srtCmdKmrsp
  | congestion _ => srtCmdCongestion
  | invalid cmd _ => cmd
  | unknown cmd _ => cmd

def content : HsExtension -> Bytes
  | hsReq fields => fields.encode
  | hsRsp fields => fields.encode
  | streamId sid => packBytesWords sid
  | congestion name => packBytesWords name
  | kmReq data => data
  | kmRsp data => data
  | invalid _ data => data
  | unknown _ data => data

/-- The length of the content is counted in words and cut to 16 bits. -/
def encode (self : HsExtension) : Bytes :=
  putU16 self.cmd ++ (putU16 (self.content.length / 4) ++ self.content)

@[simp]
theorem length_encode (self : HsExtension) : self.encode.length = 4 + self.content.length := by
  unfold encode
  simp only [List.length_append, length_putU16]
  omega

/-- The block is a value of the source's type. -/
def Typed : HsExtension -> Prop
  | hsReq fields => fields.Typed
  | hsRsp fields => fields.Typed
  | streamId sid => Utf8.Text sid
  | congestion name => Utf8.Text name
  | kmReq _ => True
  | kmRsp _ => True
  | invalid cmd _ => cmd < 2 ^ 16
  | unknown cmd _ => cmd < 2 ^ 16

def WholeWords (data : Bytes) : Prop :=
  data.length % 4 = 0 ∧ data.length / 4 ≤ 65535

/-- The parser can have produced the block, up to the length of its string. -/
def Shaped : HsExtension -> Prop
  | hsReq _ => True
  | hsRsp _ => True
  | streamId sid => sid.getLast? ≠ some 0
  | congestion name => name.getLast? ≠ some 0
  | kmReq data => WholeWords data
  | kmRsp data => WholeWords data
  | invalid cmd data =>
      WholeWords data ∧
        ((cmd = srtCmdHsreq ∨ cmd = srtCmdHsrsp) ∧ data.length < 12 ∨
          cmd = srtCmdSid ∧ (data.length = 0 ∨ 512 < data.length))
  | unknown cmd data => WholeWords data ∧ (cmd < 1 ∨ 6 < cmd)

/-- The string of the block has a length that the parser takes back. -/
def Fits : HsExtension -> Prop
  | streamId sid => 1 ≤ sid.length ∧ sid.length ≤ 512
  | congestion name => name.length ≤ 262140
  | _ => True

theorem cmd_lt {self : HsExtension} (typed : self.Typed) : self.cmd < 2 ^ 16 := by
  cases self with
  | invalid cmd data => exact typed
  | unknown cmd data => exact typed
  | _ =>
      simp [cmd, srtCmdHsreq, srtCmdHsrsp, srtCmdKmreq, srtCmdKmrsp, srtCmdSid, srtCmdCongestion]

theorem wholeWords_content {self : HsExtension} (shaped : self.Shaped) (fits : self.Fits) :
    WholeWords self.content := by
  cases self with
  | hsReq fields =>
      unfold WholeWords content
      rw [HsExtFields.length_encode]
      decide
  | hsRsp fields =>
      unfold WholeWords content
      rw [HsExtFields.length_encode]
      decide
  | streamId sid =>
      have small : sid.length ≤ 512 := fits.2
      unfold WholeWords content
      rw [length_packBytesWords]
      omega
  | congestion name =>
      have small : name.length ≤ 262140 := fits
      unfold WholeWords content
      rw [length_packBytesWords]
      omega
  | kmReq data => exact shaped
  | kmRsp data => exact shaped
  | invalid cmd data => exact shaped.1
  | unknown cmd data => exact shaped.1

end HsExtension

/-- Decodes one block. -/
def parseExtension (cmd : Nat) (content : Bytes) : Parsed HsExtension :=
  if cmd = srtCmdHsreq ∨ cmd = srtCmdHsrsp then
    match HsExtFields.parse content with
    | .ok fields => .ok (if cmd = srtCmdHsreq then .hsReq fields else .hsRsp fields)
    | .error (.rejected _) => .ok (.invalid cmd content)
    | .error stop => .error stop
  else if cmd = srtCmdKmreq then .ok (.kmReq content)
  else if cmd = srtCmdKmrsp then .ok (.kmRsp content)
  else if cmd = srtCmdSid then
    if content = [] ∨ 512 < content.length then .ok (.invalid cmd content)
    else do
      let bytes <- unpackBytesWords content
      return .streamId (Utf8.lossy bytes)
  else if cmd = srtCmdCongestion then do
    let bytes <- unpackBytesWords content
    return .congestion (Utf8.lossy bytes)
  else .ok (.unknown cmd content)

/-- One block from the front of the buffer; up to three bytes at the end are ignored. -/
def extensionStep (buf : Bytes) : Parsed (Option (HsExtension × Bytes)) :=
  if 4 ≤ buf.length then do
    let cmd <- readU16 buf 0
    let words <- readU16 buf 2
    let contentLen := words * 4
    if buf.length - 4 < contentLen then reject (.badHandshake "truncated extension block")
    else do
      let content <- Reading.slice buf 4 (4 + contentLen)
      let ext <- parseExtension cmd content
      let rest <- Reading.sliceFrom buf (4 + contentLen)
      return some (ext, rest)
  else return none

def parseExtensions (buf : Bytes) : Parsed (List HsExtension) :=
  Reading.loop extensionStep (buf.length / 4 + 1) buf

/-! ### The commands -/

theorem parseExtension_hello {cmd : Nat} (hello : cmd = srtCmdHsreq ∨ cmd = srtCmdHsrsp)
    (content : Bytes) :
    parseExtension cmd content =
      match HsExtFields.parse content with
      | .ok fields => .ok (if cmd = srtCmdHsreq then .hsReq fields else .hsRsp fields)
      | .error (.rejected _) => .ok (.invalid cmd content)
      | .error stop => .error stop :=
  if_pos hello

theorem parseExtension_sid (content : Bytes) :
    parseExtension srtCmdSid content =
      if content = [] ∨ 512 < content.length then .ok (.invalid srtCmdSid content)
      else .ok (.streamId (Utf8.lossy (trimNul (packBytesWords content)))) := by
  unfold parseExtension
  rw [if_neg (by decide), if_neg (by decide), if_neg (by decide), if_pos rfl,
    unpackBytesWords_eq]
  rfl

theorem parseExtension_congestion (content : Bytes) :
    parseExtension srtCmdCongestion content =
      .ok (.congestion (Utf8.lossy (trimNul (packBytesWords content)))) := by
  unfold parseExtension
  rw [if_neg (by decide), if_neg (by decide), if_neg (by decide), if_neg (by decide), if_pos rfl,
    unpackBytesWords_eq]
  rfl

theorem parseExtension_unknown {cmd : Nat} (outside : cmd < 1 ∨ 6 < cmd) (content : Bytes) :
    parseExtension cmd content = .ok (.unknown cmd content) := by
  unfold parseExtension srtCmdHsreq srtCmdHsrsp srtCmdKmreq srtCmdKmrsp srtCmdSid srtCmdCongestion
  rw [if_neg (by omega), if_neg (by omega), if_neg (by omega), if_neg (by omega),
    if_neg (by omega)]

/-! ### Blocks that were encoded -/

theorem trimNul_packBytesWords {bytes : Bytes} (last : bytes.getLast? ≠ some 0) :
    trimNul (packBytesWords (packBytesWords bytes)) = bytes := by
  rw [packBytesWords_twice, trimNul_replicate, trimNul_of_getLast? last]

/-- The parser takes back the content of a block. -/
theorem parseExtension_content {ext : HsExtension} (typed : ext.Typed) (shaped : ext.Shaped)
    (fits : ext.Fits) : parseExtension ext.cmd ext.content = .ok ext := by
  cases ext with
  | hsReq fields =>
      change parseExtension srtCmdHsreq fields.encode = _
      rw [parseExtension_hello (Or.inl rfl), HsExtFields.parse_encode typed]
      rfl
  | hsRsp fields =>
      change parseExtension srtCmdHsrsp fields.encode = _
      rw [parseExtension_hello (Or.inr rfl), HsExtFields.parse_encode typed]
      rfl
  | kmReq data => rfl
  | kmRsp data => rfl
  | streamId sid =>
      rcases (fits : 1 ≤ sid.length ∧ sid.length ≤ 512) with ⟨positive, small⟩
      have long : ¬(packBytesWords sid = [] ∨ 512 < (packBytesWords sid).length) := by
        rw [← List.length_eq_zero_iff, length_packBytesWords]
        omega
      change parseExtension srtCmdSid (packBytesWords sid) = _
      rw [parseExtension_sid, if_neg long, trimNul_packBytesWords shaped, Utf8.lossy_text typed]
  | congestion name =>
      change parseExtension srtCmdCongestion (packBytesWords name) = _
      rw [parseExtension_congestion, trimNul_packBytesWords shaped, Utf8.lossy_text typed]
  | invalid cmd data =>
      change parseExtension cmd data = _
      rcases shaped.2 with ⟨hello, short⟩ | ⟨rfl, size⟩
      · rw [parseExtension_hello hello]
        rcases HsExtFields.parse_cases data with ⟨_, err, refused⟩ | ⟨long, _⟩
        · rw [refused]
          rfl
        · omega
      · rw [parseExtension_sid, if_pos]
        rw [← List.length_eq_zero_iff]
        exact size
  | unknown cmd data => exact parseExtension_unknown shaped.2 data

/-- What the parser makes of a block in front of other bytes: the length of the content is
cut to 16 bits. -/
theorem extensionStep_encode {ext : HsExtension} (typed : ext.Typed)
    (words : ext.content.length % 4 = 0) (rest : Bytes) :
    extensionStep (ext.encode ++ rest) = do
      let parsed <- parseExtension ext.cmd
        (ext.content.take (ext.content.length / 4 % 2 ^ 16 * 4))
      return some (parsed, (ext.content ++ rest).drop (ext.content.length / 4 % 2 ^ 16 * 4)) := by
  have below : ext.content.length / 4 % 2 ^ 16 ≤ ext.content.length / 4 := Nat.mod_le _ _
  have shape : ext.encode ++ rest =
      putU16 ext.cmd ++ (putU16 (ext.content.length / 4) ++ (ext.content ++ rest)) := by
    unfold HsExtension.encode
    simp only [List.append_assoc]
  have length : (ext.encode ++ rest).length = 4 + ext.content.length + rest.length := by
    rw [List.length_append, HsExtension.length_encode]
  have behind : (ext.encode ++ rest).drop 4 = ext.content ++ rest := by
    rw [shape, drop_putU16 _ _ 2, drop_putU16 _ _ 0, List.drop_zero]
  have first : readU16 (ext.encode ++ rest) 0 = .ok ext.cmd := by
    rw [shape, readU16_putU16 (HsExtension.cmd_lt typed)]
  have second : readU16 (ext.encode ++ rest) 2 = .ok (ext.content.length / 4 % 2 ^ 16) := by
    rw [shape, readU16_after_putU16 _ _ 0, readU16_putU16_mod]
  unfold extensionStep
  rw [if_pos (by omega), first, Reading.ok_bind, second, Reading.ok_bind]
  dsimp only
  rw [if_neg (by omega), Reading.slice_ok (by omega) (by omega), Reading.ok_bind,
    Reading.sliceFrom_ok (by omega), behind, Nat.add_sub_cancel_left,
    List.take_append_of_le_length (by omega), ← List.drop_drop, behind]
  rfl

/-- A block whose length fits is taken off the front. -/
theorem extensionStep_encode_of_whole {ext : HsExtension} (typed : ext.Typed)
    (whole : HsExtension.WholeWords ext.content) (rest : Bytes) :
    extensionStep (ext.encode ++ rest) = do
      let parsed <- parseExtension ext.cmd ext.content
      return some (parsed, rest) := by
  rcases whole with ⟨words, small⟩
  have content : ext.content.length / 4 % 2 ^ 16 * 4 = ext.content.length := by omega
  rw [extensionStep_encode typed words, content, List.take_length, List.drop_left]

theorem length_le_encode (exts : List HsExtension) :
    exts.length ≤ (exts.flatMap HsExtension.encode).length / 4 := by
  have bound : 4 * exts.length ≤ (exts.flatMap HsExtension.encode).length := by
    induction exts with
    | nil => exact Nat.le_refl _
    | cons ext exts ih =>
        rw [List.flatMap_cons, List.length_append, List.length_cons, HsExtension.length_encode]
        omega
  omega

/-- The parser takes back the blocks that were encoded. -/
theorem parseExtensions_encode {exts : List HsExtension}
    (good : forall ext, ext ∈ exts -> ext.Typed ∧ ext.Shaped ∧ ext.Fits) :
    parseExtensions (exts.flatMap HsExtension.encode) = .ok exts := by
  have loops (fuel : Nat) (enough : exts.length ≤ fuel) :
      Reading.loop extensionStep (fuel + 1) (exts.flatMap HsExtension.encode) = .ok exts := by
    induction exts generalizing fuel with
    | nil => exact Reading.loop_done rfl
    | cons ext exts ih =>
        rcases good ext List.mem_cons_self with ⟨typed, shaped, fits⟩
        cases fuel with
        | zero => cases enough
        | succ fuel =>
            have step : extensionStep ((ext :: exts).flatMap HsExtension.encode) =
                .ok (some (ext, exts.flatMap HsExtension.encode)) := by
              rw [List.flatMap_cons,
                extensionStep_encode_of_whole typed (HsExtension.wholeWords_content shaped fits),
                parseExtension_content typed shaped fits]
              rfl
            rw [Reading.loop_next step, ih (fun other later =>
              good other (List.mem_cons_of_mem _ later)) fuel (Nat.le_of_succ_le_succ enough)]
            rfl
  exact loops _ (length_le_encode exts)

/-! ### Blocks that were parsed -/

/-- Whatever a block holds, the parser makes a block of it. -/
theorem parseExtension_shaped {cmd : Nat} (small : cmd < 2 ^ 16) {content : Bytes}
    (whole : HsExtension.WholeWords content) :
    Exists fun ext : HsExtension =>
      parseExtension cmd content = .ok ext ∧ ext.Typed ∧ ext.Shaped := by
  have text (bytes : Bytes) : Utf8.Text (Utf8.lossy (trimNul bytes)) ∧
      (Utf8.lossy (trimNul bytes)).getLast? ≠ some 0 :=
    ⟨Utf8.text_lossy _, fun zero => getLast?_trimNul bytes (Utf8.getLast?_of_lossy zero)⟩
  by_cases hello : cmd = srtCmdHsreq ∨ cmd = srtCmdHsrsp
  · rw [parseExtension_hello hello]
    rcases HsExtFields.parse_cases content with ⟨short, err, refused⟩ | ⟨_, fields, typed, read⟩
    · rw [refused]
      exact ⟨_, rfl, small, whole, Or.inl ⟨hello, short⟩⟩
    · rw [read]
      refine ⟨_, rfl, ?_⟩
      split_ifs
      · exact ⟨typed, trivial⟩
      · exact ⟨typed, trivial⟩
  · by_cases request : cmd = srtCmdKmreq
    · subst request
      exact ⟨.kmReq content, rfl, trivial, whole⟩
    · by_cases response : cmd = srtCmdKmrsp
      · subst response
        exact ⟨.kmRsp content, rfl, trivial, whole⟩
      · by_cases stream : cmd = srtCmdSid
        · subst stream
          rw [parseExtension_sid]
          split_ifs with size
          · rw [← List.length_eq_zero_iff] at size
            exact ⟨_, rfl, small, whole, Or.inr ⟨rfl, size⟩⟩
          · exact ⟨_, rfl, (text _).1, (text _).2⟩
        · by_cases controller : cmd = srtCmdCongestion
          · subst controller
            exact ⟨_, parseExtension_congestion content, (text _).1, (text _).2⟩
          · unfold srtCmdHsreq srtCmdHsrsp at hello
            unfold srtCmdKmreq at request
            unfold srtCmdKmrsp at response
            unfold srtCmdSid at stream
            unfold srtCmdCongestion at controller
            have outside : cmd < 1 ∨ 6 < cmd := by omega
            exact ⟨_, parseExtension_unknown outside content, small, whole, outside⟩

/-- What one iteration does: the buffer is used up, it ends inside a block, or a block of at
least four bytes is taken off its front. -/
theorem extensionStep_cases (buf : Bytes) :
    (extensionStep buf = .ok none) ∨ (Exists fun err => extensionStep buf = reject err) ∨
      Exists fun ext : HsExtension => Exists fun rest =>
        extensionStep buf = .ok (some (ext, rest)) ∧ rest.length + 4 ≤ buf.length ∧
          ext.Typed ∧ ext.Shaped := by
  unfold extensionStep
  split_ifs with long
  · rcases readU16_ok (by omega : 0 + 2 ≤ buf.length) with ⟨cmd, read0, small⟩
    rcases readU16_ok (by omega : 2 + 2 ≤ buf.length) with ⟨words, read2, few⟩
    rw [read0, Reading.ok_bind, read2, Reading.ok_bind]
    dsimp only
    split_ifs with cut
    · exact Or.inr (Or.inl ⟨_, rfl⟩)
    · have whole : HsExtension.WholeWords ((buf.drop 4).take (4 + words * 4 - 4)) := by
        unfold HsExtension.WholeWords
        rw [List.length_take, List.length_drop]
        omega
      rcases parseExtension_shaped small whole with ⟨ext, parsed, good⟩
      rw [Reading.slice_ok (by omega) (by omega), Reading.ok_bind, parsed, Reading.ok_bind,
        Reading.sliceFrom_ok (by omega)]
      refine Or.inr (Or.inr ⟨ext, _, rfl, ?_, good⟩)
      rw [List.length_drop]
      omega
  · exact Or.inl rfl

theorem extensionStep_safe (buf : Bytes) : (extensionStep buf).Safe := by
  rcases extensionStep_cases buf with ended | ⟨err, refused⟩ | ⟨ext, rest, moved, _⟩
  · rw [ended]
    exact .ok _
  · rw [refused]
    exact .rejected err
  · rw [moved]
    exact .ok _

/-- Every iteration consumes at least the four bytes of a block's header. -/
theorem extensionStep_consumes {buf rest : Bytes} {ext : HsExtension}
    (moved : extensionStep buf = .ok (some (ext, rest))) :
    rest.length + 4 ≤ buf.length ∧ ext.Typed ∧ ext.Shaped := by
  rcases extensionStep_cases buf with ended | ⟨err, refused⟩ | ⟨ext, rest, again, facts⟩
  · rw [ended] at moved
    cases moved
  · rw [refused] at moved
    cases moved
  · rw [again] at moved
    cases moved
    exact facts

theorem parseExtensions_safe (buf : Bytes) : (parseExtensions buf).Safe := by
  apply Reading.loop_safe (fun buf => buf.length / 4) extensionStep_safe
  · intro buf ext rest moved
    have consumed := (extensionStep_consumes moved).1
    omega
  · exact Nat.lt_succ_self _

theorem parseExtensions_shaped {buf : Bytes} {exts : List HsExtension}
    (parsed : parseExtensions buf = .ok exts) {ext : HsExtension} (member : ext ∈ exts) :
    ext.Typed ∧ ext.Shaped :=
  Reading.loop_forall (fun ext : HsExtension => ext.Typed ∧ ext.Shaped)
    (fun _ _ _ moved => (extensionStep_consumes moved).2) parsed ext member

/-! ## The CIF -/

namespace HandshakeCif

def parseCif (buf : Bytes) : Parsed HandshakeCif :=
  if buf.length < cifSize then reject .tooShort
  else do
    let isn <- readU32 buf 8
    if SeqNumber.mask ≤ isn then reject (.badHandshake "ISN outside valid range")
    else do
      let handshakeType <- HandshakeType.fromU32 (<- readU32 buf 20)
      let peerIp <- Reading.fixed 16 (<- Reading.slice buf 32 48)
      let extensions <- parseExtensions (<- Reading.sliceFrom buf cifSize)
      let version <- readU32 buf 0
      let encryption <- readU16 buf 4
      let extensionField <- readU16 buf 6
      let mss <- readU32 buf 12
      let flowWindow <- readU32 buf 16
      let socketId <- readU32 buf 24
      let cookie <- readU32 buf 28
      return {
        version := version
        encryption := encryption
        extensionField := extensionField
        initialSeq := SeqNumber.new isn
        mss := mss
        flowWindow := flowWindow
        handshakeType := handshakeType
        socketId := ⟨UInt32.ofNat socketId⟩
        cookie := cookie
        peerIp := peerIp
        extensions := extensions }

/-- The Extension Field bit of a block. -/
def extensionBit : HsExtension -> Nat
  | .hsReq _ => hsExtHsreq
  | .hsRsp _ => hsExtHsreq
  | .kmReq _ => hsExtKmreq
  | .kmRsp _ => hsExtKmreq
  | .streamId _ => hsExtConfig
  | .congestion _ => hsExtConfig
  | .unknown _ _ => hsExtConfig
  | .invalid cmd _ =>
      if cmd = srtCmdHsreq ∨ cmd = srtCmdHsrsp then hsExtHsreq
      else if cmd = srtCmdKmreq ∨ cmd = srtCmdKmrsp then hsExtKmreq
      else hsExtConfig

/-- The Extension Field bits that the attached blocks imply. -/
def extensionBits (self : HandshakeCif) : Nat :=
  self.extensions.foldl (fun bits ext => bits ||| extensionBit ext) 0

/-- With blocks attached the Extension Field is derived from them. -/
def encodeCif (self : HandshakeCif) : Bytes :=
  putU32 self.version ++ (putU16 self.encryption ++
    (putU16 (if self.extensions = [] then self.extensionField else self.extensionBits) ++
      (putU32 self.initialSeq.value ++ (putU32 self.mss ++ (putU32 self.flowWindow ++
        (putU32 self.handshakeType.toU32 ++ (putU32 self.socketId.value.toNat ++
          (putU32 self.cookie ++ (self.peerIp ++
            self.extensions.flatMap HsExtension.encode)))))))))

/-- The CIF is a value of the source's type. -/
structure Typed (cif : HandshakeCif) : Prop where
  version : cif.version < 2 ^ 32
  encryption : cif.encryption < 2 ^ 16
  extensionField : cif.extensionField < 2 ^ 16
  mss : cif.mss < 2 ^ 32
  flowWindow : cif.flowWindow < 2 ^ 32
  cookie : cif.cookie < 2 ^ 32
  peerIp : cif.peerIp.length = 16
  extensions : forall ext, ext ∈ cif.extensions -> ext.Typed

/-- The initial sequence, the type and the blocks are as the parser leaves them, up to the
lengths of strings. -/
structure Shaped (cif : HandshakeCif) : Prop where
  initialSeq : cif.initialSeq.value < SeqNumber.mask
  handshakeType : cif.handshakeType.WellFormed
  extensions : forall ext, ext ∈ cif.extensions -> ext.Shaped

/-- The Extension Field is the one that the blocks imply. -/
def Consistent (cif : HandshakeCif) : Prop :=
  cif.extensions ≠ [] -> cif.extensionField = cif.extensionBits

def Fits (cif : HandshakeCif) : Prop :=
  forall ext, ext ∈ cif.extensions -> ext.Fits

/-- What is read back from an encoded CIF, whatever becomes of its blocks. -/
theorem parseCif_encodeCif {self : HandshakeCif} (typed : self.Typed) (shaped : self.Shaped)
    (consistent : self.Consistent) :
    parseCif self.encodeCif = do
      let extensions <- parseExtensions (self.extensions.flatMap HsExtension.encode)
      return { self with extensions := extensions } := by
  have field : (if self.extensions = [] then self.extensionField else self.extensionBits) =
      self.extensionField := by
    split_ifs with empty
    · rfl
    · exact (consistent empty).symm
  have long : 48 ≤ self.encodeCif.length := by
    unfold encodeCif
    simp only [List.length_append, length_putU32, length_putU16, typed.peerIp]
    omega
  have address : (self.encodeCif.drop 32).take 16 = self.peerIp := by
    unfold encodeCif
    simp only [drop_putU32, drop_putU16, List.drop_zero]
    exact List.take_left' typed.peerIp
  have blocks : self.encodeCif.drop 48 = self.extensions.flatMap HsExtension.encode := by
    unfold encodeCif
    simp only [drop_putU32, drop_putU16, List.drop_left' typed.peerIp]
  have sequence : self.initialSeq.value < 2 ^ 32 := lt_trans self.initialSeq.value_lt (by decide)
  have target := self.socketId.value.toNat_lt
  unfold parseCif
  rw [if_neg (Nat.not_lt.mpr long), Reading.slice_ok (by decide) long, Reading.sliceFrom_ok long, address,
    blocks]
  unfold encodeCif
  rw [field]
  simp only [readU32_after_putU32, readU32_after_putU16, readU16_after_putU32, readU16_after_putU16,
    readU32_putU32 sequence, readU32_putU32 typed.version, readU16_putU16 typed.encryption,
    readU16_putU16 typed.extensionField, readU32_putU32 typed.mss, readU32_putU32 typed.flowWindow,
    readU32_putU32 (HandshakeType.toU32_lt shaped.handshakeType), readU32_putU32 target,
    readU32_putU32 typed.cookie, Reading.ok_bind]
  rw [if_neg (Nat.not_le.mpr shaped.initialSeq),
    HandshakeType.fromU32_toU32 shaped.handshakeType, Reading.ok_bind, Reading.fixed_ok typed.peerIp,
    Reading.ok_bind, SeqNumber.new_value, UInt32.ofNat_toNat]

/-- Parsing undoes encoding if the strings fit. -/
theorem parseCif_encodeCif_of_fits {self : HandshakeCif} (typed : self.Typed)
    (shaped : self.Shaped) (consistent : self.Consistent) (fits : self.Fits) :
    parseCif self.encodeCif = .ok self := by
  rw [parseCif_encodeCif typed shaped consistent, parseExtensions_encode fun ext member =>
    ⟨typed.extensions ext member, shaped.extensions ext member, fits ext member⟩]
  rfl

/-- What the parser makes of a buffer. -/
theorem parseCif_cases (buf : Bytes) :
    (Exists fun err => parseCif buf = reject err) ∨
      Exists fun cif : HandshakeCif => parseCif buf = .ok cif ∧ cif.Typed ∧ cif.Shaped := by
  unfold parseCif
  split_ifs with short
  · exact Or.inl ⟨_, rfl⟩
  · have long : 48 ≤ buf.length := Nat.not_lt.mp short
    rcases readU32_ok (by omega : 8 + 4 ≤ buf.length) with ⟨isn, read8, _⟩
    rcases readU32_ok (by omega : 20 + 4 ≤ buf.length) with ⟨code, read20, _⟩
    rcases readU32_ok (by omega : 0 + 4 ≤ buf.length) with ⟨version, read0, small0⟩
    rcases readU16_ok (by omega : 4 + 2 ≤ buf.length) with ⟨encryption, read4, small4⟩
    rcases readU16_ok (by omega : 6 + 2 ≤ buf.length) with ⟨field, read6, small6⟩
    rcases readU32_ok (by omega : 12 + 4 ≤ buf.length) with ⟨mss, read12, small12⟩
    rcases readU32_ok (by omega : 16 + 4 ≤ buf.length) with ⟨window, read16, small16⟩
    rcases readU32_ok (by omega : 24 + 4 ≤ buf.length) with ⟨socket, read24, _⟩
    rcases readU32_ok (by omega : 28 + 4 ≤ buf.length) with ⟨cookie, read28, small28⟩
    have address : ((buf.drop 32).take (48 - 32)).length = 16 := by
      rw [List.length_take, List.length_drop]
      omega
    rw [read8, Reading.ok_bind]
    split_ifs with far
    · exact Or.inl ⟨_, rfl⟩
    · rw [read20, Reading.ok_bind]
      rcases HandshakeType.fromU32_safe code with ⟨handshakeType, known⟩ | ⟨err, unknown⟩
      · rw [known, Reading.ok_bind, Reading.slice_ok (by decide) long, Reading.ok_bind,
          Reading.fixed_ok address, Reading.ok_bind, Reading.sliceFrom_ok long, Reading.ok_bind]
        rcases parseExtensions_safe (buf.drop 48) with ⟨extensions, parsed⟩ | ⟨err, refused⟩
        · rw [parsed, read0, read4, read6, read12, read16, read24, read28]
          refine Or.inr ⟨_, rfl, ?_, ?_⟩
          · exact ⟨small0, small4, small6, small12, small16, small28, address,
              fun ext member => (parseExtensions_shaped parsed member).1⟩
          · refine ⟨?_, HandshakeType.fromU32_wellFormed known,
              fun ext member => (parseExtensions_shaped parsed member).2⟩
            exact lt_of_le_of_lt (Nat.mod_le _ _) (Nat.not_le.mp far)
        · rw [refused]
          exact Or.inl ⟨err, rfl⟩
      · rw [unknown]
        exact Or.inl ⟨err, rfl⟩

end HandshakeCif

end Rsrt
