import Rsrt.Core.RefreshSafety
import Rsrt.Core.Veil

namespace Rsrt

open Rsrt.Basis SeqNumber

/-!
# Two connections in step

A connection with an engine and one without, given the same submissions, polls, arrivals
and timers.  Each has messages that the other lacks, such as key messages, and these move
on their own.  As long as no key is switched and the engine reads what arrives, the
receivers stay equal, the senders differ only in what encryption changes, and what leaves
one connection is reflected by what leaves the other.
-/

/-! ## Without a switch the even slot is the only one in use -/

namespace Crypto

/-- No switch lies between the two engines. -/
def Stays (c c' : Crypto) : Prop :=
  c'.keySwitches = 0 -> c.keySwitches = 0 ∧ c'.active = c.active

theorem Stays.of_eq {c c' : Crypto} (switches : c'.keySwitches = c.keySwitches)
    (active : c'.active = c.active) : Stays c c' :=
  fun none => ⟨switches ▸ none, active⟩

theorem onAck_stays {P : Primitives} (c : Crypto) (now : Instant) (srttUs : Nat)
    (fresh : SecretKey) : Stays c (c.onAck P now srttUs fresh).1 := by
  rcases @onAck_cases P c now srttUs fresh with ⟨_, out, acked⟩ | ⟨_, c', out, acked, moved⟩
  · rw [acked]
    exact .of_eq rfl rfl
  · rw [acked]
    rcases moved with ⟨rfl, _⟩ | ticks
    · exact .of_eq rfl rfl
    · cases ticks with
      | rest early => exact .of_eq rfl rfl
      | switch idle announced =>
          intro none
          cases none
      | decommission idle deprecated => exact .of_eq rfl rfl

theorem handleKmrsp_stays (c : Crypto) {payload : Bytes} (long : 4 < payload.length) :
    Stays c (c.handleKmrsp payload).1 := by
  unfold Crypto.handleKmrsp
  rw [parse_of_long long]
  dsimp only
  split_ifs
  · exact .of_eq rfl rfl
  · exact .of_eq rfl rfl

end Crypto

/-- The packet that would carry the payload without encryption. -/
def DataPacket.unsealed (packet : DataPacket) (payload : Bytes) : DataPacket :=
  { packet with encryption := .none, payload }

theorem DataPacket.eq_unsealed {sealed plain : DataPacket} (behind : sealed.veiled = plain.veiled)
    (flags : plain.encryption = .none) : plain = sealed.unsealed plain.payload := by
  rcases sealed with ⟨seq, position, order, encryption, retransmitted, msgNumber, timestamp,
    dstSocketId, payload⟩
  rcases plain with ⟨_, _, _, _, _, _, _, _, _⟩
  cases flags
  rcases DataPacket.mk.inj behind with ⟨rfl, rfl, rfl, _, rfl, rfl, rfl, rfl, _⟩
  rfl

/-- A packet and the one that the other pair has instead. -/
inductive Reflects (accepted : List Bytes) : Flying -> Flying -> Prop
  | same (packet : Packet) : Reflects accepted (none, packet) (none, packet)
  | data {index : Nat} (packet : DataPacket) {payload : Bytes}
      (submitted : accepted[index]? = some payload) :
      Reflects accepted (some index, .data packet) (some index, .data (packet.unsealed payload))

namespace Stack

variable {P : Primitives} {a : Agreement} {slots slots' : SlotPair CtrCipher} {stack : Stack}

/-- Until the first switch everything is sealed with the even key. -/
def Even (stack : Stack) : Prop :=
  forall engine, stack.crypto = some engine -> engine.keySwitches = 0 ->
    engine.active = .even ∧ Exists fun w => Sender.Tracks w stack.sender ∧
      forall entry, entry ∈ w.stream -> Crypto.rxSlot entry.encryption ≠ some .odd

theorem call_stays (ideal : P.Ideal) (agreed : stack.Agreed a slots) {call : Call}
    (hears : Hears P a slots call slots') (quiet : forall now payload, call ≠ .push now payload)
    {engine' : Crypto} (present : (stack.call P call).crypto = some engine') :
    Exists fun engine => stack.crypto = some engine ∧ engine.Stays engine' := by
  rcases agreed.engine with ⟨engine, crypto, agrees, rx⟩
  refine ⟨engine, crypto, ?_⟩
  have same (kept : (stack.call P call).crypto = stack.crypto) : engine.Stays engine' := by
    cases (present.symm.trans kept).trans crypto
    exact .of_eq rfl rfl
  cases hears with
  | push _ now payload => exact absurd rfl (quiet now payload)
  | @keys keys _ sized =>
      have installed := agrees.handleKmreq ideal sized
      change stack.crypto.map (fun engine => (engine.handleKmreq P (a.carrying P keys).encode).1) = _
        at present
      rw [crypto, Option.map_some, installed] at present
      cases present
      exact .of_eq rfl rfl
  | @echo payload _ long =>
      change stack.crypto.map (fun engine => (engine.handleKmrsp payload).1) = _ at present
      rw [crypto, Option.map_some] at present
      cases present
      exact engine.handleKmrsp_stays long
  | @ack now ackNumber cif fresh _ sized =>
      unfold Stack.call at present
      dsimp only at present
      generalize stack.sender.handleAck now ackNumber cif = outcome at present
      rcases outcome with ⟨sender, err | reply⟩
      · cases crypto.symm.trans present
        exact .of_eq rfl rfl
      · change (Connection.refreshKeys P stack.crypto now sender.rtt.1 fresh).1 = _ at present
        rw [crypto] at present
        cases present
        exact engine.onAck_stays now sender.rtt.1 fresh
  | data _ now packet => exact same (agreed.data_crypto now packet)
  | nak _ now ranges => exact same rfl
  | ackAck _ now ackNumber ts => exact same rfl
  | dropRequest _ now msgNumber first last => exact same rfl
  | timer _ now => exact same rfl
  | anchor _ instant ts => exact same rfl
  | transmit _ now => exact same (stack.poll_crypto now)
  | deliver _ now => exact same rfl

theorem rxSlot_sealed {engine : Crypto} (even : engine.active = .even) {seq : SeqNumber}
    {payload wirePayload : Bytes} {crypto : Option Crypto} {flags : EncryptionFlags}
    (sealing : Sender.sealPayload P (some engine) seq payload = (crypto, flags, wirePayload)) :
    Crypto.rxSlot flags ≠ some .odd := by
  unfold Sender.sealPayload at sealing
  dsimp only at sealing
  split_ifs at sealing
  · cases sealing
    exact nofun
  · have flagged : engine.active.flags = flags := congrArg (fun result => result.2.1) sealing
    rw [← flagged, even]
    exact nofun

theorem sealPayload_stays {engine engine' : Crypto} {seq : SeqNumber} {payload wirePayload : Bytes}
    {flags : EncryptionFlags}
    (sealing : Sender.sealPayload P (some engine) seq payload = (some engine', flags, wirePayload)) :
    engine.Stays engine' := by
  unfold Sender.sealPayload at sealing
  dsimp only at sealing
  split_ifs at sealing
  · cases sealing
    exact .of_eq rfl rfl
  · cases sealing
    exact .of_eq rfl rfl

theorem Even.push (even : stack.Even) {engine : Crypto} (present : stack.crypto = some engine)
    (now : Instant) (payload : Bytes) : (stack.call P (.push now payload)).Even := by
  unfold Stack.call
  dsimp only
  cases pushed : stack.sender.push P now payload stack.crypto with
  | error err => exact even
  | ok result =>
      rcases result with ⟨sender, crypto⟩
      intro engine' made switchless
      change crypto = some engine' at made
      subst made
      rcases Sender.push_ok pushed with ⟨_, flags, wirePayload, _, sealing⟩
      rw [present] at sealing
      rcases sealPayload_stays sealing switchless with ⟨none, active⟩
      rcases even engine present none with ⟨isEven, w, tracks, entries⟩
      rcases push_window tracks pushed with ⟨room, entry, stream, _, tracks', _, sealed⟩
      rw [present] at sealed
      refine ⟨active.trans isEven, _, tracks', ?_⟩
      intro other member
      change other ∈ room.stream ++ [entry] at member
      rcases List.mem_append.mp member with old | new
      · exact entries other (stream ▸ old)
      · rw [List.mem_singleton.mp new]
        exact rxSlot_sealed isEven sealed

theorem Even.call (ideal : P.Ideal) (even : stack.Even) (agreed : stack.Agreed a slots)
    {call : Call} (hears : Hears P a slots call slots') : (stack.call P call).Even := by
  rcases agreed.engine with ⟨engine, present, _, _⟩
  by_cases pushes : Exists fun now => Exists fun payload => call = .push now payload
  · rcases pushes with ⟨now, payload, rfl⟩
    exact even.push present now payload
  · have quiet : forall now payload, call ≠ .push now payload :=
      fun now payload same => pushes ⟨now, payload, same⟩
    intro engine' made switchless
    rcases call_stays ideal agreed hears quiet made with ⟨engine, present, stays⟩
    rcases stays switchless with ⟨none, active⟩
    rcases even engine present none with ⟨isEven, w, tracks, entries⟩
    rcases call_window (P := P) tracks quiet with ⟨w', stream, _, tracks', _⟩
    exact ⟨active.trans isEven, w', tracks', stream ▸ entries⟩

theorem Even.calls (ideal : P.Ideal) (even : stack.Even) (agreed : stack.Agreed a slots)
    {calls : List Call} (hears : Carries (Hears P a) slots calls slots') :
    (calls.foldl (Stack.call P) stack).Even := by
  induction hears generalizing stack with
  | done slots => exact even
  | more heard further ih => exact ih (even.call ideal agreed heard) (agreed.call ideal heard)

/-- An entry of the buffer was submitted. -/
theorem mem_stream_of_buffer {w : SendWindow BufEntry} {s : Sender} (tracks : Sender.Tracks w s)
    {entry : BufEntry} (member : entry ∈ s.buffer) : entry.pristine ∈ w.stream := by
  have mapped := List.mem_map_of_mem (f := BufEntry.pristine) member
  rw [tracks.buffer] at mapped
  exact List.mem_of_mem_drop mapped

/-- Before the first switch no announcement can hit a slot in use. -/
theorem Even.careful (even : stack.Even)
    (switchless : forall engine, stack.crypto = some engine -> engine.keySwitches = 0)
    (call : Call) : stack.Careful call := by
  cases call with
  | ack now ackNumber cif fresh =>
      cases present : stack.crypto with
      | none =>
          unfold Careful
          dsimp only
          rw [present]
          split
          case h_1 heq => cases heq
          case h_2 => trivial
      | some engine =>
          rcases even engine present (switchless engine present) with ⟨isEven, w, tracks, entries⟩
          unfold Careful
          dsimp only
          rw [present]
          rcases tracks.acknowledge now ackNumber cif with ⟨w', advanced, tracks'⟩
          generalize stack.sender.handleAck now ackNumber cif = outcome at tracks'
          rcases outcome with ⟨sender, err | reply⟩
          · trivial
          · intro _ entry member
            rw [isEven]
            have submitted := mem_stream_of_buffer tracks' member
            rw [advanced.stream] at submitted
            exact entries entry.pristine submitted
  | _ => trivial

/-- The same confirmations follow. -/
theorem Mirrors.answers {secret clear : Stack} (mirrors : secret.Mirrors clear) (call : Call) :
    secret.answers call = clear.answers call := by
  cases call with
  | ack now ackNumber cif fresh =>
      unfold Stack.answers
      dsimp only
      rw [(mirrors.handleAck now ackNumber cif).2]
  | _ => rfl

/-- The buffer holds the accepted payloads as they are. -/
def Plainly (accepted : List Bytes) (stack : Stack) : Prop :=
  Exists fun w => Sender.Tracks w stack.sender ∧
    Holds (fun _ entry payload => entry.encryption = .none ∧ entry.payload = payload) accepted w

theorem poll_control_index {now : Instant} {index : Option Nat} {packet : ControlPacket}
    (emits : (stack.poll now).2 = some (index, .control packet)) : index = none := by
  unfold Stack.poll at emits
  split at emits
  · cases emits
    rfl
  · split at emits
    · cases emits
      rfl
    · rcases Option.map_eq_some_iff.mp emits with ⟨_, _, same⟩
      cases same

/-- The packets that two senders in step emit. -/
theorem Mirrors.emits {left right : Stack} (mirrors : left.Mirrors right) {accepted : List Bytes}
    (plainly : right.Plainly accepted) (now : Instant) :
    Option.Rel (Reflects accepted) (left.poll now).2 (right.poll now).2 := by
  have same := (mirrors.poll now).2
  rcases plainly with ⟨w, tracks, holds⟩
  have shown {index : Option Nat} {packet : DataPacket} :=
    @poll_emits w right tracks now index packet
  have spoken {index : Option Nat} {packet : ControlPacket} :=
    @poll_control_index right now index packet
  generalize (left.poll now).2 = emitted at same ⊢
  generalize (right.poll now).2 = emitted' at same shown spoken ⊢
  rcases emitted with _ | ⟨index, packet⟩
  · rcases emitted' with _ | ⟨index', packet'⟩
    · exact .none
    · cases same
  · rcases emitted' with _ | ⟨index', packet'⟩
    · cases same
    · have veiled := Option.some.inj same
      rcases Prod.mk.inj veiled with ⟨rfl, behind⟩
      cases packet' with
      | control message =>
          cases spoken rfl
          cases packet with
          | control other =>
              cases behind
              exact .some (.same _)
          | data data => cases behind
      | data data =>
          rcases shown rfl with ⟨i, entry, again, rfl, above, there, rfl⟩
          cases packet with
          | control other => cases behind
          | data sealed =>
              have inside : i < accepted.length := by
                rw [← holds.count]
                exact (List.getElem?_eq_some_iff.mp there).1
              have submitted := List.getElem?_eq_getElem inside
              rcases holds.entries i entry _ above there submitted with ⟨flags, payload⟩
              rw [DataPacket.eq_unsealed (Packet.data.inj behind) flags]
              exact .some (.data sealed (submitted.trans (congrArg some payload.symm)))

end Stack

/-! ## Two connections in step -/

/-- A list whose front is kept. -/
theorem filter_front {α : Type} {keep : α -> Bool} {items : List α}
    (front : forall item, item ∈ items.head? -> keep item = true) :
    (items = [] ∧ items.filter keep = []) ∨
      Exists fun item => Exists fun rest => items = item :: rest ∧
        items.filter keep = item :: rest.filter keep := by
  cases items with
  | nil => exact Or.inl ⟨rfl, rfl⟩
  | cons item rest =>
      exact Or.inr ⟨item, rest, rfl, List.filter_cons_of_pos (front item rfl)⟩

/-- The packets that both connections have. -/
def body (packets : List Packet) : List Packet := packets.filter fun packet => !packet.aside

theorem body_append (early late : List Packet) : body (early ++ late) = body early ++ body late :=
  List.filter_append early late

theorem body_of_aside {packets : List Packet}
    (aside : forall packet, packet ∈ packets -> packet.aside = true) : body packets = [] := by
  apply List.filter_eq_nil_iff.mpr
  intro packet member
  rw [aside packet member]
  decide

theorem body_cons_of_aside {packet : Packet} (aside : packet.aside = true) (rest : List Packet) :
    body (packet :: rest) = body rest := by
  apply List.filter_cons_of_neg
  rw [aside]
  decide

theorem body_of_present {packets : List Packet}
    (present : forall packet, packet ∈ packets -> packet.aside = false) : body packets = packets := by
  apply List.filter_eq_self.mpr
  intro packet member
  rw [present packet member]
  decide

namespace Connection

variable {P : Primitives} {c secret clear : Connection} {stack : Stack}

/-- The states of two connections in step. -/
inductive Faces : State -> State -> Prop
  | established {left right : Stack} (mirrors : left.Mirrors right) :
      Faces (.established left.sender left.receiver left.crypto)
        (.established right.sender right.receiver right.crypto)
  | closed (reason reason' : CloseReason) (kept : Option Receiver) :
      Faces (.closed reason kept) (.closed reason' kept)

/-- A connection with an engine and one without that do the same. -/
structure Mirrors (secret clear : Connection) : Prop where
  localSocketId : secret.localSocketId = clear.localSocketId
  peerSocketId : secret.peerSocketId = clear.peerSocketId
  timebase : secret.timebase = clear.timebase
  queue : body secret.transmitQ = body clear.transmitQ
  state : Faces secret.state clear.state

theorem Mirrors.cases (mirrors : secret.Mirrors clear) :
    (Exists fun left : Stack => Exists fun right : Stack =>
      secret.state = .established left.sender left.receiver left.crypto ∧
        clear.state = .established right.sender right.receiver right.crypto ∧
        left.Mirrors right) ∨
      Exists fun reason => Exists fun reason' => Exists fun kept =>
        secret.state = .closed reason kept ∧ clear.state = .closed reason' kept := by
  have faces := mirrors.state
  generalize secret.state = state at faces
  generalize clear.state = state' at faces
  cases faces with
  | @established left right same => exact Or.inl ⟨left, right, rfl, rfl, same⟩
  | closed reason reason' kept => exact Or.inr ⟨reason, reason', kept, rfl, rfl⟩

/-- What the requests and echoes leave of the queue. -/
theorem Owes.body_eq {c' : Connection} {requests : List Bytes} {answers : List Packet}
    {calls : List Stack.Call} {parting : Bool} (owes : c.Owes requests answers calls parting c')
    (present : forall packet, packet ∈ answers -> packet.aside = false) :
    body c'.transmitQ = body c.transmitQ ++ answers ++
      (if c'.isOpen || parting then [] else [control .shutdown]) := by
  rcases owes.queue with ⟨others, queue, ends⟩
  have keys : body (requests.map fun blob => control (.kmReq blob)) = [] := by
    apply body_of_aside
    intro packet member
    rcases List.mem_map.mp member with ⟨blob, _, rfl⟩
    rfl
  rw [queue, body_append, body_append, body_append, keys, body_of_present present, List.append_nil]
  congr 1
  cases ends with
  | goesOn _ stays trailing =>
      rw [stays, body_of_aside fun packet member => (trailing packet member).aside]
      rfl
  | closes shut =>
      rw [shut]
      cases parting <;> rfl

theorem Faces.of_shows {left right : Stack} (shows : Shows left secret.state)
    (shows' : Shows right clear.state) (mirrors : left.Mirrors right)
    (together : secret.isOpen = clear.isOpen) : Faces secret.state clear.state := by
  unfold isOpen at together
  generalize secret.state = state at shows together ⊢
  generalize clear.state = state' at shows' together ⊢
  cases shows with
  | established =>
      cases shows' with
      | established => exact .established mirrors
      | closed reason => cases together
  | closed reason =>
      cases shows' with
      | established => cases together
      | closed reason' =>
          rw [mirrors.receiver]
          exact .closed reason reason' _

/-- Two open connections take inputs with like calls. -/
theorem Mirrors.handle_open (mirrors : secret.Mirrors clear) {left right : Stack}
    (is : secret.state = .established left.sender left.receiver left.crypto)
    (is' : clear.state = .established right.sender right.receiver right.crypto)
    (opened : secret.Opened) (opened' : clear.Opened) {input input' : Input}
    (quiet : forall now, input ≠ .pollTransmit now) (quiet' : forall now, input' ≠ .pollTransmit now)
    (after : ((secret.calls input).foldl (Stack.call P) left).Mirrors
      ((clear.calls input').foldl (Stack.call P) right))
    (answers : (secret.calls input).flatMap left.answers = (clear.calls input').flatMap right.answers)
    (parting : input.parting = input'.parting)
    (together : (secret.handle P input).isOpen = (clear.handle P input').isOpen) :
    (secret.handle P input).Mirrors (clear.handle P input') := by
  have owes := handle_owes (P := P) is opened.replies quiet
  have owes' := handle_owes (P := P) is' opened'.replies quiet'
  have present {calls : List Stack.Call} {stack : Stack} {packet : Packet}
      (member : packet ∈ calls.flatMap stack.answers) : packet.aside = false := by
    rcases List.mem_flatMap.mp member with ⟨call, _, inside⟩
    exact (Stack.answers_plain inside).2
  have frame := handle_frame (P := P) secret input
  have frame' := handle_frame (P := P) clear input'
  constructor
  · rw [frame.localSocketId, frame'.localSocketId, mirrors.localSocketId]
  · rw [owes.peerSocketId, owes'.peerSocketId, mirrors.peerSocketId]
  · rw [frame.timebase, frame'.timebase, mirrors.timebase]
  · rw [owes.body_eq fun _ => present, owes'.body_eq fun _ => present, mirrors.queue, answers, parting,
      together]
  · exact .of_shows (handle_shows is input) (handle_shows is' input') after together

theorem Mirrors.handle_closed (mirrors : secret.Mirrors clear) {reason reason' : CloseReason}
    {kept : Option Receiver} (is : secret.state = .closed reason kept)
    (is' : clear.state = .closed reason' kept) {input input' : Input}
    (quiet : forall now, input ≠ .pollTransmit now) (quiet' : forall now, input' ≠ .pollTransmit now)
    (drains : input.drains kept = input'.drains kept) :
    (secret.handle P input).Mirrors (clear.handle P input') := by
  have frame := handle_frame (P := P) secret input
  have frame' := handle_frame (P := P) clear input'
  rcases handle_closed_queue (P := P) is quiet with ⟨peer, queue⟩
  rcases handle_closed_queue (P := P) is' quiet' with ⟨peer', queue'⟩
  constructor
  · rw [frame.localSocketId, frame'.localSocketId, mirrors.localSocketId]
  · rw [peer, peer', mirrors.peerSocketId]
  · rw [frame.timebase, frame'.timebase, mirrors.timebase]
  · rw [queue, queue', mirrors.queue]
  · rw [handle_closed_state is, handle_closed_state is', drains]
    exact .closed reason reason' _

theorem calls_eq (same : secret.localSocketId = clear.localSocketId) {input : Input}
    (quiet : forall now, input ≠ .pollTransmit now) : secret.calls input = clear.calls input := by
  cases input with
  | datagram now datagram draw =>
      cases datagram with
      | packet packet =>
          have elsewhere : secret.foreign packet ↔ clear.foreign packet := by
            unfold foreign
            rw [same]
          unfold calls
          dsimp only
          by_cases away : secret.foreign packet
          · rw [if_pos away, if_pos (elsewhere.mp away)]
          · rw [if_neg away, if_neg fun foreign => away (elsewhere.mpr foreign)]
      | unknownControlType => rfl
      | undecodable => rfl
  | pollTransmit now => exact absurd rfl (quiet now)
  | _ => rfl

/-- Two connections in step take one input other than data and a poll. -/
theorem Mirrors.handle (mirrors : secret.Mirrors clear) (opened : secret.Opened)
    (opened' : clear.Opened) {input : Input} (quiet : forall now, input ≠ .pollTransmit now)
    (other : forall now packet, Stack.Call.data now packet ∉ secret.calls input)
    (together : (secret.handle P input).isOpen = (clear.handle P input).isOpen) :
    (secret.handle P input).Mirrors (clear.handle P input) := by
  have calls := calls_eq mirrors.localSocketId quiet
  rcases mirrors.cases with ⟨left, right, is, is', same⟩ | ⟨reason, reason', kept, is, is'⟩
  · apply mirrors.handle_open is is' opened opened' quiet quiet _ _ rfl together
    · rw [← calls]
      rcases calls_single secret input with none | ⟨call, one⟩
      · rw [none]
        exact same
      · rw [one]
        apply same.call
        rintro now packet rfl
        exact other now packet (one ▸ List.mem_cons_self)
    · rw [← calls]
      congr 1
      funext call
      exact same.answers call
  · exact mirrors.handle_closed is is' quiet quiet rfl

/-- Data that the engine reads arrives as it would without an engine. -/
theorem Mirrors.handleData (mirrors : secret.Mirrors clear) (opened : secret.Opened)
    (opened' : clear.Opened) (now : Instant) {packet : DataPacket} {payload : Bytes} (draw : Draw)
    (reads : forall sender receiver crypto, secret.state = .established sender receiver crypto ->
      Exists fun engine => crypto = some engine ∧
        (engine.decrypt P packet.seq packet.encryption packet.payload).2 = .ok payload)
    (together : (secret.handle P (.datagram now (.packet (.data packet)) draw)).isOpen =
      (clear.handle P (.datagram now (.packet (.data (packet.unsealed payload))) draw)).isOpen) :
    (secret.handle P (.datagram now (.packet (.data packet)) draw)).Mirrors
      (clear.handle P (.datagram now (.packet (.data (packet.unsealed payload))) draw)) := by
  have quiet (packet : Packet) (now' : Instant) :
      Input.datagram now (.packet packet) draw ≠ .pollTransmit now' := fun same => by cases same
  rcases mirrors.cases with ⟨left, right, is, is', same⟩ | ⟨reason, reason', kept, is, is'⟩
  · rcases reads _ _ _ is with ⟨engine, present, ok⟩
    have elsewhere : secret.foreign (.data packet) ↔
        clear.foreign (.data (packet.unsealed payload)) := by
      unfold foreign
      rw [mirrors.localSocketId]
      exact Iff.rfl
    have calls : secret.calls (.datagram now (.packet (.data packet)) draw) = [] ∧
          clear.calls (.datagram now (.packet (.data (packet.unsealed payload))) draw) = [] ∨
        secret.calls (.datagram now (.packet (.data packet)) draw) = [.data now packet] ∧
          clear.calls (.datagram now (.packet (.data (packet.unsealed payload))) draw) =
            [.data now (packet.unsealed payload)] := by
      unfold Connection.calls
      dsimp only
      by_cases away : secret.foreign (.data packet)
      · rw [if_pos away, if_pos (elsewhere.mp away)]
        exact Or.inl ⟨rfl, rfl⟩
      · rw [if_neg away, if_neg fun foreign => away (elsewhere.mpr foreign)]
        exact Or.inr ⟨rfl, rfl⟩
    refine mirrors.handle_open is is' opened opened' (quiet (.data packet))
      (quiet (.data (packet.unsealed payload))) ?_ ?_ rfl together
    · rcases calls with ⟨nothing, nothing'⟩ | ⟨one, one'⟩
      · rw [nothing, nothing']
        exact same
      · rw [one, one']
        exact same.data now present (Prod.ext rfl ok)
    · rcases calls with ⟨nothing, nothing'⟩ | ⟨one, one'⟩
      · rw [nothing, nothing']
        rfl
      · rw [one, one']
        rfl
  · exact mirrors.handle_closed is is' (quiet _) (quiet _) rfl

/-! ### Messages that only one of them has -/

/-- The state but for the keys. -/
inductive Slides : State -> State -> Prop
  | established {stack stack' : Stack} (sender : stack'.sender = stack.sender)
      (receiver : stack'.receiver = stack.receiver)
      (bare : stack.crypto = none -> stack'.crypto = none) :
      Slides (.established stack.sender stack.receiver stack.crypto)
        (.established stack'.sender stack'.receiver stack'.crypto)
  | closed (reason : CloseReason) (kept : Option Receiver) :
      Slides (.closed reason kept) (.closed reason kept)

/-- A connection that goes on as it was, but for its keys and the messages beside the
traffic. -/
structure Rests (c c' : Connection) : Prop where
  localSocketId : c'.localSocketId = c.localSocketId
  peerSocketId : c'.peerSocketId = c.peerSocketId
  timebase : c'.timebase = c.timebase
  queue : body c'.transmitQ = body c.transmitQ
  state : Slides c.state c'.state

theorem Slides.of_established {state state' : State} (slides : Slides state state') {stack : Stack}
    (is : state = .established stack.sender stack.receiver stack.crypto) :
    Exists fun stack' : Stack => state' = .established stack'.sender stack'.receiver stack'.crypto ∧
      stack'.sender = stack.sender ∧ stack'.receiver = stack.receiver ∧
      (stack.crypto = none -> stack'.crypto = none) := by
  rcases stack with ⟨_, _, _⟩
  cases slides with
  | @established stack stack' sender receiver bare =>
      cases is
      exact ⟨stack', rfl, sender, receiver, bare⟩
  | closed reason kept => cases is

theorem Slides.of_closed {state state' : State} (slides : Slides state state') {reason : CloseReason}
    {kept : Option Receiver} (is : state = .closed reason kept) : state' = .closed reason kept := by
  cases slides with
  | established sender receiver bare => cases is
  | closed reason kept => exact is

theorem Mirrors.left {secret' : Connection} (mirrors : secret.Mirrors clear)
    (rests : secret.Rests secret') : secret'.Mirrors clear := by
  refine ⟨rests.localSocketId.trans mirrors.localSocketId,
    rests.peerSocketId.trans mirrors.peerSocketId, rests.timebase.trans mirrors.timebase,
    rests.queue.trans mirrors.queue, ?_⟩
  rcases mirrors.cases with ⟨left, right, is, is', same⟩ | ⟨reason, reason', kept, is, is'⟩
  · rcases rests.state.of_established is with ⟨left', after, sender, receiver, _⟩
    rw [after, is']
    exact .established ⟨sender ▸ same.sender, receiver.trans same.receiver, same.bare⟩
  · rw [rests.state.of_closed is, is']
    exact .closed reason reason' kept

theorem Mirrors.right {clear' : Connection} (mirrors : secret.Mirrors clear)
    (rests : clear.Rests clear') : secret.Mirrors clear' := by
  refine ⟨mirrors.localSocketId.trans rests.localSocketId.symm,
    mirrors.peerSocketId.trans rests.peerSocketId.symm,
    mirrors.timebase.trans rests.timebase.symm, mirrors.queue.trans rests.queue.symm, ?_⟩
  rcases mirrors.cases with ⟨left, right, is, is', same⟩ | ⟨reason, reason', kept, is, is'⟩
  · rcases rests.state.of_established is' with ⟨right', after, sender, receiver, bare⟩
    rw [after, is]
    exact .established ⟨sender.symm ▸ same.sender, same.receiver.trans receiver.symm, bare same.bare⟩
  · rw [rests.state.of_closed is', is]
    exact .closed reason reason' kept

/-- A message beside the traffic at most changes the keys. -/
theorem aside_calls {packet : Packet} (aside : packet.aside = true) (now : Instant) (draw : Draw)
    {call : Stack.Call} (member : call ∈ c.calls (.datagram now (.packet packet) draw)) :
    (Exists fun payload => call = .kmReq payload) ∨ Exists fun payload => call = .kmRsp payload := by
  unfold calls at member
  dsimp only at member
  split_ifs at member
  · cases member
  · cases packet with
    | data data => cases aside
    | control packet =>
        rcases packet with ⟨ts, dst, message⟩
        cases message with
        | kmReq payload => exact Or.inl ⟨payload, List.mem_singleton.mp member⟩
        | kmRsp payload => exact Or.inr ⟨payload, List.mem_singleton.mp member⟩
        | keepAlive => cases member
        | handshake cif => cases member
        | _ => cases aside

theorem Shows.established_of_isOpen (shows : Shows stack c.state) (stays : c.isOpen = true) :
    c.state = .established stack.sender stack.receiver stack.crypto := by
  unfold isOpen at stays
  generalize c.state = state at shows stays ⊢
  cases shows with
  | established => rfl
  | closed reason => cases stays

/-- A message beside the traffic arrives. -/
theorem handle_rests (opened : c.Opened) {packet : Packet} (aside : packet.aside = true)
    (now : Instant) (draw : Draw)
    (stays : (c.handle P (.datagram now (.packet packet) draw)).isOpen = c.isOpen) :
    c.Rests (c.handle P (.datagram now (.packet packet) draw)) := by
  have quiet (now' : Instant) : Input.datagram now (.packet packet) draw ≠ .pollTransmit now' :=
    fun same => by cases same
  have frame := handle_frame (P := P) c (.datagram now (.packet packet) draw)
  rcases state : c.state with ⟨hs, pendingSend, earlyData⟩ | ⟨sender, receiver, crypto⟩ |
    ⟨reason, kept⟩
  · exact absurd state (opened.opened _ _ _)
  · have owes := @handle_owes P c { sender, receiver, crypto } state opened.replies _ quiet
    have shows := @handle_shows P c { sender, receiver, crypto } state
      (.datagram now (.packet packet) draw)
    rw [@isOpen_of_state c { sender, receiver, crypto } state] at stays
    have answerless : (c.calls (.datagram now (.packet packet) draw)).flatMap
        (Stack.answers { sender, receiver, crypto }) = [] := by
      apply List.flatMap_eq_nil_iff.mpr
      intro call member
      rcases aside_calls aside now draw member with ⟨payload, rfl⟩ | ⟨payload, rfl⟩ <;> rfl
    rw [answerless] at owes
    have queue := owes.body_eq fun _ member => by cases member
    rw [stays, Bool.true_or, if_pos rfl, List.append_nil, List.append_nil] at queue
    refine ⟨frame.localSocketId, owes.peerSocketId, frame.timebase, queue, ?_⟩
    rw [shows.established_of_isOpen stays, state]
    rcases calls_single c (.datagram now (.packet packet) draw) with none | ⟨call, one⟩
    · rw [none]
      exact @Slides.established { sender, receiver, crypto } { sender, receiver, crypto } rfl rfl id
    · have keys := aside_calls (c := c) aside now draw (one ▸ List.mem_cons_self)
      rw [one]
      apply @Slides.established { sender, receiver, crypto }
      · rcases keys with ⟨payload, rfl⟩ | ⟨payload, rfl⟩ <;> rfl
      · rcases keys with ⟨payload, rfl⟩ | ⟨payload, rfl⟩ <;> rfl
      · rintro rfl
        rcases keys with ⟨payload, rfl⟩ | ⟨payload, rfl⟩ <;> rfl
  · rcases handle_closed_queue (P := P) state quiet with ⟨peer, queue⟩
    refine ⟨frame.localSocketId, peer, frame.timebase, congrArg body queue, ?_⟩
    rw [handle_closed_state state, state]
    exact .closed reason kept

theorem stamp_aside (c : Connection) (now : Instant) (packet : Packet) :
    (c.stamp now packet).aside = packet.aside := by
  cases packet <;> rfl

/-- A message beside the traffic leaves. -/
theorem poll_rests (opened : c.Opened) {packet : Packet} (front : c.transmitQ.head? = some packet)
    (aside : packet.aside = true) (now : Instant) :
    c.Rests (c.pollTransmitAt now).1 ∧
      Exists fun stamped => (c.pollTransmitAt now).2 = some (none, stamped) ∧ stamped.aside = true := by
  rcases List.head?_eq_some_iff.mp front with ⟨rest, queue⟩
  have next : c.nextTransmitAt now = ({ c with transmitQ := rest }, some (none, packet)) := by
    unfold nextTransmitAt
    rw [queue]
  unfold pollTransmitAt
  rw [next]
  constructor
  · refine ⟨rfl, rfl, rfl, ?_, ?_⟩
    · change body rest = body c.transmitQ
      rw [queue, body_cons_of_aside aside]
    · change Slides c.state c.state
      rcases state : c.state with ⟨hs, pendingSend, earlyData⟩ | ⟨sender, receiver, crypto⟩ |
        ⟨reason, kept⟩
      · exact absurd state (opened.opened _ _ _)
      · exact @Slides.established { sender, receiver, crypto } { sender, receiver, crypto } rfl rfl id
      · exact .closed reason kept
  · exact ⟨_, rfl, (stamp_aside _ now packet).trans aside⟩

/-! ### Polls -/

theorem stamp_eq {c' : Connection} (opened : forall hs pendingSend earlyData,
      c.state ≠ .connecting hs pendingSend earlyData)
    (opened' : forall hs pendingSend earlyData, c'.state ≠ .connecting hs pendingSend earlyData)
    (peerSocketId : c.peerSocketId = c'.peerSocketId) (timebase : c.timebase = c'.timebase)
    (now : Instant) (packet : Packet) : c.stamp now packet = c'.stamp now packet := by
  cases packet with
  | data data =>
      unfold stamp
      rw [peerSocketId]
  | control packet =>
      unfold stamp
      dsimp only
      rw [controlDst_eq opened, controlDst_eq opened', peerSocketId, timebase]

theorem Mirrors.opened (mirrors : secret.Mirrors clear) :
    (forall hs pendingSend earlyData, secret.state ≠ .connecting hs pendingSend earlyData) ∧
      forall hs pendingSend earlyData, clear.state ≠ .connecting hs pendingSend earlyData := by
  rcases mirrors.cases with ⟨left, right, is, is', _⟩ | ⟨reason, reason', kept, is, is'⟩
  · rw [is, is']
    exact ⟨fun _ _ _ same => (by cases same), fun _ _ _ same => (by cases same)⟩
  · rw [is, is']
    exact ⟨fun _ _ _ same => (by cases same), fun _ _ _ same => (by cases same)⟩

/-- The front of the queue belongs to the traffic. -/
def Unblocked (c : Connection) : Prop :=
  forall packet, packet ∈ c.transmitQ.head? -> packet.aside = false

theorem body_of_unblocked (unblocked : c.Unblocked) :
    (c.transmitQ = [] ∧ body c.transmitQ = []) ∨
      Exists fun packet => Exists fun rest => c.transmitQ = packet :: rest ∧
        body c.transmitQ = packet :: body rest := by
  apply filter_front
  intro packet first
  rw [unblocked packet first]
  rfl

theorem Mirrors.nextTransmitAt (mirrors : secret.Mirrors clear) (unblocked : secret.Unblocked)
    (unblocked' : clear.Unblocked) {accepted : List Bytes}
    (plainly : forall stack : Stack,
      clear.state = .established stack.sender stack.receiver stack.crypto -> stack.Plainly accepted)
    (now : Instant) :
    (secret.nextTransmitAt now).1.Mirrors (clear.nextTransmitAt now).1 ∧
      Option.Rel (Reflects accepted) (secret.nextTransmitAt now).2 (clear.nextTransmitAt now).2 := by
  have bodies := mirrors.queue
  rcases body_of_unblocked unblocked with ⟨empty, nothing⟩ | ⟨packet, rest, queue, front⟩
  · rw [nothing] at bodies
    rcases body_of_unblocked unblocked' with ⟨empty', _⟩ | ⟨_, _, _, front'⟩
    · rcases mirrors.cases with ⟨left, right, is, is', same⟩ | ⟨reason, reason', kept, is, is'⟩
      · rw [nextTransmitAt_established is empty now, nextTransmitAt_established is' empty' now]
        refine ⟨⟨mirrors.localSocketId, mirrors.peerSocketId, mirrors.timebase, mirrors.queue, ?_⟩, ?_⟩
        · exact .established (same.poll now).1
        · exact same.emits (plainly right is') now
      · rw [nextTransmitAt_closed empty is, nextTransmitAt_closed empty' is']
        exact ⟨mirrors, .none⟩
    · rw [front'] at bodies
      cases bodies
  · rw [front] at bodies
    rcases body_of_unblocked unblocked' with ⟨_, nothing'⟩ | ⟨packet', rest', queue', front'⟩
    · rw [nothing'] at bodies
      cases bodies
    · rw [front'] at bodies
      rcases List.cons.inj bodies with ⟨rfl, same⟩
      rw [nextTransmitAt_cons queue, nextTransmitAt_cons queue']
      exact ⟨⟨mirrors.localSocketId, mirrors.peerSocketId, mirrors.timebase, same, mirrors.state⟩,
        .some (.same packet)⟩

/-- Two connections in step are polled. -/
theorem Mirrors.pollTransmitAt (mirrors : secret.Mirrors clear) (unblocked : secret.Unblocked)
    (unblocked' : clear.Unblocked) {accepted : List Bytes}
    (plainly : forall stack : Stack,
      clear.state = .established stack.sender stack.receiver stack.crypto -> stack.Plainly accepted)
    (now : Instant) :
    (secret.pollTransmitAt now).1.Mirrors (clear.pollTransmitAt now).1 ∧
      Option.Rel (Reflects accepted) (secret.pollTransmitAt now).2 (clear.pollTransmitAt now).2 := by
  rcases mirrors.nextTransmitAt unblocked unblocked' plainly now with ⟨after, emitted⟩
  unfold Connection.pollTransmitAt
  generalize secret.nextTransmitAt now = outcome at after emitted ⊢
  generalize clear.nextTransmitAt now = outcome' at after emitted ⊢
  rcases outcome with ⟨next, flying⟩
  rcases outcome' with ⟨next', flying'⟩
  cases emitted with
  | none => exact ⟨after, .none⟩
  | some reflects =>
      refine ⟨⟨after.localSocketId, after.peerSocketId, after.timebase, after.queue, after.state⟩, ?_⟩
      have stamps := stamp_eq after.opened.1 after.opened.2 after.peerSocketId after.timebase now
      cases reflects with
      | same packet =>
          change Option.Rel _ (some (none, next.stamp now packet)) (some (none, next'.stamp now packet))
          rw [stamps]
          exact .some (.same _)
      | data packet submitted =>
          change Option.Rel _ (some (some _, next.stamp now (.data packet)))
            (some (some _, next'.stamp now (.data _)))
          rw [← stamps]
          exact .some (.data _ submitted)

end Connection

end Rsrt
