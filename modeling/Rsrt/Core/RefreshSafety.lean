import Rsrt.Core.Keystream
import Rsrt.Core.KeyTraffic

namespace Rsrt

open Rsrt.Basis SeqNumber

/-!
# A refresh strands no data

Between two connections with the same passphrase, over a network that loses nothing and
keeps the order, every data packet can be read when it arrives, as long as no refresh
overwrites the slot of a packet that is still buffered.  Without that condition it cannot:
requests overtake the buffer.
-/

namespace Connection

variable {P : Primitives} {c : Connection} {stack : Stack} {requests : List Bytes}

/-- What a call that comes from the peer may ask to be echoed. -/
def Echoes (calls : List Stack.Call) : Prop :=
  forall payload, Stack.Call.kmReq payload ∈ calls -> 4 < payload.length

theorem Trailing.plain {calls : List Stack.Call} {packet : Packet}
    (trailing : Trailing calls packet) (echoes : Echoes calls) : packet.plain := by
  cases trailing with
  | keepAlive => trivial
  | reply cif => trivial
  | echo payload asked => exact echoes payload asked

theorem Ends.plain {calls : List Stack.Call} {parting : Bool} {others : List Packet}
    (ends : Ends calls parting c others) (echoes : Echoes calls) {packet : Packet}
    (member : packet ∈ others) : packet.plain := by
  cases ends with
  | goesOn _ _ trailing => exact (trailing packet member).plain echoes
  | closes shut =>
      split_ifs at member
      · cases member
      · rw [List.mem_singleton.mp member]
        trivial

/-! ## What an input does to the sending side -/

section Sending

variable {a : Agreement} {slots slots' view : SlotPair CtrCipher} {accepted : List Bytes}

theorem echoes_of_hears {calls : List Stack.Call}
    (hears : Carries (Stack.Hears P a) slots calls slots') : Echoes calls := by
  intro payload member
  rcases hears.taken_of_mem member with ⟨_, _, heard⟩
  cases heard with
  | keys _ sized => simp [KmMessage.encode, kmSign]

theorem carries_of_leads {blobs : List Bytes} {last : SlotPair CtrCipher}
    (leads : a.Leads P view blobs last) :
    Carries (Taken P a accepted) view
      ((blobs.map fun blob => control (.kmReq blob)).map fun packet => (none, packet)) last := by
  induction leads with
  | done slots => exact .done slots
  | install slots sized further ih => exact .more (.keys slots rfl sized) ih

theorem carries_of_plain {others : List Packet} (slots : SlotPair CtrCipher)
    (plain : forall packet, packet ∈ others -> packet.plain) :
    Carries (Taken P a accepted) slots (others.map fun packet => (none, packet)) slots := by
  apply Carries.of_idle
  intro flying member
  rcases List.mem_map.mp member with ⟨packet, inside, rfl⟩
  have quiet := plain packet inside
  cases packet with
  | data data => exact quiet.elim
  | control packet => exact .plain slots quiet

theorem Shows.stack_eq {stack' : Stack} {state : Connection.State} (shows : Shows stack state)
    (is : state = .established stack'.sender stack'.receiver stack'.crypto) : stack' = stack := by
  rcases stack' with ⟨sender, receiver, crypto⟩
  cases shows with
  | established =>
      cases is
      rfl
  | closed reason => cases is

/-- Control packets submit nothing and bring no data. -/
theorem controlCalls_traffic {now : Instant} {packet : ControlPacket} {draw : Draw}
    {call : Stack.Call} (member : call ∈ controlCalls now packet draw) :
    (forall instant payload, call ≠ .push instant payload) ∧
      forall instant data, call ≠ .data instant data := by
  unfold controlCalls at member
  split at member
  case h_7 => cases member
  all_goals
    cases List.mem_singleton.mp member
    constructor <;> intro _ _ same <;> cases same

/-- Only the application submits. -/
theorem send_of_push {input : Input} {now : Instant} {payload : Bytes}
    (member : Stack.Call.push now payload ∈ c.calls input) : input = .send now payload := by
  cases makes_of_mem member with
  | send => rfl
  | control made => exact absurd rfl ((controlCalls_traffic made).1 now payload)

/-- Data comes from the network. -/
theorem datagram_of_data {input : Input} {now : Instant} {packet : DataPacket}
    (member : Stack.Call.data now packet ∈ c.calls input) :
    Exists fun draw => input = .datagram now (.packet (.data packet)) draw := by
  cases makes_of_mem member with
  | data _ _ draw => exact ⟨draw, rfl⟩
  | control made => exact absurd rfl ((controlCalls_traffic made).2 now packet)

/-- What joins the queue leads to the slots for which the buffer is readable. -/
structure Extends (P : Primitives) (a : Agreement) (accepted : List Bytes)
    (view : SlotPair CtrCipher) (c c' : Connection) : Prop where
  peerSocketId : c'.peerSocketId = c.peerSocketId
  news : Exists fun news => Exists fun view' => c'.transmitQ = c.transmitQ ++ news ∧
    Carries (Taken P a accepted) view (news.map fun packet => (none, packet)) view' ∧
    forall stack : Stack, c'.state = .established stack.sender stack.receiver stack.crypto ->
      stack.Sends P a accepted view'

theorem Owes.extends {c' : Connection} {answers : List Packet} {calls : List Stack.Call}
    {parting : Bool} (owes : c.Owes requests answers calls parting c')
    (answered : forall packet, packet ∈ answers -> packet.plain) (echoes : Echoes calls)
    {view' : SlotPair CtrCipher} (leads : a.Leads P view requests view')
    (sends : forall stack : Stack,
      c'.state = .established stack.sender stack.receiver stack.crypto ->
      stack.Sends P a accepted view') : Extends P a accepted view c c' := by
  rcases owes.queue with ⟨others, queue, ends⟩
  have plain : forall packet, packet ∈ answers ++ others -> packet.plain := by
    intro packet member
    rcases List.mem_append.mp member with answer | other
    · exact answered packet answer
    · exact ends.plain echoes other
  refine ⟨owes.peerSocketId, (requests.map fun blob => control (.kmReq blob)) ++ (answers ++ others),
    view', ?_, ?_, sends⟩
  · rw [queue, List.append_assoc, List.append_assoc]
  · rw [List.map_append]
    exact (carries_of_leads leads).append (carries_of_plain view' plain)

theorem handle_extends (ideal : P.Ideal)
    (is : c.state = .established stack.sender stack.receiver stack.crypto)
    (replies : forall packet, packet ∈ c.hsReply -> Exists fun cif => packet = control (.handshake cif))
    (agreed : stack.Agreed a slots)
    (sends : stack.Sends P a accepted view) {input : Input}
    (quiet : forall now, input ≠ .pollTransmit now) (idle : forall now payload, input ≠ .send now payload)
    (hears : Carries (Stack.Hears P a) slots (c.calls input) slots')
    (careful : forall call, call ∈ c.calls input -> stack.Careful call) :
    Extends P a accepted view c (c.handle P input) := by
  have owes := handle_owes (P := P) is replies quiet
  have echoes := echoes_of_hears hears
  have shows := handle_shows (P := P) is input
  rcases calls_single c input with none | ⟨call, one⟩
  · rw [none] at owes shows echoes
    refine owes.extends (fun _ member => by cases member) echoes (.done view) ?_
    intro stack' state
    rw [shows.stack_eq state]
    exact sends
  · have pushless : forall now payload, call ≠ .push now payload := by
      rintro now payload rfl
      exact idle now payload (send_of_push (one ▸ List.mem_cons_self))
    rw [one] at owes shows hears careful echoes
    cases hears with
    | more heard rest =>
        rcases sends.call ideal agreed heard (careful call List.mem_cons_self) pushless with
          ⟨view', leads, after⟩
        change c.Owes (stack.asks P call ++ []) (stack.answers call ++ []) _ _ _ at owes
        rw [List.append_nil, List.append_nil] at owes
        refine owes.extends (fun _ member => (Stack.answers_plain member).1) echoes leads ?_
        intro stack' state
        rw [shows.stack_eq state]
        exact after

theorem send_extends (is : c.state = .established stack.sender stack.receiver stack.crypto)
    (agreed : stack.Agreed a slots) (sends : stack.Sends P a accepted view) {now : Instant}
    {payload : Bytes} {c' : Connection} (ok : c.send P now payload = .ok c') :
    Extends P a (accepted ++ [payload]) view c c' := by
  unfold send at ok
  rw [is] at ok
  dsimp only at ok
  split at ok
  case h_1 sender crypto pushed =>
    cases ok
    refine ⟨rfl, [], view, (List.append_nil _).symm, .done view, ?_⟩
    rintro ⟨_, _, _⟩ state
    cases state
    exact sends.push agreed pushed
  case h_2 => cases ok

theorem controlDst_eq {c : Connection}
    (opened : forall hs pendingSend earlyData, c.state ≠ .connecting hs pendingSend earlyData)
    (message : ControlType) : c.controlDst message = c.peerSocketId := by
  unfold controlDst
  split
  case h_1 connecting => exact absurd connecting (opened _ _ _)
  case h_2 => rfl

theorem stamp_dstSocketId {c : Connection}
    (opened : forall hs pendingSend earlyData, c.state ≠ .connecting hs pendingSend earlyData)
    (now : Instant) (packet : Packet) : (c.stamp now packet).dstSocketId = c.peerSocketId := by
  cases packet with
  | data data => rfl
  | control packet => exact controlDst_eq opened packet.controlType

/-- A poll moves the front of the queue to the network, or emits what suits the slots
behind the queue. -/
theorem pollTransmitAt_carries
    (opened : forall hs pendingSend earlyData, c.state ≠ .connecting hs pendingSend earlyData)
    (queued : Carries (Taken P a accepted) slots (c.transmitQ.map fun packet => (none, packet)) view)
    (sends : forall stack : Stack,
      c.state = .established stack.sender stack.receiver stack.crypto ->
      stack.Sends P a accepted view ∧ stack.Reporting) (now : Instant) :
    (c.pollTransmitAt now).1.peerSocketId = c.peerSocketId ∧
      (forall flying, flying ∈ (c.pollTransmitAt now).2 ->
        flying.2.dstSocketId = c.peerSocketId) ∧
      Carries (Taken P a accepted) slots ((c.pollTransmitAt now).2.toList ++
        (c.pollTransmitAt now).1.transmitQ.map fun packet => (none, packet)) view ∧
      forall stack : Stack,
        (c.pollTransmitAt now).1.state = .established stack.sender stack.receiver stack.crypto ->
        stack.Sends P a accepted view := by
  unfold pollTransmitAt
  cases queue : c.transmitQ with
  | cons packet rest =>
      rw [queue] at queued
      rw [nextTransmitAt_cons queue]
      cases queued with
      | more taken further =>
          refine ⟨rfl, ?_, .more (taken.stamp _ now) further, fun stack state => (sends stack state).1⟩
          intro flying member
          cases member
          exact stamp_dstSocketId opened now packet
  | nil =>
      rw [queue] at queued
      rcases state : c.state with ⟨hs, pendingSend, earlyData⟩ | ⟨sender, receiver, crypto⟩ |
        ⟨reason, kept⟩
      · exact absurd state (opened _ _ _)
      · rcases sends { sender, receiver, crypto } state with ⟨sending, reporting⟩
        rw [@nextTransmitAt_established c { sender, receiver, crypto } state queue now]
        have after := sending.transmit now
        have polled (emitted : Flying) :=
          @Stack.Sends.emits P a view accepted { sender, receiver, crypto } sending reporting now emitted
        change Stack.Sends P a accepted view (Stack.poll { sender, receiver, crypto } now).1 at after
        generalize Stack.poll { sender, receiver, crypto } now = outcome at after polled
        rcases outcome with ⟨stack', _ | ⟨index, packet⟩⟩
        · refine ⟨rfl, fun _ member => (by cases member), queue ▸ queued, ?_⟩
          rintro ⟨_, _, _⟩ established
          cases established
          exact after
        · cases queued with
          | done =>
              refine ⟨rfl, ?_, ?_, ?_⟩
              · intro flying member
                cases member
                refine stamp_dstSocketId ?_ now packet
                intro hs pendingSend earlyData connecting
                cases connecting
              · change Carries _ _ (_ :: c.transmitQ.map _) _
                rw [queue]
                exact .single ((polled (index, packet) rfl).stamp _ now)
              · rintro ⟨_, _, _⟩ established
                cases established
                exact after
      · rw [nextTransmitAt_closed queue state]
        refine ⟨rfl, fun _ member => (by cases member), queue ▸ queued, fun stack established => ?_⟩
        rw [state] at established
        cases established

end Sending

end Connection

/-! ## The channel from one endpoint to the other -/

namespace Endpoint

variable (P : Primitives)

/-- The input that an action makes of it. -/
def input (self : Endpoint) : Action -> Option Connection.Input
  | .send now payload => some (.send now payload)
  | .poll now => some (.pollTransmit now)
  | .receive now draw =>
      self.inbox.head?.map fun flying => .datagram now (.packet flying.2) draw
  | .timer now => some (.timer now)
  | .deliver now => some (.pollDeliver now)
  | .anchor instant ts => some (.setHsAnchor instant ts)
  | .close now => some (.close now)

/-- No acknowledgement that arrives puts a fresh key into a slot that the buffer uses. -/
def Careful (self : Endpoint) (action : Action) : Prop :=
  match self.conn.state with
  | .established sender receiver crypto =>
      forall input, input ∈ self.input action -> forall call, call ∈ self.conn.calls input ->
        Stack.Careful { sender, receiver, crypto } call
  | _ => True

instance (self : Endpoint) (action : Action) : Decidable (self.Careful action) := by
  unfold Careful
  split <;> infer_instance

theorem act_conn (self : Endpoint) (action : Action) :
    (self.act P action).1.conn = ((self.input action).map (self.conn.handle P)).getD self.conn := by
  cases action with
  | send now payload =>
      unfold act input
      rw [Option.map_some, Option.getD_some]
      unfold Connection.handle
      dsimp only
      cases self.conn.send P now payload <;> rfl
  | poll now => rfl
  | receive now draw =>
      unfold act input
      cases self.inbox <;> rfl
  | timer now => rfl
  | deliver now => rfl
  | anchor instant ts => rfl
  | close now => rfl

variable {P} {self : Endpoint}

theorem act_receive_empty (empty : self.inbox = []) (now : Instant) (draw : Draw) :
    self.act P (.receive now draw) = (self, none) := by
  unfold act
  rw [empty]

theorem act_receive_first {flying : Flying} {rest : List Flying}
    (arrives : self.inbox = flying :: rest) (now : Instant) (draw : Draw) :
    self.act P (.receive now draw) =
      ({ self with conn := self.conn.handlePacket P now flying.2 draw, inbox := rest }, none) := by
  unfold act
  rw [arrives]

end Endpoint

/-- Everything on the way from `x` to `y` suits the receiving slots of `y`, and what `x`
still holds suits those that `y` will have then. -/
structure Channel (P : Primitives) (a : Agreement) (x y : Endpoint) : Prop where
  addressed : x.conn.peerSocketId = y.conn.localSocketId
  arriving : forall flying, flying ∈ y.inbox -> flying.2.dstSocketId = y.conn.localSocketId
  carries : Exists fun slots => Exists fun view =>
    Carries (Taken P a x.accepted) slots
      (y.inbox ++ x.conn.transmitQ.map fun packet => (none, packet)) view ∧
    (forall stack : Stack, y.conn.state = .established stack.sender stack.receiver stack.crypto ->
      stack.Agreed a slots) ∧
    forall stack : Stack, x.conn.state = .established stack.sender stack.receiver stack.crypto ->
      stack.Sends P a x.accepted view

/-- A connection past its handshake, with the reply that it may have to repeat. -/
structure Connection.Opened (c : Connection) : Prop where
  opened : forall hs pendingSend earlyData, c.state ≠ .connecting hs pendingSend earlyData
  replies : forall packet, packet ∈ c.hsReply -> Exists fun cif => packet = control (.handshake cif)

theorem Connection.Opened.handle {P : Primitives} {c : Connection} (opened : c.Opened)
    (input : Connection.Input) : (c.handle P input).Opened := by
  have frame := handle_frame (P := P) c input
  refine ⟨?_, fun packet member => opened.replies packet (frame.hsReply ▸ member)⟩
  intro hs pendingSend earlyData connecting
  rcases state : c.state with ⟨hs, pendingSend, earlyData⟩ | ⟨sender, receiver, crypto⟩ |
    ⟨reason, kept⟩
  · exact opened.opened _ _ _ state
  · have shows := @handle_shows P c { sender, receiver, crypto } state input
    rw [connecting] at shows
    cases shows
  · rcases @handle_closed P c reason kept state input with same | ⟨_, _, _, polled⟩
    · rw [same] at connecting
      cases connecting
    · rw [polled] at connecting
      cases connecting

section Steps

variable {P : Primitives} {a : Agreement} {x y : Endpoint}
  {slots slots' view : SlotPair CtrCipher} {accepted : List Bytes}

/-! ### Arrivals -/

/-- The calls that an action makes. -/
def Endpoint.calls (self : Endpoint) (action : Action) : List Stack.Call :=
  (self.input action).toList.flatMap self.conn.calls

/-- The application and the timers leave the slots alone. -/
theorem own_hears {c : Connection} {input : Connection.Input}
    (own : forall now datagram draw, input ≠ .datagram now datagram draw)
    (slots : SlotPair CtrCipher) : Carries (Stack.Hears P a) slots (c.calls input) slots := by
  cases input with
  | datagram now datagram draw => exact absurd rfl (own now datagram draw)
  | timer now => exact .single (.timer _ _)
  | send now payload => exact .single (.push _ _ _)
  | close now => exact .done _
  | setHsAnchor instant ts => exact .single (.anchor _ _ _)
  | pollTransmit now =>
      unfold Connection.calls
      dsimp only
      split_ifs
      · exact .single (.transmit _ _)
      · exact .done _
  | pollDeliver now => exact .single (.deliver _ _)

/-- An action takes at most the packet that arrives first. -/
theorem Endpoint.act_inbox {rest : List Flying} (x : Endpoint) (action : Action)
    (arriving : forall flying, flying ∈ x.inbox -> flying.2.dstSocketId = x.conn.localSocketId)
    (carries : Carries (Taken P a accepted) slots (x.inbox ++ rest) view) :
    Exists fun slots' => Carries (Taken P a accepted) slots' ((x.act P action).1.inbox ++ rest) view ∧
      (forall flying, flying ∈ (x.act P action).1.inbox -> flying ∈ x.inbox) ∧
      forall stack : Stack, x.conn.state = .established stack.sender stack.receiver stack.crypto ->
        stack.Agreed a slots -> x.Permits action ->
        Carries (Stack.Hears P a) slots (x.calls action) slots' := by
  have own {input : Connection.Input} (some : x.input action = some input)
      (own : forall now datagram draw, input ≠ .datagram now datagram draw) :
      Carries (Stack.Hears P a) slots (x.calls action) slots := by
    unfold Endpoint.calls
    rw [some]
    change Carries _ _ (x.conn.calls input ++ []) _
    rw [List.append_nil]
    exact own_hears own slots
  cases action with
  | receive now draw =>
      unfold Endpoint.act Endpoint.calls Endpoint.input
      cases inbox : x.inbox with
      | nil =>
          rw [inbox] at carries
          refine ⟨slots, ?_, fun _ member => ?_, fun _ _ _ _ => .done slots⟩
          · change Carries _ _ (x.inbox ++ rest) _
            rw [inbox]
            exact carries
          · exact inbox ▸ member
      | cons flying later =>
          rw [inbox] at carries
          cases carries with
          | @more _ next _ _ _ taken further =>
              refine ⟨next, further, fun _ member => List.mem_cons_of_mem _ member, ?_⟩
              intro stack state agreed permits
              rcases agreed.engine with ⟨engine, crypto, agrees, _⟩
              have present : x.conn.engine = some engine := by
                unfold Connection.engine
                rw [state]
                exact crypto
              have sized := permits engine present
              rw [agrees.keyLen] at sized
              have heard := taken.heard now sized
              change Carries _ _ (x.conn.calls (.datagram now (.packet flying.2) draw) ++ []) _
              have here : ¬x.conn.foreign flying.2 := by
                intro foreign
                exact foreign.2 (arriving flying (inbox ▸ List.mem_cons_self))
              rw [List.append_nil, Connection.calls, if_neg here]
              exact heard
  | send now payload =>
      have same : (x.act P (.send now payload)).1.inbox = x.inbox := by
        unfold Endpoint.act
        dsimp only
        split <;> rfl
      rw [same]
      exact ⟨slots, carries, fun _ => id, fun _ _ _ _ => own rfl fun _ _ _ same => by cases same⟩
  | _ =>
      exact ⟨slots, carries, fun _ => id, fun _ _ _ _ => own rfl fun _ _ _ same => by cases same⟩

/-- The components after an action, while the connection is open. -/
theorem Endpoint.act_stack (opened : x.conn.Opened) (action : Action) {after : Stack}
    (is : (x.act P action).1.conn.state =
      .established after.sender after.receiver after.crypto) :
    Exists fun stack : Stack =>
      x.conn.state = .established stack.sender stack.receiver stack.crypto ∧
        after = (x.calls action).foldl (Stack.call P) stack := by
  rw [Endpoint.act_conn] at is
  unfold Endpoint.calls
  cases taken : x.input action with
  | none =>
      rw [taken] at is
      exact ⟨after, is, rfl⟩
  | some input =>
      rw [taken] at is
      change (x.conn.handle P input).state = _ at is
      rw [Option.toList_some, List.flatMap_singleton]
      rcases state : x.conn.state with ⟨hs, pendingSend, earlyData⟩ | ⟨sender, receiver, crypto⟩ |
        ⟨reason, kept⟩
      · exact absurd state (opened.opened _ _ _)
      · have shows := @Connection.handle_shows P x.conn { sender, receiver, crypto } state input
        exact ⟨{ sender, receiver, crypto }, rfl, shows.stack_eq is⟩
      · rcases @Connection.handle_closed P x.conn reason kept state input with same | ⟨_, _, _, polled⟩
        · rw [same] at is
          cases is
        · rw [polled] at is
          cases is

theorem Endpoint.act_opened (opened : x.conn.Opened) (action : Action) :
    (x.act P action).1.conn.Opened := by
  rw [Endpoint.act_conn]
  cases x.input action with
  | none => exact opened
  | some input => exact opened.handle input

theorem Endpoint.act_localSocketId (x : Endpoint) (action : Action) :
    (x.act P action).1.conn.localSocketId = x.conn.localSocketId := by
  rw [Endpoint.act_conn]
  cases x.input action with
  | none => rfl
  | some input => exact (Connection.handle_frame x.conn input).localSocketId

/-- The receiving end of a channel acts. -/
theorem Channel.listen (ideal : P.Ideal) (channel : Channel P a y x) (opened : x.conn.Opened)
    {action : Action} (permits : x.Permits action) : Channel P a y (x.act P action).1 := by
  rcases channel with ⟨addressed, arriving, slots, view, carries, agreed, sends⟩
  have own : (x.act P action).1.conn.localSocketId = x.conn.localSocketId :=
    x.act_localSocketId action
  rcases x.act_inbox (P := P) action arriving carries with ⟨slots', carries', fewer, hears⟩
  constructor
  · rw [own]
    exact addressed
  · intro flying member
    rw [own]
    exact arriving flying (fewer flying member)
  · refine ⟨slots', view, carries', ?_, sends⟩
    intro after is
    rcases Endpoint.act_stack opened action is with ⟨stack, state, rfl⟩
    exact (agreed stack state).calls ideal (hears stack state (agreed stack state) permits)

/-! ### Emissions -/

@[simp] theorem Endpoint.enqueue_none (y : Endpoint) : y.enqueue none = y := by
  unfold Endpoint.enqueue
  rw [Option.toList_none, List.append_nil]

/-- More joins the queue of the sending end. -/
theorem Channel.extend (channel : Channel P a x y) {x' : Endpoint}
    (mono : forall flying first last, Taken P a x.accepted first flying last ->
      Taken P a x'.accepted first flying last)
    (extending : forall view,
      (forall stack : Stack, x.conn.state = .established stack.sender stack.receiver stack.crypto ->
        stack.Sends P a x.accepted view) ->
      Connection.Extends P a x'.accepted view x.conn x'.conn) : Channel P a x' y := by
  rcases channel with ⟨addressed, arriving, slots, view, carries, agreed, sends⟩
  rcases extending view sends with ⟨peer, news, view', queue, further, after⟩
  refine ⟨peer.trans addressed, arriving, slots, view', ?_, agreed, after⟩
  rw [queue, List.map_append, ← List.append_assoc]
  exact (carries.mono fun first flying last => mono flying first last).append further

/-- The sending end is polled. -/
theorem Channel.poll (channel : Channel P a x y) (opened : x.conn.Opened)
    (reporting : forall stack : Stack,
      x.conn.state = .established stack.sender stack.receiver stack.crypto -> stack.Reporting)
    (now : Instant) :
    Channel P a (x.act P (.poll now)).1 (y.enqueue (x.act P (.poll now)).2) := by
  rcases channel with ⟨addressed, arriving, slots, view, carries, agreed, sends⟩
  rcases carries.split with ⟨middle, flying, queued⟩
  rcases Connection.pollTransmitAt_carries opened.opened queued
    (fun stack state => ⟨sends stack state, reporting stack state⟩) now with
    ⟨peer, destined, moved, after⟩
  constructor
  · exact peer.trans addressed
  · intro packet member
    rcases List.mem_append.mp member with old | new
    · exact arriving packet old
    · exact (destined packet (Option.mem_toList.mp new)).trans addressed
  · refine ⟨slots, view, ?_, agreed, after⟩
    have whole := flying.append moved
    rw [← List.append_assoc] at whole
    exact whole

/-- Any input but a poll and a submission, at the sending end. -/
theorem Endpoint.input_extends (ideal : P.Ideal) (opened : x.conn.Opened) {action : Action}
    {input : Connection.Input} (taken : x.input action = some input)
    (quiet : forall now, input ≠ .pollTransmit now)
    (idle : forall now payload, input ≠ .send now payload)
    (hears : forall stack : Stack,
      x.conn.state = .established stack.sender stack.receiver stack.crypto ->
      stack.Agreed a slots ∧ Carries (Stack.Hears P a) slots (x.calls action) slots')
    (careful : x.Careful action)
    (sends : forall stack : Stack,
      x.conn.state = .established stack.sender stack.receiver stack.crypto ->
      stack.Sends P a accepted view) :
    Connection.Extends P a accepted view x.conn (x.conn.handle P input) := by
  rcases state : x.conn.state with ⟨hs, pendingSend, earlyData⟩ | ⟨sender, receiver, crypto⟩ |
    ⟨reason, kept⟩
  · exact absurd state (opened.opened _ _ _)
  · rcases hears { sender, receiver, crypto } state with ⟨agreed, heard⟩
    have sending := sends { sender, receiver, crypto } state
    unfold Endpoint.calls at heard
    rw [taken, Option.toList_some, List.flatMap_singleton] at heard
    unfold Endpoint.Careful at careful
    rw [state] at careful
    exact Connection.handle_extends ideal state opened.replies agreed sending quiet idle heard
      (careful input taken)
  · rcases @Connection.handle_closed_queue P x.conn reason kept state input quiet with ⟨peer, queue⟩
    refine ⟨peer, [], view, queue.trans (List.append_nil _).symm, .done view, ?_⟩
    intro stack is
    rcases @Connection.handle_closed P x.conn reason kept state input with same | ⟨_, _, _, polled⟩
    · rw [same] at is
      cases is
    · rw [polled] at is
      cases is

/-- The sending end of a channel acts. -/
theorem Channel.speak (ideal : P.Ideal) (forth : Channel P a x y) (back : Channel P a y x)
    (opened : x.conn.Opened) {action : Action} (permits : x.Permits action)
    (careful : x.Careful action) :
    Channel P a (x.act P action).1 (y.enqueue (x.act P action).2) := by
  rcases back with ⟨_, arriving, slots, _, carries, agreed, _⟩
  rcases x.act_inbox (P := P) action arriving carries with ⟨slots', _, _, hears⟩
  have quietly {input : Connection.Input} (taken : x.input action = some input)
      (quiet : forall now, input ≠ .pollTransmit now)
      (idle : forall now payload, input ≠ .send now payload)
      {x' : Endpoint} (conn : x'.conn = x.conn.handle P input) (same : x'.accepted = x.accepted) :
      Channel P a x' y := by
    apply forth.extend
    · rw [same]
      exact fun _ _ _ => id
    · intro view sends
      rw [conn, same]
      exact Endpoint.input_extends ideal opened taken quiet idle
        (fun stack state => ⟨agreed stack state, hears stack state (agreed stack state) permits⟩)
        careful sends
  cases action with
  | poll now =>
      exact forth.poll opened (fun stack state => (agreed stack state).reporting) now
  | send now payload =>
      unfold Endpoint.act
      dsimp only
      cases sent : x.conn.send P now payload with
      | error err =>
          rw [Endpoint.enqueue_none]
          exact forth
      | ok conn =>
          rw [Endpoint.enqueue_none]
          apply forth.extend
          · exact fun _ _ _ => Taken.mono payload
          · intro view sends
            rcases state : x.conn.state with ⟨hs, pendingSend, earlyData⟩ |
              ⟨sender, receiver, crypto⟩ | ⟨reason, kept⟩
            · exact absurd state (opened.opened _ _ _)
            · exact @Connection.send_extends P x.conn { sender, receiver, crypto } a slots view
                x.accepted state (agreed _ state) (sends _ state) now payload conn sent
            · unfold Connection.send at sent
              rw [state] at sent
              cases sent
  | receive now draw =>
      cases inbox : x.inbox with
      | nil =>
          rw [Endpoint.act_receive_empty inbox, Endpoint.enqueue_none]
          exact forth
      | cons flying rest =>
          have taken : x.input (.receive now draw) = some (.datagram now (.packet flying.2) draw) := by
            unfold Endpoint.input
            rw [inbox]
            rfl
          rw [Endpoint.act_receive_first inbox, Endpoint.enqueue_none]
          exact quietly taken (fun _ same => by cases same) (fun _ _ same => by cases same) rfl rfl
  | _ =>
      -- Timers, delivery, the anchor and closing emit nothing and submit nothing.
      change Channel P a _ (y.enqueue none)
      rw [Endpoint.enqueue_none]
      exact quietly rfl (fun _ same => by cases same) (fun _ _ same => by cases same) rfl rfl

/-! ### Both directions -/

/-- Two endpoints with a channel in both directions. -/
structure Linked (P : Primitives) (a : Agreement) (x y : Endpoint) : Prop where
  opened : x.conn.Opened ∧ y.conn.Opened
  forth : Channel P a x y
  back : Channel P a y x

theorem Linked.symm (linked : Linked P a x y) : Linked P a y x :=
  ⟨linked.opened.symm, linked.back, linked.forth⟩

theorem Linked.act (ideal : P.Ideal) (linked : Linked P a x y) {action : Action}
    (permits : x.Permits action) (careful : x.Careful action) :
    Linked P a (x.act P action).1 (y.enqueue (x.act P action).2) := by
  rcases linked with ⟨⟨opened, opened'⟩, forth, back⟩
  have heard := back.listen ideal opened permits
  refine ⟨⟨Endpoint.act_opened opened action, opened'⟩, ?_, ?_⟩
  · exact forth.speak ideal back opened permits careful
  · exact ⟨heard.addressed, heard.arriving, heard.carries⟩

end Steps

/-- The packet that arrives first can be read. -/
theorem Channel.reads {P : Primitives} {a : Agreement} {x y : Endpoint} (channel : Channel P a x y)
    {flying : Flying} {rest : List Flying} (arrives : y.inbox = flying :: rest)
    {packet : DataPacket} (data : flying.2 = .data packet) {sender : Sender} {receiver : Receiver}
    {crypto : Option Crypto} (established : y.conn.state = .established sender receiver crypto) :
    Exists fun engine => Exists fun index => Exists fun clear =>
      crypto = some engine ∧ flying.1 = some index ∧ x.accepted[index]? = some clear ∧
        (clear ≠ [] ->
          (engine.decrypt P packet.seq packet.encryption packet.payload).2 = .ok clear) := by
  rcases channel with ⟨_, _, slots, view, carries, agreed, _⟩
  rcases (agreed { sender, receiver, crypto } established).engine with ⟨engine, present, agrees, rx⟩
  rcases flying with ⟨index, carried⟩
  cases data
  rw [arrives] at carries
  cases carries with
  | more taken further =>
      cases taken with
      | @data index _ clear _ submitted readable =>
          refine ⟨engine, index, clear, present, rfl, submitted, ?_⟩
          intro content
          rw [agrees.decrypt (rx ▸ readable content)]

/-- Before anything is sent, the channel suits the engines of the key exchange. -/
theorem Channel.fresh {P : Primitives} {a : Agreement} {x y : Endpoint} {sending receiving : Crypto}
    {cfg cfg' : SenderConfig} {receiver receiver' : Receiver}
    (addressed : x.conn.peerSocketId = y.conn.localSocketId) (empty : y.inbox = [])
    (unsent : x.accepted = [])
    (plain : forall packet, packet ∈ x.conn.transmitQ -> packet.plain)
    (sender : x.conn.state = .established (Sender.new cfg) receiver (some sending))
    (listener : y.conn.state = .established (Sender.new cfg') receiver' (some receiving))
    (silent : receiver'.controlQ = []) (agrees : receiving.Agrees a)
    (holds : sending.Matches P a receiving.rx) : Channel P a x y := by
  refine ⟨addressed, ?_, receiving.rx, receiving.rx, ?_, ?_, ?_⟩
  · rw [empty]
    exact fun _ member => absurd member List.not_mem_nil
  · rw [empty]
    exact Connection.carries_of_plain _ plain
  · rintro ⟨_, _, _⟩ is
    cases listener.symm.trans is
    refine ⟨⟨receiving, rfl, agrees, rfl⟩, ?_, ?_⟩
    · intro message member
      have none : message ∈ ([] : List ControlType) := silent ▸ member
      cases none
    · intro message member
      cases member
  · rintro ⟨_, _, _⟩ is
    cases sender.symm.trans is
    refine ⟨?_, SendWindow.start, Sender.tracks_new cfg, ?_, ?_⟩
    · intro engine found
      cases found
      exact holds
    · rw [unsent]
      rfl
    · intro i entry clear _ there
      cases there

namespace Duplex

variable {P : Primitives} {d : Duplex}

/-- No acknowledgement that arrives puts a fresh key into a slot that the buffer uses. -/
def Careful (d : Duplex) (event : Side × Action) : Prop :=
  (d.endpoint event.1).Careful event.2

instance (d : Duplex) (event : Side × Action) : Decidable (d.Careful event) :=
  inferInstanceAs (Decidable ((d.endpoint event.1).Careful event.2))

end Duplex

namespace Setup

variable {P : Primitives} {setup : Setup}

theorem callerConn_opened (P : Primitives) (setup : Setup) : (setup.callerConn P).Opened := by
  rcases setup.callerConn_state P with ⟨cfg, receiver, _, _, state⟩
  constructor
  · intro hs pendingSend earlyData connecting
    cases state.symm.trans connecting
  · intro packet member
    cases member

theorem listenerConn_opened (setup : Setup) : setup.listenerConn.Opened := by
  rcases setup.listenerConn_state with ⟨cfg, receiver, _, _, state⟩
  constructor
  · intro hs pendingSend earlyData connecting
    cases state.symm.trans connecting
  · intro packet member
    cases member
    exact ⟨_, rfl⟩

/-- The engines that the handshake leaves on both sides. -/
theorem Keyed.paired (ideal : P.Ideal) (keyed : setup.Keyed P) :
    Exists fun a => Exists fun first => Exists fun second =>
      setup.caller.crypto = some first ∧ setup.listener.crypto = some second ∧
        Crypto.Paired P a first second := by
  rcases keyed with ⟨callerCfg, listenerCfg, keyLen, salt, sek, first, second, _, _, shared, sized,
    exchanged, caller, listener⟩
  exact ⟨_, first, second, caller, listener,
    @Crypto.keyExchange_paired P { callerCfg with keyLen } listenerCfg salt sek ideal sized shared
      first second exchanged⟩

/-- The endpoints are linked when the handshake ends. -/
theorem linked {a : Agreement} {first second : Crypto} (consistent : setup.Consistent)
    (caller : setup.caller.crypto = some first) (listener : setup.listener.crypto = some second)
    (paired : Crypto.Paired P a first second) :
    Linked P a (setup.duplex P).caller (setup.duplex P).listener := by
  rcases setup.callerConn_state P with ⟨cfg, receiver, _, silent, state⟩
  rcases setup.listenerConn_state with ⟨cfg', receiver', _, silent', state'⟩
  rw [caller] at state
  rw [listener] at state'
  refine ⟨⟨setup.callerConn_opened P, setup.listenerConn_opened⟩, ?_, ?_⟩
  · apply Channel.fresh consistent.1 rfl rfl _ state state' silent' paired.agrees.2 paired.sends.1
    intro packet member
    cases member
  · apply Channel.fresh consistent.2.1 rfl rfl _ state' state silent paired.agrees.1 paired.sends.2
    intro packet member
    rw [List.mem_singleton.mp member]
    trivial

end Setup

namespace Duplex

variable {P : Primitives} {d : Duplex}

theorem linked_of_reachable (ideal : P.Ideal)
    (reachable : ((machine P).restrict Careful).Reachable d) :
    Exists fun a => Linked P a d.caller d.listener := by
  refine reachable.invariant (fun d => Exists fun a => Linked P a d.caller d.listener) ?_ ?_
  · rintro state ⟨setup, consistent, keyed, rfl⟩
    rcases keyed.paired ideal with ⟨a, first, second, caller, listener, paired⟩
    exact ⟨a, setup.linked consistent caller listener paired⟩
  · rintro state ⟨side, action⟩ ⟨a, linked⟩ ⟨permits, careful⟩
    cases side with
    | caller => exact ⟨a, linked.act ideal permits careful⟩
    | listener => exact ⟨a, (linked.symm.act ideal permits careful).symm⟩

/-- In every run in which no acknowledgement announces a key into a slot that a buffered
packet uses, every data packet that arrives is one that the other side accepted, and the
engine that it meets reads it. -/
theorem refresh_strands_nothing (ideal : P.Ideal)
    (reachable : ((machine P).restrict Careful).Reachable d) (side : Side) {flying : Flying}
    {rest : List Flying} (arrives : (d.endpoint side).inbox = flying :: rest) {packet : DataPacket}
    (data : flying.2 = .data packet) {sender : Sender} {receiver : Receiver}
    {crypto : Option Crypto}
    (established : (d.endpoint side).conn.state = .established sender receiver crypto) :
    Exists fun engine => Exists fun index => Exists fun clear =>
      crypto = some engine ∧ flying.1 = some index ∧
        (d.endpoint side.other).accepted[index]? = some clear ∧
        (clear ≠ [] ->
          (engine.decrypt P packet.seq packet.encryption packet.payload).2 = .ok clear) := by
  rcases linked_of_reachable ideal reachable with ⟨a, linked⟩
  cases side with
  | caller => exact linked.back.reads arrives data established
  | listener => exact linked.forth.reads arrives data established

/-! ### Requests overtake the buffer -/

/-- A refresh after every packet, and one packet every 20 ms. -/
def pacedOptions : SrtOptions := { Crypto.hastyOptions with bandwidth := .max 68000 }

def hastyInitiator : Crypto :=
  (Crypto.newInitiator .sample Crypto.hastyConfig Connection.sampleDraw.salt
    Connection.sampleDraw.key).handleKmrsp Connection.secretRequest |>.1

def hastyResponder : Crypto :=
  (Crypto.newResponder .sample Crypto.hastyConfig Connection.secretRequest).toOption.getD
    hastyInitiator

def hastySetup : Setup :=
  { Dialogue.secretSetup with
    callerOpts := pacedOptions
    listenerOpts := pacedOptions
    caller := Dialogue.secretNegotiated ⟨[10, 0, 0, 1], 4200⟩ ⟨1⟩ ⟨2⟩ hastyInitiator
    listener := Dialogue.secretNegotiated ⟨[10, 0, 0, 2], 5000⟩ ⟨2⟩ ⟨1⟩ hastyResponder }

theorem hastySetup_start : (machine .sample).start (hastySetup.duplex .sample) := by
  have exchanged : Crypto.keyExchange .sample Crypto.hastyConfig Crypto.hastyConfig
      Connection.sampleDraw.salt Connection.sampleDraw.key =
        some (hastyInitiator, hastyResponder) := by
    decide +kernel
  have resolved : pacedOptions.cryptoConfig = .ok (some Crypto.hastyConfig) := by decide +kernel
  exact ⟨hastySetup, ⟨rfl, rfl, rfl, rfl⟩,
    ⟨_, _, .aes128, _, _, _, _, resolved, resolved, rfl, rfl, exchanged, rfl, rfl⟩, rfl⟩

/-- The key that a refresh would draw. -/
def drawn (byte : UInt8) : Draw :=
  { Connection.sampleDraw with key := ⟨List.replicate 16 byte⟩ }

/-- Five payloads are submitted and two emitted; their acknowledgement announces a second
key, and the third packet leaves.  Every poll is repeated until it emits nothing. -/
def firstRefresh : List (Side × Action) :=
  [(.caller, .send 1000000 [10]), (.caller, .send 1000000 [11]), (.caller, .send 1000000 [12]),
    (.caller, .send 1000000 [13]), (.caller, .send 1000000 [14]), (.caller, .poll 1000000),
    (.caller, .poll 1000000), (.caller, .poll 1000000), (.listener, .receive 2000000 (drawn 9)),
    (.listener, .receive 2000000 (drawn 9)), (.listener, .timer 11000000),
    (.listener, .poll 11000000), (.listener, .poll 11000000), (.listener, .poll 11000000),
    (.caller, .receive 12000000 (drawn 9)), (.caller, .receive 12000000 (drawn 2)),
    (.caller, .poll 12000000), (.caller, .poll 12000000), (.caller, .poll 12000000),
    (.listener, .receive 13000000 (drawn 9)), (.listener, .receive 13000000 (drawn 9)),
    (.listener, .poll 13000000), (.listener, .poll 13000000),
    (.caller, .receive 14000000 (drawn 9)), (.caller, .poll 22000000), (.caller, .poll 22000000)]

/-- The acknowledgement of the third packet switches to the second key, and two payloads are
submitted under it; that of the fourth announces a third key, whose request leaves before
the fifth packet. -/
def secondRefresh : List (Side × Action) :=
  [(.listener, .receive 23000000 (drawn 9)), (.listener, .timer 24000000),
    (.listener, .poll 24000000), (.listener, .poll 24000000),
    (.caller, .receive 25000000 (drawn 9)), (.caller, .send 26000000 [15]),
    (.caller, .send 26000000 [16]), (.caller, .poll 26000000), (.caller, .poll 26000000),
    (.listener, .receive 27000000 (drawn 9)), (.caller, .poll 42000000),
    (.caller, .poll 42000000), (.listener, .receive 43000000 (drawn 9)),
    (.listener, .timer 44000000), (.listener, .poll 44000000), (.listener, .poll 44000000),
    (.caller, .receive 45000000 (drawn 64)), (.caller, .poll 45000000), (.caller, .poll 45000000),
    (.caller, .poll 45000000), (.listener, .receive 46000000 (drawn 9)),
    (.listener, .receive 46000000 (drawn 9)), (.caller, .poll 62000000)]

/-- What the engine makes of the data packet that arrives first. -/
def reading (P : Primitives) (y : Endpoint) : Option (Except CryptoError Bytes) :=
  match y.inbox.head?, y.conn.engine with
  | some (_, .data packet), some engine =>
      some (engine.decrypt P packet.seq packet.encryption packet.payload).2
  | _, _ => none

theorem reading_eq_some {y : Endpoint} {result : Except CryptoError Bytes}
    (found : reading P y = some result) :
    Exists fun index => Exists fun packet => Exists fun rest =>
      y.inbox = (index, .data packet) :: rest ∧
      Exists fun sender => Exists fun receiver => Exists fun engine =>
        y.conn.state = .established sender receiver (some engine) ∧
          (engine.decrypt P packet.seq packet.encryption packet.payload).2 = result := by
  unfold reading at found
  split at found
  case h_1 index packet engine first present =>
    rcases List.head?_eq_some_iff.mp first with ⟨rest, inbox⟩
    refine ⟨index, packet, rest, inbox, ?_⟩
    unfold Connection.engine at present
    split at present
    case h_1 sender receiver crypto state =>
      cases present
      exact ⟨sender, receiver, engine, state, Option.some.inj found⟩
    case h_2 => cases present
  case h_2 => cases found

theorem refresh_strands_nothing_firstRefresh :
    ((machine .sample).exec (hastySetup.duplex .sample) firstRefresh).listener.inbox.map Prod.fst =
        [some 2] ∧
      ((machine .sample).exec (hastySetup.duplex .sample) firstRefresh).caller.accepted[2]? =
        some [12] ∧
      reading .sample ((machine .sample).exec (hastySetup.duplex .sample) firstRefresh).listener =
        some (.ok [12]) := by
  have run := Machine.run_exec (M := (machine .sample).restrict Careful) hastySetup_start
    (by decide +kernel :
      ((machine .sample).restrict Careful).Allowed (hastySetup.duplex .sample) firstRefresh)
  have reached : ((machine .sample).restrict Careful).Reachable
      ((machine .sample).exec (hastySetup.duplex .sample) firstRefresh) := ⟨_, run⟩
  have here : ((machine .sample).exec (hastySetup.duplex .sample) firstRefresh).listener.inbox.map
      Prod.fst = [some 2] := by
    decide +kernel
  have third : ((machine .sample).exec (hastySetup.duplex .sample)
      firstRefresh).caller.accepted[2]? = some [12] := by
    decide +kernel
  have data : (reading .sample
      ((machine .sample).exec (hastySetup.duplex .sample) firstRefresh).listener).isSome := by
    decide +kernel
  clear run
  -- The state is large, so only these facts about it are used from here on.
  generalize (machine .sample).exec (hastySetup.duplex .sample) firstRefresh = d
    at reached here third data ⊢
  rcases Option.isSome_iff_exists.mp data with ⟨result, found⟩
  rcases reading_eq_some found with ⟨first, packet, rest, inbox, sender, receiver, engine, state, rfl⟩
  rcases refresh_strands_nothing Primitives.sample_ideal reached .listener inbox rfl state with
    ⟨engine', index, clear, present, numbered, submitted, reads⟩
  have numbers := here
  rw [inbox, List.map_cons] at numbers
  cases present
  cases numbered
  cases (List.cons.inj numbers).1
  cases third.symm.trans submitted
  exact ⟨here, third, found.trans (congrArg some (reads (by decide)))⟩

/-- The fifth packet was encrypted with the first key, which the peer has lost. -/
theorem refresh_strands_fifth :
    (machine .sample).start (hastySetup.duplex .sample) ∧
      (machine .sample).Allowed (hastySetup.duplex .sample) (firstRefresh ++ secondRefresh) ∧
      ((machine .sample).exec (hastySetup.duplex .sample) (firstRefresh ++ secondRefresh)).listener.inbox.map
        Prod.fst = [some 4] ∧
      ((machine .sample).exec (hastySetup.duplex .sample) (firstRefresh ++ secondRefresh)).caller.accepted[4]? =
        some [14] ∧
      reading .sample ((machine .sample).exec (hastySetup.duplex .sample)
        (firstRefresh ++ secondRefresh)).listener = some (.ok [79]) := by
  refine ⟨hastySetup_start, ?_, ?_, ?_, ?_⟩
  · decide +kernel
  · decide +kernel
  · decide +kernel
  · decide +kernel

end Duplex

end Rsrt
