import Rsrt.Core.Lockstep

namespace Rsrt

open Rsrt.Basis

/-!
# Encryption is transparent

Two pairs of connections, one with a passphrase and one without, over lossless networks and
driven in step: the same submissions, polls, arrivals and timers at the same instants.  As
long as no key is switched and no accepted payload is empty, both pairs deliver the same
payloads.
-/

/-! ## The buffer without an engine -/

namespace Stack

variable {P : Primitives} {stack : Stack} {accepted : List Bytes}

theorem Plainly.call (plainly : stack.Plainly accepted) {call : Call}
    (quiet : forall now payload, call ≠ .push now payload) :
    (stack.call P call).Plainly accepted := by
  rcases plainly with ⟨w, tracks, holds⟩
  rcases call_window (P := P) tracks quiet with ⟨w', stream, base, tracks', _⟩
  exact ⟨w', tracks', holds.of_stream_eq stream base⟩

theorem Plainly.push (plainly : stack.Plainly accepted) (bare : stack.crypto = none) {now : Instant}
    {payload : Bytes} {sender : Sender} {crypto : Option Crypto}
    (ok : stack.sender.push P now payload stack.crypto = .ok (sender, crypto)) :
    Plainly (accepted ++ [payload]) { stack with sender, crypto } := by
  rcases plainly with ⟨w, tracks, holds⟩
  rcases push_window tracks ok with ⟨room, entry, stream, base, tracks', _, sealed⟩
  rw [bare] at sealed
  refine ⟨_, tracks', (holds.of_stream_eq stream base).submit ?_⟩
  have flags : EncryptionFlags.none = entry.encryption := congrArg (fun result => result.2.1) sealed
  have bytes : payload = entry.payload := congrArg (fun result => result.2.2) sealed
  exact ⟨flags.symm, bytes.symm⟩

end Stack

/-! ## Two endpoints in step -/

/-- The packets in flight that both pairs have. -/
def traffic (flying : List Flying) : List Flying := flying.filter fun flying => !flying.2.aside

theorem Reflects.mono {accepted : List Bytes} (more : List Bytes) {flying flying' : Flying}
    (reflects : Reflects accepted flying flying') : Reflects (accepted ++ more) flying flying' := by
  cases reflects with
  | same packet => exact .same packet
  | data packet submitted =>
      apply Reflects.data packet
      rw [List.getElem?_append_left (List.getElem?_eq_some_iff.mp submitted).1]
      exact submitted

theorem Reflects.aside_eq {accepted : List Bytes} {flying flying' : Flying}
    (reflects : Reflects accepted flying flying') : flying.2.aside = flying'.2.aside := by
  cases reflects <;> rfl

theorem traffic_of_rel {accepted : List Bytes} {emitted emitted' : Option Flying}
    (rel : Option.Rel (Reflects accepted) emitted emitted') :
    List.Forall₂ (Reflects accepted) (traffic emitted.toList) (traffic emitted'.toList) := by
  cases rel with
  | none => exact .nil
  | @some flying flying' reflects =>
      unfold traffic
      rw [Option.toList_some, Option.toList_some, List.filter_singleton, List.filter_singleton,
        reflects.aside_eq]
      cases flying'.2.aside with
      | true => exact .nil
      | false => exact .cons reflects .nil

namespace Endpoint

variable (P : Primitives)

/-- The payloads that an action submits. -/
def submits (self : Endpoint) : Action -> List Bytes
  | .send now payload => if (self.conn.send P now payload).isOk then [payload] else []
  | _ => []

theorem act_accepted (self : Endpoint) (action : Action) :
    (self.act P action).1.accepted = self.accepted ++ self.submits P action := by
  cases action with
  | send now payload =>
      unfold act submits
      dsimp only
      cases self.conn.send P now payload with
      | ok conn => rfl
      | error err => exact (List.append_nil _).symm
  | receive now draw =>
      unfold act
      dsimp only
      split <;> exact (List.append_nil _).symm
  | _ => exact (List.append_nil _).symm

theorem calls_single (self : Endpoint) (action : Action) :
    self.calls action = [] ∨ Exists fun call => self.calls action = [call] := by
  unfold calls
  cases self.input action with
  | none => exact Or.inl rfl
  | some input =>
      rw [Option.toList_some, List.flatMap_singleton]
      exact self.conn.calls_single input

theorem send_of_push {self : Endpoint} {action : Action} {now : Instant} {payload : Bytes}
    (member : Stack.Call.push now payload ∈ self.calls action) : action = .send now payload := by
  rcases List.mem_flatMap.mp member with ⟨input, taken, made⟩
  cases Connection.send_of_push made
  have sends := Option.mem_toList.mp taken
  cases action with
  | send now payload =>
      cases sends
      rfl
  | receive now draw =>
      rcases Option.map_eq_some_iff.mp sends with ⟨_, _, same⟩
      cases same
  | _ => cases sends

/-- The action moves a message that the other pair may lack. -/
def aside (self : Endpoint) : Action -> Bool
  | .poll _ => self.conn.transmitQ.head?.any Packet.aside
  | .receive _ _ => self.inbox.head?.any fun flying => flying.2.aside
  | _ => false

end Endpoint

/-- An endpoint with an engine and one without that do the same; `incoming` are the
payloads that their peers accepted. -/
structure Twin (incoming : List Bytes) (x x' : Endpoint) : Prop where
  conn : x.conn.Mirrors x'.conn
  opened : x'.conn.Opened
  accepted : x.accepted = x'.accepted
  delivered : x.delivered = x'.delivered
  inbox : List.Forall₂ (Reflects incoming) (traffic x.inbox) (traffic x'.inbox)
  plainly : forall stack : Stack,
    x'.conn.state = .established stack.sender stack.receiver stack.crypto ->
    stack.Plainly x'.accepted

section Twins

variable {P : Primitives} {a : Agreement} {x x' y y' : Endpoint} {incoming incoming' : List Bytes}
  {action : Action}

theorem Connection.Mirrors.bare {secret clear : Connection} (mirrors : secret.Mirrors clear)
    {stack : Stack} (is : clear.state = .established stack.sender stack.receiver stack.crypto) :
    stack.crypto = none := by
  rcases mirrors.cases with ⟨left, right, _, is', same⟩ | ⟨_, _, _, _, is'⟩
  · rcases stack with ⟨_, _, _⟩
    rcases right with ⟨_, _, _⟩
    cases is'.symm.trans is
    exact same.bare
  · cases is'.symm.trans is

/-- An open connection accepts what its sender accepts. -/
theorem Connection.send_isOk {c : Connection} {stack : Stack}
    (is : c.state = .established stack.sender stack.receiver stack.crypto) (now : Instant)
    (payload : Bytes) :
    (c.send P now payload).isOk = (stack.sender.push P now payload stack.crypto).isOk := by
  unfold Connection.send
  rw [is]
  dsimp only
  rcases stack.sender.push P now payload stack.crypto with err | ⟨_, _⟩ <;> rfl

theorem Connection.Mirrors.send_isOk {secret clear : Connection} (mirrors : secret.Mirrors clear)
    (now : Instant) (payload : Bytes) :
    (secret.send P now payload).isOk = (clear.send P now payload).isOk := by
  rcases mirrors.cases with ⟨left, right, is, is', same⟩ | ⟨_, _, _, is, is'⟩
  · rw [Connection.send_isOk is, Connection.send_isOk is']
    exact (same.push now payload).1
  · unfold Connection.send
    rw [is, is']
    rfl

theorem Connection.Mirrors.delivers {secret clear : Connection} (mirrors : secret.Mirrors clear)
    (now : Instant) : (secret.pollDeliver now).2 = (clear.pollDeliver now).2 := by
  unfold Connection.pollDeliver
  rcases mirrors.cases with ⟨left, right, is, is', same⟩ | ⟨_, _, kept, is, is'⟩
  · rw [is, is']
    dsimp only
    rw [same.receiver]
  · rw [is, is']
    cases kept <;> rfl

theorem Twin.submits_eq (twin : Twin incoming x x') (action : Action) :
    x.submits P action = x'.submits P action := by
  cases action with
  | send now payload =>
      unfold Endpoint.submits
      dsimp only
      rw [twin.conn.send_isOk]
  | _ => rfl

/-- The buffer after an action, without an engine. -/
theorem Endpoint.act_plainly (opened : x.conn.Opened)
    (bare : forall stack : Stack,
      x.conn.state = .established stack.sender stack.receiver stack.crypto -> stack.crypto = none)
    (plainly : forall stack : Stack,
      x.conn.state = .established stack.sender stack.receiver stack.crypto ->
      stack.Plainly x.accepted) (action : Action) {after : Stack}
    (is : (x.act P action).1.conn.state = .established after.sender after.receiver after.crypto) :
    after.Plainly (x.act P action).1.accepted := by
  rcases Endpoint.act_stack opened action is with ⟨stack, before, rfl⟩
  have holds := plainly stack before
  rw [Endpoint.act_accepted]
  by_cases sends : Exists fun now => Exists fun payload => action = .send now payload
  · rcases sends with ⟨now, payload, rfl⟩
    change (stack.call P (.push now payload)).Plainly _
    unfold Endpoint.submits
    dsimp only
    rw [Connection.send_isOk before]
    unfold Stack.call
    dsimp only
    cases pushed : stack.sender.push P now payload stack.crypto with
    | error err =>
        change stack.Plainly (x.accepted ++ [])
        rw [List.append_nil]
        exact holds
    | ok result => exact holds.push (bare stack before) pushed
  · have nothing : x.submits P action = [] := by
      cases action with
      | send now payload => exact absurd ⟨now, payload, rfl⟩ sends
      | _ => rfl
    rw [nothing, List.append_nil]
    rcases x.calls_single action with none | ⟨call, one⟩
    · rw [none]
      exact holds
    · rw [one]
      apply holds.call
      rintro now payload rfl
      exact sends ⟨now, payload, Endpoint.send_of_push (one ▸ List.mem_cons_self)⟩

/-! ### An action of both -/

/-- Only data carries an index. -/
theorem Channel.indexed (channel : Channel P a y x) {packet : DataPacket} {rest : List Flying} :
    x.inbox ≠ (none, .data packet) :: rest := by
  intro arrives
  rcases channel with ⟨_, _, _, _, carries, _, _⟩
  rw [arrives] at carries
  cases carries with
  | more taken _ => cases taken

theorem Twin.own (twin : Twin incoming x x') (opened : x.conn.Opened) {input : Connection.Input}
    (own : forall now datagram draw, input ≠ .datagram now datagram draw)
    (quiet : forall now, input ≠ .pollTransmit now)
    (together : (x.conn.handle P input).isOpen = (x'.conn.handle P input).isOpen) :
    (x.conn.handle P input).Mirrors (x'.conn.handle P input) := by
  apply twin.conn.handle opened twin.opened quiet _ together
  intro now packet member
  rcases Connection.datagram_of_data member with ⟨draw, same⟩
  exact own _ _ _ same

theorem Endpoint.front_inbox {now : Instant} {draw : Draw}
    (front : x.aside (.receive now draw) = false) :
    forall flying, flying ∈ x.inbox.head? -> (!flying.2.aside) = true := by
  intro flying first
  unfold Endpoint.aside at front
  dsimp only at front
  rw [Option.mem_def.mp first, Option.any_some] at front
  rw [front]
  rfl

theorem Endpoint.unblocked {now : Instant} (front : x.aside (.poll now) = false) :
    x.conn.Unblocked := by
  intro packet first
  unfold Endpoint.aside at front
  dsimp only at front
  rw [Option.mem_def.mp first, Option.any_some] at front
  exact front

/-- The packets that arrive first are handled. -/
theorem Twin.heard (twin : Twin y.accepted x x') (opened : x.conn.Opened)
    (channel : Channel P a y x) (filled : forall payload, payload ∈ y.accepted -> payload ≠ [])
    {now : Instant} {draw : Draw} {flying flying' : Flying} {rest : List Flying}
    (arrives : x.inbox = flying :: rest) (reflects : Reflects y.accepted flying flying')
    (together : (x.conn.handle P (.datagram now (.packet flying.2) draw)).isOpen =
      (x'.conn.handle P (.datagram now (.packet flying'.2) draw)).isOpen) :
    (x.conn.handle P (.datagram now (.packet flying.2) draw)).Mirrors
      (x'.conn.handle P (.datagram now (.packet flying'.2) draw)) := by
  cases reflects with
  | same packet =>
      cases packet with
      | data packet => exact absurd arrives channel.indexed
      | control packet =>
          apply twin.conn.handle opened twin.opened (fun _ same => by cases same) _ together
          intro now packet member
          rcases Connection.datagram_of_data member with ⟨draw, same⟩
          cases same
  | data packet submitted =>
      apply twin.conn.handleData opened twin.opened now draw _ together
      intro sender receiver crypto established
      rcases channel.reads arrives rfl established with
        ⟨engine, index, payload, present, numbered, sent, reads⟩
      cases numbered
      cases submitted.symm.trans sent
      exact ⟨engine, present, reads (filled _ (List.mem_of_getElem? sent))⟩

theorem Twin.receive (twin : Twin y.accepted x x') (opened : x.conn.Opened)
    (channel : Channel P a y x) (filled : forall payload, payload ∈ y.accepted -> payload ≠ [])
    {now : Instant} {draw : Draw} (front : x.aside (.receive now draw) = false)
    (front' : x'.aside (.receive now draw) = false)
    (together : (x.act P (.receive now draw)).1.conn.isOpen =
      (x'.act P (.receive now draw)).1.conn.isOpen) :
    (x.act P (.receive now draw)).1.conn.Mirrors (x'.act P (.receive now draw)).1.conn ∧
      List.Forall₂ (Reflects y.accepted) (traffic (x.act P (.receive now draw)).1.inbox)
        (traffic (x'.act P (.receive now draw)).1.inbox) := by
  have inbox := twin.inbox
  unfold traffic at inbox
  rcases filter_front (Endpoint.front_inbox front) with ⟨empty, nothing⟩ | ⟨flying, rest, arrives, first⟩
  · rw [nothing] at inbox
    rcases filter_front (Endpoint.front_inbox front') with
      ⟨empty', _⟩ | ⟨flying', rest', arrives', first'⟩
    · rw [Endpoint.act_receive_empty empty, Endpoint.act_receive_empty empty']
      exact ⟨twin.conn, twin.inbox⟩
    · rw [first'] at inbox
      cases inbox
  · rw [first] at inbox
    rcases filter_front (Endpoint.front_inbox front') with
      ⟨_, nothing'⟩ | ⟨flying', rest', arrives', first'⟩
    · rw [nothing'] at inbox
      cases inbox
    · rw [first'] at inbox
      rw [Endpoint.act_receive_first arrives, Endpoint.act_receive_first arrives'] at together ⊢
      cases inbox with
      | cons reflects later =>
          exact ⟨twin.heard opened channel filled arrives reflects together, later⟩

/-- Both act: they stay in step, and what leaves one is reflected by what leaves the other. -/
theorem Twin.act (twin : Twin y.accepted x x') (opened : x.conn.Opened) (channel : Channel P a y x)
    (filled : forall payload, payload ∈ y.accepted -> payload ≠ [])
    (front : x.aside action = false) (front' : x'.aside action = false)
    (together : (x.act P action).1.conn.isOpen = (x'.act P action).1.conn.isOpen) :
    Twin y.accepted (x.act P action).1 (x'.act P action).1 ∧
      Option.Rel (Reflects (x.act P action).1.accepted) (x.act P action).2 (x'.act P action).2 := by
  have accepted : (x.act P action).1.accepted = (x'.act P action).1.accepted := by
    rw [Endpoint.act_accepted, Endpoint.act_accepted, twin.accepted, twin.submits_eq]
  have opened' : (x'.act P action).1.conn.Opened := Endpoint.act_opened twin.opened action
  have plainly {after : Stack} :=
    @Endpoint.act_plainly P x' twin.opened (fun _ => twin.conn.bare) twin.plainly action after
  have conn {input : Connection.Input} (taken : x.input action = some input)
      (taken' : x'.input action = some input)
      (own : forall now datagram draw, input ≠ .datagram now datagram draw)
      (quiet : forall now, input ≠ .pollTransmit now) :
      (x.act P action).1.conn.Mirrors (x'.act P action).1.conn := by
    rw [Endpoint.act_conn, Endpoint.act_conn, taken, taken'] at together ⊢
    exact twin.own opened own quiet together
  cases action with
  | send now payload =>
      have inbox (z : Endpoint) : (z.act P (.send now payload)).1.inbox = z.inbox ∧
          (z.act P (.send now payload)).1.delivered = z.delivered ∧
          (z.act P (.send now payload)).2 = none := by
        unfold Endpoint.act
        dsimp only
        split <;> exact ⟨rfl, rfl, rfl⟩
      refine ⟨⟨conn rfl rfl (fun _ _ _ same => by cases same) (fun _ same => by cases same), opened',
        accepted, ?_, ?_, fun _ => plainly⟩, ?_⟩
      · rw [(inbox x).2.1, (inbox x').2.1]
        exact twin.delivered
      · rw [(inbox x).1, (inbox x').1]
        exact twin.inbox
      · rw [(inbox x).2.2, (inbox x').2.2]
        exact .none
  | poll now =>
      have polled := twin.conn.pollTransmitAt (Endpoint.unblocked front) (Endpoint.unblocked front')
        twin.plainly now
      refine ⟨⟨polled.1, opened', accepted, twin.delivered, twin.inbox, fun _ => plainly⟩, ?_⟩
      rw [accepted]
      exact polled.2
  | receive now draw =>
      rcases twin.receive opened channel filled front front' together with ⟨mirrors, inbox⟩
      have idle (z : Endpoint) : (z.act P (.receive now draw)).1.delivered = z.delivered ∧
          (z.act P (.receive now draw)).2 = none := by
        unfold Endpoint.act
        cases z.inbox <;> exact ⟨rfl, rfl⟩
      refine ⟨⟨mirrors, opened', accepted, ?_, inbox, fun _ => plainly⟩, ?_⟩
      · rw [(idle x).1, (idle x').1]
        exact twin.delivered
      · rw [(idle x).2, (idle x').2]
        exact .none
  | deliver now =>
      refine ⟨⟨conn rfl rfl (fun _ _ _ same => by cases same) (fun _ same => by cases same), opened',
        accepted, ?_, twin.inbox, fun _ => plainly⟩, .none⟩
      change x.delivered ++ _ = x'.delivered ++ _
      rw [twin.delivered, twin.conn.delivers]
  | _ =>
      exact ⟨⟨conn rfl rfl (fun _ _ _ same => by cases same) (fun _ same => by cases same), opened',
        accepted, twin.delivered, twin.inbox, fun _ => plainly⟩, .none⟩

/-- The peers take what leaves. -/
theorem Twin.enqueue (twin : Twin incoming y y') (more : List Bytes) (emitted emitted' : Option Flying)
    (reflect : List.Forall₂ (Reflects (incoming ++ more)) (traffic emitted.toList)
      (traffic emitted'.toList)) :
    Twin (incoming ++ more) (y.enqueue emitted) (y'.enqueue emitted') := by
  refine ⟨twin.conn, twin.opened, twin.accepted, twin.delivered, ?_, twin.plainly⟩
  unfold Endpoint.enqueue traffic
  dsimp only
  rw [List.filter_append, List.filter_append]
  apply List.rel_append
  · exact twin.inbox.imp fun _ _ reflects => reflects.mono more
  · exact reflect

/-! ### An action of one of them -/

/-- What is left of an endpoint by an action that moves a message beside the traffic. -/
structure Endpoint.Rests (x x' : Endpoint) (emitted : Option Flying) : Prop where
  conn : x.conn.Rests x'.conn
  accepted : x'.accepted = x.accepted
  delivered : x'.delivered = x.delivered
  inbox : traffic x'.inbox = traffic x.inbox
  emits : traffic emitted.toList = []

theorem Endpoint.act_rests (opened : x.conn.Opened) (ahead : x.aside action = true)
    (stays : (x.act P action).1.conn.isOpen = x.conn.isOpen) :
    x.Rests (x.act P action).1 (x.act P action).2 := by
  cases action with
  | poll now =>
      unfold Endpoint.aside at ahead
      dsimp only at ahead
      cases front : x.conn.transmitQ.head? with
      | none =>
          rw [front] at ahead
          cases ahead
      | some packet =>
          rw [front] at ahead
          rcases Connection.poll_rests opened front ahead now with ⟨conn, stamped, emitted, beside⟩
          refine ⟨conn, rfl, rfl, rfl, ?_⟩
          change traffic (x.conn.pollTransmitAt now).2.toList = []
          rw [emitted]
          unfold traffic
          rw [Option.toList_some, List.filter_singleton, beside]
          rfl
  | receive now draw =>
      unfold Endpoint.aside at ahead
      dsimp only at ahead
      cases inbox : x.inbox with
      | nil =>
          rw [inbox] at ahead
          cases ahead
      | cons flying rest =>
          rw [inbox] at ahead
          rw [Endpoint.act_receive_first inbox] at stays ⊢
          refine ⟨Connection.handle_rests opened ahead now draw stays, rfl, rfl, ?_, rfl⟩
          change traffic rest = traffic x.inbox
          rw [inbox]
          unfold traffic
          symm
          apply List.filter_cons_of_neg
          rw [show flying.2.aside = true from ahead]
          decide
  | _ => cases ahead

theorem Twin.left (twin : Twin incoming x x') {z : Endpoint} {emitted : Option Flying}
    (rests : x.Rests z emitted) : Twin incoming z x' := by
  refine ⟨twin.conn.left rests.conn, twin.opened, rests.accepted.trans twin.accepted,
    rests.delivered.trans twin.delivered, ?_, twin.plainly⟩
  rw [rests.inbox]
  exact twin.inbox

theorem Twin.right (twin : Twin incoming x x') (ahead : x'.aside action = true)
    (stays : (x'.act P action).1.conn.isOpen = x'.conn.isOpen) :
    Twin incoming x (x'.act P action).1 := by
  have rests := Endpoint.act_rests twin.opened ahead stays
  refine ⟨twin.conn.right rests.conn, Endpoint.act_opened twin.opened action,
    twin.accepted.trans rests.accepted.symm, twin.delivered.trans rests.delivered.symm, ?_, ?_⟩
  · rw [rests.inbox]
    exact twin.inbox
  · intro stack
    exact Endpoint.act_plainly twin.opened (fun _ => twin.conn.bare) twin.plainly action

end Twins

/-! ## Both pairs -/

/-- No engine of the endpoint has switched its key. -/
def Endpoint.Switchless (x : Endpoint) : Prop :=
  forall engine, engine ∈ x.conn.engine -> engine.keySwitches = 0

instance (x : Endpoint) : Decidable x.Switchless :=
  inferInstanceAs (Decidable (forall engine, engine ∈ x.conn.engine -> engine.keySwitches = 0))

/-- The payloads that the endpoint accepted are not empty. -/
def Endpoint.Filled (x : Endpoint) : Prop := forall payload, payload ∈ x.accepted -> payload ≠ []

/-- Until the first switch the components seal with the even key. -/
def Endpoint.Even (x : Endpoint) : Prop :=
  forall stack : Stack,
    x.conn.state = .established stack.sender stack.receiver stack.crypto -> stack.Even

/-- The endpoints of the pair with a passphrase, and those of the pair without. -/
structure InStep (P : Primitives) (a : Agreement) (x y x' y' : Endpoint) : Prop where
  linked : Linked P a x y
  even : x.Even ∧ y.Even
  filled : x.Filled ∧ y.Filled
  here : Twin y.accepted x x'
  there : Twin x.accepted y y'

section InStep

variable {P : Primitives} {a : Agreement} {x y x' y' : Endpoint} {action : Action}

theorem InStep.symm (inStep : InStep P a x y x' y') : InStep P a y x y' x' :=
  ⟨inStep.linked.symm, inStep.even.symm, inStep.filled.symm, inStep.there, inStep.here⟩

/-- Before the first switch no announcement can hit a slot in use. -/
theorem Endpoint.Even.careful (even : x.Even) (switchless : x.Switchless) (action : Action) :
    x.Careful action := by
  unfold Endpoint.Careful
  cases state : x.conn.state with
  | connecting hs pendingSend earlyData => trivial
  | closed reason kept => trivial
  | established sender receiver crypto =>
      intro input _ call _
      apply (even { sender, receiver, crypto } state).careful
      intro engine present
      apply switchless
      unfold Connection.engine
      rw [state]
      exact present

theorem Endpoint.Even.act (ideal : P.Ideal) (even : x.Even) (channel : Channel P a y x)
    (opened : x.conn.Opened) (permits : x.Permits action) : (x.act P action).1.Even := by
  rcases channel with ⟨_, arriving, slots, view, carries, agreed, _⟩
  rcases x.act_inbox (P := P) action arriving carries with ⟨slots', _, _, hears⟩
  intro after is
  rcases Endpoint.act_stack opened action is with ⟨stack, state, rfl⟩
  exact (even stack state).calls ideal (agreed stack state)
    (hears stack state (agreed stack state) permits)

/-- One side of both pairs acts. -/
theorem InStep.both (ideal : P.Ideal) (inStep : InStep P a x y x' y') (permits : x.Permits action)
    (switchless : x.Switchless) (filled : forall payload, payload ∈ x.submits P action -> payload ≠ [])
    (front : x.aside action = false) (front' : x'.aside action = false)
    (together : (x.act P action).1.conn.isOpen = (x'.act P action).1.conn.isOpen) :
    InStep P a (x.act P action).1 (y.enqueue (x.act P action).2) (x'.act P action).1
      (y'.enqueue (x'.act P action).2) := by
  have linked := inStep.linked
  rcases inStep.here.act linked.opened.1 linked.back inStep.filled.2 front front' together with
    ⟨here, emitted⟩
  refine ⟨linked.act ideal permits (inStep.even.1.careful switchless action),
    ⟨inStep.even.1.act ideal linked.back linked.opened.1 permits, inStep.even.2⟩, ⟨?_, inStep.filled.2⟩,
    here, ?_⟩
  · intro payload member
    rw [Endpoint.act_accepted] at member
    rcases List.mem_append.mp member with old | new
    · exact inStep.filled.1 payload old
    · exact filled payload new
  · rw [Endpoint.act_accepted] at emitted ⊢
    exact inStep.there.enqueue _ _ _ (traffic_of_rel emitted)

/-- One side of the pair with a passphrase moves a message that the other pair lacks. -/
theorem InStep.secret (ideal : P.Ideal) (inStep : InStep P a x y x' y') (permits : x.Permits action)
    (switchless : x.Switchless) (ahead : x.aside action = true)
    (stays : (x.act P action).1.conn.isOpen = x.conn.isOpen) :
    InStep P a (x.act P action).1 (y.enqueue (x.act P action).2) x' y' := by
  have linked := inStep.linked
  have rests := Endpoint.act_rests linked.opened.1 ahead stays
  have same : (x.act P action).1.accepted = x.accepted := rests.accepted
  refine ⟨linked.act ideal permits (inStep.even.1.careful switchless action),
    ⟨inStep.even.1.act ideal linked.back linked.opened.1 permits, inStep.even.2⟩, ⟨?_, inStep.filled.2⟩,
    inStep.here.left rests, ?_⟩
  · intro payload member
    exact inStep.filled.1 payload (same ▸ member)
  · have nothing : List.Forall₂ (Reflects (x.accepted ++ [])) (traffic (x.act P action).2.toList)
        (traffic []) := by
      rw [rests.emits]
      exact .nil
    have there := inStep.there.enqueue [] (x.act P action).2 none nothing
    rw [Endpoint.enqueue_none, List.append_nil] at there
    rw [same]
    exact there

/-- One side of the pair without a passphrase moves a message that the other pair lacks. -/
theorem InStep.clear (inStep : InStep P a x y x' y') (ahead : x'.aside action = true)
    (stays : (x'.act P action).1.conn.isOpen = x'.conn.isOpen) :
    InStep P a x y (x'.act P action).1 (y'.enqueue (x'.act P action).2) := by
  have rests := Endpoint.act_rests inStep.here.opened ahead stays
  refine ⟨inStep.linked, inStep.even, inStep.filled, inStep.here.right ahead stays, ?_⟩
  have nothing : List.Forall₂ (Reflects (x.accepted ++ [])) (traffic [])
      (traffic (x'.act P action).2.toList) := by
    rw [rests.emits]
    exact .nil
  have there := inStep.there.enqueue [] none (x'.act P action).2 nothing
  rw [Endpoint.enqueue_none, List.append_nil] at there
  exact there

end InStep

namespace Setup

/-- The same setup without a passphrase; the handshake ends with another response. -/
def bare (setup : Setup) (hsReply : HandshakeCif) : Setup :=
  { setup with
    callerOpts := { setup.callerOpts with passphrase := none }
    listenerOpts := { setup.listenerOpts with passphrase := none }
    caller := { setup.caller with crypto := none }
    listener := { setup.listener with crypto := none }
    hsReply }

variable {P : Primitives} {setup : Setup}

theorem callerConn_mirrors (P : Primitives) (setup : Setup) (hsReply : HandshakeCif) :
    (setup.callerConn P).Mirrors ((setup.bare hsReply).callerConn P) := by
  refine ⟨rfl, rfl, rfl, rfl, ?_⟩
  exact @Connection.Faces.established ⟨_, _, _⟩ ⟨_, _, _⟩ ⟨rfl, rfl, rfl⟩

theorem listenerConn_mirrors (setup : Setup) (hsReply : HandshakeCif) :
    setup.listenerConn.Mirrors (setup.bare hsReply).listenerConn := by
  refine ⟨rfl, rfl, rfl, rfl, ?_⟩
  exact @Connection.Faces.established ⟨_, _, _⟩ ⟨_, _, _⟩ ⟨rfl, rfl, rfl⟩

/-- Two endpoints before anything is sent. -/
theorem twin_fresh {x x' : Connection} {cfg : SenderConfig} {receiver : Receiver}
    {crypto : Option Crypto} (mirrors : x.Mirrors x') (opened : x'.Opened)
    (is : x'.state = .established (Sender.new cfg) receiver crypto) :
    Twin [] { conn := x } { conn := x' } := by
  refine ⟨mirrors, opened, rfl, rfl, .nil, ?_⟩
  rintro ⟨_, _, _⟩ state
  cases is.symm.trans state
  refine ⟨SendWindow.start, Sender.tracks_new cfg, rfl, ?_⟩
  intro i entry payload _ there
  cases there

theorem even_fresh {x : Connection} {cfg : SenderConfig} {receiver : Receiver} {engine : Crypto}
    (even : engine.active = .even)
    (is : x.state = .established (Sender.new cfg) receiver (some engine)) :
    Endpoint.Even { conn := x } := by
  rintro ⟨_, _, _⟩ state
  cases is.symm.trans state
  intro other present _
  cases present
  refine ⟨even, SendWindow.start, Sender.tracks_new cfg, ?_⟩
  intro entry member
  cases member

theorem inStep {a : Agreement} {first second : Crypto} (consistent : setup.Consistent)
    (caller : setup.caller.crypto = some first) (listener : setup.listener.crypto = some second)
    (paired : Crypto.Paired P a first second) (hsReply : HandshakeCif) :
    InStep P a (setup.duplex P).caller (setup.duplex P).listener
      ((setup.bare hsReply).duplex P).caller ((setup.bare hsReply).duplex P).listener := by
  rcases setup.callerConn_state P with ⟨cfg, receiver, _, _, state⟩
  rcases setup.listenerConn_state with ⟨cfg', receiver', _, _, state'⟩
  rcases (setup.bare hsReply).callerConn_state P with ⟨_, _, _, _, bare⟩
  rcases (setup.bare hsReply).listenerConn_state with ⟨_, _, _, _, bare'⟩
  rw [caller] at state
  rw [listener] at state'
  constructor
  · exact setup.linked consistent caller listener paired
  · exact ⟨even_fresh paired.slot.1 state, even_fresh paired.slot.2 state'⟩
  · exact ⟨fun _ member => absurd member List.not_mem_nil,
      fun _ member => absurd member List.not_mem_nil⟩
  · exact twin_fresh (setup.callerConn_mirrors P hsReply)
      ((setup.bare hsReply).callerConn_opened P) bare
  · exact twin_fresh (setup.listenerConn_mirrors hsReply) (setup.bare hsReply).listenerConn_opened bare'

end Setup

/-- A pair with a passphrase and a pair without. -/
structure Comparison where
  secret : Duplex
  clear : Duplex
deriving DecidableEq

namespace Comparison

/-- What both pairs do, or one of them. -/
inductive Event
  | both (event : Side × Action)
  | secret (event : Side × Action)
  | clear (event : Side × Action)
deriving DecidableEq

/-- Both pairs keep the same connections open, and no key has been switched. -/
def Level (t : Comparison) : Prop :=
  (t.secret.caller.conn.isOpen = t.clear.caller.conn.isOpen ∧ t.secret.caller.Switchless) ∧
    (t.secret.listener.conn.isOpen = t.clear.listener.conn.isOpen ∧ t.secret.listener.Switchless)

instance (t : Comparison) : Decidable t.Level :=
  inferInstanceAs (Decidable
    ((t.secret.caller.conn.isOpen = t.clear.caller.conn.isOpen ∧ t.secret.caller.Switchless) ∧
      (t.secret.listener.conn.isOpen = t.clear.listener.conn.isOpen ∧ t.secret.listener.Switchless)))

/-- Messages beside the traffic move in one pair, everything else in both. -/
def Aligned (t : Comparison) : Event -> Prop
  | .both (side, action) =>
      (t.secret.endpoint side).Permits action ∧ (t.secret.endpoint side).aside action = false ∧
        (t.clear.endpoint side).aside action = false
  | .secret (side, action) =>
      (t.secret.endpoint side).Permits action ∧ (t.secret.endpoint side).aside action = true
  | .clear (side, action) => (t.clear.endpoint side).aside action = true

instance (t : Comparison) : forall event, Decidable (t.Aligned event)
  | .both (_, _) | .secret (_, _) => inferInstanceAs (Decidable (_ ∧ _))
  | .clear (_, _) => inferInstanceAs (Decidable (_ = true))

variable (P : Primitives)

def next (t : Comparison) : Event -> Comparison
  | .both event => { secret := t.secret.next P event, clear := t.clear.next P event }
  | .secret event => { t with secret := t.secret.next P event }
  | .clear event => { t with clear := t.clear.next P event }

/-- The same run of both pairs. -/
def machine : Machine Comparison Event where
  start t := Exists fun setup : Setup => Exists fun hsReply => setup.Consistent ∧ setup.Keyed P ∧
    t = { secret := setup.duplex P, clear := (setup.bare hsReply).duplex P }
  guard t event := t.Aligned event ∧ (t.next P event).Level
  next := next P

instance (t : Comparison) (event : Event) : Decidable ((machine P).guard t event) :=
  inferInstanceAs (Decidable (t.Aligned event ∧ (t.next P event).Level))

/-- A payload that is accepted is not empty. -/
def Filled (t : Comparison) : Event -> Prop
  | .both (side, action) =>
      forall payload, payload ∈ (t.secret.endpoint side).submits P action -> payload ≠ []
  | _ => True

instance (t : Comparison) : forall event, Decidable (t.Filled P event)
  | .both (side, action) => inferInstanceAs (Decidable
      (forall payload, payload ∈ (t.secret.endpoint side).submits P action -> payload ≠ []))
  | .secret _ | .clear _ => .isTrue trivial

variable {P} {t : Comparison}

/-- The pairs are in step. -/
def Steady (P : Primitives) (t : Comparison) : Prop :=
  t.Level ∧ Exists fun a =>
    InStep P a t.secret.caller t.secret.listener t.clear.caller t.clear.listener

theorem Steady.next (ideal : P.Ideal) (steady : t.Steady P) {event : Event}
    (allowed : (machine P).guard t event) (filled : t.Filled P event) :
    (t.next P event).Steady P := by
  rcases steady with ⟨⟨⟨open₁, switchless₁⟩, ⟨open₂, switchless₂⟩⟩, a, inStep⟩
  rcases allowed with ⟨aligned, level⟩
  refine ⟨level, a, ?_⟩
  rcases level with ⟨⟨after₁, _⟩, ⟨after₂, _⟩⟩
  rcases event with ⟨side, action⟩ | ⟨side, action⟩ | ⟨side, action⟩
  · rcases aligned with ⟨permits, front, front'⟩
    cases side with
    | caller => exact inStep.both ideal permits switchless₁ filled front front' after₁
    | listener => exact (inStep.symm.both ideal permits switchless₂ filled front front' after₂).symm
  · rcases aligned with ⟨permits, ahead⟩
    cases side with
    | caller => exact inStep.secret ideal permits switchless₁ ahead (after₁.trans open₁.symm)
    | listener =>
        exact (inStep.symm.secret ideal permits switchless₂ ahead (after₂.trans open₂.symm)).symm
  · cases side with
    | caller => exact inStep.clear aligned (after₁.symm.trans open₁)
    | listener => exact (inStep.symm.clear aligned (after₂.symm.trans open₂)).symm

theorem Steady.start (ideal : P.Ideal) (begins : (machine P).start t) : t.Steady P := by
  rcases begins with ⟨setup, hsReply, consistent, keyed, rfl⟩
  rcases keyed.paired ideal with ⟨a, first, second, caller, listener, paired⟩
  refine ⟨⟨⟨rfl, ?_⟩, ⟨rfl, ?_⟩⟩, a, setup.inStep consistent caller listener paired hsReply⟩
  · intro engine present
    cases caller.symm.trans present
    exact paired.fresh.1
  · intro engine present
    cases listener.symm.trans present
    exact paired.fresh.2

/-- In every run of both pairs in which no accepted payload is empty, both pairs accept and
deliver the same payloads. -/
theorem encryption_transparent (ideal : P.Ideal)
    (reachable : ((machine P).restrict (Filled P)).Reachable t) (side : Side) :
    (t.secret.endpoint side).accepted = (t.clear.endpoint side).accepted ∧
      (t.secret.endpoint side).delivered = (t.clear.endpoint side).delivered := by
  have steady : t.Steady P := by
    refine reachable.invariant (Steady P) ?_ ?_
    · exact fun t begins => Steady.start ideal begins
    · rintro t event steady ⟨allowed, filled⟩
      exact steady.next ideal allowed filled
  rcases steady with ⟨_, a, inStep⟩
  cases side with
  | caller => exact ⟨inStep.here.accepted, inStep.here.delivered⟩
  | listener => exact ⟨inStep.there.accepted, inStep.there.delivered⟩

/-! ### Runs of both pairs -/

/-- The response of the handshake without a passphrase. -/
def clearReply : HandshakeCif :=
  { Dialogue.secretReply with
    extensionField := hsExtHsreq
    extensions := [.hsRsp (plainFields 120)] }

def pairs : Comparison where
  secret := Dialogue.secretSetup.duplex .sample
  clear := (Dialogue.secretSetup.bare clearReply).duplex .sample

theorem pairs_start : (machine .sample).start pairs := by
  have exchanged : Crypto.keyExchange .sample Dialogue.secretConfig Dialogue.secretConfig
      Connection.sampleDraw.salt Connection.sampleDraw.key =
        some (Dialogue.secretInitiator, Dialogue.secretResponder) := by
    decide +kernel
  have resolved : Connection.secretOptions.cryptoConfig = .ok (some Dialogue.secretConfig) := by
    decide +kernel
  exact ⟨Dialogue.secretSetup, clearReply, ⟨rfl, rfl, rfl, rfl⟩,
    ⟨Dialogue.secretConfig, Dialogue.secretConfig, .aes128, _, _, _, _, resolved, resolved, rfl, rfl,
      exchanged, rfl, rfl⟩, rfl⟩

/-- The responses of the handshakes are sent once more, a payload is carried over,
acknowledged and delivered. -/
def onePayload : List Event :=
  [.secret (.listener, .poll 500000), .clear (.listener, .poll 500000),
    .secret (.caller, .receive 600000 Connection.sampleDraw),
    .clear (.caller, .receive 600000 Connection.sampleDraw),
    .both (.caller, .send 1000000 [7]), .both (.caller, .poll 1000000),
    .both (.listener, .receive 2000000 Connection.sampleDraw), .both (.listener, .timer 12000000),
    .both (.listener, .poll 12000000), .both (.caller, .receive 13000000 Connection.sampleDraw),
    .both (.listener, .deliver 500000000)]

theorem encryption_transparent_onePayload :
    ((machine .sample).exec pairs onePayload).secret.listener.delivered = [[7]] ∧
      ((machine .sample).exec pairs onePayload).clear.listener.delivered = [[7]] := by
  have run := Machine.run_exec (M := (machine .sample).restrict (Filled .sample)) pairs_start
    (by decide +kernel :
      ((machine .sample).restrict (Filled .sample)).Allowed pairs onePayload)
  have reached : ((machine .sample).restrict (Filled .sample)).Reachable
      ((machine .sample).exec pairs onePayload) := ⟨_, run⟩
  have delivered : ((machine .sample).exec pairs onePayload).clear.listener.delivered = [[7]] := by
    decide +kernel
  clear run
  -- The state is large, so only these facts about it are used from here on.
  generalize (machine .sample).exec pairs onePayload = t at reached delivered ⊢
  rcases encryption_transparent Primitives.sample_ideal reached .listener with ⟨_, same⟩
  exact ⟨same.trans delivered, delivered⟩

/-- An empty payload and another one. -/
def emptyPayload : List Event :=
  [.both (.caller, .send 1000000 []), .both (.caller, .send 1000000 [7]),
    .both (.caller, .poll 1000000), .both (.caller, .poll 1100000),
    .both (.listener, .receive 2000000 Connection.sampleDraw),
    .both (.listener, .receive 2000000 Connection.sampleDraw),
    .both (.listener, .deliver 500000000), .both (.listener, .deliver 500000000),
    .both (.listener, .deliver 500000000)]

/-- The empty payload goes without KK bits, and the engine of the peer rejects it. -/
theorem encryption_loses_empty :
    (machine .sample).start pairs ∧ (machine .sample).Allowed pairs emptyPayload ∧
      ((machine .sample).exec pairs emptyPayload).secret.caller.accepted = [[], [7]] ∧
      ((machine .sample).exec pairs emptyPayload).clear.caller.accepted = [[], [7]] ∧
      ((machine .sample).exec pairs emptyPayload).secret.listener.delivered = [[7]] ∧
      ((machine .sample).exec pairs emptyPayload).clear.listener.delivered = [[], [7]] := by
  refine ⟨pairs_start, ?_, ?_, ?_, ?_, ?_⟩
  · decide +kernel
  · decide +kernel
  · decide +kernel
  · decide +kernel
  · decide +kernel

end Comparison

end Rsrt
