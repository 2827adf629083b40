import Rsrt.Driver.Caller
import Rsrt.Driver.Demux

namespace Rsrt

open Rsrt.Basis

/-!
# A caller and a listener

One caller, a listener and the connections that the listener has started, over a network that
may lose, duplicate, delay and reorder datagrams but not forge them.  What the caller hears was
sent to it, and what the listener hears from the caller's address the caller has sent.  From
other addresses anything may come, and the connections of the listener may hear anything.
-/

/-- A connection of the listener, as it was accepted and as it is now. -/
structure Served where
  accepted : Connection
  live : Connection

structure Meeting where
  caller : Connection
  demux : Demux
  served : List Served := []
  /-- Everything that the caller has sent. -/
  toListener : List Bytes := []
  /-- Everything that was sent to the caller. -/
  toCaller : List Bytes := []

namespace Meeting

inductive Event
  /-- A call of the application or of a timer at the caller. -/
  | callerInput (input : Connection.Input)
  | callerHears (now : Instant) (datagram : Bytes) (draw : Draw)
  | callerTransmits (now : Instant)
  | listener (event : Demux.Event)
  | servedInput (tx : Nat) (input : Connection.Input)
  | servedTransmits (tx : Nat) (now : Instant)
deriving DecidableEq

/-- What an output sends to an address. -/
def sentTo (dest : SocketAddrV4) : Option ListenerOutput -> List Bytes
  | some (.send packet dest') => if dest' = dest then [packet.encode] else []
  | _ => []

variable (P : Primitives) (terms : Terms)

/-- What the driver does at an event. -/
def output (s : Meeting) : Demux.Event -> Option ListenerOutput
  | .datagram now source datagram rolls => (s.demux.receive P now source datagram rolls).2
  | _ => none

def hear (s : Meeting) (now : Instant) (datagram : Bytes) (draw : Draw) : Connection :=
  s.caller.handle P (.datagram now (.ofBytes datagram) draw)

/-- What a served connection sends to the caller. -/
def servedSends (served : Served) (now : Instant) : List Bytes :=
  if served.live.remote = terms.home then ((served.live.pollTransmit now).2.map Packet.encode).toList
  else []

def next (s : Meeting) : Event -> Meeting
  | .callerInput input => { s with caller := s.caller.handle P input }
  | .callerHears now datagram draw => { s with caller := s.hear P now datagram draw }
  | .callerTransmits now =>
      { s with
          caller := (s.caller.pollTransmit now).1
          toListener := s.toListener ++ ((s.caller.pollTransmit now).2.map Packet.encode).toList }
  | .listener event =>
      { s with
          demux := s.demux.next P event
          served := s.served ++
            ((Demux.spawnedConn (s.output P event)).map fun conn => ⟨conn, conn⟩).toList
          toCaller := s.toCaller ++ sentTo terms.home (s.output P event) }
  | .servedInput tx input =>
      { s with
          served := s.served.modify tx fun served =>
            { served with live := served.live.handle P input } }
  | .servedTransmits tx now =>
      { s with
          served := s.served.modify tx fun served =>
            { served with live := (served.live.pollTransmit now).1 }
          toCaller := s.toCaller ++
            (s.served[tx]?.map fun served => servedSends terms served now).getD [] }

/-- A key that the caller draws has the length that it is drawn for. -/
def drawn : Connection.State -> Bool
  | .connecting hs _ _ => hs.sized
  | _ => true

/-- The network does not forge. -/
def carried (s : Meeting) : Demux.Event -> Prop
  | .datagram _ source datagram _ => source = terms.home -> datagram ∈ s.toListener
  | _ => True

instance decidableCarried (s : Meeting) : forall event, Decidable (s.carried terms event)
  | .datagram .. => inferInstanceAs (Decidable (_ -> _))
  | .reap _ | .accept | .dropHandle | .noticeDrop => .isTrue trivial

def allows (s : Meeting) : Event -> Prop
  | .callerInput input => input.own
  | .callerHears now datagram draw =>
      datagram ∈ s.toCaller ∧ drawn (s.hear P now datagram draw).state
  | .callerTransmits _ => True
  | .listener event => s.demux.allows event ∧ s.carried terms event
  | .servedInput _ _ => True
  | .servedTransmits _ _ => True

instance decidableAllows (s : Meeting) : forall event, Decidable (s.allows P terms event)
  | .callerInput _ => inferInstanceAs (Decidable (_ = true))
  | .callerHears .. | .listener _ => inferInstanceAs (Decidable (_ ∧ _))
  | .callerTransmits _ | .servedInput .. | .servedTransmits .. => .isTrue trivial

/-- The caller has just called, and the listener is bound. -/
inductive Opening : Meeting -> Prop
  | intro (now : Instant) (timebase : Timebase) (core : Listener)
      (configured : core.opts = terms.listenerOpts)
      (cookies : forall minute addr, core.cookieAt minute addr < 2 ^ 32) :
      Opening
        { caller := .connectWithTimebase now terms.remote terms.socketId terms.initialSeq
            terms.callerOpts timebase
          demux := { driver := .bound core } }

def machine : Machine Meeting Event where
  start := Opening terms
  guard := allows P terms
  next := next P terms

instance decidableGuard (s : Meeting) (event : Event) :
    Decidable ((machine P terms).guard s event) :=
  decidableAllows P terms s event

/-! ## The listener's side -/

/-- The connection was started for a conclusion from the caller's address. -/
inductive Started (P : Primitives) (terms : Terms) (core : Listener) (cif : HandshakeCif) :
    Connection -> Prop
  | intro (now : Instant) (hsTs : Timestamp) {newId : SocketId} {answer : HandshakeCif}
      {negotiated : Negotiated} (accepts : core.Accepts P terms.home cif newId answer negotiated) :
      Started P terms core cif
        ((Connection.accepted now negotiated (core.packet now cif.socketId answer)
          terms.listenerOpts).setHsAnchor now hsTs)

/-- The connections of the listener, as they were accepted. -/
def accepted (s : Meeting) : List Connection := s.served.map Served.accepted

/-- The conclusion is the reply of a connection that was accepted for the caller. -/
def Replied (terms : Terms) (s : Meeting) (cif : HandshakeCif) : Prop :=
  Exists fun conn => conn ∈ s.accepted ∧ conn.remote = terms.home ∧
    Exists fun reply : ControlPacket => conn.hsReply = some (.control reply) ∧
      reply.controlType = .handshake cif

/-- A served connection still has the reply that it was accepted with. -/
structure Serves (terms : Terms) (served : Served) : Prop where
  spoken : served.live.Spoken
  remote : served.live.remote = served.accepted.remote
  hsReply : served.live.hsReply = served.accepted.hsReply
  encodable : served.accepted.remote = terms.home ->
    forall reply : ControlPacket, served.accepted.hsReply = some (.control reply) ->
      forall cif, reply.controlType = .handshake cif -> cif.Encodable

/-- What holds whatever the caller does. -/
structure Honest (terms : Terms) (s : Meeting) : Prop where
  callerOpts : s.caller.opts = terms.callerOpts
  callerSocketId : s.caller.localSocketId = terms.socketId
  configured : s.demux.driver.core.opts = terms.listenerOpts
  settings : s.demux.driver.opts = terms.listenerOpts
  answering : s.demux.driver.core.Answering
  serves : forall served, served ∈ s.served -> Serves terms served
  heard : forall datagram, datagram ∈ s.toCaller -> forall hsTs cif,
    ListenerDriver.Reads datagram hsTs cif -> cif.handshakeType = .conclusion -> s.Replied terms cif

section Serving

variable {P : Primitives} {terms : Terms} {s : Meeting}

theorem mem_modify {Item : Type} {items : List Item} {place : Nat} {change : Item -> Item}
    {item : Item} (member : item ∈ items.modify place change) :
    item ∈ items ∨ Exists fun old => old ∈ items ∧ item = change old := by
  rcases List.mem_iff_getElem?.mp member with ⟨index, found⟩
  rw [List.getElem?_modify] at found
  rcases Option.map_eq_some_iff.mp found with ⟨old, present, same⟩
  have before := List.mem_of_getElem? present
  split_ifs at same
  · exact Or.inr ⟨old, before, same.symm⟩
  · exact Or.inl (same ▸ before)

theorem map_accepted_modify (items : List Served) (place : Nat) (change : Connection -> Connection) :
    (items.modify place fun served => { served with live := change served.live }).map
      Served.accepted = items.map Served.accepted := by
  apply List.ext_getElem?
  intro index
  rw [List.getElem?_map, List.getElem?_map, List.getElem?_modify, Option.map_eq_map,
    Option.map_map]
  congr 1
  funext served
  dsimp only [Function.comp]
  split_ifs <;> rfl

/-- Replies stay. -/
theorem Replied.mono {s' : Meeting} {cif : HandshakeCif} (replied : s.Replied terms cif)
    (kept : forall conn, conn ∈ s.accepted -> conn ∈ s'.accepted) : s'.Replied terms cif := by
  rcases replied with ⟨conn, member, theirs⟩
  exact ⟨conn, kept conn member, theirs⟩

theorem Serves.handle {served : Served} (serves : Serves terms served) (input : Connection.Input) :
    Serves terms { served with live := served.live.handle P input } := by
  have frame := Connection.handle_frame (P := P) served.live input
  exact ⟨serves.spoken.handle input, frame.remote.trans serves.remote,
    frame.hsReply.trans serves.hsReply, serves.encodable⟩

/-- What the caller can read as a conclusion from a served connection is its reply. -/
theorem Serves.sends {served : Served} (serves : Serves terms served)
    (member : served ∈ s.served) {now : Instant} {datagram : Bytes}
    (sent : datagram ∈ servedSends terms served now) {hsTs : Timestamp} {cif : HandshakeCif}
    (reads : ListenerDriver.Reads datagram hsTs cif) : s.Replied terms cif := by
  unfold servedSends at sent
  split_ifs at sent with toHome
  · rcases Option.map_eq_some_iff.mp (Option.mem_toList.mp sent) with ⟨packet, emitted, rfl⟩
    rcases reads with ⟨dst, parsed⟩
    rcases Packet.handshake_of_parse parsed rfl with ⟨control, said, rfl, message⟩
    rcases serves.spoken.handshake emitted message with ⟨reply, stored, replied⟩
    rw [serves.remote] at toHome
    rw [serves.hsReply] at stored
    have encodable := serves.encodable toHome reply stored said replied
    rw [encodable.parse message] at parsed
    cases parsed
    cases message
    exact ⟨served.accepted, List.mem_map.mpr ⟨served, member, rfl⟩, toHome, reply, stored, replied⟩
  · cases sent

/-- A connection that was just accepted. -/
theorem spoken_accepted (now : Instant) (negotiated : Negotiated) (reply : Packet)
    (opts : SrtOptions) (hsTs : Timestamp) :
    ((Connection.accepted now negotiated reply opts).setHsAnchor now hsTs).Spoken := by
  have halves : Stack.Reporting
      { sender := (transmissionPair now negotiated opts ⟨now⟩).1
        receiver := (transmissionPair now negotiated opts ⟨now⟩).2
        crypto := negotiated.crypto } := by
    constructor
    · intro message member
      have nothing : message ∈ ([] : List ControlType) := member
      cases nothing
    · intro message member
      have nothing : message ∈ ([] : List ControlType) := member
      cases nothing
  have anchored := halves.call (P := .sample) (.anchor now hsTs)
  have state : ((Connection.accepted now negotiated reply opts).setHsAnchor now hsTs).state =
      .established (transmissionPair now negotiated opts ⟨now⟩).1
        ((transmissionPair now negotiated opts ⟨now⟩).2.setHsAnchor now hsTs)
        negotiated.crypto := rfl
  refine ⟨?_, ?_, ?_⟩
  · intro hs pendingSend earlyData connecting
    rw [state] at connecting
    cases connecting
  · intro sender receiver crypto established
    rw [state] at established
    cases established
    exact anchored
  · intro packet member
    have queued : packet ∈ [reply] := member
    exact Or.inl (congrArg some (List.mem_singleton.mp queued).symm)

/-- An answer that is not a conclusion is not read as one. -/
theorem not_reads_of_declines {answer : HandshakeCif} (declines : Listener.Declines answer)
    {sent : ControlPacket} (message : sent.controlType = .handshake answer) {hsTs : Timestamp}
    {cif : HandshakeCif} (reads : ListenerDriver.Reads (Packet.control sent).encode hsTs cif) :
    cif.handshakeType ≠ .conclusion := by
  rcases reads with ⟨dst, parsed⟩
  rw [declines.encodable.parse message] at parsed
  cases parsed
  cases message
  exact declines.declines

/-- What the driver itself sends is no conclusion. -/
theorem Honest.sends (honest : Honest terms s) {now : Instant} {source : SocketAddrV4}
    {received : Bytes} {driver : ListenerDriver} {packet : Packet} {dest : SocketAddrV4}
    (handles : s.demux.driver.Handles P now source received (driver, some (.send packet dest)))
    {hsTs : Timestamp} {cif : HandshakeCif}
    (reads : ListenerDriver.Reads packet.encode hsTs cif) : cif.handshakeType ≠ .conclusion := by
  cases handles with
  | replies request replied =>
      rcases request with ⟨_, parsed⟩
      rcases Packet.typed_of_parse parsed with ⟨typed, shaped⟩
      rcases Listener.handleHandshake_reply honest.answering typed shaped replied with
        ⟨answer, rfl, declines⟩
      exact not_reads_of_declines declines rfl reads
  | @refuses _ _ code request coded =>
      rcases request with ⟨_, parsed⟩
      rcases Packet.typed_of_parse parsed with ⟨typed, shaped⟩
      have wellFormed : (HandshakeType.rejection code).WellFormed := by
        rcases coded with rfl | rfl <;> decide
      exact not_reads_of_declines
        ⟨HandshakeCif.rejection_encodable typed shaped wellFormed, nofun⟩ rfl reads

/-- A connection that the driver starts serves. -/
theorem Honest.serves_spawned (honest : Honest terms s) {now : Instant} {source : SocketAddrV4}
    {received : Bytes} {driver : ListenerDriver} {conn : Connection}
    (handles : s.demux.driver.Handles P now source received (driver, some (.spawn conn))) :
    Serves terms ⟨conn, conn⟩ := by
  cases handles with
  | @accepts hsTs cif newId reply negotiated request accepted fresh =>
      refine ⟨spoken_accepted now negotiated reply _ hsTs, rfl, rfl, ?_⟩
      intro toHome packet stored answer message
      have remote : negotiated.remote = source := by
        rcases Listener.handleHandshake_acceptance accepted with ⟨_, _, _, _, _, _, acceptance⟩
        cases acceptance
        rfl
      have octets : source.ip.length = 4 := by
        rw [← remote]
        exact (congrArg (fun addr => addr.ip.length) toHome).trans terms.home_octets
      rcases request with ⟨_, parsed⟩
      rcases Packet.typed_of_parse parsed with ⟨typed, shaped⟩
      rcases Listener.handleHandshake_accepts honest.answering octets typed shaped accepted with
        ⟨answer', rfl, accepts⟩
      cases stored
      cases message
      exact accepts.encodable

end Serving

/-! ## Runs -/

section Runs

variable {P : Primitives} {terms : Terms} {s : Meeting}

/-- The listener itself never changes. -/
theorem next_core (d : Demux) (event : Demux.Event) :
    (d.next P event).driver.core = d.driver.core ∧ (d.next P event).driver.opts = d.driver.opts := by
  cases event with
  | datagram now source datagram rolls =>
      have handles := d.driver.onDatagram_handles (P := P) now source datagram rolls d.permit
      change (d.settle (d.driver.onDatagram P now source datagram rolls d.permit)).driver.core = _ ∧
        (d.settle (d.driver.onDatagram P now source datagram rolls d.permit)).driver.opts = _
      generalize d.driver.onDatagram P now source datagram rolls d.permit = outcome at handles
      cases handles <;> exact ⟨rfl, rfl⟩
  | reap id =>
      change (d.driver.reap id).core = _ ∧ (d.driver.reap id).opts = _
      unfold ListenerDriver.reap
      split <;> exact ⟨rfl, rfl⟩
  | accept => exact ⟨rfl, rfl⟩
  | dropHandle => exact ⟨rfl, rfl⟩
  | noticeDrop => exact ⟨rfl, rfl⟩

theorem accepted_listener (s : Meeting) (event : Demux.Event) :
    (s.next P terms (.listener event)).accepted =
      s.accepted ++ (Demux.spawnedConn (s.output P event)).toList := by
  change (s.served ++ ((Demux.spawnedConn (s.output P event)).map
    fun conn => (⟨conn, conn⟩ : Served)).toList).map Served.accepted = _
  rw [List.map_append]
  congr 1
  cases Demux.spawnedConn (s.output P event) <;> rfl

/-- No connection is forgotten. -/
theorem accepted_kept (s : Meeting) (event : Event) {conn : Connection}
    (member : conn ∈ s.accepted) : conn ∈ (s.next P terms event).accepted := by
  cases event with
  | listener event =>
      rw [accepted_listener]
      exact List.mem_append_left _ member
  | servedInput tx input =>
      change conn ∈ (s.served.modify tx _).map Served.accepted
      rw [map_accepted_modify s.served tx fun live => live.handle P input]
      exact member
  | servedTransmits tx now =>
      change conn ∈ (s.served.modify tx _).map Served.accepted
      rw [map_accepted_modify s.served tx fun live => (live.pollTransmit now).1]
      exact member
  | _ => exact member

/-- What the driver hands out comes from one of its outcomes. -/
theorem output_handles {event : Demux.Event} {output : ListenerOutput}
    (found : s.output P event = some output) :
    Exists fun now => Exists fun source => Exists fun datagram => Exists fun rolls =>
      event = .datagram now source datagram rolls ∧ Exists fun driver =>
        s.demux.driver.Handles P now source datagram (driver, some output) := by
  cases event with
  | datagram now source datagram rolls =>
      have handles := s.demux.driver.onDatagram_handles (P := P) now source datagram rolls
        s.demux.permit
      refine ⟨now, source, datagram, rolls, rfl,
        (s.demux.receive P now source datagram rolls).1, ?_⟩
      change (s.demux.receive P now source datagram rolls).2 = _ at found
      rw [← found]
      exact handles
  | _ => cases found

theorem Honest.heard_listener (honest : Honest terms s) {event : Demux.Event} {datagram : Bytes}
    (sent : datagram ∈ sentTo terms.home (s.output P event)) {hsTs : Timestamp}
    {cif : HandshakeCif} (reads : ListenerDriver.Reads datagram hsTs cif) :
    cif.handshakeType ≠ .conclusion := by
  unfold sentTo at sent
  split at sent
  case h_1 found =>
    split_ifs at sent
    · rw [List.mem_singleton.mp sent] at reads
      rcases output_handles found with ⟨now, source, received, rolls, _, driver, handles⟩
      exact honest.sends handles reads
    · cases sent
  case h_2 => cases sent

theorem Honest.serves_listener (honest : Honest terms s) {event : Demux.Event} {served : Served}
    (started : served ∈ ((Demux.spawnedConn (s.output P event)).map
      fun conn => (⟨conn, conn⟩ : Served)).toList) : Serves terms served := by
  rcases Option.map_eq_some_iff.mp (Option.mem_toList.mp started) with ⟨conn, spawned, rfl⟩
  unfold Demux.spawnedConn at spawned
  split at spawned
  case h_1 found =>
    cases spawned
    rcases output_handles found with ⟨now, source, received, rolls, _, driver, handles⟩
    exact honest.serves_spawned handles
  case h_2 => cases spawned

theorem Honest.next (honest : Honest terms s) (event : Event) :
    Honest terms (s.next P terms event) := by
  have before (datagram : Bytes) (member : datagram ∈ s.toCaller) (hsTs : Timestamp)
      (cif : HandshakeCif) (reads : ListenerDriver.Reads datagram hsTs cif)
      (concludes : cif.handshakeType = .conclusion) :
      (s.next P terms event).Replied terms cif :=
    (honest.heard datagram member hsTs cif reads concludes).mono
      fun conn member => accepted_kept s event member
  have called (input : Connection.Input) :
      (s.caller.handle P input).opts = terms.callerOpts ∧
        (s.caller.handle P input).localSocketId = terms.socketId := by
    have frame := Connection.handle_frame (P := P) s.caller input
    exact ⟨frame.opts.trans honest.callerOpts, frame.localSocketId.trans honest.callerSocketId⟩
  cases event with
  | callerInput input =>
      exact ⟨(called input).1, (called input).2, honest.configured, honest.settings,
        honest.answering, honest.serves, before⟩
  | callerHears now datagram draw =>
      exact ⟨(called _).1, (called _).2, honest.configured, honest.settings, honest.answering,
        honest.serves, before⟩
  | callerTransmits now =>
      exact ⟨(called (.pollTransmit now)).1, (called (.pollTransmit now)).2, honest.configured,
        honest.settings, honest.answering, honest.serves, before⟩
  | listener event =>
      rcases next_core (P := P) s.demux event with ⟨core, opts⟩
      refine ⟨honest.callerOpts, honest.callerSocketId, ?_, opts.trans honest.settings, ?_, ?_, ?_⟩
      · exact (congrArg Listener.opts core).trans honest.configured
      · exact core ▸ honest.answering
      · intro served member
        rcases List.mem_append.mp member with old | new
        · exact honest.serves served old
        · exact honest.serves_listener new
      · intro datagram member hsTs cif reads concludes
        rcases List.mem_append.mp member with old | new
        · exact before datagram old hsTs cif reads concludes
        · exact absurd concludes (honest.heard_listener new reads)
  | servedInput tx input =>
      refine ⟨honest.callerOpts, honest.callerSocketId, honest.configured, honest.settings,
        honest.answering, ?_, before⟩
      intro served member
      rcases mem_modify member with old | ⟨old, present, rfl⟩
      · exact honest.serves served old
      · exact (honest.serves old present).handle input
  | servedTransmits tx now =>
      refine ⟨honest.callerOpts, honest.callerSocketId, honest.configured, honest.settings,
        honest.answering, ?_, ?_⟩
      · intro served member
        rcases mem_modify member with old | ⟨old, present, rfl⟩
        · exact honest.serves served old
        · exact (honest.serves old present).handle (P := P) (.pollTransmit now)
      · intro datagram member hsTs cif reads concludes
        rcases List.mem_append.mp member with old | new
        · exact before datagram old hsTs cif reads concludes
        · cases found : s.served[tx]? with
          | none =>
              rw [found] at new
              cases new
          | some served =>
              rw [found] at new
              have present := List.mem_of_getElem? found
              have replied := (honest.serves served present).sends present new reads
              exact replied.mono fun conn member =>
                accepted_kept s (.servedTransmits tx now) member

/-! ### While the caller is connecting -/

/-- The listener has seen nothing of the caller but requests, and has accepted only the
conclusion that the caller sends. -/
structure Waiting (P : Primitives) (terms : Terms) (s : Meeting) (hs : CallerHandshake) : Prop where
  asks : hs.Asks P terms
  quiet : s.caller.transmitQ = []
  asked : forall datagram, datagram ∈ s.toListener -> Exists fun hsTs => Exists fun cif =>
    ListenerDriver.Reads datagram hsTs cif ∧ (cif.handshakeType = .induction ∨
      Exists fun cookie => hs.state = .conclusion cookie ∧ cif = hs.conclusionCif cookie)
  served : forall conn, conn ∈ s.accepted -> conn.remote = terms.home ->
    Exists fun cookie => hs.state = .conclusion cookie ∧
      Started P terms s.demux.driver.core (hs.conclusionCif cookie) conn

/-- The handshake moves on, and the rest stays. -/
theorem Waiting.follows {hs hs' : CallerHandshake} (waiting : s.Waiting P terms hs)
    (follows : hs.Follows P terms hs') {caller : Connection} (quiet : caller.transmitQ = []) :
    Waiting P terms { s with caller } hs' := by
  refine ⟨follows.asks, quiet, ?_, ?_⟩
  · intro datagram member
    rcases waiting.asked datagram member with ⟨hsTs, cif, reads, induction | ⟨cookie, concluding, is⟩⟩
    · exact ⟨hsTs, cif, reads, Or.inl induction⟩
    · rcases follows.concluding cookie concluding with ⟨still, same⟩
      exact ⟨hsTs, cif, reads, Or.inr ⟨cookie, still, is.trans same.symm⟩⟩
  · intro conn member toHome
    rcases waiting.served conn member toHome with ⟨cookie, concluding, started⟩
    rcases follows.concluding cookie concluding with ⟨still, same⟩
    exact ⟨cookie, still, same ▸ started⟩

end Runs

end Meeting

end Rsrt
