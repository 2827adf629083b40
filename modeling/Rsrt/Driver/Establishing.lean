import Rsrt.Driver.Meeting

namespace Rsrt

open Rsrt.Basis

/-!
# The two ends of an established connection

When the caller becomes established, the listener has accepted a connection for it, and the two
agree on the sockets, the sequences, the payload limit, the flow window, the stream id and the
keys.  The latencies agree exactly if the listener's settings survive the trip as whole
milliseconds in sixteen bits.
-/

namespace Connection

variable {P : Primitives} {c : Connection}

/-- A completed handshake also settles the peer and the stream id. -/
theorem completes_identity {input : Input} {now : Instant} {hsTs : Timestamp}
    {negotiated : Negotiated} (completed : c.completes P input = some (now, hsTs, negotiated)) :
    (c.handle P input).peerSocketId = negotiated.peerSocketId ∧
      (c.handle P input).streamid = negotiated.streamid := by
  rcases connecting_of_completes completed with ⟨hs, pendingSend, earlyData, connecting⟩
  rcases handle_of_completes connecting completed with ⟨hs', handled⟩
  rw [handled]
  exact ⟨rfl, rfl⟩

end Connection

namespace Meeting

variable {P : Primitives} {terms : Terms} {s : Meeting} {hs : CallerHandshake}

/-! ## The caller goes on -/

theorem reads_unique {datagram : Bytes} {hsTs hsTs' : Timestamp} {cif cif' : HandshakeCif}
    (one : ListenerDriver.Reads datagram hsTs cif)
    (other : ListenerDriver.Reads datagram hsTs' cif') : cif = cif' := by
  rcases one with ⟨dst, parsed⟩
  rcases other with ⟨dst', parsed'⟩
  rw [parsed] at parsed'
  cases parsed'
  rfl

theorem Waiting.hears (waiting : s.Waiting P terms hs) {now : Instant} {datagram : Bytes}
    {draw : Draw} {pendingSend : List Bytes} {earlyData : List (Instant × DataPacket)}
    (connecting : s.caller.state = .connecting hs pendingSend earlyData)
    (sized : drawn (s.hear P now datagram draw).state) {hs' : CallerHandshake}
    {pending : List Bytes} {early : List (Instant × DataPacket)}
    (still : (s.hear P now datagram draw).state = .connecting hs' pending early) :
    Waiting P terms { s with caller := s.hear P now datagram draw } hs' := by
  have untouched {caller : Connection} (queue : caller.transmitQ = s.caller.transmitQ)
      (state : caller.state = .connecting hs pending early) (same : hs' = hs) :
      Waiting P terms { s with caller } hs' :=
    waiting.follows (same ▸ waiting.asks.refl) (queue.trans waiting.quiet)
  cases parsed : Packet.parse datagram with
  | error err =>
      have ignored : (s.hear P now datagram draw).state = s.caller.state ∧
          (s.hear P now datagram draw).transmitQ = s.caller.transmitQ := by
        unfold hear Connection.Datagram.ofBytes
        rw [parsed]
        rcases err with _ | _ | ⟨_ | _ | _ | _⟩ <;> exact ⟨rfl, rfl⟩
      rw [ignored.1, connecting] at still
      cases still
      exact untouched ignored.2 (ignored.1.trans connecting) rfl
  | ok packet =>
      have heard : s.hear P now datagram draw = s.caller.handlePacket P now packet draw := by
        unfold hear Connection.Datagram.ofBytes
        rw [parsed]
        rfl
      have unfinished : s.caller.completes P (.datagram now (.packet packet) draw) = none := by
        cases completed : s.caller.completes P (.datagram now (.packet packet) draw) with
        | none => rfl
        | some agreed =>
            have done := Connection.handle_completes connecting completed rfl
            change (s.caller.handlePacket P now packet draw).state = _ at done
            rw [heard, done] at still
            cases still
      have hears := Connection.handlePacket_hears connecting now packet draw unfinished
      rw [heard] at still sized ⊢
      cases hears with
      | ignores queue state =>
          rw [state] at still
          cases still
          exact untouched queue state rfl
      | @waits read cif is message goes_on queue _ _ state =>
          rw [state] at still sized
          cases still
          have typed := (Packet.typed_of_parse parsed).1
          rw [is] at typed
          change read.controlType.Typed at typed
          rw [message] at typed
          exact waiting.follows (waiting.asks.handleHandshake goes_on typed.cookie sized)
            (queue.trans waiting.quiet)
      | closes state =>
          rw [state] at still
          cases still

theorem Waiting.transmits (waiting : s.Waiting P terms hs) (ideal : P.Ideal) (now : Instant)
    {pendingSend : List Bytes} {earlyData : List (Instant × DataPacket)}
    (connecting : s.caller.state = .connecting hs pendingSend earlyData) {hs' : CallerHandshake}
    {pending : List Bytes} {early : List (Instant × DataPacket)}
    (still : (s.caller.pollTransmit now).1.state = .connecting hs' pending early) :
    Waiting P terms (s.next P terms (.callerTransmits now)) hs' := by
  rcases Connection.pollTransmit_requests connecting waiting.quiet now with ⟨state, queue, requests⟩
  rw [state] at still
  cases still
  have follows := waiting.asks.pollTransmit now
  have kept := waiting.follows follows queue
  refine ⟨kept.asks, queue, ?_, kept.served⟩
  intro datagram member
  rcases List.mem_append.mp member with old | new
  · exact kept.asked datagram old
  · rcases Option.map_eq_some_iff.mp (Option.mem_toList.mp new) with ⟨packet, emitted, rfl⟩
    rcases requests packet emitted with ⟨cif, sent, requested, rfl, message⟩
    rcases waiting.asks.request ideal requested with ⟨encodable, kind⟩
    have reads : ListenerDriver.Reads (Packet.control sent).encode sent.timestamp cif := by
      refine ⟨sent.dstSocketId, ?_⟩
      rw [encodable.parse message, ← message]
    refine ⟨sent.timestamp, cif, reads, ?_⟩
    rcases kind with inducing | ⟨cookie, concluding, is⟩
    · exact Or.inl inducing
    · rcases follows.concluding cookie concluding with ⟨after, same⟩
      exact Or.inr ⟨cookie, after, is.trans same.symm⟩

/-- A connection that the listener starts for the caller answers the caller's conclusion. -/
theorem Waiting.spawns (waiting : s.Waiting P terms hs) (honest : Honest terms s)
    {event : Demux.Event} (carried : s.carried terms event) {conn : Connection}
    (spawned : Demux.spawnedConn (s.output P event) = some conn)
    (toHome : conn.remote = terms.home) :
    Exists fun cookie => hs.state = .conclusion cookie ∧
      Started P terms s.demux.driver.core (hs.conclusionCif cookie) conn := by
  unfold Demux.spawnedConn at spawned
  split at spawned
  case h_2 => cases spawned
  case h_1 found =>
    cases spawned
    rcases output_handles found with ⟨now, source, received, rolls, rfl, driver, handles⟩
    cases handles with
    | @accepts hsTs cif newId reply negotiated request accepted fresh =>
        have remote : negotiated.remote = source := by
          rcases Listener.handleHandshake_acceptance accepted with ⟨_, _, _, _, _, _, acceptance⟩
          cases acceptance
          rfl
        have home : source = terms.home := remote.symm.trans toHome
        subst home
        rcases waiting.asked received (carried rfl) with ⟨_, cif', reads, kind⟩
        have same := reads_unique request reads
        subst same
        rcases request with ⟨_, parsed⟩
        rcases Packet.typed_of_parse parsed with ⟨typed, shaped⟩
        rcases Listener.handleHandshake_accepts honest.answering terms.home_octets typed shaped
          accepted with ⟨answer, rfl, accepts⟩
        rcases kind with inducing | ⟨cookie, concluding, is⟩
        · rw [accepts.concluding] at inducing
          cases inducing
        · refine ⟨cookie, concluding, ?_⟩
          subst is
          unfold ListenerDriver.connectionOf
          rw [honest.settings]
          exact .intro now hsTs accepts

theorem Waiting.listens (waiting : s.Waiting P terms hs) (honest : Honest terms s)
    {event : Demux.Event} (carried : s.carried terms event) :
    Waiting P terms (s.next P terms (.listener event)) hs := by
  have core : (s.next P terms (.listener event)).demux.driver.core = s.demux.driver.core :=
    (next_core s.demux event).1
  refine ⟨waiting.asks, waiting.quiet, waiting.asked, ?_⟩
  intro conn member toHome
  rw [core]
  rw [accepted_listener] at member
  rcases List.mem_append.mp member with old | new
  · exact waiting.served conn old toHome
  · exact waiting.spawns honest carried (Option.mem_toList.mp new) toHome

/-- As long as the caller is connecting, the listener knows only what it asks for. -/
structure Asking (P : Primitives) (terms : Terms) (s : Meeting) : Prop where
  honest : Honest terms s
  waiting : forall hs pendingSend earlyData,
    s.caller.state = .connecting hs pendingSend earlyData -> s.Waiting P terms hs

theorem Asking.next (asking : s.Asking P terms) (ideal : P.Ideal) {event : Event}
    (allowed : s.allows P terms event) : (s.next P terms event).Asking P terms := by
  refine ⟨asking.honest.next event, ?_⟩
  intro hs' pending early still
  cases event with
  | callerInput input =>
      rcases Connection.connecting_of_handle still with ⟨hs, pendingSend, earlyData, connecting⟩
      have waiting := asking.waiting hs pendingSend earlyData connecting
      change (s.caller.handle P input).state = _ at still
      rcases Connection.handle_own allowed connecting with ⟨queue, _, _, state⟩ | ⟨reason, state⟩
      · rw [state] at still
        cases still
        exact waiting.follows waiting.asks.refl (queue.trans waiting.quiet)
      · rw [state] at still
        cases still
  | callerHears now datagram draw =>
      rcases Connection.connecting_of_handle still with ⟨hs, pendingSend, earlyData, connecting⟩
      exact (asking.waiting hs pendingSend earlyData connecting).hears connecting allowed.2 still
  | callerTransmits now =>
      rcases (@Connection.connecting_of_handle P _ _ _ _ (.pollTransmit now) still) with
        ⟨hs, pendingSend, earlyData, connecting⟩
      exact (asking.waiting hs pendingSend earlyData connecting).transmits ideal now connecting still
  | listener event =>
      exact (asking.waiting hs' pending early still).listens asking.honest allowed.2
  | servedInput tx input =>
      have waiting := asking.waiting hs' pending early still
      refine ⟨waiting.asks, waiting.quiet, waiting.asked, ?_⟩
      intro conn member
      change conn ∈ (s.served.modify tx _).map Served.accepted at member
      rw [map_accepted_modify s.served tx fun live => live.handle P input] at member
      exact waiting.served conn member
  | servedTransmits tx now =>
      have waiting := asking.waiting hs' pending early still
      refine ⟨waiting.asks, waiting.quiet, waiting.asked, ?_⟩
      intro conn member
      change conn ∈ (s.served.modify tx _).map Served.accepted at member
      rw [map_accepted_modify s.served tx fun live => (live.pollTransmit now).1] at member
      exact waiting.served conn member

theorem asking_of_run (ideal : P.Ideal) {history : List (Meeting × Event)}
    (run : (machine P terms).Run history s) : s.Asking P terms := by
  refine run.invariant (Asking P terms) ?_ ?_
  · rintro state ⟨now, timebase, core, configured, cookies⟩
    refine ⟨⟨rfl, rfl, configured, configured, ⟨configured ▸ terms.listener_typed, cookies⟩,
      fun _ member => absurd member List.not_mem_nil,
      fun _ member => absurd member List.not_mem_nil⟩, ?_⟩
    intro hs pendingSend earlyData state
    cases state
    exact ⟨CallerHandshake.asks_new now timebase, rfl,
      fun _ member => absurd member List.not_mem_nil,
      fun _ member => absurd member List.not_mem_nil⟩
  · intro state event asking allowed
    exact asking.next ideal allowed

/-! ## The caller is established -/

/-- The connections of the two sides come from one conclusion and its reply. -/
inductive Matched (P : Primitives) (terms : Terms) (caller conn : Connection) : Prop
  | intro {hs : CallerHandshake} {mine theirs : Negotiated} {timebase timebase' : Timebase}
      (asks : hs.Asks P terms) (agree : Negotiated.Agree hs terms.listenerOpts mine theirs)
      (secret : terms.Separates P ->
        mine.crypto.map Crypto.secret = theirs.crypto.map Crypto.secret)
      (callerSettings : caller.settings = some (mine.settings terms.callerOpts timebase))
      (callerSockets : caller.localSocketId = terms.socketId ∧
        caller.peerSocketId = mine.peerSocketId)
      (callerStream : caller.streamid = mine.streamid)
      (connSettings : conn.settings = some (theirs.settings terms.listenerOpts timebase'))
      (connSockets : conn.localSocketId = theirs.localSocketId ∧
        conn.peerSocketId = theirs.peerSocketId)
      (connStream : conn.streamid = theirs.streamid)

/-- Only a datagram establishes a connecting caller. -/
theorem hears_of_established {event : Event} (allowed : s.allows P terms event)
    (asking : s.Asking P terms) {pendingSend : List Bytes} {earlyData : List (Instant × DataPacket)}
    (connecting : s.caller.state = .connecting hs pendingSend earlyData) {sender : Sender}
    {receiver : Receiver} {crypto : Option Crypto}
    (established : (s.next P terms event).caller.state = .established sender receiver crypto) :
    Exists fun now => Exists fun datagram => Exists fun draw =>
      event = .callerHears now datagram draw := by
  cases event with
  | callerHears now datagram draw => exact ⟨now, datagram, draw, rfl⟩
  | callerInput input =>
      change (s.caller.handle P input).state = _ at established
      rcases Connection.handle_own allowed connecting with ⟨_, _, _, state⟩ | ⟨_, state⟩
      · rw [state] at established
        cases established
      · rw [state] at established
        cases established
  | callerTransmits now =>
      have waiting := asking.waiting _ _ _ connecting
      rcases Connection.pollTransmit_requests connecting waiting.quiet now with ⟨state, _⟩
      change (s.caller.pollTransmit now).1.state = _ at established
      rw [state] at established
      cases established
  | listener event =>
      change s.caller.state = _ at established
      rw [connecting] at established
      cases established
  | servedInput tx input =>
      change s.caller.state = _ at established
      rw [connecting] at established
      cases established
  | servedTransmits tx now =>
      change s.caller.state = _ at established
      rw [connecting] at established
      cases established

theorem connecting_of_connState {c : Connection} (waits : c.connState = .connecting) :
    Exists fun hs => Exists fun pendingSend => Exists fun earlyData =>
      c.state = .connecting hs pendingSend earlyData := by
  unfold Connection.connState at waits
  cases state : c.state with
  | connecting => exact ⟨_, _, _, rfl⟩
  | _ =>
      rw [state] at waits
      cases waits

theorem established_of_connState {c : Connection} (done : c.connState = .established) :
    Exists fun sender => Exists fun receiver => Exists fun crypto =>
      c.state = .established sender receiver crypto := by
  unfold Connection.connState at done
  cases state : c.state with
  | established => exact ⟨_, _, _, rfl⟩
  | _ =>
      rw [state] at done
      cases done

/-- The reply that establishes the caller belongs to a connection that the listener has
accepted. -/
theorem Asking.matched (asking : s.Asking P terms) (ideal : P.Ideal) {event : Event}
    (allowed : s.allows P terms event) (waits : s.caller.connState = .connecting)
    (done : (s.next P terms event).caller.connState = .established) :
    Exists fun conn => conn ∈ s.accepted ∧
      Matched P terms (s.next P terms event).caller conn := by
  rcases connecting_of_connState waits with ⟨hs, pendingSend, earlyData, connecting⟩
  rcases established_of_connState done with ⟨sender, receiver, crypto, established⟩
  rcases hears_of_established allowed asking connecting established with ⟨now, datagram, draw, rfl⟩
  have waiting := asking.waiting _ _ _ connecting
  change (s.caller.handle P (.datagram now (.ofBytes datagram) draw)).state = _ at established
  rcases Connection.completes_of_established connecting established with
    ⟨⟨heardAt, hsTs, mine⟩, completed⟩
  rcases Connection.completes_response connecting completed with
    ⟨read, _, cif, same, message, done⟩
  rcases Connection.Input.datagram.inj same with ⟨rfl, heard, rfl⟩
  have reads : ListenerDriver.Reads datagram read.timestamp cif := by
    refine ⟨read.dstSocketId, ?_⟩
    unfold Connection.Datagram.ofBytes at heard
    split at heard
    case h_1 parsed =>
      cases heard
      rw [parsed, ← message]
    case h_2 => cases heard
    case h_3 => cases heard
  rcases CallerHandshake.handleHandshake_concludes done with ⟨concludes, _⟩
  rcases asking.honest.heard datagram allowed.1 _ _ reads concludes with
    ⟨conn, member, toHome, reply, stored, replied⟩
  refine ⟨conn, member, ?_⟩
  rcases waiting.served conn member toHome with ⟨cookie, _, started⟩
  cases started with
  | @intro startedAt anchorTs newId answer theirs accepts =>
      have theirSettings := ListenerDriver.connectionOf_settings
        { s.demux.driver with opts := terms.listenerOpts } startedAt anchorTs
        (s.demux.driver.core.packet startedAt (hs.conclusionCif cookie).socketId answer) theirs
      have answered : s.demux.driver.core.packet startedAt (hs.conclusionCif cookie).socketId
          answer = .control reply := Option.some.inj stored
      cases answered
      cases replied
      have agree := Negotiated.Agree.of_accepts accepts done
      have secret := Negotiated.secret_of_accepts ideal waiting.asks.equipped accepts done
      rw [asking.honest.configured] at agree secret
      have mineSettings := Connection.completes_settings completed
      rw [asking.honest.callerOpts] at mineSettings
      rcases Connection.completes_identity completed with ⟨peer, stream⟩
      have frame := Connection.handle_frame (P := P) s.caller
        (.datagram now (.ofBytes datagram) draw)
      exact .intro waiting.asks agree secret mineSettings
        ⟨frame.localSocketId.trans asking.honest.callerSocketId, peer⟩ stream theirSettings
        ⟨rfl, rfl⟩ rfl

/-- In every run, the event that establishes the caller finds a connection that the listener
has accepted for it, and the two connections agree. -/
theorem handshake_agreement (ideal : P.Ideal) (separates : terms.Separates P)
    {history : List (Meeting × Event)} (run : (machine P terms).Run history s) {event : Event}
    (allowed : (machine P terms).guard s event) (waits : s.caller.connState = .connecting)
    (done : (s.next P terms event).caller.connState = .established) :
    Exists fun conn => conn ∈ s.accepted ∧
      conn.localSocketId = (s.next P terms event).caller.peerSocketId ∧
      conn.peerSocketId = (s.next P terms event).caller.localSocketId ∧
      (conn.streamid = (s.next P terms event).caller.streamid ∧
        conn.streamid = terms.callerOpts.streamid) ∧
      Exists fun mine => Exists fun theirs =>
        (s.next P terms event).caller.settings = some mine ∧ conn.settings = some theirs ∧
          Settings.Agree mine theirs terms.initialSeq terms.callerOpts terms.listenerOpts := by
  rcases (asking_of_run ideal run).matched ideal allowed waits done with ⟨conn, member, matched⟩
  refine ⟨conn, member, ?_⟩
  rcases matched with @⟨hs, mine, theirs, _, _, asks, agree, secret, callerSettings, callerSockets,
    callerStream, connSettings, connSockets, connStream⟩
  have attached := (asks.posing ideal).attachedStreamid
  rcases asks.opts with ⟨pbkeylen, opts⟩
  have named : hs.opts.streamid = terms.callerOpts.streamid := by rw [opts]
  refine ⟨?_, ?_, ⟨?_, ?_⟩, _, _, callerSettings, connSettings, ?_⟩
  · rw [connSockets.1, agree.sockets.1, callerSockets.2]
  · rw [connSockets.2, agree.sockets.2, asks.localSocketId, callerSockets.1]
  · rw [connStream, agree.streamid.2, attached, callerStream, agree.streamid.1]
  · rw [connStream, agree.streamid.2, attached, named]
  · rw [← asks.initialSeq]
    exact agree.settings (by rw [opts]) (by rw [opts]) (secret separates) _ _

/-! ### A handshake -/

theorem sampleText : Utf8.Text [0x61, 0x62] :=
  @Utf8.Text.cons 0x61 [] [] [0x62] rfl .nil (@Utf8.Text.cons 0x62 [] [] [] rfl .nil .nil)

/-- A caller with a passphrase and a stream id, and a listener with a latency of its own. -/
def sampleTerms (latency : Duration) : Terms where
  home := ⟨[10, 0, 0, 2], 5000⟩
  remote := ⟨[10, 0, 0, 1], 9000⟩
  socketId := ⟨3⟩
  initialSeq := SeqNumber.new 99
  callerOpts := { Connection.secretOptions with streamid := some [0x61, 0x62] }
  listenerOpts := { Connection.secretOptions with latency }
  home_octets := rfl
  remote_octets := rfl
  initialSeq_lt := by decide
  caller_typed := by
    refine ⟨by decide, by decide, ?_⟩
    intro sid present
    cases present
    exact sampleText
  listener_typed := ⟨(by decide : 1500 < 2 ^ 32), (by decide : 8192 < 2 ^ 32), nofun⟩
  named := by
    intro sid present
    cases present
    decide

def sampleMeeting (terms : Terms) : Meeting where
  caller :=
    .connectWithTimebase 0 terms.remote terms.socketId terms.initialSeq terms.callerOpts ⟨0⟩
  demux :=
    { driver := .bound
        { timebase := ⟨0⟩, opts := terms.listenerOpts, cookieAt := fun _ _ => 7 } }

theorem sampleMeeting_opening (terms : Terms) :
    (machine .sample terms).start (sampleMeeting terms) :=
  .intro 0 ⟨0⟩ _ rfl (fun _ _ => (by decide : 7 < 2 ^ 32))

def newest (datagrams : List Bytes) : Bytes := datagrams.getLast?.getD []

/-- Every datagram is answered, up to the reply of the accepted connection. -/
def sampleExchange (terms : Terms) : List (Meeting -> Event) :=
  [fun _ => .callerTransmits 0,
    fun s => .listener (.datagram 1 terms.home (newest s.toListener) [⟨5⟩]),
    fun s => .callerHears 2 (newest s.toCaller) Connection.sampleDraw,
    fun _ => .callerTransmits 3,
    fun s => .listener (.datagram 4 terms.home (newest s.toListener) [⟨5⟩]),
    fun _ => .servedTransmits 0 5]

/-- The events that a list of choices makes. -/
def play (terms : Terms) : Meeting -> List (Meeting -> Event) -> List Event
  | _, [] => []
  | s, choose :: rest => choose s :: play terms (s.next .sample terms (choose s)) rest

def sampleEvents (terms : Terms) : List Event :=
  play terms (sampleMeeting terms) (sampleExchange terms)

def sampleReplied (terms : Terms) : Meeting :=
  (machine .sample terms).exec (sampleMeeting terms) (sampleEvents terms)

/-- The caller hears the reply. -/
def sampleReply (terms : Terms) : Event :=
  .callerHears 6 (newest (sampleReplied terms).toCaller) Connection.sampleDraw

theorem sampleReplied_run {terms : Terms}
    (allowed : (machine .sample terms).Allowed (sampleMeeting terms) (sampleEvents terms)) :
    (machine .sample terms).Run
      ((machine .sample terms).trace (sampleMeeting terms) (sampleEvents terms))
      (sampleReplied terms) :=
  Machine.run_exec (sampleMeeting_opening terms) allowed

theorem handshake_agreement_sample :
    Exists fun conn => conn ∈ (sampleReplied (sampleTerms (.fromMillis 200))).accepted ∧
      conn.localSocketId =
        ((sampleReplied (sampleTerms (.fromMillis 200))).next .sample
          (sampleTerms (.fromMillis 200))
          (sampleReply (sampleTerms (.fromMillis 200)))).caller.peerSocketId := by
  have run := @sampleReplied_run (sampleTerms (.fromMillis 200)) (by decide +kernel)
  have separates : (sampleTerms (.fromMillis 200)).Separates .sample := by
    intro wrapping unwrapping mine theirs _ _ _ _ _
    exact Option.some.inj (mine.symm.trans theirs)
  have agreed := handshake_agreement Primitives.sample_ideal separates run
    (by decide +kernel :
      (machine .sample _).guard _ (sampleReply (sampleTerms (.fromMillis 200))))
    (by decide +kernel) (by decide +kernel)
  rcases agreed with ⟨conn, member, sockets, _⟩
  exact ⟨conn, member, sockets⟩

/-! ## Latencies -/

/-- A latency of the receiver's own that the reply carries as it is, next to what the sender
has proposed. -/
def Carried (own proposed : Duration) : Prop :=
  own ≤ msDur (msU16 proposed) ∨ own = msDur (msU16 own)

theorem carried_iff (own proposed : Duration) :
    msDur (msU16 (max own (msDur (msU16 proposed)))) = max own (msDur (msU16 proposed)) ↔
      Carried own proposed := by
  have capped : msU16 proposed ≤ 65535 := Nat.min_le_right _ _
  have back : msU16 (msDur (msU16 proposed)) = msU16 proposed := by
    change min (msU16 proposed * 1000000 / 1000000) 65535 = msU16 proposed
    rw [Nat.mul_div_cancel _ (by decide), Nat.min_eq_left capped]
  by_cases below : own ≤ msDur (msU16 proposed)
  · rw [max_eq_right below, back]
    exact iff_of_true rfl (Or.inl below)
  · rw [max_eq_left (le_of_not_ge below)]
    constructor
    · intro same
      exact Or.inr same.symm
    · intro carried
      exact (carried.resolve_left below).symm

/-- Both latencies of the listener are carried. -/
def LatenciesCarried (callerOpts listenerOpts : SrtOptions) : Prop :=
  Carried listenerOpts.latency callerOpts.peerLatency ∧
    Carried listenerOpts.peerLatency callerOpts.latency

/-- The event that establishes the caller finds a connection of the listener with the same
latencies, exactly if the listener's settings are carried. -/
theorem latencies_agree_iff (ideal : P.Ideal) {history : List (Meeting × Event)}
    (run : (machine P terms).Run history s) {event : Event}
    (allowed : (machine P terms).guard s event) (waits : s.caller.connState = .connecting)
    (done : (s.next P terms event).caller.connState = .established) :
    Exists fun conn => conn ∈ s.accepted ∧
      conn.localSocketId = (s.next P terms event).caller.peerSocketId ∧
      Exists fun mine => Exists fun theirs =>
        (s.next P terms event).caller.settings = some mine ∧ conn.settings = some theirs ∧
          ((mine.sender.sndLatency = theirs.receiver.rcvLatency ∧
              mine.receiver.rcvLatency = theirs.sender.sndLatency) ↔
            LatenciesCarried terms.callerOpts terms.listenerOpts) := by
  rcases (asking_of_run ideal run).matched ideal allowed waits done with ⟨conn, member, matched⟩
  refine ⟨conn, member, ?_⟩
  rcases matched with @⟨hs, mine, theirs, _, _, asks, agree, _, callerSettings, callerSockets, _,
    connSettings, connSockets, _⟩
  rcases asks.opts with ⟨pbkeylen, opts⟩
  have latency : hs.opts.latency = terms.callerOpts.latency := by rw [opts]
  have peerLatency : hs.opts.peerLatency = terms.callerOpts.peerLatency := by rw [opts]
  refine ⟨?_, _, _, callerSettings, connSettings, ?_⟩
  · rw [connSockets.1, agree.sockets.1, callerSockets.2]
  · change mine.sndLatency = theirs.rcvLatency ∧ mine.rcvLatency = theirs.sndLatency ↔ _
    rw [agree.latency.1, agree.latency.2, agree.proposed.1, agree.proposed.2, latency, peerLatency]
    exact and_congr (carried_iff _ _) (carried_iff _ _)

/-- The latencies of a side, for what it sends and for what it receives. -/
def latencies (conn : Connection) : Option (Duration × Duration) :=
  conn.settings.map fun settings => (settings.sender.sndLatency, settings.receiver.rcvLatency)

/-- A listener's latency of 120.5 milliseconds is cut to 120 on the way to the caller. -/
theorem latencies_differ :
    (Exists fun history => (machine .sample (sampleTerms (.fromMicros 120500))).Run history
        (sampleReplied (sampleTerms (.fromMicros 120500)))) ∧
      (machine .sample (sampleTerms (.fromMicros 120500))).guard
        (sampleReplied (sampleTerms (.fromMicros 120500)))
        (sampleReply (sampleTerms (.fromMicros 120500))) ∧
      latencies ((sampleReplied (sampleTerms (.fromMicros 120500))).next .sample
          (sampleTerms (.fromMicros 120500))
          (sampleReply (sampleTerms (.fromMicros 120500)))).caller =
        some (.fromMillis 120, .fromMillis 120) ∧
      (sampleReplied (sampleTerms (.fromMicros 120500))).accepted.map latencies =
        [some (.fromMillis 120, .fromMicros 120500)] := by
  refine ⟨⟨_, sampleReplied_run (by decide +kernel)⟩, ?_, ?_, ?_⟩
  · decide +kernel
  · decide +kernel
  · decide +kernel

theorem latencies_agree_iff_sample :
    LatenciesCarried (sampleTerms (.fromMillis 200)).callerOpts
        (sampleTerms (.fromMillis 200)).listenerOpts ∧
      Exists fun conn => conn ∈ (sampleReplied (sampleTerms (.fromMillis 200))).accepted ∧
        Exists fun mine => Exists fun theirs : Settings => conn.settings = some theirs ∧
          ((sampleReplied (sampleTerms (.fromMillis 200))).next .sample
            (sampleTerms (.fromMillis 200))
            (sampleReply (sampleTerms (.fromMillis 200)))).caller.settings = some mine ∧
          mine.sender.sndLatency = theirs.receiver.rcvLatency ∧
          mine.receiver.rcvLatency = theirs.sender.sndLatency := by
  have carried : LatenciesCarried (sampleTerms (.fromMillis 200)).callerOpts
      (sampleTerms (.fromMillis 200)).listenerOpts := ⟨Or.inr rfl, Or.inr rfl⟩
  have run := @sampleReplied_run (sampleTerms (.fromMillis 200)) (by decide +kernel)
  have agreed := latencies_agree_iff Primitives.sample_ideal run
    (by decide +kernel :
      (machine .sample _).guard _ (sampleReply (sampleTerms (.fromMillis 200))))
    (by decide +kernel) (by decide +kernel)
  rcases agreed with ⟨conn, member, _, mine, theirs, callerSettings, connSettings, same⟩
  exact ⟨carried, conn, member, mine, theirs, connSettings, callerSettings, same.mpr carried⟩

end Meeting

end Rsrt
