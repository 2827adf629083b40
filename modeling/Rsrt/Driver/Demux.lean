import Rsrt.Basis.Pairing
import Rsrt.Core.Establishment
import Rsrt.Driver.Listener

namespace Rsrt

open Rsrt.Basis

/-!
# The two indexes of the listener driver

The driver finds a connection by its local socket id and by the address and socket id of its
peer.  In every run, whatever datagrams arrive from whatever addresses and whenever the
connections end, the two indexes list the same connections from both sides.
-/

namespace ListenerDriver

variable {P : Primitives} {driver : ListenerDriver}

/-- The peer under a local id. -/
def peerOf (self : ListenerDriver) (id : SocketId) : Option (SocketAddrV4 × SocketId) :=
  (self.conns.lookup id).map ConnEntry.peer

/-- The local id under a peer. -/
def idOf (self : ListenerDriver) (peer : SocketAddrV4 × SocketId) : Option SocketId :=
  self.byPeer.lookup peer

theorem peerOf_eq_none {id : SocketId} :
    driver.peerOf id = none ↔ driver.conns.lookup id = none := by
  unfold peerOf
  rw [Option.map_eq_none_iff]

theorem peerOf_of_lookup {id : SocketId} {entry : ConnEntry}
    (present : driver.conns.lookup id = some entry) : driver.peerOf id = some entry.peer := by
  unfold peerOf
  rw [present]
  rfl

/-! ## Registration -/

/-- The connection is new under both keys. -/
structure Fresh (driver : ListenerDriver) (source : SocketAddrV4) (negotiated : Negotiated) : Prop where
  id : driver.conns.lookup negotiated.localSocketId = none
  peer : driver.byPeer.lookup (source, negotiated.peerSocketId) = none

theorem peerOf_register (source : SocketAddrV4) (negotiated : Negotiated) :
    (driver.register source negotiated).peerOf =
      Function.update driver.peerOf negotiated.localSocketId
        (some (source, negotiated.peerSocketId)) := by
  funext other
  unfold peerOf register
  dsimp only
  by_cases same : other = negotiated.localSocketId
  · subst same
    rw [Function.update_self, AList.lookup_insert]
    rfl
  · rw [Function.update_of_ne same, AList.lookup_insert_ne same]

theorem idOf_register (source : SocketAddrV4) (negotiated : Negotiated) :
    (driver.register source negotiated).idOf =
      Function.update driver.idOf (source, negotiated.peerSocketId)
        (some negotiated.localSocketId) :=
  lookup_insert_eq _ _ _

/-! ## Reaping -/

theorem reap_of_inverse (inverse : Inverse driver.peerOf driver.idOf) {id : SocketId}
    {entry : ConnEntry} (present : driver.conns.lookup id = some entry) :
    driver.reap id =
      { driver with conns := driver.conns.erase id, byPeer := driver.byPeer.erase entry.peer } := by
  have mapped : driver.byPeer.lookup entry.peer = some id :=
    (inverse id entry.peer).mp (peerOf_of_lookup present)
  unfold reap
  rw [present]
  dsimp only
  rw [if_pos mapped]

theorem peerOf_erase (id : SocketId) (byPeer : AList fun _ : SocketAddrV4 × SocketId => SocketId) :
    ({ driver with conns := driver.conns.erase id, byPeer } : ListenerDriver).peerOf =
      Function.update driver.peerOf id none := by
  funext other
  unfold peerOf
  dsimp only
  by_cases same : other = id
  · subst same
    rw [Function.update_self, AList.lookup_erase]
    rfl
  · rw [Function.update_of_ne same, AList.lookup_erase_ne same]

/-! ## What a datagram does -/

/-- A rolled id is one that no connection uses. -/
theorem lookup_unusedSocketId {rolls : List SocketId} {id : SocketId}
    (unused : driver.unusedSocketId rolls = some id) : driver.conns.lookup id = none := by
  have free := List.find?_some unused
  exact Option.isNone_iff_eq_none.mp free

theorem acceptance_sockets {listener : Listener} {now : Instant} {peer : SocketAddrV4}
    {cif : HandshakeCif} {newId : SocketId} {reply : Packet} {negotiated : Negotiated}
    (accepts : listener.handleHandshake P now peer cif newId = .accept reply negotiated) :
    negotiated.localSocketId = newId ∧ negotiated.peerSocketId = cif.socketId := by
  rcases Listener.handleHandshake_acceptance accepts with ⟨_, fields, _, crypto, kmRsp, _, acceptance⟩
  cases acceptance
  exact ⟨rfl, rfl⟩

/-- The datagram is a handshake. -/
def Reads (datagram : Bytes) (hsTs : Timestamp) (cif : HandshakeCif) : Prop :=
  Exists fun dst => Packet.parse datagram =
    .ok (.control { timestamp := hsTs, dstSocketId := dst, controlType := .handshake cif })

/-- The outcomes of a datagram. -/
inductive Handles (P : Primitives) (driver : ListenerDriver) (now : Instant)
    (source : SocketAddrV4) (datagram : Bytes) : ListenerDriver × Option ListenerOutput -> Prop
  | drops : Handles P driver now source datagram (driver, none)
  | replies {hsTs : Timestamp} {cif : HandshakeCif} {newId : SocketId} {packet : Packet}
      (reads : Reads datagram hsTs cif)
      (replied : driver.core.handleHandshake P now source cif newId = .reply packet) :
      Handles P driver now source datagram (driver, some (.send packet source))
  | refuses {hsTs : Timestamp} {cif : HandshakeCif} {code : Nat} (reads : Reads datagram hsTs cif)
      (coded : code = Reject.close ∨ code = Reject.backlog) :
      Handles P driver now source datagram
        (driver, some (.send (driver.rejection now cif code) source))
  /-- Under the destination of the datagram. -/
  | routes {id : SocketId} {entry : ConnEntry} (present : driver.conns.lookup id = some entry)
      (same : entry.peer.1 = source) :
      Handles P driver now source datagram (driver, some (.forward entry.tx datagram))
  /-- Under the sender of the handshake. -/
  | repeats {id other : SocketId} {entry : ConnEntry}
      (known : driver.byPeer.lookup (source, other) = some id)
      (present : driver.conns.lookup id = some entry) :
      Handles P driver now source datagram (driver, some (.forward entry.tx datagram))
  | accepts {hsTs : Timestamp} {cif : HandshakeCif} {newId : SocketId} {reply : Packet}
      {negotiated : Negotiated} (reads : Reads datagram hsTs cif)
      (accepted : driver.core.handleHandshake P now source cif newId = .accept reply negotiated)
      (fresh : driver.Fresh source negotiated) :
      Handles P driver now source datagram
        (driver.register source negotiated,
          some (.spawn (driver.connectionOf now hsTs reply negotiated)))

section Handling

variable {datagram : Bytes} {hsTs : Timestamp} {cif : HandshakeCif}

theorem onNewPeer_handles (reads : Reads datagram hsTs cif) (now : Instant) {source : SocketAddrV4}
    {newId : SocketId} (permit : Bool)
    (unknown : driver.byPeer.lookup (source, cif.socketId) = none)
    (unused : driver.conns.lookup newId = none) :
    Handles P driver now source datagram
      (driver.onNewPeer P now source hsTs cif newId permit) := by
  unfold onNewPeer
  split
  case h_1 replied => exact .replies reads replied
  case h_2 => exact .drops
  case h_3 accepted =>
    split_ifs
    · rcases acceptance_sockets accepted with ⟨socket, peer⟩
      exact .accepts reads accepted ⟨socket ▸ unused, peer ▸ unknown⟩
    · exact .refuses reads (Or.inr rfl)

theorem onHandshake_handles (reads : Reads datagram hsTs cif) (now : Instant)
    (source : SocketAddrV4) (rolls : List SocketId) (permit : Bool) :
    Handles P driver now source datagram
      (driver.onHandshake P now source hsTs cif datagram rolls permit) := by
  unfold onHandshake
  cases known : driver.byPeer.lookup (source, cif.socketId) with
  | some id =>
      dsimp only
      cases present : driver.conns.lookup id with
      | some entry => exact .repeats known present
      | none => exact .drops
  | none =>
      dsimp only
      by_cases accepting : driver.acceptOpen
      · rw [if_neg (not_not.mpr accepting)]
        cases rolled : driver.unusedSocketId rolls with
        | some newId =>
            exact onNewPeer_handles reads now permit known (lookup_unusedSocketId rolled)
        | none => exact .drops
      · rw [if_pos accepting]
        by_cases concludes : cif.handshakeType = .conclusion
        · rw [if_pos concludes]
          exact .refuses reads (Or.inl rfl)
        · rw [if_neg concludes]
          exact .drops

end Handling

theorem onTraffic_handles (now : Instant) (source : SocketAddrV4) (dst : SocketId)
    (datagram : Bytes) :
    Handles P driver now source datagram (driver, driver.onTraffic source dst datagram) := by
  unfold onTraffic
  cases present : driver.conns.lookup dst with
  | some entry =>
      dsimp only
      split_ifs with same
      · exact .routes present same
      · exact .drops
  | none => exact .drops

theorem onDatagram_handles (now : Instant) (source : SocketAddrV4) (datagram : Bytes)
    (rolls : List SocketId) (permit : Bool) :
    Handles P driver now source datagram
      (driver.onDatagram P now source datagram rolls permit) := by
  unfold onDatagram
  split_ifs
  · exact .drops
  · split
    · exact .drops
    · dsimp only
      split_ifs
      · exact onTraffic_handles now source _ datagram
      · split
        case h_1 read => exact onHandshake_handles ⟨_, read⟩ now source rolls permit
        case h_2 => exact .drops

end ListenerDriver

/-! ## Runs -/

/-- The driver with what surrounds it: the guards of the connections that have not been
reaped, the accept queue and the handle of the application. -/
structure Demux where
  driver : ListenerDriver
  guards : List SocketId := []
  /-- Sockets in the accept queue. -/
  waiting : Nat := 0
  /-- The application holds the listener. -/
  handle : Bool := true

namespace Demux

inductive Event
  | datagram (now : Instant) (source : SocketAddrV4) (datagram : Bytes) (rolls : List SocketId)
  /-- The guard of a connection reports that its driver has exited. -/
  | reap (id : SocketId)
  /-- The application takes a socket from the accept queue. -/
  | accept
  | dropHandle
  /-- The driver learns that the handle was dropped. -/
  | noticeDrop
deriving DecidableEq

/-- The connection that an output starts. -/
def spawnedConn : Option ListenerOutput -> Option Connection
  | some (.spawn conn) => some conn
  | _ => none

/-- The accept queue takes one more socket. -/
def permit (s : Demux) : Bool := s.handle && s.waiting < acceptBacklog

variable (P : Primitives)

def receive (s : Demux) (now : Instant) (source : SocketAddrV4) (datagram : Bytes)
    (rolls : List SocketId) : ListenerDriver × Option ListenerOutput :=
  s.driver.onDatagram P now source datagram rolls s.permit

/-- A connection that the driver starts has a guard and a place in the accept queue. -/
def settle (s : Demux) (outcome : ListenerDriver × Option ListenerOutput) : Demux :=
  let spawned := (spawnedConn outcome.2).toList
  { s with
      driver := outcome.1
      guards := spawned.map Connection.localSocketId ++ s.guards
      waiting := s.waiting + spawned.length }

def next (s : Demux) : Event -> Demux
  | .datagram now source datagram rolls => s.settle (s.receive P now source datagram rolls)
  | .reap id => { s with driver := s.driver.reap id, guards := s.guards.erase id }
  | .accept => { s with waiting := s.waiting - 1 }
  | .dropHandle => { s with handle := false }
  | .noticeDrop => { s with driver := { s.driver with acceptOpen := false } }

/-- A guard reports once, after its connection was accepted.  The driver stops when nothing is
left to do. -/
def allows (s : Demux) : Event -> Prop
  | .datagram _ _ _ _ => ¬s.driver.finished
  | .reap id => ¬s.driver.finished ∧ id ∈ s.guards
  | .accept => s.handle ∧ 0 < s.waiting
  | .dropHandle => s.handle
  | .noticeDrop => ¬s.handle ∧ s.driver.acceptOpen

instance decidableAllows (s : Demux) : forall event, Decidable (s.allows event)
  | .datagram .. => inferInstanceAs (Decidable (¬_))
  | .reap _ | .accept | .noticeDrop => inferInstanceAs (Decidable (_ ∧ _))
  | .dropHandle => inferInstanceAs (Decidable (_ = true))

def machine : Machine Demux Event where
  start := fun s => Exists fun core => s = { driver := .bound core }
  guard := allows
  next := next P

instance decidableGuard (s : Demux) (event : Event) : Decidable ((machine P).guard s event) :=
  decidableAllows s event

/-! ## The invariant -/

/-- The two indexes list the same connections, with a guard and a queue for each. -/
structure Indexed (s : Demux) : Prop where
  inverse : Inverse s.driver.peerOf s.driver.idOf
  guarded : forall id, id ∈ s.guards ↔ (s.driver.conns.lookup id).isSome
  single : s.guards.Nodup
  numbered : forall id entry, s.driver.conns.lookup id = some entry -> entry.tx < s.driver.spawned
  distinct : forall id other entry entry', s.driver.conns.lookup id = some entry ->
    s.driver.conns.lookup other = some entry' -> entry.tx = entry'.tx -> id = other

variable {P} {s : Demux}

theorem indexed_bound (core : Listener) : Indexed { driver := .bound core } where
  inverse := fun _ _ => iff_of_false nofun nofun
  guarded := fun _ => iff_of_false nofun nofun
  single := List.nodup_nil
  numbered := nofun
  distinct := nofun

/-- Only the indexes, the guards and the count of the connections matter. -/
theorem Indexed.frame (indexed : s.Indexed) (acceptOpen handle : Bool) (waiting : Nat) :
    Indexed { s with driver := { s.driver with acceptOpen }, waiting, handle } :=
  ⟨indexed.inverse, indexed.guarded, indexed.single, indexed.numbered, indexed.distinct⟩

theorem Indexed.register (indexed : s.Indexed) {source : SocketAddrV4} {negotiated : Negotiated}
    (fresh : s.driver.Fresh source negotiated) (waiting : Nat) :
    Indexed
      { s with
          driver := s.driver.register source negotiated
          guards := negotiated.localSocketId :: s.guards
          waiting } := by
  have looked (id : SocketId) : (s.driver.register source negotiated).conns.lookup id =
      Function.update (fun id => s.driver.conns.lookup id) negotiated.localSocketId
        (some ⟨s.driver.spawned, source, negotiated.peerSocketId⟩) id :=
    congrFun (lookup_insert_eq _ _ _) id
  have entries {id : SocketId} {entry : ConnEntry}
      (found : (s.driver.register source negotiated).conns.lookup id = some entry) :
      (id = negotiated.localSocketId ∧ entry.tx = s.driver.spawned) ∨
        (s.driver.conns.lookup id = some entry ∧ entry.tx < s.driver.spawned) := by
    rw [looked] at found
    by_cases new : id = negotiated.localSocketId
    · rw [new, Function.update_self] at found
      cases found
      exact Or.inl ⟨new, rfl⟩
    · rw [Function.update_of_ne new] at found
      exact Or.inr ⟨found, indexed.numbered _ _ found⟩
  refine ⟨?_, ?_, ?_, ?_, ?_⟩
  · change Inverse (s.driver.register source negotiated).peerOf
      (s.driver.register source negotiated).idOf
    rw [ListenerDriver.peerOf_register, ListenerDriver.idOf_register]
    exact indexed.inverse.insert (ListenerDriver.peerOf_eq_none.mpr fresh.id) fresh.peer
  · intro id
    change id ∈ negotiated.localSocketId :: s.guards ↔ _
    rw [looked, List.mem_cons]
    by_cases new : id = negotiated.localSocketId
    · rw [new, Function.update_self]
      exact ⟨fun _ => rfl, fun _ => Or.inl rfl⟩
    · rw [Function.update_of_ne new, ← indexed.guarded]
      exact ⟨fun member => member.resolve_left new, Or.inr⟩
  · refine List.nodup_cons.mpr ⟨?_, indexed.single⟩
    intro member
    have present := (indexed.guarded _).mp member
    rw [fresh.id] at present
    cases present
  · intro id entry found
    change entry.tx < s.driver.spawned + 1
    rcases entries found with ⟨_, newest⟩ | ⟨_, older⟩
    · omega
    · omega
  · intro id other entry entry' found found' same
    rcases entries found with ⟨isNew, newest⟩ | ⟨old, older⟩
    · rcases entries found' with ⟨isNew', _⟩ | ⟨_, older'⟩
      · exact isNew.trans isNew'.symm
      · omega
    · rcases entries found' with ⟨_, newest'⟩ | ⟨old', _⟩
      · omega
      · exact indexed.distinct id other entry entry' old old' same

theorem Indexed.reap (indexed : s.Indexed) {id : SocketId} {entry : ConnEntry}
    (present : s.driver.conns.lookup id = some entry) :
    Indexed { s with driver := s.driver.reap id, guards := s.guards.erase id } := by
  rw [ListenerDriver.reap_of_inverse indexed.inverse present]
  have kept {other : SocketId} {left : ConnEntry}
      (found : (s.driver.conns.erase id).lookup other = some left) :
      s.driver.conns.lookup other = some left := by
    by_cases same : other = id
    · rw [same, AList.lookup_erase] at found
      cases found
    · rw [AList.lookup_erase_ne same] at found
      exact found
  refine ⟨?_, ?_, indexed.single.erase id, ?_, ?_⟩
  · dsimp only
    rw [ListenerDriver.peerOf_erase]
    change Inverse _ (fun peer => (s.driver.byPeer.erase entry.peer).lookup peer)
    rw [lookup_erase_eq]
    exact indexed.inverse.erase (ListenerDriver.peerOf_of_lookup present)
  · intro other
    dsimp only
    rw [indexed.single.mem_erase_iff, indexed.guarded]
    by_cases same : other = id
    · rw [same, AList.lookup_erase]
      exact ⟨fun kept => absurd rfl kept.1, fun found => nomatch found⟩
    · rw [AList.lookup_erase_ne same]
      exact ⟨And.right, fun found => ⟨same, found⟩⟩
  · intro other left found
    exact indexed.numbered other left (kept found)
  · intro one other left right found found' same
    exact indexed.distinct one other left right (kept found) (kept found') same

theorem Indexed.next (indexed : s.Indexed) {event : Event} (allowed : s.allows event) :
    (s.next P event).Indexed := by
  cases event with
  | datagram now source datagram rolls =>
      have handles := s.driver.onDatagram_handles (P := P) now source datagram rolls s.permit
      change Indexed (s.settle (s.receive P now source datagram rolls))
      unfold receive
      generalize s.driver.onDatagram P now source datagram rolls s.permit = outcome at handles
      cases handles with
      | accepts reads accepted fresh => exact indexed.register fresh (s.waiting + 1)
      | _ => exact indexed
  | reap id =>
      have present := (indexed.guarded id).mp allowed.2
      rcases Option.isSome_iff_exists.mp present with ⟨entry, found⟩
      exact indexed.reap found
  | accept => exact indexed.frame s.driver.acceptOpen s.handle (s.waiting - 1)
  | dropHandle => exact indexed.frame s.driver.acceptOpen false s.waiting
  | noticeDrop => exact indexed.frame false s.handle s.waiting

theorem indexed_of_run {history : List (Demux × Event)} (run : (machine P).Run history s) :
    s.Indexed := by
  refine run.invariant Indexed ?_ ?_
  · rintro state ⟨core, rfl⟩
    exact indexed_bound core
  · intro state event indexed allowed
    exact indexed.next allowed

/-! ## The indexes in every run -/

/-- What a datagram may do.  An accepted connection is new under both keys, nothing else changes
the indexes, and the datagram goes only to a connection that is registered for its source. -/
def Routed (s : Demux) (source : SocketAddrV4) : ListenerDriver × Option ListenerOutput -> Prop
  | (driver, some (.spawn conn)) =>
      s.driver.conns.lookup conn.localSocketId = none ∧
        s.driver.byPeer.lookup (source, conn.peerSocketId) = none ∧
        driver.conns = s.driver.conns.insert conn.localSocketId
          ⟨s.driver.spawned, source, conn.peerSocketId⟩ ∧
        driver.byPeer = s.driver.byPeer.insert (source, conn.peerSocketId) conn.localSocketId
  | (driver, some (.forward tx _)) =>
      driver = s.driver ∧
        (Exists fun id => Exists fun entry =>
          s.driver.conns.lookup id = some entry ∧ entry.tx = tx) ∧
        forall id entry, s.driver.conns.lookup id = some entry -> entry.tx = tx ->
          entry.peer.1 = source
  | (driver, _) => driver = s.driver

/-- What an event may do to the indexes.  A reap takes away the two keys of its connection. -/
def Orderly (P : Primitives) (s : Demux) : Event -> Prop
  | .datagram now source datagram rolls => s.Routed source (s.receive P now source datagram rolls)
  | .reap id =>
      Exists fun entry => s.driver.conns.lookup id = some entry ∧
        s.driver.byPeer.lookup entry.peer = some id ∧
        (s.next P (.reap id)).driver.conns = s.driver.conns.erase id ∧
        (s.next P (.reap id)).driver.byPeer = s.driver.byPeer.erase entry.peer
  | event =>
      (s.next P event).driver.conns = s.driver.conns ∧
        (s.next P event).driver.byPeer = s.driver.byPeer

/-- The one connection with the queue is registered for the source. -/
theorem Indexed.source_of_tx (indexed : s.Indexed) {id : SocketId} {entry : ConnEntry}
    {source : SocketAddrV4} (present : s.driver.conns.lookup id = some entry)
    (same : entry.peer.1 = source) :
    forall other entry', s.driver.conns.lookup other = some entry' -> entry'.tx = entry.tx ->
      entry'.peer.1 = source := by
  intro other entry' found tx
  have one := indexed.distinct id other entry entry' present found tx.symm
  subst one
  rw [present] at found
  cases found
  exact same

theorem Indexed.orderly (indexed : s.Indexed) {event : Event} (allowed : s.allows event) :
    s.Orderly P event := by
  cases event with
  | datagram now source datagram rolls =>
      have handles := s.driver.onDatagram_handles (P := P) now source datagram rolls s.permit
      change s.Routed source (s.driver.onDatagram P now source datagram rolls s.permit)
      generalize s.driver.onDatagram P now source datagram rolls s.permit = outcome at handles
      cases handles with
      | drops => exact rfl
      | replies reads replied => exact rfl
      | refuses reads coded => exact rfl
      | routes present same =>
          exact ⟨rfl, ⟨_, _, present, rfl⟩, indexed.source_of_tx present same⟩
      | @repeats id other entry known present =>
          have peer := (indexed.inverse id (source, other)).mpr known
          rw [ListenerDriver.peerOf_of_lookup present] at peer
          have same : entry.peer.1 = source := congrArg Prod.fst (Option.some.inj peer)
          exact ⟨rfl, ⟨_, _, present, rfl⟩, indexed.source_of_tx present same⟩
      | accepts reads accepted fresh => exact ⟨fresh.id, fresh.peer, rfl, rfl⟩
  | reap id =>
      have live := (indexed.guarded id).mp allowed.2
      rcases Option.isSome_iff_exists.mp live with ⟨entry, present⟩
      have reaped := ListenerDriver.reap_of_inverse indexed.inverse present
      refine ⟨entry, present, ?_, ?_, ?_⟩
      · exact (indexed.inverse id entry.peer).mp (ListenerDriver.peerOf_of_lookup present)
      · exact congrArg ListenerDriver.conns reaped
      · exact congrArg ListenerDriver.byPeer reaped
  | accept => exact ⟨rfl, rfl⟩
  | dropHandle => exact ⟨rfl, rfl⟩
  | noticeDrop => exact ⟨rfl, rfl⟩

/-- In every run the two indexes are mutually inverse, they list the connections that have not
been reaped with at most one for a peer, and every event keeps them in order. -/
theorem indexes_inverse {history : List (Demux × Event)} (run : (machine P).Run history s) :
    (forall id peer, s.driver.peerOf id = some peer ↔ s.driver.idOf peer = some id) ∧
      (forall id, id ∈ s.guards ↔ (s.driver.peerOf id).isSome) ∧
      (forall id other peer, s.driver.peerOf id = some peer -> s.driver.peerOf other = some peer ->
        id = other) ∧
      forall event, (machine P).guard s event -> s.Orderly P event := by
  have indexed := indexed_of_run run
  refine ⟨indexed.inverse, ?_, ?_, ?_⟩
  · intro id
    unfold ListenerDriver.peerOf
    rw [Option.isSome_map]
    exact indexed.guarded id
  · intro id other peer found found'
    exact indexed.inverse.injective found found'
  · intro event allowed
    exact indexed.orderly allowed

def sampleDemux : Demux where
  driver := .bound { timebase := ⟨0⟩, opts := {}, cookieAt := fun _ _ => 7 }

def samplePeer : SocketAddrV4 := ⟨[10, 0, 0, 2], 5000⟩

/-- A conclusion of the socket 3. -/
def sampleConclusion : Packet :=
  control (.handshake (plainCif .conclusion ⟨3⟩ [.hsReq (plainFields 0)]))

/-- The second id that the generator rolls is the first one that is unused. -/
def sampleArrivals : List Event :=
  [.datagram 0 samplePeer sampleConclusion.encode [⟨5⟩],
    .datagram 0 ⟨[10, 0, 0, 3], 5000⟩ sampleConclusion.encode [⟨5⟩, ⟨6⟩],
    .reap ⟨5⟩]

theorem indexes_inverse_sample :
    ((machine .sample).exec sampleDemux sampleArrivals).driver.peerOf ⟨6⟩ =
        some (⟨[10, 0, 0, 3], 5000⟩, ⟨3⟩) ∧
      ((machine .sample).exec sampleDemux sampleArrivals).driver.idOf
        (⟨[10, 0, 0, 3], 5000⟩, ⟨3⟩) = some ⟨6⟩ := by
  have bound : (machine .sample).start sampleDemux := ⟨_, rfl⟩
  have run := Machine.run_exec bound
    (by decide +kernel : (machine .sample).Allowed _ sampleArrivals)
  have found : ((machine .sample).exec sampleDemux sampleArrivals).driver.peerOf ⟨6⟩ =
      some (⟨[10, 0, 0, 3], 5000⟩, ⟨3⟩) := by
    decide +kernel
  exact ⟨found, ((indexes_inverse run).1 _ _).mp found⟩

end Demux

end Rsrt
