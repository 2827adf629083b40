import Rsrt.Core.Handshake
import Mathlib.Logic.Encodable.Pi

namespace Rsrt
namespace Listener

/-!
# The cookie gate of the listener

The listener keeps nothing about a peer before it accepts it.  An INDUCTION is answered with
a cookie for the sender's address and the current minute, and a CONCLUSION is looked at only
if it brings the cookie of the current minute or of the one before.  A cookie is therefore
good for a whole minute wherever in a minute it was issued, and it is good for nothing once
two minutes have begun after it.
-/

variable (P : Primitives) (self : Listener)

/-- An INDUCTION from the peer at that instant is answered with the cookie. -/
def Issues (now : Instant) (peer : SocketAddrV4) (cookie : Nat) : Prop :=
  forall (cif : HandshakeCif) (newSocketId : SocketId), cif.handshakeType = .induction ->
    Exists fun answer : HandshakeCif =>
      self.handleHandshake P now peer cif newSocketId =
        .reply (self.packet now cif.socketId answer) ∧ answer.cookie = cookie

/-- The cookie is one that the peer would have received at some instant so far of the current
minute or of the one before. -/
def Recent (now : Instant) (peer : SocketAddrV4) (cookie : Nat) : Prop :=
  Exists fun issued => issued ≤ now ∧
    (self.minute issued = self.minute now ∨ self.minute issued + 1 = self.minute now) ∧
      self.Issues P issued peer cookie

/-- One handshake packet, with the id to use if it completes a connection. -/
structure Attempt where
  now : Instant
  peer : SocketAddrV4
  cif : HandshakeCif
  newSocketId : SocketId

/-- The actions over a run.  The listener has no state that a handshake changes. -/
def answers (attempts : List Attempt) : List ListenerAction :=
  attempts.map fun attempt =>
    self.handleHandshake P attempt.now attempt.peer attempt.cif attempt.newSocketId

/-- The packet rejects a handshake. -/
def Rejects (packet : Packet) : Prop :=
  Exists fun control : ControlPacket => packet = .control control ∧
    Exists fun cif : HandshakeCif => control.controlType = .handshake cif ∧
      Exists fun code => cif.handshakeType = .rejection code

/-- The action accepts or rejects. -/
def Settles : ListenerAction -> Prop
  | .reply packet => Rejects packet
  | .accept _ _ => True
  | .drop => False

variable {P} {self}

theorem minute_eq (now : Instant) : self.minute now = (now - self.timebase.start) / 60000000000 := by
  change (now - self.timebase.start) / 1000000000 / 60 = _
  rw [Nat.div_div_eq_div_mul]

theorem minute_mono {earlier later : Instant} (order : earlier ≤ later) :
    self.minute earlier ≤ self.minute later := by
  rw [minute_eq, minute_eq]
  apply Nat.div_le_div_right
  exact Nat.sub_le_sub_right order _

/-- At most one minute begins within a minute. -/
theorem minute_le_succ {issued now : Instant} (soon : now ≤ issued + Duration.fromSecs 60) :
    self.minute now ≤ self.minute issued + 1 := by
  have bound : @LE.le Nat _ now (issued + 60000000000) := soon
  rw [minute_eq, minute_eq]
  omega

/-- Every minute before the current one had an instant. -/
theorem exists_minute {now : Instant} {minute : Nat} (past : minute < self.minute now) :
    Exists fun issued => issued ≤ now ∧ self.minute issued = minute := by
  rw [minute_eq] at past
  refine ⟨self.timebase.start + minute * 60000000000, ?_, ?_⟩
  · have begun (start now : Nat) (past : minute < (now - start) / 60000000000) :
        start + minute * 60000000000 ≤ now := by omega
    exact begun self.timebase.start now past
  · have whole (start : Nat) : (start + minute * 60000000000 - start) / 60000000000 = minute := by
      omega
    rw [minute_eq]
    exact whole self.timebase.start

theorem issues_cookie (now : Instant) (peer : SocketAddrV4) :
    self.Issues P now peer (self.cookie now peer) := by
  intro cif newSocketId induction
  refine ⟨{ cif with
      version := hsVersionSrt1
      encryption := (self.opts.pbkeylen.map pbkeylenBits).getD 0
      extensionField := srtMagic
      cookie := self.cookie now peer
      extensions := [] }, ?_, rfl⟩
  have answered : self.handleHandshake P now peer cif newSocketId =
      self.onInduction now peer cif := by
    unfold handleHandshake
    rw [induction]
  rw [answered]
  rfl

/-- The check passes on recent cookies of the same address only. -/
theorem recent_of_cookieOk {now : Instant} {peer : SocketAddrV4} {cookie : Nat}
    (passed : self.cookieOk now peer cookie = true) : self.Recent P now peer cookie := by
  unfold cookieOk at passed
  rw [Bool.or_eq_true, Bool.and_eq_true, decide_eq_true_iff, decide_eq_true_iff,
    decide_eq_true_iff] at passed
  rcases passed with current | ⟨later, previous⟩
  · subst current
    exact ⟨now, le_refl _, Or.inl rfl, issues_cookie now peer⟩
  · rcases exists_minute (by omega : self.minute now - 1 < self.minute now) with
      ⟨issued, past, minute⟩
    refine ⟨issued, past, Or.inr (by omega), ?_⟩
    rw [previous, ← minute]
    exact issues_cookie issued peer

theorem cookieOk_of_issued {issued now : Instant} (peer : SocketAddrV4) (order : issued ≤ now)
    (soon : now ≤ issued + Duration.fromSecs 60) :
    self.cookieOk now peer (self.cookie issued peer) = true := by
  have same : self.minute issued ≤ self.minute now := minute_mono order
  have next : self.minute now ≤ self.minute issued + 1 := minute_le_succ soon
  unfold cookieOk cookie
  rw [Bool.or_eq_true, Bool.and_eq_true, decide_eq_true_iff, decide_eq_true_iff,
    decide_eq_true_iff]
  by_cases current : self.minute issued = self.minute now
  · exact Or.inl (by rw [current])
  · have previous : self.minute now - 1 = self.minute issued := by omega
    exact Or.inr ⟨by omega, by rw [previous]⟩

/-- What is not dropped of the conclusions has passed both silent checks. -/
theorem onConclusion_passed {now : Instant} {peer : SocketAddrV4} {cif : HandshakeCif}
    {newSocketId : SocketId} (answered : self.onConclusion P now peer cif newSocketId ≠ .drop) :
    cifValid cif = true ∧ self.cookieOk now peer cif.cookie = true := by
  unfold onConclusion at answered
  by_cases valid : cifValid cif = true
  · by_cases passed : self.cookieOk now peer cif.cookie = true
    · exact ⟨valid, passed⟩
    · rw [if_neg (not_not.mpr valid), if_pos passed] at answered
      exact absurd rfl answered
  · rw [if_pos valid] at answered
    exact absurd rfl answered

theorem onConclusion_oldVersion {now : Instant} {peer : SocketAddrV4} {cif : HandshakeCif}
    {newSocketId : SocketId} (valid : cifValid cif = true)
    (passed : self.cookieOk now peer cif.cookie = true) (old : cif.version ≠ hsVersionSrt1) :
    self.onConclusion P now peer cif newSocketId = self.rejection now cif Reject.version := by
  unfold onConclusion
  rw [if_neg (not_not.mpr valid), if_neg (not_not.mpr passed), if_pos old]

theorem not_settles_onInduction (now : Instant) (peer : SocketAddrV4) {cif : HandshakeCif}
    (induction : cif.handshakeType = .induction) :
    ¬ Settles (self.onInduction now peer cif) := by
  rintro ⟨control, same, answer, carries, code, rejects⟩
  cases same
  cases carries
  rw [induction] at rejects
  cases rejects

/-- A handshake settles something only if it is a valid conclusion with a recent cookie of
its own address. -/
theorem recent_of_settles {now : Instant} {peer : SocketAddrV4} {cif : HandshakeCif}
    {newSocketId : SocketId} (settles : Settles (self.handleHandshake P now peer cif newSocketId)) :
    cif.handshakeType = .conclusion ∧ cifValid cif = true ∧ self.Recent P now peer cif.cookie := by
  unfold handleHandshake at settles
  cases kind : cif.handshakeType with
  | induction =>
      rw [kind] at settles
      exact absurd settles (not_settles_onInduction now peer kind)
  | conclusion =>
      rw [kind] at settles
      have answered : self.onConclusion P now peer cif newSocketId ≠ .drop := by
        intro dropped
        rw [dropped] at settles
        exact settles
      rcases onConclusion_passed answered with ⟨valid, passed⟩
      exact ⟨rfl, valid, recent_of_cookieOk passed⟩
  | waveahand =>
      rw [kind] at settles
      exact settles.elim
  | agreement =>
      rw [kind] at settles
      exact settles.elim
  | rejection code =>
      rw [kind] at settles
      exact settles.elim

/-- The gate.  The cookie of an INDUCTION passes the check of the same address for the next
sixty seconds.  A CONCLUSION is answered only if its cookie is one that its address would have
received in the current or the previous minute; if no two pairs of a minute and an address
share a cookie, then it is the cookie of nothing else.  Without such a cookie no run makes the
listener accept or reject. -/
theorem cookie_gate (P : Primitives) (self : Listener) :
    (forall (issued now : Instant) (peer : SocketAddrV4) (cif : HandshakeCif)
        (newSocketId : SocketId), cif.handshakeType = .induction ->
      issued ≤ now -> now ≤ issued + Duration.fromSecs 60 ->
        Exists fun answer : HandshakeCif =>
          self.handleHandshake P issued peer cif newSocketId =
            .reply (self.packet issued cif.socketId answer) ∧
          self.cookieOk now peer answer.cookie = true) ∧
    (forall (now : Instant) (peer : SocketAddrV4) (cif : HandshakeCif) (newSocketId : SocketId),
      cif.handshakeType = .conclusion -> cifValid cif = true ->
      self.handleHandshake P now peer cif newSocketId ≠ .drop ->
        self.Recent P now peer cif.cookie ∧
        ((forall minute addr minute' addr',
            self.cookieAt minute addr = self.cookieAt minute' addr' ->
              minute = minute' ∧ addr = addr') ->
          forall minute addr, self.cookieAt minute addr = cif.cookie ->
            addr = peer ∧ (minute = self.minute now ∨ minute + 1 = self.minute now))) ∧
    forall attempts : List Attempt,
      (forall attempt, attempt ∈ attempts -> attempt.cif.handshakeType = .conclusion ->
        cifValid attempt.cif = true ->
          ¬ self.Recent P attempt.now attempt.peer attempt.cif.cookie) ->
      forall action, action ∈ self.answers P attempts -> ¬ Settles action := by
  refine ⟨?_, ?_, ?_⟩
  · intro issued now peer cif newSocketId induction order soon
    rcases issues_cookie (P := P) issued peer cif newSocketId induction with
      ⟨answer, replied, cookie⟩
    refine ⟨answer, replied, ?_⟩
    rw [cookie]
    exact cookieOk_of_issued peer order soon
  · intro now peer cif newSocketId conclusion valid answered
    unfold handleHandshake at answered
    rw [conclusion] at answered
    have passed := (onConclusion_passed answered).2
    refine ⟨recent_of_cookieOk passed, ?_⟩
    intro injective minute addr same
    unfold cookieOk at passed
    rw [Bool.or_eq_true, Bool.and_eq_true, decide_eq_true_iff, decide_eq_true_iff,
      decide_eq_true_iff] at passed
    rcases passed with current | ⟨later, previous⟩
    · rcases injective _ _ _ _ (same.trans current) with ⟨rfl, rfl⟩
      exact ⟨rfl, Or.inl rfl⟩
    · rcases injective _ _ _ _ (same.trans previous) with ⟨rfl, rfl⟩
      exact ⟨rfl, Or.inr (by omega)⟩
  · intro attempts stale action member settles
    rcases List.mem_map.mp member with ⟨attempt, attempted, rfl⟩
    rcases recent_of_settles settles with ⟨conclusion, valid, recent⟩
    exact stale attempt attempted conclusion valid recent

/-- A listener whose cookies tell every minute and address apart. -/
def distinguishing : Listener where
  timebase := ⟨0⟩
  opts := {}
  cookieAt := fun minute addr => Encodable.encode (minute, addr.ip.map UInt8.toNat, addr.port)

theorem distinguishing_injective (minute : Nat) (addr : SocketAddrV4) (minute' : Nat)
    (addr' : SocketAddrV4)
    (same : distinguishing.cookieAt minute addr = distinguishing.cookieAt minute' addr') :
    minute = minute' ∧ addr = addr' := by
  rcases addr with ⟨ip, port⟩
  rcases addr' with ⟨ip', port'⟩
  have parts := Encodable.encode_injective same
  rw [Prod.mk.injEq, Prod.mk.injEq] at parts
  rcases parts with ⟨rfl, octets, rfl⟩
  have ips : ip = ip' :=
    List.map_injective_iff.mpr (fun _ _ equal => UInt8.toNat_inj.mp equal) octets
  exact ⟨rfl, by rw [ips]⟩

/-- The first request of a caller, and its conclusion of an unsupported version. -/
def oldCif (kind : HandshakeType) (cookie : Nat) : HandshakeCif :=
  { plainCif kind ⟨7⟩ [] with version := hsVersionUdt4, extensionField := 0, cookie }

theorem oldCif_valid (kind : HandshakeType) (cookie : Nat) :
    cifValid (oldCif kind cookie) = true := by
  simp [cifValid, oldCif, plainCif]

def home : SocketAddrV4 := ⟨[10, 0, 0, 1], 9000⟩

/-- The cookie of the first minute. -/
def homeCookie : Nat := distinguishing.cookieAt 0 home

theorem cookie_gate_distinguishing :
    (Exists fun answer : HandshakeCif =>
      distinguishing.handleHandshake .sample 30000000000 home (oldCif .induction 0) ⟨1⟩ =
        .reply (distinguishing.packet 30000000000 ⟨7⟩ answer) ∧
      distinguishing.cookieOk 90000000000 home answer.cookie = true) ∧
    (distinguishing.Recent .sample 90000000000 home homeCookie ∧
      forall minute addr, distinguishing.cookieAt minute addr = homeCookie ->
        addr = home ∧ (minute = 1 ∨ minute + 1 = 1)) ∧
    forall action, action ∈ distinguishing.answers .sample
      [⟨30000000000, home, oldCif .induction 0, ⟨1⟩⟩] -> ¬ Settles action := by
  have gate := cookie_gate .sample distinguishing
  refine ⟨?_, ?_, ?_⟩
  · exact gate.1 30000000000 90000000000 home (oldCif .induction 0) ⟨1⟩ rfl (by decide) (by decide)
  · have answered : distinguishing.handleHandshake .sample 90000000000 home
        (oldCif .conclusion homeCookie) ⟨1⟩ ≠ .drop := by
      have passed : distinguishing.cookieOk 90000000000 home homeCookie = true :=
        @cookieOk_of_issued distinguishing 30000000000 90000000000 home (by decide) (by decide)
      change distinguishing.onConclusion .sample 90000000000 home (oldCif .conclusion homeCookie) ⟨1⟩ ≠ _
      rw [onConclusion_oldVersion (oldCif_valid .conclusion homeCookie) passed
        (by decide : hsVersionUdt4 ≠ hsVersionSrt1)]
      exact ListenerAction.noConfusion
    rcases gate.2.1 90000000000 home (oldCif .conclusion homeCookie) ⟨1⟩ rfl
      (oldCif_valid _ _) answered with ⟨recent, only⟩
    exact ⟨recent, only distinguishing_injective⟩
  · apply gate.2.2
    intro attempt member conclusion
    rw [List.mem_singleton.mp member] at conclusion
    cases conclusion

end Listener
end Rsrt
