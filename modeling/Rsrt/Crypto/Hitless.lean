import Rsrt.Crypto.Rotation

namespace Rsrt
namespace Crypto

open Rsrt.Basis

/-!
# A key refresh is hitless

The sending side announces every key before it uses it, and the receiving side holds,
after the message of a key, that key and the one before it.  Both sides are followed
through whole runs: the sender with the messages that it returns, the receiver with
the message that it installed last.
-/

variable {P : Primitives}

/-! ## The messages -/

theorem Session.message_succ {s : Session} {index : Nat} {old new : SecretKey}
    (before : s.keys[index]? = some old) (after : s.keys[index + 1]? = some new) :
    s.message P (index + 1) = some (KmMessage.encode
      { keys := .both
        keyLen := s.engine.cfg.keyLen
        salt := s.engine.salt
        wrapped := wrapKey P s.engine.kek
          (if s.first.turn index = .even then old.bytes ++ new.bytes
          else new.bytes ++ old.bytes) }) := by
  simp only [Session.message, before, after]

theorem Session.keys_of_message_succ {s : Session} {index : Nat} {blob : Bytes}
    (found : s.message P (index + 1) = some blob) :
    Exists fun old => Exists fun new => s.keys[index]? = some old ∧
      s.keys[index + 1]? = some new := by
  simp only [Session.message] at found
  split at found
  · rename_i old new before after
    exact ⟨old, new, before, after⟩
  · cases found

/-- A later session knows the same messages. -/
theorem Session.Grows.message {s later : Session} (grows : s.Grows later) {index : Nat}
    {blob : Bytes} (found : s.message P index = some blob) :
    later.message P index = some blob := by
  cases index with
  | zero =>
      change some later.initial = some blob
      rw [grows.initial]
      exact found
  | succ index =>
      rcases keys_of_message_succ found with ⟨old, new, before, after⟩
      rw [← found, message_succ before after,
        message_succ (grows.getElem? before) (grows.getElem? after), grows.cfg, grows.salt,
        grows.kek, grows.first]

/-- An acknowledgement that draws a key returns the message of that key. -/
theorem Session.Placed.onAck_message {s : Session} (placed : s.Placed P)
    (announces : s.engine.announcing) (now : Instant) (srttUs : Nat) (fresh : SecretKey) :
    (s.step P (.onAck now srttUs fresh)).keys[s.keys.length]? = some fresh ∧
      Exists fun blob => (s.engine.onAck P now srttUs fresh).2 = some blob ∧
        (s.step P (.onAck now srttUs fresh)).message P s.keys.length = some blob := by
  have length := placed.length_of_not_announced announces.2.2
  have drawn : (s.step P (.onAck now srttUs fresh)).keys = s.keys ++ [fresh] := if_pos announces
  have grows := s.step_grows (P := P) (.onAck now srttUs fresh)
  have new : (s.step P (.onAck now srttUs fresh)).keys[s.keys.length]? = some fresh := by
    rw [drawn, List.getElem?_concat_length]
  refine ⟨new, ?_⟩
  rw [length] at new ⊢
  rw [message_succ (grows.getElem? placed.active) new, grows.cfg, grows.salt, grows.kek,
    grows.first, ← placed.slot]
  rcases @onAck_cases P s.engine now srttUs fresh with ⟨_, out, evaluated⟩ | ⟨quiet, _⟩
  · rw [evaluated]
    refine ⟨_, rfl, ?_⟩
    change _ = some (KmMessage.encode
      { keys := .both, keyLen := s.engine.cfg.keyLen, salt := s.engine.salt,
        wrapped := wrapKey P s.engine.kek (sekPair (s.engine.announce fresh).tx) })
    rw [sekPair_announce]
    unfold announcedKeys
    cases s.engine.active <;> rfl
  · exact absurd announces quiet

/-- The entry returned the message. -/
def Returns (P : Primitives) (entry : Session × Call) (blob : Bytes) : Prop :=
  match entry.2 with
  | .onAck now srttUs fresh => (entry.1.engine.onAck P now srttUs fresh).2 = some blob
  | _ => False

/-- Every key but those of the opening was drawn by an acknowledgement that returned its
message. -/
theorem run_returned {start : Session -> Prop} (opens : forall s, start s -> Opening P s)
    {history : List (Session × Call)} {s : Session} (run : (machine P start).Run history s)
    {index : Nat} (later : forall opened, start opened -> opened.keys.length ≤ index)
    (drawn : index < s.keys.length) :
    Exists fun blob => s.message P index = some blob ∧ Exists fun entry => entry ∈ history ∧
      entry.1.keys.length = index ∧ Returns P entry blob := by
  revert drawn
  apply run.induct fun history s => index < s.keys.length ->
    Exists fun blob => s.message P index = some blob ∧ Exists fun entry => entry ∈ history ∧
      entry.1.keys.length = index ∧ Returns P entry blob
  · intro s started drawn
    exact absurd drawn (not_lt.mpr (later s started))
  · intro history s call before ih permits drawn
    by_cases old : index < s.keys.length
    · rcases ih old with ⟨blob, message, entry, member, length, returned⟩
      exact ⟨blob, (s.step_grows call).message message, entry,
        List.mem_append_left _ member, length, returned⟩
    · change index < (s.step P call).keys.length at drawn
      cases call with
      | encrypt seq payload => exact absurd drawn old
      | decrypt seq kk payload => exact absurd drawn old
      | handleKmreq payload => exact absurd drawn old
      | handleKmrsp payload => exact absurd drawn old
      | onAck now srttUs fresh =>
          have placed := run_placed before opens
          by_cases announces : s.engine.announcing
          · have same : s.keys.length = index := by
              change index < (if s.engine.announcing then s.keys ++ [fresh] else s.keys).length
                at drawn
              rw [if_pos announces, List.length_append, List.length_singleton] at drawn
              omega
            rcases (placed.onAck_message announces now srttUs fresh).2 with
              ⟨blob, returned, message⟩
            exact ⟨blob, same ▸ message, (s, .onAck now srttUs fresh),
              List.mem_append_right _ (List.mem_singleton_self _), same, returned⟩
          · change index < (if s.engine.announcing then s.keys ++ [fresh] else s.keys).length
              at drawn
            rw [if_neg announces] at drawn
            exact absurd drawn old

/-! ## The receiving side -/

/-- The message carries the keys: an engine with the passphrase unwraps it to them. -/
def Carries (P : Primitives) (passphrase blob : Bytes) (salt : Salt)
    (seks : SlotPair SecretKey) : Prop :=
  Exists fun msg => Exists fun sek => parseKmreq blob = .ok msg ∧ msg.salt = salt ∧
    unwrapKey P (deriveKek P passphrase msg.salt msg.keyLen) msg.wrapped = .ok sek ∧
    splitSeks msg sek = seks

theorem Carries.unique {passphrase blob : Bytes} {salt salt' : Salt}
    {seks seks' : SlotPair SecretKey} (carries : Carries P passphrase blob salt seks)
    (also : Carries P passphrase blob salt' seks') : salt = salt' ∧ seks = seks' := by
  rcases carries with ⟨msg, sek, parsed, rfl, unwrapped, rfl⟩
  rcases also with ⟨msg', sek', parsed', rfl, unwrapped', rfl⟩
  cases parsed.symm.trans parsed'
  cases unwrapped.symm.trans unwrapped'
  exact ⟨rfl, rfl⟩

/-- Two engines that do not differ in what they receive with. -/
structure ReceivesAlike (c c' : Crypto) : Prop where
  cfg : c'.cfg = c.cfg
  kek : c'.kek = c.kek
  rx : c'.rx = c.rx
  rxSalt : c'.rxSalt = c.rxSalt
  rxKek : c'.rxKek = c.rxKek

theorem decrypt_receivesAlike (c : Crypto) (seq : SeqNumber) (kk : EncryptionFlags)
    (payload : Bytes) : ReceivesAlike c (c.decrypt P seq kk payload).1 := by
  unfold Crypto.decrypt
  repeat' split
  all_goals exact ⟨rfl, rfl, rfl, rfl, rfl⟩

theorem onAck_receivesAlike (c : Crypto) (now : Instant) (srttUs : Nat) (fresh : SecretKey) :
    ReceivesAlike c (c.onAck P now srttUs fresh).1 := by
  rcases @onAck_cases P c now srttUs fresh with ⟨_, out, evaluated⟩ |
    ⟨_, c', out, evaluated, ⟨rfl, _⟩ | ticks⟩
  · rw [evaluated]
    exact ⟨rfl, rfl, rfl, rfl, rfl⟩
  · rw [evaluated]
    exact ⟨rfl, rfl, rfl, rfl, rfl⟩
  · rw [evaluated]
    exact ⟨ticks.keeps.cfg, ticks.keeps.kek, ticks.keeps.rx, ticks.keeps.rxSalt,
      ticks.keeps.rxKek⟩

theorem handleKmrsp_receivesAlike (c : Crypto) (payload : Bytes) :
    ReceivesAlike c (c.handleKmrsp payload).1 := by
  rcases handleKmrsp_cases c payload with ⟨snd, rcv, out, evaluated⟩
  rw [evaluated]
  exact ⟨rfl, rfl, rfl, rfl, rfl⟩

/-- The receiving slots hold the keys of the message that was installed last, and the
KEK is the one of the current salt. -/
structure Session.Holds (P : Primitives) (s : Session) : Prop where
  derived : Exists fun keyLen => s.engine.rxKek.getD s.engine.kek =
    deriveKek P s.engine.cfg.passphrase s.engine.rxSalt keyLen
  installed : Exists fun seks =>
    Carries P s.engine.cfg.passphrase s.installed s.engine.rxSalt seks ∧
      forall slot key, seks.get slot = some key -> s.engine.rx.get slot = some (.new key)

theorem Session.Holds.of_receivesAlike {s s' : Session} (holds : s.Holds P)
    (alike : ReceivesAlike s.engine s'.engine) (same : s'.installed = s.installed) :
    s'.Holds P where
  derived := by
    rw [alike.rxKek, alike.kek, alike.cfg, alike.rxSalt]
    exact holds.derived
  installed := by
    rw [alike.cfg, same, alike.rxSalt, alike.rx]
    exact holds.installed

theorem deriveKek_length (ideal : P.Ideal) (passphrase : Bytes) (salt : Salt)
    (keyLen : KeyLength) : (deriveKek P passphrase salt keyLen).bytes.length = keyLen.bytes :=
  ideal.pbkdf2_length _ _ _ _

/-- Whatever the engine received before, an installed message was unwrapped with the KEK of
its own salt and key length. -/
theorem Session.Holds.installRx (ideal : P.Ideal) {s : Session} (holds : s.Holds P)
    {payload : Bytes} {msg : KmMessage} (parsed : parseKmreq payload = .ok msg)
    {installed : Crypto} (done : s.engine.installRx P msg = .ok installed) {s' : Session}
    (engine : s'.engine = { installed with rcvState := .secured })
    (last : s'.installed = payload) : s'.Holds P := by
  rcases installRx_ok done with ⟨sek, rxKek, source, unwrapped, rfl⟩
  have kek : rxKek.getD s.engine.kek =
      deriveKek P s.engine.cfg.passphrase msg.salt msg.keyLen := by
    rcases source with rfl | ⟨rfl, salt, length⟩
    · rfl
    · rcases holds.derived with ⟨keyLen, derived⟩
      rw [derived, deriveKek_length ideal] at length
      have same : msg.keyLen = keyLen := by
        have found := congrArg KeyLength.fromBytes length
        rw [KeyLength.fromBytes_bytes, KeyLength.fromBytes_bytes] at found
        exact Option.some_inj.mp found
      rw [derived, salt, same]
  constructor
  · rw [engine]
    exact ⟨msg.keyLen, kek⟩
  · rw [engine, last]
    rw [kek] at unwrapped
    refine ⟨_, ⟨msg, sek, parsed, rfl, unwrapped, rfl⟩, ?_⟩
    intro slot key carried
    cases slot with
    | even =>
        change ((splitSeks msg sek).even.map CtrCipher.new).or s.engine.rx.even = _
        change (splitSeks msg sek).even = some key at carried
        rw [carried]
        rfl
    | odd =>
        change ((splitSeks msg sek).odd.map CtrCipher.new).or s.engine.rx.odd = _
        change (splitSeks msg sek).odd = some key at carried
        rw [carried]
        rfl

theorem Session.Holds.step (ideal : P.Ideal) {s : Session} (holds : s.Holds P) (call : Call) :
    (s.step P call).Holds P := by
  cases call with
  | encrypt seq payload => exact holds.of_receivesAlike ⟨rfl, rfl, rfl, rfl, rfl⟩ rfl
  | decrypt seq kk payload =>
      exact holds.of_receivesAlike (decrypt_receivesAlike s.engine seq kk payload) rfl
  | onAck now srttUs fresh =>
      exact holds.of_receivesAlike (onAck_receivesAlike s.engine now srttUs fresh) rfl
  | handleKmrsp payload =>
      exact holds.of_receivesAlike (handleKmrsp_receivesAlike s.engine payload) rfl
  | handleKmreq payload =>
      rcases @handleKmreq_cases P s.engine payload with ⟨msg, installed, parsed, done, evaluated⟩ |
        ⟨snd, rcv, state, evaluated⟩
      · apply holds.installRx ideal parsed done
        · exact congrArg Prod.fst evaluated
        · exact if_pos (congrArg Prod.snd evaluated)
      · apply holds.of_receivesAlike
        · change ReceivesAlike _ (s.engine.handleKmreq P payload).1
          rw [evaluated]
          exact ⟨rfl, rfl, rfl, rfl, rfl⟩
        · apply if_neg
          rw [evaluated]
          exact nofun

/-- The message of the key exchange carries the first keys of the engine that made it. -/
theorem carries_handshakeRequest (ideal : P.Ideal) {cfg : CryptoConfig} {salt : Salt}
    {sek : SecretKey} (sized : sek.bytes.length = cfg.keyLen.bytes) :
    Carries P cfg.passphrase (handshakeRequest P cfg salt sek).encode salt
      { even := some sek } :=
  ⟨handshakeRequest P cfg salt sek, sek, parseKmreq_handshakeRequest ideal sized, rfl,
    unwrapKey_handshakeRequest ideal sized, rfl⟩

theorem Opening.holds (ideal : P.Ideal) {s : Session} (opening : Opening P s) :
    s.Holds P := by
  cases opening with
  | @initiator _ cfg resolved salt sek sized =>
      refine ⟨⟨cfg.keyLen, rfl⟩, _, carries_handshakeRequest ideal sized, ?_⟩
      intro slot key carried
      cases slot with
      | even =>
          cases carried
          rfl
      | odd => cases carried
  | @responder _ cfg resolved kmreq engine accepted sized distinct =>
      rcases newResponder_ok accepted with ⟨msg, sek, parsed, unwrapped, config, _, kek, rxSalt,
        rxKek, _, _, rx, _⟩
      constructor
      · refine ⟨msg.keyLen, ?_⟩
        change engine.rxKek.getD engine.kek = deriveKek P engine.cfg.passphrase engine.rxSalt _
        rw [rxKek, kek, config, rxSalt]
        rfl
      · refine ⟨splitSeks msg sek, ⟨msg, sek, parsed, rxSalt.symm, ?_, rfl⟩, ?_⟩
        · change unwrapKey P (deriveKek P engine.cfg.passphrase _ _) _ = _
          rw [config]
          exact unwrapped
        · intro slot key carried
          change engine.rx.get slot = _
          rw [rx, SlotPair.get_map, carried]
          rfl

/-- An engine that was secured by a message reads what was encrypted under a key of that
message. -/
theorem Session.Holds.decrypt {s : Session} (holds : s.Holds P)
    (secured : s.engine.rcvState = .secured) {salt : Salt} {seks : SlotPair SecretKey}
    (carries : Carries P s.engine.cfg.passphrase s.installed salt seks) {slot : SekSlot}
    {key : SecretKey} (carried : seks.get slot = some key) (seq : SeqNumber) (payload : Bytes) :
    s.engine.decrypt P seq slot.flags
        ((CtrCipher.new key).applyKeystream P salt seq.value payload) =
      (s.engine, .ok payload) := by
  rcases holds.installed with ⟨_, installed, present⟩
  rcases installed.unique carries with ⟨rxSalt, rfl⟩
  unfold Crypto.decrypt
  simp only [rxSlot_flags, secured, present slot key carried, rxSalt,
    CtrCipher.applyKeystream_twice]
  rfl

/-! ## Whole runs -/

/-- A new engine whose key exchange carried the even key alone. -/
def EvenOpening (P : Primitives) (s : Session) : Prop :=
  Opening P s ∧ Exists fun msg => parseKmreq s.initial = .ok msg ∧ msg.keys = .even

theorem EvenOpening.founded (ideal : P.Ideal) {s : Session} (opening : EvenOpening P s) :
    s.first = .even ∧ Exists fun sek => s.keys = [sek] ∧
      Carries P s.engine.cfg.passphrase s.initial s.engine.salt { even := some sek } := by
  rcases opening with ⟨opening, message, parsed, even⟩
  cases opening with
  | @initiator _ cfg resolved salt sek sized =>
      exact ⟨rfl, sek, rfl, carries_handshakeRequest ideal sized⟩
  | @responder _ cfg resolved kmreq engine accepted sized distinct =>
      rcases newResponder_ok accepted with ⟨msg, sek, reparsed, unwrapped, config, salt, _, _, _,
        active, tx, _⟩
      cases parsed.symm.trans reparsed
      have alone : splitSeks message sek = { even := some sek } := by
        unfold splitSeks
        rw [even]
      rw [alone] at active tx
      change engine.active = .even at active
      have key : engine.activeKey.key = sek := by
        have present := engine.get_activeKey
        rw [tx, SlotPair.get_map, active] at present
        have found := congrArg (Option.map TxKey.key) present
        exact (Option.some_inj.mp found).symm
      refine ⟨active, sek, ?_, message, sek, parsed, salt.symm, ?_, alone⟩
      · change engine.activeKey.key ::
          ((engine.tx.get engine.active.other).map TxKey.key).toList = [sek]
        rw [key, tx, active]
        rfl
      · change unwrapKey P (deriveKek P engine.cfg.passphrase _ _) _ = _
        rw [config]
        exact unwrapped

/-- The message of key `i` carries key `i`, and key `i - 1` with it. -/
theorem Session.Placed.message_carries (ideal : P.Ideal) {s opened : Session}
    (placed : s.Placed P) (opening : EvenOpening P opened) (grows : opened.Grows s)
    {index : Nat} {blob : Bytes} (found : s.message P index = some blob) :
    Exists fun seks => Carries P s.engine.cfg.passphrase blob s.engine.salt seks ∧
      forall j, j = index ∨ j + 1 = index ->
        seks.get (SekSlot.even.turn j) = s.keys[j]? := by
  rcases opening.founded ideal with ⟨first, sek, keys, founded⟩
  rw [← grows.first] at first
  cases index with
  | zero =>
      cases found
      rw [← grows.cfg, ← grows.salt, ← grows.initial] at founded
      refine ⟨_, founded, ?_⟩
      rintro j (rfl | impossible)
      · have initial : opened.keys[0]? = some sek := by
          rw [keys]
          rfl
        exact (grows.getElem? initial).symm
      · cases impossible
  | succ index =>
      rcases keys_of_message_succ found with ⟨old, new, before, after⟩
      rw [message_succ before after, first, Option.some_inj] at found
      let a : Agreement :=
        ⟨s.engine.salt, s.engine.kek, s.engine.cfg.keyLen, by
          rw [placed.kek, deriveKek_length ideal]⟩
      let pair : SekSlot -> SecretKey := fun slot =>
        if slot = SekSlot.even.turn index then old else new
      have sized : a.Sized pair := by
        intro slot
        change (if slot = SekSlot.even.turn index then old else new).bytes.length = _
        split_ifs
        · exact placed.sized old (List.mem_of_getElem? before)
        · exact placed.sized new (List.mem_of_getElem? after)
      have wire : blob = (a.carrying P pair).encode := by
        rw [← found]
        change _ = KmMessage.encode
          { keys := .both, keyLen := s.engine.cfg.keyLen, salt := s.engine.salt,
            wrapped := wrapKey P s.engine.kek ((pair .even).bytes ++ (pair .odd).bytes) }
        unfold pair
        cases SekSlot.even.turn index <;> rfl
      have unwrapped := Agreement.unwrapKey_carrying ideal sized
      have kek : a.kek = deriveKek P s.engine.cfg.passphrase s.engine.salt s.engine.cfg.keyLen :=
        placed.kek
      rw [kek] at unwrapped
      refine ⟨{ even := some (pair .even), odd := some (pair .odd) },
        ⟨a.carrying P pair, _, wire ▸ Agreement.parseKmreq_carrying ideal sized, rfl, unwrapped,
          Agreement.splitSeks_carrying sized⟩, ?_⟩
      have get : forall slot, SlotPair.get
          { even := some (pair .even), odd := some (pair .odd) } slot = some (pair slot) := by
        intro slot
        cases slot <;> rfl
      rintro j (rfl | previous)
      · rw [get, after, SekSlot.turn_succ]
        exact congrArg some (if_neg (SekSlot.other_ne _))
      · cases previous
        rw [get, before]
        exact congrArg some (if_pos rfl)

theorem Session.Placed.encrypted {s : Session} (placed : s.Placed P) (seq : SeqNumber)
    (payload : Bytes) :
    (s.engine.encrypt P seq payload).2 =
      ((s.first.turn s.engine.keySwitches).flags,
        (CtrCipher.new s.engine.activeKey.key).applyKeystream P s.engine.salt seq.value
          payload) := by
  rw [← placed.slot, ← placed.ciphers _ _ s.engine.get_activeKey]
  rfl

/-- A sending key is in the slot of its turn. -/
theorem Session.Placed.turn {s : Session} (placed : s.Placed P) {slot : SekSlot} {key : TxKey}
    (present : s.engine.tx.get slot = some key) :
    Exists fun i => s.keys[i]? = some key.key ∧ slot = s.first.turn i ∧
      forall j, s.keys[j]? = some key.key -> j = i := by
  have unique : forall i : Nat, s.keys[i]? = some key.key ->
      forall j : Nat, s.keys[j]? = some key.key -> j = i := by
    intro i here j there
    have inside := (List.getElem?_eq_some_iff.mp there).1
    exact (List.getElem?_inj inside placed.distinct).mp (there.trans here.symm)
  rcases slot.eq_or_eq_other s.engine.active with rfl | rfl
  · cases s.engine.get_activeKey.symm.trans present
    exact ⟨_, placed.active, placed.slot, unique _ placed.active⟩
  · rcases placed.idle key present with ⟨_, _, found, _⟩ | ⟨_, _, i, index, found⟩
    · refine ⟨_, found, ?_, unique _ found⟩
      rw [SekSlot.turn_succ, ← placed.slot]
    · refine ⟨i, found, ?_, unique _ found⟩
      rw [placed.slot, ← index, SekSlot.turn_succ, SekSlot.other_other]

section EvenRuns

variable {history : List (Session × Call)} {s : Session}

theorem EvenOpening.run_placed (run : (machine P (EvenOpening P)).Run history s) :
    s.Placed P :=
  Crypto.run_placed run fun _ opening => opening.1

theorem EvenOpening.run_first (ideal : P.Ideal)
    (run : (machine P (EvenOpening P)).Run history s) : s.first = .even := by
  rcases (run_grows run).1 with ⟨opened, opening, grows⟩
  rw [grows.first]
  exact (opening.founded ideal).1

/-- An acknowledgement anywhere in the run, in terms of the final keys. -/
theorem EvenOpening.run_announced (run : (machine P (EvenOpening P)).Run history s)
    {r : Session} {now : Instant} {srttUs : Nat} {fresh : SecretKey}
    (member : (r, Call.onAck now srttUs fresh) ∈ history) (announces : r.engine.announcing) :
    s.keys[r.keys.length]? = some fresh ∧
      Exists fun blob => (r.engine.onAck P now srttUs fresh).2 = some blob ∧
        s.message P r.keys.length = some blob := by
  have grows := (run_grows run).2 _ member
  rcases List.append_of_mem member with ⟨earlier, later, rfl⟩
  have placed := EvenOpening.run_placed run.at_entry.1
  rcases placed.onAck_message announces now srttUs fresh with ⟨drawn, blob, returned, message⟩
  exact ⟨grows.getElem? drawn, blob, returned, grows.message message⟩

/-- An encryption anywhere in the run, in terms of the final keys. -/
theorem EvenOpening.run_encrypted (ideal : P.Ideal)
    {earlier later : List (Session × Call)} {r : Session} {seq : SeqNumber} {payload : Bytes}
    (run : (machine P (EvenOpening P)).Run
      (earlier ++ (r, Call.encrypt seq payload) :: later) s) :
    Exists fun key => s.keys[r.engine.keySwitches]? = some key ∧
      (r.engine.encrypt P seq payload).2 =
        ((SekSlot.even.turn r.engine.keySwitches).flags,
          (CtrCipher.new key).applyKeystream P s.engine.salt seq.value payload) ∧
      (0 < r.engine.keySwitches ->
        Exists fun blob => s.message P r.engine.keySwitches = some blob ∧
          Exists fun entry => entry ∈ earlier ∧
            entry.1.keys.length = r.engine.keySwitches ∧ Returns P entry blob) := by
  have before := run.at_entry.1
  have grows := run_entry_grows run (List.mem_append_right _ List.mem_cons_self)
  have placed := EvenOpening.run_placed before
  refine ⟨_, grows.getElem? placed.active, ?_, ?_⟩
  · rw [placed.encrypted, EvenOpening.run_first ideal before, grows.salt]
  · intro switched
    have inside : r.engine.keySwitches < r.keys.length :=
      (List.getElem?_eq_some_iff.mp placed.active).1
    have beyond : forall opened, EvenOpening P opened ->
        opened.keys.length ≤ r.engine.keySwitches := by
      intro opened opening
      rcases opening.founded ideal with ⟨_, _, keys, _⟩
      rw [keys]
      exact switched
    rcases run_returned (fun _ opening => opening.1) before beyond inside with
      ⟨blob, message, returned⟩
    exact ⟨blob, grows.message message, returned⟩

/-- In every run of an engine that was opened with the even key alone: each sending key is
in the slot of its turn; an acknowledgement that draws key `i` returns the message that
wraps the keys `i - 1` and `i`; an encryption uses the key whose index is the number of
switches, and not before the message of that key was returned; the index stays or grows by
one, and grows exactly when the slot changes.  And every secured engine with the same
passphrase whose last installed message is the one of key `m` reads what was encrypted under
key `j`, when `m` is `j` or `j + 1`. -/
theorem refresh_hitless (ideal : P.Ideal)
    (run : (machine P (EvenOpening P)).Run history s) :
    (s.keys[s.engine.keySwitches]? = some s.engine.activeKey.key ∧
      forall slot key, s.engine.tx.get slot = some key ->
        Exists fun i => s.keys[i]? = some key.key ∧ slot = SekSlot.even.turn i ∧
          forall j, s.keys[j]? = some key.key -> j = i) ∧
    (forall r now srttUs fresh, (r, Call.onAck now srttUs fresh) ∈ history ->
      r.engine.announcing -> s.keys[r.keys.length]? = some fresh ∧
        Exists fun blob => (r.engine.onAck P now srttUs fresh).2 = some blob ∧
          s.message P r.keys.length = some blob) ∧
    (forall earlier later r seq payload,
      history = earlier ++ (r, Call.encrypt seq payload) :: later ->
      Exists fun key => s.keys[r.engine.keySwitches]? = some key ∧
        (r.engine.encrypt P seq payload).2 =
          ((SekSlot.even.turn r.engine.keySwitches).flags,
            (CtrCipher.new key).applyKeystream P s.engine.salt seq.value payload) ∧
        (0 < r.engine.keySwitches ->
          Exists fun blob => s.message P r.engine.keySwitches = some blob ∧
            Exists fun entry => entry ∈ earlier ∧
              entry.1.keys.length = r.engine.keySwitches ∧ Returns P entry blob)) ∧
    (forall r call, (r, call) ∈ history ->
      (r.step P call).engine.keySwitches = r.engine.keySwitches ∧
          (r.step P call).engine.active = r.engine.active ∨
        (r.step P call).engine.keySwitches = r.engine.keySwitches + 1 ∧
          (r.step P call).engine.active = r.engine.active.other) ∧
    (forall peer, (machine P (Opening P)).Reachable peer ->
      peer.engine.cfg.passphrase = s.engine.cfg.passphrase ->
      peer.engine.rcvState = .secured ->
      forall m, s.message P m = some peer.installed ->
      forall r seq payload, (r, Call.encrypt seq payload) ∈ history ->
        m = r.engine.keySwitches ∨ m = r.engine.keySwitches + 1 ->
        peer.engine.decrypt P seq (r.engine.encrypt P seq payload).2.1
            (r.engine.encrypt P seq payload).2.2 = (peer.engine, .ok payload)) := by
  have placed := EvenOpening.run_placed run
  have first := EvenOpening.run_first ideal run
  refine ⟨⟨placed.active, ?_⟩, ?_, ?_, fun r call _ => r.step_switches call, ?_⟩
  · intro slot key present
    exact first ▸ placed.turn present
  · intro r now srttUs fresh member announces
    exact EvenOpening.run_announced run member announces
  · rintro earlier later r seq payload rfl
    exact EvenOpening.run_encrypted ideal run
  · intro peer reachable shared secured m message r seq payload member index
    rcases (run_grows run).1 with ⟨opened, opening, grown⟩
    rcases placed.message_carries ideal opening grown message with ⟨seks, carries, keys⟩
    rcases List.append_of_mem member with ⟨earlier, later, rfl⟩
    rcases EvenOpening.run_encrypted ideal run with ⟨key, found, sealed, _⟩
    have holds : peer.Holds P := reachable.invariant (Session.Holds P)
      (fun _ opening => opening.holds ideal) (fun _ call holds _ => holds.step ideal call)
    have carried := keys r.engine.keySwitches (index.imp Eq.symm Eq.symm)
    rw [found] at carried
    rw [← shared] at carries
    rw [sealed]
    exact holds.decrypt secured carries carried seq payload

end EvenRuns

/-! ## A run through one switch -/

/-- A key of the default length, made of one byte. -/
def sampleKey (byte : UInt8) : SecretKey := ⟨List.replicate 16 byte⟩

def sampleSalt : Salt := ⟨List.replicate 16 0x33, rfl⟩

def hastySession : Session where
  engine := newInitiator .sample hastyConfig sampleSalt (sampleKey 1)
  initial := (handshakeRequest .sample hastyConfig sampleSalt (sampleKey 1)).encode
  first := .even
  keys := [sampleKey 1]
  installed := (handshakeRequest .sample hastyConfig sampleSalt (sampleKey 1)).encode

/-- One key is announced and used. -/
def hastyCalls : List Call :=
  [.encrypt (SeqNumber.new 5) [1, 2], .onAck 0 0 (sampleKey 2), .encrypt (SeqNumber.new 6) [3],
    .onAck 10 0 (sampleKey 3), .encrypt (SeqNumber.new 7) [4, 5, 6]]

/-- The responder of the key exchange. -/
def hastyResponder : Crypto :=
  match newResponder .sample hastyConfig hastySession.initial with
  | .ok engine => engine
  | .error _ => hastySession.engine

/-- The responder once it got the announcement. -/
def hastyPeer : Session :=
  (machine .sample (Opening .sample)).exec
    { engine := hastyResponder
      initial := hastySession.initial
      first := hastyResponder.active
      keys := hastyResponder.sendingKeys
      installed := hastySession.initial }
    [.handleKmreq ((((machine .sample (EvenOpening .sample)).exec hastySession hastyCalls).message
      .sample 1).getD [])]

theorem hastyPeer_reachable : (machine .sample (Opening .sample)).Reachable hastyPeer := by
  have opening : Opening .sample
      { engine := hastyResponder
        initial := hastySession.initial
        first := hastyResponder.active
        keys := hastyResponder.sendingKeys
        installed := hastySession.initial } := by
    apply Opening.responder hastyOptions_resolved
    · decide +kernel
    · decide +kernel
    · decide +kernel
  exact ⟨_, (Machine.Run.start opening).exec (by decide +kernel)⟩

theorem refresh_hitless_hastyCalls :
    let used := (machine .sample (EvenOpening .sample)).exec hastySession (hastyCalls.take 4)
    used.engine.keySwitches = 1 ∧
      hastyPeer.engine.decrypt .sample (SeqNumber.new 7)
        (used.engine.encrypt .sample (SeqNumber.new 7) [4, 5, 6]).2.1
        (used.engine.encrypt .sample (SeqNumber.new 7) [4, 5, 6]).2.2 =
      (hastyPeer.engine, .ok [4, 5, 6]) := by
  refine ⟨by decide +kernel, ?_⟩
  have opening : EvenOpening .sample hastySession :=
    ⟨.initiator hastyOptions_resolved sampleSalt rfl,
      handshakeRequest .sample hastyConfig sampleSalt (sampleKey 1), by decide +kernel, rfl⟩
  have allowed : (machine .sample (EvenOpening .sample)).Allowed hastySession hastyCalls := by
    decide +kernel
  have run := Machine.run_exec opening allowed
  exact (refresh_hitless Primitives.sample_ideal run).2.2.2.2 hastyPeer hastyPeer_reachable
    (by decide +kernel) (by decide +kernel) 1 (by decide +kernel) _ _ _
    (by
      iterate 4 apply List.mem_cons_of_mem
      exact List.mem_cons_self) (Or.inl (by decide +kernel))

end Crypto
end Rsrt
