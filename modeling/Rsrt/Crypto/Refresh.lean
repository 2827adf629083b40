import Rsrt.Crypto.Context

namespace Rsrt

/-!
# Key refresh between two engines

After the key exchange both engines hold one salt, one KEK and one key length.
Every later message of either engine carries the keys of both slots under these,
so that the peer always unwraps it and replaces both receiving slots.

`Leads` follows the receiving slots through the messages that are still on their
way, and `Matches` says that the sending keys are those that the peer will then
hold.  What a refresh can break is the cleartext of packets that were encrypted
earlier and are still to be sent: `Crypto.announcing` is the only transition that
takes a key away from the peer.
-/

/-- What two engines agree on after the key exchange. -/
structure Agreement where
  salt : Salt
  kek : Kek
  keyLen : KeyLength
  sized : kek.bytes.length = keyLen.bytes

namespace Agreement

variable (P : Primitives)

/-- Keys of the agreed length. -/
def Sized (a : Agreement) (keys : SekSlot -> SecretKey) : Prop :=
  forall slot, (keys slot).bytes.length = a.keyLen.bytes

/-- The message that carries the keys of both slots. -/
def carrying (a : Agreement) (keys : SekSlot -> SecretKey) : KmMessage where
  keys := .both
  keyLen := a.keyLen
  salt := a.salt
  wrapped := wrapKey P a.kek ((keys .even).bytes ++ (keys .odd).bytes)

/-- The receiving slots after that message. -/
def held (keys : SekSlot -> SecretKey) : SlotPair CtrCipher where
  even := some (.new (keys .even))
  odd := some (.new (keys .odd))

theorem get_held (keys : SekSlot -> SecretKey) (slot : SekSlot) :
    (held keys).get slot = some (.new (keys slot)) := by
  cases slot <;> rfl

/-- The messages lead from the first receiving slots to the last. -/
inductive Leads (a : Agreement) :
    SlotPair CtrCipher -> List Bytes -> SlotPair CtrCipher -> Prop
  | done (slots : SlotPair CtrCipher) : Leads a slots [] slots
  | install (slots : SlotPair CtrCipher) {last : SlotPair CtrCipher}
      {keys : SekSlot -> SecretKey} {rest : List Bytes} (sized : a.Sized keys)
      (further : Leads a (held keys) rest last) :
      Leads a slots ((a.carrying P keys).encode :: rest) last

variable {P} {a : Agreement}

/-- One message with both keys replaces the receiving slots, whatever they were. -/
theorem leads_held {keys : SekSlot -> SecretKey} (sized : a.Sized keys)
    (slots : SlotPair CtrCipher) :
    a.Leads P slots [(a.carrying P keys).encode] (held keys) :=
  .install slots sized (.done _)

theorem Sized.length {keys : SekSlot -> SecretKey} (sized : a.Sized keys) :
    ((keys .even).bytes ++ (keys .odd).bytes).length = 2 * a.keyLen.bytes := by
  rw [List.length_append, sized .even, sized .odd]
  omega

theorem carrying_wellFormed (ideal : P.Ideal) {keys : SekSlot -> SecretKey}
    (sized : a.Sized keys) : (a.carrying P keys).WellFormed := by
  have length := ideal.wrap_length a.kek.bytes ((keys .even).bytes ++ (keys .odd).bytes)
  rw [sized.length, Nat.add_comm] at length
  exact length

/-- The two pre-checks of a request pass whatever the parser accepts. -/
theorem parseKmreq_of_parse {buf : Bytes} {msg : KmMessage}
    (parsed : KmMessage.parse buf = .ok msg) : parseKmreq buf = .ok msg := by
  have checks : ¬(buf.length ≤ kmHeaderLen ∨ buf[15]? = some 0) := by
    unfold KmMessage.parse at parsed
    split at parsed
    case isFalse short => cases parsed
    case isTrue long =>
      have length : 16 < buf.length := long
      rintro (short | zero)
      · exact absurd long (not_lt.mpr short)
      · rw [List.getElem?_eq_getElem (by omega), Option.some_inj] at zero
        simp only [zero] at parsed
        cases parsed
  unfold parseKmreq
  rw [if_neg checks, parsed]

theorem parseKmreq_carrying (ideal : P.Ideal) {keys : SekSlot -> SecretKey}
    (sized : a.Sized keys) :
    parseKmreq (a.carrying P keys).encode = .ok (a.carrying P keys) :=
  parseKmreq_of_parse (KmMessage.parse_encode (carrying_wellFormed ideal sized))

theorem unwrapKey_carrying (ideal : P.Ideal) {keys : SekSlot -> SecretKey}
    (sized : a.Sized keys) :
    unwrapKey P a.kek (a.carrying P keys).wrapped =
      .ok ⟨(keys .even).bytes ++ (keys .odd).bytes⟩ := by
  have length := sized.length
  apply unwrapKey_wrapKey ideal
  · rw [length]
    cases a.keyLen <;> decide
  · rw [length]
    cases a.keyLen <;> decide

theorem splitSeks_carrying {keys : SekSlot -> SecretKey} (sized : a.Sized keys) :
    splitSeks (a.carrying P keys) ⟨(keys .even).bytes ++ (keys .odd).bytes⟩ =
      { even := some (keys .even), odd := some (keys .odd) } := by
  have front : ((keys .even).bytes ++ (keys .odd).bytes).take a.keyLen.bytes =
      (keys .even).bytes := List.take_left' (sized .even)
  have back : ((keys .even).bytes ++ (keys .odd).bytes).drop a.keyLen.bytes =
      (keys .odd).bytes := List.drop_left' (sized .even)
  unfold splitSeks carrying
  simp only [front, back]

end Agreement

namespace Crypto

variable {P : Primitives} {a : Agreement}

/-- An engine that kept to the agreement: both directions use the agreed salt and
KEK, reception is secured, and every sending key has the agreed length. -/
structure Agrees (a : Agreement) (c : Crypto) : Prop where
  salt : c.salt = a.salt
  kek : c.kek = a.kek
  keyLen : c.cfg.keyLen = a.keyLen
  rxSalt : c.rxSalt = a.salt
  rxKek : c.rxKek = none
  secured : c.rcvState = .secured
  keys : forall slot key, c.tx.get slot = some key ->
    key.key.bytes.length = a.keyLen.bytes ∧ key.cipher = .new key.key

/-- The sending keys are those of the given receiving slots, and a message that
may be sent again carries exactly these. -/
structure Matches (P : Primitives) (a : Agreement) (c : Crypto) (view : SlotPair CtrCipher) :
    Prop where
  slots : forall slot key, c.tx.get slot = some key -> view.get slot = some key.cipher
  resends : forall out, c.outstanding = some out -> out.retries ≠ 0 ->
    Exists fun keys => a.Sized keys ∧ out.blob = (a.carrying P keys).encode ∧
      view = Agreement.held keys

/-- Cleartext of a packet under given receiving slots. -/
def Opens (P : Primitives) (salt : Salt) (slots : SlotPair CtrCipher) (seq : SeqNumber)
    (kk : EncryptionFlags) (payload clear : Bytes) : Prop :=
  Exists fun slot => Exists fun cipher => rxSlot kk = some slot ∧ slots.get slot = some cipher ∧
    cipher.applyKeystream P salt seq.value payload = clear

theorem get_activeKey (c : Crypto) : c.tx.get c.active = some c.activeKey :=
  (Option.some_get c.keyed).symm

theorem rxSlot_flags (slot : SekSlot) : rxSlot slot.flags = some slot := by
  cases slot <;> rfl

/-! ## Data -/

theorem Agrees.decrypt {c : Crypto} (agrees : c.Agrees a) {seq : SeqNumber}
    {kk : EncryptionFlags} {payload clear : Bytes}
    (opens : Opens P a.salt c.rx seq kk payload clear) :
    c.decrypt P seq kk payload = (c, .ok clear) := by
  rcases opens with ⟨slot, cipher, selected, present, readable⟩
  unfold Crypto.decrypt
  simp only [selected, agrees.secured, present, agrees.rxSalt, readable]
  rfl

/-- Reception changes no engine that is secured. -/
theorem decrypt_of_secured {c : Crypto} (secured : c.rcvState = .secured) (seq : SeqNumber)
    (kk : EncryptionFlags) (payload : Bytes) : (c.decrypt P seq kk payload).1 = c := by
  unfold Crypto.decrypt
  split
  · rfl
  · rw [if_neg (by rw [secured]; decide), if_neg (not_not.mpr secured)]
    split <;> rfl

/-- Bookkeeping of the sending keys: no key changes its slot, though one may go. -/
structure Keeps (c c' : Crypto) : Prop where
  cfg : c'.cfg = c.cfg
  salt : c'.salt = c.salt
  kek : c'.kek = c.kek
  rx : c'.rx = c.rx
  rxSalt : c'.rxSalt = c.rxSalt
  rxKek : c'.rxKek = c.rxKek
  rcvState : c'.rcvState = c.rcvState
  outstanding : c'.outstanding = c.outstanding
  slots : forall slot key, c'.tx.get slot = some key ->
    Exists fun old => c.tx.get slot = some old ∧ old.key = key.key ∧ old.cipher = key.cipher

theorem Keeps.refl (c : Crypto) : Keeps c c :=
  ⟨rfl, rfl, rfl, rfl, rfl, rfl, rfl, rfl, fun _ key present => ⟨key, present, rfl, rfl⟩⟩

theorem Keeps.agrees {c c' : Crypto} (keeps : Keeps c c') (agrees : c.Agrees a) :
    c'.Agrees a where
  salt := keeps.salt.trans agrees.salt
  kek := keeps.kek.trans agrees.kek
  keyLen := (congrArg CryptoConfig.keyLen keeps.cfg).trans agrees.keyLen
  rxSalt := keeps.rxSalt.trans agrees.rxSalt
  rxKek := keeps.rxKek.trans agrees.rxKek
  secured := keeps.rcvState.trans agrees.secured
  keys := by
    intro slot key present
    rcases keeps.slots slot key present with ⟨old, before, same, cipher⟩
    rw [← same, ← cipher]
    exact agrees.keys slot old before

theorem Keeps.matches {c c' : Crypto} (keeps : Keeps c c') {view : SlotPair CtrCipher}
    (holds : c.Matches P a view) : c'.Matches P a view where
  slots := by
    intro slot key present
    rcases keeps.slots slot key present with ⟨old, before, _, cipher⟩
    rw [← cipher]
    exact holds.slots slot old before
  resends := by
    rw [keeps.outstanding]
    exact holds.resends

theorem encrypt_keeps (c : Crypto) (seq : SeqNumber) (payload : Bytes) :
    Keeps c (c.encrypt P seq payload).1 := by
  refine ⟨rfl, rfl, rfl, rfl, rfl, rfl, rfl, rfl, ?_⟩
  intro slot key present
  rcases slot.eq_or_eq_other c.active with rfl | rfl
  · change (c.tx.set c.active _).get c.active = _ at present
    rw [SlotPair.get_set, Option.some_inj] at present
    exact ⟨_, c.get_activeKey, present ▸ rfl, present ▸ rfl⟩
  · change (c.tx.set c.active _).get c.active.other = _ at present
    rw [SlotPair.get_other_set] at present
    exact ⟨key, present, rfl, rfl⟩

/-- What is encrypted now can be read by whoever holds the sending keys. -/
theorem Matches.opens_encrypt {c : Crypto} {view : SlotPair CtrCipher}
    (holds : c.Matches P a view) (agrees : c.Agrees a) (seq : SeqNumber) (payload : Bytes) :
    Opens P a.salt view seq (c.encrypt P seq payload).2.1 (c.encrypt P seq payload).2.2 payload := by
  refine ⟨c.active, c.activeKey.cipher, rxSlot_flags _, holds.slots _ _ c.get_activeKey, ?_⟩
  change c.activeKey.cipher.applyKeystream P a.salt seq.value
    (c.activeKey.cipher.applyKeystream P c.salt seq.value payload) = payload
  rw [agrees.salt, CtrCipher.applyKeystream_twice]

/-! ## Refresh -/

/-- The next acknowledgement puts a fresh key into the idle slot. -/
def announcing (c : Crypto) : Prop :=
  c.sndState ≠ .unsecured ∧ c.cfg.kmRefreshRate - c.cfg.kmPreannounce < c.activeKey.pktCnt ∧
    (c.tx.get c.active.other).map TxKey.state ≠ some .announced

instance (c : Crypto) : Decidable c.announcing :=
  inferInstanceAs (Decidable (_ ∧ _ ∧ _))

/-- The keys of both slots once a fresh one is announced. -/
def announcedKeys (c : Crypto) (fresh : SecretKey) (slot : SekSlot) : SecretKey :=
  if slot = c.active then c.activeKey.key else fresh

theorem announce_slots (c : Crypto) (fresh : SecretKey) {slot : SekSlot} {key : TxKey}
    (present : (c.announce fresh).tx.get slot = some key) :
    key.key = c.announcedKeys fresh slot ∧
      (slot = c.active ∧ key = c.activeKey ∨ slot = c.active.other ∧ key.cipher = .new fresh) := by
  rcases slot.eq_or_eq_other c.active with rfl | rfl
  · change (c.tx.set c.active.other _).get c.active = _ at present
    rw [SlotPair.get_set_other, get_activeKey, Option.some_inj] at present
    rw [announcedKeys, if_pos rfl]
    exact ⟨present ▸ rfl, Or.inl ⟨rfl, present.symm⟩⟩
  · change (c.tx.set c.active.other _).get c.active.other = _ at present
    rw [SlotPair.get_set, Option.some_inj] at present
    rw [announcedKeys, if_neg c.active.other_ne]
    exact ⟨present ▸ rfl, Or.inr ⟨rfl, present ▸ rfl⟩⟩

theorem announce_keyed (c : Crypto) (fresh : SecretKey) (slot : SekSlot) :
    Exists fun key => (c.announce fresh).tx.get slot = some key := by
  rcases slot.eq_or_eq_other c.active with rfl | rfl
  · exact ⟨c.activeKey, (SlotPair.get_set_other _ _ _).trans c.get_activeKey⟩
  · exact ⟨_, SlotPair.get_set _ _ _⟩

theorem Agrees.announce {c : Crypto} (agrees : c.Agrees a) {fresh : SecretKey}
    (sized : fresh.bytes.length = a.keyLen.bytes) : (c.announce fresh).Agrees a := by
  refine ⟨agrees.salt, agrees.kek, agrees.keyLen, agrees.rxSalt, agrees.rxKek, agrees.secured, ?_⟩
  intro slot key present
  rcases announce_slots c fresh present with ⟨same, ⟨rfl, rfl⟩ | ⟨rfl, cipher⟩⟩
  · exact agrees.keys _ _ c.get_activeKey
  · rw [announcedKeys, if_neg c.active.other_ne] at same
    rw [cipher, same]
    exact ⟨sized, rfl⟩

theorem Agrees.announcedKeys_sized {c : Crypto} (agrees : c.Agrees a) {fresh : SecretKey}
    (sized : fresh.bytes.length = a.keyLen.bytes) : a.Sized (c.announcedKeys fresh) := by
  intro slot
  rcases announce_keyed c fresh slot with ⟨key, present⟩
  rw [← (announce_slots c fresh present).1]
  exact ((agrees.announce sized).keys slot key present).1

theorem sekPair_announce (c : Crypto) (fresh : SecretKey) :
    sekPair (c.announce fresh).tx =
      (c.announcedKeys fresh .even).bytes ++ (c.announcedKeys fresh .odd).bytes := by
  rcases announce_keyed c fresh .even with ⟨even, first⟩
  rcases announce_keyed c fresh .odd with ⟨odd, second⟩
  rw [← (announce_slots c fresh first).1, ← (announce_slots c fresh second).1]
  change (c.announce fresh).tx.even = _ at first
  change (c.announce fresh).tx.odd = _ at second
  unfold sekPair
  rw [first, second]
  rfl

theorem Agrees.announcement {c : Crypto} (agrees : c.Agrees a) (fresh : SecretKey) :
    (c.announce fresh).announcement P = (a.carrying P (c.announcedKeys fresh)).encode := by
  unfold Crypto.announcement Agreement.carrying
  rw [sekPair_announce]
  change KmMessage.encode
    { keys := .both, keyLen := c.cfg.keyLen, salt := c.salt, wrapped := wrapKey P c.kek _ } = _
  rw [agrees.keyLen, agrees.salt, agrees.kek]

/-- The peer that installs the announcement holds every sending key. -/
theorem Agrees.announce_slots {c : Crypto} (agrees : c.Agrees a) (fresh : SecretKey)
    {slot : SekSlot} {key : TxKey} (present : (c.announce fresh).tx.get slot = some key) :
    (Agreement.held (c.announcedKeys fresh)).get slot = some key.cipher := by
  rw [Agreement.get_held]
  rcases Crypto.announce_slots c fresh present with ⟨same, ⟨rfl, rfl⟩ | ⟨rfl, cipher⟩⟩
  · rw [← same, (agrees.keys _ _ c.get_activeKey).2]
  · rw [announcedKeys, if_neg c.active.other_ne, cipher]

theorem switch_keeps {c : Crypto} {next : TxKey} (idle : c.tx.get c.active.other = some next) :
    Keeps c (c.switch next) := by
  refine ⟨rfl, rfl, rfl, rfl, rfl, rfl, rfl, rfl, ?_⟩
  intro slot key present
  rcases slot.eq_or_eq_other c.active with rfl | rfl
  · change ((c.tx.set c.active _).set c.active.other _).get c.active = _ at present
    rw [SlotPair.get_set_other, SlotPair.get_set, Option.some_inj] at present
    exact ⟨_, c.get_activeKey, present ▸ rfl, present ▸ rfl⟩
  · change ((c.tx.set c.active _).set c.active.other _).get c.active.other = _ at present
    rw [SlotPair.get_set, Option.some_inj] at present
    exact ⟨next, idle, present ▸ rfl, present ▸ rfl⟩

theorem decommission_keeps (c : Crypto) : Keeps c c.decommission := by
  refine ⟨rfl, rfl, rfl, rfl, rfl, rfl, rfl, rfl, ?_⟩
  intro slot key present
  rcases slot.eq_or_eq_other c.active with rfl | rfl
  · change (c.tx.set c.active.other _).get c.active = _ at present
    rw [SlotPair.get_set_other] at present
    exact ⟨key, present, rfl, rfl⟩
  · change (c.tx.set c.active.other _).get c.active.other = _ at present
    rw [SlotPair.get_set] at present
    cases present

/-- The transitions of an evaluation that announces nothing. -/
inductive Ticks (c : Crypto) : Crypto -> Prop
  | rest (early : (c.tx.get c.active.other).map TxKey.state = some .announced ->
      c.activeKey.pktCnt ≤ c.cfg.kmRefreshRate) : Ticks c c
  | switch {next : TxKey} (idle : c.tx.get c.active.other = some next)
      (announced : next.state = .announced) : Ticks c (c.switch next)
  | decommission {old : TxKey} (idle : c.tx.get c.active.other = some old)
      (deprecated : old.state = .deprecated) : Ticks c c.decommission

theorem Ticks.keeps {c c' : Crypto} (ticks : Ticks c c') : Keeps c c' := by
  cases ticks with
  | rest early => exact .refl c
  | switch idle announced => exact switch_keeps idle
  | decommission idle deprecated => exact decommission_keeps c

/-- One evaluation announces a fresh key, or sends nothing and changes no key. -/
theorem tickRefresh_cases (c : Crypto) (fresh : SecretKey) :
    ((c.cfg.kmRefreshRate - c.cfg.kmPreannounce < c.activeKey.pktCnt ∧
        (c.tx.get c.active.other).map TxKey.state ≠ some .announced) ∧
      c.tickRefresh P fresh =
        (c.announce fresh, some ((c.announce fresh).announcement P))) ∨
    (¬(c.cfg.kmRefreshRate - c.cfg.kmPreannounce < c.activeKey.pktCnt ∧
        (c.tx.get c.active.other).map TxKey.state ≠ some .announced) ∧
      (c.tickRefresh P fresh).2 = none ∧ Ticks c (c.tickRefresh P fresh).1) := by
  unfold tickRefresh
  simp only
  split_ifs with announces switches retires
  · exact Or.inl ⟨announces, rfl⟩
  · refine Or.inr ⟨announces, ?_⟩
    cases idle : c.tx.get c.active.other with
    | none =>
        rw [idle] at switches
        cases switches.2
    | some next =>
        rw [idle] at switches
        exact ⟨rfl, .switch idle (Option.some_inj.mp switches.2)⟩
  · refine Or.inr ⟨announces, rfl, ?_⟩
    rcases Option.map_eq_some_iff.mp retires.1 with ⟨old, idle, deprecated⟩
    exact .decommission idle deprecated
  · refine Or.inr ⟨announces, rfl, .rest ?_⟩
    intro announced
    exact not_lt.mp fun due => switches ⟨Or.inl due, announced⟩

/-- An acknowledgement announces a fresh key and sends its message, or makes one of
the other transitions, after which the outstanding message may be due again. -/
theorem onAck_cases (c : Crypto) (now : Instant) (srttUs : Nat) (fresh : SecretKey) :
    (c.announcing ∧ Exists fun out => c.onAck P now srttUs fresh =
      ({ c.announce fresh with outstanding := out }, some ((c.announce fresh).announcement P))) ∨
    (¬c.announcing ∧ Exists fun c' => Exists fun out =>
      (c.onAck P now srttUs fresh).1 = { c' with outstanding := out } ∧
        (c' = c ∧ c.sndState = .unsecured ∨ Ticks c c')) := by
  unfold Crypto.onAck
  by_cases unsecured : c.sndState = .unsecured
  · rw [if_pos unsecured]
    exact Or.inr ⟨fun announces => announces.1 unsecured, c, c.outstanding, rfl,
      Or.inl ⟨rfl, unsecured⟩⟩
  rw [if_neg unsecured]
  rcases tickRefresh_cases c fresh with ⟨announces, ticked⟩ | ⟨quiet, silent, ticks⟩
  · rw [ticked]
    exact Or.inl ⟨⟨unsecured, announces⟩, _, rfl⟩
  · refine Or.inr ⟨fun announces => quiet announces.2, ?_⟩
    rcases evaluated : c.tickRefresh P fresh with ⟨ticked, message⟩
    rw [evaluated] at silent ticks
    cases silent
    refine ⟨ticked, ?_⟩
    simp only
    cases pending : ticked.outstanding with
    | none => exact ⟨ticked.outstanding, rfl, Or.inr ticks⟩
    | some out =>
        simp only
        split_ifs
        · exact ⟨ticked.outstanding, rfl, Or.inr ticks⟩
        · exact ⟨ticked.outstanding, rfl, Or.inr ticks⟩
        · exact ⟨_, rfl, Or.inr ticks⟩

/-- An acknowledgement keeps the sending keys in step with what the peer will
hold, and takes a key away from the peer only when it announces a fresh one. -/
theorem Agrees.onAck {c : Crypto} (agrees : c.Agrees a) {view : SlotPair CtrCipher}
    (holds : c.Matches P a view) (now : Instant) (srttUs : Nat) {fresh : SecretKey}
    (sized : fresh.bytes.length = a.keyLen.bytes) :
    (c.onAck P now srttUs fresh).1.Agrees a ∧ (c.onAck P now srttUs fresh).1.rx = c.rx ∧
      Exists fun view' => a.Leads P view (c.onAck P now srttUs fresh).2.toList view' ∧
        (c.onAck P now srttUs fresh).1.Matches P a view' ∧
        forall slot, slot = c.active ∨ ¬c.announcing -> view'.get slot = view.get slot := by
  unfold Crypto.onAck
  by_cases unsecured : c.sndState = .unsecured
  · rw [if_pos unsecured]
    exact ⟨agrees, rfl, view, .done _, holds, fun _ _ => rfl⟩
  rw [if_neg unsecured]
  rcases tickRefresh_cases c fresh with ⟨announces, ticked⟩ | ⟨_, silent, ticks⟩
  · have keys := agrees.announcedKeys_sized sized
    have message : (c.announce fresh).announcement P = _ := agrees.announcement fresh
    rw [ticked]
    refine ⟨?_, rfl, Agreement.held (c.announcedKeys fresh), ?_, ⟨?_, ?_⟩, ?_⟩
    · rcases agrees.announce sized with ⟨salt, kek, keyLen, rxSalt, rxKek, secured, same⟩
      exact ⟨salt, kek, keyLen, rxSalt, rxKek, secured, same⟩
    · change a.Leads P view [(c.announce fresh).announcement P] _
      rw [message]
      exact Agreement.leads_held keys view
    · intro slot key present
      exact agrees.announce_slots fresh present
    · intro out found _
      cases found
      exact ⟨_, keys, message, rfl⟩
    · rintro slot (rfl | never)
      · rw [holds.slots _ _ c.get_activeKey, Agreement.get_held, announcedKeys, if_pos rfl,
          (agrees.keys _ _ c.get_activeKey).2]
      · exact absurd ⟨unsecured, announces⟩ never
  · rcases evaluated : c.tickRefresh P fresh with ⟨ticked, message⟩
    rw [evaluated] at silent ticks
    cases silent
    have agreed := ticks.keeps.agrees agrees
    have matched : ticked.Matches P a view := ticks.keeps.matches holds
    have same := ticks.keeps.rx
    simp only
    cases pending : ticked.outstanding with
    | none => exact ⟨agreed, same, view, .done _, matched, fun _ _ => rfl⟩
    | some out =>
        simp only
        split_ifs with spent early
        · exact ⟨agreed, same, view, .done _, matched, fun _ _ => rfl⟩
        · exact ⟨agreed, same, view, .done _, matched, fun _ _ => rfl⟩
        -- The last message again: the peer already holds its keys, or will.
        · rcases matched.resends out pending spent with ⟨keys, keysSized, blob, rfl⟩
          rcases agreed with ⟨salt, kek, keyLen, rxSalt, rxKek, secured, sizes⟩
          refine ⟨⟨salt, kek, keyLen, rxSalt, rxKek, secured, sizes⟩, same,
            Agreement.held keys, ?_, ⟨matched.slots, ?_⟩, fun _ _ => rfl⟩
          · change a.Leads P _ [out.blob] _
            rw [blob]
            exact Agreement.leads_held keysSized _
          · intro later found _
            cases found
            exact ⟨keys, keysSized, blob, rfl⟩

/-! ## Key exchange -/

/-- A message with both keys is always installed. -/
theorem Agrees.handleKmreq {c : Crypto} (agrees : c.Agrees a) (ideal : P.Ideal)
    {keys : SekSlot -> SecretKey} (sized : a.Sized keys) :
    c.handleKmreq P (a.carrying P keys).encode =
      ({ c with rx := Agreement.held keys }, .installed) := by
  have unwrapped := Agreement.unwrapKey_carrying ideal sized
  have installed : c.installRx P (a.carrying P keys) = .ok { c with rx := Agreement.held keys } := by
    have same : ¬((a.carrying P keys).salt ≠ c.rxSalt ∨
        (a.carrying P keys).keyLen.bytes ≠ (c.rxKek.getD c.kek).bytes.length) := by
      rw [agrees.rxSalt, agrees.rxKek, Option.getD_none, agrees.kek, a.sized]
      exact not_or.mpr ⟨not_not.mpr rfl, not_not.mpr rfl⟩
    unfold installRx
    simp only [if_neg same]
    rw [Option.getD_none, agrees.rxKek, Option.getD_none, agrees.kek, unwrapped]
    simp only [Agreement.splitSeks_carrying sized]
    rcases c
    rcases agrees with ⟨rfl, rfl, _, rfl, rfl, _, _⟩
    rfl
  unfold Crypto.handleKmreq
  rw [Agreement.parseKmreq_carrying ideal sized]
  simp only [installed]
  rw [← agrees.secured]

/-- A response longer than one word is an echo. -/
theorem parse_of_long {payload : Bytes} (long : 4 < payload.length) :
    KmResponse.parse payload = .ok (.echo payload) := by
  unfold KmResponse.parse
  split
  · exact absurd long (by simp)
  · rw [if_neg (by omega)]

/-- The echo of a request at most confirms it. -/
theorem Agrees.handleKmrsp {c : Crypto} (agrees : c.Agrees a) {payload : Bytes}
    (long : 4 < payload.length) :
    (c.handleKmrsp payload).1.Agrees a ∧ (c.handleKmrsp payload).1.rx = c.rx ∧
      forall view, c.Matches P a view -> (c.handleKmrsp payload).1.Matches P a view := by
  unfold Crypto.handleKmrsp
  rw [parse_of_long long]
  simp only
  split_ifs
  · rcases agrees with ⟨salt, kek, keyLen, rxSalt, rxKek, _, keys⟩
    refine ⟨⟨salt, kek, keyLen, rxSalt, rxKek, rfl, keys⟩, rfl, ?_⟩
    intro view holds
    refine ⟨holds.slots, ?_⟩
    intro out found
    cases found
  · exact ⟨agrees, rfl, fun _ holds => holds⟩

/-- The exchange during the handshake: the responder answers the initiator's
request with its echo. -/
def keyExchange (P : Primitives) (initiatorCfg responderCfg : CryptoConfig) (salt : Salt)
    (sek : SecretKey) : Option (Crypto × Crypto) :=
  let initiator := newInitiator P initiatorCfg salt sek
  match initiator.outstanding with
  | none => none
  | some out =>
      match newResponder P responderCfg out.blob with
      | .ok responder => some ((initiator.handleKmrsp out.blob).1, responder)
      | .error _ => none

end Crypto

/-- Two engines that went through the exchange, with the slots in step in both
directions and no key switched yet. -/
structure Crypto.Paired (P : Primitives) (a : Agreement) (first second : Crypto) : Prop where
  agrees : first.Agrees a ∧ second.Agrees a
  sends : first.Matches P a second.rx ∧ second.Matches P a first.rx
  fresh : first.keySwitches = 0 ∧ second.keySwitches = 0
  slot : first.active = .even ∧ second.active = .even

section Exchange

variable {P : Primitives} {initiatorCfg responderCfg : CryptoConfig} {salt : Salt}
  {sek : SecretKey}

/-- The agreement that the initiator proposes. -/
def Agreement.proposed (ideal : P.Ideal) (initiatorCfg : CryptoConfig) (salt : Salt) :
    Agreement where
  salt := salt
  kek := deriveKek P initiatorCfg.passphrase salt initiatorCfg.keyLen
  keyLen := initiatorCfg.keyLen
  sized := ideal.pbkdf2_length _ _ _ _

/-- The request of the handshake carries the even key alone. -/
def handshakeRequest (P : Primitives) (initiatorCfg : CryptoConfig) (salt : Salt)
    (sek : SecretKey) : KmMessage where
  keys := .even
  keyLen := initiatorCfg.keyLen
  salt := salt
  wrapped := wrapKey P (deriveKek P initiatorCfg.passphrase salt initiatorCfg.keyLen) sek.bytes

theorem parseKmreq_handshakeRequest (ideal : P.Ideal)
    (sized : sek.bytes.length = initiatorCfg.keyLen.bytes) :
    parseKmreq (handshakeRequest P initiatorCfg salt sek).encode =
      .ok (handshakeRequest P initiatorCfg salt sek) := by
  apply Agreement.parseKmreq_of_parse
  apply KmMessage.parse_encode
  change (P.wrap _ sek.bytes).length = 8 + 1 * initiatorCfg.keyLen.bytes
  rw [ideal.wrap_length, sized]
  omega

theorem unwrapKey_handshakeRequest (ideal : P.Ideal)
    (sized : sek.bytes.length = initiatorCfg.keyLen.bytes) :
    unwrapKey P (deriveKek P initiatorCfg.passphrase salt initiatorCfg.keyLen)
      (handshakeRequest P initiatorCfg salt sek).wrapped = .ok sek := by
  apply unwrapKey_wrapKey ideal
  · rw [sized]
    cases initiatorCfg.keyLen <;> decide
  · rw [sized]
    cases initiatorCfg.keyLen <;> decide

/-- The engine of the initiator once the echo has confirmed its request. -/
theorem handleKmrsp_handshakeRequest :
    ((Crypto.newInitiator P initiatorCfg salt sek).handleKmrsp
      (handshakeRequest P initiatorCfg salt sek).encode).1 =
      { Crypto.newInitiator P initiatorCfg salt sek with
        outstanding := none, sndState := .secured, rcvState := .secured } := by
  have long : 4 < (handshakeRequest P initiatorCfg salt sek).encode.length := by
    simp [KmMessage.encode, kmSign]
  unfold Crypto.handleKmrsp
  rw [Crypto.parse_of_long long]
  exact congrArg Prod.fst (if_pos rfl)

/-- The engine of a responder with the same passphrase. -/
theorem newResponder_handshakeRequest (ideal : P.Ideal)
    (sized : sek.bytes.length = initiatorCfg.keyLen.bytes)
    (shared : responderCfg.passphrase = initiatorCfg.passphrase) :
    Exists fun responder =>
      Crypto.newResponder P responderCfg (handshakeRequest P initiatorCfg salt sek).encode =
        .ok responder ∧
      responder.Agrees (.proposed ideal initiatorCfg salt) ∧
      responder.tx =
        { even := some { key := sek, cipher := .new sek, pktCnt := 1, state := .active } } ∧
      responder.rx = { even := some (.new sek) } ∧ responder.active = .even ∧
      responder.keySwitches = 0 ∧
      responder.outstanding.all fun out => out.retries = 0 := by
  have unwrapped : unwrapKey P (deriveKek P initiatorCfg.passphrase
      (handshakeRequest P initiatorCfg salt sek).salt
      (handshakeRequest P initiatorCfg salt sek).keyLen)
      (handshakeRequest P initiatorCfg salt sek).wrapped = .ok sek :=
    unwrapKey_handshakeRequest ideal sized
  unfold Crypto.newResponder
  rw [parseKmreq_handshakeRequest ideal sized, shared]
  simp only [unwrapped]
  refine ⟨_, rfl, ⟨rfl, rfl, rfl, rfl, rfl, rfl, ?_⟩, rfl, rfl, rfl, rfl, rfl⟩
  intro slot key present
  cases slot with
  | even =>
      cases present
      exact ⟨sized, rfl⟩
  | odd => cases present

/-- The exchange is what the responder makes of the request. -/
theorem Crypto.keyExchange_eq :
    keyExchange P initiatorCfg responderCfg salt sek =
      (newResponder P responderCfg (handshakeRequest P initiatorCfg salt sek).encode).toOption.map
        fun responder => (((newInitiator P initiatorCfg salt sek).handleKmrsp
          (handshakeRequest P initiatorCfg salt sek).encode).1, responder) := by
  have blob : (newInitiator P initiatorCfg salt sek).outstanding =
      some ⟨(handshakeRequest P initiatorCfg salt sek).encode, kmMaxRetry, none⟩ := rfl
  unfold keyExchange
  dsimp only
  rw [blob]
  dsimp only
  cases newResponder P responderCfg (handshakeRequest P initiatorCfg salt sek).encode <;> rfl

theorem Crypto.keyExchange_of_response {second : Crypto}
    (made : newResponder P responderCfg (handshakeRequest P initiatorCfg salt sek).encode = .ok second) :
    keyExchange P initiatorCfg responderCfg salt sek =
      some (((newInitiator P initiatorCfg salt sek).handleKmrsp
        (handshakeRequest P initiatorCfg salt sek).encode).1, second) := by
  rw [keyExchange_eq, made]
  rfl

/-- The engines of a completed exchange. -/
theorem Crypto.keyExchange_engines {first second : Crypto}
    (done : keyExchange P initiatorCfg responderCfg salt sek = some (first, second)) :
    first = ((newInitiator P initiatorCfg salt sek).handleKmrsp
        (handshakeRequest P initiatorCfg salt sek).encode).1 ∧
      newResponder P responderCfg (handshakeRequest P initiatorCfg salt sek).encode = .ok second := by
  rw [keyExchange_eq] at done
  rcases Option.map_eq_some_iff.mp done with ⟨responder, found, same⟩
  cases same
  refine ⟨rfl, ?_⟩
  cases answered : newResponder P responderCfg (handshakeRequest P initiatorCfg salt sek).encode with
  | error state =>
      rw [answered] at found
      cases found
  | ok made =>
      rw [answered] at found
      cases found
      rfl

theorem Crypto.keyExchange_paired (ideal : P.Ideal)
    (sized : sek.bytes.length = initiatorCfg.keyLen.bytes)
    (shared : responderCfg.passphrase = initiatorCfg.passphrase) {first second : Crypto}
    (done : keyExchange P initiatorCfg responderCfg salt sek = some (first, second)) :
    Paired P (.proposed ideal initiatorCfg salt) first second := by
  have accepted := @newResponder_handshakeRequest P initiatorCfg responderCfg salt sek ideal
    sized shared
  rcases accepted with ⟨responder, ok, agrees, tx, rx, active, switches, retries⟩
  rcases keyExchange_engines done with ⟨rfl, made⟩
  rw [handleKmrsp_handshakeRequest]
  rw [ok] at made
  cases made
  refine ⟨⟨⟨rfl, rfl, rfl, rfl, rfl, rfl, ?_⟩, agrees⟩, ⟨⟨?_, ?_⟩, ⟨?_, ?_⟩⟩, ⟨rfl, switches⟩,
    ⟨rfl, active⟩⟩
  · intro slot key present
    cases slot with
    | even =>
        cases present
        exact ⟨sized, rfl⟩
    | odd => cases present
  · intro slot key present
    rw [rx]
    cases slot with
    | even =>
        cases present
        rfl
    | odd => cases present
  · intro out found
    cases found
  · intro slot key present
    rw [tx] at present
    cases slot with
    | even =>
        cases present
        rfl
    | odd => cases present
  · intro out found spent
    rw [found] at retries
    exact absurd (of_decide_eq_true retries) spent

end Exchange

end Rsrt
