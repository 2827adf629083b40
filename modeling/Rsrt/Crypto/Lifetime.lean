import Rsrt.Crypto.Rotation

namespace Rsrt
namespace Crypto

open Rsrt.Basis

/-!
# Lifetime of a sending key

The refresh thresholds are looked at on acknowledgements only, one transition at a
time, and a key has to be announced before the switch to it.  So a key outlives the
refresh rate by what is sent between acknowledgements.  The bound below holds of the
packet counter at every moment of a run, and the counter never wraps under it.
-/

/-- Resolved rates: the refresh rate is positive and fits the sequence space, and the
pre-announce window is less than half of it. -/
theorem cryptoConfig_rates {opts : SrtOptions} {cfg : CryptoConfig}
    (resolved : opts.cryptoConfig = .ok (some cfg)) :
    0 < cfg.kmRefreshRate ∧ cfg.kmRefreshRate < 2 ^ 31 ∧
      cfg.kmPreannounce ≤ (cfg.kmRefreshRate - 1) / 2 := by
  unfold SrtOptions.cryptoConfig at resolved
  split at resolved
  · cases resolved
  · dsimp only at resolved
    by_cases implicit : opts.kmRefreshRate = none ∨ opts.kmRefreshRate = some 0
    · simp only [implicit, not_true, if_false, false_and] at resolved
      split_ifs at resolved with _ window given
      all_goals
        cases resolved
        dsimp only
        omega
    · have positive : 0 < opts.kmRefreshRate.getD 0 := by
        cases rate : opts.kmRefreshRate with
        | none => exact absurd (Or.inl rate) implicit
        | some rr =>
            rw [rate] at implicit
            exact Nat.pos_of_ne_zero fun zero => implicit (Or.inr (congrArg some zero))
      simp only [implicit, not_false_eq_true, if_true, true_and] at resolved
      split_ifs at resolved with _ large window given
      all_goals
        cases resolved
        dsimp only
        omega

/-- A value that fills a stretch of a list occurs that often. -/
theorem le_count_of_stretch {α : Type} [DecidableEq α] {list : List α} {value : α}
    {first last : Nat} (fills : forall {n}, first ≤ n -> n ≤ last -> list[n]? = some value) :
    last + 1 - first ≤ list.count value := by
  rw [← List.replicate_sublist_iff]
  have stretch : (list.drop first).take (last + 1 - first) =
      List.replicate (last + 1 - first) value := by
    apply List.ext_getElem?
    intro n
    by_cases inside : n < last + 1 - first
    · rw [List.getElem?_take_of_lt inside, List.getElem?_drop,
        fills (by omega) (by omega), List.getElem?_replicate, if_pos inside]
    · rw [List.getElem?_take_eq_none (not_lt.mp inside), List.getElem?_replicate, if_neg inside]
  rw [← stretch]
  exact (List.take_sublist _ _).trans (List.drop_sublist _ _)

namespace Session

/-! ## The order of use -/

/-- Keys are used in the order in which they were drawn. -/
structure Ordered (s : Session) : Prop where
  listed : forall entry, entry ∈ s.used ->
    entry.1 ∈ s.keys ∧ s.keys.idxOf entry.1 ≤ s.engine.keySwitches
  sorted : s.used.Pairwise fun early late => s.keys.idxOf early.1 ≤ s.keys.idxOf late.1

variable {P : Primitives} {s : Session}

theorem Placed.idxOf {index : Nat} {key : SecretKey} (placed : s.Placed P)
    (found : s.keys[index]? = some key) : s.keys.idxOf key = index := by
  rcases List.getElem?_eq_some_iff.mp found with ⟨inside, rfl⟩
  exact placed.distinct.idxOf_getElem index inside

theorem Ordered.of_more_keys (ordered : s.Ordered) {s' : Session} (used : s'.used = s.used)
    (keys : s.keys <+: s'.keys) (switches : s.engine.keySwitches ≤ s'.engine.keySwitches) :
    s'.Ordered := by
  have same : forall entry, entry ∈ s.used -> s'.keys.idxOf entry.1 = s.keys.idxOf entry.1 := by
    intro entry member
    rcases keys with ⟨more, split⟩
    rw [← split]
    exact List.idxOf_append_of_mem (ordered.listed entry member).1
  constructor
  · intro entry member
    rw [used] at member
    rw [same entry member]
    exact ⟨keys.subset (ordered.listed entry member).1,
      Nat.le_trans (ordered.listed entry member).2 switches⟩
  · rw [used]
    refine ordered.sorted.imp_of_mem ?_
    intro early late first second earlier
    rw [same early first, same late second]
    exact earlier

theorem Ordered.encrypt (ordered : s.Ordered) (placed : s.Placed P) (seq : SeqNumber)
    (payload : Bytes) : (s.step P (.encrypt seq payload)).Ordered := by
  have active := placed.idxOf placed.active
  constructor
  · intro entry member
    rcases List.mem_append.mp member with old | new
    · exact ordered.listed entry old
    · rw [List.mem_singleton.mp new]
      exact ⟨List.mem_of_getElem? placed.active, le_of_eq active⟩
  · change (s.used ++ [(s.engine.activeKey.key, seq)]).Pairwise _
    rw [List.pairwise_append]
    refine ⟨ordered.sorted, List.pairwise_singleton _ _, ?_⟩
    intro early first late second
    rw [List.mem_singleton.mp second]
    exact Nat.le_trans (ordered.listed early first).2 (le_of_eq active.symm)

/-- A key that is not in use yet was used for nothing. -/
theorem Ordered.count_eq_zero (ordered : s.Ordered) (placed : s.Placed P) {index : Nat}
    {key : SecretKey} (found : s.keys[index]? = some key)
    (upcoming : s.engine.keySwitches < index) : (s.used.map Prod.fst).count key = 0 := by
  rw [List.count_eq_zero]
  intro member
  rcases List.mem_map.mp member with ⟨entry, used, rfl⟩
  have listed := (ordered.listed entry used).2
  rw [placed.idxOf found] at listed
  omega

theorem Ordered.step (ordered : s.Ordered) (placed : s.Placed P) (call : Call) :
    (s.step P call).Ordered := by
  have keys := (s.step_grows (P := P) call).keys
  have switches := s.keySwitches_le_step (P := P) call
  cases call with
  | encrypt seq payload => exact ordered.encrypt placed seq payload
  | decrypt seq kk payload => exact Ordered.of_more_keys ordered rfl keys switches
  | onAck now srttUs fresh => exact Ordered.of_more_keys ordered rfl keys switches
  | handleKmreq payload => exact Ordered.of_more_keys ordered rfl keys switches
  | handleKmrsp payload => exact Ordered.of_more_keys ordered rfl keys switches

/-- Keys are used in stretches: between two uses of a key there is no other. -/
theorem Ordered.stretch (ordered : s.Ordered) {first last : Nat}
    {early late : SecretKey × SeqNumber} (opens : s.used[first]? = some early)
    (closes : s.used[last]? = some late) (same : early.1 = late.1) {n : Nat}
    (above : first ≤ n) (below : n ≤ last) : (s.used.map Prod.fst)[n]? = some early.1 := by
  rcases List.getElem?_eq_some_iff.mp opens with ⟨firstInside, rfl⟩
  rcases List.getElem?_eq_some_iff.mp closes with ⟨lastInside, rfl⟩
  have inside : n < s.used.length := by omega
  have sorted : forall {i j : Nat} (left : i < s.used.length) (right : j < s.used.length),
      i ≤ j -> s.keys.idxOf s.used[i].1 ≤ s.keys.idxOf s.used[j].1 := by
    intro i j left right between
    rcases Nat.lt_or_eq_of_le between with strict | rfl
    · exact List.pairwise_iff_getElem.mp ordered.sorted i j left right strict
    · exact le_refl _
  have index : s.keys.idxOf s.used[n].1 = s.keys.idxOf s.used[first].1 := by
    apply le_antisymm
    · rw [same]
      exact sorted inside lastInside below
    · exact sorted firstInside inside above
  have member := (ordered.listed s.used[n] (List.getElem_mem inside)).1
  rw [List.getElem?_map, List.getElem?_eq_getElem inside, Option.map_some,
    (List.idxOf_inj member).mp index]

/-! ## The packet counter -/

/-- What the counter of the key in use may have been at the last acknowledgement, when at
most `limit` packets are encrypted between two of them. -/
def allowance (c : Crypto) (limit : Nat) : Nat :=
  if (c.tx.get c.active.other).map TxKey.state = some .announced then
    max c.cfg.kmRefreshRate (c.cfg.kmRefreshRate - c.cfg.kmPreannounce + limit)
  else c.cfg.kmRefreshRate - c.cfg.kmPreannounce

/-- How far the keys are used up. -/
structure Worn (limit : Nat) (s : Session) : Prop where
  rate : 0 < s.engine.cfg.kmRefreshRate
  window : s.engine.cfg.kmPreannounce ≤ (s.engine.cfg.kmRefreshRate - 1) / 2
  pending : s.pending ≤ limit
  counter : s.engine.activeKey.pktCnt ≤ s.pending + allowance s.engine limit
  -- The counter of the first key starts at one.
  counted : (s.used.map Prod.fst).count s.engine.activeKey.key +
    (if s.engine.keySwitches = 0 then 1 else 0) = s.engine.activeKey.pktCnt
  retired : forall key, key ≠ s.engine.activeKey.key ->
    (s.used.map Prod.fst).count key ≤ s.engine.cfg.kmRefreshRate + 2 * limit

variable {limit : Nat}

theorem allowance_le (c : Crypto) (limit : Nat) :
    allowance c limit ≤ c.cfg.kmRefreshRate + limit := by
  unfold allowance
  split_ifs <;> omega

/-- No key was used more often than the rate and two gaps allow. -/
theorem Worn.count_le (worn : s.Worn limit) (key : SecretKey) :
    (s.used.map Prod.fst).count key ≤ s.engine.cfg.kmRefreshRate + 2 * limit := by
  by_cases active : key = s.engine.activeKey.key
  · have counted := worn.counted
    have counter := worn.counter
    have pending := worn.pending
    have bound := allowance_le s.engine limit
    rw [active]
    omega
  · exact worn.retired key active

theorem Worn.of_sendsAlike (worn : s.Worn limit) {s' : Session}
    (alike : SendsAlike s.engine s'.engine) (used : s'.used = s.used)
    (pending : s'.pending = s.pending) : s'.Worn limit := by
  have same : allowance s'.engine limit = allowance s.engine limit := by
    unfold allowance
    rw [alike.cfg, alike.tx, alike.active]
  constructor
  · rw [alike.cfg]
    exact worn.rate
  · rw [alike.cfg]
    exact worn.window
  · rw [pending]
    exact worn.pending
  · rw [alike.activeKey, pending, same]
    exact worn.counter
  · rw [used, alike.activeKey, alike.keySwitches]
    exact worn.counted
  · rw [used, alike.activeKey, alike.cfg]
    exact worn.retired

theorem Worn.encrypt (worn : s.Worn limit) (seq : SeqNumber) (payload : Bytes)
    (space : s.engine.cfg.kmRefreshRate + 2 * limit < 2 ^ 31)
    (paced : (s.step P (.encrypt seq payload)).pending ≤ limit) :
    (s.step P (.encrypt seq payload)).Worn limit := by
  have active := encrypt_activeKey P s.engine seq payload
  have same : allowance (s.engine.encrypt P seq payload).1 limit = allowance s.engine limit := by
    unfold allowance
    have other : (s.engine.encrypt P seq payload).1.tx.get
        (s.engine.encrypt P seq payload).1.active.other =
          s.engine.tx.get s.engine.active.other := SlotPair.get_other_set _ _ _
    rw [other]
    rfl
  have bound := allowance_le s.engine limit
  have counter := worn.counter
  have pending := worn.pending
  -- The counter is below the bound, so that it does not wrap.
  have small : (s.engine.activeKey.pktCnt + 1) % 2 ^ 32 = s.engine.activeKey.pktCnt + 1 :=
    Nat.mod_eq_of_lt (by omega)
  have uses : forall key, ((s.step P (.encrypt seq payload)).used.map Prod.fst).count key =
      (s.used.map Prod.fst).count key + if s.engine.activeKey.key == key then 1 else 0 := by
    intro key
    change ((s.used ++ [(s.engine.activeKey.key, seq)]).map Prod.fst).count key = _
    rw [List.map_append, List.count_append, List.map_singleton, List.count_singleton]
  refine ⟨worn.rate, worn.window, paced, ?_, ?_, ?_⟩
  · change (s.engine.encrypt P seq payload).1.activeKey.pktCnt ≤ s.pending + 1 +
      allowance (s.engine.encrypt P seq payload).1 limit
    rw [active, same]
    change (s.engine.activeKey.pktCnt + 1) % 2 ^ 32 ≤ _
    omega
  · have counted := worn.counted
    rw [uses]
    change (s.used.map Prod.fst).count (s.engine.encrypt P seq payload).1.activeKey.key +
      (if _ == (s.engine.encrypt P seq payload).1.activeKey.key then 1 else 0) +
        (if s.engine.keySwitches = 0 then 1 else 0) =
      (s.engine.encrypt P seq payload).1.activeKey.pktCnt
    rw [active]
    change (s.used.map Prod.fst).count s.engine.activeKey.key +
      (if s.engine.activeKey.key == s.engine.activeKey.key then 1 else 0) + _ =
        (s.engine.activeKey.pktCnt + 1) % 2 ^ 32
    rw [if_pos (beq_self_eq_true _)]
    omega
  · intro key other
    change key ≠ (s.engine.encrypt P seq payload).1.activeKey.key at other
    rw [active] at other
    rw [uses, if_neg (fun same => other (beq_iff_eq.mp same).symm)]
    exact worn.retired key other

/-- An acknowledgement that announces a key: the counter was within the allowance of a key
without a successor, and at most one gap beyond it. -/
theorem Worn.announce (worn : s.Worn limit) {fresh : SecretKey}
    (announces : s.engine.announcing) {s' : Session}
    (alike : SendsAlike (s.engine.announce fresh) s'.engine) (used : s'.used = s.used)
    (pending : s'.pending = 0) : s'.Worn limit := by
  have announced : Worn limit { s with engine := s.engine.announce fresh, pending := 0 } := by
    have active := announce_activeKey s.engine fresh
    have before : allowance s.engine limit =
        s.engine.cfg.kmRefreshRate - s.engine.cfg.kmPreannounce := if_neg announces.2.2
    have after : allowance (s.engine.announce fresh) limit = max s.engine.cfg.kmRefreshRate
        (s.engine.cfg.kmRefreshRate - s.engine.cfg.kmPreannounce + limit) := by
      apply if_pos
      change ((s.engine.tx.set s.engine.active.other _).get s.engine.active.other).map _ = _
      rw [SlotPair.get_set]
      rfl
    refine ⟨worn.rate, worn.window, Nat.zero_le _, ?_, ?_, ?_⟩
    · have counter := worn.counter
      have gap := worn.pending
      change (s.engine.announce fresh).activeKey.pktCnt ≤ 0 + allowance (s.engine.announce fresh) limit
      rw [active, after]
      omega
    · have counted := worn.counted
      change (s.used.map Prod.fst).count (s.engine.announce fresh).activeKey.key + _ =
        (s.engine.announce fresh).activeKey.pktCnt
      rw [active]
      exact counted
    · change forall key, key ≠ (s.engine.announce fresh).activeKey.key -> _
      rw [active]
      exact worn.retired
  exact announced.of_sendsAlike alike used pending

/-- The other transitions.  A switch retires the key in use, and the next one was not used
yet. -/
theorem Worn.ticks (worn : s.Worn limit) (placed : s.Placed P) (ordered : s.Ordered)
    (secured : s.engine.sndState ≠ .unsecured) (quiet : ¬s.engine.announcing) {c : Crypto}
    (ticks : Ticks s.engine c) {s' : Session} (alike : SendsAlike c s'.engine)
    (used : s'.used = s.used) (pending : s'.pending = 0) : s'.Worn limit := by
  have early : (s.engine.tx.get s.engine.active.other).map TxKey.state ≠ some .announced ->
      s.engine.activeKey.pktCnt ≤
        s.engine.cfg.kmRefreshRate - s.engine.cfg.kmPreannounce := by
    intro none_announced
    exact not_lt.mp fun due => quiet ⟨secured, due, none_announced⟩
  have ticked : Worn limit { s with engine := c, pending := 0 } := by
    cases ticks with
    | rest before =>
        refine ⟨worn.rate, worn.window, Nat.zero_le _, ?_, worn.counted, worn.retired⟩
        change s.engine.activeKey.pktCnt ≤ 0 + allowance s.engine limit
        unfold allowance
        split_ifs with announced
        · have counter := before announced
          omega
        · have counter := early announced
          omega
    | @switch next idle announced =>
        have active := switch_activeKey s.engine next
        have upcoming : next.pktCnt = 0 ∧
            s.keys[s.engine.keySwitches + 1]? = some next.key := by
          rcases placed.idle next idle with ⟨_, unused, found, _⟩ | ⟨deprecated, _⟩
          · exact ⟨unused, found⟩
          · rw [announced] at deprecated
            cases deprecated
        have fresh := ordered.count_eq_zero placed upcoming.2 (Nat.lt_succ_self _)
        refine ⟨worn.rate, worn.window, Nat.zero_le _, ?_, ?_, ?_⟩
        · change (s.engine.switch next).activeKey.pktCnt ≤ _
          rw [active]
          change next.pktCnt ≤ _
          rw [upcoming.1]
          exact Nat.zero_le _
        · change (s.used.map Prod.fst).count (s.engine.switch next).activeKey.key +
            (if s.engine.keySwitches + 1 = 0 then 1 else 0) =
              (s.engine.switch next).activeKey.pktCnt
          rw [active]
          change (s.used.map Prod.fst).count next.key + _ = next.pktCnt
          rw [fresh, upcoming.1, if_neg (Nat.succ_ne_zero _)]
        · intro key _
          exact worn.count_le key
    | @decommission old idle deprecated =>
        have active := decommission_activeKey s.engine
        refine ⟨worn.rate, worn.window, Nat.zero_le _, ?_, ?_, ?_⟩
        · have counter := early (by
            rw [idle, Option.map_some, deprecated]
            decide)
          have vacant : allowance s.engine.decommission limit =
              s.engine.cfg.kmRefreshRate - s.engine.cfg.kmPreannounce := by
            apply if_neg
            change ((s.engine.tx.set s.engine.active.other none).get s.engine.active.other).map _ ≠ _
            rw [SlotPair.get_set]
            exact nofun
          change s.engine.decommission.activeKey.pktCnt ≤ 0 + allowance s.engine.decommission limit
          rw [active, vacant]
          omega
        · change (s.used.map Prod.fst).count s.engine.decommission.activeKey.key + _ =
            s.engine.decommission.activeKey.pktCnt
          rw [active]
          exact worn.counted
        · change forall key, key ≠ s.engine.decommission.activeKey.key -> _
          rw [active]
          exact worn.retired
  exact ticked.of_sendsAlike alike used pending

/-- The sending state is not unsecured, and at most `limit` packets are encrypted between two
acknowledgements. -/
def Paced (P : Primitives) (limit : Nat) (s : Session) (call : Call) : Prop :=
  s.engine.sndState ≠ .unsecured ∧ (s.step P call).pending ≤ limit

instance (P : Primitives) (limit : Nat) (s : Session) (call : Call) :
    Decidable (Paced P limit s call) :=
  inferInstanceAs (Decidable (_ ∧ _))

theorem Worn.step (worn : s.Worn limit) (placed : s.Placed P) (ordered : s.Ordered)
    (space : s.engine.cfg.kmRefreshRate + 2 * limit < 2 ^ 31) {call : Call}
    (paced : Paced P limit s call) : (s.step P call).Worn limit := by
  cases call with
  | encrypt seq payload => exact worn.encrypt seq payload space paced.2
  | decrypt seq kk payload =>
      exact worn.of_sendsAlike (decrypt_sendsAlike P s.engine seq kk payload) rfl rfl
  | handleKmreq payload =>
      exact worn.of_sendsAlike (handleKmreq_sendsAlike s.engine payload) rfl rfl
  | handleKmrsp payload =>
      exact worn.of_sendsAlike (handleKmrsp_sendsAlike s.engine payload) rfl rfl
  | onAck now srttUs fresh =>
      rcases @onAck_cases P s.engine now srttUs fresh with ⟨announces, out, evaluated⟩ |
        ⟨quiet, c, out, evaluated, ticked⟩
      · have alike : SendsAlike (s.engine.announce fresh) (s.engine.onAck P now srttUs fresh).1 := by
          rw [evaluated]
          exact ⟨rfl, rfl, rfl, rfl, rfl, rfl⟩
        exact worn.announce announces alike rfl rfl
      · have alike : SendsAlike c (s.engine.onAck P now srttUs fresh).1 := by
          rw [evaluated]
          exact ⟨rfl, rfl, rfl, rfl, rfl, rfl⟩
        rcases ticked with ⟨_, unsecured⟩ | ticks
        · exact absurd unsecured paced.1
        · exact worn.ticks placed ordered paced.1 quiet ticks alike rfl rfl

end Session

theorem Opening.unused {P : Primitives} {s : Session} (opening : Opening P s) :
    s.used = [] := by
  cases opening <;> rfl

theorem Opening.ordered {P : Primitives} {s : Session} (opening : Opening P s) :
    s.Ordered := by
  constructor
  · intro entry member
    rw [opening.unused] at member
    cases member
  · rw [opening.unused]
    exact List.Pairwise.nil

theorem Opening.worn {P : Primitives} {s : Session} (opening : Opening P s) (limit : Nat) :
    s.Worn limit := by
  cases opening with
  | @initiator _ cfg resolved salt sek sized =>
      have rates := cryptoConfig_rates resolved
      refine ⟨rates.1, rates.2.2, Nat.zero_le _, ?_, rfl, fun _ _ => Nat.zero_le _⟩
      change 1 ≤ 0 + (cfg.kmRefreshRate - cfg.kmPreannounce)
      omega
  | @responder _ cfg resolved kmreq engine accepted sized distinct =>
      have rates := cryptoConfig_rates resolved
      rcases newResponder_ok accepted with ⟨msg, sek, _, _, config, _, _, _, _, active, tx, _,
        switches, _⟩
      have rate : engine.cfg.kmRefreshRate = cfg.kmRefreshRate := by rw [config]
      have window : engine.cfg.kmPreannounce = cfg.kmPreannounce := by rw [config]
      have first : engine.activeKey.pktCnt = 1 := by
        have present := engine.get_activeKey
        rw [tx, SlotPair.get_map] at present
        rcases Option.map_eq_some_iff.mp present with ⟨_, _, same⟩
        rw [← same]
        exact if_pos rfl
      refine ⟨?_, ?_, Nat.zero_le _, ?_, ?_, fun _ _ => Nat.zero_le _⟩
      · rw [rate]
        exact rates.1
      · rw [rate, window]
        exact rates.2.2
      · change engine.activeKey.pktCnt ≤ 0 + Session.allowance engine limit
        rw [first]
        unfold Session.allowance
        rw [rate, window]
        split_ifs <;> omega
      · change 0 + (if engine.keySwitches = 0 then 1 else 0) = engine.activeKey.pktCnt
        rw [first, switches]
        rfl

/-- The invariants of a paced run. -/
theorem run_worn {P : Primitives} {limit : Nat} {history : List (Session × Call)} {s : Session}
    (run : ((machine P (Opening P)).restrict (Session.Paced P limit)).Run history s)
    (space : s.engine.cfg.kmRefreshRate + 2 * limit < 2 ^ 31) :
    s.Placed P ∧ s.Ordered ∧ s.Worn limit := by
  revert space
  apply run.induct fun _ s => s.engine.cfg.kmRefreshRate + 2 * limit < 2 ^ 31 ->
    s.Placed P ∧ s.Ordered ∧ s.Worn limit
  · intro s opening _
    exact ⟨opening.placed, opening.ordered, opening.worn limit⟩
  · rintro history s call _ ih ⟨permits, paced⟩ space
    change (s.step P call).engine.cfg.kmRefreshRate + _ < _ at space
    rw [(s.step_grows call).cfg] at space
    rcases ih space with ⟨placed, ordered, worn⟩
    exact ⟨placed.step permits, ordered.step placed call, worn.step placed ordered space paced⟩

end Crypto
end Rsrt
