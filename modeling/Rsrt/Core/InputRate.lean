import Mathlib.Data.List.Chain
import Mathlib.Tactic
import Rsrt.Core.Pacing

namespace Rsrt

/-!
# The windows of the input-rate estimator

The estimator keeps the counts of one window and the rate of the last one that closed.  A
log beside it records which submissions each window counts.  The windows partition the
submissions after the first one, each starts where the one before ended, and the rate of a
closed window is the bytes that it was charged over its length.
-/

/-- A submission: its instant and the length of its payload. -/
abbrev RateInput := Instant × Nat

structure RateWindow where
  start : Instant
  /-- The submissions counted, oldest first. -/
  inputs : List RateInput := []
deriving DecidableEq

namespace RateWindow

def bytes (w : RateWindow) : Nat := (w.inputs.map Prod.snd).sum

/-- Payload bytes and the header cost of each packet. -/
def total (w : RateWindow) : Nat := w.bytes + w.inputs.length * dataHdrSize

/-- The instant of the last submission counted. -/
def stop (w : RateWindow) : Instant := (w.inputs.getLast?.map Prod.fst).getD w.start

def elapsedUs (w : RateWindow) : Nat := Duration.asMicros (w.stop - w.start)

def count (w : RateWindow) (input : RateInput) : RateWindow :=
  { w with inputs := w.inputs ++ [input] }

/-- A closed window with its rate. -/
def shut (w : RateWindow) : RateWindow × Nat :=
  (w, saturatingMul w.total 1000000 / w.elapsedUs)

theorem count_stop (w : RateWindow) (input : RateInput) : (w.count input).stop = input.1 := by
  unfold stop count
  rw [List.getLast?_concat]
  rfl

theorem count_bytes (w : RateWindow) (input : RateInput) :
    (w.count input).bytes = w.bytes + input.2 := by
  unfold bytes count
  rw [List.map_append, List.sum_append]
  rfl

theorem count_length (w : RateWindow) (input : RateInput) :
    (w.count input).inputs.length = w.inputs.length + 1 :=
  List.length_append

end RateWindow

/-- An estimator with the windows that it has closed, each with the rate that it showed then,
and the window that it fills. -/
structure RateLog where
  est : InputRateEstimator := {}
  closed : List (RateWindow × Nat) := []
  current : Option RateWindow := none

namespace RateLog

/-- A submission.  A window has closed when the count starts again from zero. -/
def next (log : RateLog) (input : RateInput) : RateLog :=
  let est := log.est.onInput input.1 input.2
  match log.current with
  | none => { log with est, current := some { start := input.1 } }
  | some w =>
      if est.pkts = 0 then
        { est
          closed := log.closed ++ [(w.count input, est.rate.getD 0)]
          current := some { start := input.1 } }
      else { log with est, current := some (w.count input) }

def run (inputs : List RateInput) : RateLog := inputs.foldl next {}

/-- The windows in order, the open one last. -/
def windows (log : RateLog) (w : RateWindow) : List RateWindow := log.closed.map Prod.fst ++ [w]

/-- The estimator that fills a window after some closed ones. -/
def estimator (closed : List (RateWindow × Nat)) (w : RateWindow) : InputRateEstimator where
  period := if closed = [] then inputrateFastStart else inputrateRunning
  windowStart := some w.start
  pkts := w.inputs.length
  bytes := w.bytes
  rate := closed.getLast?.map Prod.snd

/-- The inputs of a window come in order and not before its start. -/
def Ordered (w : RateWindow) : Prop :=
  (w.inputs.map Prod.fst).Pairwise (· ≤ ·) ∧ forall input, input ∈ w.inputs -> w.start ≤ input.1

theorem Ordered.le_stop {w : RateWindow} (ordered : Ordered w) {input : RateInput}
    (counted : input ∈ w.inputs) : input.1 ≤ w.stop := by
  rcases List.eq_nil_or_concat w.inputs with empty | ⟨init, last, split⟩
  · rw [empty] at counted
    cases counted
  · have sorted := ordered.1
    rw [split, List.concat_eq_append] at sorted counted
    rw [List.map_append, List.pairwise_append] at sorted
    have stop : w.stop = last.1 := by
      unfold RateWindow.stop
      rw [split, List.concat_eq_append, List.getLast?_concat]
      rfl
    rw [stop]
    rcases List.mem_append.mp counted with old | new
    · exact sorted.2.2 _ (List.mem_map_of_mem old) _ (List.mem_singleton.mpr rfl)
    · rw [List.mem_singleton.mp new]

/-- What is true of a window that closed with a rate. -/
structure Rated (w : RateWindow) (rate : Nat) : Prop where
  elapsed : 1 ≤ w.elapsedUs
  rate : rate = saturatingMul w.total 1000000 / w.elapsedUs

structure Keeps (first : RateInput) (rest : List RateInput) (log : RateLog) (w : RateWindow) :
    Prop where
  current : log.current = some w
  est : log.est = estimator log.closed w
  partition : log.closed.flatMap (fun entry => entry.1.inputs) ++ w.inputs = rest
  opened : (log.windows w).head?.map RateWindow.start = some first.1
  chained : (log.windows w).IsChain fun earlier later => later.start = earlier.stop
  ordered : forall window, window ∈ log.windows w -> Ordered window
  started : w.start ∈ (first :: rest).map Prod.fst
  rated : forall entry, entry ∈ log.closed -> Rated entry.1 entry.2
  long : forall entry, entry ∈ log.closed.tail -> 1000000 < entry.1.elapsedUs

section Steps

variable {first input : RateInput} {rest : List RateInput} {log : RateLog} {w : RateWindow}

theorem Keeps.start (first : RateInput) :
    Keeps first [] (next {} first) { start := first.1 } where
  current := rfl
  est := by
    change ({} : InputRateEstimator).onInput first.1 first.2 = estimator [] { start := first.1 }
    unfold estimator
    rw [if_pos rfl]
    rfl
  partition := rfl
  opened := rfl
  chained := .singleton _
  ordered := by
    intro window member
    rw [List.mem_singleton.mp member]
    exact ⟨.nil, nofun⟩
  started := List.mem_cons_self
  rated := nofun
  long := nofun

/-- The condition under which a window closes. -/
def Closes (closed : List (RateWindow × Nat)) (w : RateWindow) : Prop :=
  (closed = [] ∧ inputrateMaxPackets < w.inputs.length ∨
    Duration.asMicros (if closed = [] then inputrateFastStart else inputrateRunning) <
      w.elapsedUs) ∧ 1 ≤ w.elapsedUs

theorem period_lt (closed : List (RateWindow × Nat)) :
    (if closed = [] then inputrateFastStart else inputrateRunning) < inputrateRunning ↔
      closed = [] := by
  have faster : inputrateFastStart < inputrateRunning := by decide
  split_ifs with empty
  · exact iff_of_true faster empty
  · exact iff_of_false (lt_irrefl _) empty

/-- A submission closes the window that counts it, or is just counted. -/
theorem onInput_estimator (closed : List (RateWindow × Nat)) (w : RateWindow)
    (input : RateInput) :
    (Closes closed (w.count input) ∧
      (estimator closed w).onInput input.1 input.2 =
        estimator (closed ++ [(w.count input).shut]) { start := input.1 }) ∨
    (estimator closed w).onInput input.1 input.2 = estimator closed (w.count input) := by
  have elapsed : (w.count input).elapsedUs = Duration.asMicros (input.1 - w.start) := by
    unfold RateWindow.elapsedUs
    rw [w.count_stop]
    rfl
  have total : (w.count input).total =
      w.bytes + input.2 + (w.inputs.length + 1) * dataHdrSize := by
    unfold RateWindow.total
    rw [w.count_bytes, w.count_length]
  have condition : (((if closed = [] then inputrateFastStart else inputrateRunning) <
        inputrateRunning ∧ inputrateMaxPackets < (w.count input).inputs.length ∨
      Duration.asMicros (if closed = [] then inputrateFastStart else inputrateRunning) <
        (w.count input).elapsedUs) ∧ 1 ≤ (w.count input).elapsedUs) ↔
      Closes closed (w.count input) := by
    unfold Closes
    rw [period_lt]
  unfold InputRateEstimator.onInput
  unfold estimator
  dsimp only [Instant.saturatingDurationSince]
  rw [← total, ← elapsed, ← w.count_bytes, ← w.count_length input]
  by_cases closes : Closes closed (w.count input)
  · refine Or.inl ⟨closes, ?_⟩
    rw [if_pos (condition.mpr closes),
      if_neg (List.append_ne_nil_of_right_ne_nil _ (List.cons_ne_nil _ _)), List.getLast?_concat]
    rfl
  · refine Or.inr ?_
    rw [if_neg (mt condition.mp closes)]
    rfl

/-- Counting a submission changes neither where the windows start nor where the closed ones
stop. -/
theorem Keeps.count_chain (keeps : Keeps first rest log w) (input : RateInput) :
    (log.windows (w.count input)).head?.map RateWindow.start = some first.1 ∧
      (log.windows (w.count input)).IsChain fun earlier later => later.start = earlier.stop := by
  constructor
  · rw [← keeps.opened]
    unfold windows
    cases log.closed <;> rfl
  · have parts := List.isChain_append.mp keeps.chained
    apply List.isChain_append.mpr
    refine ⟨parts.1, .singleton _, ?_⟩
    intro earlier last later head
    cases head
    exact parts.2.2 earlier last w rfl

/-- The window that counts a submission is in order, if the submission is the latest. -/
theorem Keeps.count_ordered (keeps : Keeps first rest log w)
    (later : forall earlier, earlier ∈ first :: rest -> earlier.1 ≤ input.1) :
    forall window, window ∈ log.windows (w.count input) -> Ordered window := by
  have before := keeps.ordered w (List.mem_append_right _ (List.mem_singleton.mpr rfl))
  have reached : w.start ≤ input.1 := by
    rcases List.mem_map.mp keeps.started with ⟨earlier, member, same⟩
    rw [← same]
    exact later earlier member
  have counted : Ordered (w.count input) := by
    constructor
    · change ((w.inputs ++ [input]).map Prod.fst).Pairwise _
      rw [List.map_append, List.pairwise_append]
      refine ⟨before.1, List.pairwise_singleton _ _, ?_⟩
      intro t member t' member'
      rw [List.map_singleton] at member'
      rw [List.mem_singleton.mp member']
      rcases List.mem_map.mp member with ⟨earlier, inside, rfl⟩
      apply later
      rw [← keeps.partition]
      exact List.mem_cons_of_mem _ (List.mem_append_right _ inside)
    · intro earlier member
      rcases List.mem_append.mp member with old | new
      · exact before.2 earlier old
      · rw [List.mem_singleton.mp new]
        exact reached
  intro window member
  rcases List.mem_append.mp member with old | new
  · exact keeps.ordered window (List.mem_append_left _ old)
  · rw [List.mem_singleton.mp new]
    exact counted

theorem Keeps.count_partition (keeps : Keeps first rest log w) (input : RateInput) :
    log.closed.flatMap (fun entry => entry.1.inputs) ++ (w.count input).inputs =
      rest ++ [input] := by
  change _ ++ (w.inputs ++ [input]) = _
  rw [← List.append_assoc, keeps.partition]

/-- A submission that is just counted. -/
theorem Keeps.counts (keeps : Keeps first rest log w)
    (later : forall earlier, earlier ∈ first :: rest -> earlier.1 ≤ input.1)
    (est : (estimator log.closed w).onInput input.1 input.2 =
      estimator log.closed (w.count input)) :
    Keeps first (rest ++ [input]) (log.next input) (w.count input) := by
  have moved : log.next input =
      { log with est := estimator log.closed (w.count input), current := some (w.count input) } := by
    unfold RateLog.next
    dsimp only
    rw [keeps.current, keeps.est, est]
    dsimp only
    have counting : (estimator log.closed (w.count input)).pkts ≠ 0 := by
      change (w.count input).inputs.length ≠ 0
      rw [w.count_length]
      exact Nat.succ_ne_zero _
    rw [if_neg counting]
  have chain := keeps.count_chain input
  rw [moved]
  refine ⟨rfl, rfl, keeps.count_partition input, chain.1, chain.2, keeps.count_ordered later, ?_,
    keeps.rated, keeps.long⟩
  rw [← List.cons_append, List.map_append]
  exact List.mem_append_left _ keeps.started

/-- A submission that closes the window. -/
theorem Keeps.closes (keeps : Keeps first rest log w)
    (later : forall earlier, earlier ∈ first :: rest -> earlier.1 ≤ input.1)
    (closes : Closes log.closed (w.count input))
    (est : (estimator log.closed w).onInput input.1 input.2 =
      estimator (log.closed ++ [(w.count input).shut]) { start := input.1 }) :
    Keeps first (rest ++ [input]) (log.next input) { start := input.1 } := by
  have rate : (estimator (log.closed ++ [(w.count input).shut]) { start := input.1 }).rate =
      some (w.count input).shut.2 := by
    unfold estimator
    rw [List.getLast?_concat]
    rfl
  have emptied : (estimator (log.closed ++ [(w.count input).shut]) { start := input.1 }).pkts = 0 :=
    rfl
  have moved : log.next input =
      { est := estimator (log.closed ++ [(w.count input).shut]) { start := input.1 }
        closed := log.closed ++ [(w.count input).shut]
        current := some { start := input.1 } } := by
    unfold RateLog.next
    dsimp only
    rw [keeps.current, keeps.est, est]
    dsimp only
    rw [if_pos emptied, rate]
    rfl
  have chain := keeps.count_chain input
  have windows_eq : (log.next input).windows { start := input.1 } =
      log.windows (w.count input) ++ [{ start := input.1 }] := by
    rw [moved]
    unfold windows
    rw [List.map_append]
    rfl
  have nonempty : log.windows (w.count input) ≠ [] :=
    List.append_ne_nil_of_right_ne_nil _ (List.cons_ne_nil _ _)
  have closed : (log.next input).closed = log.closed ++ [(w.count input).shut] := by rw [moved]
  refine ⟨by rw [moved], by rw [moved], ?_, ?_, ?_, ?_, ?_, ?_, ?_⟩
  · rw [closed, List.flatMap_append, List.flatMap_singleton, List.append_nil]
    exact keeps.count_partition input
  · rw [windows_eq, List.head?_append_of_ne_nil _ nonempty]
    exact chain.1
  · rw [windows_eq]
    apply List.isChain_append.mpr
    refine ⟨chain.2, .singleton _, ?_⟩
    intro earlier last later head
    cases head
    unfold windows at last
    rw [List.getLast?_concat] at last
    cases last
    exact (w.count_stop input).symm
  · intro window member
    rw [windows_eq] at member
    rcases List.mem_append.mp member with old | new
    · exact keeps.count_ordered later window old
    · rw [List.mem_singleton.mp new]
      exact ⟨.nil, nofun⟩
  · rw [← List.cons_append, List.map_append]
    exact List.mem_append_right _ (List.mem_singleton.mpr rfl)
  · intro entry member
    rw [closed] at member
    rcases List.mem_append.mp member with old | new
    · exact keeps.rated entry old
    · rw [List.mem_singleton.mp new]
      exact ⟨closes.2, rfl⟩
  · intro entry member
    rw [closed] at member
    cases before : log.closed with
    | nil =>
        rw [before] at member
        cases member
    | cons head tail =>
        rw [before] at member
        rcases List.mem_append.mp member with old | new
        · apply keeps.long
          rw [before]
          exact old
        · rw [List.mem_singleton.mp new]
          have running := closes.1
          rw [before, if_neg (List.cons_ne_nil _ _)] at running
          exact running.resolve_left fun early => List.cons_ne_nil _ _ early.1

theorem Keeps.next (keeps : Keeps first rest log w)
    (later : forall earlier, earlier ∈ first :: rest -> earlier.1 ≤ input.1) :
    Exists fun w' => Keeps first (rest ++ [input]) (log.next input) w' := by
  rcases onInput_estimator log.closed w input with ⟨closes, est⟩ | est
  · exact ⟨_, keeps.closes later closes est⟩
  · exact ⟨_, keeps.counts later est⟩

end Steps

theorem run_keeps (first : RateInput) (rest : List RateInput)
    (sorted : ((first :: rest).map Prod.fst).Pairwise (· ≤ ·)) :
    Exists fun w => Keeps first rest (run (first :: rest)) w := by
  induction rest using List.reverseRecOn with
  | nil => exact ⟨_, Keeps.start first⟩
  | append_singleton rest input ih =>
      rw [← List.cons_append, List.map_append, List.pairwise_append] at sorted
      rcases ih sorted.1 with ⟨w, keeps⟩
      have moved : run (first :: (rest ++ [input])) = (run (first :: rest)).next input := by
        unfold run
        rw [← List.cons_append, List.foldl_append]
        rfl
      rw [moved]
      apply keeps.next
      intro earlier member
      exact sorted.2.2 _ (List.mem_map_of_mem member) _ (List.mem_singleton.mpr rfl)

/-- A product that does not saturate. -/
theorem saturatingMul_eq {total : Nat} (small : total < 2 ^ 43) :
    saturatingMul total 1000000 = total * 1000000 := by
  unfold saturatingMul
  apply Nat.min_eq_left
  omega

/-- The windows partition the submissions after the first one, in order, and each starts
where the one before stopped.  The estimator holds the counts of the open window and the
rate of the last closed one.  A window closes at least a microsecond after its start, with
the rate of what it was charged, and after the first one only when it has lasted for more
than a second. -/
theorem rate_windows (first : RateInput) (rest : List RateInput)
    (sorted : ((first :: rest).map Prod.fst).Pairwise (· ≤ ·)) :
    Exists fun w => (run (first :: rest)).current = some w ∧
      (run (first :: rest)).est = estimator (run (first :: rest)).closed w ∧
      ((run (first :: rest)).windows w).flatMap RateWindow.inputs = rest ∧
      ((run (first :: rest)).windows w).head?.map RateWindow.start = some first.1 ∧
      ((run (first :: rest)).windows w).IsChain
        (fun earlier later => later.start = earlier.stop) ∧
      (forall window, window ∈ (run (first :: rest)).windows w ->
        forall input, input ∈ window.inputs -> window.start ≤ input.1 ∧ input.1 ≤ window.stop) ∧
      (forall window rate, (window, rate) ∈ (run (first :: rest)).closed ->
        1 ≤ window.elapsedUs ∧
          (window.total < 2 ^ 43 -> rate = window.total * 1000000 / window.elapsedUs)) ∧
      forall window rate, (window, rate) ∈ (run (first :: rest)).closed.tail ->
        1000000 < window.elapsedUs := by
  rcases run_keeps first rest sorted with ⟨w, keeps⟩
  refine ⟨w, keeps.current, keeps.est, ?_, keeps.opened, keeps.chained, ?_, ?_, ?_⟩
  · unfold windows
    rw [List.flatMap_append, List.flatMap_singleton, List.flatMap_map]
    exact keeps.partition
  · intro window member input counted
    have ordered := keeps.ordered window member
    exact ⟨ordered.2 input counted, ordered.le_stop counted⟩
  · intro window rate member
    have rated := keeps.rated _ member
    refine ⟨rated.elapsed, ?_⟩
    intro small
    rw [← saturatingMul_eq small]
    exact rated.rate
  · intro window rate member
    exact keeps.long _ member

/-- Two submissions at one instant, and two that close a window each. -/
def sampleInputs : List RateInput :=
  [(0, 200), (Duration.fromMillis 600, 300), (Duration.fromMillis 1700, 50)]

theorem rate_windows_sampleInputs :
    (run ((0, 100) :: sampleInputs)).closed.map Prod.snd = [980, 85] ∧
      Exists fun w => (run ((0, 100) :: sampleInputs)).current = some w ∧
        ((run ((0, 100) :: sampleInputs)).windows w).flatMap RateWindow.inputs = sampleInputs := by
  rcases rate_windows (0, 100) sampleInputs (by decide) with ⟨w, current, _, partition, _⟩
  exact ⟨by decide +kernel, w, current, partition⟩

end RateLog

end Rsrt
