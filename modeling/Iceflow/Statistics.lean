import Iceflow.Consumer
import Iceflow.Foundation.Transition
import Iceflow.Producer.Partitions

/-! What the statistics of consumers and producers report over any sequence of events and
queries whose times do not decrease. The age of an entry is computed with the wrong sign,
so no entry is ever too old; producers record nothing. -/
namespace Iceflow

/-- How many of the times lie at most the maximum age back. -/
def recent (now : Int) (times : List Int) : Nat :=
  times.countP (fun time => now - time ≤ oneSecond)

def older (now : Int) (times : List Int) : Nat :=
  times.countP (fun time => oneSecond < now - time)

/-- Whole milliseconds up to a later time point. -/
def wholeMilliseconds (since now : Int) : UInt64 := UInt64.ofNat ((now - since).toNat / 1000000)

/-- The number of recent events, and the time since the last one. -/
structure Reports (units idleTime : UInt64) (times : List Int) (since now : Int) : Prop where
  units : units.toNat = recent now times
  idleTime : idleTime = wholeMilliseconds since now

theorem recent_add_older (now : Int) (times : List Int) :
    recent now times + older now times = times.length := by
  rw [recent, older, List.length_eq_countP_add_countP (fun time => now - time ≤ oneSecond)]
  simp only [decide_eq_true_eq, Int.not_le]

theorem recent_eq_zero {now : Int} {times : List Int} :
    recent now times = 0 ↔ ∀ time ∈ times, oneSecond < now - time := by
  rw [recent, List.countP_eq_zero]
  simp only [decide_eq_true_eq, Int.not_le]

theorem determineIdleTime_eq {since now : Int} (later : since ≤ now) :
    determineIdleTime since now = wholeMilliseconds since now := by
  obtain ⟨passed, same⟩ := Int.eq_ofNat_of_zero_le (Int.sub_nonneg.mpr later)
  have wrapped : ((passed : Int).tdiv 1000000 % 2 ^ 64).toNat = passed / 1000000 % 2 ^ 64 := by
    rw [Int.tdiv_eq_ediv_of_nonneg (Int.natCast_nonneg passed)]
    omega
  rw [determineIdleTime, wholeMilliseconds, same, Int.toNat_natCast, UInt64.ofInt, wrapped]
  exact UInt64.ofNat_mod_size

/-- With the sign as it is, entries that are not in the future are never removed. -/
theorem cleanUpTimestamps_keeps {maxAge now : Int} (aged : 0 ≤ maxAge) {times : List Int}
    (past : ∀ time ∈ times, time ≤ now) : cleanUpTimestamps maxAge now times = times := by
  cases times with
  | nil => rfl
  | cons first rest =>
    have before := past first List.mem_cons_self
    rw [cleanUpTimestamps, if_pos (by omega)]

/-- Entries are removed from the front, and only such as are too old. -/
theorem cleanUpTimestamps_removes (maxAge now : Int) (times : List Int) :
    ∃ removed, times = removed ++ cleanUpTimestamps maxAge now times ∧
      ∀ time ∈ removed, maxAge < time - now := by
  induction times with
  | nil => exact ⟨[], rfl, by simp⟩
  | cons first rest ih =>
    obtain ⟨removed, split, old⟩ := ih
    rw [cleanUpTimestamps]
    split
    · exact ⟨[], rfl, by simp⟩
    · rename_i passed
      refine ⟨first :: removed, ?_, ?_⟩
      · rw [List.cons_append, ← split]
      · intro time member
        rcases List.mem_cons.mp member with rfl | later
        · exact not_le.mp passed
        · exact old time later

/-- A counted event, or a query of the statistics, at some time. -/
inductive Timed (A : Type) where
  | event (what : A) (time : Int)
  | query (now : Int)

namespace Timed
variable {A : Type}

def time : Timed A → Int
  | .event _ time => time
  | .query now => now

def eventTime : Timed A → Option Int
  | .event _ time => some time
  | .query _ => none

def eventTimes (history : List (Timed A)) : List Int := history.filterMap eventTime

def lastTime (start : Int) (history : List (Timed A)) : Int :=
  (eventTimes history).getLast?.getD start

/-- From the construction on, times do not decrease. -/
def Ordered (start : Int) (history : List (Timed A)) : Prop :=
  (start :: history.map time).Pairwise (· ≤ ·)

instance (start : Int) (history : List (Timed A)) : Decidable (Ordered start history) :=
  inferInstanceAs (Decidable (List.Pairwise _ _))

theorem Ordered.init {start : Int} {first rest : List (Timed A)}
    (ordered : Ordered start (first ++ rest)) : Ordered start first := by
  rw [Ordered, List.map_append, ← List.cons_append] at ordered
  exact (List.pairwise_append.mp ordered).1

theorem Ordered.past {start : Int} {first rest : List (Timed A)} {next : Timed A}
    (ordered : Ordered start (first ++ next :: rest)) :
    ∀ time ∈ start :: eventTimes first, time ≤ next.time := by
  intro time member
  rw [Ordered, List.map_append, ← List.cons_append] at ordered
  have earlier := (List.pairwise_append.mp ordered).2.2
  rcases List.mem_cons.mp member with rfl | happened
  · exact earlier _ List.mem_cons_self _ (by simp)
  · obtain ⟨old, listed, made⟩ := List.mem_filterMap.mp happened
    have same : old.time = time := by
      cases old <;> cases made
      rfl
    rw [← same]
    exact earlier _ (List.mem_cons_of_mem _ (List.mem_map_of_mem listed)) _ (by simp)

theorem lastTime_mem (start : Int) (history : List (Timed A)) :
    lastTime start history ∈ start :: eventTimes history := by
  rw [lastTime]
  cases last : (eventTimes history).getLast? with
  | none => exact List.mem_cons_self
  | some time => exact List.mem_cons_of_mem _ (List.mem_of_getLast? last)

@[simp] theorem eventTimes_event (history : List (Timed A)) (what : A) (time : Int) :
    eventTimes (history ++ [.event what time]) = eventTimes history ++ [time] := by
  simp [eventTimes, eventTime]

@[simp] theorem eventTimes_query (history : List (Timed A)) (now : Int) :
    eventTimes (history ++ [.query now]) = eventTimes history := by
  simp [eventTimes, eventTime]

end Timed

section
open Timed
variable [Platform] {μ : Type}

namespace IceflowConsumer

/-- The consumption of an item is recorded, or the statistics are queried. -/
def perform (consumer : IceflowConsumer μ) : Timed Unit → IceflowConsumer μ
  | .event _ timestamp => consumer.saveTimestamp timestamp
  | .query now => (consumer.getConsumptionStats now).2

/-- All recorded times are kept, whatever their age. -/
structure Kept (start : Int) (history : List (Timed Unit)) (consumer : IceflowConsumer μ) :
    Prop where
  timestamps : consumer.consumptionTimestamps = eventTimes history
  idleSince : consumer.idleSince = lastTime start history
  maxAge : consumer.maxConsumptionAge = oneSecond

theorem run_kept (syncPrefix edge : String) {start : Int} {history : List (Timed Unit)}
    (ordered : Ordered start history) :
    Kept start history (Transition.run perform
      (construct syncPrefix edge start : IceflowConsumer μ) history) := by
  induction history using List.reverseRecOn with
  | nil => exact ⟨rfl, rfl, rfl⟩
  | append_singleton history next ih =>
    have kept := ih ordered.init
    have past := ordered.past
    rw [Transition.run_append, Transition.run_cons, Transition.run_nil]
    cases next with
    | event what timestamp =>
      refine ⟨?_, ?_, kept.maxAge⟩
      · rw [perform, saveTimestamp, kept.timestamps, kept.maxAge, eventTimes_event]
        apply cleanUpTimestamps_keeps (by decide)
        intro time member
        rcases List.mem_append.mp member with old | new
        · exact past time (List.mem_cons_of_mem _ old)
        · rw [List.mem_singleton.mp new]
      · rw [lastTime, eventTimes_event, List.getLast?_concat]
        rfl
    | query now =>
      refine ⟨?_, ?_, kept.maxAge⟩
      · rw [perform, getConsumptionStats, kept.timestamps, kept.maxAge, eventTimes_query]
        exact cleanUpTimestamps_keeps (by decide)
          (fun time member => past time (List.mem_cons_of_mem _ member))
      · rw [lastTime, eventTimes_query]
        exact kept.idleSince

/-- What a query reports is right exactly when the recorded consumptions that are older
than the maximum age are none, or so many that a 64-bit count misses them. The idle time
always is. -/
theorem getConsumptionStats_iff (syncPrefix edge : String) {start : Int}
    {history : List (Timed Unit)} (ordered : Ordered start history) :
    ∀ first now rest, history = first ++ .query now :: rest →
      let stats := ((Transition.run perform
        (construct syncPrefix edge start : IceflowConsumer μ) first).getConsumptionStats now).1
      Reports stats.unitsConsumed stats.idleTime (eventTimes first) (lastTime start first) now ↔
        2 ^ 64 ∣ older now (eventTimes first) ∧ recent now (eventTimes first) < 2 ^ 64 := by
  rintro first now rest rfl
  have kept : Kept start first (Transition.run perform
      (construct syncPrefix edge start : IceflowConsumer μ) first) :=
    run_kept syncPrefix edge ordered.init
  have past := ordered.past
  have nothing_removed : cleanUpTimestamps oneSecond now (eventTimes first) = eventTimes first :=
    cleanUpTimestamps_keeps (by decide) fun time member =>
      past time (List.mem_cons_of_mem _ member)
  simp only [getConsumptionStats, kept.timestamps, kept.idleSince, kept.maxAge, nothing_removed]
  have counted : (UInt64.ofNat (eventTimes first).length).toNat =
      (recent now (eventTimes first) + older now (eventTimes first)) % 2 ^ 64 := by
    rw [recent_add_older, UInt64.toNat_ofNat']
  have idle := determineIdleTime_eq (past _ (lastTime_mem start first))
  constructor
  · intro reports
    have units := reports.units
    rw [counted] at units
    omega
  · rintro ⟨missed, few⟩
    exact ⟨by rw [counted]; omega, idle⟩

end IceflowConsumer

namespace IceflowProducer

/-- `pushData`, which does not read the clock, or a query of the statistics. -/
def perform (state : IceflowProducer × SVSPubSub) : Timed Bytes → IceflowProducer × SVSPubSub
  | .event data _ => (state.1.pushData state.2 data).2
  | .query now => ((state.1.getProductionStats now).2, state.2)

/-- Nothing is recorded, and `m_idleSince` keeps the epoch of the clock. -/
structure Unrecorded (producer : IceflowProducer) : Prop where
  timestamps : producer.productionTimestamps = []
  idleSince : producer.idleSince = 0
  maxAge : producer.maxProductionTimestampAge = oneSecond

theorem unrecorded_of_construct {svs : SVSPubSub} {nodePrefix syncPrefix edge : String}
    {numberOfPartitions : UInt32} {generator : Stream' UInt32} {state : IceflowProducer × SVSPubSub}
    (constructed : construct svs nodePrefix syncPrefix edge numberOfPartitions generator =
      .ok state) : Unrecorded state.1 := by
  unfold construct at constructed
  split at constructed
  · cases constructed
  · dsimp only at constructed
    split at constructed <;> cases constructed
    exact ⟨rfl, rfl, rfl⟩

theorem Unrecorded.pushData {producer : IceflowProducer} (unrecorded : Unrecorded producer)
    (svs : SVSPubSub) (data : Bytes) : Unrecorded (producer.pushData svs data).2.1 := by
  obtain ⟨timestamps, idleSince, maxAge⟩ := unrecorded
  unfold IceflowProducer.pushData
  split
  · exact ⟨timestamps, idleSince, maxAge⟩
  · dsimp only [getNextPartitionNumber]
    split <;> exact ⟨timestamps, idleSince, maxAge⟩

theorem run_unrecorded {state : IceflowProducer × SVSPubSub} (unrecorded : Unrecorded state.1)
    (history : List (Timed Bytes)) : Unrecorded (Transition.run perform state history).1 := by
  apply Transition.run_invariant (P := fun state : IceflowProducer × SVSPubSub =>
    Unrecorded state.1)
  · rintro state (⟨data, time⟩ | now) unrecorded
    · exact unrecorded.pushData state.2 data
    · refine ⟨?_, unrecorded.idleSince, unrecorded.maxAge⟩
      rw [perform, getProductionStats, unrecorded.timestamps]
      rfl
  · exact unrecorded

/-- What a query reports is right exactly when nothing was pushed within the maximum age
and as much time has passed since the epoch as since the last push. -/
theorem getProductionStats_iff {svs : SVSPubSub} {nodePrefix syncPrefix edge : String}
    {numberOfPartitions : UInt32} {generator : Stream' UInt32} {state : IceflowProducer × SVSPubSub}
    (constructed : construct svs nodePrefix syncPrefix edge numberOfPartitions generator =
      .ok state) (start : Int) (history : List (Timed Bytes)) :
    ∀ first now rest, history = first ++ .query now :: rest →
      let stats := ((Transition.run perform state first).1.getProductionStats now).1
      Reports stats.unitsProduced stats.idleTime (eventTimes first) (lastTime start first) now ↔
        (∀ time ∈ eventTimes first, oneSecond < now - time) ∧
          UInt64.ofInt (now.tdiv 1000000) = wholeMilliseconds (lastTime start first) now := by
  rintro first now rest rfl
  have unrecorded := run_unrecorded (unrecorded_of_construct constructed) first
  have sinceEpoch : determineIdleTime 0 now = UInt64.ofInt (now.tdiv 1000000) := by
    rw [determineIdleTime, Int.sub_zero]
  simp only [getProductionStats, unrecorded.timestamps, unrecorded.idleSince, sinceEpoch]
  rw [← recent_eq_zero]
  constructor
  · rintro ⟨units, idle⟩
    exact ⟨units.symm, idle⟩
  · rintro ⟨none, idle⟩
    exact ⟨none.symm, idle⟩

end IceflowProducer
end

section
open Timed
open scoped Iceflow.Reference

/-- An item is consumed at the construction, and the statistics are queried two seconds
later. -/
def staleItem : List (Timed Unit) := [.event () 0, .query 2000000000]

theorem ordered_staleItem : Ordered 0 staleItem := by decide

theorem getConsumptionStats_iff_staleItem :
    let stats := ((Transition.run IceflowConsumer.perform
      (IceflowConsumer.construct "WordCount" "t2l" 0 : IceflowConsumer Unit)
        [.event () 0]).getConsumptionStats 2000000000).1
    Reports stats.unitsConsumed stats.idleTime [0] 0 2000000000 ↔
      2 ^ 64 ∣ older 2000000000 [0] ∧ recent 2000000000 [0] < 2 ^ 64 :=
  IceflowConsumer.getConsumptionStats_iff "WordCount" "t2l" ordered_staleItem
    [.event () 0] 2000000000 [] rfl

/-- The item is still counted. -/
theorem staleItem_counted :
    ¬∀ (syncPrefix edge : String) (start : Int) (history : List (Timed Unit)),
      Ordered start history → ∀ first now rest, history = first ++ .query now :: rest →
        let stats := ((Transition.run IceflowConsumer.perform
          (IceflowConsumer.construct syncPrefix edge start : IceflowConsumer Unit)
            first).getConsumptionStats now).1
        Reports stats.unitsConsumed stats.idleTime (eventTimes first) (lastTime start first)
          now := by
  intro claim
  have reports := claim "WordCount" "t2l" 0 staleItem ordered_staleItem [.event () 0] 2000000000 []
    rfl
  have units : (1 : Nat) = 0 := reports.units
  cases units

/-- An item is pushed five seconds after the epoch, and the statistics are queried. -/
def freshItem : List (Timed Bytes) := [.event [104] 5000000000, .query 5000000000]

theorem construct_t2l : ∃ state, IceflowProducer.construct wordCountSvs "/node-WordCount/1"
    "WordCount" "t2l" 3 (Stream'.const 0) = .ok state := construct_wordCount (Stream'.const 0)

theorem getProductionStats_iff_freshItem : ∃ state,
    let stats := ((Transition.run IceflowProducer.perform state
      [.event [104] 5000000000]).1.getProductionStats 5000000000).1
    Reports stats.unitsProduced stats.idleTime [5000000000] 5000000000 5000000000 ↔
      (∀ time ∈ [5000000000], oneSecond < 5000000000 - time) ∧
        UInt64.ofInt ((5000000000 : Int).tdiv 1000000) =
          wholeMilliseconds 5000000000 5000000000 := by
  obtain ⟨state, constructed⟩ := construct_t2l
  exact ⟨state, IceflowProducer.getProductionStats_iff constructed 5000000000 freshItem
    [.event [104] 5000000000] 5000000000 [] rfl⟩

/-- The item is not counted, and the producer seems to have been idle since the epoch. -/
theorem freshItem_missed :
    ¬∀ (generator : Stream' UInt32) (state : IceflowProducer × SVSPubSub) (start : Int)
        (history : List (Timed Bytes)),
      IceflowProducer.construct wordCountSvs "/node-WordCount/1" "WordCount" "t2l" 3 generator =
        .ok state → Ordered start history →
      ∀ first now rest, history = first ++ .query now :: rest →
        let stats := ((Transition.run IceflowProducer.perform state first).1.getProductionStats
          now).1
        Reports stats.unitsProduced stats.idleTime (eventTimes first) (lastTime start first)
          now := by
  intro claim
  obtain ⟨state, constructed⟩ := construct_t2l
  have reports := claim (Stream'.const 0) state 5000000000 freshItem constructed (by decide)
    [.event [104] 5000000000] 5000000000 [] rfl
  have unrecorded := IceflowProducer.run_unrecorded
    (IceflowProducer.unrecorded_of_construct constructed) [.event [104] 5000000000]
  have units := reports.units
  simp only [IceflowProducer.getProductionStats, unrecorded.timestamps] at units
  have none : (0 : Nat) = 1 := units
  cases none

end
end Iceflow
