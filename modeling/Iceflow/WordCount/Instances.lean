import Iceflow.Foundation.Tiling
import Iceflow.WordCount.PartitionLoop

/-! Which instances of lines2words share the partitions of an edge. Every instance takes each
second partition from its own number on, whatever the number of instances, and gets to its
event loop only if the loop over the partitions ends. -/
namespace Iceflow.WordCount
open Tiling

/-- A loop with step 2 that returns has not wrapped: a step that wraps leads to a number
from which it never ends. -/
theorem createConsumerPartitions.everyNth_of_returned {highest i : UInt32} {fuel : Nat}
    {partitions : List UInt32} (returned : loop highest 2 fuel i = some partitions) :
    EveryNth highest.toNat i.toNat (2 : UInt32).toNat partitions := by
  have two : (2 : UInt32).toNat = 2 := rfl
  induction fuel generalizing i partitions with
  | zero => contradiction
  | succ fuel ih =>
    rw [loop] at returned
    split at returned
    · rename_i inside
      obtain ⟨rest, found, rfl⟩ := Option.map_eq_some_iff.mp returned
      have bound := UInt32.le_iff_toNat_le.mp inside
      have below := highest.toNat_lt
      have sum : (i + 2).toNat = (i.toNat + 2) % 2 ^ 32 := UInt32.toNat_add i 2
      have small : i.toNat + 2 < 2 ^ 32 := by
        by_contra wraps
        by_cases even : i.toNat % 2 = 0
        · rw [loop_even (by omega) (by omega) fuel] at found
          cases found
        · have top : highest = 4294967295 := by
            rw [← UInt32.toNat_inj]
            change highest.toNat = 4294967295
            omega
          rw [top, loop_highest] at found
          cases found
      have next : (i + 2).toNat = i.toNat + (2 : UInt32).toNat := by omega
      exact .cons bound (by decide) (next ▸ ih found)
    · rename_i outside
      cases returned
      rw [UInt32.le_iff_toNat_le] at outside
      exact .nil (by omega)

variable {μ : Type}

theorem Repartitions.mem_iff {upstreamEdge : Edge} {prosumerCallback : ProsumerCallback μ}
    {instanceNumber numberOfInstances : Nat} {partitions : List UInt32}
    (passes : Repartitions upstreamEdge prosumerCallback instanceNumber numberOfInstances
      partitions) :
    partitions.Nodup ∧ ∀ p, p ∈ partitions ↔ p ≤ upstreamEdge.maxPartitions ∧
      instanceNumber ≤ p.toNat ∧ p.toNat % 2 = instanceNumber % 2 := by
  obtain ⟨fuel, index, number, computed⟩ := passes.computed
  have every := createConsumerPartitions.everyNth_of_returned computed
  constructor
  · exact every.increasing.imp (fun less => UInt32.ne_of_lt less)
  · intro p
    have member := every.members p.toNat
    rw [List.mem_map_of_injective (fun _ _ => UInt32.toNat_inj.mp)] at member
    rw [member, number, UInt32.le_iff_toNat_le]
    refine and_congr_right fun _ => ?_
    constructor
    · rintro ⟨k, value⟩
      change p.toNat = instanceNumber + k * 2 at value
      omega
    · rintro ⟨above, parity⟩
      refine ⟨(p.toNat - instanceNumber) / 2, ?_⟩
      change p.toNat = instanceNumber + (p.toNat - instanceNumber) / 2 * 2
      omega

/-- An instance starts with numbers that `std::stoi` takes, if its loop over the partitions
does not wrap. -/
theorem exists_repartitions (upstreamEdge : Edge) (prosumerCallback : ProsumerCallback μ)
    {instanceNumber numberOfInstances : Nat} (number : instanceNumber < 2 ^ 31)
    (instances : numberOfInstances < 2 ^ 31)
    (ends : upstreamEdge.maxPartitions.toNat < 2 ^ 32 - 2) :
    ∃ partitions, Repartitions upstreamEdge prosumerCallback instanceNumber numberOfInstances
      partitions := by
  have read : stoi instanceNumber = some (Int32.ofNat instanceNumber) := if_pos number
  have read' : stoi numberOfInstances = some (Int32.ofNat numberOfInstances) := if_pos instances
  have fits : StepsFit upstreamEdge.maxPartitions.toNat
      (Int32.ofNat instanceNumber).toUInt32.toNat (2 : UInt32).toNat := by
    intro k inside
    change _ + (k + 1) * 2 < 2 ^ 32
    change _ + k * 2 ≤ _ at inside
    omega
  have near : upstreamEdge.maxPartitions.toNat <
      (Int32.ofNat instanceNumber).toUInt32.toNat + (upstreamEdge.maxPartitions.toNat + 1) := by
    omega
  obtain ⟨partitions, ended, _⟩ :=
    createConsumerPartitions.loop_ends (by decide) near fits
  have started : main (upstreamEdge.maxPartitions.toNat + 2) upstreamEdge prosumerCallback
      instanceNumber numberOfInstances =
        some [.registerProsumerCallback upstreamEdge.id prosumerCallback,
          .repartitionConsumer upstreamEdge.id partitions] := by
    simp only [main, read, read', run, createConsumerPartitions, ended _ (Nat.lt_succ_self _),
      Option.bind_eq_bind, Option.bind_some, Option.pure_def]
  exact ⟨partitions, _, _, started, List.mem_cons_of_mem _ List.mem_cons_self⟩

/-- An instance with an even number gets to its event loop only below the two highest bounds. -/
theorem Repartitions.below_of_even {upstreamEdge : Edge} {prosumerCallback : ProsumerCallback μ}
    {instanceNumber numberOfInstances : Nat} {partitions : List UInt32}
    (passes : Repartitions upstreamEdge prosumerCallback instanceNumber numberOfInstances
      partitions) (even : instanceNumber % 2 = 0) :
    upstreamEdge.maxPartitions.toNat < 2 ^ 32 - 2 := by
  obtain ⟨fuel, index, number, computed⟩ := passes.computed
  by_contra high
  rw [createConsumerPartitions,
    createConsumerPartitions.loop_even (not_lt.mp high) (by omega)] at computed
  cases computed

theorem Repartitions.numbers_lt {upstreamEdge : Edge} {prosumerCallback : ProsumerCallback μ}
    {instanceNumber numberOfInstances : Nat} {partitions : List UInt32}
    (passes : Repartitions upstreamEdge prosumerCallback instanceNumber numberOfInstances
      partitions) : instanceNumber < 2 ^ 31 ∧ numberOfInstances < 2 ^ 31 := by
  obtain ⟨fuel, calls, started, _⟩ := passes
  simp only [main, Option.bind_eq_bind, Option.bind_eq_some_iff] at started
  obtain ⟨index, read, instances, read', _⟩ := started
  have taken {number : Nat} {value : Int32} (read : stoi number = some value) :
      number < 2 ^ 31 := by
    by_contra large
    rw [stoi, if_neg large] at read
    cases read
  exact ⟨taken read, taken read'⟩

theorem instances_tile {upstreamEdge : Edge} {prosumerCallback : ProsumerCallback μ}
    {ι : Type} {numbers : ι → Nat} {numberOfInstances : Nat} {lists : ι → List UInt32}
    (passes : ∀ k, Repartitions upstreamEdge prosumerCallback (numbers k) numberOfInstances
      (lists k)) {i j : ι} (zero : numbers i = 0) (one : numbers j = 1)
    (others : ∀ k, k ≠ i → k ≠ j → upstreamEdge.maxPartitions.toNat < numbers k) :
    Tiles (fun p => p < upstreamEdge.maxPartitions) lists := by
  have members (k : ι) := (passes k).mem_iff.2
  have located (k : ι) (p : UInt32) (held : p ∈ lists k) :
      k = if p.toNat % 2 = 0 then i else j := by
    obtain ⟨inside, above, parity⟩ := (members k p).mp held
    rw [UInt32.le_iff_toNat_le] at inside
    by_cases first : k = i
    · rw [if_pos (by rw [parity, first, zero]), first]
    · by_cases second : k = j
      · rw [if_neg (by rw [parity, second, one]; decide), second]
      · have away := others k first second
        omega
  constructor
  · exact fun k => (passes k).mem_iff.1
  · intro k l p held held'
    rw [located k p held, located l p held']
  · intro p wanted
    have below := UInt32.lt_iff_toNat_lt.mp wanted
    by_cases even : p.toNat % 2 = 0
    · exact ⟨i, (members i p).mpr ⟨UInt32.le_iff_toNat_le.mpr (by omega), by omega, by omega⟩⟩
    · exact ⟨j, (members j p).mpr ⟨UInt32.le_iff_toNat_le.mpr (by omega), by omega, by omega⟩⟩

/-- Instances that tile the partitions of an edge with at least two have the numbers 0 and 1,
and all others are above every partition. -/
theorem numbers_of_tiles {upstreamEdge : Edge} {prosumerCallback : ProsumerCallback μ}
    (partitioned : 2 ≤ upstreamEdge.maxPartitions) {ι : Type} {numbers : ι → Nat}
    {numberOfInstances : Nat} {lists : ι → List UInt32}
    (passes : ∀ k, Repartitions upstreamEdge prosumerCallback (numbers k) numberOfInstances
      (lists k)) (tiles : Tiles (fun p => p < upstreamEdge.maxPartitions) lists) :
    ∃ i j, numbers i = 0 ∧ numbers j = 1 ∧
      ∀ k, k ≠ i → k ≠ j → upstreamEdge.maxPartitions.toNat < numbers k := by
  have members (k : ι) := (passes k).mem_iff.2
  have two := UInt32.le_iff_toNat_le.mp partitioned
  have room := upstreamEdge.maxPartitions.toNat_lt
  change 2 ≤ upstreamEdge.maxPartitions.toNat at two
  obtain ⟨i, zero⟩ := tiles.covers 0 (UInt32.lt_iff_toNat_lt.mpr (by change 0 < _; omega))
  obtain ⟨j, one⟩ := tiles.covers 1 (UInt32.lt_iff_toNat_lt.mpr (by change 1 < _; omega))
  obtain ⟨_, above, parity⟩ := (members i 0).mp zero
  obtain ⟨_, above', parity'⟩ := (members j 1).mp one
  change numbers i ≤ 0 at above
  change numbers j ≤ 1 at above'
  change 1 % 2 = numbers j % 2 at parity'
  refine ⟨i, j, by omega, by omega, fun k first second => ?_⟩
  by_contra inside
  -- The instance reads its own number, which one of the two reads as well.
  have small : numbers k < 2 ^ 32 := by omega
  have value : (UInt32.ofNat (numbers k)).toNat = numbers k :=
    UInt32.toNat_ofNat_of_lt' small
  have held : UInt32.ofNat (numbers k) ∈ lists k := by
    rw [members, UInt32.le_iff_toNat_le, value]
    omega
  have shared (l : ι) (below : numbers l ≤ numbers k)
      (same : numbers k % 2 = numbers l % 2) : UInt32.ofNat (numbers k) ∈ lists l := by
    rw [members, UInt32.le_iff_toNat_le, value]
    omega
  by_cases even : numbers k % 2 = 0
  · exact first (tiles.disjoint k i _ held (shared i (by omega) (by omega)))
  · exact second (tiles.disjoint k j _ held (shared j (by omega) (by omega)))

/-- All instances get to their event loops and together read every partition of an edge with
at least two, none twice, exactly if their loops end, `std::stoi` takes their numbers, one of
them has number 0, one has number 1, and all others are above every partition. -/
theorem instances_tile_iff (upstreamEdge : Edge) (prosumerCallback : ProsumerCallback μ)
    (partitioned : 2 ≤ upstreamEdge.maxPartitions) {ι : Type} (numbers : ι → Nat)
    (numberOfInstances : Nat) :
    (∃ lists : ι → List UInt32,
      (∀ k, Repartitions upstreamEdge prosumerCallback (numbers k) numberOfInstances (lists k)) ∧
        Tiles (fun p => p < upstreamEdge.maxPartitions) lists) ↔
      upstreamEdge.maxPartitions.toNat < 2 ^ 32 - 2 ∧ numberOfInstances < 2 ^ 31 ∧
        (∀ k, numbers k < 2 ^ 31) ∧ ∃ i j, numbers i = 0 ∧ numbers j = 1 ∧
          ∀ k, k ≠ i → k ≠ j → upstreamEdge.maxPartitions.toNat < numbers k := by
  constructor
  · rintro ⟨lists, passes, tiles⟩
    obtain ⟨i, j, zero, one, others⟩ := numbers_of_tiles partitioned passes tiles
    exact ⟨(passes i).below_of_even (by rw [zero]), (passes i).numbers_lt.2,
      fun k => (passes k).numbers_lt.1, i, j, zero, one, others⟩
  · rintro ⟨ends, instances, taken, i, j, zero, one, others⟩
    have started (k : ι) := exists_repartitions upstreamEdge prosumerCallback (taken k) instances
      ends
    choose lists passes using started
    exact ⟨lists, passes, instances_tile passes zero one others⟩

/-- The instances 0 and 1 read every partition of the edge from text2lines as shipped; the
instances 1 and 2 of the start scripts do not. -/
theorem instances_tile_iff_t2l : 2 ≤ t2l.maxPartitions ∧
    (∃ lists : Bool → List UInt32,
      (∀ k, Repartitions t2l dropLine (if k then 1 else 0) 2 (lists k)) ∧
        Tiles (fun p => p < t2l.maxPartitions) lists) ∧
    ¬∃ lists : Bool → List UInt32,
      (∀ k, Repartitions t2l dropLine (if k then 2 else 1) 2 (lists k)) ∧
        Tiles (fun p => p < t2l.maxPartitions) lists := by
  have tiled_iff (numbers : Bool → Nat) :=
    instances_tile_iff t2l dropLine (by decide) numbers 2
  refine ⟨by decide, (tiled_iff _).mpr ?_, fun tiled => ?_⟩
  · exact ⟨by decide, by decide, by decide, false, true, rfl, rfl, by decide⟩
  · obtain ⟨_, _, _, i, _, zero, _⟩ := (tiled_iff _).mp tiled
    cases i <;> contradiction

end Iceflow.WordCount
