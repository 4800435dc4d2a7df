import Iceflow.Node

/-! Which partitions an instance of lines2words reads. The instances are started with
the numbers 1 to N and with N. -/
namespace Iceflow.WordCount

/-- The loop of `createConsumerPartitions`; `none` where `fuel` rounds do not end it. -/
def createConsumerPartitions.loop (highestPartitionNumber numberOfConsumers : UInt32) :
    Nat → UInt32 → Option (List UInt32)
  | 0, _ => none
  | fuel + 1, i =>
    if i ≤ highestPartitionNumber then
      (loop highestPartitionNumber numberOfConsumers fuel (i + numberOfConsumers)).map (i :: ·)
    else some []

def createConsumerPartitions (fuel : Nat)
    (highestPartitionNumber consumerIndex numberOfConsumers : UInt32) : Option (List UInt32) :=
  createConsumerPartitions.loop highestPartitionNumber numberOfConsumers fuel consumerIndex

/-- `std::stoi` of a decimal number; `none` where it throws. -/
def stoi (number : Nat) : Option Int32 :=
  if number < 2 ^ 31 then some (Int32.ofNat number) else none

variable {μ : Type}

/-- The calls of `run` before its event loop. The number of consumers is not used. -/
def run (fuel : Nat) (upstreamEdge : Edge) (prosumerCallback : ProsumerCallback μ)
    (consumerIndex _numberOfConsumers : UInt32) : Option (List (Call μ)) := do
  let consumerPartitions ← createConsumerPartitions fuel upstreamEdge.maxPartitions consumerIndex 2
  return [.registerProsumerCallback upstreamEdge.id prosumerCallback,
    .repartitionConsumer upstreamEdge.id consumerPartitions]

def main (fuel : Nat) (upstreamEdge : Edge) (prosumerCallback : ProsumerCallback μ)
    (instanceNumber numberOfInstances : Nat) : Option (List (Call μ)) := do
  let consumerIndex ← stoi instanceNumber
  let numberOfConsumers ← stoi numberOfInstances
  run fuel upstreamEdge prosumerCallback consumerIndex.toUInt32 numberOfConsumers.toUInt32

/-- The instance computes this list and passes it to `repartitionConsumer`. -/
def Repartitions (upstreamEdge : Edge) (prosumerCallback : ProsumerCallback μ)
    (instanceNumber numberOfInstances : Nat) (partitions : List UInt32) : Prop :=
  ∃ fuel calls, main fuel upstreamEdge prosumerCallback instanceNumber numberOfInstances =
    some calls ∧ .repartitionConsumer upstreamEdge.id partitions ∈ calls

/-- The instances 1 to N read every partition that the producer of the edge can draw,
and no partition twice. -/
def EveryPartitionRead (upstreamEdge : Edge) (prosumerCallback : ProsumerCallback μ)
    (numberOfInstances : Nat) : Prop :=
  ∃ lists : Fin numberOfInstances → List UInt32,
    (∀ k, Repartitions upstreamEdge prosumerCallback (k.val + 1) numberOfInstances (lists k)) ∧
    (∀ j k, j ≠ k → (lists j).Disjoint (lists k)) ∧
    ∀ p, p < upstreamEdge.maxPartitions → ∃ k, p ∈ lists k

theorem draws_iff [Platform] (producer : IceflowProducer) (p : UInt32) :
    (∃ generator, ({ producer with
      randomNumberGenerator := generator }).getNextPartitionNumber.1 = p) ↔
      p < producer.numberOfPartitions := by
  constructor
  · rintro ⟨generator, rfl⟩
    exact UInt32.mod_lt _ (UInt32.pos_iff_ne_zero.mpr producer.numberOfPartitions_ne_zero)
  · intro below
    exact ⟨Stream'.const p, UInt32.mod_eq_of_lt below⟩

/-- From an even number the loop passes every even number, so with one of the two
highest bounds it never ends. -/
theorem createConsumerPartitions.loop_even {highest i : UInt32} (high : 2 ^ 32 - 2 ≤ highest.toNat)
    (even : i.toNat % 2 = 0) (fuel : Nat) : loop highest 2 fuel i = none := by
  induction fuel generalizing i with
  | zero => rfl
  | succ fuel ih =>
    have below := i.toNat_lt
    have inside : i ≤ highest := by
      rw [UInt32.le_iff_toNat_le]
      omega
    have next : (i + 2).toNat % 2 = 0 := by
      rw [UInt32.toNat_add]
      change (i.toNat + 2) % 2 ^ 32 % 2 = 0
      omega
    rw [loop, if_pos inside, ih next, Option.map_none]

/-- A list that starts above partition 0 does not contain it: the loop reaches 0 only
by wrapping around, and then it does not end. -/
theorem createConsumerPartitions.zero_not_mem {highest i : UInt32} (positive : i ≠ 0) {fuel : Nat}
    {partitions : List UInt32} (returned : loop highest 2 fuel i = some partitions) :
    0 ∉ partitions := by
  induction fuel generalizing i partitions with
  | zero => contradiction
  | succ fuel ih =>
    rw [loop] at returned
    split at returned
    · rename_i inside
      obtain ⟨rest, found, rfl⟩ := Option.map_eq_some_iff.mp returned
      have next : i + 2 ≠ 0 := by
        intro wrapped
        have value : (i.toNat + 2) % 2 ^ 32 = 0 := by
          have sum := UInt32.toNat_add i 2
          rw [wrapped] at sum
          exact sum.symm
        have below := i.toNat_lt
        rw [UInt32.le_iff_toNat_le] at inside
        have never : loop highest 2 fuel (i + 2) = none :=
          loop_even (by omega) (by rw [wrapped]; rfl) fuel
        rw [never] at found
        cases found
      rw [List.mem_cons, not_or]
      exact ⟨positive.symm, ih next found⟩
    · cases returned
      exact List.not_mem_nil

theorem toNat_of_stoi {number : Nat} {index : Int32} (read : stoi number = some index) :
    index.toUInt32.toNat = number := by
  simp only [stoi] at read
  split at read
  · rename_i small
    cases read
    have bits : (Int32.ofNat number).toUInt32.toNat = number % 2 ^ 32 := rfl
    omega
  · contradiction

theorem Repartitions.computed {upstreamEdge : Edge} {prosumerCallback : ProsumerCallback μ}
    {instanceNumber numberOfInstances : Nat} {partitions : List UInt32}
    (passes : Repartitions upstreamEdge prosumerCallback instanceNumber numberOfInstances
      partitions) :
    ∃ fuel consumerIndex, consumerIndex.toNat = instanceNumber ∧
      createConsumerPartitions fuel upstreamEdge.maxPartitions consumerIndex 2 =
        some partitions := by
  obtain ⟨fuel, calls, started, called⟩ := passes
  simp only [main, Option.bind_eq_bind, Option.bind_eq_some_iff] at started
  obtain ⟨index, read, number, _, ran⟩ := started
  simp only [run, Option.bind_eq_bind, Option.bind_eq_some_iff] at ran
  obtain ⟨computed, found, made⟩ := ran
  cases made
  have same : partitions = computed := by simpa using called
  subst same
  exact ⟨fuel, index.toUInt32, toNat_of_stoi read, found⟩

/-- Partition 0 has no reader among the instances, whatever their number. -/
theorem partition_zero_unread {upstreamEdge : Edge} {prosumerCallback : ProsumerCallback μ}
    {instanceNumber numberOfInstances : Nat} (positive : 1 ≤ instanceNumber)
    {partitions : List UInt32}
    (passes : Repartitions upstreamEdge prosumerCallback instanceNumber numberOfInstances
      partitions) :
    0 ∉ partitions := by
  obtain ⟨fuel, index, number, computed⟩ := passes.computed
  apply createConsumerPartitions.zero_not_mem _ computed
  rintro rfl
  have zero : (0 : UInt32).toNat = 0 := rfl
  omega

theorem never_everyPartitionRead (upstreamEdge : Edge) (prosumerCallback : ProsumerCallback μ)
    (partitioned : 1 ≤ upstreamEdge.maxPartitions) (numberOfInstances : Nat) :
    ¬EveryPartitionRead upstreamEdge prosumerCallback numberOfInstances := by
  rintro ⟨lists, passes, _, covers⟩
  have drawn : 0 < upstreamEdge.maxPartitions := by
    rw [UInt32.lt_iff_toNat_lt]
    exact UInt32.le_iff_toNat_le.mp partitioned
  obtain ⟨k, read⟩ := covers 0 drawn
  exact partition_zero_unread (Nat.le_add_left 1 k.val) (passes k) read

/-- The edge from text2lines as shipped, and a callback that drops every line. -/
def t2l : Edge := ⟨"t2l", "2", 3, []⟩

def dropLine : ProsumerCallback Unit := fun memory _ _ => .done memory

theorem never_everyPartitionRead_t2l : 1 ≤ t2l.maxPartitions ∧
    ¬EveryPartitionRead t2l dropLine 2 :=
  ⟨by decide, never_everyPartitionRead t2l dropLine (by decide) 2⟩

example : main 4 t2l dropLine 1 2 = some
    [.registerProsumerCallback "t2l" dropLine, .repartitionConsumer "t2l" [1, 3]] := rfl

example : main 4 t2l dropLine 2 2 = some
    [.registerProsumerCallback "t2l" dropLine, .repartitionConsumer "t2l" [2]] := rfl

/-- The two instances of the start scripts leave partition 0 of t2l without a reader. -/
theorem start_scripts_skip_zero :
    ¬∀ (upstreamEdge : Edge) (prosumerCallback : ProsumerCallback Unit) (numberOfInstances : Nat),
      1 ≤ upstreamEdge.maxPartitions → 1 ≤ numberOfInstances →
        EveryPartitionRead upstreamEdge prosumerCallback numberOfInstances := by
  intro claim
  obtain ⟨lists, passes, _, covers⟩ := claim t2l dropLine 2 (by decide) (by decide)
  obtain ⟨k, read⟩ := covers 0 (by decide)
  exact partition_zero_unread (Nat.le_add_left 1 k.val) (passes k) read

end Iceflow.WordCount
