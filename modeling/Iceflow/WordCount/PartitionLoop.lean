import Iceflow.WordCount.ConsumerPartitions

/-! The loop of `createConsumerPartitions` on its own. Its counter has 32 bits and its
bound is inclusive, so it does what its comment says exactly while no step wraps. -/
namespace Iceflow.WordCount

/-- The first of the numbers `consumerIndex + k * numberOfConsumers` that is above the
bound, as an exact integer. -/
def firstAbove (highestPartitionNumber consumerIndex numberOfConsumers : UInt32) : Nat :=
  if highestPartitionNumber < consumerIndex then consumerIndex.toNat
  else consumerIndex.toNat +
    ((highestPartitionNumber.toNat - consumerIndex.toNat) / numberOfConsumers.toNat + 1) *
      numberOfConsumers.toNat

/-- The list is increasing and has exactly the numbers of the progression from `start`
up to the bound. -/
structure EveryNth (highest start n : Nat) (partitions : List UInt32) : Prop where
  increasing : partitions.Pairwise (· < ·)
  members : ∀ p, p ∈ partitions.map UInt32.toNat ↔ p ≤ highest ∧ ∃ k, p = start + k * n

/-- The loop ends, and with this list. -/
def CreatesEveryNth (highestPartitionNumber consumerIndex numberOfConsumers : UInt32) : Prop :=
  ∃ rounds partitions,
    (∀ fuel, rounds ≤ fuel → createConsumerPartitions fuel highestPartitionNumber consumerIndex
      numberOfConsumers = some partitions) ∧
    EveryNth highestPartitionNumber.toNat consumerIndex.toNat numberOfConsumers.toNat partitions

variable {highest i n : UInt32}

/-- No step from a number within the bound leaves the 32 bits. -/
def StepsFit (highest start n : Nat) : Prop :=
  ∀ k, start + k * n ≤ highest → start + (k + 1) * n < 2 ^ 32

theorem stepsFit_iff_firstAbove (positive : 0 < n.toNat) :
    StepsFit highest.toNat i.toNat n.toNat ↔ firstAbove highest i n < 2 ^ 32 := by
  unfold firstAbove
  split_ifs with above
  · rw [UInt32.lt_iff_toNat_lt] at above
    have room := i.toNat_lt
    constructor
    · intro _
      exact room
    · intro _ k inside
      omega
  · rw [UInt32.lt_iff_toNat_lt, not_lt] at above
    constructor
    · intro fits
      have last := Nat.div_mul_le_self (highest.toNat - i.toNat) n.toNat
      exact fits _ (by omega)
    · intro fits k inside
      have rounds : k ≤ (highest.toNat - i.toNat) / n.toNat :=
        (Nat.le_div_iff_mul_le positive).mpr (by omega)
      have step := Nat.mul_le_mul_right n.toNat (Nat.succ_le_succ rounds)
      exact lt_of_le_of_lt (Nat.add_le_add_left step _) fits

theorem EveryNth.nil {highest start n : Nat} (above : highest < start) :
    EveryNth highest start n [] where
  increasing := List.Pairwise.nil
  members p := by
    constructor
    · rintro ⟨⟩
    · rintro ⟨inside, k, rfl⟩
      omega

theorem EveryNth.cons {rest : List UInt32} (inside : i.toNat ≤ highest.toNat)
    (positive : 0 < n.toNat)
    (later : EveryNth highest.toNat (i.toNat + n.toNat) n.toNat rest) :
    EveryNth highest.toNat i.toNat n.toNat (i :: rest) where
  increasing := by
    refine List.Pairwise.cons ?_ later.increasing
    intro p member
    obtain ⟨-, k, value⟩ := (later.members p.toNat).mp (List.mem_map_of_mem member)
    rw [UInt32.lt_iff_toNat_lt]
    omega
  members p := by
    rw [List.map_cons, List.mem_cons, later.members]
    constructor
    · rintro (rfl | ⟨below, k, rfl⟩)
      · exact ⟨inside, 0, by omega⟩
      · exact ⟨below, k + 1, by rw [Nat.add_mul]; omega⟩
    · rintro ⟨below, k, rfl⟩
      cases k with
      | zero => exact Or.inl (by omega)
      | succ k => exact Or.inr ⟨below, k, by rw [Nat.add_mul]; omega⟩

theorem StepsFit.next {highest start n : Nat} (fits : StepsFit highest start n) :
    StepsFit highest (start + n) n := by
  intro k inside
  have later := fits (k + 1) (by rw [Nat.add_mul]; omega)
  rw [Nat.add_mul] at later
  omega

theorem createConsumerPartitions.loop_above (above : highest.toNat < i.toNat) {fuel : Nat}
    (enough : 0 < fuel) : loop highest n fuel i = some [] := by
  obtain ⟨fuel, rfl⟩ := Nat.exists_eq_add_one.mpr enough
  have outside : ¬i ≤ highest := by
    rw [UInt32.le_iff_toNat_le]
    omega
  rw [loop, if_neg outside]

theorem toNat_next (small : i.toNat + n.toNat < 2 ^ 32) :
    (i + n).toNat = i.toNat + n.toNat := by
  rw [UInt32.toNat_add, Nat.mod_eq_of_lt small]

/-- While no step wraps, each round brings the counter closer to the bound. -/
theorem createConsumerPartitions.loop_ends (positive : 0 < n.toNat) {rounds : Nat}
    (near : highest.toNat < i.toNat + rounds) (fits : StepsFit highest.toNat i.toNat n.toNat) :
    ∃ partitions, (∀ fuel, rounds < fuel → loop highest n fuel i = some partitions) ∧
      EveryNth highest.toNat i.toNat n.toNat partitions := by
  induction rounds generalizing i with
  | zero => exact ⟨[], fun fuel enough => loop_above near enough, .nil near⟩
  | succ rounds ih =>
    by_cases inside : i ≤ highest
    · have bound := UInt32.le_iff_toNat_le.mp inside
      have small := fits 0 (by omega)
      have next : (i + n).toNat = i.toNat + n.toNat := toNat_next (by omega)
      obtain ⟨rest, ended, later⟩ := ih (by omega) (next ▸ fits.next)
      rw [next] at later
      refine ⟨i :: rest, ?_, .cons bound positive later⟩
      intro fuel enough
      obtain ⟨fuel, rfl⟩ := Nat.exists_eq_add_one.mpr (Nat.zero_lt_of_lt enough)
      rw [loop, if_pos inside, ended fuel (by omega), Option.map_some]
    · have above : highest.toNat < i.toNat := by
        rw [UInt32.le_iff_toNat_le] at inside
        omega
      exact ⟨[], fun fuel enough => loop_above above (Nat.zero_lt_of_lt enough), .nil above⟩

/-- After a step that wraps the counter is below its old value and so within the bound
again: the list goes down there. -/
theorem createConsumerPartitions.stepsFit_of_increasing {fuel : Nat} {partitions : List UInt32}
    (returned : loop highest n fuel i = some partitions)
    (increasing : partitions.Pairwise (· < ·)) :
    StepsFit highest.toNat i.toNat n.toNat := by
  induction fuel generalizing i partitions with
  | zero => contradiction
  | succ fuel ih =>
    rw [loop] at returned
    split at returned
    · rename_i inside
      obtain ⟨rest, found, rfl⟩ := Option.map_eq_some_iff.mp returned
      obtain ⟨first, later⟩ := List.pairwise_cons.mp increasing
      have bound := UInt32.le_iff_toNat_le.mp inside
      have room := n.toNat_lt
      have small : i.toNat + n.toNat < 2 ^ 32 := by
        by_contra wraps
        have wrapped : (i + n).toNat + 2 ^ 32 = i.toNat + n.toNat := by
          rw [UInt32.toNat_add]
          have below := i.toNat_lt
          omega
        cases fuel with
        | zero => contradiction
        | succ fuel =>
          have again : i + n ≤ highest := by
            rw [UInt32.le_iff_toNat_le]
            omega
          rw [loop, if_pos again] at found
          obtain ⟨_, _, rfl⟩ := Option.map_eq_some_iff.mp found
          have less := UInt32.lt_iff_toNat_lt.mp (first (i + n) List.mem_cons_self)
          omega
      have fits := ih found later
      rw [toNat_next small] at fits
      intro k below
      cases k with
      | zero => omega
      | succ k =>
        have after := fits k (by rw [Nat.add_mul] at below; omega)
        rw [Nat.add_mul]
        omega
    · rename_i outside
      rw [UInt32.le_iff_toNat_le] at outside
      intro k below
      omega

/-- The list is the promised one exactly if the first number above the bound still has
32 bits. -/
theorem createsEveryNth_iff (highestPartitionNumber consumerIndex numberOfConsumers : UInt32)
    (positive : 1 ≤ numberOfConsumers) :
    CreatesEveryNth highestPartitionNumber consumerIndex numberOfConsumers ↔
      firstAbove highestPartitionNumber consumerIndex numberOfConsumers < 2 ^ 32 := by
  have steps : 0 < numberOfConsumers.toNat := UInt32.le_iff_toNat_le.mp positive
  rw [← stepsFit_iff_firstAbove steps]
  constructor
  · rintro ⟨rounds, partitions, ended, every⟩
    exact createConsumerPartitions.stepsFit_of_increasing (ended rounds le_rfl) every.increasing
  · intro fits
    have near : highestPartitionNumber.toNat <
        consumerIndex.toNat + (highestPartitionNumber.toNat + 1) := by omega
    obtain ⟨partitions, ended, every⟩ :=
      createConsumerPartitions.loop_ends steps near fits
    exact ⟨_, partitions, fun fuel enough => ended fuel enough, every⟩

theorem createsEveryNth_t2l : (1 : UInt32) ≤ 2 ∧ CreatesEveryNth 3 1 2 :=
  ⟨by decide, (createsEveryNth_iff 3 1 2 (by decide)).mpr (by decide)⟩

/-- A list that goes down: every step from 5 wraps by 2. -/
example : createConsumerPartitions 4 10 5 4294967294 = some [5, 3, 1] := rfl

/-- No counter is above the highest bound, so with it the loop never ends. -/
theorem createConsumerPartitions.loop_highest (n : UInt32) (fuel : Nat) (i : UInt32) :
    loop 4294967295 n fuel i = none := by
  induction fuel generalizing i with
  | zero => rfl
  | succ fuel ih =>
    have inside : i ≤ 4294967295 := by
      rw [UInt32.le_iff_toNat_le]
      exact Nat.le_of_lt_succ i.toNat_lt
    rw [loop, if_pos inside, ih, Option.map_none]

theorem parseEdge_maxPartitions (maxPartitions : UInt32) :
    DAGParser.parseEdge (.object [("id", .string "t2l"), ("target", .string "2"),
      ("maxPartitions", .unsigned maxPartitions.toUInt64)]) =
      .ok ⟨"t2l", "2", maxPartitions, []⟩ := by
  have number : UInt32.ofInt (maxPartitions.toUInt64.toNat : Int) = maxPartitions := by
    have below := maxPartitions.toNat_lt
    have value : ((maxPartitions.toNat : Int) % 2 ^ 32).toNat = maxPartitions.toNat := by omega
    rw [UInt32.toNat_toUInt64, UInt32.ofInt, value, UInt32.ofNat_toNat]
  exact congrArg (fun n => Except.ok (Edge.mk "t2l" "2" n [])) number

/-- With such an edge no instance gets to its event loop. -/
theorem run_highest {μ : Type} {upstreamEdge : Edge}
    (highest : upstreamEdge.maxPartitions = 4294967295) (prosumerCallback : ProsumerCallback μ)
    (fuel : Nat) (consumerIndex numberOfConsumers : UInt32) :
    run fuel upstreamEdge prosumerCallback consumerIndex numberOfConsumers = none := by
  rw [run, createConsumerPartitions, highest, createConsumerPartitions.loop_highest]
  rfl

theorem highest_bound_never_ends :
    ¬∀ highestPartitionNumber consumerIndex numberOfConsumers : UInt32, 1 ≤ numberOfConsumers →
      CreatesEveryNth highestPartitionNumber consumerIndex numberOfConsumers := by
  intro claim
  obtain ⟨rounds, partitions, ended, -⟩ := claim 4294967295 1 2 (by decide)
  have never := createConsumerPartitions.loop_highest 2 rounds 1
  exact absurd (never.symm.trans (ended rounds le_rfl)) (Option.some_ne_none _).symm

end Iceflow.WordCount
