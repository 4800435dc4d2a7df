import Iceflow.Node

/-! What an application reads of its node: edges by their index, and parameters of the
application configuration. -/
namespace Iceflow

/-- What a program of the application stops with: an exception of the library,
`std::bad_optional_access` or `std::out_of_range`. -/
inductive ProgramError where
  | library (e : Exception)
  | badOptionalAccess
  | outOfRange
  deriving DecidableEq

/-- `std::optional::value` -/
def optionalValue {α : Type} : Option α → Except ProgramError α
  | some value => .ok value
  | none => .error .badOptionalAccess

theorem optionalValue_ok {α : Type} {value : Option α} {a : α} :
    optionalValue value = .ok a ↔ value = some a := by
  cases value <;> simp [optionalValue]

namespace IceFlow

/-- The sum has 32 bits, and `at` checks the index. -/
def edgeAt (edges : List Edge) (index : UInt32) : Except ProgramError (Option Edge) :=
  if (index + 1).toNat ≤ edges.length then
    match edges[index.toNat]? with
    | some edge => .ok (some edge)
    | none => .error .outOfRange
  else .ok none

/-- The guard lets an index through for which `at` throws only where the sum wraps. -/
theorem edgeAt_eq_iff (edges : List Edge) (index : UInt32) :
    edgeAt edges index = .ok edges[index.toNat]? ↔
      index ≠ 4294967295 ∨ index.toNat < edges.length := by
  have below := index.toNat_lt
  have sum : (index + 1).toNat = (index.toNat + 1) % 2 ^ 32 := UInt32.toNat_add index 1
  have highest : index = 4294967295 ↔ index.toNat = 2 ^ 32 - 1 := UInt32.toNat_inj.symm
  rw [Ne, highest, edgeAt, sum]
  by_cases inside : index.toNat < edges.length
  · rw [if_pos (by omega), List.getElem?_eq_getElem inside]
    simp [inside]
  · rw [List.getElem?_eq_none (Nat.le_of_not_lt inside)]
    by_cases wraps : index.toNat = 2 ^ 32 - 1
    · rw [wraps, if_pos (by omega)]
      simp only [not_true_eq_false, false_or, reduceCtorEq, false_iff]
      omega
    · rw [if_neg (by omega)]
      exact iff_of_true rfl (Or.inl wraps)

theorem edgeAt_zero (edges : List Edge) : edgeAt edges 0 = .ok edges[0]? :=
  (edgeAt_eq_iff edges 0).mpr (Or.inl (by decide))

variable [Platform] {μ : Type}

def getDownstreamEdge (n : IceFlow μ) (index : UInt32) : Except ProgramError (Option Edge) :=
  edgeAt n.downstreamEdges index

def getUpstreamEdge (n : IceFlow μ) (index : UInt32) : Except ProgramError (Option Edge) :=
  edgeAt n.upstreamEdges index

def getApplicationConfiguration (n : IceFlow μ) : List (String × Json) :=
  n.node.applicationConfiguration

/-- `getApplicationParameter<T>`, with the conversion to `T`; what it throws is caught. -/
def getApplicationParameter {T : Type} (get : Json → Except Exception T) (n : IceFlow μ)
    (key : String) : Option T :=
  (n.getApplicationConfiguration.lookup key).bind (fun value => (get value).toOption)

end IceFlow
end Iceflow
