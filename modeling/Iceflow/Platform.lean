import Iceflow.Json
import Iceflow.Foundation.Registry

/-! What the library relies on of ndn-cxx, ndn-svs and `nlohmann::json`. The
packages are parameters: names are lists of components, a subscription handle
is new whenever it is given out, and the JSON text of an unsigned number parses
back to that number. -/
namespace Iceflow
open Registration

class Platform where
  /-- `ndn::name::Component` -/
  Component : Type
  componentDecidableEq : DecidableEq Component
  /-- Number of bytes of a component's value. -/
  size : Component → Nat
  /-- `ndn::Name(uri)`; `none` where it throws. -/
  nameOfUri : String → Option (List Component)
  /-- `Component::fromNumber`, the component that `Name::appendNumber` appends. -/
  fromNumber : UInt64 → Component
  fromNumber_injective : Function.Injective fromNumber
  size_fromNumber : ∀ n, size (fromNumber n) ∈ [1, 2, 4, 8]
  /-- The component that `append("backchannel")` appends. -/
  backchannel : Component
  size_backchannel : size backchannel = 11
  /-- What `SVSPubSub::subscribe` returns. -/
  Handle : Type
  handleDecidableEq : DecidableEq Handle
  allocator : Allocator Handle
  /-- `json::parse`; `none` where it throws. -/
  parseJson : Bytes → Option Json
  /-- `dump()` of a `json` that holds an unsigned number. -/
  dumpUnsigned : UInt64 → Bytes
  parseJson_dumpUnsigned : ∀ n, parseJson (dumpUnsigned n) = some (.unsigned n)

section
variable [Platform]

export Platform (Component Handle)

instance : DecidableEq Component := Platform.componentDecidableEq
instance : DecidableEq Handle := Platform.handleDecidableEq

abbrev Name := List Component

theorem backchannel_ne_fromNumber (n : UInt64) : Platform.backchannel ≠ Platform.fromNumber n := by
  intro same
  have sizes := Platform.size_fromNumber n
  rw [← same, Platform.size_backchannel] at sizes
  exact absurd sizes (by decide)

/-- `ndn::Name(uri)` as a call that may throw. -/
def name (uri : String) : Except Exception Name :=
  match Platform.nameOfUri uri with
  | some name => .ok name
  | none => .error (.nameError uri)

theorem name_ok_iff {uri : String} {n : Name} :
    name uri = .ok n ↔ Platform.nameOfUri uri = some n := by
  unfold name
  cases Platform.nameOfUri uri <;> simp

end
end Iceflow
