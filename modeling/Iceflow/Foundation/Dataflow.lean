import Mathlib.Data.Multiset.Bind
import Mathlib.Order.WellFounded

/-! Dataflow over a graph of edges. The tokens on an edge are those that are put in there and
those that the tokens on its input edges are made into, in no particular order. If no edge
feeds itself, directly or through others, these equations have one solution. -/
namespace Dataflow
variable {κ α β : Type*}

structure Graph (κ α : Type*) where
  inputs : κ → Multiset κ
  source : κ → Multiset α
  /-- What a token on an input edge is made into on an edge. -/
  output : κ → κ → α → Multiset α

namespace Graph
variable (g : Graph κ α)

def Solves (edges : Set κ) (flow : κ → Multiset α) : Prop :=
  ∀ e ∈ edges, flow e =
    g.source e + (g.inputs e).bind (fun d => (flow d).bind (g.output d e))

abbrev Acyclic : Prop := WellFounded (fun d e => d ∈ g.inputs e)

variable {g}

/-- The tokens on each edge, from the input edges on. -/
noncomputable def denote (acyclic : g.Acyclic) : κ → Multiset α :=
  acyclic.fix (fun e flow => g.source e +
    (g.inputs e).attach.bind (fun d => (flow d.1 d.2).bind (g.output d.1 e)))

theorem denote_eq (acyclic : g.Acyclic) (e : κ) : denote acyclic e =
    g.source e + (g.inputs e).bind (fun d => (denote acyclic d).bind (g.output d e)) := by
  rw [denote, WellFounded.fix_eq, ← denote]
  congr 1
  exact Multiset.attach_bind_coe _ (fun d => (denote acyclic d).bind (g.output d e))

/-- On edges that contain their inputs, the equations have one solution. -/
theorem solves_iff (acyclic : g.Acyclic) {edges : Set κ}
    (closed : ∀ e ∈ edges, ∀ d ∈ g.inputs e, d ∈ edges) {flow : κ → Multiset α} :
    g.Solves edges flow ↔ ∀ e ∈ edges, flow e = denote acyclic e := by
  constructor
  · intro solves e
    induction e using acyclic.induction with
    | _ e ih =>
      intro listed
      rw [solves e listed, denote_eq]
      congr 1
      apply Multiset.bind_congr
      intro d member
      rw [ih d member (closed e listed d member)]
  · intro same e listed
    rw [same e listed, denote_eq]
    congr 1
    apply Multiset.bind_congr
    intro d member
    rw [same d (closed e listed d member)]

end Graph

/-- Tokens are sorted by the keys that they have, and no others give anything. -/
theorem bind_keys [DecidableEq κ] {keys : Multiset κ} (nodup : keys.Nodup) (key : α → κ)
    {tokens : Multiset α} {f : α → Multiset β} (others : ∀ x ∈ tokens, key x ∉ keys → f x = 0) :
    tokens.bind f = keys.bind (fun k => (tokens.filter (fun x => key x = k)).bind f) := by
  have swapped : keys.bind (fun k => (tokens.filter (fun x => key x = k)).bind f) =
      tokens.bind (fun x => keys.bind (fun k => if key x = k then f x else 0)) := by
    rw [Multiset.bind_bind]
    exact Multiset.bind_congr (fun k _ => Multiset.bind_filter tokens _ f)
  rw [swapped]
  apply Multiset.bind_congr
  intro x member
  rw [← Multiset.bind_filter keys (fun k => key x = k) (fun _ => f x), Multiset.filter_eq]
  by_cases keyed : key x ∈ keys
  · rw [Multiset.count_eq_one_of_mem nodup keyed]
    simp
  · rw [Multiset.count_eq_zero_of_notMem keyed, others x member keyed]
    simp

end Dataflow
