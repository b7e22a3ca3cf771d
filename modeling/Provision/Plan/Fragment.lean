import Provision.Traced
/-!
# Fragments of the mount script

A fragment has two parts: what makes devices appear, in order, and what is mounted, by path.  Putting fragments together
appends the first parts; of two mounts on one path the later one stands at the place of the earlier, and is reported.
-/
namespace Provision

abbrev ByPath (μ : Type) := List (String × μ)

namespace ByPath

variable {μ : Type}

def contains (ms : ByPath μ) (path : String) : Bool := ms.any (fun m => m.1 == path)

def put : ByPath μ → String → μ → ByPath μ
  | [], path, m => [(path, m)]
  | e :: es, path, m => if e.1 = path then (path, m) :: es else e :: put es path m

def get? (ms : ByPath μ) (path : String) : Option μ := (ms.find? (fun m => m.1 == path)).map (·.2)

theorem get?_put_self (ms : ByPath μ) (path : String) (m : μ) : get? (put ms path m) path = some m := by
  induction ms with
  | nil => simp [put, get?]
  | cons e es ih =>
    by_cases h : e.1 = path
    · simp [put, get?, h]
    · simp only [put, h, if_false]
      simpa [get?, h] using ih

theorem get?_put_of_ne (ms : ByPath μ) {path other : String} (m : μ) (h : other ≠ path) :
    get? (put ms path m) other = get? ms other := by
  induction ms with
  | nil => simp [put, get?, h.symm]
  | cons e es ih =>
    by_cases he : e.1 = path
    · subst he
      simp [put, get?, h.symm]
    · by_cases ho : e.1 = other
      · simp [put, get?, ho, h]
      · simp only [put, he, if_false]
        simpa [get?, ho] using ih

def sorted (ms : ByPath μ) : ByPath μ := ms.mergeSort (fun a b => a.1 ≤ b.1)

end ByPath

structure Fragment (σ μ : Type) where
  activation : List σ
  mounts : ByPath μ

namespace Fragment

variable {σ μ : Type}

def empty : Fragment σ μ := ⟨[], []⟩

def addMounts (acc : ByPath μ) : ByPath μ → Logged (ByPath μ)
  | [] => pure acc
  | (path, m) :: rest => do
    if acc.contains path then
      logWarning ("Mount path " ++ path ++ " is declared more than once, keeping the last one")
    addMounts (acc.put path m) rest

def add (acc f : Fragment σ μ) : Logged (Fragment σ μ) := do
  let mounts ← addMounts acc.mounts f.mounts
  return ⟨acc.activation ++ f.activation, mounts⟩

def mergeAll (fs : List (Fragment σ μ)) : Logged (Fragment σ μ) := fs.foldlM add empty

end Fragment

end Provision
