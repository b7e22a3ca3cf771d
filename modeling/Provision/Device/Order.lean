import Provision.Device.Ref
/-!
# The order of devices

Edges lead from a producer to the device that consumes it.  `sort` keeps, for each device that waits, the number of its
producers that wait, and always places the earliest listed device that waits for none (`drain`).  Where the edges close a
loop there is no such order, and `cycle?` is the first loop that a depth-first search meets, taking devices in their
listed order and edges in the order in which they were first given.
-/
namespace Provision

structure Edge where
  producer : DeviceRef
  consumer : DeviceRef
  deriving DecidableEq, Repr

namespace Order

def between (devices : List DeviceRef) (edges : List Edge) : List Edge :=
  edges.filter (fun e => devices.contains e.producer && devices.contains e.consumer)

theorem mem_between {devices : List DeviceRef} {edges : List Edge} {e : Edge} :
    e ∈ between devices edges ↔ e ∈ edges ∧ e.producer ∈ devices ∧ e.consumer ∈ devices := by
  simp [between]

/-- The producers of a device, each once, in the order of their first edges. -/
def producers (edges : List Edge) (d : DeviceRef) : List DeviceRef :=
  ((edges.filter (fun e => e.consumer == d)).map (·.producer)).eraseDups

/-- The devices fed by a device, each once, in the order of their first edges. -/
def consumers (edges : List Edge) (d : DeviceRef) : List DeviceRef :=
  ((edges.filter (fun e => e.producer == d)).map (·.consumer)).eraseDups

/-- Where the placing of devices stands: the devices that can be placed, and every other device that waits with the number
of its producers that wait themselves. -/
structure Queue where
  ready : List DeviceRef
  blocked : List (DeviceRef × Nat)

namespace Queue

/-- Before any device is placed, all producers of a device wait. -/
def start (devices : List DeviceRef) (edges : List Edge) : Queue :=
  let counted := devices.map (fun d => (d, (producers edges d).length))
  ⟨(counted.filter (·.2 == 0)).map (·.1), counted.filter (·.2 != 0)⟩

/-- Places a ready device: whatever it feeds waits for one producer less, and is ready when it waits for none. -/
def release (edges : List Edge) (q : Queue) (d : DeviceRef) : Queue :=
  let fed := consumers edges d
  let lowered := q.blocked.map (fun b => if fed.contains b.1 then (b.1, b.2 - 1) else b)
  ⟨q.ready.erase d ++ (lowered.filter (·.2 == 0)).map (·.1), lowered.filter (·.2 != 0)⟩

def length (q : Queue) : Nat := q.ready.length + q.blocked.length

theorem length_release {edges : List Edge} {q : Queue} {d : DeviceRef} (h : d ∈ q.ready) :
    (q.release edges d).length + 1 = q.length := by
  have hsplit (bs : List (DeviceRef × Nat)) :
      (bs.filter (·.2 == 0)).length + (bs.filter (·.2 != 0)).length = bs.length := by
    induction bs with
    | nil => rfl
    | cons b bs ih => cases hb : b.2 <;> simp [hb] at * <;> omega
  have hpos := List.length_pos_of_mem h
  have herase := List.length_erase_of_mem h
  simp only [release, length, List.length_append, List.length_map, Nat.add_assoc, hsplit] at *
  omega

end Queue

/-- Places the earliest listed device that is ready, until none is. -/
def drain (devices : List DeviceRef) (edges : List Edge) (q : Queue) : List DeviceRef :=
  match _h : devices.find? (fun d => q.ready.contains d) with
  | none => []
  | some d => d :: drain devices edges (q.release edges d)
termination_by q.length
decreasing_by
  have hd : d ∈ q.ready := by simpa using List.find?_some _h
  have : (q.release edges d).length + 1 = q.length := Queue.length_release hd
  omega

/-- Searches below a device for an edge back into `path`, the devices that led to it, last first.  `done` are the
devices below which there is no loop.  Paths never repeat a device, so `fuel` bounds their length. -/
def search (edges : List Edge) : Nat → List DeviceRef → List DeviceRef → DeviceRef → Except (List DeviceRef) (List DeviceRef)
  | 0, _, done, _ => .ok done
  | fuel + 1, path, done, d =>
    if path.contains d then .error (d :: (path.takeWhile (· != d)).reverse ++ [d])
    else if done.contains d then .ok done
    else (d :: ·) <$> (consumers edges d).foldlM (fun done c => search edges fuel (d :: path) done c) done

def cycle? (devices : List DeviceRef) (edges : List Edge) : Option (List DeviceRef) :=
  match devices.foldlM (fun done d => search edges (devices.length + 1) [] done d) [] with
  | .error c => some c
  | .ok _ => none

def sort (devices : List DeviceRef) (edges : List Edge) : Except (List DeviceRef) (List DeviceRef) :=
  let edges := between devices edges
  match cycle? devices edges with
  | some c => .error c
  | none => .ok (drain devices edges (.start devices edges))

end Order

end Provision
