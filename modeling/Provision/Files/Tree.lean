import Provision.Files.Path
/-!
# A tree of files

Files and directories by path.  A directory is there when it was made or when a file lies in it; the directory of relative
paths and the roots are always there.  Looking a path up goes through it name by name, two points leading up.
-/
namespace Provision.Files

structure File where
  bytes : ByteArray
  executable : Bool := false

structure Tree where
  files : List (Path × File) := []
  directories : List Path := []

inductive Found where
  | file (path : Path) (file : File)
  | directory (path : Path)
  /-- The last name is not there. -/
  | missing (path : Path)
  /-- A name before the last is not there. -/
  | noWay
  /-- A name before the last is that of a file. -/
  | notDirectory
  | tooLong
  /-- No path has such a name. -/
  | invalid

namespace Found

def refusal? : Found → Option String
  | file _ _ | invalid => none
  | missing _ | noWay => some "[Errno 2] No such file or directory"
  | notDirectory => some "[Errno 20] Not a directory"
  | directory _ => some "[Errno 21] Is a directory"
  | tooLong => some "[Errno 36] File name too long"

end Found

namespace Tree

def file? (t : Tree) (p : Path) : Option File := (t.files.find? (fun e => e.1 == p)).map (·.2)

def isBelow (above below : Path) : Bool :=
  above.root == below.root && above.names.length < below.names.length && above.names.isPrefixOf below.names

def isDirectory (t : Tree) (p : Path) : Bool :=
  p.names.all (· == "..") || t.directories.any (fun d => d == p || isBelow p d) || t.files.any (fun e => isBelow p e.1)

/-- What stands at a path itself. -/
def at? (t : Tree) (p : Path) : Found :=
  match t.file? p with
  | some f => .file p f
  | none => if t.isDirectory p then .directory p else .missing p

/-- The directory above one; above the directory of relative paths there are others, above a root there is none. -/
def above (p : Path) : Path := if p.isRelative && p.names.all (· == "..") then p.child ".." else p.parent

def maxName : Nat := 255

def maxPath : Nat := 4095

def walk (t : Tree) (found : Found) : List String → Found
  | [] => found
  | name :: names =>
    match found with
    | .directory p =>
      if maxName < name.utf8ByteSize then .tooLong
      else walk t (t.at? (if name = ".." then above p else p.child name)) names
    | .file _ _ => .notDirectory
    | .missing _ => .noWay
    | .noWay => .noWay
    | .notDirectory => .notDirectory
    | .tooLong => .tooLong
    | .invalid => .invalid

def find (t : Tree) (p : Path) : Found :=
  if p.text.toList.contains '\x00' then .invalid
  else if maxPath < p.text.utf8ByteSize then .tooLong
  else t.walk (.directory ⟨p.root, []⟩) p.names

/-- Lists a file: one at the same path is replaced where it stands. -/
def replace : List (Path × File) → Path → File → List (Path × File)
  | [], p, f => [(p, f)]
  | e :: es, p, f => if e.1 = p then (p, f) :: es else e :: replace es p f

def put (t : Tree) (p : Path) (f : File) : Tree := { t with files := replace t.files p f }

/-- A file that was written is found, and all other files are as they were. -/
theorem file?_put (t : Tree) (p q : Path) (f : File) : (t.put p f).file? q = if p = q then some f else t.file? q := by
  obtain ⟨es, ds⟩ := t
  simp only [put, file?]
  induction es with
  | nil => by_cases h : p = q <;> simp [replace, h]
  | cons e es ih =>
    rw [replace]
    split
    · rename_i he
      by_cases h : p = q <;> simp [h, he]
    · rename_i he
      by_cases h : e.1 = q
      · subst h; simp [Ne.symm he]
      · simp only [List.find?_cons, beq_eq_false_iff_ne.2 h]
        exact ih

/-- Makes a directory and those above it; `none` where a file is in the way. -/
def makeDirectories (t : Tree) (p : Path) : Option Tree :=
  (List.range (p.names.length + 1)).foldlM (fun (t : Tree) n =>
    match t.find ⟨p.root, p.names.take n⟩ with
    | .directory _ => some t
    | .missing q => some { t with directories := t.directories ++ [q] }
    | _ => none) t

/-- Writes a text as the content of a file; `none` where the path is a directory or lies in none. -/
def write (t : Tree) (p : Path) (content : String) : Option Tree :=
  match t.find p with
  | .file q f => some (t.put q { f with bytes := content.toUTF8 })
  | .missing q => some (t.put q ⟨content.toUTF8, false⟩)
  | _ => none

def makeExecutable (t : Tree) (p : Path) : Tree :=
  match t.find p with
  | .file q f => t.put q { f with executable := true }
  | _ => t

end Tree

end Provision.Files
