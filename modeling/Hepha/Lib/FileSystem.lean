import Mathlib.Data.Nat.Notation
import Mathlib.Logic.Function.Basic
import Mathlib.Tactic.Common

/-!
# File systems with hard links

A file system has a node at each path that exists.  The node of a file is its
inode, and the contents belong to the inode, so that two links to one inode show
the same contents, also after a write.  The operations are those of one
directory tree without symbolic links, each of them atomic: it has its whole
effect or fails with an error code and has none.

The rules say what each operation requires and changes.  `OnlyAt` is the state
of a file that has one link, so that whoever writes it changes nothing else.
-/

namespace Hepha

inductive FileNode
  | directory
  | file (inode : ℕ)
deriving DecidableEq, Repr

/-- The error codes `EEXIST` and `ENOENT`, and all others. -/
inductive Errno
  | exists
  | missing
  | other
deriving DecidableEq, Repr

/-- The nodes at the paths below the root, the contents of the inodes, and the
first inode that has not been used. -/
structure FileSystem (σ α : Type*) where
  entry : List σ → Option FileNode
  content : ℕ → α
  fresh : ℕ

namespace FileSystem

variable {σ α : Type*} [DecidableEq σ]

/-- The path is the root or a directory. -/
def hasDirectory (fs : FileSystem σ α) (path : List σ) : Bool :=
  path.isEmpty || fs.entry path == some .directory

def setEntry (fs : FileSystem σ α) (path : List σ) (node : Option FileNode) : FileSystem σ α :=
  { fs with entry := Function.update fs.entry path node }

/-- The file system with a new node, which needs a directory and a free name. -/
def create (fs : FileSystem σ α) (path : List σ) (node : FileNode) :
    Except Errno (FileSystem σ α) :=
  if fs.entry path ≠ none then .error .exists
  else if fs.hasDirectory path.dropLast then .ok (fs.setEntry path (some node))
  else .error .missing

def mkdir (fs : FileSystem σ α) (path : List σ) : Except Errno (FileSystem σ α) :=
  fs.create path .directory

def lstat (fs : FileSystem σ α) (path : List σ) : Except Errno FileNode :=
  (fs.entry path).elim (.error .missing) .ok

/-- Opens a file that must not exist, with its inode. -/
def openExclusive [Inhabited α] (fs : FileSystem σ α) (path : List σ) :
    Except Errno (ℕ × FileSystem σ α) :=
  (fs.create path (.file fs.fresh)).map fun fs' =>
    (fs.fresh, { fs' with
      content := Function.update fs.content fs.fresh default, fresh := fs.fresh + 1 })

/-- Replaces the contents of an inode. -/
def write (fs : FileSystem σ α) (inode : ℕ) (text : α) : FileSystem σ α :=
  { fs with content := Function.update fs.content inode text }

def read (fs : FileSystem σ α) (path : List σ) : Except Errno α :=
  match fs.entry path with
  | none => .error .missing
  | some .directory => .error .other
  | some (.file inode) => .ok (fs.content inode)

/-- A second link to a file, at a path that must not exist. -/
def link (fs : FileSystem σ α) (existing path : List σ) : Except Errno (FileSystem σ α) :=
  match fs.entry existing with
  | none => .error .missing
  | some .directory => .error .other
  | some (.file inode) => fs.create path (.file inode)

def unlink (fs : FileSystem σ α) (path : List σ) : Except Errno (FileSystem σ α) :=
  match fs.entry path with
  | none => .error .missing
  | some .directory => .error .other
  | some (.file _) => .ok (fs.setEntry path none)

/-! ## What the operations require and change -/

variable {fs fs' : FileSystem σ α} {path other : List σ} {node : FileNode} {inode : ℕ}

theorem entry_setEntry_self {value : Option FileNode} :
    (fs.setEntry path value).entry path = value :=
  Function.update_self ..

theorem entry_setEntry_of_ne {value : Option FileNode} (h : other ≠ path) :
    (fs.setEntry path value).entry other = fs.entry other :=
  Function.update_of_ne h ..

theorem create_ok (h : fs.create path node = .ok fs') :
    fs.entry path = none ∧ fs' = fs.setEntry path (some node) := by
  unfold create at h
  split at h
  · cases h
  · rename_i hfree
    split at h
    · exact ⟨not_not.mp hfree, (Except.ok.inj h).symm⟩
    · cases h

theorem mkdir_ok (h : fs.mkdir path = .ok fs') :
    fs.entry path = none ∧ fs' = fs.setEntry path (some .directory) :=
  create_ok h

theorem openExclusive_ok [Inhabited α] (h : fs.openExclusive path = .ok (inode, fs')) :
    inode = fs.fresh ∧ fs.entry path = none ∧
      fs' = { fs.setEntry path (some (.file fs.fresh)) with
        content := Function.update fs.content fs.fresh default, fresh := fs.fresh + 1 } := by
  unfold openExclusive at h
  cases hcreate : fs.create path (.file fs.fresh) with
  | error e => simp [hcreate, Except.map] at h
  | ok created =>
      rw [hcreate] at h
      obtain ⟨hfree, rfl⟩ := create_ok hcreate
      obtain ⟨rfl, rfl⟩ := Prod.mk.inj (Except.ok.inj h)
      exact ⟨rfl, hfree, rfl⟩

omit [DecidableEq σ] in
theorem read_ok {text : α} (h : fs.read path = .ok text) :
    ∃ inode, fs.entry path = some (.file inode) ∧ fs.content inode = text := by
  unfold read at h
  split at h
  · cases h
  · cases h
  · rename_i inode hentry
    exact ⟨inode, hentry, Except.ok.inj h⟩

theorem link_ok {existing : List σ} (h : fs.link existing path = .ok fs') :
    ∃ inode, fs.entry existing = some (.file inode) ∧ fs.entry path = none ∧
      fs' = fs.setEntry path (some (.file inode)) := by
  unfold link at h
  split at h
  · cases h
  · cases h
  · rename_i inode hentry
    exact ⟨inode, hentry, create_ok h⟩

theorem unlink_ok (h : fs.unlink path = .ok fs') :
    (∃ inode, fs.entry path = some (.file inode)) ∧ fs' = fs.setEntry path none := by
  unfold unlink at h
  split at h
  · cases h
  · cases h
  · rename_i inode hentry
    exact ⟨⟨inode, hentry⟩, (Except.ok.inj h).symm⟩

/-! ## Links -/

omit [DecidableEq σ] in
/-- The inodes in use come before the fresh one. -/
def Bounded (fs : FileSystem σ α) : Prop :=
  ∀ path inode, fs.entry path = some (.file inode) → inode < fs.fresh

/-- The path is the one link to the inode. -/
def OnlyAt (fs : FileSystem σ α) (inode : ℕ) (path : List σ) : Prop :=
  fs.entry path = some (.file inode) ∧ ∀ other, fs.entry other = some (.file inode) → other = path

/-- What is at the path stays there, with its contents. -/
def Keeps (fs fs' : FileSystem σ α) (path : List σ) : Prop :=
  ∀ node, fs.entry path = some node → fs'.entry path = some node ∧
    ∀ inode, node = .file inode → fs'.content inode = fs.content inode

omit [DecidableEq σ]

theorem Keeps.refl (fs : FileSystem σ α) (path : List σ) : fs.Keeps fs path :=
  fun _ h => ⟨h, fun _ _ => rfl⟩

theorem Keeps.trans {fs'' : FileSystem σ α} (h : fs.Keeps fs' path) (h' : fs'.Keeps fs'' path) :
    fs.Keeps fs'' path := by
  intro node hnode
  obtain ⟨hnode', hcontent⟩ := h node hnode
  obtain ⟨hnode'', hcontent'⟩ := h' node hnode'
  exact ⟨hnode'', fun inode heq => (hcontent' inode heq).trans (hcontent inode heq)⟩

theorem Keeps.file (h : fs.Keeps fs' path) {text : α}
    (hfile : fs.entry path = some (.file inode) ∧ fs.content inode = text) :
    fs'.entry path = some (.file inode) ∧ fs'.content inode = text := by
  obtain ⟨hentry, hcontent⟩ := h _ hfile.1
  exact ⟨hentry, (hcontent inode rfl).trans hfile.2⟩

variable [DecidableEq σ]

theorem keeps_setEntry (h : fs.entry path = none ∨ other ≠ path) {value : Option FileNode} :
    fs.Keeps (fs.setEntry path value) other := by
  intro node hnode
  refine ⟨?_, fun _ _ => rfl⟩
  rw [entry_setEntry_of_ne, hnode]
  rintro rfl
  rcases h with h | h
  · rw [h] at hnode
    cases hnode
  · exact h rfl

omit [DecidableEq σ] in
/-- A write to an inode with one link is seen there only. -/
theorem keeps_write (h : fs.OnlyAt inode path) (hne : other ≠ path) {text : α} :
    fs.Keeps (fs.write inode text) other := by
  intro node hnode
  refine ⟨hnode, ?_⟩
  rintro n rfl
  refine Function.update_of_ne ?_ ..
  rintro rfl
  exact hne (h.2 other hnode)

/-- A new file is seen at its own path only. -/
theorem keeps_openExclusive [Inhabited α] (hbounded : fs.Bounded) (hfree : fs.entry path = none) :
    fs.Keeps { fs.setEntry path (some (.file fs.fresh)) with
      content := Function.update fs.content fs.fresh default, fresh := fs.fresh + 1 } other := by
  intro node hnode
  refine ⟨(keeps_setEntry (Or.inl hfree) node hnode).1, ?_⟩
  rintro n rfl
  refine Function.update_of_ne ?_ ..
  have := hbounded other n hnode
  omega

end FileSystem

end Hepha
