import Mathlib.Data.List.Basic
import Mathlib.Order.Lattice

/-!
A database file with a write-ahead log: a commit is appended to the log, and a
checkpoint copies the oldest commits from there into the main file. A reader
stays at the commit that was the last one when it began, for which no
checkpoint may go beyond it.
-/
namespace WriteAhead

variable {Page Data : Type*}

/-- Some pages written over. -/
def overlay (pages : Page → Data) (write : Page → Option Data) : Page → Data :=
  fun page => (write page).getD (pages page)

/-- The commits since the file was made, the first of which are in the main
file. -/
structure File (Page Data : Type*) where
  base : Page → Data
  commits : List (Page → Option Data) := []
  checkpointed : ℕ := 0
  bounded : checkpointed ≤ commits.length := by exact Nat.zero_le _

namespace File

variable {file : File Page Data}

/-- The database after so many commits. -/
def snapshot (file : File Page Data) (mark : ℕ) : Page → Data := (file.commits.take mark).foldl overlay file.base

/-- The main file. -/
def main (file : File Page Data) : Page → Data := file.snapshot file.checkpointed

/-- The database. -/
def whole (file : File Page Data) : Page → Data := file.snapshot file.commits.length

/-- Nothing is in the log alone. -/
def Complete (file : File Page Data) : Prop := file.checkpointed = file.commits.length

instance (file : File Page Data) : Decidable file.Complete :=
  inferInstanceAs (Decidable (file.checkpointed = file.commits.length))

def commit (file : File Page Data) (write : Page → Option Data) : File Page Data where
  base := file.base
  commits := file.commits ++ [write]
  checkpointed := file.checkpointed
  bounded := by
    rw [List.length_append]
    exact Nat.le_add_right_of_le file.bounded

/-- As many commits as there are and were asked for, and none is taken back. -/
def checkpoint (file : File Page Data) (k : ℕ) : File Page Data where
  base := file.base
  commits := file.commits
  checkpointed := max file.checkpointed (min k file.commits.length)
  bounded := max_le file.bounded (min_le_right ..)

theorem Complete.main (complete : file.Complete) : file.main = file.whole := by
  rw [File.main, complete, whole]

theorem Complete.checkpoint (complete : file.Complete) (k : ℕ) : (file.checkpoint k).Complete := by
  show max file.checkpointed (min k file.commits.length) = file.commits.length
  rw [complete, max_eq_left (min_le_right ..)]

end File

end WriteAhead
