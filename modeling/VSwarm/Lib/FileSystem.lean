import Mathlib.Logic.Function.Basic

namespace VSwarm.Lib

variable {π β : Type} [DecidableEq π]

abbrev FileSystem (π β : Type) := π → Option β

namespace FileSystem

variable (fs : FileSystem π β)

def write (p : π) (b : β) : FileSystem π β := Function.update fs p (some b)

def remove (p : π) : FileSystem π β := Function.update fs p none

/-- Renaming replaces the destination; there is no result if the source is missing. -/
def move (src dst : π) : Option (FileSystem π β) :=
  (fs src).map fun b => (fs.remove src).write dst b

@[simp] theorem write_same (p : π) (b : β) : fs.write p b p = some b := by simp [write]

@[simp] theorem remove_same (p : π) : fs.remove p p = none := by simp [remove]

variable {fs}

theorem write_of_ne {p q : π} (h : q ≠ p) (b : β) : fs.write p b q = fs q := by
  simp [write, h]

theorem remove_of_ne {p q : π} (h : q ≠ p) : fs.remove p q = fs q := by
  simp [remove, h]

end FileSystem

end VSwarm.Lib
