import VSwarm.Lib.Listing

namespace VSwarm.Lib

open Listing

def isEntryName (s : FileName) : Bool := s ≠ [] && s ≠ ['.'] && s ≠ ['.', '.'] && '/' ∉ s

/-- Only the names of a directory count among its children. -/
inductive FileTree (β : Type)
  | file (b : β)
  | dir (names : List FileName) (nodup : names.Nodup) (plain : names.all isEntryName = true)
      (child : FileName → FileTree β)

namespace FileTree

variable {β : Type}

def find : FileTree β → List FileName → Option (FileTree β)
  | t, [] => some t
  | .dir names _ _ child, s :: p => if s ∈ names then (child s).find p else none
  | .file _, _ :: _ => none

def listing? : FileTree β → Option (List FileName)
  | .dir names _ _ _ => some names
  | .file _ => none

def isDirAt (root : FileTree β) (p : List FileName) : Bool :=
  ((root.find p).bind listing?).isSome

/-- A path is followed from directory to directory; the root is its own parent. -/
def walk (root : FileTree β) : List FileName → List (List Char) → Option (List FileName)
  | p, [] => if (root.find p).isSome then some p else none
  | p, c :: cs =>
    if root.isDirAt p then
      if c = [] ∨ c = ['.'] then root.walk p cs
      else if c = ['.', '.'] then root.walk p.dropLast cs
      else root.walk (p ++ [c]) cs
    else none

def resolve (root : FileTree β) (cwd : List FileName) (text : List Char) :
    Option (List FileName) :=
  if text = [] then none
  else root.walk (if text.head? = some '/' then [] else cwd) (text.splitOn '/')

def lookup (root : FileTree β) (cwd : List FileName) (text : List Char) : Option (FileTree β) :=
  (root.resolve cwd text).bind root.find

def isDir (root : FileTree β) (cwd : List FileName) (text : List Char) : Bool :=
  ((root.lookup cwd text).bind listing?).isSome

section Laws

variable {root : FileTree β} {p cwd : List FileName} {text : List Char} {s : FileName}

theorem isSome_of_isDirAt (h : root.isDirAt p = true) : (root.find p).isSome := by
  by_contra hnone
  rw [Option.not_isSome_iff_eq_none] at hnone
  simp [isDirAt, hnone] at h

theorem walk_append (cs cs' : List (List Char)) :
    root.walk p (cs ++ cs') = (root.walk p cs).bind (root.walk · cs') := by
  induction cs generalizing p with
  | nil =>
    simp only [List.nil_append, walk]
    cases hsome : (root.find p).isSome with
    | true => rfl
    | false =>
      have hdir : ¬root.isDirAt p = true := fun h => by
        rw [isSome_of_isDirAt h] at hsome
        cases hsome
      cases cs' with
      | nil => simp [walk, hsome]
      | cons c cs' => simp [walk, hdir]
  | cons c cs ih =>
    simp only [List.cons_append, walk]
    split
    · split
      · exact ih
      · split <;> exact ih
    · rfl

theorem resolve_append (h : text ≠ []) (rest : List Char) :
    root.resolve cwd (text ++ '/' :: rest) =
      (root.resolve cwd text).bind (root.walk · (rest.splitOn '/')) := by
  obtain ⟨c, cs, rfl⟩ := List.exists_cons_of_ne_nil h
  have hne : c :: cs ++ '/' :: rest ≠ [] := by simp
  simp only [resolve, if_neg hne, if_neg h]
  rw [List.splitOn_append_cons_self, walk_append]
  rfl

theorem walk_cons_of_dir (h : root.isDirAt p = true) (hs : isEntryName s = true)
    (cs : List (List Char)) : root.walk p (s :: cs) = root.walk (p ++ [s]) cs := by
  have hname : s ≠ [] ∧ s ≠ ['.'] ∧ s ≠ ['.', '.'] := by
    simp only [isEntryName, Bool.and_eq_true, decide_eq_true_eq] at hs
    exact ⟨hs.1.1.1, hs.1.1.2, hs.1.2⟩
  rw [walk, if_pos h, if_neg (by simp [hname]), if_neg hname.2.2]

theorem walk_nil_of_dir (h : root.isDirAt p = true) (cs : List (List Char)) :
    root.walk p ([] :: cs) = root.walk p cs := by
  rw [walk, if_pos h, if_pos (.inl rfl)]

theorem walk_eq (p : List FileName) :
    (root.walk p []).bind root.find = root.find p := by
  simp only [walk]
  cases h : root.find p <;> simp [h]

end Laws

end FileTree

end VSwarm.Lib
