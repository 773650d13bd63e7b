import Dormouse.Lib.InsertionMap

/-!
# Dormouse.Lib.Directories

**Directories of names**, with the POSIX calls on them as atomic steps: a rename replaces an
empty directory and no other, and an `rmdir` removes only an empty one.
-/

namespace Dormouse

/-- Directories by path, each with the names in it. -/
structure Directories (π ν : Type) [DecidableEq π] where
  byPath : InsertionMap π (List ν)

namespace Directories

variable {π ν : Type} [DecidableEq π] [DecidableEq ν]

/-- Whether a directory is there, and what is in it. -/
def readdir (dirs : Directories π ν) (path : π) : Option (List ν) := dirs.byPath.get path

def mkdir (dirs : Directories π ν) (path : π) : Directories π ν :=
  if (dirs.readdir path).isSome then dirs else ⟨dirs.byPath.set path []⟩

/-- A file is made in a directory. -/
def create (dirs : Directories π ν) (path : π) (name : ν) : Directories π ν :=
  match dirs.readdir path with
  | some names => ⟨dirs.byPath.set path (names ++ [name])⟩
  | none => dirs

def unlink (dirs : Directories π ν) (path : π) (name : ν) : Directories π ν :=
  match dirs.readdir path with
  | some names => ⟨dirs.byPath.set path (names.filter (· ≠ name))⟩
  | none => dirs

/-- Anything but an empty directory stays. -/
def rmdir (dirs : Directories π ν) (path : π) : Directories π ν :=
  match dirs.readdir path with
  | some [] => ⟨dirs.byPath.delete path⟩
  | _ => dirs

/-- A rename to a path that is free, or an empty directory; `none` when it is neither. -/
def rename (dirs : Directories π ν) (source target : π) : Option (Directories π ν) :=
  match dirs.readdir source, dirs.readdir target with
  | some names, none => some ⟨(dirs.byPath.delete source).set target names⟩
  | some names, some [] => some ⟨(dirs.byPath.delete source).set target names⟩
  | _, _ => none

variable {dirs dirs' : Directories π ν} {path other source target : π} {name : ν}
  {names : List ν}

/-! ### What a call leaves -/

theorem readdir_mkdir_self (h : dirs.readdir path = none) :
    (dirs.mkdir path).readdir path = some [] := by
  unfold mkdir
  rw [h]
  exact InsertionMap.get_set_self _ _ _

theorem readdir_mkdir_ne (h : path ≠ other) :
    (dirs.mkdir path).readdir other = dirs.readdir other := by
  unfold mkdir
  split
  · rfl
  · exact InsertionMap.get_set_ne _ _ h

theorem readdir_create_self (h : dirs.readdir path = some names) :
    (dirs.create path name).readdir path = some (names ++ [name]) := by
  unfold create
  rw [h]
  exact InsertionMap.get_set_self _ _ _

theorem readdir_create_ne (h : path ≠ other) :
    (dirs.create path name).readdir other = dirs.readdir other := by
  unfold create
  split
  · exact InsertionMap.get_set_ne _ _ h
  · rfl

theorem readdir_unlink_self (h : dirs.readdir path = some names) :
    (dirs.unlink path name).readdir path = some (names.filter (· ≠ name)) := by
  unfold unlink
  rw [h]
  exact InsertionMap.get_set_self _ _ _

theorem readdir_unlink_ne (h : path ≠ other) :
    (dirs.unlink path name).readdir other = dirs.readdir other := by
  unfold unlink
  split
  · exact InsertionMap.get_set_ne _ _ h
  · rfl

theorem readdir_rmdir_ne (h : path ≠ other) :
    (dirs.rmdir path).readdir other = dirs.readdir other := by
  unfold rmdir
  split
  · exact InsertionMap.get_delete_ne _ h
  · rfl

/-- A directory with something in it stays as it is. -/
theorem readdir_rmdir_of_cons (h : dirs.readdir other = some (name :: names)) :
    (dirs.rmdir path).readdir other = some (name :: names) := by
  by_cases hsame : path = other
  · subst hsame
    unfold rmdir
    rw [h]
    exact h
  · rw [readdir_rmdir_ne hsame, h]

theorem rename_target_free (h : dirs.rename source target = some dirs') :
    dirs.readdir target = none ∨ dirs.readdir target = some [] := by
  unfold rename at h
  split at h
  · next htarget => exact .inl htarget
  · next htarget => exact .inr htarget
  · cases h

theorem readdir_rename_target (h : dirs.rename source target = some dirs') :
    dirs'.readdir target = dirs.readdir source := by
  unfold rename at h
  split at h
  · next hsource _ =>
      cases h
      rw [hsource]
      exact InsertionMap.get_set_self _ _ _
  · next hsource _ =>
      cases h
      rw [hsource]
      exact InsertionMap.get_set_self _ _ _
  · cases h

theorem readdir_rename_ne (h : dirs.rename source target = some dirs') (hsource : source ≠ other)
    (htarget : target ≠ other) : dirs'.readdir other = dirs.readdir other := by
  have hboth (names : List ν) :
      ((dirs.byPath.delete source).set target names).get other = dirs.byPath.get other :=
    (InsertionMap.get_set_ne _ _ htarget).trans (InsertionMap.get_delete_ne _ hsource)
  unfold rename at h
  split at h
  · cases h
    exact hboth _
  · cases h
    exact hboth _
  · cases h

end Directories

end Dormouse
