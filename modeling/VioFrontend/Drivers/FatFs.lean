import VioFrontend.Library.TreeWalk
import VioFrontend.Util.CString

/-!
# Directories of the card

The FatFs functions that the file system driver uses on directories, as they are configured here:
relative paths from a current directory, long file names and numeric volume identifiers.

A directory is given by the names on the way from the root to it, the last one first, and the card
by the entries of its directories in the order on the disk. How a segment of a path is compared
with an entry of a directory (long and short names, case, illegal characters) is a parameter of the
card. Each call takes the disk error that it meets; a failing call leaves the current directory as
it is.
-/

namespace VioFrontend

/-- An entry of a directory. -/
structure Entry where
  fname : CString
  fname_ne_nil : fname.bytes ≠ []
  isDirectory : Bool
deriving DecidableEq

abbrev Directory := List CString

/-- The contents of the card. -/
structure Volume where
  entries : Directory → List Entry
  nameMatches : Directory → List UInt8 → Entry → Bool

/-- An open directory and its entries that were not read yet. -/
structure Dir where
  directory : Directory
  unread : List Entry

/-- The disk errors during a call of the driver; `readdir n` is that of the `n`-th read. -/
structure DiskErrors where
  closedir : Bool
  chdir : Bool
  opendir : Bool
  readdir : ℕ → Bool

def noErrors : DiskErrors := ⟨false, false, false, fun _ => false⟩

namespace FatFs

/-- The physical drive of the card, which is the current drive and the only mounted one. -/
def SDDISK : ℕ := 2

def FF_VOLUMES : ℕ := 3

/-- `/` and `\`. -/
def isSeparator (c : UInt8) : Bool := c == 47 || c == 92

/-- A control character ends a path. -/
def isTerminator (c : UInt8) : Bool := c < 32

def isDigit (c : UInt8) : Bool := 48 ≤ c && c ≤ 57

/-! ### Paths -/

/-- The drive number of a path, and the path without it. -/
def get_ldnumber (path : List UInt8) : Option (ℕ × List UInt8) :=
  if (path.takeWhile fun c => !isTerminator c).contains 58 then
    match path with
    | d :: 58 :: path =>
      if isDigit d = true ∧ d.toNat - 48 < FF_VOLUMES then some (d.toNat - 48, path) else none
    | _ => none
  else some (SDDISK, path)

/-- The path on the mounted volume. -/
def mount_volume (path : List UInt8) : Option (List UInt8) := do
  let (vol, path) ← get_ldnumber path
  if vol = SDDISK then some path else none

/-- The segments of a path; repeated and terminating separators are skipped. -/
def segments (path : List UInt8) : List (List UInt8) :=
  ((path.takeWhile fun c => !isTerminator c).splitOnP isSeparator).filter (· ≠ [])

/-- `.` and `..` are dot names. The root has no entries for them, and stays where it is. -/
def toStep (segment : List UInt8) : TreeWalk.Step (List UInt8) :=
  if segment = [46] then .stay else if segment = [46, 46] then .up else .enter segment

def steps (path : List UInt8) : List (TreeWalk.Step (List UInt8)) := (segments path).map toStep

def hasHeadingSeparator : List UInt8 → Bool
  | []     => false
  | c :: _ => isSeparator c

def dir_find (vol : Volume) (dir : Directory) (segment : List UInt8) : Option Entry :=
  (vol.entries dir).find? (vol.nameMatches dir segment)

/-- The sub-directory with the name; a file is no directory to follow a path into. -/
def subdirectory (vol : Volume) (dir : Directory) (segment : List UInt8) : Option CString := do
  let entry ← dir_find vol dir segment
  if entry.isDirectory then some entry.fname else none

/-- The directory at the end of a path. -/
def follow_path (vol : Volume) (cdir : Directory) (path : List UInt8) : Option Directory :=
  TreeWalk.walk (subdirectory vol) (if hasHeadingSeparator path then [] else cdir) (steps path)

/-- The directory that a path with an optional drive number names from the current directory. -/
def directoryAt (vol : Volume) (cdir : Directory) (path : CString) : Option Directory := do
  let path ← mount_volume path.bytes
  follow_path vol cdir path

/-! ### Calls -/

/-- The new current directory, unless the call fails. -/
def f_chdir (vol : Volume) (error : Bool) (cdir : Directory) (path : CString) : Option Directory :=
  if error then none else directoryAt vol cdir path

/-- The opened directory; a call that fails leaves an invalid one. -/
def f_opendir (vol : Volume) (error : Bool) (cdir : Directory) (path : CString) : Option Dir :=
  if error then none
  else (directoryAt vol cdir path).map fun dir => ⟨dir, vol.entries dir⟩

def f_closedir (error : Bool) (dp : Option Dir) : Option Dir :=
  if error then dp else none

/-- The name of the next entry, which is empty behind the last one. -/
def f_readdir (error : Bool) (dp : Dir) : Option (CString × Dir) :=
  if error then none
  else match dp.unread with
    | []              => some (CString.empty, dp)
    | entry :: unread => some (entry.fname, { dp with unread := unread })

/-- Open a directory and read its first entry; the pattern `*` matches every name. A failing call
leaves the directory as it is by then. -/
def f_findfirst (vol : Volume) (errors : DiskErrors) (cdir : Directory) (path : CString) :
    Except (Option Dir) (CString × Dir) :=
  match f_opendir vol errors.opendir cdir path with
  | none    => .error none
  | some dp =>
    match f_readdir (errors.readdir 0) dp with
    | none       => .error (some dp)
    | some found => .ok found

/-! ### What the calls read -/

/-- The entries that are read from the `n`-th read on, up to an error. -/
def readEntries (readdir : ℕ → Bool) : ℕ → List Entry → List Entry
  | _, []              => []
  | n, entry :: unread => if readdir n then [] else entry :: readEntries readdir (n + 1) unread

lemma readEntries_initial (readdir : ℕ → Bool) (n : ℕ) (entries : List Entry) :
    readEntries readdir n entries <+: entries := by
  induction entries generalizing n with
  | nil => exact List.prefix_refl _
  | cons entry entries ih =>
    rw [readEntries]
    split_ifs
    · exact List.nil_prefix
    · exact List.cons_prefix_cons.mpr ⟨rfl, ih (n + 1)⟩

/-- All entries are read if no error comes before the last one. -/
lemma readEntries_eq_self_iff {readdir : ℕ → Bool} {n : ℕ} {entries : List Entry} :
    readEntries readdir n entries = entries ↔ ∀ k < entries.length, readdir (n + k) = false := by
  induction entries generalizing n with
  | nil => simp [readEntries]
  | cons entry entries ih =>
    have hrest : (∀ k < entries.length, readdir (n + (k + 1)) = false) ↔
        ∀ k < entries.length, readdir (n + 1 + k) = false :=
      forall₂_congr fun k _ => by rw [Nat.add_right_comm, Nat.add_assoc]
    rw [readEntries, List.length_cons, Nat.forall_lt_succ_left, Nat.add_zero, hrest]
    cases hread : readdir n with
    | true => simp
    | false => simp [ih]

lemma readEntries_noErrors (n : ℕ) (entries : List Entry) :
    readEntries noErrors.readdir n entries = entries :=
  readEntries_eq_self_iff.mpr fun _ _ => rfl

end FatFs

end VioFrontend
