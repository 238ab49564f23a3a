import VioFrontend.Library.CheckedBuffer
import VioFrontend.Drivers.FatFs

/-!
# The file system driver

`file_system::cd` and `file_system::ls` as the code has them. The current directory is kept twice:
FatFs has its own, to which relative paths refer, and the driver stores the path of the last
successful `cd`, which `ls` opens. The path is stored in 64 bytes, which the type of the stored
path says.

The array of names that `ls` returns grows by doubling; its writes are checked, so that a result
is a run without an access outside of it.
-/

namespace VioFrontend

open Checked FatFs

/-! ### Functions -/

structure FileSystem where
  cdir : Directory
  current_directory : Option Dir
  current_directory_path : { path : CString // path.strlen < 64 }

namespace FileSystem

/-- The state after the card is mounted. -/
def initial : FileSystem := ⟨[], none, ⟨CString.empty, by decide⟩⟩

/-- The path `./`. -/
def dotSlash : CString := ⟨[46, 47], by decide⟩

def cd (vol : Volume) (errors : DiskErrors) (path : CString) (s : FileSystem) :
    Bool × FileSystem :=
  if hlong : 64 - 1 < path.strlen then (false, s)
  else
    let s := { s with current_directory := f_closedir errors.closedir s.current_directory }
    match f_chdir vol errors.chdir s.cdir path with
    | none      => (false, s)
    | some cdir =>
      let s := { s with cdir := cdir }
      match f_opendir vol errors.opendir s.cdir dotSlash with
      | none    => (false, { s with current_directory := none })
      | some dp =>
        (true, { s with
          current_directory := some dp
          current_directory_path := ⟨path, by omega⟩ })

/-- The variables of the loop of `ls`. -/
structure Listing where
  fname : CString
  current_directory : Dir
  out_file_names : Buffer CString
  out_number_of_files : ℕ
  allocated_size : ℕ

/-- Store a name, and allocate twice the size if the array is full. -/
def Listing.store (l : Listing) : Option Listing := do
  let out_file_names ← l.out_file_names.write l.out_number_of_files l.fname
  let out_number_of_files := l.out_number_of_files + 1
  if out_number_of_files = l.allocated_size then
    let allocated_size := l.allocated_size * 2
    pure { l with
      out_file_names := out_file_names.grow allocated_size
      out_number_of_files := out_number_of_files
      allocated_size := allocated_size }
  else
    pure { l with out_file_names := out_file_names, out_number_of_files := out_number_of_files }

/-- The loop of `ls`; `fuel` bounds the number of its turns. -/
def listLoop (readdir : ℕ → Bool) : ℕ → Listing → Option Listing
  | 0, _        => none
  | fuel + 1, l =>
    if CString.strcmp CString.empty l.fname = 0 then some l
    else do
      let l ← l.store
      match f_readdir (readdir l.out_number_of_files) l.current_directory with
      | none             => some l
      | some (fname, dp) => listLoop readdir fuel { l with fname := fname, current_directory := dp }

/-- What `ls` returns: its result, the two values behind its arguments, and the new state. -/
structure LsResult where
  result : Bool
  out_file_names : Option (Buffer CString)
  out_number_of_files : ℕ
  state : FileSystem

def ls (vol : Volume) (errors : DiskErrors) (s : FileSystem) : Option LsResult :=
  match f_findfirst vol errors s.cdir s.current_directory_path with
  | .error dp       => some ⟨false, none, 0, { s with current_directory := dp }⟩
  | .ok (fname, dp) => do
    -- one turn for every entry and one that finds the end
    let fuel := dp.unread.length + 2
    let l ← listLoop errors.readdir fuel ⟨fname, dp, Buffer.blank 16, 0, 16⟩
    some ⟨true, some l.out_file_names, l.out_number_of_files,
      { s with current_directory := some l.current_directory }⟩

/-! ### What `ls` lists -/

/-- The array holds the names of the entries, and there is room for one more. -/
structure Listing.Holds (l : Listing) (entries : List Entry) : Prop where
  size_eq : l.out_file_names.size = l.allocated_size
  number_eq : l.out_number_of_files = entries.length
  room : l.out_number_of_files < l.allocated_size
  read_eq : ∀ i < entries.length, l.out_file_names.read i = entries[i]?.map Entry.fname

lemma Listing.Holds.withFile {l : Listing} {entries : List Entry} (h : l.Holds entries)
    (fname : CString) (dp : Dir) :
    Listing.Holds { l with fname := fname, current_directory := dp } entries :=
  ⟨h.size_eq, h.number_eq, h.room, h.read_eq⟩

lemma Listing.store_spec {l : Listing} {entries : List Entry} {entry : Entry}
    (h : l.Holds entries) (hname : l.fname = entry.fname) :
    ∃ l', l.store = some l' ∧ l'.Holds (entries ++ [entry]) ∧
      l'.out_number_of_files = l.out_number_of_files + 1 ∧
      l'.current_directory = l.current_directory := by
  have hin : l.out_file_names.InBounds l.out_number_of_files := by
    have := h.room
    have := h.size_eq
    exact ⟨by omega, by omega⟩
  have hread : ∀ i < (entries ++ [entry]).length,
      (l.out_file_names.set l.out_number_of_files l.fname).read i
        = (entries ++ [entry])[i]?.map Entry.fname := by
    intro i hi
    rw [List.length_append, List.length_singleton] at hi
    rcases Nat.lt_succ_iff_lt_or_eq.mp hi with hlt | rfl
    · have hne : (i : ℤ) ≠ l.out_number_of_files := by rw [h.number_eq]; omega
      rw [Buffer.read_set_of_ne (by omega) hne, h.read_eq i hlt, List.getElem?_append_left hlt]
    · rw [← h.number_eq, Buffer.read_set_self hin, h.number_eq, hname]
      simp
  rw [Listing.store, Buffer.write_eq_some hin]
  simp only [Option.bind_eq_bind, Option.bind_some]
  split_ifs with hfull
  · refine ⟨_, rfl, ⟨rfl, by simp [h.number_eq], by simp only; omega, fun i hi => ?_⟩, rfl, rfl⟩
    have hi' : i < l.out_number_of_files + 1 := by simpa [h.number_eq] using hi
    have hsize := h.size_eq
    rw [Buffer.read_grow ⟨by omega, by simp only [Buffer.size_set]; omega⟩
      (by simp only [Buffer.size_set]; omega)]
    exact hread i hi
  · have hroom := h.room
    exact ⟨_, rfl, ⟨h.size_eq, by simp [h.number_eq], by simp only; omega, hread⟩, rfl, rfl⟩

lemma strcmp_empty_eq_zero_iff (s : CString) :
    CString.strcmp CString.empty s = 0 ↔ s.bytes = [] := by
  rw [CString.strcmp, CString.compareBytes_eq_zero_iff CString.empty.zero_notMem s.zero_notMem]
  exact eq_comm

lemma listLoop_end (readdir : ℕ → Bool) (fuel : ℕ) {l : Listing} (h : l.fname = CString.empty) :
    listLoop readdir (fuel + 1) l = some l := by
  rw [listLoop, h]
  exact if_pos ((strcmp_empty_eq_zero_iff _).mpr rfl)

/-- The loop lists its entry and those that are read after it. -/
lemma listLoop_spec (readdir : ℕ → Bool) {fuel : ℕ} {l : Listing} {entries : List Entry}
    {entry : Entry} (h : l.Holds entries) (hname : l.fname = entry.fname)
    (hfuel : l.current_directory.unread.length + 1 < fuel) :
    ∃ l', listLoop readdir fuel l = some l' ∧
      l'.Holds (entries ++ entry ::
        readEntries readdir (l.out_number_of_files + 1) l.current_directory.unread) ∧
      l'.current_directory.directory = l.current_directory.directory := by
  induction fuel generalizing l entries entry with
  | zero => omega
  | succ fuel ih =>
    obtain ⟨l₁, hstore, hholds, hnumber, hdir⟩ := Listing.store_spec h hname
    have hne : ¬ CString.strcmp CString.empty l.fname = 0 := by
      rw [strcmp_empty_eq_zero_iff, hname]
      exact entry.fname_ne_nil
    rw [listLoop, if_neg hne, hstore, ← hnumber]
    simp only [Option.bind_eq_bind, Option.bind_some, f_readdir]
    rw [← hdir] at hfuel ⊢
    cases hunread : l₁.current_directory.unread with
    | nil =>
      split_ifs with herr
      · exact ⟨l₁, rfl, hholds, rfl⟩
      · obtain ⟨k, rfl⟩ : ∃ k, fuel = k + 1 := ⟨fuel - 1, by omega⟩
        exact ⟨_, listLoop_end readdir k rfl, hholds.withFile _ _, rfl⟩
    | cons next unread =>
      rw [hunread, List.length_cons] at hfuel
      rw [readEntries]
      split_ifs with herr
      · exact ⟨l₁, rfl, hholds, rfl⟩
      · obtain ⟨l', hloop, hholds', hdir'⟩ :=
          ih (hholds.withFile next.fname { l₁.current_directory with unread := unread }) rfl
            (by simp only; omega)
        rw [List.append_assoc, List.singleton_append] at hholds'
        exact ⟨l', hloop, hholds', hdir'⟩

/-- The result is true, with the names of some entries of the opened directory. -/
structure LsResult.Lists (r : LsResult) (dir : Directory) (entries : List Entry) : Prop where
  result_eq : r.result = true
  directory_eq : r.state.current_directory.map Dir.directory = some dir
  number_eq : r.out_number_of_files = entries.length
  names_eq : ∃ names, r.out_file_names = some names ∧
    ∀ i < entries.length, names.read i = entries[i]?.map Entry.fname

/-- If the stored path names a directory, then `ls` lists its entries up to the first error. -/
lemma ls_of_directoryAt {vol : Volume} (errors : DiskErrors) {s : FileSystem} {dir : Directory}
    (hopen : errors.opendir = false) (hread : errors.readdir 0 = false)
    (hdir : directoryAt vol s.cdir s.current_directory_path = some dir) :
    ∃ r, ls vol errors s = some r ∧
      r.Lists dir (readEntries errors.readdir 0 (vol.entries dir)) := by
  have hopendir : f_opendir vol errors.opendir s.cdir s.current_directory_path
      = some ⟨dir, vol.entries dir⟩ := by
    rw [f_opendir, hopen, hdir]
    rfl
  rw [ls, f_findfirst, hopendir]
  simp only [f_readdir, hread]
  cases hentries : vol.entries dir with
  | nil => exact ⟨_, rfl, rfl, rfl, rfl, Buffer.blank 16, rfl, by simp [readEntries]⟩
  | cons entry unread =>
    have hblank : Listing.Holds ⟨entry.fname, ⟨dir, unread⟩, Buffer.blank 16, 0, 16⟩ [] :=
      ⟨rfl, rfl, Nat.zero_lt_succ 15, by simp⟩
    obtain ⟨l, hloop, hholds, hdp⟩ :=
      listLoop_spec errors.readdir hblank rfl (Nat.lt_succ_self _)
    rw [List.nil_append] at hholds
    simp only [Bool.false_eq_true, if_false, hloop, Option.bind_eq_bind, Option.bind_some,
      readEntries, hread]
    exact ⟨_, rfl, rfl, congrArg some hdp, hholds.number_eq, _, rfl, hholds.read_eq⟩

/-- If the stored path names no directory, then `ls` fails. -/
lemma ls_of_directoryAt_none {vol : Volume} {errors : DiskErrors} {s : FileSystem}
    (hdir : directoryAt vol s.cdir s.current_directory_path = none) :
    ls vol errors s = some ⟨false, none, 0, { s with current_directory := none }⟩ := by
  have hopendir : f_opendir vol errors.opendir s.cdir s.current_directory_path = none := by
    rw [f_opendir, hdir]
    exact ite_self none
  rw [ls, f_findfirst, hopendir]

/-- Without disk errors, `ls` lists the directory that the stored path names from the current
directory of FatFs. -/
lemma ls_lists_iff {vol : Volume} {s : FileSystem} {dir : Directory} :
    (∃ r, ls vol noErrors s = some r ∧ r.Lists dir (vol.entries dir)) ↔
      directoryAt vol s.cdir s.current_directory_path = some dir := by
  constructor
  · rintro ⟨r, hr, hlists⟩
    cases hdir : directoryAt vol s.cdir s.current_directory_path with
    | none =>
      rw [ls_of_directoryAt_none hdir] at hr
      obtain rfl := Option.some.inj hr
      exact absurd hlists.result_eq Bool.false_ne_true
    | some dir' =>
      obtain ⟨r', hr', hlists'⟩ := ls_of_directoryAt noErrors rfl rfl hdir
      obtain rfl := Option.some.inj (hr.symm.trans hr')
      exact hlists'.directory_eq.symm.trans hlists.directory_eq
  · intro hdir
    have hls := ls_of_directoryAt noErrors rfl rfl hdir
    rwa [readEntries_noErrors] at hls

/-- `ls` leaves the current directory of FatFs and the stored path as they are. -/
lemma ls_frame {vol : Volume} {errors : DiskErrors} {s : FileSystem} {r : LsResult}
    (h : ls vol errors s = some r) :
    r.state.cdir = s.cdir ∧ r.state.current_directory_path = s.current_directory_path := by
  rw [ls] at h
  split at h
  · obtain rfl := Option.some.inj h
    exact ⟨rfl, rfl⟩
  · obtain ⟨l, -, hr⟩ := Option.bind_eq_some_iff.mp h
    obtain rfl := Option.some.inj hr
    exact ⟨rfl, rfl⟩

/-! ### What `cd` changes -/

/-- `./` is the current directory. -/
lemma directoryAt_dotSlash (vol : Volume) (cdir : Directory) :
    directoryAt vol cdir dotSlash = some cdir := by
  rfl

lemma f_opendir_dotSlash (vol : Volume) (cdir : Directory) :
    f_opendir vol false cdir dotSlash = some ⟨cdir, vol.entries cdir⟩ := by
  rw [f_opendir, directoryAt_dotSlash]
  rfl

/-- The four ways in which `cd` ends. -/
lemma cd_cases (vol : Volume) (errors : DiskErrors) (path : CString) (s : FileSystem) :
    (64 ≤ path.strlen ∧ cd vol errors path s = (false, s)) ∨
    (f_chdir vol errors.chdir s.cdir path = none ∧
      cd vol errors path s = (false,
        { s with current_directory := f_closedir errors.closedir s.current_directory })) ∨
    (∃ cdir, path.strlen < 64 ∧ f_chdir vol errors.chdir s.cdir path = some cdir ∧
      f_opendir vol errors.opendir cdir dotSlash = none ∧
      cd vol errors path s = (false, { s with cdir := cdir, current_directory := none })) ∨
    (∃ cdir dp hlen, f_chdir vol errors.chdir s.cdir path = some cdir ∧
      f_opendir vol errors.opendir cdir dotSlash = some dp ∧
      cd vol errors path s = (true, ⟨cdir, some dp, ⟨path, hlen⟩⟩)) := by
  unfold cd
  split_ifs with hlong
  · exact Or.inl ⟨by omega, rfl⟩
  · dsimp only
    cases hchdir : f_chdir vol errors.chdir s.cdir path with
    | none => exact Or.inr (Or.inl ⟨rfl, rfl⟩)
    | some cdir =>
      cases hopendir : f_opendir vol errors.opendir cdir dotSlash with
      | none => exact Or.inr (Or.inr (Or.inl ⟨cdir, by omega, rfl, hopendir,
          by simp only [hopendir]⟩))
      | some dp =>
        exact Or.inr (Or.inr (Or.inr
          ⟨cdir, dp, by omega, rfl, hopendir, by simp only [hopendir]⟩))

lemma directoryAt_of_f_chdir {vol : Volume} {error : Bool} {cdir dir : Directory} {path : CString}
    (h : f_chdir vol error cdir path = some dir) : directoryAt vol cdir path = some dir := by
  rw [f_chdir] at h
  split_ifs at h
  exact h

/-- A successful `cd` makes the directory of its path current and stores the path. -/
lemma cd_of_true {vol : Volume} {errors : DiskErrors} {path : CString} {s : FileSystem}
    (h : (cd vol errors path s).1 = true) :
    directoryAt vol s.cdir path = some (cd vol errors path s).2.cdir ∧
      (cd vol errors path s).2.current_directory_path = path := by
  obtain ⟨-, hcd⟩ | ⟨-, hcd⟩ | ⟨_, -, -, -, hcd⟩ | ⟨cdir, dp, hlen, hchdir, -, hcd⟩ :=
    cd_cases vol errors path s
  · exact absurd h (by rw [hcd]; exact Bool.false_ne_true)
  · exact absurd h (by rw [hcd]; exact Bool.false_ne_true)
  · exact absurd h (by rw [hcd]; exact Bool.false_ne_true)
  · rw [hcd]
    exact ⟨directoryAt_of_f_chdir hchdir, rfl⟩

/-- Without disk errors, a failing `cd` changes neither directory. -/
lemma cd_of_false {vol : Volume} {path : CString} {s : FileSystem}
    (h : (cd vol noErrors path s).1 = false) :
    (cd vol noErrors path s).2.cdir = s.cdir ∧
      (cd vol noErrors path s).2.current_directory_path = s.current_directory_path := by
  obtain ⟨-, hcd⟩ | ⟨-, hcd⟩ | ⟨cdir, -, -, hopendir, -⟩ | ⟨_, _, _, -, -, hcd⟩ :=
    cd_cases vol noErrors path s
  · rw [hcd]
    exact ⟨rfl, rfl⟩
  · rw [hcd]
    exact ⟨rfl, rfl⟩
  · exact absurd ((f_opendir_dotSlash vol cdir).symm.trans hopendir) (Option.some_ne_none _)
  · rw [hcd] at h
    exact absurd h.symm Bool.false_ne_true

end FileSystem

end VioFrontend
