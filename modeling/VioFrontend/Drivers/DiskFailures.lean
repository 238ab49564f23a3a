import VioFrontend.Drivers.CurrentDirectory

/-!
# Failing calls of the driver

What `cd` leaves behind when it fails, and how much `ls` has listed when it succeeds, whatever
disk errors the calls of FatFs meet. `cd` fails behind its change of the current directory if it
cannot open `./`, and `ls` takes an error at a later entry for the end of the directory.
-/

namespace VioFrontend

open FatFs

namespace FileSystem

variable {vol : Volume} {errors : DiskErrors} {s : FileSystem}

/-! ### A failed `cd` -/

/-- Later calls resolve their paths against the same directory, and `ls` does the same. -/
def SameDirectories (vol : Volume) (s s' : FileSystem) : Prop :=
  s'.cdir = s.cdir ∧ ∀ errors, ls vol errors s' = ls vol errors s

/-- The open directory does not matter to later calls. -/
lemma sameDirectories_handle (vol : Volume) (s : FileSystem) (dp : Option Dir) :
    SameDirectories vol s { s with current_directory := dp } :=
  ⟨rfl, fun _ => rfl⟩

lemma opendir_error_of_f_opendir_dotSlash {cdir : Directory}
    (h : f_opendir vol errors.opendir cdir dotSlash = none) : errors.opendir = true := by
  by_contra herror
  rw [Bool.not_eq_true] at herror
  rw [herror, f_opendir_dotSlash] at h
  exact Option.some_ne_none _ h

/-- A `cd` that fails leaves the directories as they are, except when FatFs has changed to another
one before `./` cannot be opened. -/
theorem cd_failure_iff (vol : Volume) (errors : DiskErrors) (path : CString) (s : FileSystem) :
    ((cd vol errors path s).1 = false → SameDirectories vol s (cd vol errors path s).2) ↔
      (path.strlen < 64 → errors.opendir = true →
        ∀ dir, f_chdir vol errors.chdir s.cdir path = some dir → dir = s.cdir) := by
  obtain ⟨hlong, hcd⟩ | ⟨hchdir, hcd⟩ | ⟨cdir, hlen, hchdir, hopendir, hcd⟩ |
    ⟨cdir, dp, hlen, hchdir, hopendir, hcd⟩ := cd_cases vol errors path s
  · rw [hcd]
    exact iff_of_true (fun _ => sameDirectories_handle vol s s.current_directory)
      fun hlen => absurd hlen (by omega)
  · rw [hcd, hchdir]
    exact iff_of_true (fun _ => sameDirectories_handle vol s _)
      fun _ _ dir hdir => absurd hdir.symm (Option.some_ne_none dir)
  · have herror := opendir_error_of_f_opendir_dotSlash hopendir
    rw [hcd, hchdir]
    constructor
    · intro hsame _ _ dir hdir
      rw [← Option.some.inj hdir]
      exact (hsame rfl).1
    · intro hsame _
      obtain rfl : cdir = s.cdir := hsame hlen herror cdir rfl
      exact sameDirectories_handle vol s none
  · rw [hcd]
    refine iff_of_true (fun hfalse => absurd hfalse.symm Bool.false_ne_true) fun _ herror => ?_
    rw [f_opendir, if_pos herror] at hopendir
    exact absurd hopendir.symm (Option.some_ne_none dp)

/-- `./` cannot be opened. -/
def opendirError : DiskErrors := ⟨false, false, true, fun _ => false⟩

/-- A failed `cd("a")` leaves FatFs in the directory `a`, and `ls` lists that one then. -/
theorem not_sameDirectories_opendirError :
    (cd Session.oneDirectory opendirError Session.directoryName initial).1 = false ∧
      (ls Session.oneDirectory noErrors initial).map LsResult.out_number_of_files = some 1 ∧
      (ls Session.oneDirectory noErrors
        (cd Session.oneDirectory opendirError Session.directoryName initial).2).map
          LsResult.out_number_of_files = some 0 ∧
      ¬ SameDirectories Session.oneDirectory initial
        (cd Session.oneDirectory opendirError Session.directoryName initial).2 := by
  refine ⟨by decide, by decide, by decide, fun hsame => ?_⟩
  exact absurd hsame.1 (by decide)

/-! ### An `ls` that meets an error -/

/-- A result of true comes with all entries of the directory, and an entry that cannot be read
makes the result false. -/
def Reports (vol : Volume) (errors : DiskErrors) (s : FileSystem) (r : LsResult) : Prop :=
  (r.result = true → ∃ dir, directoryAt vol s.cdir s.current_directory_path = some dir ∧
    r.Lists dir (vol.entries dir)) ∧
  ∀ dir, directoryAt vol s.cdir s.current_directory_path = some dir →
    (∃ n < (vol.entries dir).length, errors.readdir n = true) → r.result = false

lemma reports_of_false {r : LsResult} (h : r.result = false) : Reports vol errors s r :=
  ⟨fun htrue => absurd (h.symm.trans htrue) Bool.false_ne_true, fun _ _ _ => h⟩

/-- `ls` fails if it cannot open the directory or read its first entry. -/
lemma ls_of_error {dir : Directory}
    (hdir : directoryAt vol s.cdir s.current_directory_path = some dir)
    (h : errors.opendir = true ∨ errors.readdir 0 = true) :
    ∃ r, ls vol errors s = some r ∧ r.result = false := by
  rw [ls, f_findfirst, f_opendir]
  cases hopen : errors.opendir with
  | true => exact ⟨_, rfl, rfl⟩
  | false =>
    have hread : errors.readdir 0 = true := h.resolve_left (by simp [hopen])
    simp only [hdir, f_readdir, hread, Bool.false_eq_true, if_false, if_true, Option.map_some]
    exact ⟨_, rfl, rfl⟩

/-- The listed entries are all entries exactly if none of the reads fails before the last one. -/
lemma reports_iff_of_lists {r : LsResult} {dir : Directory}
    (hdir : directoryAt vol s.cdir s.current_directory_path = some dir)
    (hlists : r.Lists dir (readEntries errors.readdir 0 (vol.entries dir))) :
    Reports vol errors s r ↔ ∀ n < (vol.entries dir).length, errors.readdir n = false := by
  have hall : (∀ n < (vol.entries dir).length, errors.readdir n = false) ↔
      readEntries errors.readdir 0 (vol.entries dir) = vol.entries dir := by
    rw [readEntries_eq_self_iff]
    simp only [Nat.zero_add]
  constructor
  · intro hreports
    obtain ⟨dir', hdir', hlists'⟩ := hreports.1 hlists.result_eq
    obtain rfl : dir = dir' := Option.some.inj (hdir.symm.trans hdir')
    have hlength := hlists.number_eq.symm.trans hlists'.number_eq
    exact hall.mpr ((readEntries_initial _ _ _).eq_of_length hlength)
  · intro hread
    rw [hall.mp hread] at hlists
    refine ⟨fun _ => ⟨dir, hdir, hlists⟩, fun dir' hdir' ⟨n, hn, herror⟩ => ?_⟩
    obtain rfl : dir = dir' := Option.some.inj (hdir.symm.trans hdir')
    exact absurd ((hread n hn).symm.trans herror) Bool.false_ne_true

/-- `ls` stores no name outside of its array. What it returns is the whole directory or a failure,
except when the first entry is read and a later one is not. -/
theorem ls_reports_iff (vol : Volume) (errors : DiskErrors) (s : FileSystem) :
    ∃ r, ls vol errors s = some r ∧
      (Reports vol errors s r ↔
        ∀ dir, directoryAt vol s.cdir s.current_directory_path = some dir →
          errors.opendir = true ∨ errors.readdir 0 = true ∨
            ∀ n < (vol.entries dir).length, errors.readdir n = false) := by
  cases hdir : directoryAt vol s.cdir s.current_directory_path with
  | none =>
    refine ⟨_, ls_of_directoryAt_none hdir, iff_of_true (reports_of_false rfl) ?_⟩
    exact fun dir hdir' => absurd hdir'.symm (Option.some_ne_none dir)
  | some dir =>
    simp only [Option.some.injEq, forall_eq']
    by_cases herror : errors.opendir = true ∨ errors.readdir 0 = true
    · obtain ⟨r, hr, hresult⟩ := ls_of_error hdir herror
      refine ⟨r, hr, iff_of_true (reports_of_false hresult) ?_⟩
      exact herror.imp_right Or.inl
    · rw [not_or, Bool.not_eq_true, Bool.not_eq_true] at herror
      obtain ⟨r, hr, hlists⟩ := ls_of_directoryAt errors herror.1 herror.2 hdir
      refine ⟨r, hr, (reports_iff_of_lists hdir hlists).trans ?_⟩
      rw [herror.1, herror.2]
      simp only [Bool.false_eq_true, false_or]

/-- A card with the files `b` and `c` in its root. -/
def twoFiles : Volume where
  entries dir :=
    if dir = [] then [⟨⟨[98], by decide⟩, by decide, false⟩, ⟨⟨[99], by decide⟩, by decide, false⟩]
    else []
  nameMatches _ segment entry := segment = entry.fname.bytes

/-- The second entry cannot be read. -/
def secondReadError : DiskErrors := ⟨false, false, false, fun n => n == 1⟩

/-- The result is true, with the first file only. -/
theorem not_reports_secondReadError :
    (ls twoFiles secondReadError initial).map
        (fun r => (r.result, r.out_number_of_files)) = some (true, 1) ∧
      ∀ r, ls twoFiles secondReadError initial = some r →
        ¬ Reports twoFiles secondReadError initial r := by
  have hls : (ls twoFiles secondReadError initial).map
      (fun r => (r.result, r.out_number_of_files)) = some (true, 1) := by decide
  refine ⟨hls, fun r hr hreports => ?_⟩
  rw [hr] at hls
  have hresult : r.result = true := congrArg Prod.fst (Option.some.inj hls)
  have hfalse := hreports.2 [] rfl ⟨1, by decide, rfl⟩
  exact Bool.false_ne_true (hfalse.symm.trans hresult)

end FileSystem

end VioFrontend
