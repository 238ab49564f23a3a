import VioFrontend.Drivers.FileSystem

/-!
# The two current directories

Runs of `cd` and `ls` on a card without disk errors. After a successful `cd`, FatFs resolves
relative paths against the directory of the path, and `ls` follows the same path once more, now
from that directory. It comes back to it if the path is absolute, or if it goes up as far as it
comes down and can be followed twice in a row.
-/

namespace VioFrontend

open FatFs FileSystem

inductive Call where
  | cd (path : CString)
  | ls

/-- The file system, and the directory that the last successful `cd` made current. -/
structure Session where
  fs : FileSystem
  made : Option Directory

namespace Session

/-- One call. A failing `cd` makes no directory current. -/
def step (vol : Volume) (s : Session) : Call → Session
  | .cd path =>
    let r := FileSystem.cd vol noErrors path s.fs
    ⟨r.2, if r.1 then some r.2.cdir else s.made⟩
  | .ls => ⟨(FileSystem.ls vol noErrors s.fs).elim s.fs LsResult.state, s.made⟩

def run (vol : Volume) (calls : List Call) : Session :=
  calls.foldl (step vol) ⟨FileSystem.initial, none⟩

/-- `ls` would list the directory that the last successful `cd` made current, which is that of
FatFs. -/
def Agrees (vol : Volume) (s : Session) : Prop :=
  ∀ dir, s.made = some dir → s.fs.cdir = dir ∧
    ∃ r, FileSystem.ls vol noErrors s.fs = some r ∧ r.Lists dir (vol.entries dir)

/-- The path is absolute, or a relative one that goes up as far as it comes down, or to the root
and not further down than up, and that can be followed twice in a row. -/
def Repeatable (vol : Volume) (cdir : Directory) (path : CString) : Prop :=
  ∃ rest, mount_volume path.bytes = some rest ∧
    (hasHeadingSeparator rest = true ∨
      ((TreeWalk.walk (subdirectory vol) cdir (steps rest ++ steps rest)).isSome = true ∧
        TreeWalk.Balanced cdir (steps rest)))

lemma directoryAt_again_iff {vol : Volume} {cdir dir : Directory} {path : CString}
    (h : directoryAt vol cdir path = some dir) :
    directoryAt vol dir path = some dir ↔ Repeatable vol cdir path := by
  obtain ⟨rest, hrest, hfollow⟩ := Option.bind_eq_some_iff.mp h
  simp only [Repeatable, directoryAt, hrest, Option.bind_eq_bind, Option.bind_some,
    Option.some.injEq, exists_eq_left']
  rw [follow_path] at hfollow ⊢
  cases hsep : hasHeadingSeparator rest with
  | true =>
    rw [hsep] at hfollow
    exact ⟨fun _ => Or.inl rfl, fun _ => hfollow⟩
  | false =>
    rw [hsep] at hfollow
    simp only [Bool.false_eq_true, if_false, false_or] at hfollow ⊢
    exact TreeWalk.walk_end_iff hfollow

/-- The invariant of the runs: the directory that was made current is that of FatFs, and the stored
path leads back to it. -/
def Settled (vol : Volume) (s : Session) : Prop :=
  ∀ dir, s.made = some dir → s.fs.cdir = dir ∧
    directoryAt vol s.fs.cdir s.fs.current_directory_path = some dir

lemma agrees_iff_settled {vol : Volume} {s : Session} : Agrees vol s ↔ Settled vol s :=
  forall₂_congr fun _ _ => and_congr_right fun _ => ls_lists_iff

lemma Settled.step_ls {vol : Volume} {s : Session} (h : Settled vol s) :
    Settled vol (step vol s .ls) := by
  intro dir hmade
  cases hls : FileSystem.ls vol noErrors s.fs with
  | none =>
    simp only [step, hls, Option.elim_none]
    exact h dir hmade
  | some r =>
    obtain ⟨hcdir, hpath⟩ := ls_frame hls
    simp only [step, hls, Option.elim_some, hcdir, hpath]
    exact h dir hmade

lemma Settled.step_cd {vol : Volume} {s : Session} {path : CString} (h : Settled vol s)
    (hrep : (FileSystem.cd vol noErrors path s.fs).1 = true → Repeatable vol s.fs.cdir path) :
    Settled vol (step vol s (.cd path)) := by
  intro dir hmade
  cases hcd : (FileSystem.cd vol noErrors path s.fs).1 with
  | true =>
    obtain ⟨hdir, hpath⟩ := cd_of_true hcd
    simp only [step, hcd, if_true, Option.some.injEq] at hmade ⊢
    refine ⟨hmade, ?_⟩
    rw [hpath, ← hmade]
    exact (directoryAt_again_iff hdir).mpr (hrep hcd)
  | false =>
    obtain ⟨hcdir, hpath⟩ := cd_of_false hcd
    simp only [step, hcd, Bool.false_eq_true, if_false] at hmade ⊢
    rw [hcdir, hpath]
    exact h dir hmade

lemma run_append (vol : Volume) (calls : List Call) (call : Call) :
    run vol (calls ++ [call]) = step vol (run vol calls) call := by
  simp [run]

/-- A successful `cd` with a path that does not lead back leaves the two directories apart. -/
lemma repeatable_of_settled {vol : Volume} {s : Session} {path : CString}
    (hcd : (FileSystem.cd vol noErrors path s.fs).1 = true)
    (h : Settled vol (step vol s (.cd path))) : Repeatable vol s.fs.cdir path := by
  obtain ⟨hdir, hpath⟩ := cd_of_true hcd
  obtain ⟨-, hagain⟩ := h (FileSystem.cd vol noErrors path s.fs).2.cdir (by simp [step, hcd])
  rw [← directoryAt_again_iff hdir, ← hagain]
  simp only [step, hpath]

/-- In every run of `cd` and `ls`, `ls` lists the directory that the last successful `cd` made
current at every point exactly if the path of every successful `cd` is absolute or leads from its
end back to it. -/
theorem agrees_iff_repeatable (vol : Volume) (calls : List Call) :
    (∀ calls', calls' <+: calls → Agrees vol (run vol calls')) ↔
      ∀ calls' path, calls' ++ [Call.cd path] <+: calls →
        (FileSystem.cd vol noErrors path (run vol calls').fs).1 = true →
          Repeatable vol (run vol calls').fs.cdir path := by
  simp only [agrees_iff_settled]
  constructor
  · intro hsettled calls' path hprefix hcd
    have h := hsettled _ hprefix
    rw [run_append] at h
    exact repeatable_of_settled hcd h
  · intro hrep calls'
    induction calls' using List.reverseRecOn with
    | nil => exact fun _ _ hmade => absurd hmade.symm (Option.some_ne_none _)
    | append_singleton calls' call ih =>
      intro hprefix
      have h := ih ((List.prefix_append calls' [call]).trans hprefix)
      rw [run_append]
      cases call with
      | cd path => exact h.step_cd (hrep calls' path hprefix)
      | ls => exact h.step_ls

/-- A relative path of names only never leads back. -/
lemma not_repeatable_of_names {vol : Volume} {cdir : Directory} {path : CString}
    {rest : List UInt8} (names : List (List UInt8)) (hrest : mount_volume path.bytes = some rest)
    (hsep : hasHeadingSeparator rest = false) (hnames : steps rest = names.map .enter)
    (hne : names ≠ []) : ¬ Repeatable vol cdir path := by
  rintro ⟨rest', hrest', hrep⟩
  obtain rfl : rest = rest' := Option.some.inj (hrest.symm.trans hrest')
  rcases hrep with htrue | ⟨-, hbal⟩
  · exact Bool.false_ne_true (hsep.symm.trans htrue)
  · rw [hnames] at hbal
    exact TreeWalk.not_balanced_map_enter hne cdir hbal

/-- The name `a`. -/
def directoryName : CString := ⟨[97], by decide⟩

/-- A card whose root holds one directory with nothing in it. -/
def oneDirectory : Volume where
  entries dir := if dir = [] then [⟨directoryName, by decide, true⟩] else []
  nameMatches _ segment entry := segment = entry.fname.bytes

/-- After `cd("a")` from the root, `ls` looks for a directory `a` in the directory `a`. -/
theorem not_agrees_relativePath :
    (FileSystem.cd oneDirectory noErrors directoryName FileSystem.initial).1 = true ∧
      (run oneDirectory [.cd directoryName]).fs.cdir = [directoryName] ∧
      (FileSystem.ls oneDirectory noErrors (run oneDirectory [.cd directoryName]).fs).map
        LsResult.result = some false ∧
      ¬ ∀ calls', calls' <+: [Call.cd directoryName] →
        Agrees oneDirectory (run oneDirectory calls') := by
  have hcd : (FileSystem.cd oneDirectory noErrors directoryName FileSystem.initial).1 = true := by
    decide
  refine ⟨hcd, by decide, by decide, fun hagrees => ?_⟩
  have hrep := repeatable_of_settled (s := ⟨FileSystem.initial, none⟩) hcd
    (agrees_iff_settled.mp (hagrees _ (List.prefix_refl _)))
  exact not_repeatable_of_names [[97]] rfl rfl rfl (by decide) hrep

end Session

end VioFrontend
