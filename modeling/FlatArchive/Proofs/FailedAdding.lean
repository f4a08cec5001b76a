-- SUMMARY: What a builder holds after a file or a directory could not be added to it.
import FlatArchive.Proofs.Refusing

/-!
# Failed adding

A file is added when all that is asked of it has been checked, so one that is refused leaves the
builder as it was. A directory is looked at before any of its files is added. Then they are added one
by one, in the order of their names, up to the first one that is refused. What was added before that
one stays: adding fails fast and takes nothing back.
-/

namespace FlatArchive.Builder

open Attempt

variable {fs : FileSystem} {dir : Path} {b b' : Builder} {e : Error}

/-- What can be wrong with a directory, and the error that says so. -/
inductive RefusedDirectory (fs : FileSystem) (dir : Path) : Error → Prop where
  | missing (find : fs.find dir = .error (.os .noEntry)) : RefusedDirectory fs dir (.fileNotFound dir)
  | unreachable {cause : IoError} (find : fs.find dir = .error cause) (ne : cause ≠ .os .noEntry) :
      RefusedDirectory fs dir (.io "Stat directory" (some dir) cause)
  | other {i : NodeId} (find : fs.find dir = .ok i) (other : fs.isDirectory i = false) :
      RefusedDirectory fs dir (.notADirectory dir)

theorem openDirectory_eq_error_iff :
    openDirectory fs dir = .error e ↔ RefusedDirectory fs dir e := by
  unfold openDirectory
  constructor
  · intro h
    cases hfind : fs.find dir with
    | ok i =>
      rw [hfind] at h
      dsimp only at h
      split_ifs at h with hdir
      cases h
      exact .other hfind (Bool.eq_false_of_not_eq_true hdir)
    | error cause =>
      rw [hfind] at h
      dsimp only at h
      split_ifs at h with hmissing
      · cases h
        rw [FileSystem.isNotFound_iff.1 hmissing] at hfind
        exact .missing hfind
      · cases h
        exact .unreachable hfind fun hcause => hmissing (FileSystem.isNotFound_iff.2 hcause)
  · intro h
    cases h with
    | missing hfind =>
      rw [hfind]
      rfl
    | unreachable hfind hne =>
      rw [hfind]
      dsimp only
      rw [if_neg fun hmissing => hne (FileSystem.isNotFound_iff.1 hmissing)]
    | other hfind hother =>
      rw [hfind]
      dsimp only
      rw [hother]
      rfl

/-! ## The whole of it -/

/-- Adding a file fails exactly if it is refused, and the builder then holds what it held before.
Adding a directory fails exactly if the directory is refused, and the builder then holds what it held
before too, or if one of its files is; then the files before the first refused one were added behind
what the builder held, in the order of their names. -/
theorem items_of_failed_adding (fs : FileSystem) (p dir : Path) (b b' : Builder) (e : Error) :
    ((addFile fs p).exec b = (.error e, b') ↔ Refused fs p e ∧ b' = b)
      ∧ ((addDirectory fs dir).exec b = (.error e, b') ↔
          RefusedDirectory fs dir e ∧ b' = b
          ∨ ∃ d before name after items, fs.find dir = .ok d ∧ fs.isDirectory d = true
              ∧ fs.fileNames d = before ++ name :: after
              ∧ List.Forall₂ (Adds fs) (before.map fun name => dir.join ⟨name⟩) items
              ∧ Refused fs (dir.join ⟨name⟩) e ∧ b' = ⟨b.items ++ items⟩) := by
  refine ⟨exec_addFile_eq_error_iff, ?_⟩
  rw [addDirectory, exec_bind_eq_error_iff, exec_liftM_eq_error_iff, openDirectory_eq_error_iff]
  refine or_congr_right ⟨?_, ?_⟩
  · rintro ⟨d, b₁, hopened, hfiles⟩
    obtain ⟨hopen, rfl⟩ := exec_liftM_eq_ok_iff.1 hopened
    obtain ⟨hfind, hdir⟩ := openDirectory_eq_ok_iff.1 hopen
    obtain ⟨before, p, after, items, hsplit, hitems, hrefused, rfl⟩ :=
      exec_addFiles_eq_error_iff.1 hfiles
    obtain ⟨names, others, hnames, rfl, hothers⟩ := List.map_eq_append_iff.1 hsplit
    obtain ⟨name, others, rfl, rfl, rfl⟩ := List.map_eq_cons_iff.1 hothers
    exact ⟨d, names, name, others, items, hfind, hdir, hnames, hitems, hrefused, rfl⟩
  · rintro ⟨d, before, name, after, items, hfind, hdir, hnames, hitems, hrefused, rfl⟩
    have hopen := openDirectory_eq_ok_iff.2 ⟨hfind, hdir⟩
    refine ⟨d, b, exec_liftM_eq_ok_iff.2 ⟨hopen, rfl⟩, exec_addFiles_eq_error_iff.2 ?_⟩
    exact ⟨_, _, _, items, by rw [hnames, List.map_append, List.map_cons], hitems, hrefused, rfl⟩

/-- Of the files `a` and `\xFF` of the directory `d` the second has a name that is not text. So the
directory cannot be added, and the builder, which was empty, holds the first. -/
theorem file_kept_of_refused_directory :
    let fs : FileSystem := ⟨#[.directory 0 [([0x64], 1)], .directory 0 [([0x61], 2), ([0xFF], 3)],
      .file [7], .file [8]], 0, 0, none, 4096⟩
    (addDirectory fs ⟨[0x64]⟩).exec empty =
        (.error (.invalidInput ⟨[0x64, 0x2F, 0xFF]⟩ "file name is not valid UTF-8"),
          ⟨[⟨"a", .file ⟨[0x64, 0x2F, 0x61]⟩⟩]⟩)
      ∧ Builder.mk [⟨"a", .file ⟨[0x64, 0x2F, 0x61]⟩⟩] ≠ empty := by
  intro fs
  have hnames : fs.fileNames 1 = [[0x61], [0xFF]] := by cbv
  have hname : entryName ⟨[0x64, 0x2F, 0x61]⟩ = .ok "a" := entryName_eq_ok_iff.2 (by cbv)
  have hadds : Adds fs ⟨[0x64, 0x2F, 0x61]⟩ ⟨"a", .file ⟨[0x64, 0x2F, 0x61]⟩⟩ :=
    ⟨rfl, 2, by cbv, rfl, hname⟩
  have hdecode : Text.Utf8.decode [0xFF] = .error ⟨0, some 1⟩ := by cbv
  have hrefused : Refused fs ⟨[0x64, 0x2F, 0xFF]⟩
      (.invalidInput ⟨[0x64, 0x2F, 0xFF]⟩ "file name is not valid UTF-8") :=
    .notText (i := 3) (by cbv) rfl (by cbv) (Text.Utf8.encode_ne_of_decode_eq_error hdecode)
  refine ⟨?_, by simp [empty]⟩
  rw [exec_addDirectory (d := 1) (by cbv) rfl, hnames]
  exact exec_addFiles_eq_error_iff.2
    ⟨[⟨[0x64, 0x2F, 0x61]⟩], _, [], _, rfl, .cons hadds .nil, hrefused, rfl⟩

end FlatArchive.Builder
