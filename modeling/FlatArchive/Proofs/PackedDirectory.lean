-- SUMMARY: Packing a directory is packing its files, sorted by name.
import FlatArchive.Proofs.Names
import FlatArchive.Proofs.Refusing
import FlatArchive.Proofs.Reordering
import FlatArchive.Proofs.Restoring

/-!
# Packed directories

A directory is packed as its regular files are, in the order of their names. The number of files is
looked at only after each of them was found to be one that can be packed, so too many of them are
told of as such only if all their paths can be opened. Under a directory whose own path is almost too
long they cannot.
-/

namespace FlatArchive

open Attempt Builder FileSystem Text

namespace FileSystem

variable {fs : FileSystem} {dir p q : Path} {d i : NodeId} {name : Bytes}

/-- The path is refused for its length. -/
def IsTooLong (fs : FileSystem) (p : Path) : Prop := fs.pathLimit.any (· ≤ p.bytes.length) = true

theorem isTooLong_iff {limit : Nat} (hlimit : fs.pathLimit = some limit) :
    fs.IsTooLong p ↔ limit ≤ p.bytes.length := by
  rw [IsTooLong, hlimit, Option.any_some, decide_eq_true_iff]

/-- The names in a directory are distinct, and each of them can be used in a path. -/
structure ProperNames (fs : FileSystem) (d : NodeId) : Prop where
  nodup : ((fs.entries d).map (·.1)).Nodup
  ordinary : ∀ {name i}, (name, i) ∈ fs.entries d → OrdinaryName name

/-- A joined path is as long as its parts, or longer. -/
theorem length_le_length_join (hrelative : q.isAbsolute = false) :
    p.bytes.length + q.bytes.length ≤ (p.join q).bytes.length := by
  unfold Path.join
  rw [hrelative, if_neg Bool.false_ne_true]
  split_ifs
  · rw [List.length_append]
  · rw [List.length_append, List.length_cons]
    omega

theorem accepts_join (hdir : fs.Accepts dir) (hname : OrdinaryName name)
    (hshort : ¬fs.IsTooLong (dir.join ⟨name⟩)) : fs.Accepts (dir.join ⟨name⟩) :=
  hdir.join (Path.isAbsolute_of_no_slash hname.slash_notMem) hname.zero_notMem
    (Bool.eq_false_iff.2 hshort)

/-- A file in a directory is found under the path of its name. -/
theorem find_join (hfind : fs.find dir = .ok d) (hdir : fs.isDirectory d = true)
    (hname : OrdinaryName name) (hchild : fs.child? d name = some i) (hfile : fs.isFile i = true)
    (hshort : ¬fs.IsTooLong (dir.join ⟨name⟩)) : fs.find (dir.join ⟨name⟩) = .ok i := by
  have haccepts := (find_eq_ok_iff.1 hfind).1
  obtain ⟨-, hresolve⟩ := resolve_create_join haccepts.ne_nil hname hfind hdir
    (accepts_join haccepts hname hshort)
  exact find_of_resolve_node (hresolve hchild hfile)

theorem find_of_isTooLong (hzero : 0 ∉ p.bytes) (hne : p.bytes ≠ []) (hlong : fs.IsTooLong p) :
    fs.find p = .error (.os .nameTooLong) := by
  rw [IsTooLong] at hlong
  rw [find, FileSystem.resolve, if_neg (by simpa using hzero), if_neg hne, if_pos hlong]

/-- Slashes at the end of a path lead to the same directory. -/
theorem find_append_slashes (hfind : fs.find p = .ok d) (hdir : fs.isDirectory d = true) (n : Nat)
    (hshort : ¬fs.IsTooLong ⟨p.bytes ++ List.replicate n Path.slash⟩) :
    fs.find ⟨p.bytes ++ List.replicate n Path.slash⟩ = .ok d := by
  obtain ⟨haccepts, left, hwalks⟩ := find_eq_ok_iff.1 hfind
  obtain ⟨b, bs, hbytes⟩ := List.exists_cons_of_ne_nil haccepts.ne_nil
  have hmoves : Path.moves ⟨p.bytes ++ List.replicate n Path.slash⟩ = p.moves := by
    clear hshort
    induction n with
    | zero => rw [List.replicate_zero, List.append_nil]
    | succ n ih => rw [List.replicate_succ', ← List.append_assoc, Path.moves_slash, ih]
  have hstart : fs.start fs.cwd ⟨p.bytes ++ List.replicate n Path.slash⟩ = fs.start fs.cwd p := by
    simp [start, Path.isAbsolute, hbytes]
  refine find_eq_ok_iff.2 ⟨⟨?_, ?_, Bool.eq_false_iff.2 hshort⟩, left, ?_⟩
  · simpa [List.mem_replicate, Path.slash] using haccepts.zero_notMem
  · simp [hbytes]
  · rw [hstart]
    exact hwalks.of_moves_eq hdir hmoves

end FileSystem

variable {fs : FileSystem} {dir output : Path} {d : NodeId} {name : Bytes} {names : List Bytes}

section Directory

variable (hfind : fs.find dir = .ok d) (hdir : fs.isDirectory d = true)

/-! ## The files in a directory -/

include hfind hdir in
/-- A listed file whose name is text can be packed, if its path is not too long. -/
theorem accepted_join (hproper : fs.ProperNames d) (hmem : name ∈ fs.listedFiles d) {text : String}
    (htext : Utf8.encode text = name) (hshort : ¬fs.IsTooLong (dir.join ⟨name⟩)) :
    Accepted fs (dir.join ⟨name⟩) := by
  obtain ⟨i, hentry, hfile⟩ := mem_listedFiles.1 hmem
  have hname := hproper.ordinary hentry
  have hchild : fs.child? d name = some i := (lookup_eq_some_iff_of_nodup hproper.nodup).2 hentry
  have hne := (find_eq_ok_iff.1 hfind).1.ne_nil
  refine ⟨text, i, find_join hfind hdir hname hchild hfile hshort, hfile, entryName_eq_ok_iff.2 ?_⟩
  rw [Path.fileName?_join hne hname.slash_notMem hname.ofSegment, htext]

include hfind in
/-- One whose path is too long cannot be opened. -/
theorem refused_join (hproper : fs.ProperNames d) (hmem : name ∈ fs.listedFiles d)
    (hlong : fs.IsTooLong (dir.join ⟨name⟩)) : Refused fs (dir.join ⟨name⟩)
      (.io "Open source file" (some (dir.join ⟨name⟩)) (.os .nameTooLong)) := by
  obtain ⟨i, hentry, -⟩ := mem_listedFiles.1 hmem
  have hname := hproper.ordinary hentry
  have haccepts := (find_eq_ok_iff.1 hfind).1
  have hrelative := Path.isAbsolute_of_no_slash hname.slash_notMem
  have hzero := zero_notMem_join haccepts.zero_notMem hname.zero_notMem
  exact .unopenable (find_of_isTooLong hzero (Path.join_ne_nil haccepts.ne_nil hrelative) hlong)
    (by simp)

include hfind hdir in
/-- When all its files can be packed, but not so many of them, nothing is done. -/
theorem exec_packDirectory_of_headerFor_error {cause : Error}
    (haccepted : ∀ name ∈ fs.fileNames d, Accepted fs (dir.join ⟨name⟩))
    (hcount : headerFor (fs.fileNames d).length = .error cause) (output : Path) :
    (packDirectory output dir).start fs = (.error cause, ⟨fs, []⟩) := by
  have hinputs : ∀ p ∈ (fs.fileNames d).map fun name => dir.join ⟨name⟩, Accepted fs p := by
    simpa using haccepted
  obtain ⟨items, hitems⟩ := adds_of_accepted hinputs
  have hbuild := build_eq_ok_iff (b := ⟨items⟩).2 hitems
  have hheader : header ⟨items⟩ = .error cause := by
    rw [header, count, ← hitems.length_eq, List.length_map, hcount]
  rw [Task.start, exec_packDirectory, build_addDirectory hfind hdir,
    exec_bind_ok (exec_liftM_eq_ok_iff.2 ⟨hbuild, rfl⟩)]
  refine exec_bind_error ?_
  rw [exec_liftM, hheader]

include hfind hdir in
/-- The first of its files that is refused ends it. -/
theorem exec_packDirectory_of_refused {before after : List Bytes} {e : Error}
    (hsplit : fs.fileNames d = before ++ name :: after)
    (hbefore : ∀ name ∈ before, Accepted fs (dir.join ⟨name⟩))
    (hrefused : Refused fs (dir.join ⟨name⟩) e) (output : Path) :
    (packDirectory output dir).start fs = (.error e, ⟨fs, []⟩) := by
  have hinputs : ∀ p ∈ before.map fun name => dir.join ⟨name⟩, Accepted fs p := by
    simpa using hbefore
  rw [Task.start, exec_packDirectory, build_addDirectory hfind hdir, hsplit, List.map_append,
    List.map_cons]
  refine exec_bind_error ?_
  rw [exec_liftM, hrefused.build_addFiles hinputs]

end Directory

/-! ## The whole of it -/

/-- Let `names` be the names of the regular files in a directory, sorted by their bytes. If there are
not too many, packing the directory is packing the paths of these names. If there are none, or too
many names that are text, it fails and changes nothing: the number is told of, unless a path is too long,
and then the first such path is. In whatever order the directory lists its names, it does the same. -/
theorem packDirectory_sorted_files (hfind : fs.find dir = .ok d) (hdir : fs.isDirectory d = true)
    (hperm : names.Perm (fs.listedFiles d)) (hsorted : names.Pairwise (· ≤ ·)) (output : Path) :
    (names ≠ [] → names.length ≤ maxEntries →
        (packDirectory output dir).start fs =
          (pack output (names.map fun name => dir.join ⟨name⟩)).start fs)
      ∧ (names = [] → (packDirectory output dir).start fs = (.error (.format .noEntries), ⟨fs, []⟩))
      ∧ (fs.ProperNames d → maxEntries < names.length →
          (∀ name ∈ names, ∃ text, Utf8.encode text = name) →
          ((∀ name ∈ names, ¬fs.IsTooLong (dir.join ⟨name⟩)) →
            (packDirectory output dir).start fs =
              (.error (.format (.tooManyEntries names.length)), ⟨fs, []⟩))
          ∧ ∀ before name after, names = before ++ name :: after →
            (∀ shorter ∈ before, ¬fs.IsTooLong (dir.join ⟨shorter⟩)) →
            fs.IsTooLong (dir.join ⟨name⟩) →
            (packDirectory output dir).start fs =
              (.error (.io "Open source file" (some (dir.join ⟨name⟩)) (.os .nameTooLong)), ⟨fs, []⟩))
      ∧ ∀ fs', fs.Reordered fs' → ∃ result s s',
          (packDirectory output dir).start fs = (result, s)
            ∧ (packDirectory output dir).start fs' = (result, s')
            ∧ s.events = s'.events ∧ s.state.Reordered s'.state := by
  have hnames : fs.fileNames d = names := fileNames_eq hperm hsorted
  subst hnames
  refine ⟨fun hne hle => ?_, fun hnil => ?_, fun hproper hmany htext => ⟨fun hshort => ?_, ?_⟩, ?_⟩
  · have hcount := headerFor_of_le (List.length_pos_iff.2 hne) hle
    exact exec_packDirectory_eq_pack output hfind hdir hcount
  · refine exec_packDirectory_of_headerFor_error hfind hdir ?_ ?_ output
    · rw [hnil]
      exact List.forall_mem_nil _
    · rw [hnil]
      rfl
  · have hcount := headerFor_of_lt hmany
    refine exec_packDirectory_of_headerFor_error hfind hdir (fun name hmem => ?_) hcount output
    obtain ⟨text, htext⟩ := htext name hmem
    exact accepted_join hfind hdir hproper (hperm.mem_iff.1 hmem) htext (hshort name hmem)
  · intro before name after hsplit hbefore hlong
    have hmem : ∀ {name'}, name' ∈ before ++ name :: after → name' ∈ fs.listedFiles d :=
      fun h => hperm.mem_iff.1 (hsplit ▸ h)
    have hrefused := refused_join hfind hproper (hmem (by simp)) hlong
    refine exec_packDirectory_of_refused hfind hdir hsplit (fun shorter h => ?_) hrefused output
    have hlisted := List.mem_append_left (name :: after) h
    obtain ⟨text, htext⟩ := htext shorter (hsplit ▸ hlisted)
    exact accepted_join hfind hdir hproper (hmem hlisted) htext (hbefore shorter h)
  · intro fs' hreordered
    have hrelated : Session.Related Reordered ⟨fs, []⟩ ⟨fs', []⟩ := ⟨hreordered, rfl⟩
    rcases hpack : (packDirectory output dir).start fs with ⟨result, s⟩
    obtain ⟨s', hpack', hstate, hevents⟩ :=
      (follows_packDirectory output dir).exec_eq hrelated hpack
    exact ⟨result, s, s', rfl, hpack', hevents, hstate⟩

/-- A directory `d` with the files `b` and `a`, a symbolic link `l` to one of them, and a directory. -/
def mixedDirectory : FileSystem where
  nodes := #[.directory 0 [([0x64], 1)],
    .directory 0 [([0x62], 2), ([0x6C], 3), ([0x61], 4), ([0x73], 5)], .file [7], .link [0x62],
    .file [8], .directory 1 []]
  root := 0
  cwd := 0
  pathLimit := some 4096

theorem packDirectory_sorted_files_mixedDirectory :
    (packDirectory ⟨[0x69]⟩ ⟨[0x64]⟩).start mixedDirectory =
      (pack ⟨[0x69]⟩ [⟨[0x64, 0x2F, 0x61]⟩, ⟨[0x64, 0x2F, 0x62]⟩]).start mixedDirectory := by
  have hfind : mixedDirectory.find ⟨[0x64]⟩ = .ok 1 := by cbv
  have hperm : [[0x61], [0x62]].Perm (mixedDirectory.listedFiles 1) := by decide
  obtain ⟨hpack, -⟩ := packDirectory_sorted_files hfind rfl hperm (by decide) ⟨[0x69]⟩
  exact hpack (List.cons_ne_nil _ _) (by decide)

/-! ## A directory whose path is almost too long -/

/-- The name of file `k` of 256: two letters from `a` to `p`. -/
def letters (k : Nat) : Bytes := [UInt8.ofNat (0x61 + k / 16), UInt8.ofNat (0x61 + k % 16)]

/-- A directory `d` with 256 files. -/
def crowdedDirectory : FileSystem where
  nodes := #[.directory 0 [([0x64], 1)], .directory 0 ((List.range 256).map fun k => (letters k, 2)),
    .file [7]]
  root := 0
  cwd := 0
  pathLimit := some 4096

theorem entries_crowdedDirectory :
    crowdedDirectory.entries 1 = (List.range 256).map fun k => (letters k, 2) := rfl

theorem listedFiles_crowdedDirectory :
    crowdedDirectory.listedFiles 1 = (List.range 256).map letters := by
  have hfiles : ∀ e ∈ crowdedDirectory.entries 1, crowdedDirectory.isFile e.2 = true := by
    intro e he
    rw [entries_crowdedDirectory] at he
    obtain ⟨k, -, rfl⟩ := List.mem_map.1 he
    rfl
  rw [listedFiles, List.filter_eq_self.2 hfiles, entries_crowdedDirectory, List.map_map]
  rfl

theorem ordinaryName_letters {k : Nat} (hk : k < 256) : OrdinaryName (letters k) := by
  have hletters : ∀ k < 256, Path.slash ∉ letters k
      ∧ Step.ofSegment (letters k) = some (.down (letters k)) ∧ 0 ∉ letters k := by
    decide +kernel
  obtain ⟨hslash, hsegment, hzero⟩ := hletters k hk
  have hlength : 2 ≤ maxNameLength := by decide
  exact ⟨hslash, hsegment, hzero, hlength⟩

theorem properNames_crowdedDirectory : crowdedDirectory.ProperNames 1 where
  nodup := by
    rw [entries_crowdedDirectory, List.map_map]
    refine List.Nodup.map_on (fun k hk j hj heq => ?_) List.nodup_range
    rw [List.mem_range] at hk hj
    simp only [Function.comp_apply, letters, List.cons.injEq, ← UInt8.toNat_inj,
      UInt8.toNat_ofNat', and_true] at heq
    omega
  ordinary {name i} hmem := by
    rw [entries_crowdedDirectory] at hmem
    obtain ⟨k, hk, heq⟩ := List.mem_map.1 hmem
    cases heq
    exact ordinaryName_letters (List.mem_range.1 hk)

theorem text_letters {k : Nat} (hk : k < 256) : ∃ text, Utf8.encode text = letters k := by
  have htext : ∀ k < 256, Utf8.encode (String.ofList [Char.ofNat (0x61 + k / 16),
      Char.ofNat (0x61 + k % 16)]) = letters k := by
    decide +kernel
  exact ⟨_, htext k hk⟩

theorem find_crowdedDirectory : crowdedDirectory.find ⟨[0x64]⟩ = .ok 1 :=
  find_eq_ok_iff.2 ⟨⟨by decide, by decide, rfl⟩, maxLinks, .enter rfl (by decide) rfl nofun .stay⟩

/-- The directory can be found under a path of 4095 bytes, but none of the files in it can. -/
theorem not_tooManyEntries_of_crowdedDirectory :
    ¬∀ (fs : FileSystem) (output dir : Path) (d : NodeId) (names : List Bytes),
      fs.find dir = .ok d → fs.isDirectory d = true → fs.ProperNames d →
      names.Perm (fs.listedFiles d) → names.Pairwise (· ≤ ·) → maxEntries < names.length →
      (∀ name ∈ names, ∃ text, Utf8.encode text = name) →
      (packDirectory output dir).start fs =
        (.error (.format (.tooManyEntries names.length)), ⟨fs, []⟩) := by
  intro h
  have hmem : ∀ {name}, name ∈ crowdedDirectory.fileNames 1 → ∃ k < 256, letters k = name := by
    intro name hname
    rw [(fileNames_perm _ _).mem_iff, listedFiles_crowdedDirectory] at hname
    obtain ⟨k, hk, hname⟩ := List.mem_map.1 hname
    exact ⟨k, List.mem_range.1 hk, hname⟩
  have hlength : (crowdedDirectory.fileNames 1).length = 256 := by
    rw [(fileNames_perm _ _).length_eq, listedFiles_crowdedDirectory, List.length_map,
      List.length_range]
  have htext : ∀ name ∈ crowdedDirectory.fileNames 1, ∃ text, Utf8.encode text = name := by
    intro name hname
    obtain ⟨k, hk, rfl⟩ := hmem hname
    exact text_letters hk
  have hmany : maxEntries < (crowdedDirectory.fileNames 1).length := by
    rw [hlength]
    decide
  have hshort : ¬crowdedDirectory.IsTooLong ⟨[0x64] ++ List.replicate 4094 Path.slash⟩ := by
    rw [isTooLong_iff rfl, List.length_append, List.length_replicate]
    decide
  have hfind := find_append_slashes find_crowdedDirectory rfl 4094 hshort
  have htold := h crowdedDirectory ⟨[0x69]⟩ _ 1 _ hfind rfl properNames_crowdedDirectory
    (fileNames_perm _ _) (fileNames_sorted _ _) hmany htext
  cases hnames : crowdedDirectory.fileNames 1 with
  | nil => simp [hnames] at hlength
  | cons name names =>
    have hfirst : name ∈ crowdedDirectory.fileNames 1 := by
      rw [hnames]
      exact List.mem_cons_self
    have hlong : crowdedDirectory.IsTooLong
        (Path.join ⟨[0x64] ++ List.replicate 4094 Path.slash⟩ ⟨name⟩) := by
      obtain ⟨k, hk, rfl⟩ := hmem hfirst
      have hrelative := Path.isAbsolute_of_no_slash (ordinaryName_letters hk).slash_notMem
      rw [isTooLong_iff rfl]
      refine Nat.le_trans ?_ (length_le_length_join hrelative)
      rw [List.length_append, List.length_replicate]
      exact (by decide : 4096 ≤ 1 + 4094 + 2)
    have hrefused := refused_join hfind properNames_crowdedDirectory
      ((fileNames_perm _ _).mem_iff.1 hfirst) hlong
    rw [exec_packDirectory_of_refused hfind rfl hnames (List.forall_mem_nil _) hrefused] at htold
    cases htold

end FlatArchive
