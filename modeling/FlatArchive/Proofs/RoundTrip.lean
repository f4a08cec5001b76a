-- SUMMARY: Unpacking what was packed restores every file.
import FlatArchive.Proofs.Packing
import FlatArchive.Proofs.Restoring

/-!
# The round trip

What was packed and is unpacked into an empty directory is there again: a file for each name, with
the content that the last input of that name had when it was packed, and nothing else. The names are
single components of paths, so no input can lead out of the directory or ask for another one.
-/

namespace FlatArchive

open Attempt FileSystem Text

/-! ## What is expected -/

/-- What can be read at a path. -/
def FileSystem.contentAt (fs : FileSystem) (p : Path) : Bytes :=
  match fs.find p with
  | .ok i => fs.content i
  | .error _ => []

/-- The content of the last of the paths that has this file name. -/
def lastContent (fs : FileSystem) (inputs : List Path) (name : Bytes) : Option Bytes :=
  (inputs.reverse.find? fun p => p.fileName? == some name).map fs.contentAt

variable {fs packed base : FileSystem} {output dir p : Path} {inputs : List Path}
  {entries : List Entry} {e : Entry} {d : NodeId}

theorem Builder.Packs.fileName? (h : Builder.Packs fs p e) :
    p.fileName? = some (Utf8.encode e.name) := by
  obtain ⟨i, hsource, -⟩ := h
  exact entryName_eq_ok_iff.1 hsource.entryName

theorem Builder.Packs.contentAt (h : Builder.Packs fs p e) : fs.contentAt p = e.content := by
  obtain ⟨i, hsource, hcontent⟩ := h
  rw [FileSystem.contentAt, hsource.find, hcontent]

/-- Every entry comes from an input. -/
theorem exists_input (h : List.Forall₂ (Builder.Packs fs) inputs entries) (hmem : e ∈ entries) :
    ∃ p ∈ inputs, Builder.Packs fs p e := by
  induction h with
  | nil => cases hmem
  | @cons p e' inputs entries hpacks _ ih =>
    rcases List.mem_cons.1 hmem with rfl | hmem
    · exact ⟨p, List.mem_cons_self, hpacks⟩
    · obtain ⟨q, hq, hpacks'⟩ := ih hmem
      exact ⟨q, List.mem_cons_of_mem _ hq, hpacks'⟩

/-- The names of the entries are the file names of the inputs. -/
theorem map_fileName? (h : List.Forall₂ (Builder.Packs fs) inputs entries) :
    inputs.map Path.fileName? = entries.map fun e => some (Utf8.encode e.name) := by
  induction h with
  | nil => rfl
  | cons hpacks _ ih => rw [List.map_cons, List.map_cons, hpacks.fileName?, ih]

/-- The last entry of a name is the one of the last input with that file name. -/
theorem lastEntry_eq (h : List.Forall₂ (Builder.Packs fs) inputs entries) :
    lastEntry entries = lastContent fs inputs := by
  funext name
  rw [lastEntry, lastContent]
  have hreverse := List.forall₂_reverse_iff.2 h
  generalize entries.reverse = later at hreverse
  generalize inputs.reverse = later_inputs at hreverse
  induction hreverse with
  | nil => rfl
  | @cons p e inputs entries hpacks _ ih =>
    rw [List.find?_cons, List.find?_cons, hpacks.fileName?]
    by_cases hname : Utf8.encode e.name = name
    · simp [hname, hpacks.contentAt]
    · have hne : (some (Utf8.encode e.name) == some name) = false := by simp [hname]
      have hne' : (Utf8.encode e.name == name) = false := by simp [hname]
      rw [hne, hne']
      exact ih

/-- The directory for the output is empty once it is there: it was there already, or it is made with
its parents. -/
inductive EmptyOutput (fs : FileSystem) (dir : Path) : FileSystem → NodeId → Prop where
  | present {d : NodeId} (find : fs.find dir = .ok d) (directory : fs.isDirectory d = true)
      (empty : fs.entries d = []) : EmptyOutput fs dir fs d
  | made {base : FileSystem} {d : NodeId} (missing : fs.find dir = .error (.os .noEntry))
      (makeDirs : makeDirs dir fs = (.ok (), base)) (find : base.find dir = .ok d)
      (empty : base.entries d = []) : EmptyOutput fs dir base d

/-- What is reported of the directory for the output: that it was made, unless it was there. -/
def createdEvents (fs : FileSystem) (dir : Path) : List Event :=
  if fs.isDirectoryAt dir then [] else [.createdDir dir]

theorem EmptyOutput.exec_prepareDirectory (h : EmptyOutput fs dir base d) (events : List Event) :
    (prepareDirectory dir).exec ⟨fs, events⟩ = (.ok (), ⟨base, events ++ createdEvents fs dir⟩) := by
  rw [prepareDirectory, exec_bind_ok (exec_get _), createdEvents, isDirectoryAt]
  cases h with
  | present hfind hdir hempty => simp [hfind, hdir]
  | made hmissing hmake hfind hempty =>
    simp only [hmissing, IoError.isNotFound, if_true, Bool.false_eq_true, if_false]
    rw [exec_bind_ok (Task.exec_io_ok _ (by rw [createDirAll, exec_ofFn, hmake]))]
    rfl

/-- Where the directory for the output is prepared. -/
theorem EmptyOutput.prepare (h : EmptyOutput fs dir base d) (hne : dir.bytes ≠ [])
    (events : List Event) :
    fs.AddsDirectories base ∧ base.find dir = .ok d ∧ base.isDirectory d = true
      ∧ base.entries d = []
      ∧ ∃ created, (prepareDirectory dir).exec ⟨fs, events⟩ = (.ok (), ⟨base, events ++ created⟩)
        ∧ ∀ event ∈ created, event = .createdDir dir := by
  have hcreated : ∃ created,
      (prepareDirectory dir).exec ⟨fs, events⟩ = (.ok (), ⟨base, events ++ created⟩)
        ∧ ∀ event ∈ created, event = .createdDir dir := by
    refine ⟨createdEvents fs dir, h.exec_prepareDirectory events, ?_⟩
    unfold createdEvents
    split_ifs <;> simp
  cases h with
  | present hfind hdir hempty => exact ⟨.refl fs, hfind, hdir, hempty, hcreated⟩
  | made hmissing hmake hfind hempty =>
    have hadds := AddsDirectories.makeDirs dir fs
    rw [hmake] at hadds
    obtain ⟨d', hfind', hdir⟩ := isDirectoryAt_iff.1 (isDirectoryAt_of_makeDirs hne hmake)
    rw [hfind] at hfind'
    cases hfind'
    exact ⟨hadds, hfind, hdir, hempty, hcreated⟩

/-! ## The round trip -/

/-- What was packed can be extracted. -/
theorem extractable_of_packs (hpacks : Builder.Packs fs p e) (hbase : base.Accepts dir)
    (hsize : (fs.contentAt p).length < 2 ^ 64)
    (hlimit : base.pathLimit.any (· ≤ (dir.join (Path.ofString e.name)).bytes.length) = false) :
    Extractable base dir e := by
  obtain ⟨i, hsource, -⟩ := id hpacks
  have hname := ordinaryName_of_find hsource.find hpacks.fileName?
  have hrel : (Path.ofString e.name).isAbsolute = false :=
    Path.isAbsolute_of_no_slash hname.slash_notMem
  exact ⟨hname, hbase.join hrel hname.zero_notMem hlimit, hpacks.contentAt ▸ hsize⟩

/-- Unpacking what was packed restores every file. The output of the pack is a regular file if it is
there already, the lengths of the inputs are numbers of 64 bits, and the paths of the files that are to
be restored are not too long. Then unpacking into a directory that is empty succeeds. It leaves there
the last content of each name, and nothing else, and has no anomaly to report. -/
theorem unpack_pack {size : Nat} {events : List Event}
    (hpack : (pack output inputs).start fs = (.ok size, ⟨packed, events⟩))
    (hregular : ∀ {i}, fs.find output = .ok i → fs.isFile i = true)
    (hsize : ∀ p ∈ inputs, (fs.contentAt p).length < 2 ^ 64) (hne : dir.bytes ≠ [])
    (hdir : EmptyOutput packed dir base d)
    (hlimit : ∀ p ∈ inputs, ∀ name, p.fileName? = some name →
      packed.pathLimit.any (· ≤ (dir.join ⟨name⟩).bytes.length) = false) :
    ∃ (names : List Bytes) (after : FileSystem) (events' : List Event),
      inputs.map Path.fileName? = names.map some
      ∧ (unpack output dir).start packed =
          (.ok ⟨names.map fun name => dir.join ⟨name⟩, 0⟩, ⟨after, events'⟩)
      ∧ after.find dir = .ok d ∧ after.Contains d (lastContent fs inputs)
      ∧ ∀ event ∈ events', event = .createdDir dir
          ∨ ∃ index name size path, event = .unpacked index name size path := by
  obtain ⟨o, header, entries, houtput, hnode, hcount, hpos, hpacks⟩ := image_of_pack hpack hregular
  dsimp only at houtput hnode hpacks
  have hfile := isFile_iff.2 ⟨_, hnode⟩
  obtain ⟨hadds, hfind, hdirectory, hempty, created, hprepare, hcreated⟩ := hdir.prepare hne []
  obtain ⟨hbase, -⟩ := find_eq_ok_iff.1 hfind
  have hcontent : packed.content o = header.byte :: entries.flatMap Entry.encode := by
    rw [content, hnode]
    rfl
  have hkept : base.node? o = packed.node? o :=
    hadds.kept (lt_size_of_isFile hfile) (isDirectory_eq_false_of_isFile hfile)
  have hod : o ≠ d :=
    ne_of_isFile_of_isDirectory (isFile_iff.2 ⟨_, hkept.trans hnode⟩) hdirectory
  have hold : o < base.nodes.size := Nat.lt_of_lt_of_le (lt_size_of_isFile hfile) hadds.size_le
  obtain ⟨opened, hopen, -, hstands⟩ := ImageFile.ofPath_of_content_cons houtput hfile hcontent
  have hstands_base := hstands.of_content_eq (content_of_node?_eq hkept)
  have hextractable : ∀ e ∈ entries, Extractable base dir e := by
    intro e hmem
    obtain ⟨p, hp, hpacked⟩ := exists_input hpacks hmem
    refine extractable_of_packs hpacked hbase (hsize p hp) ?_
    rw [hadds.pathLimit]
    exact hlimit p hp _ hpacked.fileName?
  obtain ⟨image, s, hall, hrestored, hend, hevents⟩ :=
    exec_extractAll (s := ⟨base, [] ++ created⟩) hne hfind hdirectory hold hod entries hextractable
      (by simpa using hcount) hstands_base (.refl hempty)
  have hremaining : opened.reader.remaining = entries.length := by
    rw [hstands.remaining]
    exact hcount
  have hheader : opened.reader.header.isEmpty = false := by
    rw [hstands.header, Header.isEmpty, beq_eq_false_iff_ne]
    intro hzero
    exact hpos (by rw [Header.count, hzero]; rfl)
  obtain ⟨image', htrailing⟩ := hend.trailing
  rw [← hremaining] at hall
  have hrun := exec_unpack hopen hprepare hheader hall htrailing
  refine ⟨entries.map fun e => Utf8.encode e.name, s.state, s.events, ?_, ?_,
    hrestored.extends_base.find hfind, ?_, ?_⟩
  · rw [map_fileName? hpacks, List.map_map]
    rfl
  · rw [Task.start, hrun, List.map_map]
    rfl
  · rw [← lastEntry_eq hpacks]
    exact hrestored.contains
  · intro event hmem
    rcases hevents event hmem with hmade | ⟨index, e, hevent⟩
    · exact .inl (hcreated event hmade)
    · exact .inr ⟨index, e.name, e.size, entryPath dir e, hevent⟩

open Utf8 (encode)

/-! ### Three files of two names -/

/-- The files `a` and `b`, another file of the name `a` in the directory `d`, and the empty directory
`w`. -/
def threeFiles : FileSystem where
  nodes := #[.directory 0 [(encode "a", 1), (encode "b", 2), (encode "d", 3), (encode "w", 5)],
    .file [7], .file [8], .directory 0 [(encode "a", 4)], .file [9], .directory 0 []]
  root := 0
  cwd := 0
  pathLimit := none

/-- The files after an image was written to `i`. -/
def threeFilesPacked (image : Bytes) : FileSystem where
  nodes := #[.directory 0 [(encode "a", 1), (encode "b", 2), (encode "d", 3), (encode "w", 5),
      (encode "i", 6)],
    .file [7], .file [8], .directory 0 [(encode "a", 4)], .file [9], .directory 0 [], .file image]
  root := 0
  cwd := 0
  pathLimit := none

def threePaths : List Path := [Path.ofString "a", Path.ofString "b", Path.ofString "d/a"]

def threeEntries : List Entry := [⟨"a", [7]⟩, ⟨"b", [8]⟩, ⟨"a", [9]⟩]

theorem source_threeFiles : Builder.Source threeFiles (Path.ofString "a") "a" 1
    ∧ Builder.Source threeFiles (Path.ofString "b") "b" 2
    ∧ Builder.Source threeFiles (Path.ofString "d/a") "a" 4 := by
  refine ⟨⟨?_, rfl, Builder.entryName_eq_ok_iff.2 ?_⟩, ⟨?_, rfl, Builder.entryName_eq_ok_iff.2 ?_⟩,
    ?_, rfl, Builder.entryName_eq_ok_iff.2 ?_⟩
  all_goals cbv

theorem eq_threeEntries {entries : List Entry}
    (h : List.Forall₂ (Builder.Packs threeFiles) threePaths entries) : entries = threeEntries := by
  obtain ⟨ha, hb, hda⟩ := source_threeFiles
  cases h with
  | cons hfirst h =>
    cases h with
    | cons hsecond h =>
      cases h with
      | cons hthird h =>
        cases h
        rw [hfirst.eq ha, hsecond.eq hb, hthird.eq hda]
        rfl

theorem pack_threeFiles : ∃ size events, (pack (Path.ofString "i") threePaths).start threeFiles =
    (.ok size, ⟨threeFilesPacked (3 :: threeEntries.flatMap Entry.encode), events⟩) := by
  obtain ⟨ha, hb, hda⟩ := source_threeFiles
  have hadds : List.Forall₂ (Builder.Adds threeFiles) threePaths
      [⟨"a", .file (Path.ofString "a")⟩, ⟨"b", .file (Path.ofString "b")⟩,
        ⟨"a", .file (Path.ofString "d/a")⟩] :=
    .cons ⟨rfl, 1, ha⟩ (.cons ⟨rfl, 2, hb⟩ (.cons ⟨rfl, 4, hda⟩ .nil))
  have hnew : threeFiles.find (Path.ofString "i") = .error (.os .noEntry) := by cbv
  have hcheck : ∀ b, Builder.checkOutput threeFiles b (Path.ofString "i") = .ok () := by
    intro b
    rw [Builder.checkOutput, hnew]
    rfl
  have hcreate : (create (Path.ofString "i")).exec threeFiles = (.ok 6, threeFilesPacked []) := by cbv
  have hcount : Builder.headerFor threePaths.length = .ok ⟨3⟩ := rfl
  obtain ⟨entries, size, events, hpacks, hpack⟩ :=
    exec_pack (b := ⟨_⟩) hcount hadds (hcheck _) hcreate rfl
  rw [eq_threeEntries hpacks] at hpack
  refine ⟨size, events, hpack.trans ?_⟩
  generalize threeEntries.flatMap Entry.encode = bytes
  rfl

/-- All names are restored in the empty directory, and of the two files of one name the last one. -/
theorem unpack_pack_threeFiles : ∃ (size : Nat) (packed : FileSystem) (events : List Event)
      (after : FileSystem) (events' : List Event),
    (pack (Path.ofString "i") threePaths).start threeFiles = (.ok size, ⟨packed, events⟩)
      ∧ (unpack (Path.ofString "i") (Path.ofString "w")).start packed =
          (.ok ⟨[Path.ofString "w/a", Path.ofString "w/b", Path.ofString "w/a"], 0⟩,
            ⟨after, events'⟩)
      ∧ after.Contains 5 (lastContent threeFiles threePaths)
      ∧ lastContent threeFiles threePaths (encode "a") = some [9]
      ∧ lastContent threeFiles threePaths (encode "b") = some [8] := by
  obtain ⟨size, events, hpack⟩ := pack_threeFiles
  generalize 3 :: threeEntries.flatMap Entry.encode = image at hpack
  have hnew : threeFiles.find (Path.ofString "i") = .error (.os .noEntry) := by cbv
  have hlength : ∀ p ∈ threePaths, (threeFiles.contentAt p).length = 1 := by
    refine List.forall_mem_cons.2 ⟨?_, List.forall_mem_cons.2 ⟨?_, List.forall_mem_singleton.2 ?_⟩⟩
    all_goals cbv
  have hsize : ∀ p ∈ threePaths, (threeFiles.contentAt p).length < 2 ^ 64 := by
    intro p hp
    rw [hlength p hp]
    decide
  have hfind : (threeFilesPacked image).find (Path.ofString "w") = .ok 5 := by cbv
  obtain ⟨names, after, events', hnames, hunpack, -, hcontains, -⟩ :=
    unpack_pack hpack (fun hfind => by rw [hnew] at hfind; cases hfind) hsize (by decide)
      (.present hfind rfl rfl) fun _ _ _ _ => rfl
  have hthree : threePaths.map Path.fileName? = [encode "a", encode "b", encode "a"].map some := by
    cbv
  obtain rfl := List.map_injective_iff.2 (Option.some_injective _) (hnames.symm.trans hthree)
  exact ⟨size, _, events, after, events', hpack, hunpack, hcontains, by cbv, by cbv⟩

/-! ## Outputs that are not restored -/

/-- A file `a` and an empty directory `w`. -/
def oneFile (limit : Option Nat) : FileSystem where
  nodes := #[.directory 0 [(encode "a", 1), (encode "w", 2)], .file [7], .directory 0 []]
  root := 0
  cwd := 0
  pathLimit := limit

/-- The files after an image was written to `i`. -/
def oneFilePacked (limit : Option Nat) (image : Bytes) : FileSystem where
  nodes := #[.directory 0 [(encode "a", 1), (encode "w", 2), (encode "i", 3)], .file [7],
    .directory 0 [], .file image]
  root := 0
  cwd := 0
  pathLimit := limit

theorem pack_oneFile {limit : Option Nat} (hlimit : limit = none ∨ limit = some 4) :
    ∃ size events, (pack (Path.ofString "i") [Path.ofString "a"]).start (oneFile limit) =
      (.ok size, ⟨oneFilePacked limit (1 :: Entry.encode ⟨"a", [7]⟩), events⟩) := by
  have hsource : Builder.Source (oneFile limit) (Path.ofString "a") "a" 1 := by
    refine ⟨?_, rfl, Builder.entryName_eq_ok_iff.2 (by cbv)⟩
    rcases hlimit with rfl | rfl <;> cbv
  have hadds : List.Forall₂ (Builder.Adds (oneFile limit)) [Path.ofString "a"]
      [⟨"a", .file (Path.ofString "a")⟩] := .cons ⟨rfl, 1, hsource⟩ .nil
  have hcheck : Builder.checkOutput (oneFile limit) ⟨[⟨"a", .file (Path.ofString "a")⟩]⟩
      (Path.ofString "i") = .ok () := by
    rcases hlimit with rfl | rfl <;> cbv
  have hcreate : (create (Path.ofString "i")).exec (oneFile limit) =
      (.ok 3, oneFilePacked limit []) := by
    rcases hlimit with rfl | rfl <;> cbv
  have hcount : Builder.headerFor [Path.ofString "a"].length = .ok ⟨1⟩ := rfl
  obtain ⟨entries, size, events, hpacks, hpack⟩ := exec_pack hcount hadds hcheck hcreate rfl
  cases hpacks with
  | cons hpacked hrest =>
    cases hrest
    have he : _ = Entry.mk "a" [7] := hpacked.eq hsource
    rw [he, List.flatMap_singleton] at hpack
    refine ⟨size, events, hpack.trans ?_⟩
    generalize Entry.encode ⟨"a", [7]⟩ = bytes
    rfl

/-- The files after `w/x/..` was made. -/
def oneFileGrown (image : Bytes) : FileSystem where
  nodes := #[.directory 0 [(encode "a", 1), (encode "w", 2), (encode "i", 3)], .file [7],
    .directory 0 [(encode "x", 4)], .file image, .directory 2 []]
  root := 0
  cwd := 0
  pathLimit := none

/-- The files after the image was unpacked into `w/x/..`. -/
def oneFileMade (image : Bytes) : FileSystem where
  nodes := #[.directory 0 [(encode "a", 1), (encode "w", 2), (encode "i", 3)], .file [7],
    .directory 0 [(encode "x", 4), (encode "a", 5)], .file image, .directory 2 [], .file [7]]
  root := 0
  cwd := 0
  pathLimit := none

theorem unpack_oneFile_made {image : Bytes} (himage : 1 :: Entry.encode ⟨"a", [7]⟩ = image) :
    ∃ events, (unpack (Path.ofString "i") (Path.ofString "w/x/..")).start (oneFilePacked none image) =
      (.ok ⟨[Path.ofString "w/x/../a"], 0⟩, ⟨oneFileMade image, events⟩) := by
  have hprepare : (prepareDirectory (Path.ofString "w/x/..")).exec ⟨oneFilePacked none image, []⟩ =
      (.ok (), ⟨oneFileGrown image, [.createdDir (Path.ofString "w/x/..")]⟩) := by cbv
  have hextract : (extract (Path.ofString "w/x/..") 1 ⟨"a", [7]⟩).exec
        ⟨oneFileGrown image, [.createdDir (Path.ofString "w/x/..")]⟩ =
      (.ok (Path.ofString "w/x/../a"), ⟨oneFileMade image,
        [.createdDir (Path.ofString "w/x/.."),
          .unpacked 1 "a" 1 (Path.ofString "w/x/../a")]⟩) := by cbv
  have hnode : (oneFilePacked none image).node? 3 =
      some (.file (1 :: Entry.encode ⟨"a", [7]⟩)) := by
    rw [himage]
    rfl
  have hfind : (oneFilePacked none image).find (Path.ofString "i") = .ok 3 := by cbv
  have hlen : (encode "a").length ≤ Name.maxLength := by decide
  have hzero : 0 ∉ encode "a" := by decide
  have hsize : [(7 : UInt8)].length < 2 ^ 64 := by decide
  exact ⟨_, exec_unpack_single hlen hzero hsize hfind hnode hprepare rfl hextract rfl⟩

theorem unpack_oneFile_long {image : Bytes} (himage : 1 :: Entry.encode ⟨"a", [7]⟩ = image) :
    (unpack (Path.ofString "i") (Path.ofString "w//")).start (oneFilePacked (some 4) image) =
      (.error (.entry 1 (.io "Write file" (some (Path.ofString "w//a")) (.os .nameTooLong))),
        ⟨oneFilePacked (some 4) image, []⟩) := by
  have hprepare : (prepareDirectory (Path.ofString "w//")).exec
      ⟨oneFilePacked (some 4) image, []⟩ = (.ok (), ⟨oneFilePacked (some 4) image, []⟩) := by cbv
  have hextract : (extract (Path.ofString "w//") 1 ⟨"a", [7]⟩).exec
        ⟨oneFilePacked (some 4) image, []⟩ =
      (.error (.entry 1 (.io "Write file" (some (Path.ofString "w//a")) (.os .nameTooLong))),
        ⟨oneFilePacked (some 4) image, []⟩) := by cbv
  have hfind : (oneFilePacked (some 4) image).find (Path.ofString "i") = .ok 3 := by cbv
  have hcontent : (oneFilePacked (some 4) image).content 3 = 1 :: Entry.encode ⟨"a", [7]⟩ := by
    rw [himage]
    rfl
  obtain ⟨opened, hopen, -, hstands⟩ := ImageFile.ofPath_of_content_cons hfind rfl hcontent
  have hlen : (encode "a").length ≤ Name.maxLength := by decide
  have hzero : 0 ∉ encode "a" := by decide
  have hsize : [(7 : UInt8)].length < 2 ^ 64 := by decide
  have hheader : opened.reader.header.isEmpty = false := by
    rw [hstands.header]
    rfl
  have hremaining : opened.reader.remaining = 0 + 1 := hstands.remaining
  rw [← List.append_nil (Entry.encode _), ← Record.bytes_ofEntry hlen hzero hsize] at hstands
  obtain ⟨image₁, hnext, -⟩ := hstands.next_record (by decide)
  have hall : (extractAll (Path.ofString "w//") opened.reader.remaining opened).exec
        ⟨oneFilePacked (some 4) image, []⟩ =
      (.error (.entry 1 (.io "Write file" (some (Path.ofString "w//a")) (.os .nameTooLong))),
        ⟨oneFilePacked (some 4) image, []⟩) := by
    rw [hremaining, extractAll, exec_bind_ok (exec_fromImage_ok hnext)]
    exact exec_bind_error hextract
  rw [Task.start, unpack, exec_bind_ok (exec_get _),
    exec_bind_ok (exec_liftM_eq_ok_iff.2 ⟨hopen, rfl⟩), exec_bind_ok hprepare]
  dsimp only
  rw [if_neg (by simp [hheader]), exec_bind_error hall]

/-- A missing output directory that leads to one that was there does not hold the files alone: `w/x/..`
is `w` again, and holds `x`. And under a path that is as long as paths may be no file has a place. -/
theorem not_restored :
    (∃ size events packed after events' d,
      (pack (Path.ofString "i") [Path.ofString "a"]).start (oneFile none) =
          (.ok size, ⟨packed, events⟩)
        ∧ packed.find (Path.ofString "w/x/..") = .error (.os .noEntry)
        ∧ (unpack (Path.ofString "i") (Path.ofString "w/x/..")).start packed =
            (.ok ⟨[Path.ofString "w/x/../a"], 0⟩, ⟨after, events'⟩)
        ∧ after.find (Path.ofString "w/x/..") = .ok d
        ∧ ¬after.Contains d (lastContent (oneFile none) [Path.ofString "a"]))
    ∧ ∃ size events packed d e s,
      (pack (Path.ofString "i") [Path.ofString "a"]).start (oneFile (some 4)) =
          (.ok size, ⟨packed, events⟩)
        ∧ packed.find (Path.ofString "w//") = .ok d ∧ packed.isDirectory d = true
        ∧ packed.entries d = []
        ∧ (unpack (Path.ofString "i") (Path.ofString "w//")).start packed = (.error e, s) := by
  obtain ⟨size, events, hpack⟩ := pack_oneFile (.inl rfl)
  obtain ⟨size', events', hpack'⟩ := pack_oneFile (.inr rfl)
  generalize himage : 1 :: Entry.encode ⟨"a", [7]⟩ = image at hpack hpack'
  obtain ⟨made, hmade⟩ := unpack_oneFile_made himage
  constructor
  · refine ⟨size, events, _, _, made, 2, hpack, by cbv, hmade, by cbv, ?_⟩
    intro hcontains
    have hmem : (encode "x", 4) ∈ (oneFileMade image).entries 2 := List.mem_cons_self
    obtain ⟨content, hnode, -⟩ := hcontains.stored hmem
    cases hnode
  · exact ⟨size', events', _, 2, _, _, hpack', by cbv, rfl, rfl, unpack_oneFile_long himage⟩

end FlatArchive
