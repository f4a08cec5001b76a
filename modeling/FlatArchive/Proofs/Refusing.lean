-- SUMMARY: A pack that fails leaves all files as they were, and tells of the first thing that is wrong.
import FlatArchive.Proofs.Packing

/-!
# Refusing

Packing looks at the number of its inputs first, then at each of them in their order, and then at the
output. What is wrong is told at once, and nothing was written by then. Once the output was made or
emptied no input can fail any more: each leads to a file that is not the output, so it can be opened
again and has its size until all of it is copied. What is left to fail then is a device without room.
-/

namespace FlatArchive

open Attempt FileSystem

variable {fs : FileSystem} {p output : Path} {inputs : List Path} {e : Error}

namespace Builder

/-! ## Inputs -/

/-- The path leads to a regular file, under a name that is text. -/
def Accepted (fs : FileSystem) (p : Path) : Prop := ∃ name i, Source fs p name i

/-- What can be wrong with an input, and the error that says so. -/
inductive Refused (fs : FileSystem) (p : Path) : Error → Prop where
  | missing (find : fs.find p = .error (.os .noEntry)) : Refused fs p (.fileNotFound p)
  | unopenable {cause : IoError} (find : fs.find p = .error cause) (ne : cause ≠ .os .noEntry) :
      Refused fs p (.io "Open source file" (some p) cause)
  | notRegular {i : NodeId} (find : fs.find p = .ok i) (other : fs.isFile i = false) :
      Refused fs p (.notAFile p)
  | unnamed {i : NodeId} (find : fs.find p = .ok i) (isFile : fs.isFile i = true)
      (fileName? : p.fileName? = none) : Refused fs p (.invalidInput p "path has no file name")
  | notText {i : NodeId} {name : Bytes} (find : fs.find p = .ok i) (isFile : fs.isFile i = true)
      (fileName? : p.fileName? = some name) (not_text : ∀ text, Text.Utf8.encode text ≠ name) :
      Refused fs p (.invalidInput p "file name is not valid UTF-8")

theorem accepted_or_refused (fs : FileSystem) (p : Path) :
    Accepted fs p ∨ ∃ e, Refused fs p e := by
  cases hfind : fs.find p with
  | error cause =>
    by_cases hmissing : cause = .os .noEntry
    · subst hmissing
      exact .inr ⟨_, .missing hfind⟩
    · exact .inr ⟨_, .unopenable hfind hmissing⟩
  | ok i =>
    cases hfile : fs.isFile i with
    | false => exact .inr ⟨_, .notRegular hfind hfile⟩
    | true =>
      cases hname : p.fileName? with
      | none => exact .inr ⟨_, .unnamed hfind hfile hname⟩
      | some name =>
        cases htext : Text.Utf8.decode name with
        | ok text =>
          refine .inl ⟨text, i, hfind, hfile, entryName_eq_ok_iff.2 ?_⟩
          rw [hname, Text.Utf8.decode_eq_ok_iff.1 htext]
        | error fault =>
          have hnot_text := Text.Utf8.encode_ne_of_decode_eq_error htext
          exact .inr ⟨_, .notText hfind hfile hname hnot_text⟩

theorem checkSource_of_find {i : NodeId} (hfind : fs.find p = .ok i) :
    checkSource fs p = if fs.isFile i then .ok () else .error (.notAFile p) := by
  unfold checkSource openSource
  rw [hfind]
  rfl

theorem Refused.not_accepted (h : Refused fs p e) : ¬Accepted fs p := by
  rintro ⟨name, i, hsource⟩
  have hfind := hsource.find
  have hfile := hsource.isFile
  have hname := entryName_eq_ok_iff.1 hsource.entryName
  cases h with
  | missing hmissing => simp [hmissing] at hfind
  | unopenable hfailed => simp [hfailed] at hfind
  | notRegular hfound hother =>
    rw [hfind] at hfound
    cases hfound
    rw [hfile] at hother
    cases hother
  | unnamed _ _ hnone => simp [hnone] at hname
  | notText _ _ hbytes hnot_text =>
    rw [hbytes] at hname
    exact hnot_text name (Option.some.inj hname).symm

/-- An input that is refused adds nothing. -/
theorem Refused.exec_addFile (h : Refused fs p e) (b : Builder) :
    (addFile fs p).exec b = (.error e, b) := by
  have hchecked : checkSource fs p = .error e → (addFile fs p).exec b = (.error e, b) := by
    intro hcheck
    refine exec_bind_error ?_
    rw [exec_liftM, hcheck]
  have hnamed : checkSource fs p = .ok () → entryName p = .error e →
      (addFile fs p).exec b = (.error e, b) := by
    intro hcheck hname
    unfold addFile
    rw [exec_bind_ok (exec_liftM_eq_ok_iff.2 ⟨hcheck, rfl⟩)]
    refine exec_bind_error ?_
    rw [exec_liftM, hname]
  cases h with
  | missing hfind =>
    apply hchecked
    rw [checkSource, openSource, hfind]
    rfl
  | unopenable hfind hne =>
    apply hchecked
    rw [checkSource, openSource, hfind]
    dsimp only
    rw [if_neg fun hmissing => hne (isNotFound_iff.1 hmissing)]
    rfl
  | notRegular hfind hother =>
    apply hchecked
    rw [checkSource_of_find hfind, hother]
    rfl
  | unnamed hfind hfile hname =>
    refine hnamed (checkSource_eq_ok_iff.2 ⟨_, hfind, hfile⟩) ?_
    rw [entryName, hname]
  | notText hfind hfile hname htext =>
    refine hnamed (checkSource_eq_ok_iff.2 ⟨_, hfind, hfile⟩) ?_
    rw [entryName, hname]
    dsimp only
    split
    · next text hdecode => exact absurd (Text.Utf8.decode_eq_ok_iff.1 hdecode) (htext text)
    · rfl

/-- All inputs are accepted, or there is a first one that is refused. -/
theorem first_refused (fs : FileSystem) (inputs : List Path) :
    (∀ p ∈ inputs, Accepted fs p) ∨
      ∃ before p after e, inputs = before ++ p :: after ∧ (∀ q ∈ before, Accepted fs q)
        ∧ Refused fs p e := by
  induction inputs with
  | nil => exact .inl nofun
  | cons p inputs ih =>
    rcases accepted_or_refused fs p with haccepted | ⟨e, hrefused⟩
    · rcases ih with hall | ⟨before, q, after, e, rfl, hbefore, hrefused⟩
      · exact .inl (List.forall_mem_cons.2 ⟨haccepted, hall⟩)
      · exact .inr ⟨p :: before, q, after, e, rfl, List.forall_mem_cons.2 ⟨haccepted, hbefore⟩, hrefused⟩
    · exact .inr ⟨[], p, inputs, e, rfl, nofun, hrefused⟩

theorem adds_of_accepted (h : ∀ p ∈ inputs, Accepted fs p) :
    ∃ items, List.Forall₂ (Adds fs) inputs items := by
  induction inputs with
  | nil => exact ⟨[], .nil⟩
  | cons p inputs ih =>
    obtain ⟨⟨name, i, hsource⟩, hrest⟩ := List.forall_mem_cons.1 h
    obtain ⟨items, hitems⟩ := ih hrest
    exact ⟨⟨name, .file p⟩ :: items, .cons ⟨rfl, i, hsource⟩ hitems⟩

/-- An input is refused exactly if it cannot be added, which leaves the builder as it was. -/
theorem exec_addFile_eq_error_iff {b b' : Builder} :
    (addFile fs p).exec b = (.error e, b') ↔ Refused fs p e ∧ b' = b := by
  constructor
  · intro h
    rcases accepted_or_refused fs p with ⟨name, i, hsource⟩ | ⟨cause, hrefused⟩
    · rw [exec_addFile_eq_ok_iff.2 ⟨name, i, hsource, rfl⟩] at h
      cases h
    · rw [hrefused.exec_addFile] at h
      cases h
      exact ⟨hrefused, rfl⟩
  · rintro ⟨hrefused, rfl⟩
    exact hrefused.exec_addFile b'

/-- Adding files ends with the first one that is refused, after those before it were added. -/
theorem exec_addFiles_eq_error_iff {b b' : Builder} :
    (addFiles fs inputs).exec b = (.error e, b') ↔
      ∃ before p after items, inputs = before ++ p :: after ∧ List.Forall₂ (Adds fs) before items
        ∧ Refused fs p e ∧ b' = ⟨b.items ++ items⟩ := by
  constructor
  · intro h
    induction inputs generalizing b with
    | nil =>
      rw [addFiles, exec_pure] at h
      cases h
    | cons p inputs ih =>
      rw [addFiles, exec_bind_eq_error_iff] at h
      rcases h with hfile | ⟨⟨⟩, b₁, hfile, hfiles⟩
      · obtain ⟨hrefused, rfl⟩ := exec_addFile_eq_error_iff.1 hfile
        exact ⟨[], p, inputs, [], rfl, .nil, hrefused, by rw [List.append_nil]⟩
      · obtain ⟨name, i, hsource, rfl⟩ := exec_addFile_eq_ok_iff.1 hfile
        obtain ⟨before, q, after, items, rfl, hitems, hrefused, rfl⟩ := ih hfiles
        exact ⟨p :: before, q, after, ⟨name, .file p⟩ :: items, rfl, .cons ⟨rfl, i, hsource⟩ hitems,
          hrefused, by simp⟩
  · rintro ⟨before, p, after, items, rfl, hitems, hrefused, rfl⟩
    induction hitems generalizing b with
    | nil =>
      rw [List.append_nil]
      exact exec_bind_error (hrefused.exec_addFile b)
    | @cons q item before items hitem _ ih =>
      obtain ⟨name, content⟩ := item
      obtain ⟨rfl, i, hsource⟩ := hitem
      rw [List.cons_append, addFiles,
        exec_bind_ok (exec_addFile_eq_ok_iff.2 ⟨name, i, hsource, rfl⟩), ih, List.append_assoc]
      rfl

theorem Refused.build_addFiles (h : Refused fs p e) {before : List Path}
    (hbefore : ∀ q ∈ before, Accepted fs q) (after : List Path) :
    build (addFiles fs (before ++ p :: after)) = .error e := by
  obtain ⟨items, hitems⟩ := adds_of_accepted hbefore
  rw [build, exec_addFiles_eq_error_iff.2 ⟨before, p, after, items, rfl, hitems, h, rfl⟩]

theorem openDirectory_eq_ok_iff {dir : Path} {d : NodeId} :
    openDirectory fs dir = .ok d ↔ fs.find dir = .ok d ∧ fs.isDirectory d = true := by
  unfold openDirectory
  cases fs.find dir with
  | error cause => simp
  | ok i =>
    dsimp only
    rw [Except.ok.injEq]
    constructor
    · intro h
      split_ifs at h with hdir
      cases h
      exact ⟨rfl, hdir⟩
    · rintro ⟨rfl, hdir⟩
      exact if_pos hdir

/-- A directory is added by adding its files, in the order of their names. -/
theorem exec_addDirectory {dir : Path} {d : NodeId} (hfind : fs.find dir = .ok d)
    (hdir : fs.isDirectory d = true) (b : Builder) :
    (addDirectory fs dir).exec b =
      (addFiles fs ((fs.fileNames d).map fun name => dir.join ⟨name⟩)).exec b := by
  rw [addDirectory, exec_bind_ok (exec_liftM_eq_ok_iff.2 ⟨openDirectory_eq_ok_iff.2 ⟨hfind, hdir⟩, rfl⟩)]

/-- The files of a directory that are added are files as others. -/
theorem adds_of_addDirectory {dir : Path} {b : Builder} (h : build (addDirectory fs dir) = .ok b) :
    ∃ inputs, List.Forall₂ (Adds fs) inputs b.items := by
  obtain ⟨d, b', hopened, hadded⟩ := exec_bind_eq_ok_iff.1 (build_eq_ok_iff_exec.1 h)
  obtain ⟨-, rfl⟩ := exec_liftM_eq_ok_iff.1 hopened
  obtain ⟨items, rfl, hitems⟩ := exec_addFiles_eq_ok_iff.1 hadded
  exact ⟨_, hitems⟩

/-! ## Failures -/

/-- Writing an image that fails leaves all files as they were. -/
theorem state_of_writeImageFile_error {b : Builder} {s s' : Session FileSystem}
    (hadds : List.Forall₂ (Adds s.state) inputs b.items)
    (h : (b.writeImageFile output).exec s = (.error e, s')) : s'.state = s.state := by
  cases hheader : b.header with
  | error cause =>
    have hfailed : (b.writeImageFile output).exec s = (.error cause, s) := by
      refine exec_bind_error ?_
      rw [exec_liftM, hheader]
    rw [hfailed] at h
    cases h
    rfl
  | ok header =>
    rcases writeImageFile_cases hadds output hheader with ⟨e, events, -, hfailed⟩ |
      ⟨o, created, entries, -, -, -, hwritten⟩ | ⟨o, size, events, -, -, hwritten⟩
    · rw [hfailed] at h
      cases h
      rfl
    · rw [hwritten] at h
      cases h
    · rw [hwritten] at h
      cases h

/-- A device is none of the files that are packed. -/
theorem checkOutput_of_device {b : Builder} {o : NodeId} {kind : Device}
    (hfind : fs.find output = .ok o) (hdevice : fs.node? o = some (.device kind))
    (hadds : List.Forall₂ (Adds fs) inputs b.items) : checkOutput fs b output = .ok () := by
  have hsources : b.sources = inputs := sources_of_adds hadds
  have hfound : ∀ p ∈ inputs, ∃ i, fs.find p = .ok i ∧ fs.isFile i = true := fun p hp =>
    find_of_adds hadds hp
  unfold checkOutput
  rw [hfind, hsources]
  dsimp only
  rcases firstSame_cases o fun p hp => (hfound p hp).imp fun i hi => hi.1 with
    ⟨hnone, -⟩ | ⟨before, p, after, rfl, -, hsame, -⟩
  · rw [hnone]
  · obtain ⟨i, hp, hfile⟩ := hfound p (by simp)
    cases hp.symm.trans hsame
    obtain ⟨content, hnode⟩ := isFile_iff.1 hfile
    cases hnode.symm.trans hdevice

end Builder

open Builder

theorem exec_pack_of_headerFor_error (h : headerFor inputs.length = .error e)
    (s : Session FileSystem) : (pack output inputs).exec s = (.error e, s) := by
  refine exec_bind_error ?_
  rw [exec_liftM, h]

theorem exec_pack_of_headerFor_ok {header : Header} (h : headerFor inputs.length = .ok header)
    (s : Session FileSystem) :
    (pack output inputs).exec s =
      (do (← build (addFiles s.state inputs)).writeImageFile output : Task FileSystem Nat).exec s := by
  unfold pack
  rw [exec_bind_ok (exec_liftM_eq_ok_iff.2 ⟨h, rfl⟩), exec_bind_ok (exec_get s)]

/-- The files of a directory are added like any others, in the order of their names. -/
theorem build_addDirectory {dir : Path} {d : NodeId} (hfind : fs.find dir = .ok d)
    (hdir : fs.isDirectory d = true) :
    build (addDirectory fs dir) =
      build (addFiles fs ((fs.fileNames d).map fun name => dir.join ⟨name⟩)) := by
  rw [build, exec_addDirectory hfind hdir]
  rfl

theorem exec_packDirectory (output dir : Path) (s : Session FileSystem) :
    (packDirectory output dir).exec s =
      (do (← build (addDirectory s.state dir)).writeImageFile output : Task FileSystem Nat).exec s := by
  unfold packDirectory
  rw [exec_bind_ok (exec_get s)]

/-- Packing a directory with files in a number that is in range is packing these files. -/
theorem exec_packDirectory_eq_pack {dir : Path} {d : NodeId} {header : Header}
    {s : Session FileSystem} (output : Path) (hfind : s.state.find dir = .ok d)
    (hdir : s.state.isDirectory d = true)
    (hcount : headerFor (s.state.fileNames d).length = .ok header) :
    (packDirectory output dir).exec s =
      (pack output ((s.state.fileNames d).map fun name => dir.join ⟨name⟩)).exec s := by
  have hlength : ((s.state.fileNames d).map fun name => dir.join ⟨name⟩).length =
      (s.state.fileNames d).length := List.length_map _
  rw [exec_packDirectory, build_addDirectory hfind hdir,
    exec_pack_of_headerFor_ok (hlength ▸ hcount)]

/-- What a pack does with inputs in a number that is in range: it tells of the first one that is
refused, or writes the image of all of them. -/
theorem exec_pack_cases {header : Header} (hcount : headerFor inputs.length = .ok header)
    (output : Path) (s : Session FileSystem) :
    (∃ before p after e, inputs = before ++ p :: after ∧ (∀ q ∈ before, Accepted s.state q)
        ∧ Refused s.state p e ∧ (pack output inputs).exec s = (.error e, s))
      ∨ (∀ q ∈ inputs, Accepted s.state q)
        ∧ ∃ b : Builder, List.Forall₂ (Adds s.state) inputs b.items
          ∧ (pack output inputs).exec s = (b.writeImageFile output).exec s := by
  rcases first_refused s.state inputs with hall | ⟨before, p, after, e, rfl, hbefore, hrefused⟩
  · obtain ⟨items, hitems⟩ := adds_of_accepted hall
    have hbuild : build (addFiles s.state inputs) = .ok ⟨items⟩ := build_eq_ok_iff.2 hitems
    refine .inr ⟨hall, ⟨items⟩, hitems, ?_⟩
    rw [exec_pack_of_headerFor_ok hcount, exec_bind_ok (exec_liftM_eq_ok_iff.2 ⟨hbuild, rfl⟩)]
  · refine .inl ⟨before, p, after, e, rfl, hbefore, hrefused, ?_⟩
    rw [exec_pack_of_headerFor_ok hcount]
    refine exec_bind_error ?_
    rw [exec_liftM, hrefused.build_addFiles hbefore]

/-- A pack that fails leaves all files as they were. -/
theorem state_of_pack_error {s s' : Session FileSystem}
    (h : (pack output inputs).exec s = (.error e, s')) : s'.state = s.state := by
  cases hcount : headerFor inputs.length with
  | error cause =>
    rw [exec_pack_of_headerFor_error hcount] at h
    cases h
    rfl
  | ok header =>
    rcases exec_pack_cases hcount output s with ⟨before, p, after, e, -, -, -, hfailed⟩ |
      ⟨-, b, hadds, hwrites⟩
    · rw [hfailed] at h
      cases h
      rfl
    · rw [hwrites] at h
      exact state_of_writeImageFile_error hadds h

theorem state_of_packDirectory_error {dir : Path} {s s' : Session FileSystem}
    (h : (packDirectory output dir).exec s = (.error e, s')) : s'.state = s.state := by
  rw [exec_packDirectory] at h
  cases hbuild : build (addDirectory s.state dir) with
  | error cause =>
    have hfailed : (liftM (build (addDirectory s.state dir)) : Task FileSystem Builder).exec s =
        (.error cause, s) := by
      rw [exec_liftM, hbuild]
    rw [exec_bind_error hfailed] at h
    cases h
    rfl
  | ok b =>
    rw [exec_bind_ok (exec_liftM_eq_ok_iff.2 ⟨hbuild, rfl⟩)] at h
    obtain ⟨inputs, hadds⟩ := adds_of_addDirectory hbuild
    exact state_of_writeImageFile_error hadds h

/-- What a pack onto the full device fails with. -/
theorem pack_onto_full_device {o : NodeId} (hfind : fs.find output = .ok o)
    (hfull : fs.node? o = some (.device .full)) (haccepted : ∀ p ∈ inputs, Accepted fs p)
    (hne : inputs ≠ []) (hcount : inputs.length ≤ maxEntries) :
    (imageLength fs inputs ≤ FileWriter.capacity
        ∧ ((pack output inputs).start fs).1 =
          .error (.io "Flush image" (some output) (.os .noSpace)))
      ∨ ∃ before p after, inputs = before ++ p :: after
        ∧ imageLength fs before ≤ FileWriter.capacity
        ∧ FileWriter.capacity < imageLength fs (before ++ [p])
        ∧ ((pack output inputs).start fs).1 = .error (.entry (before.length + 1)
          (noRoomError (some output) (imageLength fs before) p)) := by
  have hheader := headerFor_of_le (List.length_pos_iff.2 hne) hcount
  rcases exec_pack_cases hheader output ⟨fs, []⟩ with
    ⟨before, p, after, e, rfl, -, hrefused, -⟩ | ⟨-, b, hadds, hexec⟩
  · exact absurd (haccepted p (by simp)) hrefused.not_accepted
  have hbegin : ∀ {e}, ((b.writeToFile output o).exec ⟨fs, []⟩).1 = .error e →
      ((pack output inputs).start fs).1 = .error e := by
    intro e herror
    rcases hwrite : (b.writeToFile output o).exec ⟨fs, []⟩ with ⟨r, s'⟩
    rw [hwrite] at herror
    cases herror
    have hcreate : (Task.io (.io "Create image" (some output)) (FileSystem.create output)).exec
        ⟨fs, []⟩ = (.ok o, ⟨fs, []⟩) := Task.exec_io_ok _ (exec_create_of_device hfind hfull)
    have hcheck := checkOutput_of_device hfind hfull hadds
    rw [Task.start, hexec, writeImageFile,
      exec_bind_ok (exec_liftM_eq_ok_iff.2 ⟨header_of_adds hadds hheader, rfl⟩),
      exec_bind_ok (exec_get _), exec_bind_ok (exec_liftM_eq_ok_iff.2 ⟨hcheck, rfl⟩),
      exec_bind_ok hcreate, exec_bind_error hwrite]
  rcases exec_writeToFile_full output (s := ⟨fs, []⟩) hfull (header_of_adds hadds hheader) hadds with
    ⟨hfits, herror⟩ | ⟨before, p, after, hinputs, hle, hlt, herror⟩
  · exact .inl ⟨hfits, hbegin herror⟩
  · exact .inr ⟨before, p, after, hinputs, hle, hlt, hbegin herror⟩

/-! ## The whole of it -/

/-- A failed pack changes nothing, whether its inputs are given or are those of a directory. Too few
or too many inputs are refused before any of them is looked at. Otherwise the error is that of the first
input that is refused, and if there is none, something is wrong with the output. -/
theorem pack_failure (fs : FileSystem) (output dir : Path) (inputs : List Path) :
    (∀ e s, (pack output inputs).start fs = (.error e, s) → s.state = fs)
      ∧ (∀ e s, (packDirectory output dir).start fs = (.error e, s) → s.state = fs)
      ∧ (inputs = [] → (pack output inputs).start fs = (.error (.format .noEntries), ⟨fs, []⟩))
      ∧ (maxEntries < inputs.length →
          (pack output inputs).start fs =
            (.error (.format (.tooManyEntries inputs.length)), ⟨fs, []⟩))
      ∧ (inputs ≠ [] → inputs.length ≤ maxEntries →
          (∃ before p after e, inputs = before ++ p :: after ∧ (∀ q ∈ before, Accepted fs q)
              ∧ Refused fs p e ∧ (pack output inputs).start fs = (.error e, ⟨fs, []⟩))
            ∨ (∀ q ∈ inputs, Accepted fs q)
              ∧ ∀ e s, (pack output inputs).start fs = (.error e, s) →
                OutputFault fs output inputs e) := by
  refine ⟨fun e s h => state_of_pack_error h, fun e s h => state_of_packDirectory_error h, ?_, ?_, ?_⟩
  · rintro rfl
    exact exec_pack_of_headerFor_error rfl ⟨fs, []⟩
  · intro hmany
    exact exec_pack_of_headerFor_error (headerFor_of_lt hmany) ⟨fs, []⟩
  · intro hne hle
    have hcount := headerFor_of_le (List.length_pos_iff.2 hne) hle
    refine (exec_pack_cases hcount output ⟨fs, []⟩).imp_right ?_
    rintro ⟨hall, b, hadds, hwrites⟩
    refine ⟨hall, fun e s h => ?_⟩
    rw [Task.start, hwrites] at h
    rcases writeImageFile_cases hadds output (header_of_adds hadds hcount) with
      ⟨e', events, hfault, hfailed⟩ | ⟨o, created, entries, -, -, -, hwritten⟩ |
      ⟨o, size, events, -, -, hwritten⟩
    · rw [hfailed] at h
      cases h
      exact hfault
    · rw [hwritten] at h
      cases h
    · rw [hwritten] at h
      cases h

/-- There is only one place at which a single input can be. -/
theorem split_singleton {p q : Path} {before after : List Path} (h : [q] = before ++ p :: after) :
    before = [] ∧ p = q := by
  rcases List.append_eq_singleton_iff.1 h.symm with ⟨hbefore, hp⟩ | ⟨-, hnil⟩
  · exact ⟨hbefore, (List.cons.inj hp).1⟩
  · cases hnil

/-- Of the inputs `a` and `b` only the first is there: the output `i`, a file with content, is kept. -/
theorem pack_failure_missing :
    let fs : FileSystem :=
      ⟨#[.directory 0 [([0x61], 1), ([0x69], 2)], .file [7], .file [9]], 0, 0, none, 4096⟩
    (pack ⟨[0x69]⟩ [⟨[0x61]⟩, ⟨[0x62]⟩]).start fs = (.error (.fileNotFound ⟨[0x62]⟩), ⟨fs, []⟩) := by
  intro fs
  have hfirst : fs.find ⟨[0x61]⟩ = .ok 1 := by cbv
  have hsecond : fs.find ⟨[0x62]⟩ = .error (.os .noEntry) := by cbv
  have hname : entryName ⟨[0x61]⟩ = .ok "a" := entryName_eq_ok_iff.2 (by cbv)
  have haccepted : Accepted fs ⟨[0x61]⟩ := ⟨"a", 1, hfirst, rfl, hname⟩
  have hrefused_second : ∀ {e}, Refused fs ⟨[0x62]⟩ e → e = .fileNotFound ⟨[0x62]⟩ := by
    intro e hrefused
    cases hrefused with
    | missing => rfl
    | unopenable hfind hne =>
      rw [hsecond] at hfind
      cases hfind
      exact absurd rfl hne
    | notRegular hfind | unnamed hfind | notText hfind => simp [hsecond] at hfind
  obtain ⟨-, -, -, -, hpack⟩ := pack_failure fs ⟨[0x69]⟩ ⟨[0x69]⟩ [⟨[0x61]⟩, ⟨[0x62]⟩]
  rcases hpack (List.cons_ne_nil _ _) (by decide) with
    ⟨before, p, after, e, hsplit, -, hrefused, hexec⟩ | ⟨hall, -⟩
  · rw [hexec]
    cases before with
    | nil =>
      obtain ⟨rfl, -⟩ := List.cons.inj hsplit
      exact absurd haccepted hrefused.not_accepted
    | cons q before =>
      obtain ⟨-, hrest⟩ := List.cons.inj hsplit
      obtain ⟨-, rfl⟩ := split_singleton hrest
      rw [hrefused_second hrefused]
  · obtain ⟨name, i, hsource⟩ := hall ⟨[0x62]⟩ (by simp)
    have hfind := hsource.find
    rw [hsecond] at hfind
    cases hfind

/-! ### A file and the full device -/

/-- The file `a`, and the full device `f`. -/
def withFullDevice (content : Bytes) : FileSystem :=
  ⟨#[.directory 0 [([0x61], 1), ([0x66], 2)], .file content, .device .full], 0, 0, none, 4096⟩

theorem find_withFullDevice (content : Bytes) :
    (withFullDevice content).find ⟨[0x61]⟩ = .ok 1
      ∧ (withFullDevice content).find ⟨[0x66]⟩ = .ok 2 := by
  constructor <;> cbv

theorem accepted_withFullDevice (content : Bytes) : Accepted (withFullDevice content) ⟨[0x61]⟩ :=
  ⟨"a", 1, (find_withFullDevice content).1, rfl, entryName_eq_ok_iff.2 (by cbv)⟩

theorem entryLength_withFullDevice (content : Bytes) :
    entryLength (withFullDevice content) ⟨[0x61]⟩ = 264 + content.length := by
  rw [entryLength, (find_withFullDevice content).1]
  rfl

theorem imageLength_withFullDevice (content : Bytes) :
    imageLength (withFullDevice content) [⟨[0x61]⟩] = 265 + content.length := by
  rw [imageLength, List.map_singleton, List.sum_singleton, entryLength_withFullDevice]
  omega

/-- Although all inputs are accepted an error can be about one of them: of a file that is packed twice
the buffer takes the content once, and for the second time the file is named, not the device. -/
theorem accepted_input_named_in_error :
    let fs := withFullDevice (List.replicate 4000 7)
    (∀ p ∈ ([⟨[0x61]⟩, ⟨[0x61]⟩] : List Path), Accepted fs p)
      ∧ fs.find ⟨[0x61]⟩ = .ok 1 ∧ fs.find ⟨[0x66]⟩ = .ok 2
      ∧ ((pack ⟨[0x66]⟩ [⟨[0x61]⟩, ⟨[0x61]⟩]).start fs).1 =
        .error (.entry 2 (.io "Copy source file" (some ⟨[0x61]⟩) (.os .noSpace))) := by
  intro fs
  have haccepted : ∀ p ∈ ([⟨[0x61]⟩, ⟨[0x61]⟩] : List Path), Accepted fs p := by
    intro p hp
    rcases List.mem_pair.1 hp with rfl | rfl
    all_goals exact accepted_withFullDevice _
  obtain ⟨hinput, houtput⟩ := find_withFullDevice (List.replicate 4000 7)
  have hone : imageLength fs [⟨[0x61]⟩] = 4265 := by
    rw [imageLength_withFullDevice, List.length_replicate]
  have htwo : imageLength fs [⟨[0x61]⟩, ⟨[0x61]⟩] = 8529 := by
    rw [imageLength, List.map_cons, List.map_singleton, List.sum_cons, List.sum_singleton,
      entryLength_withFullDevice, List.length_replicate]
  refine ⟨haccepted, hinput, houtput, ?_⟩
  rcases pack_onto_full_device houtput rfl haccepted (List.cons_ne_nil _ _) (by decide) with
    ⟨hfits, -⟩ | ⟨before, p, after, hinputs, -, hlt, herror⟩
  · rw [htwo] at hfits
    exact absurd hfits (by decide)
  · cases before with
    | nil =>
      obtain ⟨rfl, -⟩ := List.cons.inj hinputs
      rw [List.nil_append, hone] at hlt
      exact absurd hlt (by decide)
    | cons q before =>
      obtain ⟨rfl, hrest⟩ := List.cons.inj hinputs
      obtain ⟨rfl, rfl⟩ := split_singleton hrest
      rw [herror, hone]
      rfl

end FlatArchive
