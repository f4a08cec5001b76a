-- SUMMARY: What a pack that succeeds has checked, and the image that it leaves in its output.
import FlatArchive.Proofs.FullDevice

/-!
# Packing

A pack that succeeds was given between one and 255 files, each with a last component that is text,
and an output that is none of them. It leaves the image of these files in the output: an entry for
each of them, in their order, with the content that the file had before.
-/

namespace FlatArchive

open Attempt FileSystem

variable {fs : FileSystem} {p output : Path} {inputs : List Path} {i o : NodeId} {name : String}

namespace Builder

variable {b : Builder}

/-! ## The output -/

/-- What can be wrong with an output, and the error that says so: where it leads is unknown, it is one
of the inputs, of which the first is named, it cannot be created, or it is a device without room. Then
the sizes of the inputs decide what fails: writing out the buffer in the end if that holds all of the
image, or else the first head or content that it does not take. Of these only the error of a content
names an input in place of the output. -/
inductive OutputFault (fs : FileSystem) (output : Path) (inputs : List Path) : Error → Prop where
  | unknown {cause : IoError} (find : fs.find output = .error cause) (ne : cause ≠ .os .noEntry) :
      OutputFault fs output inputs (.io "Stat image" (some output) cause)
  | isInput {o : NodeId} {before after : List Path} {p : Path} (find : fs.find output = .ok o)
      (inputs_eq : inputs = before ++ p :: after) (first : ∀ q ∈ before, fs.find q ≠ .ok o)
      (same : fs.find p = .ok o) :
      OutputFault fs output inputs (.invalidInput p "output is also an input")
  | notCreated {cause : IoError} (create : (FileSystem.create output).exec fs = (.error cause, fs)) :
      OutputFault fs output inputs (.io "Create image" (some output) cause)
  | noRoomInTheEnd {o : NodeId} (find : fs.find output = .ok o)
      (full : fs.node? o = some (.device .full))
      (fits : imageLength fs inputs ≤ FileWriter.capacity) :
      OutputFault fs output inputs (.io "Flush image" (some output) (.os .noSpace))
  | noRoomForHead {o : NodeId} {before after : List Path} {p : Path} (find : fs.find output = .ok o)
      (full : fs.node? o = some (.device .full)) (inputs_eq : inputs = before ++ p :: after)
      (fits : imageLength fs before ≤ FileWriter.capacity)
      (exceeds : FileWriter.capacity < imageLength fs before + Head.length) :
      OutputFault fs output inputs
        (.entry (before.length + 1) (.io "Write entry head" (some output) (.os .noSpace)))
  | noRoomForContent {o : NodeId} {before after : List Path} {p : Path}
      (find : fs.find output = .ok o) (full : fs.node? o = some (.device .full))
      (inputs_eq : inputs = before ++ p :: after)
      (fits : imageLength fs before + Head.length ≤ FileWriter.capacity)
      (exceeds : FileWriter.capacity < imageLength fs (before ++ [p])) :
      OutputFault fs output inputs
        (.entry (before.length + 1) (.io "Copy source file" (some p) (.os .noSpace)))

/-- None of the paths leads to the node, or there is a first one that does. -/
theorem firstSame_cases (o : NodeId) {ps : List Path} (hfound : ∀ p ∈ ps, ∃ i, fs.find p = .ok i) :
    (firstSame fs o ps = .ok none ∧ ∀ p ∈ ps, fs.find p ≠ .ok o) ∨
      ∃ before p after, ps = before ++ p :: after ∧ (∀ q ∈ before, fs.find q ≠ .ok o)
        ∧ fs.find p = .ok o ∧ firstSame fs o ps = .ok (some p) := by
  induction ps with
  | nil => exact .inl ⟨rfl, nofun⟩
  | cons p ps ih =>
    obtain ⟨i, hfind⟩ := hfound p List.mem_cons_self
    unfold firstSame
    rw [hfind]
    dsimp only
    by_cases hsame : i = o
    · subst hsame
      rw [if_pos rfl]
      exact .inr ⟨[], p, ps, rfl, nofun, hfind, rfl⟩
    · have hother : fs.find p ≠ .ok o := by
        rw [hfind]
        exact fun heq => hsame (Except.ok.inj heq)
      rw [if_neg hsame]
      rcases ih fun q hq => hfound q (List.mem_cons_of_mem p hq) with
        ⟨hnone, hothers⟩ | ⟨before, q, after, rfl, hothers, hq, hfirst⟩
      · exact .inl ⟨hnone, List.forall_mem_cons.2 ⟨hother, hothers⟩⟩
      · exact .inr ⟨p :: before, q, after, rfl, List.forall_mem_cons.2 ⟨hother, hothers⟩, hq, hfirst⟩

/-- An output passes the check if it is none of the inputs. -/
theorem checkOutput_cases (hadds : List.Forall₂ (Adds fs) inputs b.items) (output : Path) :
    (checkOutput fs b output = .ok ()
        ∧ ∀ o, fs.find output = .ok o → ∀ p ∈ inputs, fs.find p ≠ .ok o) ∨
      ∃ e, checkOutput fs b output = .error e ∧ OutputFault fs output inputs e := by
  have hfound : ∀ p ∈ inputs, ∃ i, fs.find p = .ok i := by
    intro p hp
    obtain ⟨i, hfind, -⟩ := find_of_adds hadds hp
    exact ⟨i, hfind⟩
  have hsources : b.sources = inputs := sources_of_adds hadds
  unfold checkOutput
  rw [hsources]
  cases houtput : fs.find output with
  | error cause =>
    dsimp only
    by_cases hmissing : cause.isNotFound = true
    · rw [if_pos hmissing]
      exact .inl ⟨rfl, nofun⟩
    · rw [if_neg hmissing]
      exact .inr ⟨_, rfl, .unknown houtput fun heq => hmissing (isNotFound_iff.2 heq)⟩
  | ok o =>
    dsimp only
    rcases firstSame_cases o hfound with ⟨hnone, hothers⟩ | ⟨before, p, after, hps, hothers, hp, hfirst⟩
    · rw [hnone]
      refine .inl ⟨rfl, ?_⟩
      rintro _ ⟨⟩
      exact hothers
    · rw [hfirst]
      exact .inr ⟨_, rfl, .isInput houtput hps hothers hp⟩

theorem others_of_checkOutput (hadds : List.Forall₂ (Adds fs) inputs b.items)
    (hcheck : checkOutput fs b output = .ok ()) :
    ∀ o, fs.find output = .ok o → ∀ p ∈ inputs, fs.find p ≠ .ok o := by
  rcases checkOutput_cases hadds output with ⟨-, hothers⟩ | ⟨e, herror, -⟩
  · exact hothers
  · rw [hcheck] at herror
    cases herror

/-- Then neither is the file that is created for it. -/
theorem find_ne_of_created {items : List Item} {created : FileSystem}
    (hadds : List.Forall₂ (Adds fs) inputs items)
    (hothers : ∀ o, fs.find output = .ok o → ∀ p ∈ inputs, fs.find p ≠ .ok o)
    (hcreated : Created fs output o created) : ∀ p ∈ inputs, fs.find p ≠ .ok o := by
  intro p hp hsame
  rcases hcreated.found_or_new with hfound | hnew
  · exact hothers o hfound p hp hsame
  · obtain ⟨i, hfind, hfile⟩ := find_of_adds hadds hp
    rw [hfind] at hsame
    cases hsame
    exact Nat.not_lt.2 hnew (lt_size_of_isFile hfile)

/-! ## Entries -/

/-- An entry for the file at `p`, with the content that the file has. -/
def Packs (fs : FileSystem) (p : Path) (e : Entry) : Prop :=
  ∃ i, Source fs p e.name i ∧ e.content = fs.content i

/-- It is the only one. -/
theorem Packs.eq {e : Entry} (h : Packs fs p e) (hsource : Source fs p name i) :
    e = ⟨name, fs.content i⟩ := by
  obtain ⟨text, bytes⟩ := e
  obtain ⟨j, hpacked, rfl⟩ := h
  have hname : text = name := Except.ok.inj (hpacked.entryName.symm.trans hsource.entryName)
  have hnode : j = i := Except.ok.inj (hpacked.find.symm.trans hsource.find)
  rw [hname, hnode]

/-- The items that were added are entries of the files as they were, after all nodes but the output
stayed what they are. -/
theorem yields_of_adds {items : List Item} {created : FileSystem}
    (hitems : List.Forall₂ (Adds fs) inputs items) (hgrown : fs.Extends created)
    (hkept : ∀ {j}, fs.isDirectory j = false → j ≠ o → created.node? j = fs.node? j)
    (hne : ∀ p ∈ inputs, fs.find p ≠ .ok o) :
    ∃ entries, List.Forall₂ (Yields created o) items entries
      ∧ List.Forall₂ (Packs fs) inputs entries := by
  induction hitems with
  | nil => exact ⟨[], .nil, .nil⟩
  | @cons p item inputs items hitem _ ih =>
    obtain ⟨entries, hyields, hpacks⟩ := ih fun q hq => hne q (List.mem_cons_of_mem _ hq)
    obtain ⟨name, content⟩ := item
    obtain ⟨rfl, i, hsource⟩ := hitem
    have hio : i ≠ o := by
      rintro rfl
      exact hne p List.mem_cons_self hsource.find
    have hnode := hkept (isDirectory_eq_false_of_isFile hsource.isFile) hio
    have hfile : created.isFile i = true := by
      rw [isFile, hnode]
      exact hsource.isFile
    exact ⟨⟨name, created.content i⟩ :: entries,
      .cons (.file name (hgrown.find hsource.find) hfile hio) hyields,
      .cons ⟨i, hsource, content_of_node?_eq hnode⟩ hpacks⟩

/-! ## Image files -/

section ImageFile

variable {header : Header} {s : Session FileSystem} (hadds : List.Forall₂ (Adds s.state) inputs b.items)

/-- Writing an image succeeds if its checks do and its output can be created as a file. -/
theorem exec_writeImageFile {created : FileSystem} {entries : List Entry}
    (hheader : b.header = .ok header) (hcheck : checkOutput s.state b output = .ok ())
    (hcreate : (FileSystem.create output).exec s.state = (.ok o, created))
    (hempty : created.node? o = some (.file []))
    (hyields : List.Forall₂ (Yields created o) b.items entries) :
    (b.writeImageFile output).exec s =
      (.ok (header.toBytes ++ entries.flatMap Entry.encode).length,
        ⟨created.setNode o (.file (header.toBytes ++ entries.flatMap Entry.encode)),
          s.events ++ reports 1 entries ++ [.imageWritten output header.count
            (header.toBytes ++ entries.flatMap Entry.encode).length]⟩) := by
  rw [writeImageFile, exec_bind_ok (exec_liftM_eq_ok_iff.2 ⟨hheader, rfl⟩), exec_bind_ok (exec_get s),
    exec_bind_ok (exec_liftM_eq_ok_iff.2 ⟨hcheck, rfl⟩), exec_bind_ok (Task.exec_io_ok _ hcreate),
    exec_bind_ok (exec_writeToFile output (s := ⟨created, s.events⟩) hempty hheader hyields),
    exec_bind_ok (Task.exec_report _ _)]
  rfl

include hadds in
/-- Writing the image of some inputs to a device without room fails. -/
theorem exec_writeToFile_noRoom (hfind : s.state.find output = .ok o)
    (hfull : s.state.node? o = some (.device .full)) (hheader : b.header = .ok header) :
    ∃ e, ((b.writeToFile output o).exec s).1 = .error e ∧ OutputFault s.state output inputs e := by
  rcases exec_writeToFile_full output hfull hheader hadds with
    ⟨hfits, herror⟩ | ⟨before, p, after, hinputs, hle, hlt, herror⟩
  · exact ⟨_, herror, .noRoomInTheEnd hfind hfull hfits⟩
  · refine ⟨_, herror, ?_⟩
    rcases Nat.lt_or_ge FileWriter.capacity (imageLength s.state before + Head.length) with
      hhead | hhead
    · rw [noRoomError, if_pos hhead]
      exact .noRoomForHead hfind hfull hinputs hle hhead
    · rw [noRoomError, if_neg (Nat.not_lt.2 hhead)]
      exact .noRoomForContent hfind hfull hinputs hhead hlt

include hadds in
/-- Writing the image of some inputs finds something wrong with the output and leaves all files as they
were, or it writes the image to the output, which is a file, or the device that takes everything. -/
theorem writeImageFile_cases (output : Path) (hheader : b.header = .ok header) :
    (∃ e events, OutputFault s.state output inputs e
        ∧ (b.writeImageFile output).exec s = (.error e, ⟨s.state, events⟩))
      ∨ (∃ o created entries, Created s.state output o created
        ∧ List.Forall₂ (Packs s.state) inputs entries ∧ (∀ p ∈ inputs, s.state.find p ≠ .ok o)
        ∧ (b.writeImageFile output).exec s =
          (.ok (header.toBytes ++ entries.flatMap Entry.encode).length,
            ⟨created.setNode o (.file (header.toBytes ++ entries.flatMap Entry.encode)),
              s.events ++ reports 1 entries ++ [.imageWritten output header.count
                (header.toBytes ++ entries.flatMap Entry.encode).length]⟩))
      ∨ ∃ o size events, s.state.find output = .ok o ∧ s.state.node? o = some (.device .null)
        ∧ (b.writeImageFile output).exec s = (.ok size, ⟨s.state, events⟩) := by
  have hbegin : (b.writeImageFile output).exec s = (do
      checkOutput s.state b output
      let i ← Task.io (.io "Create image" (some output)) (FileSystem.create output)
      let size ← b.writeToFile output i
      Task.report (.imageWritten output header.count size)
      return size : Task FileSystem Nat).exec s := by
    rw [writeImageFile, exec_bind_ok (exec_liftM_eq_ok_iff.2 ⟨hheader, rfl⟩),
      exec_bind_ok (exec_get s)]
  rcases checkOutput_cases hadds output with ⟨hcheck, hothers⟩ | ⟨e, hcheck, hfault⟩
  · rcases hcreate : (FileSystem.create output).exec s.state with ⟨cause | o, created⟩
    · have hfailed : created = s.state := by
        rcases create_cases s.state output with ⟨d, name, -, h⟩ | ⟨i, -, -, h⟩ | ⟨i, kind, -, -, h⟩ |
          ⟨e, h⟩
        all_goals
          rw [h] at hcreate
          cases hcreate
        rfl
      subst hfailed
      refine .inl ⟨_, s.events, .notCreated hcreate, ?_⟩
      rw [hbegin, exec_bind_ok (exec_liftM_eq_ok_iff.2 ⟨hcheck, rfl⟩)]
      refine exec_bind_error ?_
      rw [Task.exec_io, hcreate]
      rfl
    · rcases created_or_device hcreate with hcreated | ⟨kind, hfind, hnode, rfl⟩
      · have hne := find_ne_of_created hadds hothers hcreated
        obtain ⟨entries, hyields, hpacks⟩ :=
          yields_of_adds hadds hcreated.grown hcreated.others hne
        exact .inr (.inl ⟨o, created, entries, hcreated, hpacks, hne,
          exec_writeImageFile hheader hcheck hcreate hcreated.empty hyields⟩)
      · obtain ⟨entries, hyields, -⟩ :=
          yields_of_adds hadds (.refl s.state) (fun _ _ => rfl) (hothers o hfind)
        obtain ⟨hkept, hfailed⟩ := exec_writeToFile_device (s := s) output hnode hheader hyields
        rw [hbegin, exec_bind_ok (exec_liftM_eq_ok_iff.2 ⟨hcheck, rfl⟩),
          exec_bind_ok (Task.exec_io_ok _ hcreate)]
        rcases hwrite : (b.writeToFile output o).exec s with ⟨result, after, events⟩
        rw [hwrite] at hkept hfailed
        obtain rfl : after = s.state := hkept
        cases kind with
        | full =>
          obtain ⟨e, herror, hfault⟩ := exec_writeToFile_noRoom hadds hfind hnode hheader
          rw [hwrite] at herror
          obtain rfl : result = .error e := herror
          exact .inl ⟨e, events, hfault, exec_bind_error hwrite⟩
        | null =>
          cases result with
          | error e => cases hnode.symm.trans (hfailed e rfl)
          | ok size =>
            refine .inr (.inr
              ⟨o, size, events ++ [.imageWritten output header.count size], hfind, hnode, ?_⟩)
            rw [exec_bind_ok hwrite, exec_bind_ok (Task.exec_report _ _)]
            rfl
  · refine .inl ⟨e, s.events, hfault, ?_⟩
    rw [hbegin]
    refine exec_bind_error ?_
    rw [exec_liftM, hcheck]

end ImageFile

end Builder

/-! ## The whole of it -/

open Builder

/-- Packing succeeds if the inputs are in number and kind what they should be and their image can be
written. -/
theorem exec_pack_eq_ok_iff {s s' : Session FileSystem} {size : Nat} :
    (pack output inputs).exec s = (.ok size, s') ↔
      ∃ (header : Header) (b : Builder), headerFor inputs.length = .ok header
        ∧ List.Forall₂ (Adds s.state) inputs b.items
        ∧ (b.writeImageFile output).exec s = (.ok size, s') := by
  unfold pack
  constructor
  · intro h
    obtain ⟨header, s₁, hchecked, h₁⟩ := exec_bind_eq_ok_iff.1 h
    obtain ⟨hcount, rfl⟩ := exec_liftM_eq_ok_iff.1 hchecked
    rw [exec_bind_ok (exec_get _)] at h₁
    obtain ⟨b, s₂, hbuilt, h₂⟩ := exec_bind_eq_ok_iff.1 h₁
    obtain ⟨hbuild, rfl⟩ := exec_liftM_eq_ok_iff.1 hbuilt
    exact ⟨header, b, hcount, build_eq_ok_iff.1 hbuild, h₂⟩
  · rintro ⟨header, b, hcount, hadds, hwrite⟩
    rw [exec_bind_ok (exec_liftM_eq_ok_iff.2 ⟨hcount, rfl⟩), exec_bind_ok (exec_get s),
      exec_bind_ok (exec_liftM_eq_ok_iff.2 ⟨build_eq_ok_iff.2 hadds, rfl⟩)]
    exact hwrite

/-- Packing succeeds if its checks do and its output can be created as a file. -/
theorem exec_pack {header : Header} {b : Builder} {created : FileSystem}
    (hcount : headerFor inputs.length = .ok header) (hadds : List.Forall₂ (Adds fs) inputs b.items)
    (hcheck : checkOutput fs b output = .ok ())
    (hcreate : (FileSystem.create output).exec fs = (.ok o, created))
    (hempty : created.node? o = some (.file [])) :
    ∃ entries size events, List.Forall₂ (Packs fs) inputs entries
      ∧ (pack output inputs).start fs = (.ok size,
        ⟨created.setNode o (.file (header.toBytes ++ entries.flatMap Entry.encode)), events⟩) := by
  have hheader := header_of_adds hadds hcount
  rcases created_or_device hcreate with hcreated | ⟨kind, -, hdevice, rfl⟩
  · obtain ⟨entries, hyields, hpacks⟩ := yields_of_adds hadds hcreated.grown hcreated.others
      (find_ne_of_created hadds (others_of_checkOutput hadds hcheck) hcreated)
    exact ⟨entries, _, _, hpacks, exec_pack_eq_ok_iff.2 ⟨header, b, hcount, hadds,
      exec_writeImageFile (s := ⟨fs, []⟩) hheader hcheck hcreate hempty hyields⟩⟩
  · rw [hdevice] at hempty
    cases hempty

/-- A pack that succeeds leaves the image of its inputs in the output. -/
theorem image_of_pack {s s' : Session FileSystem} {size : Nat}
    (hpack : (pack output inputs).exec s = (.ok size, s'))
    (hregular : ∀ {i}, s.state.find output = .ok i → s.state.isFile i = true) :
    ∃ (o : NodeId) (header : Header) (entries : List Entry), s'.state.find output = .ok o
      ∧ s'.state.node? o = some (.file (header.toBytes ++ entries.flatMap Entry.encode))
      ∧ header.count = entries.length ∧ header.count ≠ 0
      ∧ List.Forall₂ (Packs s.state) inputs entries := by
  obtain ⟨header, b, hcount, hadds, hwrite⟩ := exec_pack_eq_ok_iff.1 hpack
  rcases writeImageFile_cases hadds output (header_of_adds hadds hcount) with ⟨e, events, -, hfailed⟩ |
    ⟨o, created, entries, hcreated, hpacks, -, hwritten⟩ | ⟨o, size', events, hfind, hnode, -⟩
  · rw [hfailed] at hwrite
    cases hwrite
  · rw [hwritten] at hwrite
    cases hwrite
    have hfile := isFile_iff.2 ⟨[], hcreated.empty⟩
    obtain ⟨hlength, hpos⟩ := count_of_headerFor hcount
    refine ⟨o, header, entries, (Extends.setFile hfile _).find hcreated.find, ?_, ?_, ?_, hpacks⟩
    · rw [node?_setNode _ _ (lt_size_of_isFile hfile), if_pos rfl]
    · rw [hlength, hpacks.length_eq]
    · rwa [hlength]
  · obtain ⟨content, hfile⟩ := isFile_iff.1 (hregular hfind)
    rw [hnode] at hfile
    cases hfile

end FlatArchive
