-- SUMMARY: What a builder writes into a file, whatever the buffer does, and that a device leaves the files alone.
import FlatArchive.Pack
import FlatArchive.Proofs.Collecting

/-!
# Writing into a file

A file writer holds the bytes that were put into it so far: those that it has written out are the
content of its file, and its buffer holds the rest. No other file changes, so what is copied from
another file is what that file held at the start. Writing out the buffer at the end makes the whole
image the content of the file.

A writer to a device changes no file at all. It fails only on the device that is full.
-/

namespace FlatArchive

open Attempt FileSystem

/-! ## The content of one file -/

namespace FileSystem

/-- Writing at the end of a content appends to it. -/
theorem overwrite_end (content bs : Bytes) :
    overwrite content content.length bs = content ++ bs := by
  simp [overwrite]

/-- Writing at the end of a file. -/
theorem exec_writeAt_end {fs : FileSystem} {i : NodeId} {content : Bytes}
    (h : fs.node? i = some (.file content)) (bs : Bytes) :
    (writeAt i content.length bs).exec fs = (.ok (), fs.setNode i (.file (content ++ bs))) := by
  rw [writeAt, exec_ofFn, h]
  simp only [overwrite_end]

end FileSystem

/-! ## Writers -/

namespace FileWriter

variable {base : FileSystem} {o : NodeId} {bs : Bytes} {w : FileWriter}

/-- All of `bs` was put into the writer, which writes file `o`: some of it is the content of the file,
and the rest is in the buffer. The other files are those of `base`. -/
structure Holds (base : FileSystem) (o : NodeId) (bs : Bytes) (w : FileWriter) : Prop where
  isFile : base.isFile o = true
  node : w.node = o
  stored : ∃ content, w.files = base.setNode o (.file content) ∧ w.offset = content.length
    ∧ content ++ w.buffer = bs

theorem holds_ofNode (h : base.node? o = some (.file [])) : Holds base o [] (ofNode base o) where
  isFile := isFile_iff.2 ⟨[], h⟩
  node := rfl
  stored := ⟨[], (setNode_self h).symm, rfl, rfl⟩

/-- A node other than the one that is written is what it was. -/
theorem Holds.node?_of_ne (h : Holds base o bs w) {i : NodeId} (hne : i ≠ o) :
    w.files.node? i = base.node? i := by
  obtain ⟨content, hfiles, -, -⟩ := h.stored
  rw [hfiles, node?_setNode _ _ (lt_size_of_isFile h.isFile), if_neg hne]

/-- A path leads where it led. -/
theorem Holds.find (h : Holds base o bs w) {p : Path} {i : NodeId} (hfind : base.find p = .ok i) :
    w.files.find p = .ok i := by
  obtain ⟨content, hfiles, -, -⟩ := h.stored
  rw [hfiles]
  exact (Extends.setFile h.isFile content).find hfind

/-- Writing out appends to the content of the file. -/
theorem Holds.exec_writeAt (h : Holds base o bs w) {content : Bytes}
    (hfiles : w.files = base.setNode o (.file content)) (hoffset : w.offset = content.length)
    (new : Bytes) : (writeAt w.node w.offset new).exec w.files =
      (.ok (), base.setNode o (.file (content ++ new))) := by
  have hnode : w.files.node? o = some (.file content) := by
    rw [hfiles, node?_setNode _ _ (lt_size_of_isFile h.isFile), if_pos rfl]
  rw [h.node, hoffset, exec_writeAt_end hnode, hfiles, setNode_setNode]

theorem Holds.flush (h : Holds base o bs w) :
    ∃ w', w.flush = (.ok (), w') ∧ Holds base o bs w' ∧ w'.buffer = [] := by
  obtain ⟨content, hfiles, hoffset, hbytes⟩ := h.stored
  unfold FileWriter.flush
  by_cases hbuffer : w.buffer = []
  · exact ⟨w, if_pos hbuffer, h, hbuffer⟩
  · rw [if_neg hbuffer, writeOut, h.exec_writeAt hfiles hoffset]
    refine ⟨_, rfl, ⟨h.isFile, h.node, content ++ w.buffer, rfl, ?_, ?_⟩, rfl⟩
    · simp [hoffset]
    · simpa using hbytes

theorem Holds.writeOut (h : Holds base o bs w) (hbuffer : w.buffer = []) (new : Bytes) :
    ∃ w', w.writeOut new = (.ok (), w') ∧ Holds base o (bs ++ new) w' := by
  obtain ⟨content, hfiles, hoffset, hbytes⟩ := h.stored
  rw [hbuffer, List.append_nil] at hbytes
  rw [FileWriter.writeOut, h.exec_writeAt hfiles hoffset]
  refine ⟨_, rfl, h.isFile, h.node, content ++ new, rfl, ?_, ?_⟩
  · simp [hoffset]
  · rw [hbytes, hbuffer, List.append_nil]

theorem Holds.append_buffer (h : Holds base o bs w) (new : Bytes) :
    Holds base o (bs ++ new) { w with buffer := w.buffer ++ new } := by
  obtain ⟨content, hfiles, hoffset, hbytes⟩ := h.stored
  exact ⟨h.isFile, h.node, content, hfiles, hoffset, by rw [← hbytes, List.append_assoc]⟩

theorem Holds.writePast (h : Holds base o bs w) (new : Bytes) :
    ∃ w', w.writePast new = (.ok (), w') ∧ Holds base o (bs ++ new) w' := by
  obtain ⟨w₁, hflush, hw₁, hbuffer⟩ := h.flush
  unfold FileWriter.writePast
  dsimp only
  by_cases hroom : capacity - w.buffer.length < new.length
  · rw [if_pos hroom, hflush]
    by_cases hlarge : capacity ≤ new.length
    · simpa only [if_pos hlarge] using hw₁.writeOut hbuffer new
    · simp only [if_neg hlarge]
      exact ⟨_, rfl, hw₁.append_buffer new⟩
  · rw [if_neg hroom]
    by_cases hlarge : capacity ≤ new.length
    · -- Without room to spare for a full buffer's worth, the buffer is empty.
      have hempty : w.buffer = [] := by
        rw [← List.length_eq_zero_iff]
        simp only [capacity] at hroom hlarge
        omega
      simpa only [if_pos hlarge] using h.writeOut hempty new
    · simp only [if_neg hlarge]
      exact ⟨_, rfl, h.append_buffer new⟩

theorem Holds.write (h : Holds base o bs w) (new : Bytes) :
    ∃ w', w.write new = (.accepted new.length, w') ∧ Holds base o (bs ++ new) w' := by
  unfold FileWriter.write
  by_cases hsmall : new.length < capacity - w.buffer.length
  · rw [if_pos hsmall]
    exact ⟨_, rfl, h.append_buffer new⟩
  · obtain ⟨w', hpast, hw'⟩ := h.writePast new
    rw [if_neg hsmall, hpast]
    exact ⟨w', rfl, hw'⟩

theorem collects_holds (base : FileSystem) (o : NodeId) :
    sink.Collects (Holds base o) (fun _ => False) where
  accepted {held w bs n w'} h hwrite := by
    obtain ⟨w₁, hw₁, hholds⟩ := h.write bs
    rw [show sink.write w bs = w.write bs from rfl, hw₁] at hwrite
    cases hwrite
    rwa [List.take_length]
  nothing {held w bs w'} h hne hwrite := hne (List.length_eq_zero_iff.1 (write_accepted hwrite).symm)
  interrupted h hwrite := absurd hwrite write_not_interrupted
  failed {held w bs e w'} h hwrite := by
    obtain ⟨w₁, hw₁, -⟩ := h.write bs
    rw [show sink.write w bs = w.write bs from rfl, hw₁] at hwrite
    cases hwrite

/-! ## Writers to a device -/

/-- The writer writes to device `o`, and the files are those of `base`. -/
structure OnDevice (base : FileSystem) (o : NodeId) (w : FileWriter) : Prop where
  device : ∃ kind, base.node? o = some (.device kind)
  node : w.node = o
  files : w.files = base

/-- The device is full, and the error says so. -/
def NoRoom (base : FileSystem) (o : NodeId) (e : IoError) : Prop :=
  base.node? o = some (.device .full) ∧ e = .os .noSpace

namespace OnDevice

variable {w' : FileWriter} {r : Except IoError Unit}

theorem writeOut (h : OnDevice base o w) (hwrite : w.writeOut bs = (r, w')) :
    OnDevice base o w' ∧ ∀ e, r = .error e → NoRoom base o e := by
  obtain ⟨⟨kind, hnode⟩, rfl, rfl⟩ := h
  unfold FileWriter.writeOut at hwrite
  rw [writeAt, exec_ofFn, hnode] at hwrite
  cases kind with
  | null =>
    cases hwrite
    exact ⟨⟨⟨_, hnode⟩, rfl, rfl⟩, nofun⟩
  | full =>
    dsimp only at hwrite
    split_ifs at hwrite with hnil
    · cases hwrite
      exact ⟨⟨⟨_, hnode⟩, rfl, rfl⟩, nofun⟩
    · cases hwrite
      refine ⟨⟨⟨_, hnode⟩, rfl, rfl⟩, ?_⟩
      rintro e ⟨⟩
      exact ⟨hnode, rfl⟩

theorem flush (h : OnDevice base o w) (hflush : w.flush = (r, w')) :
    OnDevice base o w' ∧ ∀ e, r = .error e → NoRoom base o e := by
  unfold FileWriter.flush at hflush
  split_ifs at hflush with hbuffer
  · cases hflush
    exact ⟨h, nofun⟩
  · split at hflush
    · next w₁ hwrite =>
      cases hflush
      obtain ⟨h₁, -⟩ := h.writeOut hwrite
      exact ⟨⟨h₁.device, h₁.node, h₁.files⟩, nofun⟩
    · next e w₁ hwrite =>
      cases hflush
      exact h.writeOut hwrite

theorem writePast (h : OnDevice base o w) (hwrite : w.writePast bs = (r, w')) :
    OnDevice base o w' ∧ ∀ e, r = .error e → NoRoom base o e := by
  unfold FileWriter.writePast at hwrite
  dsimp only at hwrite
  have hfirst : ∀ {r₁ w₁}, (if capacity - w.buffer.length < bs.length then w.flush else (.ok (), w)) =
      (r₁, w₁) → OnDevice base o w₁ ∧ ∀ e, r₁ = .error e → NoRoom base o e := by
    intro r₁ w₁ heq
    split_ifs at heq
    · exact h.flush heq
    · cases heq
      exact ⟨h, nofun⟩
  split at hwrite
  · next e w₁ heq =>
    cases hwrite
    exact hfirst heq
  · next w₁ heq =>
    obtain ⟨h₁, -⟩ := hfirst heq
    split_ifs at hwrite
    · exact h₁.writeOut hwrite
    · cases hwrite
      exact ⟨⟨h₁.device, h₁.node, h₁.files⟩, nofun⟩

/-- Nothing is kept of what was accepted, so the collected bytes are any. -/
theorem collects (base : FileSystem) (o : NodeId) :
    sink.Collects (fun _ => OnDevice base o) (NoRoom base o) where
  accepted {held w bs n w'} h hwrite := by
    change w.write bs = _ at hwrite
    unfold FileWriter.write at hwrite
    split at hwrite
    · cases hwrite
      exact ⟨h.device, h.node, h.files⟩
    · split at hwrite
      · next w₁ hpast =>
        cases hwrite
        exact (h.writePast hpast).1
      · cases hwrite
  nothing h hne hwrite := absurd (List.length_eq_zero_iff.1 (write_accepted hwrite).symm) hne
  interrupted h hwrite := absurd hwrite write_not_interrupted
  failed {held w bs e w'} h hwrite := by
    change w.write bs = _ at hwrite
    unfold FileWriter.write at hwrite
    split at hwrite
    · cases hwrite
    · split at hwrite
      · cases hwrite
      · next e' w₁ hpast =>
        cases hwrite
        obtain ⟨h₁, he⟩ := h.writePast hpast
        exact ⟨h₁, he e rfl⟩

end OnDevice

end FileWriter

/-! ## Builders -/

namespace Builder

variable {b : Builder} {header : Header} {entries : List Entry} {o : NodeId}
  {s : Session FileSystem}

/-- A builder that is written into an empty file makes the image its content. -/
theorem exec_writeToFile (output : Path) (hfile : s.state.node? o = some (.file []))
    (hheader : b.header = .ok header) (h : List.Forall₂ (Yields s.state o) b.items entries) :
    (b.writeToFile output o).exec s =
      (.ok (header.toBytes ++ entries.flatMap Entry.encode).length,
        ⟨s.state.setNode o (.file (header.toBytes ++ entries.flatMap Entry.encode)),
          s.events ++ reports 1 entries⟩) := by
  have hemits := emits_write (FileWriter.collects_holds s.state o)
    (fun hw _ hfind hne => ⟨hw.find hfind, hw.node?_of_ne hne⟩)
    (fun _ hp => hp) hheader h
  have hstart := FileWriter.holds_ofNode hfile
  rcases hemits [] ⟨FileWriter.ofNode s.state o, s.events⟩ hstart with
    ⟨w, hexec, hw⟩ | ⟨e, t, front, told, -, he, -⟩
  · obtain ⟨w', hflush, hw', hbuffer⟩ := hw.flush
    obtain ⟨content, hfiles, -, hbytes⟩ := hw'.stored
    rw [hbuffer, List.append_nil, List.nil_append] at hbytes
    rw [writeToFile, exec_ofFn]
    dsimp only
    rw [hexec]
    dsimp only
    rw [hflush]
    dsimp only
    rw [hfiles, hbytes]
  · exact he.exists_cause.elim fun _ hfalse => hfalse.elim

/-- A builder that is written to a device leaves the files alone, and fails only if the device is
full. -/
theorem exec_writeToFile_device (output : Path) {kind : Device}
    (hdevice : s.state.node? o = some (.device kind)) (hheader : b.header = .ok header)
    (h : List.Forall₂ (Yields s.state o) b.items entries) :
    ((b.writeToFile output o).exec s).2.state = s.state
      ∧ ∀ e, ((b.writeToFile output o).exec s).1 = .error e →
        s.state.node? o = some (.device .full) := by
  have hemits : Emits _ _ (b.write FileWriter.sink FileWriter.files) _ _ _ :=
    emits_write (FileWriter.OnDevice.collects s.state o)
      (fun hw _ hfind _ => ⟨by rw [hw.files]; exact hfind, by rw [hw.files]⟩) (fun _ hp => hp)
      hheader h
  have hstart : FileWriter.OnDevice s.state o (FileWriter.ofNode s.state o) :=
    ⟨⟨kind, hdevice⟩, rfl, rfl⟩
  rw [writeToFile, exec_ofFn]
  dsimp only
  rcases hemits [] ⟨FileWriter.ofNode s.state o, s.events⟩ hstart with
    ⟨w, hexec, hw⟩ | ⟨e, w, front, told, hexec, he, -, -, hw⟩
  · rw [hexec]
    dsimp only
    rcases hflush : w.flush with ⟨e | ⟨⟩, w'⟩
    · obtain ⟨hw', hroom⟩ := hw.flush hflush
      refine ⟨hw'.files, ?_⟩
      rintro _ ⟨⟩
      exact (hroom e rfl).1
    · exact ⟨(hw.flush hflush).1.files, nofun⟩
  · rw [hexec]
    dsimp only
    rcases hflush : w.flush with ⟨r, w'⟩
    refine ⟨(hw.flush hflush).1.files, ?_⟩
    rintro _ ⟨⟩
    exact he.exists_cause.elim fun cause hroom => hroom.1

end Builder

end FlatArchive
