-- SUMMARY: What writing files into a device without room fails with, by what its buffer takes before that.
import FlatArchive.Proofs.Inputs
import FlatArchive.Proofs.Writing

/-!
# A device without room

A device that is full fails every write that reaches it, but first the buffer in front of it takes what
fits. So which write fails depends on the sizes of the files: it is that of the first head or content
that the buffer has no room for, or the last one, which writes out the buffer.
-/

namespace FlatArchive

open Attempt FileSystem

/-! ## Writers -/

namespace FileWriter

/-- The writer writes to device `o`, which is full, and all `n` bytes that were put into it wait in its
buffer. -/
structure Waiting (base : FileSystem) (o : NodeId) (n : Nat) (w : FileWriter) : Prop where
  full : base.node? o = some (.device .full)
  node : w.node = o
  files : w.files = base
  length : w.buffer.length = n
  pos : 0 < n
  le : n ≤ capacity

namespace Waiting

variable {base : FileSystem} {o i : NodeId} {n size : Nat} {w : FileWriter} {bs : Bytes}

theorem flush (h : Waiting base o n w) : w.flush = (.error (.os .noSpace), w) := by
  obtain ⟨hfull, rfl, rfl, rfl, hpos, -⟩ := h
  have hne : w.buffer ≠ [] := List.length_pos_iff.1 hpos
  rw [FileWriter.flush, if_neg hne, writeOut, writeAt, exec_ofFn, hfull]
  dsimp only
  rw [if_neg (by rwa [List.isEmpty_iff])]

theorem append (h : Waiting base o n w) (hle : n + bs.length ≤ capacity) :
    Waiting base o (n + bs.length) { w with buffer := w.buffer ++ bs } :=
  ⟨h.full, h.node, h.files, by rw [List.length_append, h.length], Nat.add_pos_left h.pos _, hle⟩

/-- What fits into the buffer waits there. -/
theorem write_of_le (h : Waiting base o n w) (hle : n + bs.length ≤ capacity) :
    w.write bs = (.accepted bs.length, { w with buffer := w.buffer ++ bs }) := by
  have hpos := h.pos
  unfold FileWriter.write FileWriter.writePast
  dsimp only
  rw [h.length]
  by_cases hspare : bs.length < capacity - n
  · rw [if_pos hspare]
  · rw [if_neg hspare, if_neg (by omega)]
    dsimp only
    rw [if_neg (by omega)]

/-- What does not fit has the buffer written out first, for which there is no room. -/
theorem write_of_lt (h : Waiting base o n w) (hlt : capacity < n + bs.length) :
    w.write bs = (.failed (.os .noSpace), w) := by
  have hle := h.le
  unfold FileWriter.write FileWriter.writePast
  dsimp only
  rw [h.length, if_neg (by omega), if_pos (by omega), h.flush]

theorem put_of_le (h : Waiting base o n w) (hle : n + bs.length ≤ capacity) :
    ∃ w', sink.put bs w = (.ok (), w') ∧ Waiting base o (n + bs.length) w' := by
  cases bs with
  | nil => exact ⟨w, sink.put_nil w, h⟩
  | cons b bs =>
    refine ⟨_, ?_, h.append hle⟩
    rw [sink.put_of_ne (List.cons_ne_nil b bs), show sink.write w _ = w.write _ from rfl,
      h.write_of_le hle, List.length_cons]
    dsimp only
    rw [← List.length_cons, List.drop_length, Sink.put_nil]

theorem put_of_lt (h : Waiting base o n w) (hlt : capacity < n + bs.length) :
    sink.put bs w = (.error (.os .noSpace), w) := by
  have hne : bs ≠ [] := by
    rintro rfl
    exact Nat.not_lt.2 h.le hlt
  rw [sink.put_of_ne hne, show sink.write w bs = w.write bs from rfl, h.write_of_lt hlt]

theorem capacity_lt_pieceSize : capacity < Builder.pieceSize := by decide

theorem copy_of_le (h : Waiting base o n w) (hsize : (base.content i).length = size)
    (hle : n + size ≤ capacity) : ∃ f w',
      sink.copy (OpenFile.stream ∘ FileWriter.files) Builder.pieceSize size (.ofNode i) w =
          (.ok size, f, w')
        ∧ Waiting base o (n + size) w' := by
  have hcontent : w.files.content i = base.content i := by rw [h.files]
  have hpiece := capacity_lt_pieceSize
  subst hsize
  obtain ⟨w', hput, hw'⟩ := h.put_of_le hle
  rw [sink.copy_file hcontent (by omega), hput]
  exact ⟨_, w', rfl, hw'⟩

theorem copy_of_lt (h : Waiting base o n w) (hsize : (base.content i).length = size)
    (hlt : capacity < n + size) : ∃ f,
      sink.copy (OpenFile.stream ∘ FileWriter.files) Builder.pieceSize size (.ofNode i) w =
        (.error (.os .noSpace), f, w) := by
  have hzero : size ≠ 0 := by
    rintro rfl
    exact Nat.not_lt.2 h.le hlt
  have hcontent : 0 + size ≤ (w.files.content i).length := by rw [h.files, hsize, Nat.zero_add]
  have hpiece := capacity_lt_pieceSize
  obtain ⟨got, -, hlength, hcopy⟩ := sink.copyAfter_file 0 hcontent (Nat.zero_lt_of_lt hpiece) hzero
  -- If the file has more than one piece, the first one is longer than the buffer.
  have hlong : capacity < n + got.length := by omega
  rw [Sink.copy, OpenFile.ofNode, hcopy, h.put_of_lt hlong]
  exact ⟨_, rfl⟩

end Waiting

/-- The header is put into an empty buffer. -/
theorem waiting_header {base : FileSystem} {o : NodeId} (hfull : base.node? o = some (.device .full))
    (header : Header) : ∃ w, sink.put header.toBytes (ofNode base o) = (.ok (), w)
      ∧ Waiting base o 1 w := by
  refine ⟨{ ofNode base o with buffer := header.toBytes }, ?_, hfull, rfl, rfl, rfl, by decide, by decide⟩
  rw [Header.toBytes, sink.put_of_ne (List.cons_ne_nil _ _)]
  have hwrite : sink.write (ofNode base o) [header.byte] =
      (.accepted 1, { ofNode base o with buffer := [header.byte] }) := rfl
  rw [hwrite]
  dsimp only
  rw [List.drop_one, List.tail_cons, Sink.put_nil]

end FileWriter

/-! ## Builders -/

namespace Builder

open FileWriter

/-- The length of the entry of a file: that of its head and of its content. -/
def entryLength (fs : FileSystem) (p : Path) : Nat :=
  Head.length + match fs.find p with
    | .ok i => (fs.content i).length
    | .error _ => 0

/-- The length of the image of some files. -/
def imageLength (fs : FileSystem) (ps : List Path) : Nat := 1 + (ps.map (entryLength fs)).sum

/-- The error of the entry for `p` if the buffer has no room for it behind `n` bytes: its head does not
fit, or else its content, which is told of the file. -/
def noRoomError (path : Option Path) (n : Nat) (p : Path) : Error :=
  if capacity < n + Head.length then .io "Write entry head" path (.os .noSpace)
  else .io "Copy source file" (some p) (.os .noSpace)

theorem atEntry_noRoomError (index : Nat) (path : Option Path) (n : Nat) (p : Path) :
    (noRoomError path n p).atEntry index = .entry index (noRoomError path n p) := by
  unfold noRoomError
  split_ifs <;> rfl

/-- Only the error of the head has no path yet. -/
theorem atPath_noRoomError (output : Path) (n : Nat) (p : Path) :
    (noRoomError none n p).atPath output = noRoomError (some output) n p := by
  unfold noRoomError
  split_ifs <;> rfl

section FullDevice

variable {base : FileSystem} {o : NodeId} {n : Nat} {p : Path} {ps : List Path}
  {item : Item} {items : List Item} {s : Session FileWriter}

/-- The entry of a file that is added waits in the buffer if it fits, and else it fails. -/
theorem exec_writeContent_full (hadds : Adds base p item) (h : Waiting base o n s.state) :
    (∃ size w, (writeContent sink FileWriter.files item).exec s = (.ok size, ⟨w, s.events⟩)
        ∧ Waiting base o (n + entryLength base p) w)
      ∨ capacity < n + entryLength base p ∧ ∃ w,
        (writeContent sink FileWriter.files item).exec s =
          (.error (noRoomError none n p), ⟨w, s.events⟩) := by
  obtain ⟨hcontent, i, hsource⟩ := hadds
  have hopen : openSource s.state.files p = .ok i := by
    rw [openSource_eq_ok_iff, h.files, hsource.find]
  have hlength : entryLength base p = Head.length + (base.content i).length := by
    rw [entryLength, hsource.find]
  rw [writeContent, hcontent]
  dsimp only
  rw [writeFile, exec_bind_ok (exec_get s), exec_bind_ok (exec_liftM_eq_ok_iff.2 ⟨hopen, rfl⟩),
    h.files, hlength]
  dsimp only
  rw [size_eq_length (isDirectory_eq_false_of_isFile hsource.isFile)]
  generalize hhead : (Head.ofName item.name (UInt64.ofNat (base.content i).length)).toBytes = head
  have hhead_length : head.length = Head.length := by rw [← hhead, Head.length_toBytes]
  rcases Nat.lt_or_ge capacity (n + Head.length) with hlt | hle
  · have hput : sink.put head s.state = (.error (.os .noSpace), s.state) := h.put_of_lt (by omega)
    refine .inr ⟨by omega, s.state, ?_⟩
    rw [noRoomError, if_pos hlt, exec_bind_error (exec_put _ hput)]
  · rw [← hhead_length] at hle
    obtain ⟨w, hput, hw⟩ := h.put_of_le hle
    rw [hhead_length] at hle hw
    rw [exec_bind_ok (exec_put _ hput), ← Nat.add_assoc]
    rcases Nat.lt_or_ge capacity (n + Head.length + (base.content i).length) with hlt | hfits
    · obtain ⟨f, hcopy⟩ := hw.copy_of_lt rfl hlt
      refine .inr ⟨hlt, w, ?_⟩
      rw [noRoomError, if_neg (Nat.not_lt.2 hle),
        exec_bind_error (exec_copy (s := ⟨w, s.events⟩) _ hcopy)]
    · obtain ⟨f, w', hcopy, hw'⟩ := hw.copy_of_le rfl hfits
      refine .inl ⟨(base.content i).length, w', ?_, hw'⟩
      rw [exec_bind_ok (exec_copy (s := ⟨w, s.events⟩) _ hcopy), if_pos rfl, exec_pure]

/-- All entries wait in the buffer, or the first one that does not fit fails. -/
theorem exec_writeItems_full (hadds : List.Forall₂ (Adds base) ps items) (h : Waiting base o n s.state)
    (index : Nat) :
    (∃ size s', (writeItems sink FileWriter.files index items).exec s = (.ok size, s')
        ∧ Waiting base o (n + (ps.map (entryLength base)).sum) s'.state)
      ∨ ∃ before p after, ps = before ++ p :: after
        ∧ n + (before.map (entryLength base)).sum ≤ capacity
        ∧ capacity < n + (before.map (entryLength base)).sum + entryLength base p
        ∧ ∃ s', (writeItems sink FileWriter.files index items).exec s =
          (.error (.entry (index + before.length)
            (noRoomError none (n + (before.map (entryLength base)).sum) p)), s') := by
  induction hadds generalizing n index s with
  | nil => exact .inl ⟨0, s, rfl, h⟩
  | @cons q item ps items hitem _ ih =>
    rw [writeItems]
    rcases exec_writeContent_full hitem h with ⟨size, w, hexec, hw⟩ | ⟨hlt, w, hexec⟩
    · rw [exec_bind_ok (Task.exec_atEntry_ok hexec), exec_bind_ok (exec_reportPacked ..)]
      rcases ih (s := ⟨w, _⟩) hw (index + 1) with
        ⟨rest, s', hexec', hw'⟩ | ⟨before, p, after, rfl, hle, hlt, s', hexec'⟩
      · rw [exec_bind_ok hexec', exec_pure, List.map_cons, List.sum_cons, ← Nat.add_assoc]
        exact .inl ⟨_, s', rfl, hw'⟩
      · refine .inr ⟨q :: before, p, after, rfl, ?_⟩
        rw [exec_bind_error hexec', List.map_cons, List.sum_cons, ← Nat.add_assoc, List.length_cons,
          Nat.add_right_comm index, Nat.add_assoc index]
        exact ⟨hle, hlt, s', rfl⟩
    · refine .inr ⟨[], q, ps, rfl, h.le, hlt, ⟨w, s.events⟩, ?_⟩
      rw [exec_bind_error (Task.exec_atEntry_error hexec), atEntry_noRoomError]
      rfl

/-- A builder of files whose image does not fit into the buffer fails with the first entry that does
not fit, and any other one when the buffer is written out in the end. -/
theorem exec_writeToFile_full {b : Builder} {header : Header} (output : Path)
    {s : Session FileSystem} (hfull : s.state.node? o = some (.device .full))
    (hheader : b.header = .ok header) (hadds : List.Forall₂ (Adds s.state) ps b.items) :
    (imageLength s.state ps ≤ capacity
        ∧ ((b.writeToFile output o).exec s).1 =
          .error (.io "Flush image" (some output) (.os .noSpace)))
      ∨ ∃ before p after, ps = before ++ p :: after ∧ imageLength s.state before ≤ capacity
        ∧ capacity < imageLength s.state (before ++ [p])
        ∧ ((b.writeToFile output o).exec s).1 = .error (.entry (before.length + 1)
          (noRoomError (some output) (imageLength s.state before) p)) := by
  obtain ⟨w, hput, hw⟩ := waiting_header hfull header
  have hbegin : (b.write sink FileWriter.files).exec ⟨ofNode s.state o, s.events⟩ = (do
      let size ← writeItems sink FileWriter.files 1 b.items
      return header.toBytes.length + size : Task FileWriter Nat).exec ⟨w, s.events⟩ := by
    rw [write, exec_bind_ok (exec_liftM_eq_ok_iff.2 ⟨hheader, rfl⟩),
      exec_bind_ok (exec_put (s := ⟨ofNode s.state o, s.events⟩) _ hput)]
  rw [writeToFile, exec_ofFn]
  dsimp only
  rw [hbegin]
  rcases exec_writeItems_full (s := ⟨w, s.events⟩) hadds hw 1 with
    ⟨size, s', hexec, hw'⟩ | ⟨before, p, after, rfl, hle, hlt, s', hexec⟩
  · rw [exec_bind_ok hexec, exec_pure]
    dsimp only
    rw [hw'.flush]
    exact .inl ⟨hw'.le, rfl⟩
  · rw [exec_bind_error hexec]
    dsimp only
    rw [Error.atPath, atPath_noRoomError, Nat.add_comm 1 before.length]
    refine .inr ⟨before, p, after, rfl, hle, ?_, rfl⟩
    rw [imageLength, List.map_append, List.sum_append, List.map_singleton, List.sum_singleton,
      ← Nat.add_assoc]
    exact hlt

end FullDevice

end Builder

end FlatArchive
