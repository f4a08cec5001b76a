-- SUMMARY: What the errors of writing an image come from, and which file they name.
import FlatArchive.Proofs.Acceptance
import FlatArchive.Proofs.Refusing

/-!
# Blame

What writing a builder fails with says what has failed: the number of entries, the opening of a file,
reading it, or the sink. A file that was opened is read unless it is a directory by then. So while a file
is copied it can be the file that fails or the sink, and the error names the file for both, where all
other errors of the sink name none, and a pack adds the path of its output to them.
-/

namespace FlatArchive

open Attempt FileSystem

/-! ## Failed writes -/

namespace Sink

variable {τ : Type}

/-- After some writes from `t` on, one more failed with an error or accepted nothing. -/
inductive FailedWith (sink : Sink τ) (t : τ) : IoError → τ → Prop where
  | failed {v u : τ} {bs : Bytes} {cause : IoError} (reached : sink.Reaches t v)
      (write : sink.write v bs = (.failed cause, u)) : FailedWith sink t cause u
  | nothing {v u : τ} {bs : Bytes} (reached : sink.Reaches t v) (ne : bs ≠ [])
      (write : sink.write v bs = (.accepted 0, u)) : FailedWith sink t .writeZero u

variable {sink : Sink τ} {t u v : τ}

theorem Reaches.trans (h : sink.Reaches t u) (h' : sink.Reaches u v) : sink.Reaches t v := by
  induction h' with
  | refl => exact h
  | write bs _ ih => exact ih.write bs

/-- What failed after later writes failed after the earlier ones too. -/
theorem FailedWith.of_reaches {cause : IoError} (h : sink.FailedWith u cause v)
    (hreached : sink.Reaches t u) : sink.FailedWith t cause v := by
  cases h with
  | failed reached write => exact .failed (hreached.trans reached) write
  | nothing reached ne write => exact .nothing (hreached.trans reached) ne write

theorem Reaches.of_write {bs : Bytes} {a : Acceptance} (h : sink.Reaches t v)
    (hwrite : sink.write v bs = (a, u)) : sink.Reaches t u := by
  have hreached := h.write bs
  rwa [hwrite] at hreached

/-- What is put into a sink leads on, and an error is that of the last write. -/
theorem Reaches.put {bs : Bytes} {r : Except IoError Unit} (h : sink.Reaches t v)
    (hput : sink.put bs v = (r, u)) :
    sink.Reaches t u ∧ ∀ cause, r = .error cause → sink.FailedWith t cause u := by
  fun_induction sink.put bs v with
  | case1 v =>
    cases hput
    refine ⟨h, ?_⟩
    rintro _ ⟨⟩
  | case2 bs v hne v' hwrite =>
    cases hput
    refine ⟨h.of_write hwrite, ?_⟩
    rintro _ ⟨⟩
    exact .nothing h hne hwrite
  | case3 bs v hne n v' hwrite ih => exact ih (h.of_write hwrite) hput
  | case4 bs v hne v' hwrite ih => exact ih (h.of_write hwrite) hput
  | case5 bs v hne e v' hwrite =>
    cases hput
    refine ⟨h.of_write hwrite, ?_⟩
    rintro _ ⟨⟩
    exact .failed h hwrite

/-- Copying an open file fails only if the sink does, of what was read of the file, or if what is open
is a directory when it is read. -/
theorem Reaches.copyAfter {files : τ → FileSystem} {piece count size : Nat} {f f' : OpenFile}
    {r : Except IoError Nat} (h : sink.Reaches t v)
    (hcopy : sink.copyAfter (OpenFile.stream ∘ files) piece count size f v = (r, f', u)) :
    sink.Reaches t u ∧ ∀ cause, r = .error cause →
      (∃ w, sink.Reaches t w ∧ (files w).isFile f.node = true ∧ sink.FailedWith w cause u)
        ∨ cause = .os .isDirectory ∧ (files u).isDirectory f.node = true := by
  fun_induction sink.copyAfter (OpenFile.stream ∘ files) piece count size f v with
  | case1 =>
    cases hcopy
    refine ⟨h, ?_⟩
    rintro _ ⟨⟩
  | case2 =>
    cases hcopy
    refine ⟨h, ?_⟩
    rintro _ ⟨⟩
  | case3 count size f v hsize b bs f₁ hread e v₁ hput =>
    cases hcopy
    refine ⟨(h.put hput).1, ?_⟩
    rintro _ ⟨⟩
    -- Something was read, so it was a file then.
    obtain ⟨hpart, -⟩ := OpenFile.eq_of_read_bytes hread
    have hlength : ((files v).content f.node).length ≠ 0 := by
      intro hzero
      rw [List.length_eq_zero_iff.1 hzero, List.drop_nil, List.take_nil] at hpart
      cases hpart
    exact .inl ⟨v, h, isFile_of_length_content hlength, (Reaches.put .refl hput).2 e rfl⟩
  | case4 count size f v hsize b bs f₁ hread v₁ hput ih =>
    obtain ⟨-, rfl⟩ := OpenFile.eq_of_read_bytes hread
    exact ih (h.put hput).1 hcopy
  | case5 count size f v hsize f₁ hread => exact absurd hread OpenFile.read_ne_interrupted
  | case6 count size f v hsize e f₁ hread =>
    cases hcopy
    obtain ⟨rfl, hdir, -⟩ := OpenFile.eq_of_read_failed hread
    refine ⟨h, ?_⟩
    rintro _ ⟨⟩
    exact .inr ⟨rfl, hdir⟩

end Sink

namespace Builder

/-! ## What an error comes from -/

section Faults

variable {τ : Type}

/-- What can go wrong with one item, and the error that says so, in state `u` of a sink that started
in state `t`. What was opened cannot be read if it is a directory; else it is the sink that fails while a
file is copied, although the error names the file for that as well. -/
inductive ItemFault (sink : Sink τ) (files : τ → FileSystem) (t u : τ) (item : Item) :
    Error → Prop where
  | missing {p : Path} (content : item.content = .file p) (reached : sink.Reaches t u)
      (find : (files u).find p = .error (.os .noEntry)) :
      ItemFault sink files t u item (.fileNotFound p)
  | unopenable {p : Path} {cause : IoError} (content : item.content = .file p)
      (reached : sink.Reaches t u) (find : (files u).find p = .error cause)
      (ne : cause ≠ .os .noEntry) :
      ItemFault sink files t u item (.io "Open source file" (some p) cause)
  | head {cause : IoError} (failed : sink.FailedWith t cause u) :
      ItemFault sink files t u item (.io "Write entry head" none cause)
  | content {bs : Bytes} {cause : IoError} (content : item.content = .bytes bs)
      (failed : sink.FailedWith t cause u) :
      ItemFault sink files t u item (.io "Write entry content" none cause)
  | read {p : Path} {v : τ} {i : NodeId} (content : item.content = .file p)
      (opened : sink.Reaches t v) (find : (files v).find p = .ok i) (reached : sink.Reaches v u)
      (isDirectory : (files u).isDirectory i = true) :
      ItemFault sink files t u item (.io "Copy source file" (some p) (.os .isDirectory))
  | copy {p : Path} {cause : IoError} {v w : τ} {i : NodeId} (content : item.content = .file p)
      (opened : sink.Reaches t v) (find : (files v).find p = .ok i) (reached : sink.Reaches v w)
      (isFile : (files w).isFile i = true) (failed : sink.FailedWith w cause u) :
      ItemFault sink files t u item (.io "Copy source file" (some p) cause)
  | changed {p : Path} {expected actual : Nat} (content : item.content = .file p)
      (ne : actual ≠ expected) : ItemFault sink files t u item (.lengthMismatch p expected actual)

/-- What can go wrong with writing a builder: its number of entries, the header, or one of the
entries. -/
inductive Fault (sink : Sink τ) (files : τ → FileSystem) (b : Builder) (t u : τ) : Error → Prop where
  | count {e : Error} (header : b.header = .error e) (untouched : u = t) : Fault sink files b t u e
  | header {cause : IoError} (failed : sink.FailedWith t cause u) :
      Fault sink files b t u (.io "Write header" none cause)
  | entry {k : Nat} {item : Item} {e : Error} (item_of : b.items[k]? = some item)
      (fault : ItemFault sink files t u item e) : Fault sink files b t u (.entry (k + 1) e)

theorem ItemFault.atEntry {sink : Sink τ} {files : τ → FileSystem} {t u : τ} {item : Item} {e : Error}
    (h : ItemFault sink files t u item e) (index : Nat) : e.atEntry index = .entry index e := by
  cases h <;> rfl

variable {sink : Sink τ} {files : τ → FileSystem} {t : τ} {item : Item} {s s' : Session τ} {e : Error}
  {size : Nat} (hreached : sink.Reaches t s.state)

include hreached

theorem put_eq_error {context : String} {bs : Bytes}
    (h : (put sink context bs).exec s = (.error e, s')) :
    ∃ cause, e = .io context none cause ∧ sink.FailedWith t cause s'.state := by
  obtain ⟨cause, hput, rfl, -⟩ := Task.exec_io_eq_error_iff.1 h
  exact ⟨cause, rfl, (hreached.put hput).2 cause rfl⟩

theorem reaches_put {context : String} {bs : Bytes} (h : (put sink context bs).exec s = (.ok (), s')) :
    sink.Reaches t s'.state :=
  (hreached.put (Task.exec_io_eq_ok_iff.1 h).1).1

theorem writeFile_eq_error {name : String} {p : Path} (hcontent : item.content = .file p)
    (h : (writeFile sink files name p).exec s = (.error e, s')) :
    ItemFault sink files t s'.state item e := by
  rw [writeFile, exec_bind_ok (exec_get s)] at h
  rcases exec_bind_eq_error_iff.1 h with h | ⟨i, s₁, hopen, h⟩
  · obtain ⟨hopen, rfl⟩ := exec_liftM_eq_error_iff.1 h
    unfold openSource at hopen
    split at hopen
    · cases hopen
    · next cause hfind =>
      cases hopen
      split_ifs with hmissing
      · obtain rfl := isNotFound_iff.1 hmissing
        exact .missing hcontent hreached hfind
      · exact .unopenable hcontent hreached hfind fun heq => hmissing (isNotFound_iff.2 heq)
  · obtain ⟨hopen, rfl⟩ := exec_liftM_eq_ok_iff.1 hopen
    have hfind := openSource_eq_ok_iff.1 hopen
    dsimp only at h
    rcases exec_bind_eq_error_iff.1 h with h | ⟨⟨⟩, s₂, hhead, h⟩
    · obtain ⟨cause, rfl, hfailed⟩ := put_eq_error hreached h
      exact .head hfailed
    · rcases exec_bind_eq_error_iff.1 h with h | ⟨actual, s₃, -, h⟩
      · obtain ⟨cause, hcopy, rfl, -⟩ := Task.exec_io_eq_error_iff.1 h
        rw [exec_ofFn, Sink.copy] at hcopy
        rcases hresult : sink.copyAfter (OpenFile.stream ∘ files) pieceSize 0
            ((files s₁.state).size i) (.ofNode i) s₂.state with ⟨r, f, u⟩
        rw [hresult] at hcopy
        obtain ⟨rfl, rfl⟩ := Prod.mk.inj hcopy
        obtain ⟨hreached₃, hcause⟩ := (reaches_put .refl hhead).copyAfter hresult
        rcases hcause cause rfl with ⟨w, hreached_w, hfile, hfailed⟩ | ⟨rfl, hdir⟩
        · exact .copy hcontent hreached hfind hreached_w hfile hfailed
        · exact .read hcontent hreached hfind hreached₃ hdir
      · split_ifs at h with hactual
        · cases h
        · cases h
          exact .changed hcontent hactual

theorem writeBytes_eq_error {name : String} {content : Bytes} (hcontent : item.content = .bytes content)
    (h : (writeBytes sink name content).exec s = (.error e, s')) :
    ItemFault sink files t s'.state item e := by
  rw [writeBytes] at h
  rcases exec_bind_eq_error_iff.1 h with h | ⟨⟨⟩, s₁, hhead, h⟩
  · obtain ⟨cause, rfl, hfailed⟩ := put_eq_error hreached h
    exact .head hfailed
  · have hreached₁ := reaches_put hreached hhead
    rcases exec_bind_eq_error_iff.1 h with h | ⟨⟨⟩, s₂, -, h⟩
    · obtain ⟨cause, rfl, hfailed⟩ := put_eq_error hreached₁ h
      exact .content hcontent hfailed
    · cases h

theorem writeContent_eq_error (h : (writeContent sink files item).exec s = (.error e, s')) :
    ItemFault sink files t s'.state item e := by
  unfold writeContent at h
  split at h
  · next p hcontent => exact writeFile_eq_error hreached hcontent h
  · next content hcontent => exact writeBytes_eq_error hreached hcontent h

omit hreached

theorem keeps_put (context : String) (bs : Bytes) :
    Keeps (fun s : Session τ => sink.Reaches t s.state) (put sink context bs) := by
  refine Task.keeps_io _ fun v hreached => ?_
  exact (hreached.put rfl).1

theorem keeps_writeContent (item : Item) :
    Keeps (fun s : Session τ => sink.Reaches t s.state) (writeContent sink files item) := by
  unfold writeContent
  split
  · refine .bind (fun s hs => hs) fun s => .bind (.liftM _) fun i => ?_
    refine .bind (keeps_put _ _) fun _ => .bind (Task.keeps_io _ fun v hreached => ?_) fun actual => ?_
    · exact (hreached.copyAfter rfl).1
    · split_ifs
      · exact .pure _
      · exact fun s hs => hs
  · exact .bind (keeps_put _ _) fun _ => .bind (keeps_put _ _) fun _ => .pure _

theorem writeItems_eq_error {items : List Item} {index : Nat} (hreached : sink.Reaches t s.state)
    (h : (writeItems sink files index items).exec s = (.error e, s')) :
    ∃ k item cause, items[k]? = some item ∧ e = .entry (index + k) cause
      ∧ ItemFault sink files t s'.state item cause := by
  induction items generalizing index s with
  | nil => cases h
  | cons item items ih =>
    rw [writeItems] at h
    rcases exec_bind_eq_error_iff.1 h with h | ⟨size, s₁, hitem, h⟩
    · obtain ⟨cause, hfailed, rfl⟩ := Task.exec_atEntry_eq_error_iff.1 h
      have hfault := writeContent_eq_error hreached hfailed
      exact ⟨0, item, cause, rfl, hfault.atEntry index, hfault⟩
    · have hreached₁ : sink.Reaches t s₁.state := by
        have hkept : sink.Reaches t ((writeContent sink files item).exec s).2.state :=
          keeps_writeContent item s hreached
        rwa [Task.exec_atEntry_eq_ok_iff.1 hitem] at hkept
      rw [exec_bind_ok (exec_reportPacked index item.name size s₁)] at h
      rcases exec_bind_eq_error_iff.1 h with h | ⟨rest, s₂, -, h⟩
      · obtain ⟨k, item', cause, hitem', rfl, hfault⟩ :=
          ih (s := ⟨s₁.state, s₁.events ++ packedEvents index item.name size⟩) hreached₁ h
        exact ⟨k + 1, item', cause, hitem', by rw [Nat.add_right_comm, Nat.add_assoc], hfault⟩
      · cases h

/-- Writing a builder fails only with one of the faults. -/
theorem write_eq_error {b : Builder} (h : (b.write sink files).start t = (.error e, s)) :
    Fault sink files b t s.state e := by
  rw [Task.start, write] at h
  rcases exec_bind_eq_error_iff.1 h with h | ⟨header, s₁, hheader, h⟩
  · obtain ⟨hheader, rfl⟩ := exec_liftM_eq_error_iff.1 h
    exact .count hheader rfl
  · obtain ⟨-, rfl⟩ := exec_liftM_eq_ok_iff.1 hheader
    have hreached : sink.Reaches t t := .refl
    rcases exec_bind_eq_error_iff.1 h with h | ⟨⟨⟩, s₂, hput, h⟩
    · obtain ⟨cause, rfl, hfailed⟩ := put_eq_error hreached h
      exact .header hfailed
    · have hreached₂ := reaches_put hreached hput
      rcases exec_bind_eq_error_iff.1 h with h | ⟨size, s₃, -, h⟩
      · obtain ⟨k, item, cause, hitem, rfl, hfault⟩ := writeItems_eq_error hreached₂ h
        rw [Nat.add_comm]
        exact .entry hitem hfault
      · cases h

end Faults

/-- A directory that was opened as a file is named once the head of its entry is written. -/
theorem exec_writeFile_directory {τ : Type} {sink : Sink τ} {files : τ → FileSystem} {name : String}
    {p : Path} {i : NodeId} {size : Nat} {s : Session τ} {t : τ}
    (hfind : (files s.state).find p = .ok i) (hsize : (files s.state).size i = size) (hne : size ≠ 0)
    (hput : sink.put (Head.ofName name (UInt64.ofNat size)).toBytes s.state = (.ok (), t))
    (hdir : (files t).isDirectory i = true) :
    (writeFile sink files name p).exec s =
      (.error (.io "Copy source file" (some p) (.os .isDirectory)), ⟨t, s.events⟩) := by
  rw [writeFile, exec_bind_ok (exec_get s)]
  dsimp only
  rw [exec_bind_ok (exec_liftM_eq_ok_iff.2 ⟨openSource_eq_ok_iff.2 hfind, rfl⟩), hsize,
    exec_bind_ok (exec_put _ hput)]
  exact exec_bind_error (exec_copy (s := ⟨t, s.events⟩) _ (sink.copy_directory hdir hne pieceSize))

end Builder

open Builder

variable {fs : FileSystem} {output : Path} {inputs : List Path} {o : NodeId}

/-- What a failed write is blamed on. Writing a builder to any sink fails with one of the faults: an
error names a file if that file cannot be opened or read, or if the sink fails while the file is copied,
and where else the sink fails it names none. So a pack onto the full device names its output, unless the
first thing that the buffer does not take is the content of an input: then it names the input. -/
theorem blame_of_failed_write {τ : Type} (sink : Sink τ) (files : τ → FileSystem) (b : Builder) (t : τ)
    (fs : FileSystem) (output : Path) (inputs : List Path) :
    (∀ e s, (b.write sink files).start t = (.error e, s) → Fault sink files b t s.state e)
      ∧ ∀ o, fs.find output = .ok o → fs.node? o = some (.device .full) →
        (∀ p ∈ inputs, Accepted fs p) → inputs ≠ [] → inputs.length ≤ maxEntries →
        (imageLength fs inputs ≤ FileWriter.capacity
            ∧ ((pack output inputs).start fs).1 =
              .error (.io "Flush image" (some output) (.os .noSpace)))
          ∨ ∃ before p after, inputs = before ++ p :: after
            ∧ imageLength fs before ≤ FileWriter.capacity
            ∧ FileWriter.capacity < imageLength fs (before ++ [p])
            ∧ ((pack output inputs).start fs).1 = .error (.entry (before.length + 1)
              (if FileWriter.capacity < imageLength fs before + Head.length then
                .io "Write entry head" (some output) (.os .noSpace)
              else .io "Copy source file" (some p) (.os .noSpace))) :=
  ⟨fun _ _ h => write_eq_error h, fun _ hfind hfull haccepted hne hcount =>
    pack_onto_full_device hfind hfull haccepted hne hcount⟩

/-- A directory `a` stands where a file was when it was added. -/
def directoryForFile : MemorySink :=
  { narrowSink with
    files := ⟨#[.directory 0 [([0x61], 1)], .directory 0 []], 0, 0, none, 4096⟩ }

/-- The header and the head of the entry are written, and then the directory cannot be read. -/
theorem write_directoryForFile :
    ∃ s, ((⟨[⟨"a", .file ⟨[0x61]⟩⟩]⟩ : Builder).write MemorySink.sink MemorySink.files).start
        directoryForFile =
      (.error (.entry 1 (.io "Copy source file" (some ⟨[0x61]⟩) (.os .isDirectory))), s) := by
  have hfind : directoryForFile.files.find ⟨[0x61]⟩ = .ok 1 := by cbv
  have hstart : MemorySink.Limited directoryForFile.files (.os .noSpace) 300 directoryForFile :=
    ⟨rfl, rfl, by decide, rfl, rfl⟩
  have hfit : (Head.ofName "a" (UInt64.ofNat 4096)).toBytes.length ≤ 299 := by
    rw [Head.length_toBytes]
    decide
  obtain ⟨m₁, hheader, hm₁⟩ :=
    hstart.put_of_le (u := (directoryForFile, [])) (show (⟨1⟩ : Header).toBytes.length ≤ 300 by decide)
  obtain ⟨m₂, hhead, hm₂⟩ := hm₁.put_of_le (u := (m₁, [1])) hfit
  have hfile : (writeContent MemorySink.sink.recorded (MemorySink.files ∘ Prod.fst)
        ⟨"a", .file ⟨[0x61]⟩⟩).exec ⟨(m₁, [1]), []⟩ =
      (.error (.io "Copy source file" (some ⟨[0x61]⟩) (.os .isDirectory)),
        ⟨(m₂, [1] ++ (Head.ofName "a" (UInt64.ofNat 4096)).toBytes), []⟩) := by
    refine exec_writeFile_directory (i := 1) ?_ ?_ (by decide) hhead ?_
    · rw [Function.comp_apply, hm₁.files, hfind]
    · rw [Function.comp_apply, hm₁.files]
      rfl
    · rw [Function.comp_apply, hm₂.files]
      rfl
  have hrun : ((⟨[⟨"a", .file ⟨[0x61]⟩⟩]⟩ : Builder).write MemorySink.sink.recorded
        (MemorySink.files ∘ Prod.fst)).exec ⟨(directoryForFile, []), []⟩ =
      (.error (.entry 1 (.io "Copy source file" (some ⟨[0x61]⟩) (.os .isDirectory))),
        ⟨(m₂, [1] ++ (Head.ofName "a" (UInt64.ofNat 4096)).toBytes), []⟩) := by
    have hcount : (⟨[⟨"a", .file ⟨[0x61]⟩⟩]⟩ : Builder).header = .ok ⟨1⟩ := rfl
    rw [write, exec_bind_ok (exec_liftM_eq_ok_iff.2 ⟨hcount, rfl⟩),
      exec_bind_ok (exec_put (s := ⟨(directoryForFile, []), []⟩) _ hheader)]
    exact exec_bind_error (exec_bind_error (Task.exec_atEntry_error hfile))
  exact ⟨_, exec_of_recorded hrun⟩

/-- A sink that has no room even for the header names no file, a directory that was to be a file is
named, and of a small file that is packed onto the full device the output is named. -/
theorem blame_of_failed_write_noRoom :
    let full : MemorySink := { narrowSink with room := some 0, interrupts := false }
    (∃ s, (fileAndBytes.write MemorySink.sink MemorySink.files).start full =
          (.error (.io "Write header" none (.os .noSpace)), s)
        ∧ MemorySink.sink.FailedWith full (.os .noSpace) s.state)
      ∧ (∃ s, ((⟨[⟨"a", .file ⟨[0x61]⟩⟩]⟩ : Builder).write MemorySink.sink MemorySink.files).start
            directoryForFile =
          (.error (.entry 1 (.io "Copy source file" (some ⟨[0x61]⟩) (.os .isDirectory))), s)
        ∧ ItemFault MemorySink.sink MemorySink.files directoryForFile s.state ⟨"a", .file ⟨[0x61]⟩⟩
            (.io "Copy source file" (some ⟨[0x61]⟩) (.os .isDirectory)))
      ∧ ((pack ⟨[0x66]⟩ [⟨[0x61]⟩]).start (withFullDevice [7])).1 =
        .error (.io "Flush image" (some ⟨[0x66]⟩) (.os .noSpace)) := by
  intro full
  have hput : MemorySink.sink.put [2] full = (.error (.os .noSpace), full) := by
    rw [MemorySink.sink.put_of_ne (List.cons_ne_nil _ _)]
    rfl
  have hexec : (fileAndBytes.write MemorySink.sink MemorySink.files).start full =
      (.error (.io "Write header" none (.os .noSpace)), ⟨full, []⟩) := by
    have hheader : fileAndBytes.header = .ok ⟨2⟩ := rfl
    rw [Task.start, write, exec_bind_ok (exec_liftM_eq_ok_iff.2 ⟨hheader, rfl⟩)]
    exact exec_bind_error (exec_put (s := ⟨full, []⟩) _ hput)
  obtain ⟨s, hdirectory⟩ := write_directoryForFile
  obtain ⟨hwrite, hpack⟩ := blame_of_failed_write MemorySink.sink MemorySink.files fileAndBytes full
    (withFullDevice [7]) ⟨[0x66]⟩ [⟨[0x61]⟩]
  obtain ⟨hwrite', -⟩ := blame_of_failed_write MemorySink.sink MemorySink.files
    ⟨[⟨"a", .file ⟨[0x61]⟩⟩]⟩ directoryForFile (withFullDevice [7]) ⟨[0x66]⟩ [⟨[0x61]⟩]
  refine ⟨⟨_, hexec, ?_⟩, ⟨s, hdirectory, ?_⟩, ?_⟩
  · cases hwrite _ _ hexec with
    | count hheader => cases hheader
    | header hfailed => exact hfailed
  · cases hwrite' _ _ hdirectory with
    | count hheader => cases hheader
    | entry hitem hfault =>
      cases hitem
      exact hfault
  · have hlength := imageLength_withFullDevice [7]
    rcases hpack 2 (find_withFullDevice [7]).2 rfl
        (List.forall_mem_singleton.2 (accepted_withFullDevice [7])) (List.cons_ne_nil _ _)
        (by decide) with
      ⟨-, herror⟩ | ⟨before, p, after, hinputs, -, hlt, -⟩
    · exact herror
    · obtain ⟨rfl, rfl⟩ := split_singleton hinputs
      rw [List.nil_append, hlength] at hlt
      exact absurd hlt (by decide)

/-- A file that can be read is blamed for a device without room, where its content is what does not fit
into the buffer. -/
theorem input_blamed_for_full_device :
    let fs := withFullDevice (List.replicate 8192 7)
    Accepted fs ⟨[0x61]⟩ ∧ fs.find ⟨[0x66]⟩ = .ok 2 ∧ fs.node? 2 = some (.device .full)
      ∧ ((pack ⟨[0x66]⟩ [⟨[0x61]⟩]).start fs).1 =
        .error (.entry 1 (.io "Copy source file" (some ⟨[0x61]⟩) (.os .noSpace))) := by
  intro fs
  have hlength := imageLength_withFullDevice (List.replicate 8192 7)
  rw [List.length_replicate] at hlength
  obtain ⟨hinput, houtput⟩ := find_withFullDevice (List.replicate 8192 7)
  have haccepted := accepted_withFullDevice (List.replicate 8192 7)
  refine ⟨haccepted, houtput, rfl, ?_⟩
  rcases pack_onto_full_device houtput rfl (List.forall_mem_singleton.2 haccepted)
      (List.cons_ne_nil _ _) (by decide) with
    ⟨hfits, -⟩ | ⟨before, p, after, hinputs, -, -, herror⟩
  · rw [hlength] at hfits
    exact absurd hfits (by decide)
  · obtain ⟨rfl, rfl⟩ := split_singleton hinputs
    exact herror

end FlatArchive
