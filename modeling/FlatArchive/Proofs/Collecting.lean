-- SUMMARY: What a builder hands to any sink that collects bytes: its image, or a front of it if a write fails.
import FlatArchive.Builder
import FlatArchive.Proofs.Growth
import FlatArchive.Proofs.Keeping

/-!
# Writing to a sink

A sink collects if its state says which bytes were put into it: `P held t` means that these are
`held`. A write then adds what it accepts, and if it fails it does so with an error that `F` holds
of. Whatever is written to such a sink is collected from front to back, and it is all there unless a
write failed (`Builder.Emits`). To emit is kept by sequencing, so each part of a builder emits its
bytes and its events, and the builder emits the whole image.
-/

namespace FlatArchive

open Attempt FileSystem

/-- A read that ends within a file gives all the bytes that were asked for. -/
theorem OpenFile.read_of_content {fs : FileSystem} {i : NodeId} {content : Bytes}
    (h : fs.content i = content) (hdir : fs.isDirectory i = false) {offset n : Nat}
    (hle : offset + n ≤ content.length) :
    (OpenFile.stream fs).read ⟨i, offset⟩ n =
        (.bytes ((content.drop offset).take n), ⟨i, offset + n⟩)
      ∧ ((content.drop offset).take n).length = n := by
  have hlen : ((content.drop offset).take n).length = n := by
    apply List.length_take_of_le
    rw [List.length_drop]
    omega
  refine ⟨?_, hlen⟩
  simp only [OpenFile.stream_read (f := ⟨i, offset⟩) hdir, OpenFile.read, h]
  rw [hlen]

/-! ## Fronts -/

/-- `front` is the front of `bs`, and something of `bs` is missing. -/
def ProperFront (front bs : Bytes) : Prop := front <+: bs ∧ front.length < bs.length

namespace ProperFront

variable {front bs : Bytes}

theorem nil (h : bs ≠ []) : ProperFront [] bs := ⟨List.nil_prefix, List.length_pos_iff.2 h⟩

theorem append_left (h : ProperFront front bs) (before : Bytes) :
    ProperFront (before ++ front) (before ++ bs) := by
  refine ⟨(List.prefix_append_right_inj before).2 h.1, ?_⟩
  have := h.2
  simp only [List.length_append]
  omega

theorem append_right (h : ProperFront front bs) (after : Bytes) : ProperFront front (bs ++ after) := by
  refine ⟨h.1.trans (List.prefix_append _ _), ?_⟩
  have := h.2
  simp only [List.length_append]
  omega

end ProperFront

/-! ## Sinks -/

namespace Sink

/-- Copying a file begins with a piece of it, as long as is allowed: the file does not end early. -/
theorem copyAfter_file {τ : Type} (sink : Sink τ) {files : τ → FileSystem} {t : τ} {i : NodeId}
    {piece offset size : Nat} (count : Nat) (hsize : offset + size ≤ ((files t).content i).length)
    (hpiece : 0 < piece) (hne : size ≠ 0) :
    ∃ got, got = (((files t).content i).drop offset).take (min piece size)
      ∧ got.length = min piece size
      ∧ sink.copyAfter (OpenFile.stream ∘ files) piece count size ⟨i, offset⟩ t =
        match sink.put got t with
        | (.error e, t') => (.error e, ⟨i, offset + got.length⟩, t')
        | (.ok (), t') => sink.copyAfter (OpenFile.stream ∘ files) piece (count + got.length)
            (size - got.length) ⟨i, offset + got.length⟩ t' := by
  have hle : offset + min piece size ≤ ((files t).content i).length := by omega
  have hlength : ((files t).content i).length ≠ 0 := by omega
  have hfile := isFile_of_length_content hlength
  obtain ⟨hread, hlength⟩ :=
    OpenFile.read_of_content rfl (isDirectory_eq_false_of_isFile hfile) hle
  refine ⟨_, rfl, hlength, ?_⟩
  generalize (((files t).content i).drop offset).take (min piece size) = got at hread hlength
  obtain ⟨byte, bytes, rfl⟩ : ∃ byte bytes, got = byte :: bytes := by
    apply List.exists_cons_of_length_pos
    omega
  have hread' : ((OpenFile.stream ∘ files) t).read ⟨i, offset⟩ (min piece size) =
      (.bytes (byte :: bytes), ⟨i, offset + min piece size⟩) := hread
  rw [sink.copyAfter_of_ne _ _ _ hne, hread', ← hlength]
  rfl

/-- A file that is not longer than a piece is copied by putting its content into the sink. -/
theorem copy_file {τ : Type} (sink : Sink τ) {files : τ → FileSystem} {t : τ} {i : NodeId}
    {content : Bytes} {piece : Nat} (hcontent : (files t).content i = content)
    (hpiece : content.length ≤ piece) :
    sink.copy (OpenFile.stream ∘ files) piece content.length (.ofNode i) t =
      match sink.put content t with
      | (.error e, t') => (.error e, ⟨i, content.length⟩, t')
      | (.ok (), t') => (.ok content.length, ⟨i, content.length⟩, t') := by
  rw [Sink.copy, OpenFile.ofNode]
  by_cases hempty : content = []
  · rw [hempty, List.length_nil, copyAfter_zero, put_nil]
  · have hpos := List.length_pos_iff.2 hempty
    have hall : 0 + content.length ≤ ((files t).content i).length := by rw [hcontent, Nat.zero_add]
    obtain ⟨got, hgot, -, hcopy⟩ := sink.copyAfter_file 0 hall (hpos.trans_le hpiece) hpos.ne'
    obtain rfl : got = content := by
      rw [hgot, hcontent, List.drop_zero, Nat.min_eq_right hpiece, List.take_length]
    rw [hcopy, Nat.zero_add, Nat.sub_self]
    simp only [copyAfter_zero]

/-- Of a directory nothing is copied: its first read fails. -/
theorem copy_directory {τ : Type} (sink : Sink τ) {files : τ → FileSystem} {t : τ} {i : NodeId}
    {size : Nat} (hdir : (files t).isDirectory i = true) (hne : size ≠ 0) (piece : Nat) :
    sink.copy (OpenFile.stream ∘ files) piece size (.ofNode i) t =
      (.error (.os .isDirectory), .ofNode i, t) := by
  have hread : ((OpenFile.stream ∘ files) t).read (.ofNode i) (min piece size) =
      (.failed (.os .isDirectory), .ofNode i) := OpenFile.stream_read_of_isDirectory hdir _
  rw [Sink.copy, sink.copyAfter_of_ne _ _ _ hne, hread]

/-- The sink collects what it accepts, and fails only with errors that `F` holds of. -/
structure Collects {τ : Type} (sink : Sink τ) (P : Bytes → τ → Prop) (F : IoError → Prop) : Prop where
  accepted : ∀ {held t bs n t'}, P held t → sink.write t bs = (.accepted n, t') →
    P (held ++ bs.take n) t'
  nothing : ∀ {held t bs t'}, P held t → bs ≠ [] → sink.write t bs = (.accepted 0, t') →
    F .writeZero
  interrupted : ∀ {held t bs t'}, P held t → sink.write t bs = (.interrupted, t') → P held t'
  failed : ∀ {held t bs e t'}, P held t → sink.write t bs = (.failed e, t') → P held t' ∧ F e

namespace Collects

variable {τ : Type} {sink : Sink τ} {P : Bytes → τ → Prop} {F : IoError → Prop}

/-- Everything is collected, or the front of it that was accepted before a write failed. -/
theorem put (h : sink.Collects P F) {held : Bytes} {t : τ} (hP : P held t) (bs : Bytes) :
    (∃ t', sink.put bs t = (.ok (), t') ∧ P (held ++ bs) t') ∨
      ∃ e t' front, sink.put bs t = (.error e, t') ∧ F e ∧ ProperFront front bs
        ∧ P (held ++ front) t' := by
  fun_induction sink.put bs t generalizing held with
  | case1 t =>
    rw [List.append_nil]
    exact .inl ⟨t, rfl, hP⟩
  | case2 bs t hne t' hwrite =>
    have hheld := h.accepted hP hwrite
    rw [List.take_zero] at hheld
    exact .inr ⟨_, t', [], rfl, h.nothing hP hne hwrite, .nil hne, hheld⟩
  | case3 bs t hne n t' hwrite ih =>
    have hsplit := List.take_append_drop (n + 1) bs
    rcases ih (h.accepted hP hwrite) with ⟨t'', hput, hheld⟩ | ⟨e, t'', front, hput, he, hfront, hheld⟩
    · rw [List.append_assoc, hsplit] at hheld
      exact .inl ⟨t'', hput, hheld⟩
    · rw [List.append_assoc] at hheld
      refine .inr ⟨e, t'', bs.take (n + 1) ++ front, hput, he, ?_, hheld⟩
      nth_rewrite 2 [← hsplit]
      exact hfront.append_left _
  | case4 bs t hne t' hwrite ih => exact ih (h.interrupted hP hwrite)
  | case5 bs t hne e t' hwrite =>
    obtain ⟨hheld, he⟩ := h.failed hP hwrite
    rw [← List.append_nil held] at hheld
    exact .inr ⟨e, t', [], rfl, he, .nil hne, hheld⟩

/-- Copying a file of which the sink changes nothing collects what it holds from an offset on. -/
theorem copyAfter (h : sink.Collects P F) {files : τ → FileSystem} {i : NodeId} {content : Bytes}
    (hcontent : ∀ {held t}, P held t → (files t).content i = content) {piece : Nat}
    (hpiece : 0 < piece) {held : Bytes} {t : τ} (hP : P held t) (offset count size : Nat)
    (hsize : offset + size = content.length) :
    (∃ f t', sink.copyAfter (OpenFile.stream ∘ files) piece count size ⟨i, offset⟩ t =
          (.ok (count + size), f, t')
        ∧ P (held ++ content.drop offset) t') ∨
      ∃ e f t' front, sink.copyAfter (OpenFile.stream ∘ files) piece count size ⟨i, offset⟩ t =
          (.error e, f, t')
        ∧ F e ∧ ProperFront front (content.drop offset) ∧ P (held ++ front) t' := by
  induction size using Nat.strongRecOn generalizing held t offset count with
  | ind size ih =>
    by_cases hzero : size = 0
    · rw [hzero, copyAfter_zero, List.drop_of_length_le (by omega), List.append_nil]
      exact .inl ⟨_, t, rfl, hP⟩
    have hle : offset + size ≤ ((files t).content i).length := by rw [hcontent hP, hsize]
    obtain ⟨got, hgot, hlen, hcopy⟩ := sink.copyAfter_file count hle hpiece hzero
    rw [hcontent hP] at hgot
    have hsplit := List.take_append_drop (min piece size) (content.drop offset)
    rw [List.drop_drop, ← hgot, ← hlen] at hsplit
    rw [hcopy, ← hsplit]
    rcases h.put hP got with ⟨t₁, hput, hP₁⟩ | ⟨e, t₁, front, hput, he, hfront, hP₁⟩
    · rw [hput]
      have hcount : count + got.length + (size - got.length) = count + size := by omega
      rcases ih (size - got.length) (by omega) hP₁ (offset + got.length) (count + got.length)
          (by omega) with
        ⟨f, t', hcopy, hP'⟩ | ⟨e, f, t', front, hcopy, he, hfront, hP'⟩
      · rw [List.append_assoc] at hP'
        rw [hcount] at hcopy
        exact .inl ⟨f, t', hcopy, hP'⟩
      · rw [List.append_assoc] at hP'
        exact .inr ⟨e, f, t', _, hcopy, he, hfront.append_left _, hP'⟩
    · rw [hput]
      exact .inr ⟨e, _, t₁, front, rfl, he, hfront.append_right _, hP₁⟩

end Collects

end Sink

/-! ## Builders -/

namespace Builder

/-- The error of a write that failed with an error that `F` holds of. -/
inductive Failure (F : IoError → Prop) : Error → Prop
  | io {cause : IoError} (context : String) (path : Option Path) (cause_of : F cause) :
      Failure F (.io context path cause)

/-- An error that tells of a failed write, perhaps as the error of an entry. -/
inductive WriteFailure (F : IoError → Prop) : Error → Prop
  | bare {e : Error} (failure : Failure F e) : WriteFailure F e
  | entry {e : Error} (index : Nat) (failure : Failure F e) : WriteFailure F (.entry index e)

/-- It belongs to no entry yet. -/
theorem Failure.atEntry {F : IoError → Prop} {e : Error} (h : Failure F e) (index : Nat) :
    e.atEntry index = .entry index e := by
  cases h
  rfl

/-- There is such an error only where a write can fail. -/
theorem WriteFailure.exists_cause {F : IoError → Prop} {e : Error} (h : WriteFailure F e) :
    ∃ cause, F cause := by
  cases h with
  | bare failure | entry _ failure =>
    cases failure with
    | io _ _ cause_of => exact ⟨_, cause_of⟩

/-- Each item comes with the entry that it is written as when the files are those of `base`. The file
of an item is not node `o`, which is written. -/
inductive Yields (base : FileSystem) (o : NodeId) : Item → Entry → Prop where
  | file {p : Path} {i : NodeId} (name : String) (find : base.find p = .ok i)
      (isFile : base.isFile i = true) (ne : i ≠ o) :
      Yields base o ⟨name, .file p⟩ ⟨name, base.content i⟩
  | bytes (name : String) (content : Bytes) (size : content.length < 2 ^ 64) :
      Yields base o ⟨name, .bytes content⟩ ⟨name, content⟩

/-- What is reported of entries that were written, the first of which is entry `index`. -/
def reports (index : Nat) : List Entry → List Event
  | [] => []
  | e :: es =>
    (if Name.fit e.name ≠ e.name then [Event.nameTruncated index e.name (Name.fit e.name)] else [])
      ++ .packed index e.name e.size :: reports (index + 1) es

/-- What is reported of one entry that was written. -/
def packedEvents (index : Nat) (name : String) (size : Nat) : List Event :=
  (if Name.fit name ≠ name then [.nameTruncated index name (Name.fit name)] else [])
    ++ [.packed index name size]

theorem reports_cons (index : Nat) (e : Entry) (es : List Entry) :
    reports index (e :: es) = packedEvents index e.name e.size ++ reports (index + 1) es := by
  rw [reports, packedEvents, ← List.append_cons]

theorem exec_reportPacked {τ : Type} (index : Nat) (name : String) (size : Nat) (s : Session τ) :
    (reportPacked index name size).exec s =
      (.ok (), ⟨s.state, s.events ++ packedEvents index name size⟩) := by
  unfold reportPacked
  dsimp only
  rw [Task.exec_report_if, Task.exec_report, packedEvents, List.append_assoc]

theorem openSource_eq_ok_iff {fs : FileSystem} {p : Path} {i : NodeId} :
    openSource fs p = .ok i ↔ fs.find p = .ok i := by
  unfold openSource
  cases fs.find p <;> simp

/-- Putting bytes into the sink as a task. -/
theorem exec_put {τ : Type} {sink : Sink τ} {bs : Bytes} {s : Session τ} {r : Except IoError Unit}
    {t : τ} (context : String) (h : sink.put bs s.state = (r, t)) :
    (put sink context bs).exec s = (r.mapError (.io context none), ⟨t, s.events⟩) := by
  rw [put, Task.exec_io, exec_ofFn, h]

/-- Copying a stream as a task. -/
theorem exec_copy {σ τ : Type} {sink : Sink τ} {st : τ → Stream σ} {piece size : Nat} {f f' : σ}
    {s : Session τ} {r : Except IoError Nat} {t : τ} (wrap : IoError → Error)
    (h : sink.copy st piece size f s.state = (r, f', t)) :
    (Task.io wrap <| ofFn fun t =>
      let (r, _, t) := sink.copy st piece size f t
      (r, t)).exec s = (r.mapError wrap, ⟨t, s.events⟩) := by
  rw [Task.exec_io, exec_ofFn, h]

theorem mem_sources {b : Builder} {p : Path} :
    p ∈ b.sources ↔ ∃ item ∈ b.items, item.content = .file p := by
  rw [sources, List.mem_filterMap]
  refine exists_congr fun item => and_congr_right fun _ => ?_
  cases item.content with
  | file q => simp
  | bytes bs => simp

section Emits

variable {τ α β : Type} {P : Bytes → τ → Prop} {E E' : Error → Prop} {F : IoError → Prop}
  {ps : List Path}

/-- The task gives `a` and puts `bs` into the sink, or it fails with an error that `E` holds of after
a front of `bs` was put into it. It reports `events`, of which a failure may cut off some. -/
def Emits (P : Bytes → τ → Prop) (E : Error → Prop) (x : Task τ α) (a : α) (bs : Bytes)
    (events : List Event) : Prop :=
  ∀ held s, P held s.state →
    (∃ t, x.exec s = (.ok a, ⟨t, s.events ++ events⟩) ∧ P (held ++ bs) t) ∨
      ∃ e t front told, x.exec s = (.error e, ⟨t, s.events ++ told⟩) ∧ E e ∧ ProperFront front bs
        ∧ told <+: events ∧ P (held ++ front) t

namespace Emits

variable {a : α} {bs new all : Bytes} {events more allEvents : List Event}

theorem pure (a : α) : Emits P E (Pure.pure a) a [] [] := by
  intro held s hP
  refine .inl ⟨s.state, ?_, ?_⟩
  · rw [exec_pure, List.append_nil]
  · rwa [List.append_nil]

theorem liftM {x : Except Error α} (h : x = .ok a) : Emits P E (liftM x) a [] [] := by
  subst h
  exact pure a

theorem report (e : Event) : Emits P E (Task.report e) () [] [e] := by
  intro held s hP
  refine .inl ⟨s.state, rfl, ?_⟩
  rwa [List.append_nil]

theorem bind {x : Task τ α} {f : α → Task τ β} {b : β} (hx : Emits P E x a bs events)
    (hf : Emits P E (f a) b new more) (hall : bs ++ new = all)
    (hevents : events ++ more = allEvents) : Emits P E (x >>= f) b all allEvents := by
  intro held s hP
  subst hall hevents
  rcases hx held s hP with ⟨t, hexec, hP'⟩ | ⟨e, t, front, told, hexec, he, hfront, htold, hP'⟩
  · rw [exec_bind_ok hexec]
    rcases hf (held ++ bs) ⟨t, s.events ++ events⟩ hP' with
      ⟨t', hexec', hP''⟩ | ⟨e, t', front, told, hexec', he, hfront, htold, hP''⟩
    · rw [List.append_assoc] at hexec' hP''
      exact .inl ⟨t', hexec', hP''⟩
    · rw [List.append_assoc] at hexec' hP''
      exact .inr ⟨e, t', bs ++ front, events ++ told, hexec', he, hfront.append_left bs,
        (List.prefix_append_right_inj events).2 htold, hP''⟩
  · rw [exec_bind_error hexec]
    exact .inr ⟨e, t, front, told, rfl, he, hfront.append_right new,
      htold.trans (List.prefix_append _ _), hP'⟩

theorem mono {x : Task τ α} (h : Emits P E x a bs events) (hE : ∀ {e}, E e → E' e) :
    Emits P E' x a bs events := by
  intro held s hP
  rcases h held s hP with hok | ⟨e, t, front, told, hexec, he, hrest⟩
  · exact .inl hok
  · exact .inr ⟨e, t, front, told, hexec, hE he, hrest⟩

theorem atEntry {x : Task τ α} (h : Emits P (Failure F) x a bs events) (index : Nat) :
    Emits P (WriteFailure F) (Task.atEntry index x) a bs events := by
  intro held s hP
  rcases h held s hP with ⟨t, hexec, hP'⟩ | ⟨e, t, front, told, hexec, he, hrest⟩
  · exact .inl ⟨t, Task.exec_atEntry_ok hexec, hP'⟩
  · refine .inr ⟨.entry index e, t, front, told, ?_, .entry index he, hrest⟩
    rw [Task.exec_atEntry_error hexec, he.atEntry index]

theorem put {sink : Sink τ} (h : sink.Collects P F) (context : String) (bs : Bytes) :
    Emits P (Failure F) (put sink context bs) () bs [] := by
  intro held s hP
  rcases h.put hP bs with ⟨t, hput, hP'⟩ | ⟨e, t, front, hput, he, hfront, hP'⟩
  · refine .inl ⟨t, ?_, hP'⟩
    rw [exec_put context hput, List.append_nil]
    rfl
  · refine .inr ⟨.io context none e, t, front, [], ?_, .io _ _ he, hfront, List.nil_prefix, hP'⟩
    rw [exec_put context hput, List.append_nil]
    rfl

/-- Copying a file of which the sink changes nothing emits its content. -/
theorem copy {sink : Sink τ} (h : sink.Collects P F) {files : τ → FileSystem} {i : NodeId}
    {content : Bytes} (hcontent : ∀ {held t}, P held t → (files t).content i = content)
    (context : String) (p : Path) :
    Emits P (Failure F) (Task.io (.io context (some p)) (ofFn fun t =>
        let (r, _, t) := sink.copy (OpenFile.stream ∘ files) pieceSize content.length (.ofNode i) t
        (r, t))) content.length content [] := by
  intro held s hP
  have hpiece : 0 < pieceSize := by decide
  rcases h.copyAfter hcontent hpiece hP 0 0 content.length (Nat.zero_add _) with
    ⟨f, t, hcopy, hP'⟩ | ⟨e, f, t, front, hcopy, he, hfront, hP'⟩
  · refine .inl ⟨t, ?_, hP'⟩
    rw [OpenFile.ofNode, exec_copy _ hcopy, Nat.zero_add, List.append_nil]
    rfl
  · refine .inr ⟨.io context (some p) e, t, front, [], ?_, .io _ _ he, hfront, List.nil_prefix, hP'⟩
    rw [OpenFile.ofNode, exec_copy _ hcopy, List.append_nil]
    rfl

end Emits

/-! ## Parts of an image -/

variable {sink : Sink τ} (hsink : sink.Collects P F) {files : τ → FileSystem} {base : FileSystem}
  {o : NodeId}
  (hfiles : ∀ {held t p i}, P held t → p ∈ ps → base.find p = .ok i → i ≠ o →
    (files t).find p = .ok i ∧ (files t).node? i = base.node? i)

include hsink hfiles in
theorem emits_writeFile {p : Path} {i : NodeId} (name : String) (hfind : base.find p = .ok i)
    (hfile : base.isFile i = true) (hne : i ≠ o) (hp : p ∈ ps) :
    Emits P (Failure F) (writeFile sink files name p) (base.content i).length
      (Entry.encode ⟨name, base.content i⟩) [] := by
  intro held s hP
  obtain ⟨hfind', hnode⟩ := hfiles hP hp hfind hne
  have hdir : (files s.state).isDirectory i = false := by
    rw [isDirectory_of_node?_eq hnode, isDirectory_eq_false_of_isFile hfile]
  have hopen : (liftM (openSource (files s.state) p) : Task τ NodeId).exec s = (.ok i, s) := by
    rw [exec_liftM, openSource, hfind']
  rw [writeFile, exec_bind_ok (exec_get s), exec_bind_ok hopen]
  dsimp only
  rw [size_eq_length hdir, content_of_node?_eq hnode]
  have hcopy := Emits.copy hsink (fun hP => content_of_node?_eq (hfiles hP hp hfind hne).2)
    "Copy source file" p
  refine (Emits.put hsink _ _).bind (hcopy.bind ?_ (List.append_nil _) rfl) rfl rfl held s hP
  rw [if_pos rfl]
  exact .pure _

include hsink hfiles in
theorem emits_writeContent {item : Item} {e : Entry} (h : Yields base o item e)
    (hps : ∀ p, item.content = .file p → p ∈ ps) :
    Emits P (Failure F) (writeContent sink files item) e.size e.encode [] := by
  cases h with
  | file name hfind hfile hne => exact emits_writeFile hsink hfiles name hfind hfile hne (hps _ rfl)
  | bytes name content hsize =>
    have hvalue : (Head.ofName name (UInt64.ofNat content.length)).size.toNat = content.length := by
      rw [Head.ofName, UInt64.toNat_ofNat']
      exact Nat.mod_eq_of_lt hsize
    show Emits P (Failure F) (writeBytes sink name content) content.length _ []
    rw [writeBytes, hvalue]
    refine (Emits.put hsink _ _).bind ?_ rfl rfl
    exact (Emits.put hsink _ _).bind (.pure _) (List.append_nil _) rfl

theorem emits_reportPacked (index : Nat) (name : String) (size : Nat) :
    Emits P E (reportPacked index name size) () [] (packedEvents index name size) := by
  intro held s hP
  refine .inl ⟨s.state, exec_reportPacked index name size s, ?_⟩
  rwa [List.append_nil]

include hsink hfiles in
theorem emits_writeItems {items : List Item} {entries : List Entry}
    (h : List.Forall₂ (Yields base o) items entries) (hps : ∀ item ∈ items, ∀ p, item.content = .file p → p ∈ ps) (index : Nat) :
    Emits P (WriteFailure F) (writeItems sink files index items)
      (entries.flatMap Entry.encode).length (entries.flatMap Entry.encode)
      (reports index entries) := by
  induction h generalizing index with
  | nil => exact .pure 0
  | @cons item e items entries hitem _ ih =>
    obtain ⟨hfirst, hrest⟩ := List.forall_mem_cons.1 hps
    have hsize : Head.length + e.size + (entries.flatMap Entry.encode).length =
        ((e :: entries).flatMap Entry.encode).length := by
      rw [List.flatMap_cons, List.length_append, Entry.length_encode, Entry.size]
    have hcontent := (emits_writeContent hsink hfiles hitem hfirst).atEntry index
    rw [writeItems]
    refine hcontent.bind ?_ List.flatMap_cons.symm (List.nil_append _)
    have hname : item.name = e.name := by cases hitem <;> rfl
    rw [hname, ← hsize, reports_cons]
    refine (emits_reportPacked index e.name e.size).bind ?_ rfl rfl
    exact (ih hrest (index + 1)).bind (.pure _) (List.append_nil _) (List.append_nil _)

include hsink hfiles in
/-- A builder emits its header and its entries, and reports each entry. -/
theorem emits_write {b : Builder} {header : Header} {entries : List Entry}
    (hps : ∀ p ∈ b.sources, p ∈ ps) (hheader : b.header = .ok header)
    (h : List.Forall₂ (Yields base o) b.items entries) :
    Emits P (WriteFailure F) (b.write sink files)
      (header.toBytes ++ entries.flatMap Entry.encode).length
      (header.toBytes ++ entries.flatMap Entry.encode) (reports 1 entries) := by
  rw [List.length_append]
  refine (Emits.liftM hheader).bind ?_ rfl (List.nil_append _)
  refine ((Emits.put hsink _ header.toBytes).mono .bare).bind ?_ rfl (List.nil_append _)
  have hitems := emits_writeItems hsink hfiles h
    (fun item hitem p hp => hps p (mem_sources.2 ⟨item, hitem, hp⟩)) 1
  exact hitems.bind (.pure _) (List.append_nil _) (List.append_nil _)

end Emits

end Builder

end FlatArchive
