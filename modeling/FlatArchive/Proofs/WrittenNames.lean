-- SUMMARY: The names of an image that was written, against what was reported of them.
import FlatArchive.Proofs.Acceptance
import FlatArchive.Proofs.Decoding
import FlatArchive.Proofs.Packing

/-!
# Written names

A builder that was written to a sink, whatever the sink did and however the files changed, has written
an entry for each of its items, under the name of the item. The image can be read back, and each name
is what was announced: the one that the item has, or the shortened one if it was reported that it was
shortened. But a name ends at its first zero character, and nothing is reported of that.
-/

namespace FlatArchive

open Attempt Text

/-! ## Names that end at a zero -/

namespace Name

/-- The name up to its first zero character, which ends it in its field. -/
def terminated (name : String) : String := String.ofList (name.toList.takeWhile (· != '\x00'))

theorem kept_eq_terminated (name : String) : kept name = terminated (fit name) := rfl

theorem terminated_eq_self_iff {name : String} :
    terminated name = name ↔ '\x00' ∉ name.toList := by
  rw [terminated, ← String.toList_inj, String.toList_ofList, List.takeWhile_eq_self_iff]
  constructor
  · intro h hmem
    cases h _ hmem
  · intro h c hc
    rw [bne_iff_ne]
    rintro rfl
    exact h hc

end Name

/-! ## What a sink has accepted -/

section Success

variable {σ τ : Type} {sink : Sink τ} {P : Bytes → τ → Prop} {F : IoError → Prop}
  (hsink : sink.Collects P F) {held : Bytes}

include hsink

theorem Sink.Collects.put_eq_ok {bs : Bytes} {t t' : τ} (hP : P held t)
    (h : sink.put bs t = (.ok (), t')) : P (held ++ bs) t' := by
  rcases hsink.put hP bs with ⟨t₁, hok, hP'⟩ | ⟨e, t₁, front, herror, -⟩
  · cases hok.symm.trans h
    exact hP'
  · cases herror.symm.trans h

/-- The bytes that were copied are as many as is said, whatever the stream gave. -/
theorem Sink.Collects.copyAfter_eq_ok {st : τ → Stream σ} {piece count size n : Nat} {f f' : σ}
    {t t' : τ} (hP : P held t) (h : sink.copyAfter st piece count size f t = (.ok n, f', t')) :
    ∃ bs, n = count + bs.length ∧ P (held ++ bs) t' := by
  have hnone : P (held ++ []) t := by rwa [List.append_nil]
  fun_induction sink.copyAfter st piece count size f t generalizing held with
  | case1 =>
    cases h
    exact ⟨[], rfl, hnone⟩
  | case2 =>
    cases h
    exact ⟨[], rfl, hnone⟩
  | case3 => cases h
  | case4 count size f t hsize b bs f₁ hread t₁ hput ih =>
    have hP₁ := hsink.put_eq_ok hP hput
    obtain ⟨more, hn, hP'⟩ := ih hP₁ h (by rwa [List.append_nil])
    refine ⟨b :: bs ++ more, ?_, by rwa [← List.append_assoc]⟩
    rw [hn, List.length_append, List.length_cons, Nat.add_assoc]
  | case5 count size f t hsize f₁ hread ih => exact ih hP h hnone
  | case6 => cases h

namespace Builder

variable {files : τ → FileSystem} {s s' : Session τ}

theorem put_eq_ok {context : String} {bs : Bytes} (hP : P held s.state)
    (h : (put sink context bs).exec s = (.ok (), s')) :
    P (held ++ bs) s'.state ∧ s'.events = s.events := by
  obtain ⟨hput, hevents⟩ := Task.exec_io_eq_ok_iff.1 h
  exact ⟨hsink.put_eq_ok hP hput, hevents⟩

/-- A file that was written is an entry that holds what the file gave, which was as much as the size
that the file had when it was opened. -/
theorem writeFile_eq_ok {name : String} {p : Path} {size : Nat} (hP : P held s.state)
    (h : (writeFile sink files name p).exec s = (.ok size, s')) :
    ∃ i content, (files s.state).find p = .ok i ∧ (files s.state).size i = size
      ∧ content.length = size ∧ P (held ++ Entry.encode ⟨name, content⟩) s'.state
      ∧ s'.events = s.events := by
  rw [writeFile, exec_bind_ok (exec_get s)] at h
  obtain ⟨i, s₁, hopen, h⟩ := exec_bind_eq_ok_iff.1 h
  obtain ⟨hopen, rfl⟩ := exec_liftM_eq_ok_iff.1 hopen
  dsimp only at h
  obtain ⟨⟨⟩, s₂, hhead, h⟩ := exec_bind_eq_ok_iff.1 h
  obtain ⟨actual, s₃, hcopy, h⟩ := exec_bind_eq_ok_iff.1 h
  split_ifs at h with hactual
  · cases h
    obtain ⟨hP₂, hevents₂⟩ := put_eq_ok hsink hP hhead
    obtain ⟨hcopy, hevents₃⟩ := Task.exec_io_eq_ok_iff.1 hcopy
    rw [exec_ofFn, Sink.copy] at hcopy
    rcases hresult : sink.copyAfter (OpenFile.stream ∘ files) pieceSize 0
        ((files s₁.state).size i) (.ofNode i) s₂.state with ⟨r, f, t⟩
    rw [hresult] at hcopy
    obtain ⟨rfl, rfl⟩ := Prod.mk.inj hcopy
    obtain ⟨content, hlength, hP₃⟩ := hsink.copyAfter_eq_ok hP₂ hresult
    rw [Nat.zero_add] at hlength
    rw [← hactual, hlength, List.append_assoc] at hP₃
    exact ⟨i, content, openSource_eq_ok_iff.1 hopen, hactual.symm, hlength.symm, hP₃,
      hevents₃.trans hevents₂⟩
  · cases h

/-- An item that was written is an entry of its name. -/
theorem writeContent_eq_ok {item : Item} {size : Nat} (hP : P held s.state)
    (h : (writeContent sink files item).exec s = (.ok size, s')) :
    ∃ e : Entry, e.name = item.name ∧ P (held ++ e.encode) s'.state ∧ s'.events = s.events := by
  obtain ⟨name, content⟩ := item
  cases content with
  | bytes content =>
    change (writeBytes sink name content).exec s = _ at h
    rw [writeBytes] at h
    obtain ⟨⟨⟩, s₁, hhead, h⟩ := exec_bind_eq_ok_iff.1 h
    obtain ⟨⟨⟩, s₂, hcontent, h⟩ := exec_bind_eq_ok_iff.1 h
    cases h
    obtain ⟨hP₁, hevents₁⟩ := put_eq_ok hsink hP hhead
    obtain ⟨hP₂, hevents₂⟩ := put_eq_ok hsink hP₁ hcontent
    rw [List.append_assoc] at hP₂
    exact ⟨⟨name, content⟩, rfl, hP₂, hevents₂.trans hevents₁⟩
  | file p =>
    obtain ⟨i, content, -, -, -, hP', hevents⟩ := writeFile_eq_ok hsink hP h
    exact ⟨⟨name, content⟩, rfl, hP', hevents⟩

omit hsink in
theorem nameTruncated_mem_packedEvents {index k size : Nat} {name name' stored : String} :
    .nameTruncated k name' stored ∈ packedEvents index name size ↔
      k = index ∧ name = name' ∧ Name.fit name' = stored ∧ stored ≠ name' := by
  unfold packedEvents
  split_ifs with hfit
  · simp only [List.mem_append, List.mem_singleton, Event.nameTruncated.injEq, reduceCtorEq, or_false]
    constructor
    · rintro ⟨rfl, rfl, rfl⟩
      exact ⟨rfl, rfl, rfl, hfit⟩
    · rintro ⟨rfl, rfl, rfl, -⟩
      exact ⟨rfl, rfl, rfl⟩
  · simp only [List.nil_append, List.mem_singleton, reduceCtorEq, false_iff]
    rintro ⟨-, rfl, rfl, hne⟩
    exact hfit hne

/-- Items that were written are entries of their names. A shortening is reported for each of the
entries whose name does not fit, and for no other. -/
theorem writeItems_eq_ok {items : List Item} {index size : Nat} (hP : P held s.state)
    (h : (writeItems sink files index items).exec s = (.ok size, s')) :
    ∃ (entries : List Entry) (told : List Event),
      entries.map Entry.name = items.map Item.name
        ∧ P (held ++ entries.flatMap Entry.encode) s'.state ∧ s'.events = s.events ++ told
        ∧ ∀ k name stored, .nameTruncated k name stored ∈ told ↔
          ∃ item, (item, k) ∈ items.zipIdx index ∧ item.name = name ∧ Name.fit name = stored
            ∧ stored ≠ name := by
  induction items generalizing index size held s with
  | nil =>
    cases h
    refine ⟨[], [], rfl, ?_, (List.append_nil _).symm, ?_⟩
    · rwa [List.flatMap_nil, List.append_nil]
    · intro k name stored
      simp
  | cons item items ih =>
    rw [writeItems] at h
    obtain ⟨n, s₁, hitem, h⟩ := exec_bind_eq_ok_iff.1 h
    rw [exec_bind_ok (exec_reportPacked index item.name n s₁)] at h
    obtain ⟨rest, s₂, hrest, h⟩ := exec_bind_eq_ok_iff.1 h
    cases h
    obtain ⟨e, hname, hP₁, hevents₁⟩ :=
      writeContent_eq_ok hsink hP (Task.exec_atEntry_eq_ok_iff.1 hitem)
    obtain ⟨entries, told, hnames, hP₂, hevents₂, htold⟩ :=
      ih (s := ⟨s₁.state, s₁.events ++ packedEvents index item.name n⟩) hP₁ hrest
    refine ⟨e :: entries, packedEvents index item.name n ++ told, ?_, ?_, ?_, ?_⟩
    · rw [List.map_cons, List.map_cons, hname, hnames]
    · rwa [List.flatMap_cons, ← List.append_assoc]
    · rw [hevents₂, hevents₁, List.append_assoc]
    · intro k name stored
      rw [List.mem_append, htold, nameTruncated_mem_packedEvents, List.zipIdx_cons]
      simp only [List.mem_cons, Prod.mk.injEq, or_and_right, exists_or, and_assoc, exists_eq_left]

/-- A builder that was written has a header and entries of the names of its items. -/
theorem write_eq_ok {b : Builder} {size : Nat} (hP : P held s.state)
    (h : (b.write sink files).exec s = (.ok size, s')) :
    ∃ (header : Header) (entries : List Entry) (told : List Event),
      b.header = .ok header ∧ entries.map Entry.name = b.items.map Item.name
        ∧ P (held ++ (header.toBytes ++ entries.flatMap Entry.encode)) s'.state
        ∧ s'.events = s.events ++ told
        ∧ ∀ i name stored, .nameTruncated (i + 1) name stored ∈ told ↔
          ∃ item, b.items[i]? = some item ∧ item.name = name ∧ Name.fit name = stored
            ∧ stored ≠ name := by
  rw [write] at h
  obtain ⟨header, s₁, hlift, hrest⟩ := exec_bind_eq_ok_iff.1 h
  obtain ⟨hheader, rfl⟩ := exec_liftM_eq_ok_iff.1 hlift
  obtain ⟨⟨⟩, s₂, hput, hrest⟩ := exec_bind_eq_ok_iff.1 hrest
  obtain ⟨n, s₃, hitems, hrest⟩ := exec_bind_eq_ok_iff.1 hrest
  cases hrest
  obtain ⟨hP₁, hevents₁⟩ := put_eq_ok hsink hP hput
  obtain ⟨entries, told, hnames, hP₂, hevents₂, htold⟩ := writeItems_eq_ok hsink hP₁ hitems
  refine ⟨header, entries, told, hheader, hnames, by rwa [← List.append_assoc],
    hevents₂.trans (by rw [hevents₁]), ?_⟩
  intro i name stored
  simp only [htold, Nat.add_comm i 1, List.mk_add_mem_zipIdx_iff_getElem?]

end Builder

end Success

namespace Builder

variable {τ : Type} {sink : Sink τ} {files : τ → FileSystem} {b : Builder} {t : τ} {size : Nat}
  {s : Session τ}

/-- The run that records gives what the run on the sink itself gave. -/
theorem exec_recorded (h : (b.write sink files).start t = (.ok size, s)) :
    ∃ image, (b.write sink.recorded (files ∘ Prod.fst)).start (t, []) =
      (.ok size, ⟨(s.state, image), s.events⟩) := by
  rcases hrun : (b.write sink.recorded (files ∘ Prod.fst)).start (t, []) with ⟨r, ⟨⟨u, image⟩, told⟩⟩
  cases h.symm.trans (exec_of_recorded hrun)
  exact ⟨image, rfl⟩

/-- A builder that was written to any sink, whose image is no longer than a number of 64 bits can
tell, can be read back: there is an entry for each item. Its name is that of the item if no shortening
was reported of it, and else the one to which it was reported to be shortened, each up to its first
zero character, so all of it if and only if it has none. A report tells of the item's own name. -/
theorem names_of_written (h : (b.write sink files).start t = (.ok size, s)) :
    ∃ image, (b.write sink.recorded (files ∘ Prod.fst)).start (t, []) =
          (.ok size, ⟨(s.state, image), s.events⟩)
      ∧ (image.length < 2 ^ 64 → ∃ header body entries,
        Bytes.source.readHeader.exec image = (.ok header, body) ∧ header.count = b.count
          ∧ Bytes.source.readEntries header.count body = ((entries, none), [])
          ∧ entries.length = b.count
          ∧ ∀ i item, b.items[i]? = some item → ∃ e, entries[i]? = some e
            ∧ ((∀ name stored, .nameTruncated (i + 1) name stored ∉ s.events) →
              e.name = Name.terminated item.name
                ∧ (e.name = item.name ↔ '\x00' ∉ item.name.toList))
            ∧ ∀ name stored, .nameTruncated (i + 1) name stored ∈ s.events →
              name = item.name ∧ e.name = Name.terminated stored
                ∧ (e.name = stored ↔ '\x00' ∉ stored.toList)) := by
  obtain ⟨image, hrecorded⟩ := exec_recorded h
  refine ⟨image, hrecorded, fun hlength => ?_⟩
  have hstart : sink.Recorded t [] (t, []) := ⟨rfl, .refl⟩
  obtain ⟨header, entries, told, hheader, hnames, ⟨himage, -⟩, hevents, htold⟩ :=
    write_eq_ok (sink.collects_recorded t) hstart hrecorded
  dsimp only at himage hevents
  rw [List.nil_append] at himage hevents
  subst himage hevents
  have hcount : entries.length = b.count := by
    rw [count, ← List.length_map Entry.name, hnames, List.length_map]
  have hsize : ∀ e ∈ entries, e.content.length < 2 ^ 64 := by
    intro e he
    have hle := List.le_sum_of_mem (List.mem_map_of_mem (f := fun e => e.encode.length) he)
    rw [← List.length_flatMap, Entry.length_encode] at hle
    rw [List.length_append] at hlength
    omega
  have hheader_count : header.count = b.count := (count_of_headerFor hheader).1
  have hread := Bytes.readEntries_encode hsize []
  rw [List.append_nil, hcount] at hread
  refine ⟨header, entries.flatMap Entry.encode, entries.map Entry.kept, ImageFile.readHeader_cons _ _,
    hheader_count, by rw [hheader_count, hread], by rw [List.length_map, hcount], ?_⟩
  intro i item hitem
  obtain ⟨e, he, hname⟩ : ∃ e, entries[i]? = some e ∧ e.name = item.name := by
    have hmap := congrArg (·[i]?) hnames
    simp only [List.getElem?_map, hitem, Option.map_some] at hmap
    exact Option.map_eq_some_iff.1 hmap
  refine ⟨e.kept, by rw [List.getElem?_map, he, Option.map_some], fun hnone => ?_, ?_⟩
  · have hfit : Name.fit item.name = item.name := by
      by_contra hne
      exact hnone _ _ ((htold i _ _).2 ⟨item, hitem, rfl, rfl, hne⟩)
    rw [Entry.name_kept, hname, Name.kept_eq_terminated, hfit]
    exact ⟨rfl, Name.terminated_eq_self_iff⟩
  · intro name stored htruncated
    obtain ⟨item', hitem', rfl, rfl, -⟩ := (htold i _ _).1 htruncated
    cases hitem.symm.trans hitem'
    rw [Entry.name_kept, hname]
    exact ⟨rfl, rfl, Name.terminated_eq_self_iff⟩

end Builder

/-! ## Entries from memory -/

/-- What a sink collects is what it records. -/
theorem Sink.Collects.recorded {τ : Type} {sink : Sink τ} {P : Bytes → τ → Prop} {F : IoError → Prop}
    (h : sink.Collects P F) : sink.recorded.Collects (fun held u => u.2 = held ∧ P held u.1) F where
  accepted := by
    rintro held ⟨t, held'⟩ bs n u ⟨rfl, hP⟩ hwrite
    obtain ⟨hanswer, rfl⟩ := Prod.mk.inj hwrite
    dsimp only at hanswer hP ⊢
    refine ⟨by rw [hanswer, Acceptance.part], h.accepted hP (Prod.ext hanswer rfl)⟩
  nothing := by
    rintro held ⟨t, held'⟩ bs u ⟨rfl, hP⟩ hne hwrite
    exact h.nothing hP hne (Prod.ext (Prod.mk.inj hwrite).1 rfl)
  interrupted := by
    rintro held ⟨t, held'⟩ bs u ⟨rfl, hP⟩ hwrite
    obtain ⟨hanswer, rfl⟩ := Prod.mk.inj hwrite
    dsimp only at hanswer hP ⊢
    refine ⟨by rw [hanswer, Acceptance.part, List.append_nil], h.interrupted hP (Prod.ext hanswer rfl)⟩
  failed := by
    rintro held ⟨t, held'⟩ bs e u ⟨rfl, hP⟩ hwrite
    obtain ⟨hanswer, rfl⟩ := Prod.mk.inj hwrite
    dsimp only at hanswer hP ⊢
    obtain ⟨hP', hF⟩ := h.failed hP (Prod.ext hanswer rfl)
    exact ⟨⟨by rw [hanswer, Acceptance.part, List.append_nil], hP'⟩, hF⟩

namespace MemorySink

/-- The sink without bounds. -/
def roomy : MemorySink where
  files := ⟨#[], 0, 0, none, 4096⟩
  written := #[]
  atOnce := none
  room := none
  failure := none
  interrupts := false
  interruptNext := false
  changes := []

/-- Nothing bounds or interrupts what the sink accepts. -/
structure Unbounded (m : MemorySink) : Prop where
  atOnce : m.atOnce = none
  room : m.room = none
  interrupts : m.interrupts = false

theorem Unbounded.write {m : MemorySink} (h : m.Unbounded) (bs : Bytes) :
    ∃ m', sink.write m bs = (.accepted bs.length, m') ∧ m'.Unbounded := by
  simp only [sink, MemorySink.write, accept, acceptable, within, h.atOnce, h.room, h.interrupts,
    Bool.false_and, Bool.false_eq_true, reduceCtorEq, if_false]
  exact ⟨_, rfl, rfl, rfl, rfl⟩

/-- A sink without bounds collects everything. -/
theorem collects_of_unbounded : sink.Collects (fun _ m => m.Unbounded) (fun _ => False) where
  accepted h hwrite := by
    obtain ⟨m', hwrite', h'⟩ := h.write _
    cases hwrite.symm.trans hwrite'
    exact h'
  nothing h hne hwrite := by
    obtain ⟨m', hwrite', -⟩ := h.write _
    obtain ⟨hlength, -⟩ := Prod.mk.inj (hwrite.symm.trans hwrite')
    injection hlength with hlength
    exact hne (List.length_eq_zero_iff.1 hlength.symm)
  interrupted h hwrite := by
    obtain ⟨m', hwrite', -⟩ := h.write _
    cases hwrite.symm.trans hwrite'
  failed h hwrite := by
    obtain ⟨m', hwrite', -⟩ := h.write _
    cases hwrite.symm.trans hwrite'

end MemorySink

namespace Builder

/-- The builder that has the entries in memory. -/
def ofEntries (es : List Entry) : Builder := ⟨es.map fun e => ⟨e.name, .bytes e.content⟩⟩

theorem write_ofEntries {es : List Entry} {header : Header}
    (hsize : ∀ e ∈ es, e.content.length < 2 ^ 64) (hheader : headerFor es.length = .ok header) :
    ∃ m, ((ofEntries es).write MemorySink.sink.recorded (MemorySink.files ∘ Prod.fst)).start
        (MemorySink.roomy, []) = (.ok (header.toBytes ++ es.flatMap Entry.encode).length,
          ⟨(m, header.toBytes ++ es.flatMap Entry.encode), reports 1 es⟩) := by
  have hyields : List.Forall₂ (Yields MemorySink.roomy.files 0) (ofEntries es).items es := by
    rw [ofEntries, List.forall₂_map_left_iff, List.forall₂_same]
    exact fun e he => .bytes e.name e.content (hsize e he)
  have hheader' : (ofEntries es).header = .ok header := by
    rw [Builder.header, count, ofEntries, List.length_map, hheader]
  have hsources : ∀ p ∈ (ofEntries es).sources, p ∈ [] := by
    intro p hp
    obtain ⟨item, hitem, hfile⟩ := mem_sources.1 hp
    obtain ⟨e, -, rfl⟩ := List.mem_map.1 hitem
    cases hfile
  have hemits : Emits _ _
      ((ofEntries es).write MemorySink.sink.recorded (MemorySink.files ∘ Prod.fst)) _ _ _ :=
    emits_write MemorySink.collects_of_unbounded.recorded (fun _ hp => by cases hp) hsources hheader'
      hyields
  rcases hemits [] ⟨(MemorySink.roomy, []), []⟩ ⟨rfl, rfl, rfl, rfl⟩ with
    ⟨⟨m, image⟩, hexec, himage, -⟩ | ⟨e, t, front, told, -, hfailure, -⟩
  · cases himage
    exact ⟨m, hexec⟩
  · exact hfailure.exists_cause.elim fun _ hfalse => hfalse.elim

/-- A name with a zero in front of `n` letters. -/
def zeroAndLetters (n : Nat) : String := String.ofList ('c' :: '\x00' :: List.replicate n 'x')

theorem fit_zeroAndLetters {n : Nat} (h : 254 ≤ n) :
    Name.fit (zeroAndLetters n) ≠ zeroAndLetters n := by
  have hascii : ∀ c ∈ 'c' :: '\x00' :: List.replicate n 'x', c.toNat ≤ 0x7F := by
    rw [List.forall_mem_cons, List.forall_mem_cons]
    refine ⟨by decide, by decide, fun c hc => ?_⟩
    rw [List.eq_of_mem_replicate hc]
    decide
  rw [Ne, Name.fit_eq_self_iff, Utf8.encode, zeroAndLetters, String.toList_ofList,
    Utf8.encodeList_of_ascii hascii, List.length_map, List.length_cons, List.length_cons,
    List.length_replicate, Name.maxLength]
  omega

theorem terminated_fit_zeroAndLetters (n : Nat) :
    Name.terminated (Name.fit (zeroAndLetters n)) = "c" := by
  have hfront : (Name.fit (zeroAndLetters n)).toList =
      'c' :: '\x00' :: Name.takeFitting 253 (List.replicate n 'x') := by
    rw [Name.fit, zeroAndLetters, String.toList_ofList, String.toList_ofList, Name.takeFitting,
      if_pos (by decide), Name.takeFitting, if_pos (by decide)]
    rfl
  rw [Name.terminated, hfront]
  rfl

/-- It is reported of the second name that it is shortened, but of neither that its zero ends it. -/
theorem names_of_written_zeroNames : ∃ s image header body e₁ e₂,
    ((ofEntries [⟨"a\x00b", [7]⟩, ⟨zeroAndLetters 300, []⟩]).write MemorySink.sink
        MemorySink.files).start MemorySink.roomy = (.ok 530, s)
      ∧ Bytes.source.readHeader.exec image = (.ok header, body)
      ∧ Bytes.source.readEntries header.count body = (([e₁, e₂], none), [])
      ∧ e₁.name = "a" ∧ e₂.name = "c" := by
  have hsize : ∀ e ∈ ([⟨"a\x00b", [7]⟩, ⟨zeroAndLetters 300, []⟩] : List Entry),
      e.content.length < 2 ^ 64 := by
    rw [List.forall_mem_cons, List.forall_mem_singleton]
    exact ⟨by decide, by decide⟩
  have hlength : ((⟨2⟩ : Header).toBytes ++
      ([⟨"a\x00b", [7]⟩, ⟨zeroAndLetters 300, []⟩] : List Entry).flatMap Entry.encode).length = 530 := by
    rw [List.flatMap_cons, List.flatMap_singleton, List.length_append, List.length_append,
      Entry.length_encode, Entry.length_encode]
    rfl
  have hheader : headerFor 2 = .ok ⟨2⟩ := rfl
  obtain ⟨m, hrecorded⟩ := write_ofEntries hsize hheader
  rw [hlength] at hrecorded
  have hrun := exec_of_recorded hrecorded
  obtain ⟨image, hrecorded', hread⟩ := names_of_written hrun
  cases hrecorded'.symm.trans hrecorded
  obtain ⟨header, body, entries, hread_header, -, hentries, hcount, hnames⟩ :=
    hread (by rw [hlength]; decide)
  obtain ⟨e₁, e₂, rfl⟩ := List.length_eq_two.1 hcount
  obtain ⟨e, he, hfirst, -⟩ := hnames 0 _ rfl
  cases he
  obtain ⟨e, he, -, hsecond⟩ := hnames 1 _ rfl
  cases he
  refine ⟨_, _, header, body, e₁, e₂, hrun, hread_header, hentries, ?_, ?_⟩
  · have hfit : Name.fit "a\x00b" = "a\x00b" := by decide
    refine (hfirst fun name stored hmem => ?_).1.trans (by decide)
    simp only [reports_cons, List.mem_append, nameTruncated_mem_packedEvents] at hmem
    rcases hmem with ⟨-, rfl, rfl, hne⟩ | ⟨hindex, -⟩ | hmem
    · exact hne hfit
    · cases hindex
    · cases hmem
  · have hmem : .nameTruncated (1 + 1) (zeroAndLetters 300) (Name.fit (zeroAndLetters 300)) ∈
        reports 1 [⟨"a\x00b", [7]⟩, ⟨zeroAndLetters 300, []⟩] := by
      rw [reports_cons, reports_cons, List.mem_append, List.mem_append,
        nameTruncated_mem_packedEvents, nameTruncated_mem_packedEvents]
      exact .inr (.inl ⟨rfl, rfl, rfl, fit_zeroAndLetters (by decide)⟩)
    obtain ⟨-, hname, -⟩ := hsecond _ _ hmem
    exact hname.trans (terminated_fit_zeroAndLetters 300)

/-- A name that fits its field and has a zero is cut at it, and nothing is reported of that. -/
theorem zero_in_name_unreported : ∃ m image body,
    ((ofEntries [⟨"a\x00b", [7]⟩]).write MemorySink.sink.recorded (MemorySink.files ∘ Prod.fst)).start
        (MemorySink.roomy, []) = (.ok 266, ⟨(m, image), [.packed 1 "a\x00b" 1]⟩)
      ∧ ((ofEntries [⟨"a\x00b", [7]⟩]).write MemorySink.sink MemorySink.files).start MemorySink.roomy =
        (.ok 266, ⟨m, [.packed 1 "a\x00b" 1]⟩)
      ∧ Bytes.source.readHeader.exec image = (.ok ⟨1⟩, body)
      ∧ Bytes.source.readEntries 1 body = (([⟨"a", [7]⟩], none), []) := by
  have hsize : ∀ e ∈ ([⟨"a\x00b", [7]⟩] : List Entry), e.content.length < 2 ^ 64 :=
    List.forall_mem_singleton.2 (by decide)
  have hreports : reports 1 [⟨"a\x00b", [7]⟩] = [.packed 1 "a\x00b" 1] := by decide
  have hkept : (⟨"a\x00b", [7]⟩ : Entry).kept = ⟨"a", [7]⟩ := by decide
  have hheader : headerFor 1 = .ok ⟨1⟩ := rfl
  obtain ⟨m, hrecorded⟩ := write_ofEntries hsize hheader
  have hlength : ((⟨1⟩ : Header).toBytes ++
      [(⟨"a\x00b", [7]⟩ : Entry)].flatMap Entry.encode).length = 266 := by
    rw [List.flatMap_singleton, List.length_append, Entry.length_encode]
    rfl
  have hread := Bytes.readEntries_encode hsize []
  rw [List.append_nil, List.map_singleton, hkept] at hread
  rw [hreports, hlength] at hrecorded
  exact ⟨m, _, _, hrecorded, exec_of_recorded hrecorded, ImageFile.readHeader_cons _ _, hread⟩

end Builder

end FlatArchive
