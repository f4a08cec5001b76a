-- SUMMARY: What any sink has accepted of an image when writing it ends, at whatever byte a write fails.
import FlatArchive.Proofs.Recording

/-!
# Writing to any sink

A sink may accept any part of each write, accept nothing, be interrupted or fail. Whatever it does,
what it has accepted in all is a front of the image, and the events tell of the entries that lie
wholly within this front: a write that fails leaves something of its bytes over, so the entry that it
belongs to is never complete. The image ends before the first entry whose file is missing.

To speak of what a sink has accepted, the builder is also run on the sink that records it
(`Sink.recorded`).
-/

namespace FlatArchive

open Attempt FileSystem

/-! ## The image of a builder -/

namespace Builder

/-- The entry that an item is written as, if it does not come from a file that is missing. -/
def entryOf? (fs : FileSystem) (item : Item) : Option Entry :=
  match item.content with
  | .bytes content => some ⟨item.name, content⟩
  | .file p => match fs.find p with
    | .ok i => if fs.isFile i then some ⟨item.name, fs.content i⟩ else none
    | .error _ => none

/-- The entries of the items before the first whose file is missing. -/
def readable (fs : FileSystem) : List Item → List Entry
  | [] => []
  | item :: items => match entryOf? fs item with
    | some e => e :: readable fs items
    | none => []

/-- The bytes that writing the builder comes to, as far as its files are there. -/
def image (fs : FileSystem) (b : Builder) : Bytes :=
  match b.header with
  | .ok header => header.toBytes ++ (readable fs b.items).flatMap Entry.encode
  | .error _ => []

/-- The entries that lie wholly within the first `n` bytes of their encodings. -/
def complete (n : Nat) : List Entry → List Entry
  | [] => []
  | e :: es => if e.encode.length ≤ n then e :: complete (n - e.encode.length) es else []

section Complete

variable {n : Nat} {e : Entry} {es : List Entry}

theorem complete_of_lt (h : n < e.encode.length) : complete n (e :: es) = [] := by
  rw [complete, if_neg (by omega)]

theorem complete_zero (es : List Entry) : complete 0 es = [] := by
  cases es with
  | nil => rfl
  | cons e es =>
    apply complete_of_lt
    have hhead : 0 < Head.length := by decide
    rw [Entry.length_encode]
    omega

theorem complete_add (n : Nat) (e : Entry) (es : List Entry) :
    complete (e.encode.length + n) (e :: es) = e :: complete n es := by
  rw [complete, if_pos (by omega), Nat.add_sub_cancel_left]

theorem complete_prefix (n : Nat) (es : List Entry) : complete n es <+: es := by
  fun_induction complete n es with
  | case1 => exact List.prefix_rfl
  | case2 n e es _ ih => exact (List.prefix_cons_inj e).2 ih
  | case3 => exact List.nil_prefix

theorem length_flatMap_complete_le (n : Nat) (es : List Entry) :
    ((complete n es).flatMap Entry.encode).length ≤ n := by
  fun_induction complete n es with
  | case1 => exact Nat.zero_le _
  | case2 n e es hle ih =>
    rw [List.flatMap_cons, List.length_append]
    omega
  | case3 => exact Nat.zero_le _

theorem complete_all (es : List Entry) : complete (es.flatMap Entry.encode).length es = es := by
  induction es with
  | nil => rfl
  | cons e es ih => rw [List.flatMap_cons, List.length_append, complete_add, ih]

end Complete

/-! ## Items -/

section Items

variable {fs : FileSystem} {item : Item} {e : Entry}

theorem yields_of_entryOf? (h : entryOf? fs item = some e)
    (hsize : ∀ content, item.content = .bytes content → content.length < 2 ^ 64) :
    Yields fs fs.nodes.size item e := by
  obtain ⟨name, content⟩ := item
  cases content with
  | bytes content =>
    cases h
    exact .bytes name content (hsize content rfl)
  | file p =>
    simp only [entryOf?] at h
    split at h
    · next i hfind =>
      split_ifs at h with hfile
      cases h
      exact .file name hfind hfile (Nat.ne_of_lt (lt_size_of_isFile hfile))
    · cases h

/-- The file of an item that has no entry is missing, for what is there is a regular file. -/
theorem find_of_entryOf?_none (h : entryOf? fs item = none)
    (hregular : ∀ p, item.content = .file p → ∀ i, fs.find p = .ok i → fs.isFile i = true) :
    ∃ p e, item.content = .file p ∧ fs.find p = .error e := by
  obtain ⟨name, content⟩ := item
  cases content with
  | bytes content => cases h
  | file p =>
    rcases hfind : fs.find p with e | i
    · exact ⟨p, e, rfl, hfind⟩
    · simp [entryOf?, hfind, hregular p rfl i hfind] at h

end Items

section Limited

variable {fs : FileSystem} {e : IoError} {n : Nat} {u : MemorySink × Bytes}
  (h : MemorySink.Limited fs e n u.1)

include h in
/-- The entry of a file of a single piece, for which there is room. -/
theorem exec_writeFile_limited {p : Path} {i : NodeId} (hfind : fs.find p = .ok i)
    (hfile : fs.isFile i = true) (hpiece : (fs.content i).length ≤ pieceSize)
    (hn : Head.length + (fs.content i).length ≤ n) (name : String) (events : List Event) :
    ∃ m, (writeFile MemorySink.sink.recorded (MemorySink.files ∘ Prod.fst) name p).exec ⟨u, events⟩ =
        (.ok (fs.content i).length, ⟨(m, u.2 ++ Entry.encode ⟨name, fs.content i⟩), events⟩)
      ∧ MemorySink.Limited fs e (n - Head.length - (fs.content i).length) m := by
  have hopen : openSource fs p = .ok i := openSource_eq_ok_iff.2 hfind
  have hfiles : (MemorySink.files ∘ Prod.fst) u = fs := h.files
  have hencode : Entry.encode ⟨name, fs.content i⟩ =
      (Head.ofName name (UInt64.ofNat (fs.content i).length)).toBytes ++ fs.content i := rfl
  rw [writeFile, exec_bind_ok (exec_get _)]
  dsimp only
  rw [hfiles, exec_bind_ok (exec_liftM_eq_ok_iff.2 ⟨hopen, rfl⟩),
    size_eq_length (isDirectory_eq_false_of_isFile hfile), hencode]
  generalize hhead : (Head.ofName name (UInt64.ofNat (fs.content i).length)).toBytes = head
  have hlength : head.length = Head.length := by rw [← hhead, Head.length_toBytes]
  obtain ⟨m, hput, hm⟩ := h.put_of_le (show head.length ≤ n by omega)
  rw [hlength] at hm
  obtain ⟨f, m', hcopy, hm'⟩ := hm.copy_of_le (u := (m, u.2 ++ head)) rfl hpiece (by omega)
  rw [exec_bind_ok (exec_put (s := ⟨u, events⟩) _ hput),
    exec_bind_ok (exec_copy (s := ⟨(m, u.2 ++ head), events⟩) _ hcopy), if_pos rfl,
    ← List.append_assoc]
  exact ⟨m', rfl, hm'⟩

include h in
/-- An entry from memory whose head there is no room for. -/
theorem exec_writeBytes_limited (hn : n < Head.length) (name : String) (content : Bytes)
    (events : List Event) :
    ∃ m, (writeBytes MemorySink.sink.recorded name content).exec ⟨u, events⟩ =
      (.error (.io "Write entry head" none e),
        ⟨(m, u.2 ++ (Entry.encode ⟨name, content⟩).take n), events⟩) := by
  have hencode : Entry.encode ⟨name, content⟩ =
      (Head.ofName name (UInt64.ofNat content.length)).toBytes ++ content := rfl
  rw [hencode, writeBytes]
  generalize hhead : (Head.ofName name (UInt64.ofNat content.length)).toBytes = head
  have hlt : n < head.length := by rwa [← hhead, Head.length_toBytes]
  obtain ⟨m, hput⟩ := h.put_of_lt hlt
  rw [List.take_append_of_le_length (Nat.le_of_lt hlt)]
  exact ⟨m, exec_bind_error (exec_put (s := ⟨u, events⟩) _ hput)⟩

end Limited

variable {τ : Type} {sink : Sink τ} {files : τ → FileSystem} {ps : List Path} {t : τ}

/-- A file that is missing ends the entry before anything is written. -/
theorem exec_writeContent_missing {item : Item} {p : Path} {e : IoError} {s : Session τ}
    (hcontent : item.content = .file p) (hfind : (files s.state).find p = .error e) (index : Nat) :
    ∃ cause, (Task.atEntry index (writeContent sink files item)).exec s =
      (.error (.entry index cause), s) := by
  obtain ⟨cause, hopen, hindex⟩ : ∃ cause, openSource (files s.state) p = .error cause
      ∧ cause.atEntry index = .entry index cause := by
    rw [openSource, hfind]
    dsimp only
    split_ifs <;> exact ⟨_, rfl, rfl⟩
  have hexec : (writeContent sink files item).exec s = (.error cause, s) := by
    rw [writeContent, hcontent]
    dsimp only
    rw [writeFile, exec_bind_ok (exec_get s)]
    dsimp only
    rw [hopen, exec_bind_error (exec_liftM _ s)]
  refine ⟨cause, ?_⟩
  rw [Task.exec_atEntry_error hexec, hindex]

/-! ## Whole runs -/

section Runs

variable (hspares : sink.Spares files ps t)

include hspares in
theorem spared_of_recorded {held : Bytes} {u : τ × Bytes} {p : Path} {i : NodeId}
    (hheld : sink.Recorded t held u) (hp : p ∈ ps) (hfind : (files t).find p = .ok i) :
    ((files ∘ Prod.fst) u).find p = .ok i
      ∧ ((files ∘ Prod.fst) u).node? i = (files t).node? i := by
  obtain ⟨hsame, hnode⟩ := hspares u.1 hheld.2 p hp
  exact ⟨hsame.trans hfind, hnode i hfind⟩

include hspares in
/-- What is accepted of one entry: all of it, or something that is not, and nothing if the file is
missing. Neither reports anything. -/
theorem exec_writeContent_recorded {item : Item}
    (hps : ∀ p, item.content = .file p → p ∈ ps)
    (hregular : ∀ p ∈ ps, ∀ i, (files t).find p = .ok i → (files t).isFile i = true)
    (hsize : ∀ content, item.content = .bytes content → content.length < 2 ^ 64)
    (index : Nat) (held : Bytes) (s : Session (τ × Bytes)) (hheld : sink.Recorded t held s.state) :
    (∃ e u, entryOf? (files t) item = some e ∧ item.name = e.name
        ∧ (Task.atEntry index (writeContent sink.recorded (files ∘ Prod.fst) item)).exec s =
          (.ok e.size, ⟨u, s.events⟩)
        ∧ sink.Recorded t (held ++ e.encode) u) ∨
      ∃ cause u front,
        (Task.atEntry index (writeContent sink.recorded (files ∘ Prod.fst) item)).exec s =
          (.error (.entry index cause), ⟨u, s.events⟩)
        ∧ sink.Recorded t (held ++ front) u
        ∧ (entryOf? (files t) item = none → front = [])
        ∧ ∀ e, entryOf? (files t) item = some e → ProperFront front e.encode := by
  cases hentry : entryOf? (files t) item with
  | none =>
    obtain ⟨p, e, hcontent, hfind⟩ := find_of_entryOf?_none hentry fun p hp => hregular p (hps p hp)
    have hfind' : ((files ∘ Prod.fst) s.state).find p = .error e :=
      ((hspares _ hheld.2 p (hps p hcontent)).1).trans hfind
    obtain ⟨cause, hexec⟩ := exec_writeContent_missing hcontent hfind' index
    refine .inr ⟨cause, s.state, [], hexec, ?_, fun _ => rfl, fun e he => ?_⟩
    · rwa [List.append_nil]
    · cases he
  | some e =>
    have hyields := yields_of_entryOf? hentry hsize
    have hname : item.name = e.name := by cases hyields <;> rfl
    have hemits := emits_writeContent (sink.collects_recorded t)
      (fun hheld hp hfind _ => spared_of_recorded hspares hheld hp hfind) hyields hps
    rcases hemits held s hheld with
      ⟨u, hexec, hheld'⟩ | ⟨cause, u, front, told, hexec, hfailure, hfront, htold, hheld'⟩
    · rw [List.append_nil] at hexec
      exact .inl ⟨e, u, rfl, hname, Task.exec_atEntry_ok hexec, hheld'⟩
    · rw [List.prefix_nil.1 htold, List.append_nil] at hexec
      refine .inr ⟨cause, u, front, ?_, hheld', fun hnone => ?_, fun e' he' => ?_⟩
      · rw [Task.exec_atEntry_error hexec, hfailure.atEntry index]
      · cases hnone
      · cases he'
        exact hfront

include hspares in
/-- What is accepted of the items that are left: all of them, or a front of them after which the entry
fails that is not complete. -/
theorem exec_writeItems_recorded {items : List Item}
    (hps : ∀ item ∈ items, ∀ p, item.content = .file p → p ∈ ps)
    (hregular : ∀ p ∈ ps, ∀ i, (files t).find p = .ok i → (files t).isFile i = true)
    (hsizes : ∀ item ∈ items, ∀ content, item.content = .bytes content → content.length < 2 ^ 64)
    (index : Nat) (held : Bytes) (s : Session (τ × Bytes)) (hheld : sink.Recorded t held s.state) :
    (∃ u, (writeItems sink.recorded (files ∘ Prod.fst) index items).exec s =
          (.ok ((readable (files t) items).flatMap Entry.encode).length,
            ⟨u, s.events ++ reports index (readable (files t) items)⟩)
        ∧ sink.Recorded t (held ++ (readable (files t) items).flatMap Entry.encode) u
        ∧ (readable (files t) items).length = items.length) ∨
      ∃ cause u accepted whole,
        (writeItems sink.recorded (files ∘ Prod.fst) index items).exec s =
          (.error (.entry (index + whole.length) cause), ⟨u, s.events ++ reports index whole⟩)
        ∧ sink.Recorded t (held ++ accepted) u
        ∧ accepted <+: (readable (files t) items).flatMap Entry.encode
        ∧ whole = complete accepted.length (readable (files t) items)
        ∧ whole.length < items.length := by
  induction items generalizing index held s with
  | nil =>
    refine .inl ⟨s.state, ?_, ?_, rfl⟩
    · rw [writeItems, exec_pure, readable, reports, List.append_nil]
      rfl
    · rwa [readable, List.flatMap_nil, List.append_nil]
  | cons item items ih =>
    obtain ⟨hfirst, hrest⟩ := List.forall_mem_cons.1 hps
    obtain ⟨hsize, hsizes⟩ := List.forall_mem_cons.1 hsizes
    rw [writeItems, readable]
    rcases exec_writeContent_recorded hspares hfirst hregular hsize index held s hheld with
      ⟨e, u, hentry, hname, hexec, hheld'⟩ | ⟨cause, u, front, hexec, hheld', hnone, hsome⟩
    · rw [exec_bind_ok hexec, hname, exec_bind_ok (exec_reportPacked index e.name e.size _), hentry]
      dsimp only
      rw [List.flatMap_cons, List.length_append, reports_cons]
      rcases ih hrest hsizes (index + 1) _ ⟨u, s.events ++ packedEvents index e.name e.size⟩ hheld' with
        ⟨u', hexec', hheld'', hlength⟩ |
        ⟨cause, u', accepted, whole, hexec', hheld'', hfront, hwhole, hlt⟩
      · rw [List.append_assoc] at hexec' hheld''
        refine .inl ⟨u', ?_, hheld'', by rw [List.length_cons, List.length_cons, hlength]⟩
        rw [exec_bind_ok hexec', exec_pure, Entry.length_encode, Entry.size]
      · rw [List.append_assoc] at hheld''
        refine .inr ⟨cause, u', e.encode ++ accepted, e :: whole, ?_, hheld'',
          (List.prefix_append_right_inj _).2 hfront, ?_, Nat.succ_lt_succ hlt⟩
        · rw [exec_bind_error hexec', reports_cons, List.append_assoc, List.length_cons,
            Nat.add_right_comm, Nat.add_assoc]
        · rw [List.length_append, complete_add, hwhole]
    · -- This entry is not complete, and nothing behind it is accepted.
      have hshort : front <+: (readable (files t) (item :: items)).flatMap Entry.encode
          ∧ [] = complete front.length (readable (files t) (item :: items)) := by
        rw [readable]
        cases hentry : entryOf? (files t) item with
        | none =>
          rw [hnone hentry]
          exact ⟨List.nil_prefix, rfl⟩
        | some e =>
          have hfront := hsome e hentry
          exact ⟨hfront.1.trans (List.prefix_append _ _), (complete_of_lt hfront.2).symm⟩
      refine .inr ⟨cause, u, front, [], ?_, hheld', hshort.1, hshort.2, Nat.succ_pos _⟩
      rw [exec_bind_error hexec, reports, List.append_nil]
      rfl

end Runs

/-- The number of entries decides whether there is a header. -/
theorem header_cases (b : Builder) :
    (b.count = 0 ∧ b.header = .error (.format .noEntries))
      ∨ (0 < b.count ∧ b.count ≤ 255 ∧ ∃ header, b.header = .ok header)
      ∨ (255 < b.count ∧ b.header = .error (.format (.tooManyEntries b.count))) := by
  unfold header headerFor
  rcases Nat.eq_zero_or_pos b.count with hzero | hpos
  · rw [hzero, Header.ofCount_zero]
    exact .inl ⟨rfl, rfl⟩
  rcases Nat.lt_or_ge 255 b.count with hlt | hle
  · rw [Header.ofCount_of_lt hlt]
    exact .inr (.inr ⟨hlt, rfl⟩)
  · rw [Header.ofCount_of_le hpos hle]
    exact .inr (.inl ⟨hpos, hle, _, rfl⟩)

/-- Without a header nothing is written. -/
theorem exec_write_refused {b : Builder} {e : Error} (h : b.header = .error e) (sink : Sink τ)
    (files : τ → FileSystem) (s : Session τ) : (b.write sink files).exec s = (.error e, s) := by
  rw [write, h, exec_bind_error (exec_liftM _ s)]

/-- The sink itself does what the one does that records. -/
theorem exec_of_recorded {b : Builder} {t u : τ} {log accepted : Bytes} {events told : List Event}
    {result : Except Error Nat}
    (h : (b.write sink.recorded (files ∘ Prod.fst)).exec ⟨(t, log), events⟩ =
      (result, ⟨(u, accepted), told⟩)) :
    (b.write sink files).exec ⟨t, events⟩ = (result, ⟨u, told⟩) := by
  refine Task.exec_of_follows_recorded (follows_write sink.follows_recorded ?_ b) h
  rintro v _ rfl
  exact .refl _

/-- The complete entries are whole within what was accepted. -/
theorem complete_accepted {header : Header} {accepted : Bytes} {entries : List Entry}
    (hfront : accepted <+: header.toBytes ++ entries.flatMap Entry.encode)
    (hheader : header.toBytes <+: accepted) :
    header.toBytes ++ (complete (accepted.length - 1) entries).flatMap Entry.encode <+: accepted := by
  obtain ⟨rest, hrest⟩ := complete_prefix (accepted.length - 1) entries
  have hlength := length_flatMap_complete_le (accepted.length - 1) entries
  have hpos : 1 ≤ accepted.length := hheader.length_le
  refine List.prefix_of_prefix_length_le ?_ hfront ?_
  · nth_rewrite 2 [← hrest]
    rw [List.flatMap_append, ← List.append_assoc]
    exact List.prefix_append _ _
  · rw [List.length_append, Header.toBytes, List.length_singleton]
    omega

section Write

variable {b : Builder} {s : Session τ} (hspares : sink.Spares files b.sources s.state)
  (hregular : ∀ p ∈ b.sources, ∀ i, (files s.state).find p = .ok i →
    (files s.state).isFile i = true)
  (hsizes : ∀ item ∈ b.items, ∀ content, item.content = .bytes content → content.length < 2 ^ 64)

include hspares hregular hsizes in
/-- What is accepted of a builder whose number of entries is in range: the whole image, nothing if the
header fails, or a front of it after which an entry fails that is not complete. -/
theorem exec_write_recorded {header : Header} (hheader : b.header = .ok header) :
    ∃ result u accepted whole,
      (b.write sink.recorded (files ∘ Prod.fst)).exec ⟨(s.state, []), s.events⟩ =
          (result, ⟨(u, accepted), s.events ++ reports 1 whole⟩)
        ∧ accepted <+: b.image (files s.state)
        ∧ whole = complete (accepted.length - 1) (readable (files s.state) b.items)
        ∧ ((result = .ok accepted.length ∧ accepted = b.image (files s.state)
              ∧ whole.length = b.count)
          ∨ ((∃ cause, result = .error (.io "Write header" none cause)) ∧ accepted = [])
          ∨ ((∃ cause, result = .error (.entry (whole.length + 1) cause)) ∧ whole.length < b.count
              ∧ header.toBytes <+: accepted)) := by
  have himage : b.image (files s.state) =
      header.toBytes ++ (readable (files s.state) b.items).flatMap Entry.encode := by
    rw [image, hheader]
  have hlength : header.toBytes.length = 1 := rfl
  have hexec : ∀ {r u}, sink.recorded.put header.toBytes (s.state, []) = (r, u) →
      (put sink.recorded "Write header" header.toBytes).exec ⟨(s.state, []), s.events⟩ =
        (r.mapError (.io "Write header" none), ⟨u, s.events⟩) :=
    fun hput => exec_put (s := ⟨(s.state, []), s.events⟩) _ hput
  have hstart : sink.Recorded s.state [] (s.state, []) := ⟨rfl, .refl⟩
  rw [himage, write, hheader, exec_bind_ok (exec_liftM _ _)]
  rcases (sink.collects_recorded s.state).put hstart header.toBytes with
    ⟨u, hput, hheld⟩ | ⟨e, ⟨u, accepted⟩, front, hput, -, hfront, hheld⟩
  · rw [List.nil_append] at hheld
    rw [exec_bind_ok (hexec hput)]
    rcases exec_writeItems_recorded hspares
        (fun item hitem p hp => mem_sources.2 ⟨item, hitem, hp⟩) hregular hsizes 1 header.toBytes
        ⟨u, s.events⟩ hheld with
      ⟨⟨u', accepted⟩, hitems, ⟨haccepted, -⟩, hall⟩ |
      ⟨cause, ⟨u', accepted⟩, part, whole, hitems, ⟨haccepted, -⟩, hfront, hwhole, hlt⟩
    · refine ⟨_, u', accepted, _, (exec_bind_ok hitems).trans rfl, ?_⟩
      dsimp only at haccepted
      rw [haccepted, List.length_append, hlength, Nat.add_sub_cancel_left, complete_all]
      exact ⟨List.prefix_rfl, rfl, .inl ⟨rfl, rfl, hall⟩⟩
    · refine ⟨_, u', accepted, _, exec_bind_error hitems, ?_⟩
      dsimp only at haccepted
      rw [haccepted, List.length_append, hlength, Nat.add_sub_cancel_left]
      refine ⟨(List.prefix_append_right_inj _).2 hfront, hwhole, .inr (.inr ⟨?_, hlt, ?_⟩)⟩
      · exact ⟨cause, by rw [Nat.add_comm]⟩
      · exact List.prefix_append _ _
  · -- The header is a single byte, so nothing was accepted.
    obtain ⟨haccepted, -⟩ := hheld
    have hnil : front = [] := by
      apply List.eq_nil_of_length_eq_zero
      have := hfront.2
      omega
    subst hnil
    cases haccepted
    refine ⟨.error (.io "Write header" none e), u, [], [], ?_, List.nil_prefix, ?_, ?_⟩
    · rw [exec_bind_error (hexec hput), reports, List.append_nil]
    · rw [List.length_nil, Nat.zero_sub, complete_zero]
    · exact .inr (.inl ⟨⟨e, rfl⟩, rfl⟩)

include hspares hregular hsizes in
/-- Writing a builder to any sink. What is accepted is a front of the image, all of it if the writing
succeeds, and what is reported are the entries that lie wholly within it. A number of entries out of
range is refused before anything is written; else a failure is that of the header, or of the first
entry that does not lie wholly within what was accepted. -/
theorem write_to_any_sink :
    ∃ result u accepted whole,
      (b.write sink files).exec s = (result, ⟨u, s.events ++ reports 1 whole⟩)
        ∧ (b.write sink.recorded (files ∘ Prod.fst)).exec ⟨(s.state, []), s.events⟩ =
          (result, ⟨(u, accepted), s.events ++ reports 1 whole⟩)
        ∧ accepted <+: b.image (files s.state)
        ∧ whole = complete (accepted.length - 1) (readable (files s.state) b.items)
        ∧ (b.count = 0 → result = .error (.format .noEntries) ∧ accepted = [])
        ∧ (255 < b.count → result = .error (.format (.tooManyEntries b.count)) ∧ accepted = [])
        ∧ (∀ size, result = .ok size →
          accepted = b.image (files s.state) ∧ size = accepted.length ∧ whole.length = b.count)
        ∧ (∀ e, result = .error e → 0 < b.count → b.count ≤ 255 →
          ((∃ cause, e = .io "Write header" none cause) ∧ accepted = [])
            ∨ ∃ k cause header, e = .entry k cause ∧ 1 ≤ k ∧ k ≤ b.count ∧ k = whole.length + 1
              ∧ b.header = .ok header
              ∧ header.toBytes ++ ((readable (files s.state) b.items).take (k - 1)).flatMap
                  Entry.encode <+: accepted) := by
  have hrefused : ∀ {e}, b.header = .error e →
      (b.write sink files).exec s = (.error e, ⟨s.state, s.events ++ reports 1 []⟩)
        ∧ (b.write sink.recorded (files ∘ Prod.fst)).exec ⟨(s.state, []), s.events⟩ =
          (.error e, ⟨(s.state, []), s.events ++ reports 1 []⟩) := by
    intro e he
    rw [exec_write_refused he, exec_write_refused he, reports, List.append_nil]
    exact ⟨rfl, rfl⟩
  rcases header_cases b with ⟨hzero, hheader⟩ | ⟨hpos, hle, header, hheader⟩ | ⟨hlt, hheader⟩
  · obtain ⟨hexec, hrecorded⟩ := hrefused hheader
    refine ⟨_, _, _, _, hexec, hrecorded, List.nil_prefix, (complete_zero _).symm,
      fun _ => ⟨rfl, rfl⟩, by omega, fun size hsize => ?_, by omega⟩
    cases hsize
  · obtain ⟨result, u, accepted, whole, hexec, haccepted, hwhole, houtcome⟩ :=
      exec_write_recorded hspares hregular hsizes hheader
    refine ⟨result, u, accepted, whole, exec_of_recorded hexec, hexec, haccepted, hwhole, by omega,
      by omega, ?_, ?_⟩
    · intro size hsize
      rcases houtcome with ⟨hok, hall, hcount⟩ | ⟨⟨cause, herror⟩, -⟩ | ⟨⟨cause, herror⟩, -⟩
      · cases hok.symm.trans hsize
        exact ⟨hall, rfl, hcount⟩
      · cases herror.symm.trans hsize
      · cases herror.symm.trans hsize
    · intro e he _ _
      rcases houtcome with ⟨hok, -⟩ | ⟨⟨cause, herror⟩, hnone⟩ | ⟨⟨cause, herror⟩, hlt, hfront⟩
      · cases hok.symm.trans he
      · cases herror.symm.trans he
        exact .inl ⟨⟨cause, rfl⟩, hnone⟩
      · cases herror.symm.trans he
        refine .inr ⟨whole.length + 1, cause, header, rfl, by omega, by omega, rfl, hheader, ?_⟩
        have hcomplete := complete_prefix (accepted.length - 1) (readable (files s.state) b.items)
        rw [← hwhole] at hcomplete
        rw [Nat.add_sub_cancel, ← List.prefix_iff_eq_take.1 hcomplete, hwhole]
        rw [image, hheader] at haccepted
        exact complete_accepted haccepted hfront
  · obtain ⟨hexec, hrecorded⟩ := hrefused hheader
    refine ⟨_, _, _, _, hexec, hrecorded, List.nil_prefix, (complete_zero _).symm, by omega,
      fun _ => ⟨rfl, rfl⟩, fun size hsize => ?_, by omega⟩
    cases hsize

end Write

/-- An entry from the file `a`, and one from memory. -/
def fileAndBytes : Builder := ⟨[⟨"a", .file (Path.ofString "a")⟩, ⟨"b", .bytes [1, 2]⟩]⟩

/-- A sink that takes seven bytes at once, is interrupted at every other write, and has room for 300
bytes: it fails within the head of the second entry. -/
def narrowSink : MemorySink where
  files := ⟨#[.directory 0 [(Text.Utf8.encode "a", 1)], .file [7]], 0, 0, none, 4096⟩
  written := #[]
  atOnce := some 7
  room := some 300
  failure := some (.os .noSpace)
  interrupts := true
  interruptNext := true
  changes := []

theorem find_narrowSink : narrowSink.files.find (Path.ofString "a") = .ok 1 := by cbv

theorem readable_narrowSink :
    readable narrowSink.files fileAndBytes.items = [⟨"a", [7]⟩, ⟨"b", [1, 2]⟩] := by
  simp only [fileAndBytes, readable, entryOf?, find_narrowSink]
  rfl

theorem image_narrowSink : fileAndBytes.image narrowSink.files =
    [2] ++ Entry.encode ⟨"a", [7]⟩ ++ Entry.encode ⟨"b", [1, 2]⟩ := by
  have hheader : fileAndBytes.header = .ok ⟨2⟩ := rfl
  rw [image, hheader, readable_narrowSink]
  dsimp only
  rw [Header.toBytes, List.flatMap_cons, List.flatMap_singleton, List.append_assoc]

/-- The file is accepted as a whole, and of the second entry what there is room for. -/
theorem exec_write_narrowSink : ∃ m,
    (fileAndBytes.write MemorySink.sink.recorded (MemorySink.files ∘ Prod.fst)).exec
        ⟨(narrowSink, []), []⟩ =
      (.error (.entry 2 (.io "Write entry head" none (.os .noSpace))),
        ⟨(m, (fileAndBytes.image narrowSink.files).take 300), [.packed 1 "a" 1]⟩) := by
  have hheader : fileAndBytes.header = .ok ⟨2⟩ := rfl
  have hstart : MemorySink.Limited narrowSink.files (.os .noSpace) 300 narrowSink :=
    ⟨rfl, rfl, by decide, rfl, rfl⟩
  obtain ⟨m₁, hput, hm₁⟩ :=
    hstart.put_of_le (u := (narrowSink, [])) (show (⟨2⟩ : Header).toBytes.length ≤ 300 by decide)
  obtain ⟨m₂, hfile, hm₂⟩ := exec_writeFile_limited (u := (m₁, [2])) hm₁ find_narrowSink rfl (by decide)
    (by decide) "a" []
  obtain ⟨m₃, hbytes⟩ := exec_writeBytes_limited (u := (m₂, [2] ++ Entry.encode ⟨"a", [7]⟩)) hm₂
    (by decide) "b" [1, 2] [.packed 1 "a" 1]
  have hpacked : packedEvents 1 "a" 1 = [.packed 1 "a" 1] := by decide
  have hlength : ([2] ++ Entry.encode ⟨"a", [7]⟩).length = 266 := by
    rw [List.length_append, Entry.length_encode]
    decide
  have htake : (fileAndBytes.image narrowSink.files).take 300 =
      [2] ++ Entry.encode ⟨"a", [7]⟩ ++ (Entry.encode ⟨"b", [1, 2]⟩).take 34 := by
    have hle : ([2] ++ Entry.encode ⟨"a", [7]⟩).length ≤ 300 := hlength.trans_le (by decide)
    rw [image_narrowSink, List.take_append, hlength, List.take_of_length_le hle]
  have hfile' : (writeContent MemorySink.sink.recorded (MemorySink.files ∘ Prod.fst)
      ⟨"a", .file (Path.ofString "a")⟩).exec ⟨(m₁, [2]), []⟩ =
        (.ok 1, ⟨(m₂, [2] ++ Entry.encode ⟨"a", [7]⟩), []⟩) := hfile
  have hbytes' : (writeContent MemorySink.sink.recorded (MemorySink.files ∘ Prod.fst)
      ⟨"b", .bytes [1, 2]⟩).exec ⟨(m₂, [2] ++ Entry.encode ⟨"a", [7]⟩), [.packed 1 "a" 1]⟩ =
        (.error (.io "Write entry head" none (.os .noSpace)),
          ⟨(m₃, (fileAndBytes.image narrowSink.files).take 300), [.packed 1 "a" 1]⟩) := by
    rw [htake]
    exact hbytes
  refine ⟨m₃, ?_⟩
  rw [write, exec_bind_ok (exec_liftM_eq_ok_iff.2 ⟨hheader, rfl⟩),
    exec_bind_ok (exec_put (s := ⟨(narrowSink, []), []⟩) _ hput)]
  refine exec_bind_error ?_
  change (writeItems MemorySink.sink.recorded (MemorySink.files ∘ Prod.fst) 1
    [⟨"a", .file (Path.ofString "a")⟩, ⟨"b", .bytes [1, 2]⟩]).exec ⟨(m₁, [2]), []⟩ = _
  rw [writeItems, exec_bind_ok (Task.exec_atEntry_ok hfile'), exec_bind_ok (exec_reportPacked ..),
    hpacked, writeItems]
  exact exec_bind_error (exec_bind_error (Task.exec_atEntry_error hbytes'))

theorem write_to_narrowSink :
    ∃ u,
      (fileAndBytes.write MemorySink.sink MemorySink.files).exec ⟨narrowSink, []⟩ =
          (.error (.entry 2 (.io "Write entry head" none (.os .noSpace))),
            ⟨u, [.packed 1 "a" 1]⟩)
        ∧ (fileAndBytes.write MemorySink.sink.recorded (MemorySink.files ∘ Prod.fst)).exec
            ⟨(narrowSink, []), []⟩ =
          (.error (.entry 2 (.io "Write entry head" none (.os .noSpace))),
            ⟨(u, (fileAndBytes.image narrowSink.files).take 300), [.packed 1 "a" 1]⟩)
        ∧ [2] ++ Entry.encode ⟨"a", [7]⟩ <+: (fileAndBytes.image narrowSink.files).take 300 := by
  have hregular : ∀ p ∈ fileAndBytes.sources, ∀ i, narrowSink.files.find p = .ok i →
      narrowSink.files.isFile i = true := by
    intro p hp i hi
    rw [List.mem_singleton.1 hp, find_narrowSink] at hi
    cases hi
    rfl
  have hsizes : ∀ item ∈ fileAndBytes.items, ∀ content, item.content = .bytes content →
      content.length < 2 ^ 64 := by
    intro item hitem content hcontent
    rcases List.mem_pair.1 hitem with rfl | rfl
    · cases hcontent
    · cases hcontent
      decide
  obtain ⟨m, hrun⟩ := exec_write_narrowSink
  obtain ⟨result, u, accepted, whole, hexec, hrecorded, -, -, -, -, -, herror⟩ :=
    write_to_any_sink (s := ⟨narrowSink, []⟩) (MemorySink.spares rfl _) hregular hsizes
  obtain ⟨hresult, hsession⟩ := Prod.mk.inj (hrecorded.symm.trans hrun)
  obtain ⟨hstate, hevents⟩ := Session.mk.inj hsession
  obtain ⟨rfl, rfl⟩ := Prod.mk.inj hstate
  subst hresult
  dsimp only at hexec hrecorded herror
  rw [hevents] at hexec hrecorded
  refine ⟨u, hexec, hrecorded, ?_⟩
  rcases herror _ rfl (by decide) (by decide) with ⟨⟨cause, hcause⟩, -⟩ |
    ⟨k, cause, header, hk, -, -, -, hheader, hfront⟩
  · cases hcause
  · cases hk
    cases hheader
    have hfirst : (readable narrowSink.files fileAndBytes.items).take (2 - 1) = [⟨"a", [7]⟩] := by
      rw [readable_narrowSink]
      rfl
    rw [hfirst, List.flatMap_singleton] at hfront
    exact hfront

end Builder

end FlatArchive
