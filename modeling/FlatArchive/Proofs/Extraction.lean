-- SUMMARY: Unpacking as the extraction of a list of entries, for an image that no write reaches.
import FlatArchive.Proofs.Confinement

/-!
# Extraction

Unpacking reads the image while it writes files. As long as no write reaches the image (`Spared`), all
that is read is what the image held at the start. Then a run is one of two programs that no longer
mention the image: it extracts all entries if there are as many as announced (`exec_unpack_complete`),
or those in front of the first one that is damaged or has a name that is refused, and ends with its
error (`exec_unpack_stops`).
-/

namespace FlatArchive

open Attempt FileSystem

variable {dir image : Path} {j : NodeId} {fs fs' : FileSystem} {s : Session FileSystem}

/-! ## Entries of a list -/

/-- Extract entries, the first of which is entry `index`, and give their files. -/
def extractList (dir : Path) : (index : Nat) → List Entry → Task FileSystem (List Path)
  | _, [] => pure []
  | index, e :: es => do
    let target ← extract dir index e
    let targets ← extractList dir (index + 1) es
    return target :: targets

/-- The names under which entries are unpacked, the first of which is entry `index`. -/
def unpackedNames : (index : Nat) → List Entry → List String
  | _, [] => []
  | index, e :: es => unpackedName index e.name :: unpackedNames (index + 1) es

/-- All names of the entries are accepted. -/
def NamesAccepted (index : Nat) (entries : List Entry) : Prop :=
  ∀ name ∈ unpackedNames index entries, ∃ relative, checkPath name = .ok relative

/-- Prepare the directory and extract entries. -/
def extractInto (dir : Path) (entries : List Entry) : Task FileSystem (List Path) := do
  prepareDirectory dir
  extractList dir 1 entries

/-- Unpack entries with `trailing` bytes behind them. -/
def unpackEntries (dir : Path) (entries : List Entry) (trailing : Nat) :
    Task FileSystem Unpacked := do
  prepareDirectory dir
  if entries.isEmpty then Task.report .emptyImage
  let files ← extractList dir 1 entries
  if trailing > 0 then Task.report (.trailingData trailing)
  return ⟨files, trailing⟩

/-- Unpack entries, and end with an error. -/
def unpackUntil (dir : Path) (entries : List Entry) (e : Error) : Task FileSystem Unpacked := do
  prepareDirectory dir
  let _ ← extractList dir 1 entries
  throw e

theorem exec_unpackUntil (dir : Path) (entries : List Entry) (e : Error) (s : Session FileSystem) :
    (unpackUntil dir entries e).exec s =
      match (extractInto dir entries).exec s with
      | (.error e', s') => (.error e', s')
      | (.ok _, s') => (.error e, s') := by
  have hsplit : unpackUntil dir entries e = extractInto dir entries >>= fun _ => throw e := by
    rw [unpackUntil, extractInto, bind_assoc]
  rw [hsplit, exec_bind]
  rcases (extractInto dir entries).exec s with ⟨e' | files, s'⟩
  · rfl
  · rfl

/-- Unpacking entries is extracting them and reporting what is to be said about the image. -/
theorem exec_unpackEntries (dir : Path) (entries : List Entry) (trailing : Nat)
    (s : Session FileSystem) :
    (unpackEntries dir entries trailing).exec s =
      match (extractInto dir entries).exec s with
      | (.error e, s') => (.error e, s')
      | (.ok files, s') =>
        (.ok ⟨files, trailing⟩, ⟨s'.state, s'.events
          ++ (if entries.isEmpty then [.emptyImage] else [])
          ++ if trailing > 0 then [.trailingData trailing] else []⟩) := by
  rw [unpackEntries, extractInto, exec_bind, exec_bind]
  rcases (prepareDirectory dir).exec s with ⟨e | ⟨⟩, s₁⟩
  · rfl
  · dsimp only
    rw [Task.exec_report_if]
    cases entries with
    | nil =>
      dsimp only [extractList]
      rw [exec_bind_ok (exec_pure _ _), Task.exec_report_if]
      rfl
    | cons entry entries =>
      simp only [List.isEmpty_cons, Bool.false_eq_true, if_false, List.append_nil]
      rw [exec_bind]
      rcases (extractList dir 1 (entry :: entries)).exec s₁ with ⟨e | files, s₂⟩
      · rfl
      · dsimp only
        rw [Task.exec_report_if]
        rfl

/-! ## Writes -/

/-- The file of one entry was written below the directory, as far as it could be. -/
def WritesBelow (dir : Path) (fs fs' : FileSystem) : Prop :=
  ∃ name relative content, checkPath name = .ok relative ∧ relative.bytes ≠ []
    ∧ fs' = ((writeBelow dir relative content).start fs).2.state

/-- No writes below the directory change the node, however many. -/
def Spared (dir : Path) (j : NodeId) (fs : FileSystem) : Prop :=
  ∀ fs', Relation.ReflTransGen (WritesBelow dir) fs fs' → fs'.node? j = fs.node? j

theorem Spared.of_writes (h : Spared dir j fs)
    (hwrites : Relation.ReflTransGen (WritesBelow dir) fs fs') : Spared dir j fs' := by
  intro fs'' hwrites'
  rw [h fs'' (hwrites.trans hwrites'), h fs' hwrites]

/-- A node outside of a subtree without links is spared. -/
theorem spared_of_not_below {d : NodeId} (hne : dir.bytes ≠ []) (hfind : fs.find dir = .ok d)
    (hdir : fs.isDirectory d = true)
    (hlinks : ∀ {i target}, fs.Below d i → fs.node? i ≠ some (.link target))
    (hold : j < fs.nodes.size) (hout : ¬fs.Below d j) : Spared dir j fs := by
  intro fs' hwrites
  have hconfined : fs.Confined d (fun _ => True) fs' := by
    induction hwrites with
    | refl => exact .refl fs d _
    | tail _ hwrite ih =>
      obtain ⟨name, relative, content, hcheck, hbytes, rfl⟩ := hwrite
      obtain ⟨rfl, hstray⟩ := checkPath_eq_ok hcheck
      exact keeps_writeBelow hne hfind hdir hlinks hstray hbytes (fun _ => trivial) content ⟨_, []⟩ ih
  exact hconfined.outside hold hout

theorem writes_extract (dir : Path) (index : Nat) (e : Entry) (s : Session FileSystem) :
    Relation.ReflTransGen (WritesBelow dir) s.state ((extract dir index e).exec s).2.state := by
  cases hcheck : checkPath (unpackedName index e.name) with
  | error cause =>
    rw [exec_extract_refused dir hcheck]
  | ok relative =>
    have hbytes : relative.bytes ≠ [] := by
      rw [(checkPath_eq_ok hcheck).1]
      exact unpackedName_ne_nil index e.name
    refine .single ⟨_, relative, e.content, hcheck, hbytes, ?_⟩
    rw [exec_extract_accepted dir hcheck]
    rcases (writeBelow dir relative e.content).start s.state with ⟨cause | target, t⟩
    · rfl
    · rfl

theorem writes_extractList (dir : Path) (index : Nat) (es : List Entry) (s : Session FileSystem) :
    Relation.ReflTransGen (WritesBelow dir) s.state ((extractList dir index es).exec s).2.state := by
  induction es generalizing index s with
  | nil => exact .refl
  | cons e es ih =>
    have hfirst := writes_extract dir index e s
    rw [extractList, exec_bind]
    rcases hextract : (extract dir index e).exec s with ⟨cause | target, s₁⟩
    · rwa [hextract] at hfirst
    · rw [hextract] at hfirst
      have hrest := ih (index + 1) s₁
      dsimp only
      rw [exec_bind]
      rcases hlist : (extractList dir (index + 1) es).exec s₁ with ⟨cause | targets, s₂⟩
      · rw [hlist] at hrest
        exact hfirst.trans hrest
      · rw [hlist] at hrest
        exact hfirst.trans hrest

/-! ## What was extracted -/

/-- What is reported of entries that are unpacked, the first of which is entry `index`. -/
def extractEvents (dir : Path) : (index : Nat) → List Entry → List Event
  | _, [] => []
  | index, e :: es =>
    nameEvents index e.name ++ .unpacked index (unpackedName index e.name) e.size
      (dir.join (Path.ofString (unpackedName index e.name))) :: extractEvents dir (index + 1) es

/-- A file was written at the path, or a device was there. -/
def WrittenAt (fs : FileSystem) (p : Path) : Prop :=
  ∃ i, fs.find p = .ok i ∧ i < fs.nodes.size ∧ fs.isDirectory i = false

theorem WrittenAt.of_extends {p : Path} (h : WrittenAt fs p) (hgrown : fs.Extends fs') :
    WrittenAt fs' p := by
  obtain ⟨i, hfind, hlt, hnot⟩ := h
  refine ⟨i, hgrown.find hfind, Nat.lt_of_lt_of_le hlt hgrown.size_le, ?_⟩
  rw [← Bool.not_eq_true] at hnot ⊢
  exact fun hdir => hnot (hgrown.isDirectory_of_lt hlt hdir)

theorem extends_of_writes (h : Relation.ReflTransGen (WritesBelow dir) fs fs') : fs.Extends fs' := by
  induction h with
  | refl => exact .refl fs
  | tail _ hwrite ih =>
    obtain ⟨name, relative, content, -, -, rfl⟩ := hwrite
    exact ih.trans (extends_writeBelow dir relative content ⟨_, []⟩)

theorem extract_eq_ok {index : Nat} {e : Entry} {target : Path} {s' : Session FileSystem}
    (h : (extract dir index e).exec s = (.ok target, s')) :
    checkPath (unpackedName index e.name) = .ok (Path.ofString (unpackedName index e.name))
      ∧ target = dir.join (Path.ofString (unpackedName index e.name))
      ∧ s'.events = s.events ++ (nameEvents index e.name
          ++ [.unpacked index (unpackedName index e.name) e.size target])
      ∧ WrittenAt s'.state target := by
  cases hcheck : checkPath (unpackedName index e.name) with
  | error cause =>
    rw [exec_extract_refused dir hcheck] at h
    cases h
  | ok relative =>
    rw [exec_extract_accepted dir hcheck] at h
    rcases hwrite : (writeBelow dir relative e.content).start s.state with ⟨cause | target', t⟩
    · rw [hwrite] at h
      cases h
    · rw [hwrite] at h
      cases h
      obtain ⟨rfl, hwritten⟩ := find_of_writeBelow hwrite
      obtain ⟨rfl, -⟩ := checkPath_eq_ok hcheck
      exact ⟨rfl, rfl, List.append_assoc .., hwritten⟩

/-- If entries can be extracted, their names are accepted, each is reported with its path, and in the
end something was written at each of these paths. -/
theorem extractList_eq_ok {index : Nat} {es : List Entry} {files : List Path}
    {s' : Session FileSystem} (h : (extractList dir index es).exec s = (.ok files, s')) :
    files = (unpackedNames index es).map (fun name => dir.join (Path.ofString name))
      ∧ s'.events = s.events ++ extractEvents dir index es
      ∧ ∀ name ∈ unpackedNames index es, checkPath name = .ok (Path.ofString name)
          ∧ WrittenAt s'.state (dir.join (Path.ofString name)) := by
  induction es generalizing index s files with
  | nil =>
    cases h
    exact ⟨rfl, (List.append_nil _).symm, nofun⟩
  | cons e es ih =>
    rw [extractList] at h
    obtain ⟨target, s₁, hextract, h⟩ := exec_bind_eq_ok_iff.1 h
    obtain ⟨targets, s₂, hlist, h⟩ := exec_bind_eq_ok_iff.1 h
    cases h
    obtain ⟨hcheck, rfl, hevents, hwritten⟩ := extract_eq_ok hextract
    obtain ⟨rfl, hevents', hothers⟩ := ih hlist
    have hgrown := extends_of_writes (writes_extractList dir (index + 1) es s₁)
    rw [hlist] at hgrown
    refine ⟨rfl, ?_, List.forall_mem_cons.2 ⟨⟨hcheck, hwritten.of_extends hgrown⟩, hothers⟩⟩
    rw [hevents', hevents, extractEvents]
    simp

/-! ## From an open image -/

/-- What makes an extraction stop at entry `index`, and with which error: its bytes are damaged, or its
name is refused. -/
inductive Stops (index : Nat) : Bytes → Error → Prop where
  | damaged {bad : Bytes} {cause : FormatError} (damage : Damage bad cause) :
      Stops index bad (.format cause)
  | refused {r : Record} {cause : Error}
      (check : checkPath (unpackedName index r.name) = .error cause) (rest : Bytes) :
      Stops index (r.bytes ++ rest) cause

/-- An image holds as many records as are asked for, with names that are accepted, or it stops after
some such records. -/
theorem complete_or_stops (n : Nat) (bs : Bytes) (index : Nat) :
    (∃ (rs : List Record) (rest : Bytes), rs.length = n ∧ bs = rs.flatMap Record.bytes ++ rest
        ∧ NamesAccepted index (rs.map Record.entry)) ∨
      ∃ (rs : List Record) (bad : Bytes) (cause : Error), rs.length < n
        ∧ bs = rs.flatMap Record.bytes ++ bad ∧ Stops (index + rs.length) bad cause
        ∧ NamesAccepted index (rs.map Record.entry) := by
  induction n generalizing bs index with
  | zero => exact .inl ⟨[], bs, rfl, rfl, nofun⟩
  | succ n ih =>
    rcases record_or_damage bs with ⟨r, rest, rfl⟩ | ⟨cause, hdamage⟩
    · cases hcheck : checkPath (unpackedName index r.name) with
      | error cause => exact .inr ⟨[], _, cause, Nat.succ_pos n, rfl, .refused hcheck rest, nofun⟩
      | ok relative =>
        rcases ih rest (index + 1) with ⟨rs, tail, hlen, rfl, hnames⟩ |
          ⟨rs, bad, cause, hlen, rfl, hstops, hnames⟩
        · exact .inl ⟨r :: rs, tail, by simpa using hlen, by simp,
            List.forall_mem_cons.2 ⟨⟨relative, hcheck⟩, hnames⟩⟩
        · rw [Nat.add_assoc, Nat.add_comm 1] at hstops
          exact .inr ⟨r :: rs, bad, cause, by simpa using hlen, by simp, hstops,
            List.forall_mem_cons.2 ⟨⟨relative, hcheck⟩, hnames⟩⟩
    · exact .inr ⟨[], bs, _, Nat.succ_pos n, rfl, .damaged hdamage, nofun⟩

namespace ImageFile.Stands

variable {opened : ImageFile} {header : Header} {decoded : Nat}

/-- Extracting from an image is extracting the records that come first, and going on from where the
image stands then. -/
theorem exec_extractAll (hspared : Spared dir j s.state) (rs : List Record) (rest : Bytes) (m : Nat)
    (h : Stands s.state j opened header decoded (rs.flatMap Record.bytes ++ rest))
    (hcount : decoded + (rs.length + m) ≤ header.count) :
    ∃ opened', (extractAll dir (rs.length + m) opened).exec s = (do
          let targets ← extractList dir (decoded + 1) (rs.map Record.entry)
          let (targets', last) ← extractAll dir m opened'
          return (targets ++ targets', last) : Task FileSystem (List Path × ImageFile)).exec s
      ∧ ∀ targets s', (extractList dir (decoded + 1) (rs.map Record.entry)).exec s =
          (.ok targets, s') →
        Spared dir j s'.state ∧ Stands s'.state j opened' header (decoded + rs.length) rest := by
  induction rs generalizing opened decoded s with
  | nil =>
    refine ⟨opened, ?_, ?_⟩
    · rw [List.length_nil, Nat.zero_add, List.map_nil, extractList, pure_bind]
      simp only [List.nil_append, Prod.mk.eta, bind_pure]
    · rintro targets s' ⟨⟩
      exact ⟨hspared, h⟩
  | cons r rs ih =>
    rw [List.flatMap_cons, List.append_assoc] at h
    rw [List.length_cons] at hcount
    obtain ⟨opened₁, hnext, hstands₁⟩ := h.next_record (by omega)
    have hlen : (r :: rs).length + m = rs.length + m + 1 := by
      rw [List.length_cons]
      omega
    have hwrites := writes_extract dir (decoded + 1) r.entry s
    rw [hlen, extractAll, exec_bind_ok (exec_fromImage_ok hnext), List.map_cons, extractList]
    dsimp only
    rcases hextract : (extract dir (decoded + 1) r.entry).exec s with ⟨e | target, s₁⟩
    · refine ⟨opened₁, ?_, ?_⟩
      · rw [exec_bind_error hextract, exec_bind_error (exec_bind_error hextract)]
      · intro targets s' hlist
        rw [exec_bind_error hextract] at hlist
        cases hlist
    · rw [hextract] at hwrites
      -- The write spared the image, so what is to be read next is what it was.
      have hstands := hstands₁.of_content_eq (content_of_node?_eq (hspared s₁.state hwrites))
      obtain ⟨opened', hall, hafter⟩ := ih (hspared.of_writes hwrites) hstands (by omega)
      refine ⟨opened', ?_, ?_⟩
      · rw [bind_assoc, exec_bind_ok hextract, exec_bind_ok hextract, exec_bind, hall, ← exec_bind]
        simp only [bind_assoc, pure_bind, List.cons_append]
      · intro targets s' hlist
        rw [exec_bind_ok hextract] at hlist
        obtain ⟨targets', s₂, hrest, hpure⟩ := exec_bind_eq_ok_iff.1 hlist
        cases hpure
        obtain ⟨hspared', hstands'⟩ := hafter targets' s' hrest
        refine ⟨hspared', ?_⟩
        rwa [List.length_cons, Nat.add_comm rs.length, ← Nat.add_assoc]

/-- Where the bytes stop an extraction it ends with the error of the next entry. -/
theorem exec_extractAll_stops (dir : Path) {bad : Bytes} {cause : Error} (m : Nat)
    (h : Stands s.state j opened header decoded bad) (hmore : decoded < header.count)
    (hstops : Stops (decoded + 1) bad cause) :
    (extractAll dir (m + 1) opened).exec s = (.error (.entry (decoded + 1) cause), s) := by
  rw [extractAll]
  cases hstops with
  | damaged hdamage =>
    obtain ⟨opened', hnext⟩ := h.next_damage hmore hdamage
    refine exec_bind_error ?_
    rw [fromImage, exec_ofFn, hnext]
  | @refused r cause hcheck rest =>
    obtain ⟨opened', hnext, -⟩ := h.next_record hmore
    rw [exec_bind_ok (exec_fromImage_ok hnext)]
    exact exec_bind_error (exec_extract_refused (e := r.entry) dir hcheck s)

end ImageFile.Stands

/-! ## From a file -/

section File

variable {n : UInt8} {rs : List Record} (himage : fs.find image = .ok j)
  (hspared : Spared dir j (prepared fs dir))

/-- An image that cannot be opened is not unpacked. -/
theorem start_unpack_of_ofPath_error {e : Error} (h : ImageFile.ofPath fs image = .error e)
    (dir : Path) : (unpack image dir).start fs = (.error e, ⟨fs, []⟩) := by
  have hopen : (liftM (ImageFile.ofPath fs image) : Task FileSystem ImageFile).exec ⟨fs, []⟩ =
      (.error e, ⟨fs, []⟩) := by
    rw [exec_liftM, h]
  rw [Task.start, unpack, exec_bind_ok (exec_get _), exec_bind_error hopen]

include himage in
/-- Unpacking opens the image, prepares the directory and extracts what the image announces. -/
theorem exec_unpack_of_node? (dir : Path) {bs : Bytes}
    (hnode : fs.node? j = some (.file (n :: bs))) :
    ∃ opened, ImageFile.Stands (prepared fs dir) j opened ⟨n⟩ 0 bs
      ∧ (unpack image dir).start fs = (do
          prepareDirectory dir
          if (⟨n⟩ : Header).isEmpty then Task.report .emptyImage
          let (files, last) ← extractAll dir n.toNat opened
          let (trailing, _) ← fromImage ImageFile.trailing last
          if trailing > 0 then Task.report (.trailingData trailing)
          return ⟨files, trailing⟩ : Task FileSystem Unpacked).start fs := by
  have hfile := isFile_iff.2 ⟨_, hnode⟩
  obtain ⟨opened, hopen, -, hstands⟩ :=
    ImageFile.ofPath_of_content_cons himage hfile (by rw [content, hnode])
  refine ⟨opened, hstands.of_content_eq (content_of_node?_eq (node?_prepared hfile dir)), ?_⟩
  have hremaining : opened.reader.remaining = n.toNat := hstands.remaining
  rw [Task.start, unpack, exec_bind_ok (exec_get _),
    exec_bind_ok (exec_liftM_eq_ok_iff.2 ⟨hopen, rfl⟩), hremaining, hstands.header]
  rfl

include himage hspared in
/-- An image that holds all records that it announces is unpacked completely. -/
theorem exec_unpack_complete {rest : Bytes}
    (hnode : fs.node? j = some (.file (n :: (rs.flatMap Record.bytes ++ rest))))
    (hcount : rs.length = n.toNat) :
    (unpack image dir).start fs =
      (unpackEntries dir (rs.map Record.entry) rest.length).start fs := by
  obtain ⟨opened, hstands, hunpack⟩ := exec_unpack_of_node? himage dir hnode
  rw [hunpack, unpackEntries]
  refine exec_bind_congr fun _ s hprepare => ?_
  have hstate : s.state = prepared fs dir := by
    rw [prepared, Task.start, hprepare]
  rw [← hstate] at hspared hstands
  have hempty : (⟨n⟩ : Header).isEmpty = (rs.map Record.entry).isEmpty := by
    rw [Bool.eq_iff_iff, List.isEmpty_iff, List.map_eq_nil_iff, ← List.length_eq_zero_iff, hcount,
      Header.isEmpty, beq_iff_eq]
    exact UInt8.toNat_inj.symm
  dsimp only
  rw [Task.exec_report_if, Task.exec_report_if, hempty]
  generalize s.events ++ (if (rs.map Record.entry).isEmpty = true then [Event.emptyImage] else []) =
    events
  obtain ⟨last, hall, hafter⟩ := hstands.exec_extractAll (s := ⟨s.state, events⟩) hspared rs rest 0
    (by rw [Nat.zero_add, Nat.add_zero, hcount]; rfl)
  rw [Nat.add_zero, hcount, Nat.zero_add] at hall
  rw [Nat.zero_add] at hafter
  rw [exec_bind, hall, ← exec_bind]
  simp only [extractAll, bind_assoc, pure_bind, List.append_nil]
  refine exec_bind_congr fun files t hlist => ?_
  obtain ⟨-, hend⟩ := hafter files t hlist
  obtain ⟨last', htrailing⟩ := hend.trailing
  rw [exec_bind_ok (exec_fromImage_ok htrailing)]

include himage hspared in
/-- An image that stops after some records is unpacked up to there. -/
theorem exec_unpack_stops {bad : Bytes} {cause : Error}
    (hnode : fs.node? j = some (.file (n :: (rs.flatMap Record.bytes ++ bad))))
    (hcount : rs.length < n.toNat) (hstops : Stops (rs.length + 1) bad cause) :
    (unpack image dir).start fs =
      (unpackUntil dir (rs.map Record.entry) (.entry (rs.length + 1) cause)).start fs := by
  obtain ⟨opened, hstands, hunpack⟩ := exec_unpack_of_node? himage dir hnode
  rw [hunpack, unpackUntil]
  refine exec_bind_congr fun _ s hprepare => ?_
  have hstate : s.state = prepared fs dir := by
    rw [prepared, Task.start, hprepare]
  rw [← hstate] at hspared hstands
  have hmore : (⟨n⟩ : Header).isEmpty = false := by
    rw [Header.isEmpty, beq_eq_false_iff_ne]
    rintro rfl
    exact Nat.not_lt_zero _ hcount
  obtain ⟨m, hm⟩ := Nat.exists_eq_add_of_lt hcount
  obtain ⟨last, hall, hafter⟩ := hstands.exec_extractAll hspared rs bad (m + 1)
    (by rw [Nat.zero_add, ← Nat.add_assoc, ← hm]; rfl)
  rw [← Nat.add_assoc, ← hm, Nat.zero_add] at hall
  rw [Nat.zero_add] at hafter
  dsimp only
  rw [if_neg (by rw [hmore]; exact Bool.false_ne_true), exec_bind, hall, ← exec_bind, bind_assoc]
  refine exec_bind_congr fun files t hlist => ?_
  obtain ⟨-, hend⟩ := hafter files t hlist
  have hstop := hend.exec_extractAll_stops dir m (by rw [Nat.zero_add]; exact hcount)
    (by rw [Nat.zero_add]; exact hstops)
  rw [Nat.zero_add] at hstop
  rw [bind_assoc, exec_bind_error hstop]
  rfl

end File

end FlatArchive
