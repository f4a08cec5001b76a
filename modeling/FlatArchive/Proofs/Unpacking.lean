-- SUMMARY: What the parts of unpacking do: names, steps of the image, and the output directory.
import FlatArchive.FileSystem.Change
import FlatArchive.Proofs.ImageFile
import FlatArchive.Proofs.Keeping
import FlatArchive.Proofs.Operations
import FlatArchive.Proofs.Utf8
import FlatArchive.Unpack

/-!
# Parts of unpacking

An entry with an empty name gets a generated one, and its name is refused unless it is a path of
ordinary names. A step of the image leaves the files as they are. The output directory is there, or
it is made with its parents.
-/

namespace FlatArchive

open Attempt FileSystem

/-! ## Names -/

/-- The name under which an entry is unpacked, with the generated one in place of an empty one. -/
def unpackedName (index : Nat) (name : String) : String :=
  if name.isEmpty then generatedName index else name

/-- What is reported of the name of an entry: that it was generated. -/
def nameEvents (index : Nat) (name : String) : List Event :=
  if name.isEmpty then [.generatedName index (generatedName index)] else []

theorem exec_fileName (index : Nat) (name : String) (s : Session FileSystem) :
    (fileName index name).exec s =
      (.ok (unpackedName index name), ⟨s.state, s.events ++ nameEvents index name⟩) := by
  unfold fileName unpackedName nameEvents
  split_ifs
  · rfl
  · rw [List.append_nil]
    rfl

theorem unpackedName_ne_nil (index : Nat) (name : String) :
    (Path.ofString (unpackedName index name)).bytes ≠ [] := by
  intro h
  have hname : unpackedName index name = "" := Text.Utf8.encode_injective h
  unfold unpackedName at hname
  split_ifs at hname with hempty
  · have hlen := congrArg String.length hname
    simp [generatedName] at hlen
  · exact hempty (by simp [hname])

theorem checkPath_eq_ok {name : String} {path : Path} (h : checkPath name = .ok path) :
    path = Path.ofString name ∧ path.stray? = none := by
  unfold checkPath at h
  dsimp only at h
  split at h
  · next hstray =>
    cases h
    exact ⟨rfl, hstray⟩
  · cases h

theorem checkPath_eq_error {name : String} {cause : Error} (h : checkPath name = .error cause) :
    ∃ component, cause = .invalidPath (Path.ofString name) component := by
  unfold checkPath at h
  dsimp only at h
  split at h
  · cases h
  · next component hstray =>
    cases h
    exact ⟨component.toPath, rfl⟩

open Text.Utf8 in
/-- The characters of a generated name are printable and no slashes, and are written as they are. -/
theorem encode_generatedName (index : Nat) :
    encode (generatedName index) =
        (("file_".toList ++ Nat.toDigits 10 index) ++ ".bin".toList).map
          (fun c => UInt8.ofNat c.toNat)
      ∧ ∀ b ∈ encode (generatedName index), 0x20 < b.toNat ∧ b.toNat ≠ 0x2F := by
  have hchars : (generatedName index).toList =
      ("file_".toList ++ Nat.toDigits 10 index) ++ ".bin".toList := by
    simp [generatedName, toString, Nat.repr]
  have hfixed : ∀ c ∈ "file_".toList ++ ".bin".toList,
      0x20 < c.toNat ∧ c.toNat ≤ 0x7F ∧ c.toNat ≠ 0x2F := by simp
  have hplain : ∀ c ∈ (generatedName index).toList,
      0x20 < c.toNat ∧ c.toNat ≤ 0x7F ∧ c.toNat ≠ 0x2F := by
    intro c hc
    rw [hchars, List.mem_append, List.mem_append] at hc
    rcases hc with (hfront | hdigit) | hback
    · exact hfixed c (List.mem_append_left _ hfront)
    · have hrange := Nat.isDigit_of_mem_toDigits (by decide) (by decide) hdigit
      have hvalue : 48 ≤ c.toNat ∧ c.toNat ≤ 57 := by
        simpa [Char.isDigit, UInt32.le_iff_toNat_le] using hrange
      omega
    · exact hfixed c (List.mem_append_right _ hback)
  have hbytes := encodeList_of_ascii fun c hc => (hplain c hc).2.1
  rw [encode, hbytes]
  refine ⟨by rw [hchars], ?_⟩
  intro b hb
  obtain ⟨c, hc, rfl⟩ := List.mem_map.1 hb
  obtain ⟨hlow, hhigh, hslash⟩ := hplain c hc
  have hvalue := toNat_byte (n := c.toNat) (by omega)
  omega

open Text.Utf8 in
/-- A generated name is the name of a file. -/
theorem checkPath_generatedName (index : Nat) :
    checkPath (generatedName index) = .ok (Path.ofString (generatedName index)) := by
  obtain ⟨hbytes, hplain⟩ := encode_generatedName index
  have hslash : Path.slash ∉ encode (generatedName index) := fun hmem => (hplain _ hmem).2 rfl
  have hsegment : Step.ofSegment (encode (generatedName index)) =
      some (.down (encode (generatedName index))) := by
    rw [hbytes]
    simp [Step.ofSegment, Path.dot]
  have hstray := Path.stray?_of_ofSegment hslash hsegment
  rw [checkPath, Path.ofString, hstray]

/-! ## Steps of the image -/

theorem keeps_fromImage {α : Type} {P : Session FileSystem → Prop}
    (step : FileSystem → Attempt ImageFile Error α) (image : ImageFile) :
    Keeps P (fromImage step image) := by
  intro s hs
  rw [fromImage, exec_ofFn]
  split <;> exact hs

theorem exec_fromImage_ok {α : Type} {step : FileSystem → Attempt ImageFile Error α}
    {image image' : ImageFile} {a : α} {s : Session FileSystem}
    (h : (step s.state).exec image = (.ok a, image')) :
    (fromImage step image).exec s = (.ok (a, image'), s) := by
  rw [fromImage, exec_ofFn, h]

/-! ## The output directory -/

/-- The output directory is there, or is made, or it is an error and at most directories were made. -/
theorem prepareDirectory_cases (dir : Path) (s : Session FileSystem) :
    (∃ d, s.state.find dir = .ok d ∧ s.state.isDirectory d = true
        ∧ (prepareDirectory dir).exec s = (.ok (), s))
      ∨ (s.state.find dir = .error (.os .noEntry) ∧ ∃ made, makeDirs dir s.state = (.ok (), made)
        ∧ (prepareDirectory dir).exec s = (.ok (), ⟨made, s.events ++ [.createdDir dir]⟩))
      ∨ ∃ e s', (prepareDirectory dir).exec s = (.error e, s') ∧ s.state.AddsDirectories s'.state
        ∧ (s.state.isDirectoryAt dir = true → s'.state = s.state) := by
  unfold prepareDirectory
  rw [exec_bind_ok (exec_get s)]
  dsimp only
  cases hfind : s.state.find dir with
  | ok d =>
    cases hdir : s.state.isDirectory d with
    | true => exact .inl ⟨d, rfl, hdir, by simp [hdir]⟩
    | false => exact .inr (.inr ⟨.notADirectory dir, s, by simp [hdir], .refl _, fun _ => rfl⟩)
  | error e =>
    have hat : s.state.isDirectoryAt dir = false := by rw [isDirectoryAt, hfind]
    dsimp only
    by_cases hmissing : e.isNotFound = true
    · rw [if_pos hmissing]
      rcases hmake : makeDirs dir s.state with ⟨e' | ⟨⟩, made⟩
      · have hadds := AddsDirectories.makeDirs dir s.state
        rw [hmake] at hadds
        refine .inr (.inr ⟨.io "Create output directory" (some dir) e', ⟨made, s.events⟩, ?_, hadds,
          fun h => absurd h (by simp [hat])⟩)
        refine exec_bind_error ?_
        rw [Task.exec_io, createDirAll, exec_ofFn, hmake]
        rfl
      · refine .inr (.inl ⟨by rw [isNotFound_iff.1 hmissing], made, rfl, ?_⟩)
        rw [exec_bind_ok (Task.exec_io_ok _ (by rw [createDirAll, exec_ofFn, hmake]))]
        rfl
    · rw [if_neg hmissing]
      exact .inr (.inr ⟨_, s, rfl, .refl _, fun _ => rfl⟩)

theorem prepareDirectory_error {dir : Path} {e : Error} {s s' : Session FileSystem}
    (h : (prepareDirectory dir).exec s = (.error e, s')) :
    e = .notADirectory dir ∨ ∃ context cause, e = .io context (some dir) cause := by
  unfold prepareDirectory at h
  rw [exec_bind_ok (exec_get s)] at h
  dsimp only at h
  cases hfind : s.state.find dir with
  | ok d =>
    rw [hfind] at h
    dsimp only at h
    split_ifs at h
    · cases h
    · cases h
      exact .inl rfl
  | error cause =>
    rw [hfind] at h
    dsimp only at h
    split_ifs at h
    · rcases hmake : (createDirAll dir).exec s.state with ⟨cause' | ⟨⟩, made⟩
      · have hfailed : (Task.io (.io "Create output directory" (some dir)) (createDirAll dir)).exec s =
            (.error (.io "Create output directory" (some dir) cause'), ⟨made, s.events⟩) := by
          rw [Task.exec_io, hmake]
          rfl
        rw [exec_bind_error hfailed] at h
        cases h
        exact .inr ⟨_, _, rfl⟩
      · rw [exec_bind_ok (Task.exec_io_ok _ hmake), Task.exec_report] at h
        cases h
    · cases h
      exact .inr ⟨_, _, rfl⟩

/-- The files once the output directory is there, as far as it could be made. -/
def prepared (fs : FileSystem) (dir : Path) : FileSystem :=
  ((prepareDirectory dir).start fs).2.state

theorem addsDirectories_prepared (fs : FileSystem) (dir : Path) :
    fs.AddsDirectories (prepared fs dir) := by
  unfold prepared Task.start
  rcases prepareDirectory_cases dir ⟨fs, []⟩ with ⟨d, -, -, hexec⟩ | ⟨-, made, hmake, hexec⟩ |
    ⟨e, s', hexec, hadds, -⟩
  · rw [hexec]
    exact .refl fs
  · have hadds := AddsDirectories.makeDirs dir fs
    rw [hmake] at hadds
    rw [hexec]
    exact hadds
  · rwa [hexec]

/-- Preparing the directory leaves every file as it is. -/
theorem node?_prepared {fs : FileSystem} {i : NodeId} (hfile : fs.isFile i = true) (dir : Path) :
    (prepared fs dir).node? i = fs.node? i :=
  (addsDirectories_prepared fs dir).kept (lt_size_of_isFile hfile)
    (isDirectory_eq_false_of_isFile hfile)

/-- Making the directories that a file needs only adds directories. -/
theorem addsDirectories_makeParents (fs : FileSystem) (p : Path) :
    fs.AddsDirectories ((Change.makeParents p).exec fs).2 := by
  unfold Change.makeParents
  cases p.parent with
  | none => exact .refl fs
  | some parent => exact .makeDirs parent fs

/-! ## Single entries -/

section Entry

variable {dir relative : Path} {index : Nat} {e : Entry} {cause : Error}

/-- A file is written once the directories that it needs are there. Nothing is reported. -/
theorem exec_writeBelow_eq (dir relative : Path) (content : Bytes) (s : Session FileSystem) :
    (writeBelow dir relative content).exec s =
      match (Change.makeParents (dir.join relative)).exec s.state with
      | (.error e, fs) =>
        (.error (.io "Create directory" (dir.join relative).parent e), ⟨fs, s.events⟩)
      | (.ok (), fs) =>
        match (FileSystem.writeFile (dir.join relative) content).exec fs with
        | (.error e, fs) => (.error (.io "Write file" (some (dir.join relative)) e), ⟨fs, s.events⟩)
        | (.ok (), fs) => (.ok (dir.join relative), ⟨fs, s.events⟩) := by
  have hwrite : ∀ s : Session FileSystem, (do
      Task.io (.io "Write file" (some (dir.join relative)))
        (FileSystem.writeFile (dir.join relative) content)
      return dir.join relative : Task FileSystem Path).exec s =
        match (FileSystem.writeFile (dir.join relative) content).exec s.state with
        | (.error e, fs) => (.error (.io "Write file" (some (dir.join relative)) e), ⟨fs, s.events⟩)
        | (.ok (), fs) => (.ok (dir.join relative), ⟨fs, s.events⟩) := by
    intro s
    rw [exec_bind, Task.exec_io]
    rcases (FileSystem.writeFile (dir.join relative) content).exec s.state with ⟨e | ⟨⟩, fs⟩
    · rfl
    · rfl
  unfold writeBelow Change.makeParents
  cases hparent : (dir.join relative).parent with
  | none =>
    simp only [hparent]
    exact hwrite s
  | some parent =>
    simp only [hparent]
    rw [exec_bind, Task.exec_io]
    rcases (createDirAll parent).exec s.state with ⟨e | ⟨⟩, fs⟩
    · rfl
    · exact hwrite ⟨fs, s.events⟩

/-- What is written does not depend on what was reported. -/
theorem start_writeBelow (dir relative : Path) (content : Bytes) (s : Session FileSystem) :
    (writeBelow dir relative content).start s.state =
      (((writeBelow dir relative content).exec s).1,
        ⟨((writeBelow dir relative content).exec s).2.state, []⟩) := by
  rw [Task.start, exec_writeBelow_eq, exec_writeBelow_eq]
  dsimp only
  rcases (Change.makeParents (dir.join relative)).exec s.state with ⟨e | ⟨⟩, fs⟩
  · rfl
  · dsimp only
    rcases (FileSystem.writeFile (dir.join relative) content).exec fs with ⟨e | ⟨⟩, fs⟩
    · rfl
    · rfl

theorem events_writeBelow (dir relative : Path) (content : Bytes) (s : Session FileSystem) :
    ((writeBelow dir relative content).exec s).2.events = s.events := by
  rw [exec_writeBelow_eq]
  rcases (Change.makeParents (dir.join relative)).exec s.state with ⟨e | ⟨⟩, fs⟩
  · rfl
  · dsimp only
    rcases (FileSystem.writeFile (dir.join relative) content).exec fs with ⟨e | ⟨⟩, fs⟩
    · rfl
    · rfl

theorem extends_writeBelow (dir relative : Path) (content : Bytes) (s : Session FileSystem) :
    s.state.Extends ((writeBelow dir relative content).exec s).2.state := by
  have hparents := addsDirectories_makeParents s.state (dir.join relative)
  rw [exec_writeBelow_eq]
  rcases hmade : (Change.makeParents (dir.join relative)).exec s.state with ⟨e | ⟨⟩, fs⟩
  · rw [hmade] at hparents
    exact hparents.toExtends
  · rw [hmade] at hparents
    have hwritten := extends_writeFile fs (dir.join relative) content
    dsimp only
    rcases hwrite : (FileSystem.writeFile (dir.join relative) content).exec fs with ⟨e | ⟨⟩, fs'⟩
    · rw [hwrite] at hwritten
      exact hparents.toExtends.trans hwritten
    · rw [hwrite] at hwritten
      exact hparents.toExtends.trans hwritten

/-- Where a file was written, the path leads to what is no directory. -/
theorem find_of_writeBelow {content : Bytes} {target : Path} {s s' : Session FileSystem}
    (h : (writeBelow dir relative content).exec s = (.ok target, s')) :
    target = dir.join relative ∧ ∃ i, s'.state.find (dir.join relative) = .ok i
      ∧ i < s'.state.nodes.size ∧ s'.state.isDirectory i = false := by
  rw [exec_writeBelow_eq] at h
  split at h
  · cases h
  · split at h
    · cases h
    · next hwrite =>
      cases h
      exact ⟨rfl, find_of_writeFile hwrite⟩

theorem writeBelow_error {content : Bytes} {s s' : Session FileSystem}
    (h : (writeBelow dir relative content).exec s = (.error cause, s')) :
    ∃ context path fault, cause = .io context path fault := by
  rw [exec_writeBelow_eq] at h
  split at h
  · cases h
    exact ⟨_, _, _, rfl⟩
  · split at h
    · cases h
      exact ⟨_, _, _, rfl⟩
    · cases h

/-- An entry whose name is refused writes nothing and reports nothing. -/
theorem exec_extract_refused (dir : Path) (h : checkPath (unpackedName index e.name) = .error cause)
    (s : Session FileSystem) : (extract dir index e).exec s = (.error (.entry index cause), s) := by
  have hevents : nameEvents index e.name = [] := by
    unfold nameEvents unpackedName at *
    split_ifs at *
    · rw [checkPath_generatedName] at h
      cases h
    · rfl
  have hname := exec_fileName index e.name s
  rw [hevents, List.append_nil] at hname
  rw [extract, exec_bind_ok hname]
  refine exec_bind_error ?_
  obtain ⟨component, rfl⟩ := checkPath_eq_error h
  rw [Task.atEntry, exec_mapError, exec_bind, exec_liftM, h]
  rfl

/-- An entry whose name is accepted is written, and reported if that succeeds. -/
theorem exec_extract_accepted (dir : Path)
    (h : checkPath (unpackedName index e.name) = .ok relative) (s : Session FileSystem) :
    (extract dir index e).exec s =
      match (writeBelow dir relative e.content).start s.state with
      | (.error cause, t) =>
        (.error (cause.atEntry index), ⟨t.state, s.events ++ nameEvents index e.name⟩)
      | (.ok target, t) =>
        (.ok target, ⟨t.state, s.events ++ nameEvents index e.name
          ++ [.unpacked index (unpackedName index e.name) e.size target]⟩) := by
  rw [extract, exec_bind_ok (exec_fileName index e.name s), exec_bind, Task.atEntry, exec_mapError,
    exec_bind, exec_liftM, h]
  dsimp only
  have hevents := events_writeBelow dir relative e.content
    ⟨s.state, s.events ++ nameEvents index e.name⟩
  rw [start_writeBelow dir relative e.content ⟨s.state, s.events ++ nameEvents index e.name⟩]
  rcases hwrite : (writeBelow dir relative e.content).exec
      ⟨s.state, s.events ++ nameEvents index e.name⟩ with ⟨cause | target, t⟩
  · rw [hwrite] at hevents
    dsimp only at hevents ⊢
    rw [← hevents]
    rfl
  · rw [hwrite] at hevents
    dsimp only at hevents ⊢
    rw [← hevents]
    rfl

theorem extract_error {s s' : Session FileSystem}
    (hcheck : checkPath (unpackedName index e.name) = .ok relative)
    (h : (extract dir index e).exec s = (.error cause, s')) :
    ∃ context path fault, cause = .entry index (.io context path fault) := by
  rw [exec_extract_accepted dir hcheck] at h
  rcases hwrite : (writeBelow dir relative e.content).start s.state with ⟨cause' | target, t⟩
  · rw [hwrite] at h
    obtain ⟨context, path, fault, rfl⟩ := writeBelow_error hwrite
    cases h
    exact ⟨context, path, fault, rfl⟩
  · rw [hwrite] at h
    cases h

end Entry

/-! ## Unpacking that succeeds -/

section Success

variable {dir path target : Path} {targets : List Path} {n index : Nat} {e : Entry}
  {image image₁ image₂ : ImageFile} {s s₁ s₂ : Session FileSystem}

theorem exec_extractAll_succ
    (hnext : (ImageFile.next s.state).exec image = (.ok (some (index, e)), image₁))
    (hextract : (extract dir index e).exec s = (.ok target, s₁))
    (hrest : (extractAll dir n image₁).exec s₁ = (.ok (targets, image₂), s₂)) :
    (extractAll dir (n + 1) image).exec s = (.ok (target :: targets, image₂), s₂) := by
  rw [extractAll, exec_bind_ok (exec_fromImage_ok hnext)]
  dsimp only
  rw [exec_bind_ok hextract, exec_bind_ok hrest, exec_pure]

/-- Unpacking an image with entries and nothing behind them. -/
theorem exec_unpack (hopen : ImageFile.ofPath s.state path = .ok image)
    (hprepare : (prepareDirectory dir).exec s = (.ok (), s₁))
    (hheader : image.reader.header.isEmpty = false)
    (hextract : (extractAll dir image.reader.remaining image).exec s₁ = (.ok (targets, image₁), s₂))
    (htrailing : (ImageFile.trailing s₂.state).exec image₁ = (.ok 0, image₂)) :
    (unpack path dir).exec s = (.ok ⟨targets, 0⟩, s₂) := by
  rw [unpack, exec_bind_ok (exec_get s), exec_bind_ok (exec_liftM_eq_ok_iff.2 ⟨hopen, rfl⟩),
    exec_bind_ok hprepare]
  dsimp only
  rw [if_neg (by simp [hheader]), exec_bind_ok hextract]
  dsimp only
  rw [exec_bind_ok (exec_fromImage_ok htrailing)]
  rfl

/-- Unpacking an image with one entry, whose file is not the image. -/
theorem exec_unpack_single {j : NodeId} (hlen : (Text.Utf8.encode e.name).length ≤ Name.maxLength)
    (hzero : 0 ∉ Text.Utf8.encode e.name) (hsize : e.content.length < 2 ^ 64)
    (hfind : s.state.find path = .ok j) (hnode : s.state.node? j = some (.file (1 :: e.encode)))
    (hprepare : (prepareDirectory dir).exec s = (.ok (), s₁))
    (hkept : s₁.state.node? j = s.state.node? j)
    (hextract : (extract dir 1 e).exec s₁ = (.ok target, s₂))
    (hkept' : s₂.state.node? j = s₁.state.node? j) :
    (unpack path dir).exec s = (.ok ⟨[target], 0⟩, s₂) := by
  have hcontent : s.state.content j = 1 :: e.encode := by rw [content, hnode]
  obtain ⟨opened, hopen, -, hstands⟩ :=
    ImageFile.ofPath_of_content_cons hfind (isFile_iff.2 ⟨_, hnode⟩) hcontent
  have hstands₁ := hstands.of_content_eq (content_of_node?_eq hkept)
  rw [← Record.bytes_ofEntry hlen hzero hsize, ← List.append_nil (Record.bytes _)] at hstands₁
  obtain ⟨image₁, hnext, hend⟩ := hstands₁.next_record (by decide)
  obtain ⟨image₂, htrailing⟩ := (hend.of_content_eq (content_of_node?_eq hkept')).trailing
  have hheader : opened.reader.header.isEmpty = false := by
    rw [hstands.header]
    rfl
  have hremaining : opened.reader.remaining = 0 + 1 := by
    rw [hstands.remaining]
    rfl
  have hall : (extractAll dir opened.reader.remaining opened).exec s₁ =
      (.ok ([target], image₁), s₂) := by
    rw [hremaining]
    exact exec_extractAll_succ hnext hextract rfl
  exact exec_unpack hopen hprepare hheader hall htrailing

end Success

end FlatArchive
