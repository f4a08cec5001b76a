-- SUMMARY: An entry that is damaged or has a refused name ends the unpacking as if the image had ended before it.
import FlatArchive.Proofs.Contents

/-!
# Failing fast

An entry is read completely, and its name is checked, before anything is made for it. So a run that
fails because of the bytes or the name of an entry leaves the files and the reports that unpacking the
entries before it would: those of the image that counts these entries only and ends behind them.

The two runs read different images, so they are compared through the programs that no longer mention
the image (`Extraction`), and these do the same on states that differ only in what the image holds
(`Contents`).
-/

namespace FlatArchive

open Attempt FileSystem

variable {fs : FileSystem} {dir image : Path} {j : NodeId} {entries : List Entry} {e : Error}
  {s s' : Session FileSystem}

/-! ## Errors -/

/-- The error is about the bytes of an entry, or about its name. -/
inductive Error.TellsOfImage : Error → Prop where
  | format (cause : FormatError) : TellsOfImage (.format cause)
  | invalidPath (entry component : Path) : TellsOfImage (.invalidPath entry component)

theorem Stops.tellsOfImage {index : Nat} {bad : Bytes} (h : Stops index bad e) : e.TellsOfImage := by
  cases h with
  | damaged => exact .format _
  | refused hcheck =>
    obtain ⟨component, rfl⟩ := checkPath_eq_error hcheck
    exact .invalidPath _ _

/-- With names that are accepted, only input and output can fail, and the error is that of one of the
entries. -/
theorem extractList_error {index : Nat} (hnames : NamesAccepted index entries)
    (h : (extractList dir index entries).exec s = (.error e, s')) :
    ∃ k context path cause, e = .entry k (.io context path cause) ∧ k < index + entries.length := by
  induction entries generalizing index s with
  | nil => cases h
  | cons entry entries ih =>
    obtain ⟨⟨relative, hcheck⟩, hrest⟩ := List.forall_mem_cons.1 hnames
    rw [List.length_cons]
    rcases hextract : (extract dir index entry).exec s with ⟨e' | target, s₁⟩
    · rw [extractList, exec_bind_error hextract] at h
      cases h
      obtain ⟨context, path, fault, rfl⟩ := extract_error hcheck hextract
      exact ⟨_, _, _, _, rfl, by omega⟩
    · rw [extractList, exec_bind_ok hextract] at h
      rcases hlist : (extractList dir (index + 1) entries).exec s₁ with ⟨e' | targets, s₂⟩
      · rw [exec_bind_error hlist] at h
        cases h
        obtain ⟨k, context, path, cause, heq, hk⟩ := ih hrest hlist
        exact ⟨k, context, path, cause, heq, by omega⟩
      · rw [exec_bind_ok hlist] at h
        cases h

/-- Only the preparation of the directory, and input and output, can fail. -/
theorem extractInto_error (hnames : NamesAccepted 1 entries)
    (h : (extractInto dir entries).exec s = (.error e, s')) {k : Nat} {cause : Error}
    (he : e = .entry k cause) : ¬cause.TellsOfImage := by
  subst he
  intro htells
  rw [extractInto] at h
  rcases hprepare : (prepareDirectory dir).exec s with ⟨e | ⟨⟩, s₁⟩
  · rw [exec_bind_error hprepare] at h
    cases h
    rcases prepareDirectory_error hprepare with heq | ⟨context, fault, heq⟩
    · cases heq
    · cases heq
  · rw [exec_bind_ok hprepare] at h
    obtain ⟨k', context, path, fault, heq, -⟩ := extractList_error hnames h
    cases heq
    cases htells

/-- What a spared image holds makes no difference, and it is kept. -/
theorem start_extractInto_setFile (hfile : fs.isFile j = true)
    (hspared : Spared dir j (prepared fs dir)) (content : Bytes) (entries : List Entry) :
    (extractInto dir entries).start (fs.setNode j (.file content)) =
        (((extractInto dir entries).start fs).1,
          ((extractInto dir entries).start fs).2.setFile j content)
      ∧ ((extractInto dir entries).start fs).2.state.node? j = fs.node? j := by
  obtain ⟨hprepare, hfile₁⟩ := commutes_prepareDirectory j content dir ⟨fs, []⟩ hfile
  have hkept := node?_prepared hfile dir
  rw [prepared, Task.start] at hspared hkept
  unfold Task.start extractInto
  rw [exec_bind, exec_bind]
  change (prepareDirectory dir).exec ⟨fs.setNode j (.file content), []⟩ = _ at hprepare
  rw [hprepare]
  rcases hexec : (prepareDirectory dir).exec ⟨fs, []⟩ with ⟨e | ⟨⟩, s₁⟩
  · rw [hexec] at hkept
    exact ⟨rfl, hkept⟩
  · rw [hexec] at hfile₁ hspared hkept
    dsimp only
    obtain ⟨hlist, -⟩ := commutes_extractList j content dir 1 entries s₁ ⟨hfile₁, hspared⟩
    refine ⟨hlist, ?_⟩
    rw [hspared _ (writes_extractList dir 1 entries s₁)]
    exact hkept

/-! ## The whole of it -/

/-- The image that counts some records and ends behind them. -/
def Record.imageOf (rs : List Record) : Bytes := UInt8.ofNat rs.length :: rs.flatMap Record.bytes

/-- What a run on the image that ends before the entry leaves, against the run that stops at the entry:
the files are the same but for the image, and of an image without entries it is reported that it is
empty. -/
structure EndsBefore (j : NodeId) (b : Bytes) (rs : List Record) (s t : Session FileSystem) :
    Prop where
  image : s.state.node? j = some (.file b)
  files : t.state = s.state.setNode j (.file (Record.imageOf rs))
  events : t.events = s.events ++ if rs = [] then [.emptyImage] else []

section Run

variable {n : UInt8} {rs : List Record} {bad b : Bytes} {cause : Error}

/-- Unpacking the image that ends before an entry, and unpacking the whole image. -/
theorem start_unpack_image (rs : List Record) (himage : fs.find image = .ok j)
    (hnode : fs.node? j = some (.file b)) (hspared : Spared dir j (prepared fs dir))
    (hcount : rs.length < 256) :
    (unpack image dir).start (fs.setNode j (.file (Record.imageOf rs))) =
      match (extractInto dir (rs.map Record.entry)).start fs with
      | (.error e, s) => (.error e, s.setFile j (Record.imageOf rs))
      | (.ok files, s) =>
        (.ok ⟨files, 0⟩, ⟨s.state.setNode j (.file (Record.imageOf rs)),
          s.events ++ if rs = [] then [.emptyImage] else []⟩) := by
  have hfile := isFile_iff.2 ⟨_, hnode⟩
  have himage' : (fs.setNode j (.file (Record.imageOf rs))).find image = .ok j := by
    rw [find_setFile hfile, himage]
  have hnode' : (fs.setNode j (.file (Record.imageOf rs))).node? j =
      some (.file (UInt8.ofNat rs.length :: (rs.flatMap Record.bytes ++ []))) := by
    rw [node?_setFile hfile, if_pos rfl, List.append_nil]
    rfl
  have hspared' : Spared dir j (prepared (fs.setNode j (.file (Record.imageOf rs))) dir) := by
    rw [prepared_setFile j _ dir hfile]
    refine hspared.setFile _ ?_
    rw [isFile, node?_prepared hfile]
    exact hfile
  have hlength : rs.length = (UInt8.ofNat rs.length).toNat := by
    rw [UInt8.toNat_ofNat', Nat.mod_eq_of_lt hcount]
  have hempty : (rs.map Record.entry).isEmpty = decide (rs = []) := by
    cases rs <;> rfl
  rw [exec_unpack_complete himage' hspared' hnode' hlength, Task.start, List.length_nil,
    exec_unpackEntries]
  have hextract := (start_extractInto_setFile hfile hspared (Record.imageOf rs)
    (rs.map Record.entry)).1
  rw [Task.start] at hextract
  rw [hextract]
  rcases (extractInto dir (rs.map Record.entry)).start fs with ⟨e | files, s⟩
  · rfl
  · simp [Session.setFile, hempty]

/-- What the run on the shorter image leaves tells what the other run left. -/
theorem EndsBefore.eq {t : Session FileSystem} (h : EndsBefore j b rs s t)
    (h' : EndsBefore j b rs s' t) : s = s' := by
  have hstate : s.state = s'.state := by
    calc
      s.state = t.state.setNode j (.file b) := by
        rw [h.files, setNode_setNode, setNode_self h.image]
      _ = s'.state := by rw [h'.files, setNode_setNode, setNode_self h'.image]
  have hevents : s.events = s'.events := List.append_cancel_right (h.events.symm.trans h'.events)
  cases s
  cases s'
  cases hstate
  cases hevents
  rfl

section Stopped

variable (himage : fs.find image = .ok j)
  (hnode : fs.node? j = some (.file (n :: (rs.flatMap Record.bytes ++ bad))))
  (hspared : Spared dir j (prepared fs dir)) (hcount : rs.length < n.toNat)
  (hstops : Stops (rs.length + 1) bad cause)

include himage hnode hspared hcount hstops

/-- An image that stops behind some records: if these can be extracted, unpacking ends with the error
of the next entry, where the shorter image ends well. -/
theorem start_unpack_stopped {files : List Path}
    (hextract : (extractInto dir (rs.map Record.entry)).start fs = (.ok files, s)) :
    (unpack image dir).start fs = (.error (.entry (rs.length + 1) cause), s)
      ∧ ∃ u t, (unpack image dir).start (fs.setNode j (.file (Record.imageOf rs))) = (.ok u, t)
        ∧ EndsBefore j (n :: (rs.flatMap Record.bytes ++ bad)) rs s t := by
  have hfile := isFile_iff.2 ⟨_, hnode⟩
  constructor
  · rw [exec_unpack_stops himage hspared hnode hcount hstops, Task.start, exec_unpackUntil]
    rw [Task.start] at hextract
    rw [hextract]
  · have hshort := start_unpack_image rs himage hnode hspared
      (Nat.lt_trans hcount n.toNat_lt)
    have hkept := (start_extractInto_setFile hfile hspared (Record.imageOf rs)
      (rs.map Record.entry)).2
    rw [hextract] at hshort hkept
    exact ⟨_, _, hshort, hkept.trans hnode, rfl, rfl⟩

/-- If they cannot be extracted, the shorter image fails too. -/
theorem start_unpack_failed {e : Error}
    (hextract : (extractInto dir (rs.map Record.entry)).start fs = (.error e, s)) :
    (unpack image dir).start fs = (.error e, s)
      ∧ ((unpack image dir).start (fs.setNode j (.file (Record.imageOf rs)))).1 = .error e := by
  constructor
  · rw [exec_unpack_stops himage hspared hnode hcount hstops, Task.start, exec_unpackUntil]
    rw [Task.start] at hextract
    rw [hextract]
  · rw [start_unpack_image rs himage hnode hspared (Nat.lt_trans hcount n.toNat_lt), hextract]

end Stopped

/-- If unpacking fails because entry `k` is damaged or its name is refused, the error says so, and all
is left and reported as by unpacking the image that ends before entry `k`, which succeeds. -/
theorem unpack_fail_fast (himage : fs.find image = .ok j) (hnode : fs.node? j = some (.file b))
    (hspared : Spared dir j (prepared fs dir)) (k : Nat) (cause : Error) (s : Session FileSystem) :
    (unpack image dir).start fs = (.error (.entry k cause), s) ∧ cause.TellsOfImage ↔
      ∃ n rs bad, b = n :: (rs.flatMap Record.bytes ++ bad) ∧ k = rs.length + 1 ∧ k ≤ n.toNat
        ∧ Stops k bad cause
        ∧ ∃ u t, (unpack image dir).start (fs.setNode j (.file (Record.imageOf rs))) = (.ok u, t)
          ∧ EndsBefore j b rs s t := by
  constructor
  · rintro ⟨hunpack, htells⟩
    cases b with
    | nil =>
      have hopen := ImageFile.ofPath_of_content_nil himage (isFile_iff.2 ⟨_, hnode⟩)
        (by rw [content, hnode])
      rw [Task.start, unpack, exec_bind_ok (exec_get _), exec_bind_error (by rw [exec_liftM, hopen])]
        at hunpack
      cases hunpack
    | cons n bs =>
      rcases complete_or_stops n.toNat bs 1 with ⟨rs, rest, hcount, rfl, hnames⟩ |
        ⟨rs, bad, cause', hcount, rfl, hstops, hnames⟩
      · rw [exec_unpack_complete himage hspared hnode hcount, Task.start, exec_unpackEntries] at hunpack
        rcases hextract : (extractInto dir (rs.map Record.entry)).exec ⟨fs, []⟩ with ⟨e | files, s₁⟩
        · rw [hextract] at hunpack
          cases hunpack
          exact absurd htells (extractInto_error hnames hextract rfl)
        · rw [hextract] at hunpack
          cases hunpack
      · rw [Nat.add_comm] at hstops
        rcases hextract : (extractInto dir (rs.map Record.entry)).start fs with ⟨e | files, s₁⟩
        · rw [(start_unpack_failed himage hnode hspared hcount hstops hextract).1] at hunpack
          cases hunpack
          exact absurd htells (extractInto_error hnames hextract rfl)
        · obtain ⟨hfails, hshort⟩ :=
            start_unpack_stopped himage hnode hspared hcount hstops hextract
          rw [hfails] at hunpack
          cases hunpack
          exact ⟨n, rs, bad, rfl, rfl, hcount, hstops, hshort⟩
  · rintro ⟨n, rs, bad, rfl, rfl, hcount, hstops, u, t, hshort, hends⟩
    refine ⟨?_, hstops.tellsOfImage⟩
    rcases hextract : (extractInto dir (rs.map Record.entry)).start fs with ⟨e | files, s₁⟩
    · have hfails := (start_unpack_failed himage hnode hspared hcount hstops hextract).2
      rw [hshort] at hfails
      cases hfails
    · obtain ⟨hfails, u', t', hshort', hends'⟩ :=
        start_unpack_stopped himage hnode hspared hcount hstops hextract
      rw [hshort] at hshort'
      cases hshort'
      rw [hfails, hends.eq hends']

end Run

/-- The image is outside of the plain directory. -/
theorem spared_plainTree (content : Bytes) :
    Spared (Path.ofString "d") 1 (plainTree content) := by
  have hfind : (plainTree content).find (Path.ofString "d") = .ok 2 := by cbv
  have hout : ¬(plainTree content).Below 2 1 := by
    intro hbelow
    rcases plainTree_below hbelow with h | h <;> cases h
  exact spared_of_not_below (by decide) hfind rfl (plainTree_sealed content).no_link (by cbv) hout

/-- The second entry is cut after one byte: the file of the first one is there, and no more. -/
theorem unpack_fail_fast_cut : ∃ s rs u t,
    (unpack (Path.ofString "i") (Path.ofString "d")).start
        (plainTree (2 :: (Entry.encode ⟨"f", [8]⟩ ++ [0]))) =
      (.error (.entry 2 (.format (.truncated .size 8 1))), s)
      ∧ rs.length = 1
      ∧ (unpack (Path.ofString "i") (Path.ofString "d")).start
          ((plainTree (2 :: (Entry.encode ⟨"f", [8]⟩ ++ [0]))).setNode 1
            (.file (Record.imageOf rs))) = (.ok u, t)
      ∧ EndsBefore 1 (2 :: (Entry.encode ⟨"f", [8]⟩ ++ [0])) rs s t := by
  let r : Record := .ofEntry ⟨"f", [8]⟩ (by decide) (by decide) (by decide)
  have himage : 2 :: (Entry.encode ⟨"f", [8]⟩ ++ [0]) = 2 :: ([r].flatMap Record.bytes ++ [0]) := by
    rw [List.flatMap_singleton]
    rfl
  have hstops : Stops 2 [0] (.format (.truncated .size 8 1)) := .damaged (.size (by decide))
  generalize hcontent : 2 :: (Entry.encode ⟨"f", [8]⟩ ++ [0]) = content at himage ⊢
  have hfind : (plainTree content).find (Path.ofString "i") = .ok 1 := by cbv
  have hnode : (plainTree content).node? 1 = some (.file content) := rfl
  have hspared : Spared (Path.ofString "d") 1 (prepared (plainTree content) (Path.ofString "d")) := by
    have hprepared : prepared (plainTree content) (Path.ofString "d") = plainTree content := by cbv
    rw [hprepared]
    exact spared_plainTree content
  obtain ⟨files, s, hextract⟩ : ∃ files s,
      (extractInto (Path.ofString "d") [⟨"f", [8]⟩]).start (plainTree content) = (.ok files, s) :=
    ⟨[Path.ofString "d/f"], ⟨(plainTree content).setNode 3 (.file [8]),
      [.unpacked 1 "f" 1 (Path.ofString "d/f")]⟩, by cbv⟩
  have hnode' : (plainTree content).node? 1 =
      some (.file (2 :: ([r].flatMap Record.bytes ++ [0]))) := by
    rw [hnode, himage]
  have hfails := (start_unpack_stopped hfind hnode' hspared (by decide) hstops hextract).1
  obtain ⟨n, rs, bad, -, hlength, -, -, u, t, hshort, hends⟩ :=
    (unpack_fail_fast hfind hnode hspared 2 _ s).1 ⟨hfails, .format _⟩
  exact ⟨s, rs, u, t, hfails, (Nat.succ.inj hlength).symm, hshort, hends⟩

end FlatArchive
