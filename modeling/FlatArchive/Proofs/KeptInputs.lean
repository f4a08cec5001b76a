-- SUMMARY: An output that is one of the inputs is refused, and no pack ever changes one of its inputs.
import FlatArchive.Proofs.Refusing

/-!
# Kept inputs

Whether the output is one of the inputs is decided by where the paths lead, however they are spelled
and whatever links they go through. If it is, the first such input is named and nothing happens. If it
is not, the output may only come into being after the check; a file that is made then is none of the
inputs, for these were there before. So no input is changed, whatever the pack comes to.
-/

namespace FlatArchive

open Attempt FileSystem Builder

variable {fs : FileSystem} {output : Path} {inputs : List Path} {b : Builder} {header : Header}
  {o : NodeId} {s : Session FileSystem}

/-- Packing these inputs, which are given or are the files of a directory. -/
inductive PacksInputs (fs : FileSystem) (output : Path) : List Path → Task FileSystem Nat → Prop where
  | given (inputs : List Path) : PacksInputs fs output inputs (pack output inputs)
  | directory {dir : Path} {d : NodeId} (find : fs.find dir = .ok d)
      (isDirectory : fs.isDirectory d = true) :
      PacksInputs fs output ((fs.fileNames d).map fun name => dir.join ⟨name⟩)
        (packDirectory output dir)

/-- The inputs that leave packing to the writing of their image. -/
theorem PacksInputs.exec_eq {task : Task FileSystem Nat} (h : PacksInputs fs output inputs task)
    (hcount : headerFor inputs.length = .ok header) (haccepted : ∀ p ∈ inputs, Accepted fs p) :
    ∃ b : Builder, List.Forall₂ (Adds fs) inputs b.items
      ∧ task.start fs = (b.writeImageFile output).start fs := by
  have hpack : ∃ b : Builder, List.Forall₂ (Adds fs) inputs b.items
      ∧ (pack output inputs).start fs = (b.writeImageFile output).start fs := by
    obtain ⟨items, hitems⟩ := adds_of_accepted haccepted
    have hbuild : build (addFiles fs inputs) = .ok ⟨items⟩ := build_eq_ok_iff.2 hitems
    refine ⟨⟨items⟩, hitems, ?_⟩
    rw [Task.start, exec_pack_of_headerFor_ok hcount,
      exec_bind_ok (exec_liftM_eq_ok_iff.2 ⟨hbuild, rfl⟩)]
    rfl
  cases h with
  | given => exact hpack
  | directory hfind hdir =>
    rw [List.length_map] at hcount
    rw [Task.start, exec_packDirectory_eq_pack output hfind hdir hcount]
    exact hpack

/-- An output that is one of the inputs is refused with the first that it is, and nothing is done. -/
theorem exec_writeImageFile_of_same (hadds : List.Forall₂ (Adds fs) inputs b.items)
    (hheader : b.header = .ok header) (houtput : fs.find output = .ok o)
    (hsame : ∃ p ∈ inputs, fs.find p = .ok o) :
    ∃ before p after, inputs = before ++ p :: after ∧ (∀ q ∈ before, fs.find q ≠ .ok o)
      ∧ fs.find p = .ok o ∧ (b.writeImageFile output).start fs =
        (.error (.invalidInput p "output is also an input"), ⟨fs, []⟩) := by
  have hsources : b.sources = inputs := sources_of_adds hadds
  have hfound : ∀ p ∈ inputs, ∃ i, fs.find p = .ok i := by
    intro p hp
    obtain ⟨i, hfind, -⟩ := find_of_adds hadds hp
    exact ⟨i, hfind⟩
  rcases firstSame_cases o hfound with ⟨-, hnone⟩ | ⟨before, p, after, hsplit, hothers, hp, hfirst⟩
  · obtain ⟨p, hp, hfind⟩ := hsame
    exact absurd hfind (hnone p hp)
  · refine ⟨before, p, after, hsplit, hothers, hp, ?_⟩
    have hcheck : checkOutput fs b output = .error (.invalidInput p "output is also an input") := by
      rw [checkOutput, houtput, hsources]
      dsimp only
      rw [hfirst]
    rw [Task.start, writeImageFile, exec_bind_ok (exec_liftM_eq_ok_iff.2 ⟨hheader, rfl⟩),
      exec_bind_ok (exec_get _)]
    refine exec_bind_error ?_
    rw [exec_liftM, hcheck]

/-- The error that the output is an input means that it is. -/
theorem not_outputFault_isInput (hother : ∀ o, fs.find output = .ok o → ∀ p ∈ inputs, fs.find p ≠ .ok o)
    (p : Path) : ¬OutputFault fs output inputs (.invalidInput p "output is also an input") := by
  intro hfault
  generalize he : Error.invalidInput p "output is also an input" = e at hfault
  cases hfault with
  | unknown | notCreated | noRoomInTheEnd | noRoomForHead | noRoomForContent => cases he
  | isInput houtput hsplit _ hsame =>
    refine hother _ houtput _ ?_ hsame
    rw [hsplit]
    exact List.mem_append_right _ List.mem_cons_self

/-- An output that is none of the inputs may be made, emptied and written: all of them stay what and
where they are. -/
theorem kept_of_writeImageFile (hadds : List.Forall₂ (Adds fs) inputs b.items)
    (hheader : b.header = .ok header) {result : Except Error Nat}
    (h : (b.writeImageFile output).start fs = (result, s)) :
    ∀ p ∈ inputs, ∀ i, fs.find p = .ok i → s.state.find p = .ok i ∧ s.state.node? i = fs.node? i := by
  intro p hp i hfind
  rcases writeImageFile_cases (s := ⟨fs, []⟩) hadds output hheader with ⟨e, events, -, hfailed⟩ |
    ⟨o, created, entries, hcreated, -, hne, hwritten⟩ | ⟨o, size, events, -, -, hwritten⟩
  · cases hfailed.symm.trans h
    exact ⟨hfind, rfl⟩
  · cases hwritten.symm.trans h
    have hfile : created.isFile o = true := isFile_iff.2 ⟨[], hcreated.empty⟩
    have hio : i ≠ o := by
      rintro rfl
      exact hne p hp hfind
    obtain ⟨j, hj, hregular⟩ := find_of_adds hadds hp
    cases hj.symm.trans hfind
    refine ⟨(hcreated.grown.trans (Extends.setFile hfile _)).find hfind, ?_⟩
    rw [node?_setNode _ _ (lt_size_of_isFile hfile), if_neg hio, hcreated.others (isDirectory_eq_false_of_isFile hregular) hio]
  · cases hwritten.symm.trans h
    exact ⟨hfind, rfl⟩

/-- Packing inputs that pass their own checks never overwrites one of them. If the output leads to one
of them, the first such is named in the error and nothing is done. If it leads to none of them, or
nowhere yet, this is not the error, and each input leads where it did, to the file that it was. -/
theorem inputs_never_overwritten {task : Task FileSystem Nat}
    (htask : PacksInputs fs output inputs task) (hne : inputs ≠ [])
    (hle : inputs.length ≤ maxEntries) (haccepted : ∀ p ∈ inputs, Accepted fs p) :
    (∀ o, fs.find output = .ok o → (∃ p ∈ inputs, fs.find p = .ok o) →
        ∃ before p after, inputs = before ++ p :: after ∧ (∀ q ∈ before, fs.find q ≠ .ok o)
          ∧ fs.find p = .ok o
          ∧ task.start fs = (.error (.invalidInput p "output is also an input"), ⟨fs, []⟩))
      ∧ ((∀ o, fs.find output = .ok o → ∀ p ∈ inputs, fs.find p ≠ .ok o) →
        ∃ result s, task.start fs = (result, s)
          ∧ (∀ p, result ≠ .error (.invalidInput p "output is also an input"))
          ∧ ∀ p ∈ inputs, ∀ i, fs.find p = .ok i →
            s.state.find p = .ok i ∧ s.state.node? i = fs.node? i) := by
  have hcount := headerFor_of_le (List.length_pos_iff.2 hne) hle
  obtain ⟨b, hadds, htask⟩ := htask.exec_eq hcount haccepted
  have hheader := header_of_adds hadds hcount
  rw [htask]
  refine ⟨fun o houtput hsame => exec_writeImageFile_of_same hadds hheader houtput hsame, ?_⟩
  intro hother
  rcases hresult : (b.writeImageFile output).start fs with ⟨result, s⟩
  refine ⟨result, s, rfl, ?_, kept_of_writeImageFile hadds hheader hresult⟩
  rintro p rfl
  rcases writeImageFile_cases (s := ⟨fs, []⟩) hadds output hheader with
    ⟨e, events, hfault, hfailed⟩ | ⟨o, created, entries, -, -, -, hwritten⟩ |
    ⟨o, size, events, -, -, hwritten⟩
  · cases hfailed.symm.trans hresult
    exact not_outputFault_isInput hother p hfault
  · cases hwritten.symm.trans hresult
  · cases hwritten.symm.trans hresult

/-- The files `a` and `b`, another name `c` for `a`, and a symbolic link `l` to `a`. -/
def threeNames : FileSystem where
  nodes := #[.directory 0 [([0x61], 1), ([0x62], 2), ([0x63], 1), ([0x6C], 3)], .file [7], .file [8],
    .link [0x61]]
  root := 0
  cwd := 0
  pathLimit := none

/-- The output is a link to the file that the second input is another name for. -/
theorem inputs_never_overwritten_threeNames :
    (pack ⟨[0x6C]⟩ [⟨[0x62]⟩, ⟨[0x63]⟩]).start threeNames =
      (.error (.invalidInput ⟨[0x63]⟩ "output is also an input"), ⟨threeNames, []⟩) := by
  have houtput : threeNames.find ⟨[0x6C]⟩ = .ok 1 := by cbv
  have hfirst : threeNames.find ⟨[0x62]⟩ = .ok 2 := by cbv
  have hsecond : threeNames.find ⟨[0x63]⟩ = .ok 1 := by cbv
  have haccepted : ∀ p ∈ [(⟨[0x62]⟩ : Path), ⟨[0x63]⟩], Accepted threeNames p := by
    intro p hp
    rcases List.mem_pair.1 hp with rfl | rfl
    · exact ⟨"b", 2, hfirst, rfl, entryName_eq_ok_iff.2 (by cbv)⟩
    · exact ⟨"c", 1, hsecond, rfl, entryName_eq_ok_iff.2 (by cbv)⟩
  obtain ⟨hsame, -⟩ := inputs_never_overwritten (.given _) (List.cons_ne_nil _ _) (by decide) haccepted
  obtain ⟨before, p, after, hsplit, -, hp, hpack⟩ :=
    hsame 1 houtput ⟨_, List.mem_cons_of_mem _ List.mem_cons_self, hsecond⟩
  have hmem : p ∈ [(⟨[0x62]⟩ : Path), ⟨[0x63]⟩] := by
    rw [hsplit]
    exact List.mem_append_right _ List.mem_cons_self
  rcases List.mem_pair.1 hmem with rfl | rfl
  · cases hfirst.symm.trans hp
  · exact hpack

end FlatArchive
