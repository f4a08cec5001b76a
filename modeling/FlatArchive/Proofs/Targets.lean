-- SUMMARY: What the file of an entry becomes: a node takes its content, and the other files stay as they are.
import FlatArchive.Proofs.Unpacking

/-!
# Targets of entries

The path under which an entry is unpacked may be new, or lead to a file that is there, also through
links. Whatever it is, writing the entry fails and leaves all files as they are, or one node takes the
content. Only then the path is reported, and it leads to this node.
-/

namespace FlatArchive

open Attempt

/-! ## Single files -/

namespace FileSystem

variable {fs fs' fs'' : FileSystem} {p : Path} {i : NodeId} {content : Bytes}

/-- The same nodes are files, and they hold the same. -/
def SameFiles (fs fs' : FileSystem) : Prop :=
  ∀ i content, fs'.node? i = some (.file content) ↔ fs.node? i = some (.file content)

theorem AddsDirectories.sameFiles (h : fs.AddsDirectories fs') : fs.SameFiles fs' := by
  intro i content
  constructor
  · intro hnode
    have hfile := isFile_iff.2 ⟨content, hnode⟩
    have hnot := isDirectory_eq_false_of_isFile hfile
    have hlt : i < fs.nodes.size := by
      refine Nat.lt_of_not_le fun hle => ?_
      rw [h.new hle (lt_size_of_isFile hfile)] at hnot
      cases hnot
    have hdir : fs.isDirectory i = false := by
      rw [← Bool.not_eq_true] at hnot ⊢
      exact fun hdir => hnot (h.isDirectory hdir)
    rwa [← h.kept hlt hdir]
  · intro hnode
    have hfile := isFile_iff.2 ⟨content, hnode⟩
    rwa [h.kept (lt_size_of_isFile hfile) (isDirectory_eq_false_of_isFile hfile)]

/-- Node `i` took the content: it is a file that holds it, or a device. The other files are what they
were. -/
inductive Takes (fs : FileSystem) (i : NodeId) (content : Bytes) (fs' : FileSystem) : Prop where
  | file (node : fs'.node? i = some (.file content))
      (others : ∀ j, j ≠ i → ∀ c, fs'.node? j = some (.file c) ↔ fs.node? j = some (.file c))
  | device {kind : Device} (node : fs'.node? i = some (.device kind)) (files : fs.SameFiles fs')

theorem Takes.of_sameFiles (hsame : fs.SameFiles fs') (h : fs'.Takes i content fs'') :
    fs.Takes i content fs'' := by
  cases h with
  | file node others => exact .file node fun j hj c => (others j hj c).trans (hsame j c)
  | device node files => exact .device node fun j c => (files j c).trans (hsame j c)

/-- A file that is there after is one that was there, unless it took the content. -/
theorem Takes.file_cases (h : fs.Takes i content fs') {j : NodeId} {c : Bytes}
    (hnode : fs'.node? j = some (.file c)) : fs.node? j = some (.file c) ∨ c = content := by
  cases h with
  | file node others =>
    by_cases hj : j = i
    · subst hj
      rw [node] at hnode
      cases hnode
      exact .inr rfl
    · exact .inl ((others j hj c).1 hnode)
  | device node files => exact .inl ((files j c).1 hnode)

/-- Writing a file fails and leaves everything as it was, or what the path leads to took the content. -/
theorem writeFile_cases (fs : FileSystem) (p : Path) (content : Bytes) :
    (∃ e, (writeFile p content).exec fs = (.error e, fs))
      ∨ ∃ i fs', (writeFile p content).exec fs = (.ok (), fs') ∧ fs'.find p = .ok i
        ∧ fs.Takes i content fs' := by
  rw [writeFile]
  rcases hcreate : (create p).exec fs with ⟨e | i, fs₁⟩
  · left
    have hsame : fs₁ = fs := by
      rcases create_cases fs p with ⟨_, _, -, h⟩ | ⟨_, -, -, h⟩ | ⟨_, _, -, -, h⟩ | ⟨_, h⟩
      all_goals
        rw [h] at hcreate
        cases hcreate
      rfl
    exact ⟨e, by rw [exec_bind_error hcreate, hsame]⟩
  · rw [exec_bind_ok hcreate, writeAt, exec_ofFn]
    rcases created_or_device hcreate with hcreated | ⟨kind, hfind, hdevice, rfl⟩
    · right
      have hfile := isFile_iff.2 ⟨[], hcreated.empty⟩
      have htable := node?_setNode fs₁ (.file content) (lt_size_of_isFile hfile)
      rw [hcreated.empty]
      dsimp only
      rw [overwrite_nil]
      refine ⟨i, _, rfl, (Extends.setFile hfile content).find hcreated.find, .file ?_ ?_⟩
      · rw [htable, if_pos rfl]
      · intro j hj c
        rw [htable, if_neg hj]
        cases hdir : fs.isDirectory j with
        | false => rw [hcreated.others hdir hj]
        | true =>
          have hdir' := hcreated.grown.isDirectory hdir
          constructor
          · intro hnode
            exact absurd rfl (ne_of_isFile_of_isDirectory (isFile_iff.2 ⟨c, hnode⟩) hdir')
          · intro hnode
            exact absurd rfl (ne_of_isFile_of_isDirectory (isFile_iff.2 ⟨c, hnode⟩) hdir)
    · have htakes : fs₁.Takes i content fs₁ := .device hdevice fun _ _ => Iff.rfl
      rw [hdevice]
      cases kind with
      | null => exact .inr ⟨i, fs₁, rfl, hfind, htakes⟩
      | full =>
        dsimp only
        split
        · exact .inr ⟨i, fs₁, rfl, hfind, htakes⟩
        · exact .inl ⟨_, rfl⟩

end FileSystem

/-! ## Entries -/

open FileSystem

/-- The paths that are reported as unpacked, in their order. -/
def unpackedPaths (events : List Event) : List Path := events.filterMap fun
  | .unpacked _ _ _ path => some path
  | _ => none

@[simp] theorem unpackedPaths_append (events events' : List Event) :
    unpackedPaths (events ++ events') = unpackedPaths events ++ unpackedPaths events' :=
  List.filterMap_append

theorem unpackedPaths_nameEvents (index : Nat) (name : String) :
    unpackedPaths (nameEvents index name) = [] := by
  unfold nameEvents
  split <;> rfl

/-- Below the directory a file is not written, or what its path leads to took the content. -/
theorem writeBelow_cases (dir relative : Path) (content : Bytes) (s : Session FileSystem) :
    (∃ cause fs', (writeBelow dir relative content).exec s = (.error cause, ⟨fs', s.events⟩)
        ∧ s.state.SameFiles fs')
      ∨ ∃ i fs', (writeBelow dir relative content).exec s = (.ok (dir.join relative), ⟨fs', s.events⟩)
        ∧ fs'.find (dir.join relative) = .ok i ∧ s.state.Takes i content fs' := by
  have hparents := addsDirectories_makeParents s.state (dir.join relative)
  rw [exec_writeBelow_eq]
  rcases hmade : (Change.makeParents (dir.join relative)).exec s.state with ⟨e | ⟨⟩, fs₁⟩
  · rw [hmade] at hparents
    exact .inl ⟨_, fs₁, rfl, hparents.sameFiles⟩
  · rw [hmade] at hparents
    dsimp only
    rcases writeFile_cases fs₁ (dir.join relative) content with ⟨e, hwrite⟩ |
      ⟨i, fs₂, hwrite, hfind, htakes⟩
    · rw [hwrite]
      exact .inl ⟨_, fs₁, rfl, hparents.sameFiles⟩
    · rw [hwrite]
      exact .inr ⟨i, fs₂, rfl, hfind, htakes.of_sameFiles hparents.sameFiles⟩

/-- An entry is not written and not reported, or it is reported with a path, and what this leads to
took its content. -/
theorem extract_cases (dir : Path) (index : Nat) (e : Entry) (s : Session FileSystem) :
    (∃ cause s', (extract dir index e).exec s = (.error cause, s') ∧ s.state.SameFiles s'.state
        ∧ unpackedPaths s'.events = unpackedPaths s.events)
      ∨ ∃ target i s', (extract dir index e).exec s = (.ok target, s')
        ∧ s'.state.find target = .ok i ∧ s.state.Takes i e.content s'.state
        ∧ unpackedPaths s'.events = unpackedPaths s.events ++ [target] := by
  cases hcheck : checkPath (unpackedName index e.name) with
  | error cause =>
    exact .inl ⟨_, s, exec_extract_refused dir hcheck s, fun _ _ => Iff.rfl, rfl⟩
  | ok relative =>
    rw [exec_extract_accepted dir hcheck, Task.start]
    rcases writeBelow_cases dir relative e.content ⟨s.state, []⟩ with ⟨cause, fs', hwrite, hsame⟩ |
      ⟨i, fs', hwrite, hfind, htakes⟩
    · rw [hwrite]
      refine .inl ⟨_, _, rfl, hsame, ?_⟩
      simp [unpackedPaths_nameEvents]
    · rw [hwrite]
      refine .inr ⟨_, i, _, rfl, hfind, htakes, ?_⟩
      rw [unpackedPaths_append, unpackedPaths_append, unpackedPaths_nameEvents, List.append_nil]
      rfl

end FlatArchive
