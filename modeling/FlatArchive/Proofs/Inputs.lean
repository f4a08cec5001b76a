-- SUMMARY: Which paths are accepted as inputs, and the items that they become.
import FlatArchive.Pack
import FlatArchive.Proofs.Keeping
import FlatArchive.Proofs.Operations
import FlatArchive.Proofs.Utf8

/-!
# Inputs

An input is accepted if it leads to a regular file and its last component is text, which is the name of
its entry. The items of a builder that was made of some inputs are those inputs in their order, so that
their files and their number are known.
-/

namespace FlatArchive

open Attempt FileSystem

variable {fs : FileSystem} {p : Path} {inputs : List Path} {i : NodeId} {name : String}

namespace Builder

variable {b b' : Builder}

/-! ## Single inputs -/

/-- The path leads to file `i`, which is packed under `name`. -/
structure Source (fs : FileSystem) (p : Path) (name : String) (i : NodeId) : Prop where
  find : fs.find p = .ok i
  isFile : fs.isFile i = true
  entryName : entryName p = .ok name

theorem entryName_eq_ok_iff :
    entryName p = .ok name ↔ p.fileName? = some (Text.Utf8.encode name) := by
  unfold entryName
  cases p.fileName? with
  | none => simp
  | some bytes =>
    dsimp only
    rw [Option.some.injEq, eq_comm (a := bytes), ← Text.Utf8.decode_eq_ok_iff]
    cases Text.Utf8.decode bytes with
    | ok text => simp
    | error e => simp

theorem checkSource_eq_ok_iff :
    checkSource fs p = .ok () ↔ ∃ i, fs.find p = .ok i ∧ fs.isFile i = true := by
  unfold checkSource openSource
  cases fs.find p with
  | error e =>
    constructor
    · intro h
      cases h
    · rintro ⟨i, hfind, -⟩
      cases hfind
  | ok i =>
    change (if fs.isFile i then (.ok () : Except Error Unit) else .error (.notAFile p)) = .ok () ↔ _
    cases hfile : fs.isFile i with
    | true => simpa using hfile
    | false => simpa using hfile

theorem exec_addFile_eq_ok_iff : (addFile fs p).exec b = (.ok (), b') ↔
    ∃ name i, Source fs p name i ∧ b' = ⟨b.items ++ [⟨name, .file p⟩]⟩ := by
  unfold addFile add
  constructor
  · intro h
    obtain ⟨⟨⟩, b₁, hcheck, h₁⟩ := exec_bind_eq_ok_iff.1 h
    obtain ⟨hchecked, rfl⟩ := exec_liftM_eq_ok_iff.1 hcheck
    obtain ⟨name, b₂, hname, hadd⟩ := exec_bind_eq_ok_iff.1 h₁
    obtain ⟨hentry, rfl⟩ := exec_liftM_eq_ok_iff.1 hname
    obtain ⟨i, hfind, hfile⟩ := checkSource_eq_ok_iff.1 hchecked
    rw [exec_modify] at hadd
    exact ⟨name, i, ⟨hfind, hfile, hentry⟩, (congrArg Prod.snd hadd).symm⟩
  · rintro ⟨name, i, hsource, rfl⟩
    have hchecked := checkSource_eq_ok_iff.2 ⟨i, hsource.find, hsource.isFile⟩
    rw [exec_bind_ok (exec_liftM_eq_ok_iff.2 ⟨hchecked, rfl⟩),
      exec_bind_ok (exec_liftM_eq_ok_iff.2 ⟨hsource.entryName, rfl⟩), exec_modify]

/-- The item that is added for a path. -/
def Adds (fs : FileSystem) (p : Path) (item : Item) : Prop :=
  item.content = .file p ∧ ∃ i, Source fs p item.name i

theorem exec_addFiles_eq_ok_iff : (addFiles fs inputs).exec b = (.ok (), b') ↔
    ∃ items, b' = ⟨b.items ++ items⟩ ∧ List.Forall₂ (Adds fs) inputs items := by
  induction inputs generalizing b with
  | nil =>
    rw [addFiles, exec_pure]
    constructor
    · intro h
      cases h
      exact ⟨[], by rw [List.append_nil], .nil⟩
    · rintro ⟨items, rfl, hitems⟩
      cases hitems
      rw [List.append_nil]
  | cons p inputs ih =>
    rw [addFiles, exec_bind_eq_ok_iff]
    constructor
    · rintro ⟨⟨⟩, b₁, hfile, hfiles⟩
      obtain ⟨name, i, hsource, rfl⟩ := exec_addFile_eq_ok_iff.1 hfile
      obtain ⟨items, rfl, hitems⟩ := ih.1 hfiles
      exact ⟨⟨name, .file p⟩ :: items, by simp, .cons ⟨rfl, i, hsource⟩ hitems⟩
    · rintro ⟨items, rfl, hitems⟩
      cases hitems with
      | @cons _ item _ items hitem hitems =>
        obtain ⟨name, content⟩ := item
        obtain ⟨rfl, i, hsource⟩ := hitem
        exact ⟨(), _, exec_addFile_eq_ok_iff.2 ⟨name, i, hsource, rfl⟩,
          ih.2 ⟨items, by simp, hitems⟩⟩

theorem build_eq_ok_iff_exec {x : Attempt Builder Error Unit} :
    build x = .ok b ↔ x.exec empty = (.ok (), b) := by
  unfold build
  rcases x.exec empty with ⟨e | ⟨⟩, b'⟩
  · simp
  · simp

theorem build_eq_ok_iff :
    build (addFiles fs inputs) = .ok b ↔ List.Forall₂ (Adds fs) inputs b.items := by
  rw [build_eq_ok_iff_exec, exec_addFiles_eq_ok_iff]
  constructor
  · rintro ⟨items, rfl, hitems⟩
    exact hitems
  · intro hitems
    exact ⟨b.items, rfl, hitems⟩

/-! ## All inputs -/

/-- Each input leads to a regular file. -/
theorem find_of_adds {items : List Item} (hadds : List.Forall₂ (Adds fs) inputs items)
    (hmem : p ∈ inputs) : ∃ i, fs.find p = .ok i ∧ fs.isFile i = true := by
  induction hadds with
  | nil => cases hmem
  | cons hitem _ ih =>
    rcases List.mem_cons.1 hmem with rfl | hmem
    · obtain ⟨-, i, hsource⟩ := hitem
      exact ⟨i, hsource.find, hsource.isFile⟩
    · exact ih hmem

/-- The files of the items that were added for some paths are those paths. -/
theorem sources_of_adds {items : List Item} (h : List.Forall₂ (Adds fs) inputs items) :
    sources ⟨items⟩ = inputs := by
  induction h with
  | nil => rfl
  | @cons p item inputs items hitem _ ih =>
    obtain ⟨hcontent, -⟩ := hitem
    unfold sources at ih ⊢
    rw [List.filterMap_cons, hcontent]
    exact congrArg (p :: ·) ih

/-! ## Their number -/

theorem headerFor_eq_ok_iff {count : Nat} {header : Header} :
    headerFor count = .ok header ↔ Header.ofCount count = .ok header := by
  unfold headerFor
  cases Header.ofCount count with
  | error e => simp [Except.mapError]
  | ok header' => simp [Except.mapError]

theorem headerFor_of_le {count : Nat} (hpos : 0 < count) (hle : count ≤ maxEntries) :
    headerFor count = .ok ⟨UInt8.ofNat count⟩ := by
  rw [headerFor, Header.ofCount_of_le hpos hle]
  rfl

theorem headerFor_of_lt {count : Nat} (h : maxEntries < count) :
    headerFor count = .error (.format (.tooManyEntries count)) := by
  rw [headerFor, Header.ofCount_of_lt h]
  rfl

/-- A header can be made for a number of entries that is in range. -/
theorem count_of_headerFor {count : Nat} {header : Header} (h : headerFor count = .ok header) :
    header.count = count ∧ count ≠ 0 := by
  have hcount := headerFor_eq_ok_iff.1 h
  refine ⟨Header.count_of_ofCount hcount, ?_⟩
  rintro rfl
  rw [Header.ofCount_zero] at hcount
  cases hcount

/-- The header of the items that were added is the one that was made for the inputs. -/
theorem header_of_adds {b : Builder} {header : Header} (hadds : List.Forall₂ (Adds fs) inputs b.items)
    (hcount : headerFor inputs.length = .ok header) : b.header = .ok header := by
  rw [Builder.header, count, ← hadds.length_eq, hcount]

end Builder

end FlatArchive
