-- SUMMARY: Unpacking into an empty directory succeeds if the names fit together, and makes exactly their tree.
import FlatArchive.Proofs.Extraction
import FlatArchive.Proofs.Planting
import FlatArchive.Proofs.RoundTrip

/-!
# Fresh directories

In a directory that was empty nothing is in the way of the entries but they themselves. They can all
be unpacked if each name can be that of a file, and none leads through the file of another
(`Plantable`). Then there is a file for each list of names, with the last content that was written
under it, and a directory for each list that others go on behind (`planOf`). If they can be unpacked,
each path leads to a file in the end, so the names were of this kind.
-/

namespace FlatArchive

open Attempt FileSystem Text
open Utf8 (encode)

variable {base fs : FileSystem} {dir image : Path} {d j : NodeId} {index : Nat} {es : List Entry}
  {s s' : Session FileSystem}

/-! ## What is expected -/

/-- The names can be those of files, all in one directory: each is accepted, ends in a name and has
no name that is too long, and none of them leads through the file of another. -/
structure Plantable (names : List String) : Prop where
  accepted : ∀ name ∈ names, ∃ relative, checkPath name = .ok relative
  endsInName : ∀ name ∈ names, (Path.ofString name).EndsInName
  length_le : ∀ name ∈ names, ∀ x ∈ (Path.ofString name).names, x.length ≤ maxNameLength
  eq_of_prefix : ∀ name ∈ names, ∀ name' ∈ names,
    (Path.ofString name).names <+: (Path.ofString name').names →
      (Path.ofString name).names = (Path.ofString name').names

/-- The files that entries are unpacked to, by the names in their paths. -/
def plannedFiles : (index : Nat) → List Entry → List (List Bytes × Bytes)
  | _, [] => []
  | index, e :: es =>
    ((Path.ofString (unpackedName index e.name)).names, e.content) :: plannedFiles (index + 1) es

/-- The last content that is written under some names. -/
def lastWritten (files : List (List Bytes × Bytes)) (names : List Bytes) : Option Bytes :=
  (files.reverse.find? fun file => file.1 == names).map (·.2)

/-- What files come to when they are written in their order: the last content under each list of names,
and directories for those that others go on behind. -/
def planOf (files : List (List Bytes × Bytes)) (names : List Bytes) : Option Shape :=
  match lastWritten files names with
  | some content => some (.file content)
  | none => if files.any fun file => names.isPrefixOf file.1 then some .directory else none

/-! ## Plans of files -/

section Plans

variable {files : List (List Bytes × Bytes)} {names names' : List Bytes} {content : Bytes}

theorem lastWritten_concat (files : List (List Bytes × Bytes)) (names : List Bytes)
    (content : Bytes) (names' : List Bytes) :
    lastWritten (files ++ [(names, content)]) names' =
      if names = names' then some content else lastWritten files names' := by
  rw [lastWritten, List.reverse_append, List.reverse_singleton, List.singleton_append,
    List.find?_cons]
  by_cases hnames : names = names'
  · simp [hnames]
  · have hne : (names == names') = false := by simp [hnames]
    dsimp only
    rw [hne, if_neg hnames]
    rfl

theorem exists_of_lastWritten (h : lastWritten files names = some content) :
    ∃ file ∈ files, file.1 = names := by
  obtain ⟨file, hfind, -⟩ := Option.map_eq_some_iff.1 h
  exact ⟨file, List.mem_reverse.1 (List.mem_of_find?_eq_some hfind),
    by simpa using List.find?_some hfind⟩

theorem ne_of_lastWritten (h : lastWritten files names = none) :
    ∀ file ∈ files, file.1 ≠ names := by
  rw [lastWritten, Option.map_eq_none_iff, List.find?_eq_none] at h
  intro file hmem
  simpa using h file (List.mem_reverse.2 hmem)

/-- In front of names behind which no file goes on, there are at most directories. -/
theorem planOf_of_prefix (hno : ∀ file ∈ files, file.1 <+: names → file.1 = names)
    (hlead : names' <+: names) (hne : names' ≠ names) :
    planOf files names' = none ∨ planOf files names' = some .directory := by
  unfold planOf
  cases hlast : lastWritten files names' with
  | some content =>
    obtain ⟨file, hmem, rfl⟩ := exists_of_lastWritten hlast
    exact absurd (hno file hmem hlead) hne
  | none =>
    dsimp only
    split_ifs
    · exact .inr rfl
    · exact .inl rfl

/-- Where no file goes on behind names, there is at most a file. -/
theorem planOf_of_last (hno : ∀ file ∈ files, names <+: file.1 → names = file.1) :
    planOf files names = none ∨ ∃ content, planOf files names = some (.file content) := by
  unfold planOf
  cases hlast : lastWritten files names with
  | some content => exact .inr ⟨content, rfl⟩
  | none =>
    left
    dsimp only
    rw [if_neg]
    intro hany
    obtain ⟨file, hmem, hlead⟩ := List.any_eq_true.1 hany
    exact ne_of_lastWritten hlast file hmem (hno file hmem (List.isPrefixOf_iff_prefix.1 hlead)).symm

/-- Writing one more file. -/
theorem planOf_concat (hno : ∀ file ∈ files, file.1 <+: names → file.1 = names) (hne : names ≠ [])
    (content : Bytes) (hne' : names' ≠ []) :
    planOf (files ++ [(names, content)]) names' = withFile (planOf files) names content names' := by
  by_cases hnames : names' = names
  · rw [hnames, withFile, Function.update_self, planOf, lastWritten_concat, if_pos rfl]
  · have hproper : names' <+: names.dropLast ↔ names' <+: names := by
      have hiff : names' <+: names.dropLast ++ [names.getLast hne] ↔ _ := List.prefix_concat_iff
      rw [List.dropLast_concat_getLast, or_iff_right hnames] at hiff
      exact hiff.symm
    rw [withFile, Function.update_of_ne hnames]
    by_cases hlead : names' <+: names
    · have hlast : lastWritten files names' = none := by
        cases hlast : lastWritten files names' with
        | none => rfl
        | some content' =>
          obtain ⟨file, hmem, rfl⟩ := exists_of_lastWritten hlast
          exact absurd (hno file hmem hlead) hnames
      have hwith : withDirectories (planOf files) names.dropLast names' = some .directory := by
        rw [withDirectories, if_pos ⟨hne', hproper.2 hlead⟩]
      rw [hwith, planOf, lastWritten_concat, if_neg (Ne.symm hnames), hlast]
      simp [List.isPrefixOf_iff_prefix.2 hlead]
    · have hwith : withDirectories (planOf files) names.dropLast names' = planOf files names' := by
        rw [withDirectories, if_neg fun h => hlead (hproper.1 h.2)]
      have hnot : names'.isPrefixOf names = false := by
        rw [← Bool.not_eq_true, List.isPrefixOf_iff_prefix]
        exact hlead
      have hany : (files ++ [(names, content)]).any (fun file => names'.isPrefixOf file.1) =
          files.any fun file => names'.isPrefixOf file.1 := by
        simp [hnot]
      rw [hwith, planOf, planOf, lastWritten_concat, if_neg (Ne.symm hnames), hany]

end Plans

/-! ## Names of entries -/

theorem map_plannedFiles (index : Nat) (es : List Entry) :
    (plannedFiles index es).map (·.1) =
      (unpackedNames index es).map fun name => (Path.ofString name).names := by
  induction es generalizing index with
  | nil => rfl
  | cons e es ih => rw [plannedFiles, unpackedNames, List.map_cons, List.map_cons, ih]

theorem ne_nil_of_mem_unpackedNames {name : String} (h : name ∈ unpackedNames index es) :
    (Path.ofString name).bytes ≠ [] := by
  induction es generalizing index with
  | nil => cases h
  | cons e es ih =>
    rcases List.mem_cons.1 h with rfl | h
    · exact unpackedName_ne_nil index e.name
    · exact ih h

/-- The name that a record holds ends before the first zero. -/
theorem zero_notMem_of_mem_unpackedNames {rs : List Record} {name : String}
    (h : name ∈ unpackedNames index (rs.map Record.entry)) : 0 ∉ (Path.ofString name).bytes := by
  induction rs generalizing index with
  | nil => cases h
  | cons r rs ih =>
    rcases List.mem_cons.1 h with rfl | h
    · intro hzero
      unfold unpackedName at hzero
      split_ifs at hzero
      · exact absurd ((encode_generatedName index).2 0 hzero).1 (by decide)
      · have hname : (Path.ofString r.entry.name).bytes = r.head.nameBytes := r.encode_name
        rw [hname] at hzero
        simpa using List.mem_takeWhile_imp hzero
    · exact ih h

/-! ## Extracting -/

section Extract

variable (hne : dir.bytes ≠ []) (hfind : base.find dir = .ok d)
  (hdir : base.isDirectory d = true) (hempty : base.entries d = [])

include hne hfind hdir hempty in
/-- Extracting entries whose names fit together, and to those that were extracted before. -/
theorem exec_extractList_planted (hlimit : base.pathLimit = none)
    {done : List (List Bytes × Bytes)} (hs : Planted base d (planOf done) s.state)
    (hcheck : ∀ name ∈ unpackedNames index es, ∃ relative, checkPath name = .ok relative)
    (hends : ∀ name ∈ unpackedNames index es, (Path.ofString name).EndsInName)
    (hlen : ∀ name ∈ unpackedNames index es, ∀ x ∈ (Path.ofString name).names,
      x.length ≤ maxNameLength)
    (hzero : ∀ name ∈ unpackedNames index es, 0 ∉ (Path.ofString name).bytes)
    (hlead : ∀ file ∈ done ++ plannedFiles index es, ∀ file' ∈ done ++ plannedFiles index es,
      file.1 <+: file'.1 → file.1 = file'.1) :
    ∃ files s', (extractList dir index es).exec s = (.ok files, s')
      ∧ Planted base d (planOf (done ++ plannedFiles index es)) s'.state := by
  induction es generalizing index done s with
  | nil =>
    refine ⟨[], s, rfl, ?_⟩
    rwa [plannedFiles, List.append_nil]
  | cons e es ih =>
    obtain ⟨⟨relative, haccepted⟩, hcheck⟩ := List.forall_mem_cons.1 hcheck
    obtain ⟨hends₁, hends⟩ := List.forall_mem_cons.1 hends
    obtain ⟨hlen₁, hlen⟩ := List.forall_mem_cons.1 hlen
    obtain ⟨hzero₁, hzero⟩ := List.forall_mem_cons.1 hzero
    obtain ⟨rfl, hstray⟩ := checkPath_eq_ok haccepted
    have hbytes := unpackedName_ne_nil index e.name
    have hsplit : done ++ plannedFiles index (e :: es) =
        done ++ [((Path.ofString (unpackedName index e.name)).names, e.content)]
          ++ plannedFiles (index + 1) es := by
      rw [plannedFiles, List.append_assoc]
      rfl
    rw [hsplit] at hlead ⊢
    have hnames := Path.names_ne_nil hstray hbytes
    generalize hrelative : Path.ofString (unpackedName index e.name) = relative at *
    have hmem : (relative.names, e.content) ∈
        done ++ [(relative.names, e.content)] ++ plannedFiles (index + 1) es := by simp
    have hdone : ∀ file ∈ done,
        file ∈ done ++ [(relative.names, e.content)] ++ plannedFiles (index + 1) es := by
      intro file hfile
      simp [hfile]
    have hbefore : ∀ file ∈ done, file.1 <+: relative.names → file.1 = relative.names :=
      fun file hfile => hlead file (hdone file hfile) _ hmem
    have hbehind : ∀ file ∈ done, relative.names <+: file.1 → relative.names = file.1 :=
      fun file hfile => hlead _ hmem file (hdone file hfile)
    obtain ⟨hbase, -⟩ := find_eq_ok_iff.1 hfind
    have haccepts : base.Accepts (dir.join relative) :=
      hbase.join (Path.isAbsolute_of_stray?_eq_none hstray) hzero₁ (by rw [hlimit]; rfl)
    obtain ⟨fs', hwrite, hplanted⟩ := hs.writeBelow hne hfind hdir hempty hstray hbytes hends₁
      haccepts hlen₁ (fun _ hfront hother => planOf_of_prefix hbefore hfront hother)
      (planOf_of_last hbehind) e.content []
    have hextract := exec_extract_accepted dir haccepted s
    rw [Task.start, hwrite] at hextract
    have hnext : Planted base d (planOf (done ++ [(relative.names, e.content)])) fs' :=
      hplanted.congr fun names hne' => (planOf_concat hbefore hnames e.content hne').symm
    obtain ⟨files, s', hlist, hall⟩ := ih (s := ⟨fs', _⟩) hnext hcheck hends hlen hzero hlead
    refine ⟨dir.join relative :: files, s', ?_, hall⟩
    rw [extractList, exec_bind_ok hextract, exec_bind_ok hlist]
    rfl

include hne hfind hdir hempty in
/-- Paths that all lead to files in the end are those of names that fit together. -/
theorem plantable_of_written (hgrown : base.Extends fs) {names : List String}
    (hbytes : ∀ name ∈ names, (Path.ofString name).bytes ≠ [])
    (h : ∀ name ∈ names, checkPath name = .ok (Path.ofString name)
      ∧ WrittenAt fs (dir.join (Path.ofString name))) : Plantable names := by
  have hlink : ∀ {front i target}, fs.descend d front = some i → fs.node? i ≠ some (.link target) :=
    fun hdesc => hgrown.no_link_of_descend hempty hdir hdesc
  have hreached : ∀ name ∈ names, ∃ i, fs.find (dir.join (Path.ofString name)) = .ok i
      ∧ fs.isDirectory i = false ∧ fs.descend d (Path.ofString name).names = some i
      ∧ ∀ x ∈ (Path.ofString name).names, x.length ≤ maxNameLength := by
    intro name hname
    obtain ⟨hcheck, i, hfind', -, hnot⟩ := h name hname
    obtain ⟨-, hstray⟩ := checkPath_eq_ok hcheck
    have hunder := Under.join hne hstray
    rw [Path.moves_eq_names hstray] at hunder
    exact ⟨i, hfind', hnot, descend_of_find (hgrown.find hfind) (hgrown.isDirectory hdir) hlink hunder
      (Path.names_ne_nil hstray (hbytes name hname)) hfind'⟩
  refine ⟨fun name hname => ⟨_, (h name hname).1⟩, ?_, ?_, ?_⟩
  · intro name hname
    obtain ⟨i, hfind', hnot, -⟩ := hreached name hname
    obtain ⟨-, hstray⟩ := checkPath_eq_ok (h name hname).1
    obtain ⟨-, left, hwalks⟩ := find_eq_ok_iff.1 hfind'
    by_contra hends
    have hsuffix : (Path.ofString name).bytes <:+ (dir.join (Path.ofString name)).bytes :=
      Path.suffix_join (Path.isAbsolute_of_stray?_eq_none hstray)
    have hends' : ¬(dir.join (Path.ofString name)).EndsInName := fun hjoin =>
      hends ⟨fun hslash => hjoin.1 (hslash.trans hsuffix), fun hdot => hjoin.2 (hdot.trans hsuffix)⟩
    rw [hwalks.isDirectory_of_last (Path.getLast?_ofPath hends')] at hnot
    cases hnot
  · intro name hname
    obtain ⟨i, -, -, -, hlen⟩ := hreached name hname
    exact hlen
  · rintro name hname name' hname' ⟨back, hback⟩
    obtain ⟨i, -, hnot, hdesc, -⟩ := hreached name hname
    obtain ⟨i', -, -, hdesc', -⟩ := hreached name' hname'
    by_cases hnil : back = []
    · rw [← hback, hnil, List.append_nil]
    · rw [← hback] at hdesc'
      rw [isDirectory_of_descend hdesc hnil hdesc'] at hnot
      cases hnot

end Extract

/-! ## The outcome -/

theorem below_of_empty {i : NodeId} (hempty : fs.entries d = []) (h : fs.Below d i) : i = d := by
  induction h with
  | self => rfl
  | child _ hbound ih =>
    rw [ih, child?, hempty] at hbound
    cases hbound

section Fresh

variable (hne : dir.bytes ≠ []) (hfresh : EmptyOutput fs dir base d)

include hfresh in
theorem EmptyOutput.prepared_eq : prepared fs dir = base := by
  rw [prepared, Task.start, hfresh.exec_prepareDirectory []]

include hne hfresh in
/-- No write below a directory that was empty reaches a file that was there. -/
theorem EmptyOutput.spared (hfile : fs.isFile j = true) : Spared dir j (prepared fs dir) := by
  rw [hfresh.prepared_eq]
  obtain ⟨hadds, hfind, hdir, hempty, -⟩ := hfresh.prepare hne []
  have hlt := Nat.lt_of_lt_of_le (lt_size_of_isFile hfile) hadds.size_le
  refine spared_of_not_below hne hfind hdir ?_ hlt ?_
  · intro i target hbelow hlink
    obtain ⟨parent, entries, hnode⟩ := isDirectory_iff.1 hdir
    rw [below_of_empty hempty hbelow, hnode] at hlink
    cases hlink
  · intro hbelow
    have hjd := below_of_empty hempty hbelow
    have hjfile := hadds.isFile hfile
    exact ne_of_isFile_of_isDirectory hjfile hdir hjd

include hne hfresh in
/-- Extracting entries into an empty directory. -/
theorem EmptyOutput.extractInto (hlimit : fs.pathLimit = none) {rs : List Record}
    (hnames : Plantable (unpackedNames 1 (rs.map Record.entry))) :
    ∃ files s, (extractInto dir (rs.map Record.entry)).start fs = (.ok files, s)
      ∧ Planted base d (planOf (plannedFiles 1 (rs.map Record.entry))) s.state := by
  obtain ⟨hadds, hfind, hdir, hempty, -⟩ := hfresh.prepare hne []
  have hlead : ∀ file ∈ [] ++ plannedFiles 1 (rs.map Record.entry),
      ∀ file' ∈ [] ++ plannedFiles 1 (rs.map Record.entry), file.1 <+: file'.1 →
        file.1 = file'.1 := by
    have hmem : ∀ {file}, file ∈ [] ++ plannedFiles 1 (rs.map Record.entry) →
        ∃ name ∈ unpackedNames 1 (rs.map Record.entry), (Path.ofString name).names = file.1 := by
      intro file hfile
      rw [← List.mem_map, ← map_plannedFiles]
      exact List.mem_map_of_mem hfile
    intro file hfile file' hfile'
    obtain ⟨name, hname, heq⟩ := hmem hfile
    obtain ⟨name', hname', heq'⟩ := hmem hfile'
    rw [← heq, ← heq']
    exact hnames.eq_of_prefix name hname name' hname'
  have hstart : Planted base d (planOf []) base := Planted.refl hdir hempty
  obtain ⟨files, s, hlist, hplanted⟩ := exec_extractList_planted
    (s := ⟨base, [] ++ createdEvents fs dir⟩) hne hfind hdir hempty (hadds.pathLimit.trans hlimit)
    hstart hnames.accepted hnames.endsInName hnames.length_le
    (fun name hname => zero_notMem_of_mem_unpackedNames hname) hlead
  refine ⟨files, s, ?_, hplanted⟩
  rw [Task.start, FlatArchive.extractInto, exec_bind_ok (hfresh.exec_prepareDirectory []), hlist]

variable {n : UInt8} {rs : List Record} {rest : Bytes} (himage : fs.find image = .ok j)
  (hnode : fs.node? j = some (.file (n :: (rs.flatMap Record.bytes ++ rest))))
  (hcount : rs.length = n.toNat)

include hne hfresh himage hnode hcount in
/-- What unpacking an image with all its records comes to. -/
theorem EmptyOutput.start_unpack : (unpack image dir).start fs =
    match (FlatArchive.extractInto dir (rs.map Record.entry)).start fs with
    | (.error e, s) => (.error e, s)
    | (.ok files, s) => (.ok ⟨files, rest.length⟩, ⟨s.state, s.events
        ++ (if (rs.map Record.entry).isEmpty then [.emptyImage] else [])
        ++ if rest.length > 0 then [.trailingData rest.length] else []⟩) := by
  have hspared := hfresh.spared hne (isFile_iff.2 ⟨_, hnode⟩)
  rw [exec_unpack_complete himage hspared hnode hcount, Task.start, exec_unpackEntries]
  rfl

include hne hfresh in
/-- If extracting into an empty directory succeeds, the names are such that it must. -/
theorem EmptyOutput.plantable_of_extractInto {files : List Path}
    (h : (FlatArchive.extractInto dir (rs.map Record.entry)).start fs = (.ok files, s)) :
    Plantable (unpackedNames 1 (rs.map Record.entry))
      ∧ files = (unpackedNames 1 (rs.map Record.entry)).map
          (fun name => dir.join (Path.ofString name))
      ∧ s.events = createdEvents fs dir ++ extractEvents dir 1 (rs.map Record.entry) := by
  obtain ⟨hadds, hfind, hdir, hempty, -⟩ := hfresh.prepare hne []
  rw [Task.start, FlatArchive.extractInto, exec_bind_ok (hfresh.exec_prepareDirectory [])] at h
  obtain ⟨hfiles, hevents, hwritten⟩ := extractList_eq_ok h
  have hgrown := extends_of_writes
    (writes_extractList dir 1 (rs.map Record.entry) ⟨base, [] ++ createdEvents fs dir⟩)
  rw [h] at hgrown
  exact ⟨plantable_of_written hne hfind hdir hempty hgrown
    (fun name hname => ne_nil_of_mem_unpackedNames hname) hwritten, hfiles, hevents⟩

include hne hfresh himage hnode hcount in
/-- Unpacking that succeeds has extracted all entries, and reports what else the image was like. -/
theorem EmptyOutput.extractInto_of_unpack {u : Unpacked}
    (h : (unpack image dir).start fs = (.ok u, s)) :
    ∃ t, (FlatArchive.extractInto dir (rs.map Record.entry)).start fs = (.ok u.files, t)
      ∧ s.state = t.state ∧ u.trailing = rest.length
      ∧ s.events = t.events ++ (if rs = [] then [.emptyImage] else [])
          ++ if rest = [] then [] else [.trailingData rest.length] := by
  rw [hfresh.start_unpack hne himage hnode hcount] at h
  rcases hextract : (FlatArchive.extractInto dir (rs.map Record.entry)).start fs with ⟨e | files, t⟩
  · rw [hextract] at h
    cases h
  · rw [hextract] at h
    cases h
    refine ⟨t, rfl, rfl, rfl, ?_⟩
    simp [List.length_pos_iff]

include hne hfresh himage hnode hcount in
/-- What is there, returned and reported when unpacking has succeeded. -/
theorem EmptyOutput.outcome {u : Unpacked} (hlimit : fs.pathLimit = none)
    (h : (unpack image dir).start fs = (.ok u, s)) :
    s.state.find dir = .ok d
      ∧ Planted base d (planOf (plannedFiles 1 (rs.map Record.entry))) s.state
      ∧ u.files = (unpackedNames 1 (rs.map Record.entry)).map
          (fun name => dir.join (Path.ofString name))
      ∧ u.trailing = rest.length
      ∧ s.events = createdEvents fs dir ++ (if rs = [] then [.emptyImage] else [])
          ++ extractEvents dir 1 (rs.map Record.entry)
          ++ if rest = [] then [] else [.trailingData rest.length] := by
  obtain ⟨t, hextract, hstate, htrailing, hreported⟩ :=
    hfresh.extractInto_of_unpack hne himage hnode hcount h
  obtain ⟨hnames, hfiles, hevents⟩ := hfresh.plantable_of_extractInto hne hextract
  obtain ⟨files, t', hextract', hplanted⟩ := hfresh.extractInto hne hlimit hnames
  rw [hextract] at hextract'
  cases hextract'
  obtain ⟨-, hfind, -⟩ := hfresh.prepare hne []
  rw [hstate, hreported, hevents]
  refine ⟨hplanted.extends_base.find hfind, hplanted, hfiles, htrailing, ?_⟩
  cases rs with
  | nil => simp [extractEvents]
  | cons r rs => simp

include hne hfresh himage in
/-- If unpacking succeeds, the image has all its records, and their names fit together. -/
theorem EmptyOutput.complete_of_unpack {bs : Bytes} {u : Unpacked}
    (hnode : fs.node? j = some (.file (n :: bs)))
    (h : (unpack image dir).start fs = (.ok u, s)) :
    ∃ (rs : List Record) (rest : Bytes), bs = rs.flatMap Record.bytes ++ rest
      ∧ rs.length = n.toNat ∧ Plantable (unpackedNames 1 (rs.map Record.entry)) := by
  rcases complete_or_stops n.toNat bs 1 with ⟨rs, rest, hcount, rfl, -⟩ |
    ⟨rs, bad, cause, hcount, rfl, hstops, -⟩
  · obtain ⟨t, hextract, -⟩ := hfresh.extractInto_of_unpack hne himage hnode hcount h
    exact ⟨rs, rest, rfl, hcount, (hfresh.plantable_of_extractInto hne hextract).1⟩
  · have hspared := hfresh.spared hne (isFile_iff.2 ⟨_, hnode⟩)
    rw [Nat.add_comm] at hstops
    rw [exec_unpack_stops himage hspared hnode hcount hstops, Task.start, exec_unpackUntil] at h
    split at h <;> cases h

end Fresh

/-- Unpacking into an empty directory succeeds if and only if the image has all the records that it
announces, and their names fit together. Then the directory holds exactly what the entries come to, and
all files and events are those of the entries in their order. -/
theorem unpack_fresh {n : UInt8} {bs : Bytes} (himage : fs.find image = .ok j)
    (hnode : fs.node? j = some (.file (n :: bs))) (hne : dir.bytes ≠ [])
    (hfresh : EmptyOutput fs dir base d) (hlimit : fs.pathLimit = none) :
    ((∃ u s, (unpack image dir).start fs = (.ok u, s)) ↔
        ∃ (rs : List Record) (rest : Bytes), bs = rs.flatMap Record.bytes ++ rest
          ∧ rs.length = n.toNat ∧ Plantable (unpackedNames 1 (rs.map Record.entry)))
      ∧ ∀ (rs : List Record) (rest : Bytes) (u : Unpacked) (s : Session FileSystem),
          bs = rs.flatMap Record.bytes ++ rest → rs.length = n.toNat →
          (unpack image dir).start fs = (.ok u, s) →
            s.state.find dir = .ok d
            ∧ Planted base d (planOf (plannedFiles 1 (rs.map Record.entry))) s.state
            ∧ u.files = (unpackedNames 1 (rs.map Record.entry)).map
                (fun name => dir.join (Path.ofString name))
            ∧ u.trailing = rest.length
            ∧ s.events = createdEvents fs dir ++ (if rs = [] then [.emptyImage] else [])
                ++ extractEvents dir 1 (rs.map Record.entry)
                ++ if rest = [] then [] else [.trailingData rest.length] := by
  refine ⟨⟨?_, ?_⟩, ?_⟩
  · rintro ⟨u, s, hunpack⟩
    exact hfresh.complete_of_unpack hne himage hnode hunpack
  · rintro ⟨rs, rest, rfl, hcount, hnames⟩
    obtain ⟨files, s, hextract, -⟩ := hfresh.extractInto hne hlimit hnames
    have hunpack := hfresh.start_unpack hne himage hnode hcount
    rw [hextract] at hunpack
    exact ⟨_, _, hunpack⟩
  · rintro rs rest u s rfl hcount hunpack
    exact hfresh.outcome hne himage hnode hcount hlimit hunpack

/-- Two spellings of one path: the second content is written over the first. -/
theorem unpack_fresh_twoSpellings : ∃ u s,
    (unpack (Path.ofString "i") (Path.ofString "w")).start (oneFilePacked none
        (2 :: (Entry.encode ⟨"b/c", [7]⟩ ++ Entry.encode ⟨"b//c", [8]⟩))) = (.ok u, s)
      ∧ u.files = [Path.ofString "w/b/c", Path.ofString "w/b//c"]
      ∧ s.state.shapeAt 2 [encode "b"] = some .directory
      ∧ s.state.shapeAt 2 [encode "b", encode "c"] = some (.file [8]) := by
  have hlen : (encode "b/c").length ≤ Name.maxLength := by decide
  have hlen' : (encode "b//c").length ≤ Name.maxLength := by decide
  have hzero : 0 ∉ encode "b/c" := by decide
  have hzero' : 0 ∉ encode "b//c" := by decide
  have hsize : [(7 : UInt8)].length < 2 ^ 64 := by decide
  have hsize' : [(8 : UInt8)].length < 2 ^ 64 := by decide
  obtain ⟨r, hr, hr_bytes⟩ : ∃ r : Record, r.entry = ⟨"b/c", [7]⟩
      ∧ r.bytes = Entry.encode ⟨"b/c", [7]⟩ := ⟨.ofEntry _ hlen hzero hsize, rfl, rfl⟩
  obtain ⟨r', hr', hr'_bytes⟩ : ∃ r : Record, r.entry = ⟨"b//c", [8]⟩
      ∧ r.bytes = Entry.encode ⟨"b//c", [8]⟩ := ⟨.ofEntry _ hlen' hzero' hsize', rfl, rfl⟩
  have hentries : [r, r'].map Record.entry = [⟨"b/c", [7]⟩, ⟨"b//c", [8]⟩] := by
    rw [List.map_cons, List.map_singleton, hr, hr']
  have hbytes : Entry.encode ⟨"b/c", [7]⟩ ++ Entry.encode ⟨"b//c", [8]⟩ =
      [r, r'].flatMap Record.bytes ++ [] := by
    rw [List.append_nil, List.flatMap_cons, List.flatMap_singleton, hr_bytes, hr'_bytes]
  have hnames : Plantable (unpackedNames 1 ([r, r'].map Record.entry)) := by
    rw [hentries]
    have hunpacked : unpackedNames 1 [⟨"b/c", [7]⟩, ⟨"b//c", [8]⟩] = ["b/c", "b//c"] := by cbv
    have hone : (Path.ofString "b/c").names = [encode "b", encode "c"] := by cbv
    have htwo : (Path.ofString "b//c").names = [encode "b", encode "c"] := by cbv
    rw [hunpacked]
    have hpair : ∀ {P : String → Prop}, P "b/c" → P "b//c" → ∀ name ∈ ["b/c", "b//c"], P name :=
      fun hb hb' => List.forall_mem_cons.2 ⟨hb, List.forall_mem_singleton.2 hb'⟩
    refine ⟨?_, ?_, ?_, ?_⟩
    · exact hpair ⟨Path.ofString "b/c", by cbv⟩ ⟨Path.ofString "b//c", by cbv⟩
    · exact hpair ⟨by decide, by decide⟩ ⟨by decide, by decide⟩
    · exact hpair (by rw [hone]; decide) (by rw [htwo]; decide)
    · exact hpair (hpair (fun _ => rfl) fun _ => hone.trans htwo.symm)
        (hpair (fun _ => htwo.trans hone.symm) fun _ => rfl)
  generalize Entry.encode ⟨"b/c", [7]⟩ ++ Entry.encode ⟨"b//c", [8]⟩ = bs at hbytes ⊢
  have himage : (oneFilePacked none (2 :: bs)).find (Path.ofString "i") = .ok 3 := by cbv
  have hfind : (oneFilePacked none (2 :: bs)).find (Path.ofString "w") = .ok 2 := by cbv
  obtain ⟨hiff, hall⟩ := unpack_fresh himage rfl (by decide) (.present hfind rfl rfl) rfl
  obtain ⟨u, s, hunpack⟩ := hiff.2 ⟨[r, r'], [], hbytes, rfl, hnames⟩
  obtain ⟨-, hplanted, hfiles, -⟩ := hall [r, r'] [] u s hbytes rfl hunpack
  rw [hentries] at hplanted hfiles
  refine ⟨u, s, hunpack, hfiles.trans (by cbv), ?_, ?_⟩
  · rw [hplanted.shape (List.cons_ne_nil _ _)]
    cbv
  · rw [hplanted.shape (List.cons_ne_nil _ _)]
    cbv

/-- A missing directory that leads to one that was there need not be empty: `w/x/..` is `w` again, and
holds `x`. -/
theorem not_exactly_planned : ∃ u s,
    (oneFilePacked none (1 :: Entry.encode ⟨"a", [7]⟩)).find (Path.ofString "w/x/..") =
        .error (.os .noEntry)
      ∧ (unpack (Path.ofString "i") (Path.ofString "w/x/..")).start
          (oneFilePacked none (1 :: Entry.encode ⟨"a", [7]⟩)) = (.ok u, s)
      ∧ s.state.find (Path.ofString "w/x/..") = .ok 2
      ∧ s.state.shapeAt 2 [encode "x"] ≠ planOf (plannedFiles 1 [⟨"a", [7]⟩]) [encode "x"] := by
  generalize himage : 1 :: Entry.encode ⟨"a", [7]⟩ = image
  obtain ⟨events, hunpack⟩ := unpack_oneFile_made himage
  have hshape : (oneFileMade image).shapeAt 2 [encode "x"] = some .directory := by cbv
  have hplan : planOf (plannedFiles 1 [⟨"a", [7]⟩]) [encode "x"] = none := by cbv
  refine ⟨_, _, by cbv, hunpack, by cbv, ?_⟩
  rw [hshape, hplan]
  exact Option.some_ne_none _

end FlatArchive
