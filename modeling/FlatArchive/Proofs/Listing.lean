-- SUMMARY: Listing accepts exactly the byte strings that are images, and tells of the first damage in others.
import FlatArchive.Proofs.ImageFile
import FlatArchive.Unpack

/-!
# Listing

A byte string is an image if it is a count and as many complete records, with any bytes behind them.
Listing a file that holds one shows the records, and on every other file it fails: with the header
if the file is empty, and else with the number of the first record that is damaged and the damage.
An image that is cut short is damaged in the record and the field in which the cut falls.
-/

namespace FlatArchive

open Attempt

variable {fs : FileSystem} {p : Path} {i : NodeId}

/-- What a listing shows of a record. -/
def Record.listed (index : Nat) (r : Record) : Listed := ⟨index, r.name, r.head.size.toNat⟩

/-- What a listing shows of records, the first of which is entry `index`. -/
def Record.listing (index : Nat) (rs : List Record) : List Listed :=
  (rs.zipIdx index).map fun (r, k) => r.listed k

theorem Record.listing_cons (index : Nat) (r : Record) (rs : List Record) :
    listing index (r :: rs) = r.listed index :: listing (index + 1) rs := rfl

/-! ## From an open image -/

/-- Listing goes past the records that come first, and on from where the image stands then. -/
theorem ImageFile.Stands.listRemaining_append {image : ImageFile} {header : Header}
    {decoded : Nat} (rs : List Record) (rest : Bytes) (m : Nat)
    (h : Stands fs i image header decoded (rs.flatMap Record.bytes ++ rest))
    (hcount : decoded + (rs.length + m) ≤ header.count) :
    ∃ image', Stands fs i image' header (decoded + rs.length) rest
      ∧ listRemaining fs (rs.length + m) image =
          (listRemaining fs m image').map (Record.listing (decoded + 1) rs ++ ·) := by
  induction rs generalizing image decoded with
  | nil =>
    refine ⟨image, h, ?_⟩
    rw [List.length_nil, Nat.zero_add]
    cases listRemaining fs m image <;> rfl
  | cons r rs ih =>
    rw [List.flatMap_cons, List.append_assoc] at h
    rw [List.length_cons] at hcount
    obtain ⟨image₁, hnext, hstands₁⟩ := h.next_record (by omega)
    obtain ⟨image₂, hstands₂, hlist⟩ := ih hstands₁ (by omega)
    refine ⟨image₂, ?_, ?_⟩
    · rwa [List.length_cons, Nat.add_comm rs.length, ← Nat.add_assoc]
    · rw [List.length_cons, Nat.add_right_comm, listRemaining, hnext]
      dsimp only
      rw [hlist, Record.listing_cons]
      have hentry : (⟨decoded + 1, r.entry.name, r.entry.size⟩ : Listed) = r.listed (decoded + 1) := by
        rw [Record.listed, ← r.length_content]
        rfl
      rw [hentry]
      cases listRemaining fs m image₂ <;> rfl

/-! ## From a file -/

variable {n : UInt8} {rs : List Record}

theorem list_of_empty (hfind : fs.find p = .ok i) (hfile : fs.node? i = some (.file [])) :
    list fs p = .error (.format (.truncated .header 1 0)) := by
  have hopen := ImageFile.ofPath_of_content_nil hfind (by simp [FileSystem.isFile, hfile])
    (by simp [FileSystem.content, hfile])
  rw [list, hopen]
  rfl

/-- Listing a file with records behind its count goes past them. -/
theorem list_append {rest : Bytes} {m : Nat} (hfind : fs.find p = .ok i)
    (hfile : fs.node? i = some (.file (n :: (rs.flatMap Record.bytes ++ rest))))
    (hcount : rs.length + m = n.toNat) :
    ∃ image, ImageFile.Stands fs i image ⟨n⟩ rs.length rest
      ∧ list fs p = (listRemaining fs m image).map (Record.listing 1 rs ++ ·) := by
  have hcontent : fs.content i = n :: (rs.flatMap Record.bytes ++ rest) := by
    rw [FileSystem.content, hfile]
  obtain ⟨image, hopen, -, hstands⟩ :=
    ImageFile.ofPath_of_content_cons hfind (by simp [FileSystem.isFile, hfile]) hcontent
  have hheader : (⟨n⟩ : Header).count = n.toNat := rfl
  obtain ⟨image', hstands', hlist⟩ :=
    hstands.listRemaining_append rs rest m (Nat.le_of_eq (by rw [Nat.zero_add, hcount, hheader]))
  rw [Nat.zero_add] at hstands' hlist
  refine ⟨image', hstands', ?_⟩
  rw [← hlist, hcount, list, hopen, ← hheader, ← Nat.sub_zero (Header.count ⟨n⟩),
    ← hstands.remaining]
  rfl

theorem list_of_records {rest : Bytes} (hfind : fs.find p = .ok i)
    (hfile : fs.node? i = some (.file (n :: (rs.flatMap Record.bytes ++ rest))))
    (hcount : rs.length = n.toNat) : list fs p = .ok (Record.listing 1 rs) := by
  obtain ⟨image, -, hlist⟩ := list_append (m := 0) hfind hfile hcount
  rw [hlist, listRemaining, Except.map, List.append_nil]

theorem list_of_damage {bad : Bytes} {e : FormatError} (hfind : fs.find p = .ok i)
    (hfile : fs.node? i = some (.file (n :: (rs.flatMap Record.bytes ++ bad))))
    (hcount : rs.length < n.toNat) (hdamage : Damage bad e) :
    list fs p = .error (.entry (rs.length + 1) (.format e)) := by
  obtain ⟨m, hm⟩ := Nat.exists_eq_add_of_lt hcount
  obtain ⟨image, hstands, hlist⟩ := list_append (m := m + 1) hfind hfile hm.symm
  obtain ⟨image', hnext⟩ := hstands.next_damage hcount hdamage
  rw [hlist, listRemaining, hnext]
  rfl

/-! ## Cuts -/

/-- The error of a record of which only the first `o` bytes are there. -/
def Record.cut (r : Record) (o : Nat) : FormatError :=
  if o < Head.sizeWidth then .truncated .size Head.sizeWidth o
  else if o < Head.length then .truncated .name Name.fieldSize (o - Head.sizeWidth)
  else .truncated .content r.head.size.toNat (o - Head.length)

theorem Record.damage_take (r : Record) {o : Nat} (h : o < r.bytes.length) :
    Damage (r.bytes.take o) (r.cut o) := by
  have hlen : (r.bytes.take o).length = o := List.length_take_of_le (Nat.le_of_lt h)
  unfold cut
  split_ifs with hsize hhead
  · have hdamage : Damage (r.bytes.take o) (.truncated .size _ (r.bytes.take o).length) :=
      .size (by rwa [hlen])
    rwa [hlen] at hdamage
  · obtain ⟨k, rfl⟩ := Nat.exists_eq_add_of_le (Nat.le_of_not_lt hsize)
    have hk : k < Name.fieldSize := by
      simp only [Head.length] at hhead
      omega
    have hpart : ((r.head.nameField ++ r.content).take k).length = k := by
      refine List.length_take_of_le ?_
      rw [List.length_append, r.head.length_nameField]
      omega
    have hwidth := Bytes.length_ofNat Head.sizeWidth r.head.size.toNat
    have htake : r.bytes.take (Head.sizeWidth + k) =
        Bytes.ofNat Head.sizeWidth r.head.size.toNat ++ (r.head.nameField ++ r.content).take k := by
      rw [bytes, Head.toBytes, List.append_assoc]
      nth_rewrite 1 [← hwidth]
      exact List.take_length_add_append _
    have hdamage := Damage.name hwidth (show List.length (List.take k _) < _ by rwa [hpart])
    rw [← htake, hpart] at hdamage
    rwa [Nat.add_sub_cancel_left]
  · obtain ⟨k, rfl⟩ := Nat.exists_eq_add_of_le (Nat.le_of_not_lt hhead)
    rw [length_bytes, r.length_content] at h
    have hk : k < r.head.size.toNat := Nat.lt_of_add_lt_add_left h
    have hpart : (r.content.take k).length = k :=
      List.length_take_of_le (by rw [r.length_content]; exact Nat.le_of_lt hk)
    have htake : r.bytes.take (Head.length + k) = r.head.toBytes ++ r.content.take k := by
      rw [bytes, ← Head.length_toBytes r.head]
      exact List.take_length_add_append _
    have hdamage := Damage.content r.encode_name (show (r.content.take k).length < _ by rwa [hpart])
    rw [← htake, hpart] at hdamage
    rwa [Nat.add_sub_cancel_left]

/-- A cut through records falls into one of them. -/
theorem take_flatMap_bytes (rs : List Record) {c : Nat} (h : c < (rs.flatMap Record.bytes).length) :
    ∃ before r after o, rs = before ++ r :: after ∧ o < r.bytes.length
      ∧ c = (before.flatMap Record.bytes).length + o
      ∧ (rs.flatMap Record.bytes).take c = before.flatMap Record.bytes ++ r.bytes.take o := by
  induction rs generalizing c with
  | nil => exact absurd h (Nat.not_lt_zero c)
  | cons r rs ih =>
    rw [List.flatMap_cons] at h ⊢
    rcases Nat.lt_or_ge c r.bytes.length with hin | hpast
    · exact ⟨[], r, rs, c, rfl, hin, by simp, by simp [List.take_append_of_le_length (Nat.le_of_lt hin)]⟩
    · obtain ⟨c, rfl⟩ := Nat.exists_eq_add_of_le hpast
      rw [List.length_append] at h
      obtain ⟨before, r', after, o, rfl, ho, rfl, htake⟩ := ih (Nat.lt_of_add_lt_add_left h)
      refine ⟨r :: before, r', after, o, rfl, ho, ?_, ?_⟩
      · rw [List.flatMap_cons, List.length_append, Nat.add_assoc]
      · rw [List.take_length_add_append, htake, List.flatMap_cons, List.append_assoc]

theorem list_of_take {rest : Bytes} (hcount : rs.length = n.toNat) {c : Nat}
    (hcut : c < 1 + (rs.flatMap Record.bytes).length) (hfind : fs.find p = .ok i)
    (hfile : fs.node? i = some (.file ((n :: (rs.flatMap Record.bytes ++ rest)).take c))) :
    c = 0 ∧ list fs p = .error (.format (.truncated .header 1 0)) ∨
      ∃ before r after o, rs = before ++ r :: after ∧ o < r.bytes.length
        ∧ c = 1 + (before.flatMap Record.bytes).length + o
        ∧ list fs p = .error (.entry (before.length + 1) (.format (r.cut o))) := by
  cases c with
  | zero => exact .inl ⟨rfl, list_of_empty hfind hfile⟩
  | succ c =>
    right
    rw [Nat.add_comm] at hcut
    have hcut' : c < (rs.flatMap Record.bytes).length := Nat.lt_of_add_lt_add_left hcut
    obtain ⟨before, r, after, o, rfl, ho, hc, htake⟩ := take_flatMap_bytes rs hcut'
    refine ⟨before, r, after, o, rfl, ho, by omega, ?_⟩
    rw [List.take_succ_cons, List.take_append_of_le_length (Nat.le_of_lt hcut'), htake] at hfile
    refine list_of_damage hfind hfile ?_ (r.damage_take ho)
    rw [← hcount, List.length_append, List.length_cons]
    omega

/-! ## The whole of it -/

/-- What listing a regular file gives, for every content that it can have: the records of an image,
the header's error for an empty file, and else the error of the first record that is damaged. The
first bytes of an image are damaged in the field in which they end. -/
theorem list_file {b : Bytes} (hfind : fs.find p = .ok i) (hfile : fs.node? i = some (.file b)) :
    (∀ entries, list fs p = .ok entries ↔
        ∃ (n : UInt8) (rs : List Record) (rest : Bytes),
          b = n :: (rs.flatMap Record.bytes ++ rest) ∧ rs.length = n.toNat
            ∧ entries = Record.listing 1 rs)
      ∧ (∀ e, list fs p = .error e ↔
          b = [] ∧ e = .format (.truncated .header 1 0) ∨
            ∃ (n : UInt8) (rs : List Record) (bad : Bytes) (cause : FormatError),
              b = n :: (rs.flatMap Record.bytes ++ bad) ∧ rs.length < n.toNat ∧ Damage bad cause
                ∧ e = .entry (rs.length + 1) (.format cause))
      ∧ ∀ (n : UInt8) (rs : List Record) (rest : Bytes),
          b = n :: (rs.flatMap Record.bytes ++ rest) → rs.length = n.toNat →
          ∀ c < 1 + (rs.flatMap Record.bytes).length, ∀ fs' p' i',
            FileSystem.find fs' p' = .ok i' → fs'.node? i' = some (.file (b.take c)) →
            c = 0 ∧ list fs' p' = .error (.format (.truncated .header 1 0)) ∨
              ∃ before r after o, rs = before ++ r :: after ∧ o < r.bytes.length
                ∧ c = 1 + (before.flatMap Record.bytes).length + o
                ∧ list fs' p' = .error (.entry (before.length + 1) (.format (r.cut o))) := by
  refine ⟨fun entries => ⟨fun hlist => ?_, ?_⟩, fun e => ⟨fun hlist => ?_, ?_⟩, ?_⟩
  · cases b with
    | nil =>
      rw [list_of_empty hfind hfile] at hlist
      cases hlist
    | cons n bs =>
      rcases records_or_damage n.toNat bs with ⟨rs, rest, hlen, rfl⟩ | ⟨rs, bad, e, hlen, rfl, hbad⟩
      · rw [list_of_records hfind hfile hlen] at hlist
        cases hlist
        exact ⟨n, rs, rest, rfl, hlen, rfl⟩
      · rw [list_of_damage hfind hfile hlen hbad] at hlist
        cases hlist
  · rintro ⟨n, rs, rest, rfl, hlen, rfl⟩
    exact list_of_records hfind hfile hlen
  · cases b with
    | nil =>
      rw [list_of_empty hfind hfile] at hlist
      cases hlist
      exact .inl ⟨rfl, rfl⟩
    | cons n bs =>
      right
      rcases records_or_damage n.toNat bs with ⟨rs, rest, hlen, rfl⟩ | ⟨rs, bad, e, hlen, rfl, hbad⟩
      · rw [list_of_records hfind hfile hlen] at hlist
        cases hlist
      · rw [list_of_damage hfind hfile hlen hbad] at hlist
        cases hlist
        exact ⟨n, rs, bad, e, rfl, hlen, hbad, rfl⟩
  · rintro (⟨rfl, rfl⟩ | ⟨n, rs, bad, cause, rfl, hlen, hbad, rfl⟩)
    · exact list_of_empty hfind hfile
    · exact list_of_damage hfind hfile hlen hbad
  · rintro n rs rest rfl hlen c hcut fs' p' i' hfind' hfile'
    exact list_of_take hlen hcut hfind' hfile'

/-- A file that ends in the size of its first record. -/
theorem list_cut_in_size :
    let fs : FileSystem := ⟨#[.directory 0 [([0x61], 1)], .file [1, 5, 0, 0]], 0, 0, none, 4096⟩
    fs.find ⟨[0x61]⟩ = .ok 1 ∧ fs.node? 1 = some (.file [1, 5, 0, 0])
      ∧ list fs ⟨[0x61]⟩ = .error (.entry 1 (.format (.truncated .size 8 3))) := by
  intro fs
  have hfind : fs.find ⟨[0x61]⟩ = .ok 1 := by cbv
  have hfile : fs.node? 1 = some (.file [1, 5, 0, 0]) := rfl
  have hdamage : Damage [5, 0, 0] (.truncated .size Head.sizeWidth 3) := .size (by decide)
  obtain ⟨-, herror, -⟩ := list_file hfind hfile
  exact ⟨hfind, hfile, (herror _).2 (.inr ⟨1, [], [5, 0, 0], _, rfl, by decide, hdamage, rfl⟩)⟩

end FlatArchive
