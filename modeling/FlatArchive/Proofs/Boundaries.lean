-- SUMMARY: Where the characters of a text begin, told from its bytes, and the longest front that fits.
import FlatArchive.Image.Head
import FlatArchive.Proofs.NameField

/-!
# Boundaries of characters

A place in an encoded text lies between two characters if the byte behind it follows no other byte in
the encoding of one: a single byte tells. So the longest front of a text that has at most so many bytes
is found from its end too, by going back byte by byte. The search ends at the start of the text at the
latest, and it goes back over three bytes at most, since a character has no more than four.

This is where a name is cut that does not fit its field. What is stored is text again, and the field
ends in a zero.
-/

namespace FlatArchive.Text.Utf8

/-! ## Boundaries -/

/-- A byte that only stands behind the first one of a character. -/
def isFollower (b : UInt8) : Bool := decide (0x80 ≤ b.toNat ∧ b.toNat < 0xC0)

/-- Whether a character can begin or the text end at byte `k`, as far as this one byte tells. -/
def isBoundary (bs : Bytes) (k : Nat) : Bool :=
  k == 0 || match bs[k]? with
    | some b => !isFollower b
    | none => k == bs.length

/-- The last boundary up to `k`, searched for backwards; none if the search comes to go below 0. -/
def boundaryBack (bs : Bytes) : (k : Nat) → Option Nat
  | 0 => if isBoundary bs 0 then some 0 else none
  | k + 1 => if isBoundary bs (k + 1) then some (k + 1) else boundaryBack bs k

theorem boundaryBack_eq_some {bs : Bytes} {j k : Nat} (hle : j ≤ k) (hj : isBoundary bs j = true)
    (hlast : ∀ i, j < i → i ≤ k → isBoundary bs i = false) : boundaryBack bs k = some j := by
  induction k with
  | zero =>
    obtain rfl := Nat.le_zero.1 hle
    exact if_pos hj
  | succ k ih =>
    rw [boundaryBack]
    rcases Nat.eq_or_lt_of_le hle with rfl | hlt
    · exact if_pos hj
    · rw [hlast (k + 1) hlt (Nat.le_refl _), if_neg Bool.false_ne_true]
      exact ih (Nat.le_of_lt_succ hlt) fun i hi hik => hlast i hi (Nat.le_succ_of_le hik)

/-! ## The bytes of a character -/

theorem ranges_of_followers {b : Nat} {ranges : List (Nat × Nat)} (h : followers b = some ranges) :
    ∀ r ∈ ranges, 0x80 ≤ r.1 ∧ r.2 ≤ 0xBF := by
  unfold followers at h
  split_ifs at h <;> cases h <;> decide

theorem isFollower_of_matchRanges {n : Nat} {ranges : List (Nat × Nat)} {bs : Bytes}
    (hranges : ∀ r ∈ ranges, 0x80 ≤ r.1 ∧ r.2 ≤ 0xBF) (h : matchRanges n ranges bs = .full) :
    ∀ b ∈ bs.take ranges.length, isFollower b = true := by
  induction ranges generalizing n bs with
  | nil =>
    intro b hb
    cases hb
  | cons r ranges ih =>
    obtain ⟨hr, hrest⟩ := List.forall_mem_cons.1 hranges
    obtain ⟨x, rest, rfl, hx, hmatch⟩ := matchRanges_cons_full.1 h
    rw [List.length_cons, List.take_succ_cons, List.forall_mem_cons]
    refine ⟨decide_eq_true ?_, ih hrest hmatch⟩
    omega

/-- The first byte of a character follows no other, and all others do. -/
theorem encodeChar_cons (c : Char) : ∃ b bs, String.utf8EncodeChar c = b :: bs
    ∧ isFollower b = false ∧ ∀ x ∈ bs, isFollower x = true := by
  obtain ⟨b, bs, ranges, hc, hfollow, hlength, hmatch, -⟩ := spelling_encodeChar c
  refine ⟨b, bs, hc, decide_eq_false ?_, ?_⟩
  · have := followers_cases hfollow
    omega
  · have hbytes := isFollower_of_matchRanges (ranges_of_followers hfollow) (hmatch [])
    rwa [List.append_nil, hlength, List.take_length] at hbytes

theorem isBoundary_encodeList_zero (cs : List Char) : ∀ b, (encodeList cs)[0]? = some b →
    isFollower b = false := by
  intro b hb
  cases cs with
  | nil => cases hb
  | cons c cs =>
    obtain ⟨first, bs, hc, hfirst, -⟩ := encodeChar_cons c
    rw [encodeList_cons, hc] at hb
    cases hb
    exact hfirst

/-- Behind a character the boundaries are those of the rest. -/
theorem isBoundary_append {front : Bytes} (hne : front ≠ []) (cs : List Char) (k : Nat) :
    isBoundary (front ++ encodeList cs) (front.length + k) = isBoundary (encodeList cs) k := by
  have hpos := List.length_pos_iff.2 hne
  have hbyte : (front ++ encodeList cs)[front.length + k]? = (encodeList cs)[k]? := by
    rw [List.getElem?_append_right (Nat.le_add_right _ _), Nat.add_sub_cancel_left]
  have hzero : (front.length + k == 0) = false := beq_false_of_ne (by omega)
  have hend : (front.length + k == (front ++ encodeList cs).length) = (k == (encodeList cs).length) := by
    rw [List.length_append, Bool.eq_iff_iff, beq_iff_eq, beq_iff_eq, Nat.add_left_cancel_iff]
  rw [isBoundary, isBoundary, hbyte, hzero, Bool.false_or, hend]
  cases k with
  | succ k => rfl
  | zero =>
    cases hfirst : (encodeList cs)[0]? with
    | none =>
      rw [List.getElem?_eq_none_iff, Nat.le_zero] at hfirst
      rw [hfirst]
      rfl
    | some b =>
      dsimp only
      rw [isBoundary_encodeList_zero cs b hfirst]
      rfl

/-- A byte tells truly whether a character begins with it: the boundaries of an encoded text are where
its fronts end. -/
theorem isBoundary_encodeList_iff {cs : List Char} {k : Nat} :
    isBoundary (encodeList cs) k = true ↔
      ∃ front, front <+: cs ∧ (encodeList front).length = k := by
  induction cs generalizing k with
  | nil =>
    have hnil : isBoundary (encodeList []) k = true ↔ k = 0 := by
      simp [isBoundary]
    rw [hnil]
    constructor
    · rintro rfl
      exact ⟨[], List.prefix_rfl, rfl⟩
    · rintro ⟨front, hfront, rfl⟩
      rw [List.prefix_nil.1 hfront]
      rfl
  | cons c cs ih =>
    obtain ⟨b, bs, hc, -, hbs⟩ := encodeChar_cons c
    have hfronts : (∃ front, front <+: c :: cs ∧ (encodeList front).length = k) ↔
        k = 0 ∨ ∃ front, front <+: cs ∧ (b :: bs).length + (encodeList front).length = k := by
      simp only [List.prefix_cons_iff, or_and_right, exists_or, exists_eq_left, encodeList_nil,
        List.length_nil, eq_comm (a := 0)]
      refine or_congr_right ⟨?_, ?_⟩
      · rintro ⟨_, ⟨front, rfl, hfront⟩, hlength⟩
        rw [encodeList_cons, hc, List.length_append] at hlength
        exact ⟨front, hfront, hlength⟩
      · rintro ⟨front, hfront, hlength⟩
        refine ⟨c :: front, ⟨front, rfl, hfront⟩, ?_⟩
        rw [encodeList_cons, hc, List.length_append]
        exact hlength
    rw [hfronts, encodeList_cons, hc]
    -- The place is the start of the text, or it lies within the first character or behind it.
    rcases Nat.eq_zero_or_pos k with rfl | hpos
    · exact iff_of_true rfl (.inl rfl)
    rcases Nat.lt_or_ge k (b :: bs).length with hwithin | hbehind
    · refine iff_of_false ?_ ?_
      · obtain ⟨j, rfl⟩ := Nat.exists_eq_succ_of_ne_zero hpos.ne'
        have hj : j < bs.length := Nat.lt_of_succ_lt_succ hwithin
        have hbyte : (b :: bs ++ encodeList cs)[j + 1]? = some bs[j] := by
          rw [List.getElem?_append_left hwithin, List.getElem?_cons_succ, List.getElem?_eq_getElem hj]
        rw [isBoundary, hbyte]
        dsimp only
        rw [hbs _ (List.getElem_mem hj)]
        exact Bool.false_ne_true
      · rintro (rfl | ⟨front, -, hlength⟩)
        · exact Nat.lt_irrefl 0 hpos
        · omega
    · obtain ⟨j, rfl⟩ := Nat.exists_eq_add_of_le hbehind
      rw [isBoundary_append (List.cons_ne_nil _ _), ih]
      simp only [Nat.add_left_cancel_iff]
      constructor
      · exact .inr
      · rintro (hzero | hfront)
        · omega
        · exact hfront

theorem isBoundary_encode_iff {s : String} {k : Nat} : isBoundary (encode s) k = true ↔
    ∃ front : String, front.toList <+: s.toList ∧ (encode front).length = k := by
  rw [encode, isBoundary_encodeList_iff]
  constructor
  · rintro ⟨front, hfront, hlength⟩
    refine ⟨String.ofList front, ?_, ?_⟩
    · rwa [String.toList_ofList]
    · rwa [encode, String.toList_ofList]
  · rintro ⟨front, hfront, hlength⟩
    exact ⟨front.toList, hfront, hlength⟩

end FlatArchive.Text.Utf8

namespace FlatArchive.Name

open Text.Utf8

/-! ## The longest front that fits -/

theorem isFront_takeFitting {room : Nat} {front cs : List Char} (h : front <+: cs)
    (hlength : (encodeList front).length ≤ room) : front <+: takeFitting room cs := by
  induction cs generalizing room front with
  | nil => exact h
  | cons c cs ih =>
    rcases List.prefix_cons_iff.1 h with rfl | ⟨front, rfl, hfront⟩
    · exact List.nil_prefix
    · rw [encodeList_cons, List.length_append, String.length_utf8EncodeChar] at hlength
      rw [takeFitting, if_pos (by omega)]
      exact (List.prefix_cons_inj c).2 (ih hfront (by omega))

/-- The room that is left over is less than a character may need. -/
theorem lt_length_takeFitting {room : Nat} {cs : List Char} (h : room < (encodeList cs).length) :
    room < (encodeList (takeFitting room cs)).length + 4 := by
  induction cs generalizing room with
  | nil => cases h
  | cons c cs ih =>
    rw [encodeList_cons, List.length_append, String.length_utf8EncodeChar] at h
    have hfour := c.utf8Size_le_four
    rw [takeFitting]
    split_ifs with hfits
    · have hrest : room - c.utf8Size <
          (encodeList (takeFitting (room - c.utf8Size) cs)).length + 4 := ih (by omega)
      rw [encodeList_cons, List.length_append, String.length_utf8EncodeChar]
      omega
    · omega

theorem length_le_of_isFront {name front : String} (h : front.toList <+: name.toList)
    (hlength : (encode front).length ≤ maxLength) :
    (encode front).length ≤ (encode (fit name)).length := by
  have hfit := isFront_takeFitting h hlength
  rw [encode, encode, fit, String.toList_ofList]
  exact (hfit.flatMap _).length_le

theorem isBoundary_fit (name : String) :
    isBoundary (encode name) (encode (fit name)).length = true := by
  rw [isBoundary_encode_iff]
  refine ⟨fit name, ?_, rfl⟩
  rw [fit, String.toList_ofList]
  exact takeFitting_isFront maxLength name.toList

/-- A boundary behind what fits is too far. -/
theorem maxLength_lt_of_isBoundary {name : String} {k : Nat}
    (h : isBoundary (encode name) k = true) (hlt : (encode (fit name)).length < k) :
    maxLength < k := by
  obtain ⟨front, hfront, rfl⟩ := isBoundary_encode_iff.1 h
  by_contra hle
  exact Nat.not_lt.2 (length_le_of_isFront hfront (Nat.not_lt.1 hle)) hlt

/-- Searched for from behind, the end of what fits is found. -/
theorem boundaryBack_encode (name : String) :
    boundaryBack (encode name) (min (encode name).length maxLength) =
      some (encode (fit name)).length := by
  refine boundaryBack_eq_some ?_ (isBoundary_fit name) fun i hi hle => ?_
  · exact Nat.le_min.2 ⟨(encode_fit_isFront name).length_le, length_encode_fit name⟩
  · by_contra htrue
    have hlt := maxLength_lt_of_isBoundary (Bool.not_eq_false _ ▸ htrue) hi
    omega

/-- Byte 4 lies within the second `é`. -/
example : boundaryBack (encode "aéé") 4 = some 3 := by decide +kernel

theorem getLast?_toField (name : String) : (toField name).getLast? = some 0 := by
  have hlength := length_encode_fit name
  rw [toField, List.getLast?_append, List.getLast?_replicate, if_neg, Option.some_or]
  simp only [fieldSize, maxLength] at hlength ⊢
  omega

/-- What is kept of a name can be read. -/
theorem name_ofName (name : String) (size : UInt64) :
    (Head.ofName name size).name = .ok (kept name) := by
  have hbytes : encode (kept name) = (Head.ofName name size).nameBytes :=
    (ofField_toField_eq name).symm
  rw [Head.name, decode_eq_ok_iff.2 hbytes]

/-- What fits of a name is its longest front of at most 255 bytes. It is the name itself if that has no
more bytes, and otherwise it has 252 bytes or more; nothing of it is cut again. It ends where a search
from the back finds a boundary, and a boundary, as one byte tells it, is where some front ends. The
field has 256 bytes, of which the last is a zero, and holds a name that is text. -/
theorem fit_is_longest_front (name : String) :
    (fit name).toList <+: name.toList
      ∧ encode (fit name) <+: encode name
      ∧ isBoundary (encode name) (encode (fit name)).length = true
      ∧ (encode (fit name)).length ≤ 255
      ∧ (∀ k, isBoundary (encode name) k = true → (encode (fit name)).length < k → 255 < k)
      ∧ (∀ k, isBoundary (encode name) k = true ↔
          ∃ front : String, front.toList <+: name.toList ∧ (encode front).length = k)
      ∧ (fit name = name ↔ (encode name).length ≤ 255)
      ∧ (255 < (encode name).length → 252 ≤ (encode (fit name)).length)
      ∧ fit (fit name) = fit name
      ∧ boundaryBack (encode name) (min (encode name).length 255) = some (encode (fit name)).length
      ∧ (toField name).length = 256
      ∧ (toField name).getLast? = some 0
      ∧ ∀ size, (Head.ofName name size).name = .ok (kept name) := by
  have hfront : (fit name).toList <+: name.toList := by
    rw [fit, String.toList_ofList]
    exact takeFitting_isFront maxLength name.toList
  have hcut : 255 < (encode name).length → 252 ≤ (encode (fit name)).length := by
    intro hlong
    have hroom : maxLength < (encodeList (takeFitting maxLength name.toList)).length + 4 :=
      lt_length_takeFitting hlong
    rw [encode, fit, String.toList_ofList]
    simp only [maxLength] at hroom ⊢
    omega
  exact ⟨hfront, encode_fit_isFront name, isBoundary_fit name, length_encode_fit name,
    fun k => maxLength_lt_of_isBoundary, fun k => isBoundary_encode_iff, fit_eq_self_iff, hcut,
    fit_fit name, boundaryBack_encode name, length_toField name, getLast?_toField name,
    name_ofName name⟩

end FlatArchive.Name
