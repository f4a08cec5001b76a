-- SUMMARY: What of a name its field gives back, and how a name that was read fits its field.
import FlatArchive.Proofs.Record

/-!
# What a name field holds

A name is stored cut to what fits the field, and the field ends at the first zero. So of a name that
is written its field gives back what fits, up to the first zero character: a zero byte is the encoding
of that character and part of no other.

A name that was read has no zero byte. Its field has room for it and a closing zero unless the name
filled the whole field; then it is cut when it is written again.
-/

namespace FlatArchive.Name

open Text.Utf8

/-! ## Names that are written -/

/-- A zero byte is the encoding of the zero character and part of no other. -/
theorem zero_mem_encodeChar {c : Char} : 0 ∈ String.utf8EncodeChar c ↔ c = '\x00' := by
  rw [mem_encodeChar_of_ascii (by decide), ← Char.toNat_inj]
  rfl

theorem takeWhile_encodeList (cs : List Char) :
    (encodeList cs).takeWhile (· != 0) = encodeList (cs.takeWhile (· != '\x00')) := by
  induction cs with
  | nil => rfl
  | cons c cs ih =>
    rw [encodeList_cons]
    by_cases hc : c = '\x00'
    · subst hc
      rfl
    · have hbytes : ∀ b ∈ String.utf8EncodeChar c, (b != 0) = true := by
        intro b hb
        rw [bne_iff_ne]
        rintro rfl
        exact hc (zero_mem_encodeChar.1 hb)
      have hchar : (c != '\x00') = true := bne_iff_ne.2 hc
      rw [List.takeWhile_append_of_pos hbytes, ih, List.takeWhile_cons, if_pos hchar, encodeList_cons]

/-- What a name is read back as once it was written: its characters that fit the field, up to the
first zero. -/
def kept (name : String) : String := String.ofList ((fit name).toList.takeWhile (· != '\x00'))

theorem encode_kept (name : String) :
    encode (kept name) = (encode (fit name)).takeWhile (· != 0) := by
  rw [encode, encode, kept, String.toList_ofList, takeWhile_encodeList]

/-- The field of a name gives back what is kept of it. -/
theorem ofField_toField_eq (name : String) : ofField (toField name) = encode (kept name) := by
  obtain ⟨k, hk⟩ : ∃ k, fieldSize - (encode (fit name)).length = k + 1 := by
    have hlen := length_encode_fit name
    refine Nat.exists_eq_succ_of_ne_zero ?_
    simp only [fieldSize, maxLength] at hlen ⊢
    omega
  rw [encode_kept, ofField, toField, hk, List.replicate_succ, List.takeWhile_append]
  split
  · next hall =>
    have hfront := List.takeWhile_prefix (· != 0) (l := encode (fit name))
    rw [hfront.eq_of_length hall]
    simp
  · rfl

/-- A name that fits its field and has no zero byte is kept as it is. -/
theorem kept_of_fits {name : String} (hlen : (encode name).length ≤ maxLength)
    (hzero : 0 ∉ encode name) : kept name = name :=
  encode_injective ((ofField_toField_eq name).symm.trans (ofField_toField hlen hzero))

/-! ## Names that were read -/

theorem takeFitting_isFront (room : Nat) (cs : List Char) : takeFitting room cs <+: cs := by
  induction cs generalizing room with
  | nil => exact List.prefix_refl []
  | cons c cs ih =>
    rw [takeFitting]
    split
    · exact (List.prefix_cons_inj c).2 (ih _)
    · exact List.nil_prefix

theorem encode_fit_isFront (name : String) : encode (fit name) <+: encode name := by
  obtain ⟨rest, hrest⟩ := takeFitting_isFront maxLength name.toList
  refine ⟨encodeList rest, ?_⟩
  rw [encode, encode, fit, String.toList_ofList, encodeList, encodeList, ← List.flatMap_append, hrest,
    encodeList]

theorem fit_eq_self_iff {name : String} : fit name = name ↔ (encode name).length ≤ maxLength := by
  constructor
  · intro h
    rw [← h]
    exact length_encode_fit name
  · exact fit_of_length_le

/-- What fits is not cut again. -/
theorem fit_fit (name : String) : fit (fit name) = fit name :=
  fit_of_length_le (length_encode_fit name)

section

variable {field : Bytes} {name : String} (hfield : field.length = fieldSize)
  (hname : encode name = ofField field)

include hname

theorem zero_notMem_encode : 0 ∉ encode name := by
  rw [hname, ofField]
  intro h
  have hzero := List.mem_takeWhile_imp h
  simp at hzero

theorem kept_eq_fit : kept name = fit name := by
  refine encode_injective ?_
  rw [encode_kept]
  refine List.takeWhile_eq_self_iff.2 fun b hb => ?_
  rw [bne_iff_ne]
  rintro rfl
  exact zero_notMem_encode hname ((encode_fit_isFront name).subset hb)

/-- Written again, a name keeps of its field the part that fits, and what is behind turns to zeros. -/
theorem toField_eq_take : toField name =
    field.take (encode (fit name)).length
      ++ List.replicate (fieldSize - (encode (fit name)).length) 0 := by
  have hfront : encode (fit name) <+: field := by
    refine (encode_fit_isFront name).trans ?_
    rw [hname]
    exact List.takeWhile_prefix _
  rw [toField, ← List.prefix_iff_eq_take.1 hfront]

include hfield

theorem length_encode_le : (encode name).length ≤ fieldSize := by
  have hfront : ofField field <+: field := List.takeWhile_prefix _
  rw [hname, ← hfield]
  exact hfront.length_le

/-- A field is what its name is written as if it ends the name with zeros only. -/
theorem toField_eq_iff : toField name = field ↔
    (encode name).length ≤ maxLength ∧ ∀ b ∈ field.drop (encode name).length, b = 0 := by
  constructor
  · intro h
    have hkept : kept name = name := by
      refine encode_injective ?_
      rw [← ofField_toField_eq, h, hname]
    have hfit : fit name = name := (kept_eq_fit hname).symm.trans hkept
    refine ⟨fit_eq_self_iff.1 hfit, fun b hb => ?_⟩
    rw [← h, toField, hfit, List.drop_left] at hb
    exact List.eq_of_mem_replicate hb
  · rintro ⟨hlen, hzeros⟩
    have hdrop : field.drop (encode name).length =
        List.replicate (fieldSize - (encode name).length) 0 := by
      refine List.eq_replicate_iff.2 ⟨?_, hzeros⟩
      rw [List.length_drop, hfield]
    have htake : encode name = field.take (encode name).length := by
      refine List.prefix_iff_eq_take.1 ?_
      rw [hname]
      exact List.takeWhile_prefix _
    rw [toField, fit_of_length_le hlen, ← hdrop]
    nth_rewrite 1 [htake]
    exact List.take_append_drop ..

end

end FlatArchive.Name
