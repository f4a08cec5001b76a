-- SUMMARY: Strict decoding of UTF-8 accepts exactly the encoded texts, and gives the text back.
import FlatArchive.Text.Utf8
import Mathlib

/-!
# Decoding what was encoded

The pieces of an encoded text are its characters, and a character is found at the front of a byte
string only where its encoding stands. So decoding undoes encoding, and the byte strings that decode
are the encoded texts and no others.
-/

namespace FlatArchive.Text.Utf8

/-! ## Leading bytes -/

theorem followers_one {b : Nat} (h : b < 0x80) : followers b = some [] := by
  simp [followers, h]

theorem followers_two {b : Nat} (hlo : 0xC2 ≤ b) (hhi : b < 0xE0) :
    followers b = some [(0x80, 0xBF)] := by
  have h1 : ¬ b < 0x80 := by omega
  have h2 : ¬ b < 0xC2 := by omega
  simp [followers, h1, h2, hhi]

/-- After `E0` the overlong spellings are left out, and after `ED` the surrogates. -/
theorem followers_three {b : Nat} (hlo : 0xE0 ≤ b) (hhi : b < 0xF0) :
    followers b = some [(if b = 0xE0 then 0xA0 else 0x80, if b = 0xED then 0x9F else 0xBF),
      (0x80, 0xBF)] := by
  have h1 : ¬ b < 0x80 := by omega
  have h2 : ¬ b < 0xC2 := by omega
  have h3 : ¬ b < 0xE0 := by omega
  simp only [followers, h1, h2, h3, hhi, if_true, if_false]
  split
  · next h => simp [h]
  · split <;> rfl

/-- After `F0` the overlong spellings are left out, and after `F4` what is past the last code
point. -/
theorem followers_four {b : Nat} (hlo : 0xF0 ≤ b) (hhi : b < 0xF5) :
    followers b = some [(if b = 0xF0 then 0x90 else 0x80, if b = 0xF4 then 0x8F else 0xBF),
      (0x80, 0xBF), (0x80, 0xBF)] := by
  have h1 : ¬ b < 0x80 := by omega
  have h2 : ¬ b < 0xC2 := by omega
  have h3 : ¬ b < 0xE0 := by omega
  have h4 : b ≠ 0xE0 := by omega
  have h5 : b ≠ 0xED := by omega
  have h6 : ¬ b < 0xF0 := by omega
  simp only [followers, h1, h2, h3, h4, h5, h6, if_false]
  split
  · next h => simp [h]
  · by_cases h : b = 0xF4
    · simp [h]
    · have hlt : b < 0xF4 := by omega
      simp [h, hlt]

/-- The leading bytes, by the number of bytes that follow them. -/
theorem followers_cases {b : Nat} {ranges : List (Nat × Nat)} (h : followers b = some ranges) :
    b < 0x80 ∨ (0xC2 ≤ b ∧ b < 0xE0) ∨ (0xE0 ≤ b ∧ b < 0xF0) ∨ (0xF0 ≤ b ∧ b < 0xF5) := by
  unfold followers at h
  split_ifs at h <;> omega

theorem matchRanges_cons_full {n lo hi : Nat} {ranges : List (Nat × Nat)} {bs : Bytes} :
    matchRanges n ((lo, hi) :: ranges) bs = .full ↔
      ∃ x rest, bs = x :: rest ∧ (lo ≤ x.toNat ∧ x.toNat ≤ hi)
        ∧ matchRanges (n + 1) ranges rest = .full := by
  cases bs with
  | nil => simp [matchRanges]
  | cons x rest =>
    simp only [matchRanges, List.cons.injEq]
    split
    · next hx =>
      constructor
      · intro h
        exact ⟨x, rest, ⟨rfl, rfl⟩, hx, h⟩
      · rintro ⟨_, _, ⟨rfl, rfl⟩, -, h⟩
        exact h
    · next hx =>
      constructor
      · intro h
        cases h
      · rintro ⟨_, _, ⟨rfl, rfl⟩, hx', -⟩
        exact absurd hx' hx

/-! ## The bytes of one character -/

theorem codePoint_two (b : Nat) (x : UInt8) :
    codePoint b [x] = (b - 0xC0) * 64 + (x.toNat - 0x80) := rfl

theorem codePoint_three (b : Nat) (x y : UInt8) :
    codePoint b [x, y] = ((b - 0xE0) * 64 + (x.toNat - 0x80)) * 64 + (y.toNat - 0x80) := rfl

theorem codePoint_four (b : Nat) (x y z : UInt8) :
    codePoint b [x, y, z] =
      (((b - 0xF0) * 64 + (x.toNat - 0x80)) * 64 + (y.toNat - 0x80)) * 64 + (z.toNat - 0x80) := rfl

/-- A code point is no surrogate and at most 10FFFF. -/
theorem isCodePoint (c : Char) : c.toNat < 0xD800 ∨ 0xDFFF < c.toNat ∧ c.toNat < 0x110000 :=
  c.valid

theorem toNat_ofCodePoint {n : Nat} (h : n < 0xD800 ∨ 0xDFFF < n ∧ n < 0x110000) :
    (Char.ofNat n).val.toNat = n := by
  have hvalid : n.isValidChar := h
  simp [Char.ofNat, hvalid, Char.ofNatAux]

theorem toNat_byte {n : Nat} (h : n < 256) : (UInt8.ofNat n).toNat = n := by
  rw [UInt8.toNat_ofNat']
  exact Nat.mod_eq_of_lt h

theorem byte_eq {n : Nat} {b : UInt8} (h : n = b.toNat) : UInt8.ofNat n = b := by
  rw [h]
  exact UInt8.ofNat_toNat

/-- A character is encoded as a leading byte with the bytes that may follow it, which together
spell its code point. -/
theorem spelling_encodeChar (c : Char) :
    ∃ b bs ranges, String.utf8EncodeChar c = b :: bs ∧ followers b.toNat = some ranges
      ∧ ranges.length = bs.length ∧ (∀ rest, matchRanges 0 ranges (bs ++ rest) = .full)
      ∧ codePoint b.toNat bs = c.toNat := by
  have hc := isCodePoint c
  unfold String.utf8EncodeChar
  rw [show c.val.toNat = c.toNat from rfl]
  generalize c.toNat = n at hc
  by_cases h1 : n ≤ 0x7f
  · have hb : (UInt8.ofNat n).toNat = n := toNat_byte (by omega)
    refine ⟨UInt8.ofNat n, [], [], by simp [h1], ?_, rfl, fun _ => rfl, hb⟩
    exact followers_one (by omega)
  by_cases h2 : n ≤ 0x7ff
  · have hb := toNat_byte (n := n / 64 % 0x20 + 0xc0) (by omega)
    have hx := toNat_byte (n := n % 0x40 + 0x80) (by omega)
    refine ⟨UInt8.ofNat (n / 64 % 0x20 + 0xc0), [UInt8.ofNat (n % 0x40 + 0x80)], _,
      by simp [h1, h2], followers_two (by omega) (by omega), rfl, ?_, ?_⟩
    · intro rest
      simp only [List.cons_append, matchRanges, hx]
      rw [if_pos (by omega)]
    · rw [codePoint_two, hb, hx]
      omega
  by_cases h3 : n ≤ 0xffff
  · have hb := toNat_byte (n := n / 4096 % 0x10 + 0xe0) (by omega)
    have hx := toNat_byte (n := n / 64 % 0x40 + 0x80) (by omega)
    have hy := toNat_byte (n := n % 0x40 + 0x80) (by omega)
    refine ⟨UInt8.ofNat (n / 4096 % 0x10 + 0xe0),
      [UInt8.ofNat (n / 64 % 0x40 + 0x80), UInt8.ofNat (n % 0x40 + 0x80)], _,
      by simp [h1, h2, h3], followers_three (by omega) (by omega), rfl, ?_, ?_⟩
    · intro rest
      simp only [List.cons_append, matchRanges, hb, hx, hy]
      rw [if_pos ⟨by split <;> omega, by split <;> omega⟩, if_pos (by omega)]
    · rw [codePoint_three, hb, hx, hy]
      omega
  · have hb := toNat_byte (n := n / 262144 % 0x08 + 0xf0) (by omega)
    have hx := toNat_byte (n := n / 4096 % 0x40 + 0x80) (by omega)
    have hy := toNat_byte (n := n / 64 % 0x40 + 0x80) (by omega)
    have hz := toNat_byte (n := n % 0x40 + 0x80) (by omega)
    have hfollow := followers_four (b := n / 262144 % 0x08 + 0xf0) (by omega) (by omega)
    refine ⟨UInt8.ofNat (n / 262144 % 0x08 + 0xf0), [UInt8.ofNat (n / 4096 % 0x40 + 0x80),
      UInt8.ofNat (n / 64 % 0x40 + 0x80), UInt8.ofNat (n % 0x40 + 0x80)], _,
      by simp [h1, h2, h3], hb.symm ▸ hfollow, rfl, ?_, ?_⟩
    · intro rest
      simp only [List.cons_append, matchRanges, hb, hx, hy, hz]
      rw [if_pos ⟨by split <;> omega, by split <;> omega⟩, if_pos (by omega), if_pos (by omega)]
    · rw [codePoint_four, hb, hx, hy, hz]
      omega

/-- What a leading byte spells with bytes that may follow it is the encoding of a character. -/
theorem encodeChar_spelling {b : UInt8} {bs : Bytes} {ranges : List (Nat × Nat)}
    (hb : followers b.toNat = some ranges) (hbs : matchRanges 0 ranges bs = .full) :
    String.utf8EncodeChar (Char.ofNat (codePoint b.toNat (bs.take ranges.length)))
      = b :: bs.take ranges.length := by
  rcases followers_cases hb with h | ⟨hlo, hhi⟩ | ⟨hlo, hhi⟩ | ⟨hlo, hhi⟩
  · cases (followers_one h).symm.trans hb
    have hn := toNat_ofCodePoint (n := b.toNat) (by omega)
    have h1 : b.toNat ≤ 0x7f := by omega
    show String.utf8EncodeChar (Char.ofNat b.toNat) = [b]
    simp only [String.utf8EncodeChar, hn]
    rw [if_pos h1, byte_eq rfl]
  · cases (followers_two hlo hhi).symm.trans hb
    obtain ⟨x, rest, rfl, hx, -⟩ := matchRanges_cons_full.1 hbs
    have hn := toNat_ofCodePoint (n := (b.toNat - 0xC0) * 64 + (x.toNat - 0x80)) (by omega)
    simp only [List.length_cons, List.length_nil, List.take_succ_cons, List.take_zero, codePoint_two,
      String.utf8EncodeChar, hn]
    rw [if_neg (by omega), if_pos (by omega), byte_eq (b := b) (by omega),
      byte_eq (b := x) (by omega)]
  · cases (followers_three hlo hhi).symm.trans hb
    obtain ⟨x, rest, rfl, hx, hrest⟩ := matchRanges_cons_full.1 hbs
    obtain ⟨y, rest, rfl, hy, -⟩ := matchRanges_cons_full.1 hrest
    have hlow : b.toNat = 0xE0 → 0xA0 ≤ x.toNat := fun h => by simpa [h] using hx.1
    have hhigh : b.toNat = 0xED → x.toNat ≤ 0x9F := fun h => by simpa [h] using hx.2
    have hx : 0x80 ≤ x.toNat ∧ x.toNat ≤ 0xBF :=
      ⟨by have := hx.1; split at this <;> omega, by have := hx.2; split at this <;> omega⟩
    have hn := toNat_ofCodePoint
      (n := ((b.toNat - 0xE0) * 64 + (x.toNat - 0x80)) * 64 + (y.toNat - 0x80)) (by omega)
    simp only [List.length_cons, List.length_nil, List.take_succ_cons, List.take_zero, codePoint_three,
      String.utf8EncodeChar, hn]
    rw [if_neg (by omega), if_neg (by omega), if_pos (by omega), byte_eq (b := b) (by omega),
      byte_eq (b := x) (by omega), byte_eq (b := y) (by omega)]
  · rw [followers_four hlo hhi] at hb
    cases hb
    obtain ⟨x, rest, rfl, hx, hrest⟩ := matchRanges_cons_full.1 hbs
    obtain ⟨y, rest, rfl, hy, hrest⟩ := matchRanges_cons_full.1 hrest
    obtain ⟨z, rest, rfl, hz, -⟩ := matchRanges_cons_full.1 hrest
    have hlow : b.toNat = 0xF0 → 0x90 ≤ x.toNat := fun h => by simpa [h] using hx.1
    have hhigh : b.toNat = 0xF4 → x.toNat ≤ 0x8F := fun h => by simpa [h] using hx.2
    have hx : 0x80 ≤ x.toNat ∧ x.toNat ≤ 0xBF :=
      ⟨by have := hx.1; split at this <;> omega, by have := hx.2; split at this <;> omega⟩
    have hn := toNat_ofCodePoint (n := (((b.toNat - 0xF0) * 64 + (x.toNat - 0x80)) * 64
      + (y.toNat - 0x80)) * 64 + (z.toNat - 0x80)) (by omega)
    simp only [List.length_cons, List.length_nil, List.take_succ_cons, List.take_zero, codePoint_four,
      String.utf8EncodeChar, hn]
    rw [if_neg (by omega), if_neg (by omega), if_neg (by omega), byte_eq (b := b) (by omega),
      byte_eq (b := x) (by omega), byte_eq (b := y) (by omega), byte_eq (b := z) (by omega)]

/-! ## Pieces -/

theorem front_encodeChar {c : Char} {b : UInt8} {bs : Bytes}
    (h : String.utf8EncodeChar c = b :: bs) (rest : Bytes) :
    front b (bs ++ rest) = (.char c, bs.length) := by
  obtain ⟨b', bs', ranges, hc, hfollow, hlen, hmatch, hpoint⟩ := spelling_encodeChar c
  rw [hc] at h
  cases h
  simp only [front, hfollow, hmatch, hlen, List.take_left, hpoint]
  rw [Char.ofNat_toNat]

/-- Where a character is found, its encoding stands. -/
theorem encodeChar_front {b : UInt8} {bs : Bytes} {c : Char} {n : Nat}
    (h : front b bs = (.char c, n)) : String.utf8EncodeChar c = b :: bs.take n := by
  unfold front at h
  split at h
  · simp at h
  · next ranges hfollow =>
    split at h
    · next hmatch =>
      simp only [Prod.mk.injEq, Piece.char.injEq] at h
      rw [← h.1, ← h.2]
      exact encodeChar_spelling hfollow hmatch
    · simp at h
    · simp at h

@[simp] theorem encodeList_nil : encodeList [] = [] := rfl

@[simp] theorem encodeList_cons (c : Char) (cs : List Char) :
    encodeList (c :: cs) = String.utf8EncodeChar c ++ encodeList cs := by
  simp [encodeList]

/-- A character of ASCII is encoded as its number. -/
theorem encodeChar_of_ascii {c : Char} (h : c.toNat ≤ 0x7F) :
    String.utf8EncodeChar c = [UInt8.ofNat c.toNat] := by
  unfold String.utf8EncodeChar
  exact if_pos h

theorem encodeList_of_ascii {cs : List Char} (h : ∀ c ∈ cs, c.toNat ≤ 0x7F) :
    encodeList cs = cs.map fun c => UInt8.ofNat c.toNat := by
  induction cs with
  | nil => rfl
  | cons c cs ih =>
    obtain ⟨hc, hcs⟩ := List.forall_mem_cons.1 h
    rw [encodeList_cons, encodeChar_of_ascii hc, ih hcs]
    rfl

/-- A byte of ASCII is the encoding of one character and part of no other. -/
theorem mem_encodeChar_of_ascii {b : UInt8} (h : b.toNat ≤ 0x7F) {c : Char} :
    b ∈ String.utf8EncodeChar c ↔ c.toNat = b.toNat := by
  have hbyte : ∀ n, b = UInt8.ofNat n ↔ n % 256 = b.toNat := by
    intro n
    rw [← UInt8.toNat_inj, UInt8.toNat_ofNat', eq_comm]
  have hc := isCodePoint c
  rw [← Char.toNat_val] at hc ⊢
  unfold String.utf8EncodeChar
  generalize c.val.toNat = n at hc
  dsimp only
  split_ifs <;> simp only [List.mem_cons, List.not_mem_nil, or_false, hbyte] <;> omega

@[simp] theorem pieces_nil : pieces [] = [] := by rw [pieces]

theorem pieces_encodeList (cs : List Char) : pieces (encodeList cs) = cs.map .char := by
  induction cs with
  | nil => simp
  | cons c cs ih =>
    obtain ⟨b, bs, -, hc, -⟩ := spelling_encodeChar c
    rw [encodeList_cons, hc, List.cons_append, pieces, front_encodeChar hc]
    simp [ih]

theorem encodeList_injective : Function.Injective encodeList := by
  intro cs ds h
  have hpieces : cs.map Piece.char = ds.map Piece.char := by
    rw [← pieces_encodeList, h, pieces_encodeList]
  exact List.map_injective_iff.2 (fun c d hcd => Piece.char.inj hcd) hpieces

/-! ## Texts -/

theorem charsOfPieces_chars (offset : Nat) (cs : List Char) :
    charsOfPieces offset (cs.map .char) = .ok cs := by
  induction cs generalizing offset with
  | nil => rfl
  | cons c cs ih =>
    simp only [List.map_cons, charsOfPieces, ih]
    rfl

theorem decode_encode (s : String) : decode (encode s) = .ok s := by
  rw [decode, encode, pieces_encodeList, charsOfPieces_chars]
  exact congrArg Except.ok String.ofList_toList

theorem encodeList_of_charsOfPieces {bs : Bytes} {offset : Nat} {cs : List Char}
    (h : charsOfPieces offset (pieces bs) = .ok cs) : encodeList cs = bs := by
  fun_induction pieces bs generalizing offset cs with
  | case1 =>
    cases h
    rfl
  | case2 b bs piece n hfront ih =>
    cases piece with
    | malformed _ => cases h
    | unfinished _ => cases h
    | char c =>
      simp only [charsOfPieces] at h
      cases hrest : charsOfPieces (offset + c.utf8Size) (pieces (bs.drop n)) with
      | error e =>
        rw [hrest] at h
        cases h
      | ok cs' =>
        rw [hrest] at h
        cases h
        rw [encodeList_cons, encodeChar_front hfront, ih hrest, List.cons_append,
          List.take_append_drop]

/-- The byte strings that decode are the encoded texts, and each decodes to its text. -/
theorem decode_eq_ok_iff {bs : Bytes} {s : String} : decode bs = .ok s ↔ encode s = bs := by
  constructor
  · intro h
    unfold decode at h
    cases hcs : charsOfPieces 0 (pieces bs) with
    | error e =>
      rw [hcs] at h
      cases h
    | ok cs =>
      rw [hcs] at h
      cases h
      rw [encode, String.toList_ofList]
      exact encodeList_of_charsOfPieces hcs
  · rintro rfl
    exact decode_encode s

theorem encode_injective {s t : String} (h : encode s = encode t) : s = t :=
  String.toList_injective (encodeList_injective h)

/-- Only byte strings that are no encoded text are refused. -/
theorem encode_ne_of_decode_eq_error {bs : Bytes} {fault : Error} (h : decode bs = .error fault)
    (s : String) : encode s ≠ bs := by
  intro hs
  rw [decode_eq_ok_iff.2 hs] at h
  cases h

end FlatArchive.Text.Utf8
