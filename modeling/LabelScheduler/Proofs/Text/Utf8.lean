import LabelScheduler.Text.Utf8
import Mathlib.Data.List.Infix

/-!
# Text and its bytes

A character is written as one to four bytes, which are judged unfinished up to the last one and complete with it. So
decoding a text that is written and broken off anywhere leaves over the bytes of at most one character, and cutting the
bytes into blocks does not matter.
-/

namespace LabelScheduler.Text.Utf8

variable {c : Char} {cs : List Char} {a b b' b'' : UInt8} {v : Nat}
  {held more tail : List UInt8}

/-- The bytes that a text is written as. -/
def encode (cs : List Char) : List UInt8 := cs.flatMap String.utf8EncodeChar

/-- With `held` read before, the further bytes are those that make up the character. -/
inductive Completes (c : Char) : (held more : List UInt8) → Prop where
  | last {held : List UInt8} {b : UInt8} (h : progress (held ++ [b]) = .complete c) : Completes c held [b]
  | more {held bs : List UInt8} {b : UInt8} (h : progress (held ++ [b]) = .unfinished)
      (hrest : Completes c (held ++ [b]) bs) : Completes c held (b :: bs)

/-- The third quarter of the bytes continue a character. -/
theorem isContinuation_iff : isContinuation b = true ↔ 0x80 ≤ b.toNat ∧ b.toNat < 0xc0 := by
  simp [isContinuation, UInt8.le_iff_toNat_le, UInt8.lt_iff_toNat_lt]

/-- After three of the first bytes only some of the continuations may follow. -/
theorem followsLead_iff :
    followsLead a b = true ↔ isContinuation b = true ∧ (a.toNat = 0xe0 → 0xa0 ≤ b.toNat) ∧
      (a.toNat = 0xf0 → 0x90 ≤ b.toNat) ∧ (a.toNat = 0xf4 → b.toNat < 0x90) := by
  simp [followsLead, UInt8.le_iff_toNat_le, UInt8.lt_iff_toNat_lt, ← UInt8.toNat_inj, and_assoc, imp_iff_not_or]

/-- A surrogate begins with one first byte and a continuation of the upper half. -/
theorem opensSurrogate_iff : opensSurrogate a b = true ↔ a.toNat = 0xed ∧ 0xa0 ≤ b.toNat := by
  simp [opensSurrogate, UInt8.le_iff_toNat_le, ← UInt8.toNat_inj]

/-- The first of several bytes is unfinished. -/
theorem progress_one (hleast : 0xc2 ≤ a.toNat) (hmost : a.toNat < 0xf5) : progress [a] = .unfinished := by
  have hascii : ¬ a < 0x80 := by simpa [UInt8.lt_iff_toNat_lt] using le_trans (by decide) hleast
  have hleast : ¬ a < 0xc2 := by simpa [UInt8.lt_iff_toNat_lt] using hleast
  have hmost : ¬ 0xf5 ≤ a := by simpa [UInt8.le_iff_toNat_le] using hmost
  simp [progress, hascii, hleast, hmost]

/-- The first two of three or four bytes are unfinished. -/
theorem progress_two (hfollows : followsLead a b = true) (hlead : 0xe0 ≤ a.toNat) :
    progress [a, b] = .unfinished := by
  have hlong : ¬ a < 0xe0 := by simpa [UInt8.lt_iff_toNat_lt] using hlead
  simp [progress, hfollows, hlong]

/-- The first three of four bytes are unfinished. -/
theorem progress_three (hcontinues : isContinuation b' = true) (hlead : 0xf0 ≤ a.toNat) :
    progress [a, b, b'] = .unfinished := by
  have hsurrogate : ¬ opensSurrogate a b = true := fun h => by have := (opensSurrogate_iff.mp h).1; omega
  have hlong : ¬ a < 0xf0 := by simpa [UInt8.lt_iff_toNat_lt] using hlead
  simp [progress, hsurrogate, hcontinues, hlong]

/-- Six bits with the mark of a continuation are one. -/
theorem isContinuation_of_toNat {n : Nat} (h : b.toNat = n % 64 + 128) : isContinuation b = true :=
  isContinuation_iff.mpr (by omega)

/-- A byte of the lower half is a character. -/
theorem completes_one (ha : a.toNat = v) (hmost : v < 0x80) : Completes (Char.ofNat v) [] [a] := by
  have hascii : a < 0x80 := by simpa [UInt8.lt_iff_toNat_lt, ha] using hmost
  refine .last ?_
  simp [progress, hascii, ha]

/-- Two bytes make up a character. -/
theorem completes_two (ha : a.toNat = v / 64 + 192) (hb : b.toNat = v % 64 + 128) (hleast : 0x80 ≤ v)
    (hmost : v < 0x800) : Completes (Char.ofNat v) [] [a, b] := by
  have hfollows : followsLead a b = true :=
    followsLead_iff.mpr ⟨isContinuation_of_toNat hb, by omega, by omega, by omega⟩
  have hshort : a < 0xe0 := by simp only [UInt8.lt_iff_toNat_lt, ha]; simp; omega
  have hvalue : (a.toNat - 0xc0) * 64 + payload b = v := by unfold payload; omega
  refine .more (progress_one (by omega) (by omega)) (.last ?_)
  simp [progress, hfollows, hshort, hvalue]

/-- Three bytes make up a character that is no surrogate. -/
theorem completes_three (ha : a.toNat = v / 4096 + 224) (hb : b.toNat = v / 64 % 64 + 128)
    (hb' : b'.toNat = v % 64 + 128) (hleast : 0x800 ≤ v) (hmost : v < 0x10000) (hvalid : v < 0xd800 ∨ 0xdfff < v) :
    Completes (Char.ofNat v) [] [a, b, b'] := by
  have hfollows : followsLead a b = true :=
    followsLead_iff.mpr ⟨isContinuation_of_toNat hb, by omega, by omega, by omega⟩
  have hsurrogate : ¬ opensSurrogate a b = true := by rw [opensSurrogate_iff]; omega
  have hshort : a < 0xf0 := by simp only [UInt8.lt_iff_toNat_lt, ha]; simp; omega
  have hvalue : (a.toNat - 0xe0) * 4096 + payload b * 64 + payload b' = v := by unfold payload; omega
  refine .more (progress_one (by omega) (by omega)) (.more (progress_two hfollows (by omega)) (.last ?_))
  simp [progress, hsurrogate, isContinuation_of_toNat hb', hshort, hvalue]

/-- Four bytes make up a character. -/
theorem completes_four (ha : a.toNat = v / 262144 + 240) (hb : b.toNat = v / 4096 % 64 + 128)
    (hb' : b'.toNat = v / 64 % 64 + 128) (hb'' : b''.toNat = v % 64 + 128) (hleast : 0x10000 ≤ v)
    (hmost : v < 0x110000) : Completes (Char.ofNat v) [] [a, b, b', b''] := by
  have hfollows : followsLead a b = true :=
    followsLead_iff.mpr ⟨isContinuation_of_toNat hb, by omega, by omega, by omega⟩
  have hvalue : (a.toNat - 0xf0) * 262144 + payload b * 4096 + payload b' * 64 + payload b'' = v := by
    unfold payload
    omega
  refine .more (progress_one (by omega) (by omega)) (.more (progress_two hfollows (by omega))
    (.more (progress_three (isContinuation_of_toNat hb') (by omega)) (.last ?_)))
  simp [progress, isContinuation_of_toNat hb'', hvalue]

/-- The bytes of a character make it up. -/
theorem completes_encodeChar (c : Char) : Completes c [] (String.utf8EncodeChar c) := by
  have hvalid : c.val.toNat < 0xd800 ∨ 0xdfff < c.val.toNat ∧ c.val.toNat < 0x110000 := c.valid
  have hbyte {n : Nat} (h : n < 256) : (UInt8.ofNat n).toNat = n := by rw [UInt8.toNat_ofNat']; omega
  have hchar : Char.ofNat c.val.toNat = c := Char.ofNat_toNat c
  suffices h : Completes (Char.ofNat c.val.toNat) [] (String.utf8EncodeChar c) by rwa [hchar] at h
  clear hchar
  rw [String.utf8EncodeChar]
  generalize c.val.toNat = v at *
  split
  case isTrue hone => exact completes_one (hbyte (by omega)) (by omega)
  case isFalse hone =>
    split
    case isTrue htwo =>
      refine completes_two ?_ (hbyte (by omega)) (by omega) (by omega)
      rw [hbyte (by omega)]
      omega
    case isFalse htwo =>
      split
      case isTrue hthree =>
        refine completes_three ?_ (hbyte (by omega)) (hbyte (by omega)) (by omega) (by omega) (by omega)
        rw [hbyte (by omega)]
        omega
      case isFalse hfour =>
        refine completes_four ?_ (hbyte (by omega)) (hbyte (by omega)) (hbyte (by omega)) (by omega) (by omega)
        rw [hbyte (by omega)]
        omega

/-- There is always a byte that completes a character. -/
theorem Completes.ne_nil (h : Completes c held more) : more ≠ [] := by
  cases h <;> exact List.cons_ne_nil _ _

/-- Bytes that make up a character are decoded to it. -/
theorem Completes.decodeFrom_append (h : Completes c held more) (start : Nat) (done : List Char) (bs : List UInt8) :
    decodeFrom start held done (more ++ bs) = decodeFrom (start + (held ++ more).length) [] (c :: done) bs := by
  induction h with
  | last hlast => simp only [List.cons_append, List.nil_append, decodeFrom, hlast]
  | more hmore _ ih =>
      simp only [List.cons_append, decodeFrom, hmore]
      rw [ih, List.append_assoc, List.singleton_append]

/-- Bytes that do not yet make up a character are left over. -/
theorem Completes.decodeFrom_eq_ok (h : Completes c held more) (htail : tail <+: more) (hproper : tail ≠ more)
    (start : Nat) (done : List Char) : decodeFrom start held done tail = .ok (done.reverse, held ++ tail) := by
  induction h generalizing tail with
  | last =>
      obtain rfl | ⟨t, rfl, ht⟩ := List.prefix_cons_iff.mp htail
      · rw [decodeFrom, List.append_nil]
      · rw [List.prefix_nil.mp ht] at hproper
        exact absurd rfl hproper
  | more hmore _ ih =>
      obtain rfl | ⟨t, rfl, ht⟩ := List.prefix_cons_iff.mp htail
      · rw [decodeFrom, List.append_nil]
      · simp only [decodeFrom, hmore]
        rw [ih ht fun h => hproper (congrArg _ h), List.append_assoc, List.singleton_append]

/-- Decoding the first bytes of a written text gives its first characters, and with the bytes left over the others can
still be decoded. If there are no bytes after them, there are no other characters. -/
theorem decodeFrom_of_append_eq {bs after : List UInt8} (h : bs ++ after = encode cs) (start : Nat)
    (done : List Char) : ∃ first rest tail, cs = first ++ rest ∧ tail ++ after = encode rest ∧
      (after = [] → rest = []) ∧ decodeFrom start [] done bs = .ok (done.reverse ++ first, tail) := by
  induction cs generalizing bs start done with
  | nil =>
      obtain ⟨rfl, rfl⟩ := List.append_eq_nil_iff.mp h
      exact ⟨[], [], [], rfl, rfl, fun _ => rfl, by rw [decodeFrom, List.append_nil]⟩
  | cons c cs ih =>
      have hc := completes_encodeChar c
      by_cases hwhole : String.utf8EncodeChar c <+: bs
      · obtain ⟨bs, rfl⟩ := hwhole
        rw [encode, List.flatMap_cons, List.append_assoc] at h
        obtain ⟨first, rest, tail, rfl, htail, hend, hdecode⟩ :=
          ih (List.append_cancel_left h) (start + (String.utf8EncodeChar c).length) (c :: done)
        refine ⟨c :: first, rest, tail, rfl, htail, hend, ?_⟩
        rw [hc.decodeFrom_append, List.nil_append, hdecode, List.reverse_cons, List.append_assoc, List.singleton_append]
      · have hbs : bs <+: String.utf8EncodeChar c :=
          (List.prefix_or_prefix_of_prefix ⟨after, h⟩ ⟨encode cs, rfl⟩).resolve_right hwhole
        have hproper : bs ≠ String.utf8EncodeChar c := fun heq => hwhole (heq ▸ List.prefix_refl _)
        refine ⟨[], c :: cs, bs, rfl, h, ?_, ?_⟩
        · rintro rfl
          exact absurd ⟨encode cs, by simpa [encode] using h.symm⟩ hwhole
        · rw [hc.decodeFrom_eq_ok hbs hproper, List.nil_append, List.append_nil]

/-- Cutting leaves out no byte. -/
theorem flatten_cut (size room : Nat) (block bs : List UInt8) :
    (cut size room block bs).flatten = block.reverse ++ bs := by
  induction bs generalizing room block with
  | nil => cases block <;> simp [cut]
  | cons b bs ih => cases room <;> simp [cut, ih]

/-- A written text is decoded to itself wherever it is cut into blocks. -/
theorem decodeBlocks_eq {blocks : List (List UInt8)} {cs : List Char} (h : held ++ blocks.flatten = encode cs)
    (hend : blocks = [] → cs = []) (done : List (List Char)) :
    decodeBlocks held done blocks = (done.reverse.flatten ++ cs, none) := by
  induction blocks generalizing held cs done with
  | nil =>
      obtain rfl := hend rfl
      obtain rfl := (List.append_eq_nil_iff.mp h).1
      rw [decodeBlocks, endFault?, List.append_nil]
  | cons block blocks ih =>
      rw [List.flatten_cons, ← List.append_assoc] at h
      obtain ⟨first, rest, tail, rfl, htail, hrest, hdecode⟩ := decodeFrom_of_append_eq h 0 []
      rw [List.reverse_nil, List.nil_append] at hdecode
      simp only [decodeBlocks, hdecode]
      rw [ih htail (fun hblocks => hrest (hblocks ▸ rfl)), List.reverse_cons, List.flatten_append,
        List.flatten_singleton, List.append_assoc]

/-- A written text is decoded to itself. -/
theorem decode_encode (cs : List Char) : decode (encode cs) = (cs, none) := by
  have hcut : [] ++ (cut blockSize blockSize [] (encode cs)).flatten = encode cs :=
    flatten_cut blockSize blockSize [] (encode cs)
  have hend : cut blockSize blockSize [] (encode cs) = [] → cs = [] := by
    intro hblocks
    rw [hblocks] at hcut
    cases cs with
    | nil => rfl
    | cons c cs => exact absurd (List.append_eq_nil_iff.mp hcut.symm).1 (completes_encodeChar c).ne_nil
  rw [decode, decodeBlocks_eq hcut hend, List.reverse_nil, List.flatten_nil, List.nil_append]

end LabelScheduler.Text.Utf8
