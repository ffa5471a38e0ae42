import Mathlib
import MarkupLabels.Text.Lines
import MarkupLabels.Text.Utf8

/-! Texts and the bytes that hold them correspond one to one, but for the ends of lines: of these only
line feeds are read back as they are. -/

namespace MarkupLabels.Text

inductive Sequence : List UInt8 → Nat → Prop
  | one {b : UInt8} (hb : b.toNat < 0x80) : Sequence [b] b.toNat
  | two {b x : UInt8} (hb : 0xc2 ≤ b.toNat ∧ b.toNat < 0xe0) (hx : 0x80 ≤ x.toNat ∧ x.toNat ≤ 0xbf) :
    Sequence [b, x] (b.toNat % 0x20 * 64 + x.toNat % 64)
  | three {b x y : UInt8} (hb : 0xe0 ≤ b.toNat ∧ b.toNat < 0xf0)
    (hx : 0x80 ≤ x.toNat ∧ x.toNat ≤ 0xbf) (hlow : b.toNat = 0xe0 → 0xa0 ≤ x.toNat)
    (hsurrogate : b.toNat = 0xed → x.toNat ≤ 0x9f) (hy : 0x80 ≤ y.toNat ∧ y.toNat ≤ 0xbf) :
    Sequence [b, x, y] ((b.toNat % 0x10 * 64 + x.toNat % 64) * 64 + y.toNat % 64)
  | four {b x y z : UInt8} (hb : 0xf0 ≤ b.toNat ∧ b.toNat ≤ 0xf4)
    (hx : 0x80 ≤ x.toNat ∧ x.toNat ≤ 0xbf) (hlow : b.toNat = 0xf0 → 0x90 ≤ x.toNat)
    (hhigh : b.toNat = 0xf4 → x.toNat ≤ 0x8f) (hy : 0x80 ≤ y.toNat ∧ y.toNat ≤ 0xbf)
    (hz : 0x80 ≤ z.toNat ∧ z.toNat ≤ 0xbf) :
    Sequence [b, x, y, z]
      (((b.toNat % 0x08 * 64 + x.toNat % 64) * 64 + y.toNat % 64) * 64 + z.toNat % 64)

variable {bytes rest : List UInt8} {code position : Nat} {cs : List Char}

lemma toNat_ofNat_of_lt {n : Nat} (h : n < 0x100) : (UInt8.ofNat n).toNat = n := by
  simpa using h

lemma ofNat_eq {n : Nat} {b : UInt8} (h : n = b.toNat) : UInt8.ofNat n = b := by
  rw [h]
  exact UInt8.ofNat_toNat

lemma utf8EncodeChar_eq (c : Char) :
    String.utf8EncodeChar c =
      if c.toNat ≤ 127 then [UInt8.ofNat c.toNat]
      else if c.toNat ≤ 2047 then
        [UInt8.ofNat (c.toNat / 64 % 32 + 192), UInt8.ofNat (c.toNat % 64 + 128)]
      else if c.toNat ≤ 65535 then
        [UInt8.ofNat (c.toNat / 4096 % 16 + 224), UInt8.ofNat (c.toNat / 64 % 64 + 128),
          UInt8.ofNat (c.toNat % 64 + 128)]
      else
        [UInt8.ofNat (c.toNat / 262144 % 8 + 240), UInt8.ofNat (c.toNat / 4096 % 64 + 128),
          UInt8.ofNat (c.toNat / 64 % 64 + 128), UInt8.ofNat (c.toNat % 64 + 128)] :=
  String.utf8EncodeChar.eq_1 c

lemma sequence_utf8EncodeChar (c : Char) : Sequence (String.utf8EncodeChar c) c.toNat := by
  have hvalid : c.toNat < 0xd800 ∨ (0xdfff < c.toNat ∧ c.toNat < 0x110000) := c.valid
  rw [utf8EncodeChar_eq]
  generalize c.toNat = n at hvalid
  split
  · have hn := toNat_ofNat_of_lt (n := n) (by omega)
    have h := Sequence.one (b := UInt8.ofNat n) (by omega)
    rwa [hn] at h
  split
  · have hb := toNat_ofNat_of_lt (n := n / 64 % 32 + 192) (by omega)
    have hx := toNat_ofNat_of_lt (n := n % 64 + 128) (by omega)
    have h := Sequence.two (b := UInt8.ofNat (n / 64 % 32 + 192)) (x := UInt8.ofNat (n % 64 + 128))
      (by omega) (by omega)
    rw [hb, hx] at h
    convert h using 1
    omega
  split
  · have hb := toNat_ofNat_of_lt (n := n / 4096 % 16 + 224) (by omega)
    have hx := toNat_ofNat_of_lt (n := n / 64 % 64 + 128) (by omega)
    have hy := toNat_ofNat_of_lt (n := n % 64 + 128) (by omega)
    have h := Sequence.three (b := UInt8.ofNat (n / 4096 % 16 + 224))
      (x := UInt8.ofNat (n / 64 % 64 + 128)) (y := UInt8.ofNat (n % 64 + 128))
      (by omega) (by omega) (by omega) (by omega) (by omega)
    rw [hb, hx, hy] at h
    convert h using 1
    omega
  · have hb := toNat_ofNat_of_lt (n := n / 262144 % 8 + 240) (by omega)
    have hx := toNat_ofNat_of_lt (n := n / 4096 % 64 + 128) (by omega)
    have hy := toNat_ofNat_of_lt (n := n / 64 % 64 + 128) (by omega)
    have hz := toNat_ofNat_of_lt (n := n % 64 + 128) (by omega)
    have h := Sequence.four (b := UInt8.ofNat (n / 262144 % 8 + 240))
      (x := UInt8.ofNat (n / 4096 % 64 + 128)) (y := UInt8.ofNat (n / 64 % 64 + 128))
      (z := UInt8.ofNat (n % 64 + 128)) (by omega) (by omega) (by omega) (by omega) (by omega)
      (by omega)
    rw [hb, hx, hy, hz] at h
    convert h using 1
    omega

lemma toNat_ofNat_of_valid {n : Nat} (h : n < 0xd800 ∨ (0xdfff < n ∧ n < 0x110000)) :
    (Char.ofNat n).toNat = n := by
  have hvalid : n.isValidChar := h
  simp [Char.ofNat, hvalid]

lemma Sequence.utf8EncodeChar (h : Sequence bytes code) :
    String.utf8EncodeChar (Char.ofNat code) = bytes := by
  rw [utf8EncodeChar_eq]
  cases h with
  | one hb => rw [toNat_ofNat_of_valid (by omega), if_pos (by omega), ofNat_eq rfl]
  | two hb hx =>
    rw [toNat_ofNat_of_valid (by omega), if_neg (by omega), if_pos (by omega)]
    simp only [List.cons.injEq, and_true]
    exact ⟨ofNat_eq (by omega), ofNat_eq (by omega)⟩
  | three hb hx hlow hsurrogate hy =>
    rw [toNat_ofNat_of_valid (by omega), if_neg (by omega), if_neg (by omega), if_pos (by omega)]
    simp only [List.cons.injEq, and_true]
    exact ⟨ofNat_eq (by omega), ofNat_eq (by omega), ofNat_eq (by omega)⟩
  | four hb hx hlow hhigh hy hz =>
    rw [toNat_ofNat_of_valid (by omega), if_neg (by omega), if_neg (by omega), if_neg (by omega)]
    simp only [List.cons.injEq, and_true]
    exact ⟨ofNat_eq (by omega), ofNat_eq (by omega), ofNat_eq (by omega), ofNat_eq (by omega)⟩

section Steps

variable {b : UInt8} {ranges : List (UInt8 × UInt8)} {n : Nat}

lemma continuations_eq (b : UInt8) :
    continuations b =
      if b.toNat < 0x80 then some []
      else if b.toNat < 0xc2 then none
      else if b.toNat < 0xe0 then some [(0x80, 0xbf)]
      else if b.toNat = 0xe0 then some [(0xa0, 0xbf), (0x80, 0xbf)]
      else if b.toNat = 0xed then some [(0x80, 0x9f), (0x80, 0xbf)]
      else if b.toNat < 0xf0 then some [(0x80, 0xbf), (0x80, 0xbf)]
      else if b.toNat = 0xf0 then some [(0x90, 0xbf), (0x80, 0xbf), (0x80, 0xbf)]
      else if b.toNat < 0xf4 then some [(0x80, 0xbf), (0x80, 0xbf), (0x80, 0xbf)]
      else if b.toNat = 0xf4 then some [(0x80, 0x8f), (0x80, 0xbf), (0x80, 0xbf)]
      else none := by
  simp only [continuations, UInt8.lt_iff_toNat_lt, ← UInt8.toNat_inj]
  rfl

lemma matching_cons {low high x : UInt8} (hx : low.toNat ≤ x.toNat ∧ x.toNat ≤ high.toNat)
    (hrest : matching ranges rest = (n, none)) :
    matching ((low, high) :: ranges) (x :: rest) = (n + 1, none) := by
  rw [matching, if_pos (by simpa [UInt8.le_iff_toNat_le] using hx), hrest]

lemma exists_of_matching_cons {low high : UInt8}
    (h : matching ((low, high) :: ranges) rest = (n, none)) :
    ∃ x more m, rest = x :: more ∧ n = m + 1 ∧ (low.toNat ≤ x.toNat ∧ x.toNat ≤ high.toNat) ∧
      matching ranges more = (m, none) := by
  cases rest with
  | nil => simp [matching] at h
  | cons x more =>
    rw [matching] at h
    split at h
    · next hx =>
      obtain ⟨rfl, hnone⟩ := Prod.mk.inj h
      exact ⟨x, more, _, rfl, rfl, by simpa [UInt8.le_iff_toNat_le] using hx, Prod.ext rfl hnone⟩
    · simp at h

lemma decodeFrom_cons (hranges : continuations b = some ranges)
    (hmatching : matching ranges rest = (n, none)) (position : Nat) :
    decodeFrom position (b :: rest) =
      (decodeFrom (position + n + 1) (rest.drop n)).map
        (Char.ofNat ((rest.take n).foldl (fun code c => code * 64 + c.toNat % 64) (leadBits b n)) :: ·)
    := by
  rw [decodeFrom, hranges]
  simp only [hmatching]

lemma Sequence.exists_ranges (h : Sequence bytes code) (rest : List UInt8) :
    ∃ b more ranges, bytes = b :: more ∧ continuations b = some ranges ∧
      matching ranges (more ++ rest) = (more.length, none) ∧
      code = more.foldl (fun code c => code * 64 + c.toNat % 64) (leadBits b more.length) := by
  cases h with
  | @one b hb => exact ⟨b, [], [], rfl, by rw [continuations_eq, if_pos hb], rfl, rfl⟩
  | @two b x hb hx =>
    refine ⟨b, [x], [(0x80, 0xbf)], rfl, ?_, matching_cons hx rfl, rfl⟩
    rw [continuations_eq, if_neg (by omega), if_neg (by omega), if_pos (by omega)]
  | @three b x y hb hx hlow hsurrogate hy =>
    have hcontinuations := continuations_eq b
    rw [if_neg (by omega), if_neg (by omega), if_neg (by omega)] at hcontinuations
    by_cases hfirst : b.toNat = 0xe0
    · rw [if_pos hfirst] at hcontinuations
      exact ⟨b, [x, y], _, rfl, hcontinuations,
        matching_cons ⟨hlow hfirst, hx.2⟩ (matching_cons hy rfl), rfl⟩
    rw [if_neg hfirst] at hcontinuations
    by_cases hlast : b.toNat = 0xed
    · rw [if_pos hlast] at hcontinuations
      exact ⟨b, [x, y], _, rfl, hcontinuations,
        matching_cons ⟨hx.1, hsurrogate hlast⟩ (matching_cons hy rfl), rfl⟩
    · rw [if_neg hlast, if_pos (by omega)] at hcontinuations
      exact ⟨b, [x, y], _, rfl, hcontinuations, matching_cons hx (matching_cons hy rfl), rfl⟩
  | @four b x y z hb hx hlow hhigh hy hz =>
    have hcontinuations := continuations_eq b
    rw [if_neg (by omega), if_neg (by omega), if_neg (by omega), if_neg (by omega),
      if_neg (by omega), if_neg (by omega)] at hcontinuations
    have hlastTwo : matching [(0x80, 0xbf), (0x80, 0xbf)] (y :: z :: rest) = (2, none) :=
      matching_cons hy (matching_cons hz rfl)
    by_cases hfirst : b.toNat = 0xf0
    · rw [if_pos hfirst] at hcontinuations
      exact ⟨b, [x, y, z], _, rfl, hcontinuations, matching_cons ⟨hlow hfirst, hx.2⟩ hlastTwo, rfl⟩
    rw [if_neg hfirst] at hcontinuations
    by_cases hlast : b.toNat = 0xf4
    · rw [if_neg (by omega), if_pos hlast] at hcontinuations
      exact ⟨b, [x, y, z], _, rfl, hcontinuations, matching_cons ⟨hx.1, hhigh hlast⟩ hlastTwo, rfl⟩
    · rw [if_pos (by omega)] at hcontinuations
      exact ⟨b, [x, y, z], _, rfl, hcontinuations, matching_cons hx hlastTwo, rfl⟩

lemma eq_zero_of_matching_nil (h : matching [] rest = (n, none)) : n = 0 := by
  simpa [matching, eq_comm] using h

lemma three_of_matching {low high : UInt8} (hb : 0xe0 ≤ b.toNat ∧ b.toNat < 0xf0)
    (hlow : 0x80 ≤ low.toNat) (hhigh : high.toNat ≤ 0xbf) (hfirst : b.toNat = 0xe0 → 0xa0 ≤ low.toNat)
    (hlast : b.toNat = 0xed → high.toNat ≤ 0x9f)
    (hmatching : matching [(low, high), (0x80, 0xbf)] rest = (n, none)) :
    Sequence (b :: rest.take n)
      ((rest.take n).foldl (fun code c => code * 64 + c.toNat % 64) (leadBits b n)) := by
  obtain ⟨x, more, m, rfl, rfl, hx, hmore⟩ := exists_of_matching_cons hmatching
  obtain ⟨y, more, m, rfl, rfl, hy, hmore⟩ := exists_of_matching_cons hmore
  obtain rfl := eq_zero_of_matching_nil hmore
  exact .three hb (by omega) (by omega) (by omega) hy

lemma four_of_matching {low high : UInt8} (hb : 0xf0 ≤ b.toNat ∧ b.toNat ≤ 0xf4)
    (hlow : 0x80 ≤ low.toNat) (hhigh : high.toNat ≤ 0xbf) (hfirst : b.toNat = 0xf0 → 0x90 ≤ low.toNat)
    (hlast : b.toNat = 0xf4 → high.toNat ≤ 0x8f)
    (hmatching : matching [(low, high), (0x80, 0xbf), (0x80, 0xbf)] rest = (n, none)) :
    Sequence (b :: rest.take n)
      ((rest.take n).foldl (fun code c => code * 64 + c.toNat % 64) (leadBits b n)) := by
  obtain ⟨x, more, m, rfl, rfl, hx, hmore⟩ := exists_of_matching_cons hmatching
  obtain ⟨y, more, m, rfl, rfl, hy, hmore⟩ := exists_of_matching_cons hmore
  obtain ⟨z, more, m, rfl, rfl, hz, hmore⟩ := exists_of_matching_cons hmore
  obtain rfl := eq_zero_of_matching_nil hmore
  exact .four hb (by omega) (by omega) (by omega) hy hz

lemma sequence_of_matching (hranges : continuations b = some ranges)
    (hmatching : matching ranges rest = (n, none)) :
    Sequence (b :: rest.take n)
      ((rest.take n).foldl (fun code c => code * 64 + c.toNat % 64) (leadBits b n)) := by
  rw [continuations_eq] at hranges
  split at hranges
  · next hb =>
    obtain rfl := Option.some.inj hranges
    obtain rfl := eq_zero_of_matching_nil hmatching
    exact .one hb
  split at hranges
  · simp at hranges
  split at hranges
  · obtain rfl := Option.some.inj hranges
    obtain ⟨x, more, m, rfl, rfl, hx, hmore⟩ := exists_of_matching_cons hmatching
    obtain rfl := eq_zero_of_matching_nil hmore
    exact .two (by omega) hx
  have hbytes : (0x80 : UInt8).toNat = 0x80 ∧ (0xbf : UInt8).toNat = 0xbf ∧
      (0xa0 : UInt8).toNat = 0xa0 ∧ (0x9f : UInt8).toNat = 0x9f ∧ (0x90 : UInt8).toNat = 0x90 ∧
      (0x8f : UInt8).toNat = 0x8f := ⟨rfl, rfl, rfl, rfl, rfl, rfl⟩
  repeat' split at hranges
  all_goals cases hranges
  · apply three_of_matching _ _ _ _ _ hmatching <;> omega
  · apply three_of_matching _ _ _ _ _ hmatching <;> omega
  · apply three_of_matching _ _ _ _ _ hmatching <;> omega
  · apply four_of_matching _ _ _ _ _ hmatching <;> omega
  · apply four_of_matching _ _ _ _ _ hmatching <;> omega
  · apply four_of_matching _ _ _ _ _ hmatching <;> omega

end Steps

lemma decodeUtf8_encodeUtf8 (cs : List Char) : decodeUtf8 (encodeUtf8 cs) = .ok cs := by
  suffices h : ∀ position, decodeFrom position (encodeUtf8 cs) = .ok cs from h 0
  induction cs with
  | nil =>
    intro position
    simp [encodeUtf8, decodeFrom]
  | cons c cs ih =>
    intro position
    obtain ⟨b, more, ranges, hbytes, hranges, hmatching, hcode⟩ :=
      (sequence_utf8EncodeChar c).exists_ranges (encodeUtf8 cs)
    have hencode : encodeUtf8 (c :: cs) = b :: (more ++ encodeUtf8 cs) := by
      change String.utf8EncodeChar c ++ encodeUtf8 cs = _
      rw [hbytes, List.cons_append]
    rw [hencode, decodeFrom_cons hranges hmatching, List.drop_left, List.take_left, ← hcode,
      Char.ofNat_toNat, ih]
    rfl

lemma encodeUtf8_of_decodeUtf8 {bytes : List UInt8} (h : decodeUtf8 bytes = .ok cs) :
    encodeUtf8 cs = bytes := by
  suffices hfrom : ∀ n position (bytes : List UInt8) cs, bytes.length ≤ n →
      decodeFrom position bytes = .ok cs → encodeUtf8 cs = bytes from
    hfrom bytes.length 0 bytes cs le_rfl h
  intro n
  induction n with
  | zero =>
    intro position bytes cs hn h
    obtain rfl := List.length_eq_zero_iff.mp (Nat.le_zero.mp hn)
    obtain rfl : [] = cs := by simpa [decodeFrom] using h
    rfl
  | succ n ih =>
    intro position bytes cs hn h
    cases bytes with
    | nil =>
      obtain rfl : [] = cs := by simpa [decodeFrom] using h
      rfl
    | cons b rest =>
      cases hranges : continuations b with
      | none => simp [decodeFrom, hranges] at h
      | some ranges =>
        rcases hmatching : matching ranges rest with ⟨m, cause⟩
        cases cause with
        | some cause => simp [decodeFrom, hranges, hmatching] at h
        | none =>
          rw [decodeFrom_cons hranges hmatching] at h
          cases hmore : decodeFrom (position + m + 1) (rest.drop m) with
          | error fault => simp [hmore, Except.map] at h
          | ok more =>
            rw [hmore] at h
            obtain rfl := Except.ok.inj h
            have hlength : (rest.drop m).length ≤ n := by
              simp only [List.length_cons, List.length_drop] at hn ⊢
              omega
            change String.utf8EncodeChar _ ++ encodeUtf8 more = _
            rw [(sequence_of_matching hranges hmatching).utf8EncodeChar, ih _ _ _ hlength hmore,
              List.cons_append, List.take_append_drop]

lemma encodeUtf8_inj {cs ds : List Char} : encodeUtf8 cs = encodeUtf8 ds ↔ cs = ds := by
  refine ⟨fun h => ?_, congrArg encodeUtf8⟩
  have hdecode := congrArg decodeUtf8 h
  rw [decodeUtf8_encodeUtf8, decodeUtf8_encodeUtf8] at hdecode
  exact Except.ok.inj hdecode

lemma notMem_unifyLines (cs : List Char) : '\r' ∉ unifyLines cs := by
  fun_induction unifyLines cs with
  | case1 => simp
  | case2 rest ih => simpa using ih
  | case3 c rest _ ih =>
    rw [List.mem_cons, not_or]
    refine ⟨?_, ih⟩
    split
    · decide
    · next hc => exact Ne.symm hc

lemma unifyLines_of_notMem (h : '\r' ∉ cs) : unifyLines cs = cs := by
  fun_induction unifyLines cs with
  | case1 => rfl
  | case2 rest ih => simp at h
  | case3 c rest _ ih =>
    rw [List.mem_cons, not_or] at h
    rw [if_neg (Ne.symm h.1), ih h.2]

lemma unifyLines_eq_self : unifyLines cs = cs ↔ '\r' ∉ cs :=
  ⟨fun h => h ▸ notMem_unifyLines cs, unifyLines_of_notMem⟩

end MarkupLabels.Text
