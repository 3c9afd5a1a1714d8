/-
What is written as UTF-8 is read back as it was, with nothing replaced. A character is written as a lead
byte with continuation bytes, and their pieces are that one character, whatever follows. The cases are the
four lengths of a sequence.
-/
import ScriptHost.Text.Utf8
import Mathlib.Tactic

namespace ScriptHost.Text

/-- A byte between the bounds of a range. -/
theorem ByteRange.contains_ofNat {least greatest : UInt8} {n : Nat} (hn : n < 256) (hl : least.toNat ≤ n)
    (hg : n ≤ greatest.toNat) : ByteRange.contains ⟨least, greatest⟩ (UInt8.ofNat n) = true := by
  unfold ByteRange.contains
  rw [Bool.and_eq_true, decide_eq_true_eq, decide_eq_true_eq, UInt8.le_iff_toNat_le, UInt8.le_iff_toNat_le,
    UInt8.toNat_ofNat_of_lt' hn]
  exact ⟨hl, hg⟩

theorem continuation_contains {n : Nat} (hl : 0x80 ≤ n) (hg : n ≤ 0xBF) :
    continuation.contains (UInt8.ofNat n) = true :=
  ByteRange.contains_ofNat (by omega) hl hg

/-- A byte that begins a sequence. -/
theorem piecesFrom_lead {byte : UInt8} {s : Sequence} (h : lead byte = .sequence s) (rest : Bytes) :
    piecesFrom none (byte :: rest) = piecesFrom (some s) rest := by
  rw [piecesFrom, advance, begin, h]
  rfl

/-- A continuation byte, before the last one of its sequence. -/
theorem piecesFrom_next {s : Sequence} {n : Nat} {range : ByteRange} {later : List ByteRange} (hn : n < 256)
    (hc : s.next.contains (UInt8.ofNat n) = true) (hs : s.later = range :: later) (rest : Bytes) :
    piecesFrom (some s) (UInt8.ofNat n :: rest) =
      piecesFrom (some ⟨s.value * 64 + (n - 0x80), s.length + 1, range, later⟩) rest := by
  rw [piecesFrom, advance, if_pos hc, UInt8.toNat_ofNat_of_lt' hn]
  simp only [hs]
  rfl

/-- The last byte of a sequence. -/
theorem piecesFrom_last {s : Sequence} {n : Nat} (hn : n < 256) (hc : s.next.contains (UInt8.ofNat n) = true)
    (hs : s.later = []) (rest : Bytes) : piecesFrom (some s) (UInt8.ofNat n :: rest) =
      .char (Char.ofNat (s.value * 64 + (n - 0x80))) :: piecesFrom none rest := by
  rw [piecesFrom, advance, if_pos hc, UInt8.toNat_ofNat_of_lt' hn]
  simp only [hs]
  rfl

theorem lead_two {n : Nat} (hl : 0xC2 ≤ n) (hg : n < 0xE0) :
    lead (UInt8.ofNat n) = .sequence ⟨n - 0xC0, 1, continuation, []⟩ := by
  unfold lead
  rw [UInt8.toNat_ofNat_of_lt' (by show n < 256; omega)]
  simp only
  rw [if_neg (by omega), if_neg (by omega), if_pos hg]

/-- The second byte of a sequence of three, and what it may be. -/
theorem lead_three {n : Nat} (hl : 0xE0 ≤ n) (hg : n < 0xF0) : ∃ least greatest,
    lead (UInt8.ofNat n) = .sequence ⟨n - 0xE0, 1, ⟨least, greatest⟩, [continuation]⟩ ∧
    least.toNat = (if n = 0xE0 then 0xA0 else 0x80) ∧ greatest.toNat = if n = 0xED then 0x9F else 0xBF := by
  unfold lead
  rw [UInt8.toNat_ofNat_of_lt' (by show n < 256; omega)]
  simp only
  rw [if_neg (by omega), if_neg (by omega), if_neg (by omega)]
  by_cases h0 : n = 0xE0
  · subst h0; exact ⟨_, _, rfl, rfl, rfl⟩
  · by_cases hd : n = 0xED
    · subst hd; exact ⟨_, _, rfl, rfl, rfl⟩
    · rw [if_neg h0, if_neg hd, if_pos hg, if_neg h0, if_neg hd]
      exact ⟨0x80, 0xBF, rfl, rfl, rfl⟩

theorem lead_four {n : Nat} (hl : 0xF0 ≤ n) (hg : n ≤ 0xF4) : ∃ least greatest,
    lead (UInt8.ofNat n) = .sequence ⟨n - 0xF0, 1, ⟨least, greatest⟩, [continuation, continuation]⟩ ∧
    least.toNat = (if n = 0xF0 then 0x90 else 0x80) ∧ greatest.toNat = if n = 0xF4 then 0x8F else 0xBF := by
  unfold lead
  rw [UInt8.toNat_ofNat_of_lt' (by show n < 256; omega)]
  simp only
  rw [if_neg (by omega), if_neg (by omega), if_neg (by omega), if_neg (by omega), if_neg (by omega),
    if_neg (by omega)]
  by_cases h0 : n = 0xF0
  · subst h0; exact ⟨_, _, rfl, rfl, rfl⟩
  · by_cases h4 : n = 0xF4
    · subst h4; exact ⟨_, _, rfl, rfl, rfl⟩
    · rw [if_neg h0, if_pos (by omega), if_neg h0, if_neg h4]
      exact ⟨0x80, 0xBF, rfl, rfl, rfl⟩

theorem pieces_one {v : Nat} (hv : v ≤ 127) (rest : Bytes) :
    piecesFrom none (UInt8.ofNat v :: rest) = .char (Char.ofNat v) :: piecesFrom none rest := by
  have hlead : lead (UInt8.ofNat v) = .single (Char.ofNat v) := by
    unfold lead
    rw [UInt8.toNat_ofNat_of_lt' (by show v < 256; omega)]
    exact if_pos (by omega)
  rw [piecesFrom, advance, begin, hlead]
  rfl

theorem pieces_two {v : Nat} (hl : 127 < v) (hg : v ≤ 2047) (rest : Bytes) :
    piecesFrom none (UInt8.ofNat (v / 64 % 32 + 192) :: UInt8.ofNat (v % 64 + 128) :: rest) =
      .char (Char.ofNat v) :: piecesFrom none rest := by
  rw [piecesFrom_lead (lead_two (by omega) (by omega)),
    piecesFrom_last (by omega) (continuation_contains (by omega) (by omega)) rfl]
  have hvalue : (v / 64 % 32 + 192 - 0xC0) * 64 + (v % 64 + 128 - 0x80) = v := by omega
  simp only [hvalue]

/-- No surrogate is written, so the second byte is in its range where the lead byte narrows it. -/
theorem pieces_three {v : Nat} (hl : 2047 < v) (hg : v ≤ 65535) (hs : v < 0xD800 ∨ 0xDFFF < v) (rest : Bytes) :
    piecesFrom none (UInt8.ofNat (v / 4096 % 16 + 224) :: UInt8.ofNat (v / 64 % 64 + 128) ::
      UInt8.ofNat (v % 64 + 128) :: rest) = .char (Char.ofNat v) :: piecesFrom none rest := by
  obtain ⟨least, greatest, hlead, hleast, hgreatest⟩ :=
    lead_three (n := v / 4096 % 16 + 224) (by omega) (by omega)
  have hsecond : ByteRange.contains ⟨least, greatest⟩ (UInt8.ofNat (v / 64 % 64 + 128)) = true := by
    refine ByteRange.contains_ofNat (by omega) ?_ ?_
    · rw [hleast]; split <;> omega
    · rw [hgreatest]; split <;> omega
  rw [piecesFrom_lead hlead, piecesFrom_next (by omega) hsecond rfl,
    piecesFrom_last (by omega) (continuation_contains (by omega) (by omega)) rfl]
  have hvalue : ((v / 4096 % 16 + 224 - 0xE0) * 64 + (v / 64 % 64 + 128 - 0x80)) * 64 + (v % 64 + 128 - 0x80) = v := by
    omega
  simp only [hvalue]

theorem pieces_four {v : Nat} (hl : 65535 < v) (hg : v < 0x110000) (rest : Bytes) :
    piecesFrom none (UInt8.ofNat (v / 262144 % 8 + 240) :: UInt8.ofNat (v / 4096 % 64 + 128) ::
      UInt8.ofNat (v / 64 % 64 + 128) :: UInt8.ofNat (v % 64 + 128) :: rest) =
      .char (Char.ofNat v) :: piecesFrom none rest := by
  obtain ⟨least, greatest, hlead, hleast, hgreatest⟩ :=
    lead_four (n := v / 262144 % 8 + 240) (by omega) (by omega)
  have hsecond : ByteRange.contains ⟨least, greatest⟩ (UInt8.ofNat (v / 4096 % 64 + 128)) = true := by
    refine ByteRange.contains_ofNat (by omega) ?_ ?_
    · rw [hleast]; split <;> omega
    · rw [hgreatest]; split <;> omega
  rw [piecesFrom_lead hlead, piecesFrom_next (by omega) hsecond rfl,
    piecesFrom_next (by omega) (continuation_contains (by omega) (by omega)) rfl,
    piecesFrom_last (by omega) (continuation_contains (by omega) (by omega)) rfl]
  -- base 64, with the marks of the four bytes taken away again
  have hvalue : (((v / 262144 % 8 + 240 - 0xF0) * 64 + (v / 4096 % 64 + 128 - 0x80)) * 64 +
      (v / 64 % 64 + 128 - 0x80)) * 64 + (v % 64 + 128 - 0x80) = v := by
    omega
  simp only [hvalue]

/-- The bytes of a character are one piece, whatever follows. -/
theorem pieces_utf8EncodeChar (c : Char) (rest : Bytes) :
    piecesFrom none (String.utf8EncodeChar c ++ rest) = .char c :: piecesFrom none rest := by
  have hc : Char.ofNat c.val.toNat = c := Char.ofNat_toNat c
  have hvalid : c.val.toNat < 0xD800 ∨ 0xDFFF < c.val.toNat ∧ c.val.toNat < 0x110000 := c.valid
  unfold String.utf8EncodeChar
  generalize c.val.toNat = v at hc hvalid
  rw [← hc]
  -- the encoder goes by the value, so one case for each length
  by_cases h1 : v ≤ 127
  · simp only [if_pos h1]
    exact pieces_one h1 rest
  · simp only [if_neg h1]
    by_cases h2 : v ≤ 2047
    · simp only [if_pos h2]
      exact pieces_two (Nat.not_le.1 h1) h2 rest
    · simp only [if_neg h2]
      by_cases h3 : v ≤ 65535
      · simp only [if_pos h3]
        exact pieces_three (Nat.not_le.1 h2) h3 (hvalid.imp id And.left) rest
      · simp only [if_neg h3]
        exact pieces_four (Nat.not_le.1 h3) (by omega) rest

theorem pieces_encode (text : String) : pieces (encode text) = text.toList.map .char := by
  unfold pieces encode
  induction text.toList with
  | nil => rfl
  | cons c rest ih => rw [List.flatMap_cons, pieces_utf8EncodeChar, ih, List.map_cons]

/-- A text that was written is read back. -/
theorem decodeLossy_encode (text : String) : decodeLossy (encode text) = text := by
  unfold decodeLossy
  rw [pieces_encode, List.map_map]
  have hid : Piece.orReplacement ∘ Piece.char = id := rfl
  rw [hid, List.map_id, String.ofList_toList]

theorem charsOf_map_char (start : Nat) (chars : List Char) : charsOf start (chars.map .char) = .ok chars := by
  induction chars generalizing start with
  | nil => rfl
  | cons c rest ih => rw [List.map_cons, charsOf, ih]; rfl

/-- A text that was written is read back, and there is nothing wrong with it. -/
theorem decode_encode (text : String) : decode (encode text) = .ok text := by
  rw [decode, pieces_encode, charsOf_map_char, Except.map, String.ofList_toList]

/-! ## Bytes of one character -/

/-- A byte below 128 is a character of its own, and stands in no longer sequence. -/
theorem toNat_of_mem_utf8EncodeChar {c : Char} {byte : UInt8} (h : byte ∈ String.utf8EncodeChar c)
    (hb : byte.toNat < 128) : c.toNat = byte.toNat := by
  have hlow : ∀ n : Nat, n < 256 → 128 ≤ n → byte ≠ UInt8.ofNat n := by
    rintro n hn hl rfl
    rw [UInt8.toNat_ofNat_of_lt' hn] at hb
    omega
  unfold String.utf8EncodeChar at h
  show c.val.toNat = byte.toNat
  generalize c.val.toNat = v at h ⊢
  by_cases h1 : v ≤ 127
  · simp only [if_pos h1, List.mem_singleton] at h
    rw [h, UInt8.toNat_ofNat_of_lt' (by show v < 256; omega)]
  · -- in a longer sequence every byte has its highest bit set
    exfalso
    simp only [if_neg h1] at h
    split at h
    · simp only [List.mem_cons, List.not_mem_nil, or_false] at h
      rcases h with h | h <;> exact hlow _ (by omega) (by omega) h
    · split at h
      · simp only [List.mem_cons, List.not_mem_nil, or_false] at h
        rcases h with h | h | h <;> exact hlow _ (by omega) (by omega) h
      · simp only [List.mem_cons, List.not_mem_nil, or_false] at h
        rcases h with h | h | h | h <;> exact hlow _ (by omega) (by omega) h

theorem mem_of_mem_encode {text : String} {c : Char} (hc : c.toNat < 128)
    (h : UInt8.ofNat c.toNat ∈ encode text) : c ∈ text.toList := by
  obtain ⟨other, hother, hbyte⟩ := List.mem_flatMap.1 h
  have hto : (UInt8.ofNat c.toNat).toNat = c.toNat := UInt8.toNat_ofNat_of_lt' (by show c.toNat < 256; omega)
  have heq := toNat_of_mem_utf8EncodeChar hbyte (by rw [hto]; exact hc)
  rw [hto] at heq
  rwa [← Char.toNat_inj.1 heq]

end ScriptHost.Text
