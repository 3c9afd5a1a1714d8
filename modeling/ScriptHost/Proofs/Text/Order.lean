/-
Order by bytes. A text that comes first by code points comes first by the bytes of its UTF-8 form, so a
table that is sorted by code points is sorted by bytes. Of two characters the lesser has the lesser lead
byte, or the same one and then the lesser continuation bytes; what follows does not count.
-/
import ScriptHost.Text.Utf8
import Mathlib.Tactic

namespace ScriptHost.Text

/-- Bytes given as numbers, by their first one. -/
theorem byte_cons_lt {n m : Nat} {x y : Bytes} (hn : n < 256) (hm : m < 256) :
    UInt8.ofNat n :: x < UInt8.ofNat m :: y ↔ n < m ∨ n = m ∧ x < y := by
  have hlt : UInt8.ofNat n < UInt8.ofNat m ↔ n < m := by
    rw [UInt8.lt_iff_toNat_lt, UInt8.toNat_ofNat_of_lt' hn, UInt8.toNat_ofNat_of_lt' hm]
  have heq : UInt8.ofNat n = UInt8.ofNat m ↔ n = m := by
    rw [← UInt8.toNat_inj, UInt8.toNat_ofNat_of_lt' hn, UInt8.toNat_ofNat_of_lt' hm]
  rw [List.cons_lt_cons_iff, hlt, heq]

/-- The lesser character has the lesser bytes, whatever follows both. -/
theorem utf8EncodeChar_append_lt {c d : Char} (h : c < d) (x y : Bytes) :
    String.utf8EncodeChar c ++ x < String.utf8EncodeChar d ++ y := by
  have hlt : c.val.toNat < d.val.toNat := h
  have hc : c.val.toNat < 0x110000 := by have := c.valid; omega
  have hd : d.val.toNat < 0x110000 := by have := d.valid; omega
  unfold String.utf8EncodeChar
  generalize c.val.toNat = v at hlt hc
  generalize d.val.toNat = w at hlt hd
  have hthree (n : Nat) : n / 4096 = n / 64 / 64 := by omega
  have hfour (n : Nat) : n / 262144 = n / 64 / 64 / 64 := by omega
  -- the lead byte tells sequences of two lengths apart, and those of one length compare digit by digit
  simp only [hthree, hfour]
  split_ifs <;> simp (disch := omega) only [List.cons_append, List.nil_append, byte_cons_lt] <;> omega

theorem flatMap_utf8EncodeChar_lt : ∀ {s t : List Char}, s < t →
    s.flatMap String.utf8EncodeChar < t.flatMap String.utf8EncodeChar
  | [], [], h => absurd h (List.lt_irrefl _)
  | [], d :: t, _ => by
    obtain ⟨b, bytes, hb⟩ := List.exists_cons_of_ne_nil (l := String.utf8EncodeChar d) (by simp)
    simp [hb]
  | c :: s, [], h => by simp at h
  | c :: s, d :: t, h => by
    rw [List.flatMap_cons, List.flatMap_cons]
    -- the first character that differs decides, by its bytes
    rcases List.cons_lt_cons_iff.1 h with hlt | ⟨rfl, hlt⟩
    · exact utf8EncodeChar_append_lt hlt _ _
    · exact List.append_left_lt (flatMap_utf8EncodeChar_lt hlt)

/-- The order of texts is the order of their bytes. -/
theorem encode_lt_encode {s t : String} (h : s < t) : encode s < encode t :=
  flatMap_utf8EncodeChar_lt (String.lt_iff.1 h)

end ScriptHost.Text
