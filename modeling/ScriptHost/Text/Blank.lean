/-
White space, as the property White_Space of Unicode lists it, and trimming.
-/

namespace ScriptHost.Text

def isBlank (c : Char) : Bool :=
  let n := c.toNat
  (0x9 ≤ n && n ≤ 0xD) || n == 0x20 || n == 0x85 || n == 0xA0 || n == 0x1680
    || (0x2000 ≤ n && n ≤ 0x200A) || n == 0x2028 || n == 0x2029 || n == 0x202F
    || n == 0x205F || n == 0x3000

def trimEnd (text : List Char) : List Char :=
  text.foldr (fun c rest => if rest.isEmpty && isBlank c then [] else c :: rest) []

def trim (text : List Char) : List Char :=
  trimEnd (text.dropWhile isBlank)

theorem length_trimEnd_le (text : List Char) : (trimEnd text).length ≤ text.length := by
  induction text with
  | nil => exact Nat.le_refl 0
  | cons c rest ih =>
    simp only [trimEnd, List.foldr_cons] at ih ⊢
    split
    · exact Nat.zero_le _
    · exact Nat.succ_le_succ ih

theorem length_trim_le (text : List Char) : (trim text).length ≤ text.length :=
  Nat.le_trans (length_trimEnd_le _) (List.dropWhile_sublist isBlank).length_le

end ScriptHost.Text
