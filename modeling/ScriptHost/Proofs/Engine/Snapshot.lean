/-
Blobs give back the records that they were made of. A record has no separator in it, and there is at
least one: a blob without records would be read as one empty record. And what is read of a blob makes up
the blob again.
-/
import ScriptHost.Engine.Snapshot
import Mathlib.Tactic

namespace ScriptHost.Snapshot

/-! ## Reading what was joined -/

theorem split_of_not_mem : ∀ {record : Bytes}, separator ∉ record → split record = [record]
  | [], _ => rfl
  | byte :: rest, h => by
    obtain ⟨hne, hrest⟩ := not_or.1 (List.mem_cons.not.1 h)
    rw [split, if_neg (Ne.symm hne), split_of_not_mem hrest]

theorem split_append_separator (more : Bytes) : ∀ {record : Bytes}, separator ∉ record →
    split (record ++ separator :: more) = record :: split more
  | [], _ => by rw [List.nil_append, split, if_pos rfl]
  | byte :: rest, h => by
    obtain ⟨hne, hrest⟩ := not_or.1 (List.mem_cons.not.1 h)
    rw [List.cons_append, split, if_neg (Ne.symm hne), split_append_separator more hrest]

/-- Records without separators are found again where they were joined. -/
theorem split_join : ∀ {records : List Bytes}, records ≠ [] → (∀ record ∈ records, separator ∉ record) →
    split (join records) = records
  | [record], _, h => split_of_not_mem (h record List.mem_cons_self)
  | record :: next :: more, _, h => by
    have hmore : split (join (next :: more)) = next :: more :=
      split_join (List.cons_ne_nil _ _) fun r hr => h r (List.mem_cons_of_mem _ hr)
    rw [join, split_append_separator _ (h record List.mem_cons_self), hmore]
    exact List.cons_ne_nil _ _

theorem records?_ofRecords {records : List Bytes} (hne : records ≠ [])
    (h : ∀ record ∈ records, separator ∉ record) : records? (ofRecords records) = some records := by
  show (List.isPrefixOf? header (header ++ join records)).map split = _
  have hheader : header.isPrefixOf? (header ++ join records) = some (join records) := rfl
  rw [hheader, Option.map_some, split_join hne h]

/-! ## Joining what was read -/

theorem split_ne_nil (bytes : Bytes) : split bytes ≠ [] := by
  cases bytes with
  | nil => exact List.cons_ne_nil _ _
  | cons byte rest =>
    unfold split
    split
    · exact List.cons_ne_nil _ _
    · split <;> exact List.cons_ne_nil _ _

theorem split_cons_of_ne {byte : UInt8} (h : byte ≠ separator) (rest : Bytes) :
    ∃ first more, split rest = first :: more ∧ split (byte :: rest) = (byte :: first) :: more := by
  obtain ⟨first, more, hsplit⟩ := List.exists_cons_of_ne_nil (split_ne_nil rest)
  refine ⟨first, more, hsplit, ?_⟩
  rw [split, if_neg h, hsplit]

theorem not_mem_of_mem_split : ∀ {bytes record : Bytes}, record ∈ split bytes → separator ∉ record
  | [], record, hr => by
    rw [split, List.mem_singleton] at hr
    rw [hr]
    exact List.not_mem_nil
  | byte :: rest, record, hr => by
    by_cases h : byte = separator
    · rw [split, if_pos h] at hr
      rcases List.mem_cons.1 hr with rfl | hr
      · exact List.not_mem_nil
      · exact not_mem_of_mem_split hr
    · obtain ⟨first, more, hrest, hsplit⟩ := split_cons_of_ne h rest
      rw [hsplit] at hr
      rcases List.mem_cons.1 hr with rfl | hr
      · -- the byte joins the first record behind it, which has no separator either
        have hfirst : separator ∉ first := not_mem_of_mem_split (hrest ▸ List.mem_cons_self)
        exact fun hm => (List.mem_cons.1 hm).elim (fun he => h he.symm) hfirst
      · exact not_mem_of_mem_split (hrest ▸ List.mem_cons_of_mem _ hr)

theorem join_cons_of_ne_nil {more : List Bytes} (h : more ≠ []) (record : Bytes) :
    join (record :: more) = record ++ separator :: join more := by
  cases more with
  | nil => exact absurd rfl h
  | cons next rest => rfl

theorem join_cons_cons (byte : UInt8) (record : Bytes) (more : List Bytes) :
    join ((byte :: record) :: more) = byte :: join (record :: more) := by
  cases more <;> rfl

/-- Records that were found are joined to the bytes that they were found in. -/
theorem join_split : ∀ bytes : Bytes, join (split bytes) = bytes
  | [] => rfl
  | byte :: rest => by
    by_cases h : byte = separator
    · rw [split, if_pos h, join_cons_of_ne_nil (split_ne_nil rest), join_split rest, h]
      rfl
    · obtain ⟨first, more, hrest, hsplit⟩ := split_cons_of_ne h rest
      rw [hsplit, join_cons_cons, ← hrest, join_split rest]

theorem records?_eq_none_iff (blob : Bytes) : records? blob = none ↔ ¬ header <+: blob := by
  unfold records?
  rw [Option.map_eq_none_iff, ← List.isPrefixOf_iff_prefix, ← List.isSome_isPrefixOf?_eq_isPrefixOf,
    Bool.not_eq_true, Option.isSome_eq_false_iff, Option.isNone_iff_eq_none]

/-- A blob that is read has a record at least, none with a separator in it, and is the blob of its records. -/
theorem of_records?_eq_some {blob : Bytes} {records : List Bytes} (h : records? blob = some records) :
    records ≠ [] ∧ (∀ record ∈ records, separator ∉ record) ∧ ofRecords records = blob := by
  obtain ⟨bytes, hprefix, rfl⟩ := Option.map_eq_some_iff.1 h
  refine ⟨split_ne_nil bytes, fun record hr => not_mem_of_mem_split hr, ?_⟩
  rw [ofRecords, join_split]
  exact List.append_eq_of_isPrefixOf?_eq_some hprefix

end ScriptHost.Snapshot
