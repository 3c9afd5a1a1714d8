/-
Writing a configuration and reading it back. The document is read member by member: each field is stored in
its place, the settings of a debugger go into the configuration when their bracket closes, and nothing that
is written is refused.
-/
import ScriptHost.Proofs.Config.Reading

namespace ScriptHost.Config

namespace Reader

theorem isMark_comma : IsMark ',' := .inl rfl

theorem isMark_close : IsMark '\x7d' := .inr rfl

/-- A port is stored as it is. -/
theorem complete_port (r : Reader) (port : UInt16) : r.complete (.field .port) (.integer port.toNat) =
    .ok { r with settings := { r.settings with port := port }, point := .after } := by
  have hlt : port.toNat < 65536 := port.toNat_lt
  have hfits : (decide (0 ≤ (port.toNat : Int)) && decide ((port.toNat : Int) < 65536)) = true := by
    rw [Bool.and_eq_true, decide_eq_true_eq, decide_eq_true_eq]
    omega
  have hport : (port.toNat : Int).toNat.toUInt16 = port := by
    rw [Int.toNat_natCast]
    exact UInt16.ofNat_toNat
  rw [complete_field, store, if_pos hfits, hport]
  rfl

theorem lt_wordEnd (port : UInt16) : port.toNat < wordEnd := by
  have hlt : port.toNat < 65536 := port.toNat_lt
  unfold wordEnd
  omega

/-- The settings of a debugger go into the configuration. -/
theorem readsValue_writeDebugger (r : Reader) (d : DebuggerSettings) :
    r.ReadsValue (.field .debugger) (writeDebugger d)
      { r with config := { r.config with debugger := some d }, settings := d, point := .after } := by
  obtain ⟨port, channel, waitSource, contextReset⟩ := d
  obtain ⟨config, settings, brackets, point⟩ := r
  intro mark r' hm h'
  -- the reader inside the object, by the settings and the fields read so far
  let inside (settings : DebuggerSettings) (seen : List Field) (point : Point) : Reader :=
    ⟨config, settings, .settings .debugger .object seen :: brackets, point⟩
  have hport : (inside .default [] .opened).Reads (writeMember Field.port.name (Nat.toDigits 10 port.toNat) ++ [','])
      (inside ⟨port, "websocket", false, false⟩ [.port] .comma) :=
    reads_writeMember rfl (.inl rfl) rfl (by decide)
      (readsValue_toDigits (by decide) (lt_wordEnd port) (complete_port _ port)) isMark_comma rfl
  have hchannel : (inside ⟨port, "websocket", false, false⟩ [.port] .comma).Reads
      (writeMember Field.channel.name (writeString channel.toList) ++ [','])
      (inside ⟨port, channel, false, false⟩ [.port, .channel] .comma) :=
    reads_writeMember rfl (.inr rfl) rfl (by decide) (readsValue_writeString (by decide) rfl) isMark_comma rfl
  have hwait : (inside ⟨port, channel, false, false⟩ [.port, .channel] .comma).Reads
      (writeMember Field.waitSource.name (writeBool waitSource) ++ [','])
      (inside ⟨port, channel, waitSource, false⟩ [.port, .channel, .waitSource] .comma) :=
    reads_writeMember rfl (.inr rfl) rfl (by decide) (readsValue_writeBool rfl) isMark_comma rfl
  have hreset : (inside ⟨port, channel, waitSource, false⟩ [.port, .channel, .waitSource] .comma).Reads
      (writeMember Field.contextReset.name (writeBool contextReset) ++ ['\x7d'])
      ⟨{ config with debugger := some ⟨port, channel, waitSource, contextReset⟩ },
        ⟨port, channel, waitSource, contextReset⟩, brackets, .after⟩ :=
    reads_writeMember rfl (.inr rfl) rfl (by decide) (readsValue_writeBool rfl) isMark_close rfl
  have htext : writeDebugger ⟨port, channel, waitSource, contextReset⟩ ++ [mark] =
      '\x7b' :: (writeMember Field.port.name (Nat.toDigits 10 port.toNat) ++ [','] ++
        (writeMember Field.channel.name (writeString channel.toList) ++ [',']) ++
        (writeMember Field.waitSource.name (writeBool waitSource) ++ [',']) ++
        (writeMember Field.contextReset.name (writeBool contextReset) ++ ['\x7d']) ++ [mark]) := by
    simp [writeDebugger, writeObject, List.intercalate, Field.name]
  rw [htext]
  exact .cons rfl ((((hport.append hchannel).append hwait).append hreset).snoc ((step_mark rfl hm).trans h'))

/-- The member of a debugger, with settings or without. -/
theorem reads_debuggerMember (debugger : Option DebuggerSettings) : ∃ text settings,
    (∀ loadstat, write ⟨debugger, loadstat⟩ =
      writeObject [writeMember Field.debugger.name text, writeMember Field.loadstat.name (writeBool loadstat)]) ∧
    Reads ⟨default, .default, [.settings .config .object []], .opened⟩
      (writeMember Field.debugger.name text ++ [','])
      ⟨{ default with debugger := debugger }, settings, [.settings .config .object [.debugger]], .comma⟩ := by
  cases debugger with
  | none =>
    exact ⟨_, .default, fun _ => rfl,
      reads_writeMember rfl (.inl rfl) rfl (by decide) (readsValue_null rfl) isMark_comma rfl⟩
  | some d =>
    exact ⟨_, d, fun _ => rfl,
      reads_writeMember rfl (.inl rfl) rfl (by decide) (readsValue_writeDebugger _ d) isMark_comma rfl⟩

end Reader

theorem writeObject_pair (first second : List Char) :
    writeObject [first, second] = '\x7b' :: (first ++ [','] ++ (second ++ ['\x7d'])) := by
  simp [writeObject, List.intercalate]

open Reader

/-- Every configuration is read back from its document as it is. -/
theorem ofJson_toJson (c : Config) : ofJson c.toJson = .ok c := by
  obtain ⟨debugger, loadstat⟩ := c
  obtain ⟨text, settings, htext, hdebugger⟩ := reads_debuggerMember debugger
  have hloadstat : Reads ⟨{ default with debugger := debugger }, settings, [.settings .config .object [.debugger]], .comma⟩
      (writeMember Field.loadstat.name (writeBool loadstat) ++ ['\x7d'])
      ⟨⟨debugger, loadstat⟩, settings, [], .after⟩ :=
    reads_writeMember rfl (.inr rfl) rfl (by decide) (readsValue_writeBool rfl) isMark_close rfl
  have hreads : (write ⟨debugger, loadstat⟩).foldlM step start = .ok ⟨⟨debugger, loadstat⟩, settings, [], .after⟩ := by
    rw [htext, writeObject_pair]
    exact Reads.cons rfl (hdebugger.append hloadstat)
  rw [ofJson, toJson, String.toList_ofList, read, hreads]
  rfl

end ScriptHost.Config
