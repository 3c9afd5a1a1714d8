/-
Blobs of texts and the factories that are loaded from them. The records of the blob of some texts are their
bytes; loading the record of a number compiles the text that has this number among them, and any other number
is refused. Bytes without the header are no blob, and any others are the blob of just one list of records.
-/
import ScriptHost.Proofs.Engine.Snapshot
import ScriptHost.Proofs.Registry.Requests
import ScriptHost.Proofs.Text.Utf8

namespace ScriptHost

open Engine (refOf)

/-! ## Texts in a blob -/

namespace Snapshot

/-- The blob that holds some texts. -/
def ofTexts (texts : List String) : Bytes := ofRecords (texts.map Text.encode)

/-- The character between two texts. -/
def separatorChar : Char := '\x1e'

example : Text.encode "SNAP" = header ∧ Text.encode (String.singleton separatorChar) = [separator] := by decide

theorem not_mem_encode {text : String} (h : separatorChar ∉ text.toList) : separator ∉ Text.encode text :=
  fun hm => h (Text.mem_of_mem_encode (c := separatorChar) (by decide) hm)

theorem records?_ofTexts {texts : List String} (hne : texts ≠ [])
    (h : ∀ text ∈ texts, separatorChar ∉ text.toList) :
    records? (ofTexts texts) = some (texts.map Text.encode) := by
  refine records?_ofRecords (fun hnil => hne (List.map_eq_nil_iff.1 hnil)) fun record hr => ?_
  obtain ⟨text, htext, rfl⟩ := List.mem_map.1 hr
  exact not_mem_encode (h text htext)

theorem isEmpty_ofTexts (texts : List String) : (ofTexts texts).isEmpty = false := rfl

end Snapshot

/-! ## Requests for a record -/

namespace Engine

theorem allocFunction_eq (params : String) (source : Bytes) (h : Heap) :
    (allocFunction params source).run h = match Script.Body.ofBytes params source with
    | .ok body => (.ok h.size, h.push (.function body))
    | .error e => (.error (.thrown h.size), h.push (.error e.message)) := by
  unfold allocFunction compileBody
  cases Script.Body.ofBytes params source <;> rfl

/-- What a request for a record comes to: a function, or an error that says why there is none. -/
inductive Answers (heap : Heap) : Option String → Except Ref Ref → Prop where
  | function {text : String} {body : Script.Body} {function : Ref} :
      Script.Body.ofText Factory.signature text = .ok body → heap.payload function.slot = .function body →
      Answers heap (some text) (.ok function)
  | refused {text : String} {e : Script.SyntaxError} {error : Ref} :
      Script.Body.ofText Factory.signature text = .error e → heap.payload error.slot = .error e.message →
      Answers heap (some text) (.error error)
  | missing {error : Ref} : heap.payload error.slot = .error RuntimeError.noSuchRecord.message →
      Answers heap none (.error error)

theorem loadRecord_answers {texts : List String} (hne : texts ≠ [])
    (h : ∀ text ∈ texts, Snapshot.separatorChar ∉ text.toList) (index : UInt32) (e : Engine) :
    ∃ result e', loadRecord (Snapshot.ofTexts texts) index e = .ok (result, e') ∧
      Answers e'.heap texts[index.toNat]? result ∧ 0 < e'.heap.refs (refOf result).slot := by
  rw [loadRecord_of_records? (Snapshot.records?_ofTexts hne h), List.getElem?_map]
  cases texts[index.toNat]? with
  | none =>
    rw [Option.map_none, runOut_eq]
    exact ⟨_, _, rfl, .missing (payload_handOut_fresh ..), held_handOut_fresh ..⟩
  | some text =>
    have hbytes : Script.Body.ofBytes Factory.signature (Text.encode text) =
        Script.Body.ofText Factory.signature text := by
      rw [Script.Body.ofBytes, Text.decode_encode]
    rw [Option.map_some, runOut_eq]
    simp only [allocFunction_eq, hbytes]
    cases hbody : Script.Body.ofText Factory.signature text with
    | ok body => exact ⟨_, _, rfl, .function hbody (payload_handOut_fresh ..), held_handOut_fresh ..⟩
    | error error => exact ⟨_, _, rfl, .refused hbody (payload_handOut_fresh ..), held_handOut_fresh ..⟩

end Engine

/-! ## Factories -/

namespace Factory

/-- What loading a record comes to, by the text that has its number. -/
inductive Loaded (name : String) (heap : Heap) : Option String → Except HostError Factory → Prop where
  | factory {text : String} {body : Script.Body} {function : Ref} :
      Script.Body.ofText signature text = .ok body → heap.payload function.slot = .function body →
      Loaded name heap (some text) (.ok ⟨name, function⟩)
  | refused {text : String} {e : Script.SyntaxError} : Script.Body.ofText signature text = .error e →
      Loaded name heap (some text) (.error (.corruptSnapshot e.message))
  | missing : Loaded name heap none (.error (.corruptSnapshot RuntimeError.noSuchRecord.message))

/-- A request that is answered is loaded: a function is a factory, and an error is given back. -/
theorem ofRecord_loaded {name : String} {blob : Bytes} {index : UInt32} {text : Option String} {h : Host}
    (hne : blob.isEmpty = false) (ha : ∀ e : Engine, ∃ result e', Engine.loadRecord blob index e = .ok (result, e') ∧
      Engine.Answers e'.heap text result ∧ 0 < e'.heap.refs (refOf result).slot) :
    ∃ r h', (ofRecord name blob index).run h = .ok (r, h') ∧ Loaded name h'.engine.heap text r := by
  obtain ⟨h₁, hemit, -⟩ := Host.emit_ok ⟨.trace, "loading snapshot function",
    [("module", name), ("index", toString index.toNat), ("len", toString blob.length)]⟩ h
  obtain ⟨result, e, hload, hanswers, hheld⟩ := ha h₁.engine
  obtain ⟨h₂, hcall, rfl⟩ := Host.call_ok (.loadRecord blob.length index) hload
  have hrun : (ofRecord name blob index).run h =
      (orCorrupt result >>= fun function => pure ⟨name, function⟩ : Attempt Factory).run h₂ := by
    rw [ofRecord, hne, if_neg Bool.false_ne_true, Attempt.run_call hemit]
    exact Attempt.run_call hcall
  rw [hrun]
  -- an error that is answered is held, so its message can be read and it can be given back
  cases hanswers with
  | function hbody hpayload => exact ⟨_, h₂, rfl, .factory hbody hpayload⟩
  | refused hbody hpayload =>
    obtain ⟨h', hcorrupt, -⟩ := Attempt.run_refuse (α := Ref) _ hheld hpayload .corruptSnapshot
    exact ⟨_, h', Attempt.run_error hcorrupt, .refused hbody⟩
  | missing hpayload =>
    obtain ⟨h', hcorrupt, -⟩ := Attempt.run_refuse (α := Ref) _ hheld hpayload .corruptSnapshot
    exact ⟨_, h', Attempt.run_error hcorrupt, .missing⟩

end Factory

/-! ## The blob and its records -/

namespace Snapshot

/-- The records of the blob of some texts are the bytes of the texts, and each of them is loaded under its
number, and nothing under any other one. Without the header there are no records; what has it is made up of
its records, of which there is at least one, with the separator between each two and in none. -/
theorem records?_inverse :
    (∀ texts : List String, texts ≠ [] → (∀ text ∈ texts, separatorChar ∉ text.toList) →
      records? (ofTexts texts) = some (texts.map Text.encode) ∧
      ∀ name index h, ∃ r h', (Factory.ofRecord name (ofTexts texts) index).run h = .ok (r, h') ∧
        Factory.Loaded name h'.engine.heap texts[index.toNat]? r) ∧
    ∀ blob : Bytes, (records? blob = none ↔ ¬ header <+: blob) ∧
      ∀ records, records? blob = some records →
        records ≠ [] ∧ (∀ record ∈ records, separator ∉ record) ∧ header ++ join records = blob := by
  refine ⟨fun texts hne hsep => ⟨records?_ofTexts hne hsep, fun name index h => ?_⟩, fun blob => ?_⟩
  · exact Factory.ofRecord_loaded (isEmpty_ofTexts texts) (Engine.loadRecord_answers hne hsep index)
  · exact ⟨records?_eq_none_iff blob, fun records => of_records?_eq_some⟩

/-- Two empty texts, and between them one with a character of two bytes. -/
def edgeTexts : List String := ["", "return 'é'", ""]

/-- The second text is loaded, and there is no fourth one. -/
theorem records?_inverse_edgeTexts :
    records? (ofTexts edgeTexts) = some (edgeTexts.map Text.encode) ∧
    (∃ function h', (Factory.ofRecord "a" (ofTexts edgeTexts) 1).run (Host.new 1 ⟨[], []⟩) =
        .ok (.ok ⟨"a", function⟩, h') ∧
      ∃ body, h'.engine.heap.payload function.slot = .function body ∧ body.statements.length = 1) ∧
    ∃ h', (Factory.ofRecord "a" (ofTexts edgeTexts) 3).run (Host.new 1 ⟨[], []⟩) =
      .ok (.error (.corruptSnapshot "RangeError: snapshot function index out of range"), h') := by
  obtain ⟨hrecords, hload⟩ := records?_inverse.1 edgeTexts (by decide) (by decide)
  refine ⟨hrecords, ?_, ?_⟩
  · obtain ⟨r, h', hrun, hloaded⟩ := hload "a" 1 (Host.new 1 ⟨[], []⟩)
    have htext : (Script.Body.ofText Factory.signature "return 'é'").map (·.statements.length) = .ok 1 := by
      decide +kernel
    cases hloaded with
    | factory hbody hpayload =>
      change Script.Body.ofText Factory.signature "return 'é'" = _ at hbody
      rw [hbody] at htext
      exact ⟨_, h', hrun, _, hpayload, Except.ok.inj htext⟩
    | refused hbody =>
      change Script.Body.ofText Factory.signature "return 'é'" = _ at hbody
      rw [hbody] at htext
      cases htext
  · obtain ⟨r, h', hrun, hloaded⟩ := hload "a" 3 (Host.new 1 ⟨[], []⟩)
    cases hloaded with
    | missing => exact ⟨h', hrun⟩

end Snapshot

end ScriptHost
