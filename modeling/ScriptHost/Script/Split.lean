/-
Cutting a text, at every occurrence of a character or at its top-level separators. A scan follows
quotes and brackets: inside quotes only the same quote counts, outside them an opening bracket goes
one level down and a closing one up again, never above the top. A separator cuts where the scan is
at the top level.
-/

namespace ScriptHost.Script

def splitOnChar (separator : Char) : List Char → List (List Char)
  | [] => [[]]
  | c :: rest =>
    match splitOnChar separator rest with
    | [] => [[c]]
    | first :: more => if c = separator then [] :: first :: more else (c :: first) :: more

/-! ## Scans -/

/-- What the characters read so far leave open. -/
structure Scan where
  quote : Option Char
  depth : Nat
  deriving Repr, DecidableEq

namespace Scan

/-- Outside quotes and brackets. -/
def start : Scan := ⟨none, 0⟩

def isQuote (c : Char) : Bool := c = '"' || c = '\''

def opens (c : Char) : Bool := c = '(' || c = '\x7b' || c = '['

def closes (c : Char) : Bool := c = ')' || c = '\x7d' || c = ']'

def step (s : Scan) (c : Char) : Scan :=
  match s.quote with
  | some q => if c = q then { s with quote := none } else s
  | none =>
    if isQuote c then { s with quote := some c }
    else if opens c then { s with depth := s.depth + 1 }
    else if closes c then { s with depth := s.depth - 1 }
    else s

def atTop (s : Scan) : Bool := s.quote.isNone && s.depth = 0

def run (s : Scan) (text : List Char) : Scan := text.foldl step s

end Scan

/-! ## Top-level parts -/

/-- The first part of a text read from a given scan, and the parts behind its first cut. Quotes and
brackets never cut. -/
def partsFrom (separator : Char → Bool) (s : Scan) : List Char → List Char × List (List Char)
  | [] => ([], [])
  | c :: rest =>
    let structural := Scan.isQuote c || Scan.opens c || Scan.closes c
    if s.atTop && separator c && !structural then
      let (first, more) := partsFrom separator s rest
      ([], first :: more)
    else
      let (first, more) := partsFrom separator (s.step c) rest
      (c :: first, more)

/-- The parts of a text between its top-level separators; there is always at least one. -/
def topLevelParts (separator : Char → Bool) (text : List Char) : List (List Char) :=
  let (first, more) := partsFrom separator .start text
  first :: more

theorem length_partsFrom_le (separator : Char → Bool) : ∀ (text : List Char) (s : Scan),
    (partsFrom separator s text).1.length ≤ text.length ∧
      ∀ part ∈ (partsFrom separator s text).2, part.length ≤ text.length
  | [], _ => ⟨Nat.le_refl 0, fun _ h => (List.not_mem_nil h).elim⟩
  | c :: rest, s => by
    unfold partsFrom
    simp only
    split
    · obtain ⟨hfirst, hmore⟩ := length_partsFrom_le separator rest s
      refine ⟨Nat.zero_le _, fun part h => ?_⟩
      rcases List.mem_cons.1 h with rfl | h
      · exact Nat.le_succ_of_le hfirst
      · exact Nat.le_succ_of_le (hmore part h)
    · obtain ⟨hfirst, hmore⟩ := length_partsFrom_le separator rest (s.step c)
      exact ⟨Nat.succ_le_succ hfirst, fun part h => Nat.le_succ_of_le (hmore part h)⟩

theorem length_le_of_mem_topLevelParts {separator : Char → Bool} {text part : List Char}
    (h : part ∈ topLevelParts separator text) : part.length ≤ text.length := by
  have ⟨hfirst, hmore⟩ := length_partsFrom_le separator text .start
  rcases List.mem_cons.1 h with rfl | h
  · exact hfirst
  · exact hmore part h

end ScriptHost.Script
