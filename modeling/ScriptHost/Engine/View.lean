/-
Values spelled out. A view numbers the objects and functions it meets in the order of first visits,
a parent before the values of its properties; a second visit is only the number.
-/
import ScriptHost.Engine.Basic

namespace ScriptHost

inductive View where
  | undefined
  | number (text : String)
  | text (value : String)
  | bool (value : Bool)
  | error (message : String)
  | function (index : Nat)
  | object (index : Nat) (properties : List (String × View))
  /-- An object or function already met. -/
  | seen (index : Nat)

namespace View

/-- What a value shows of itself. Values that are neither `undefined` nor a number nor a string are
told apart by their messages, so an error is taken for what its message spells. -/
inductive Face where
  | leaf (view : View)
  | function
  | object (properties : Table Slot)

def face (h : Heap) (slot : Slot) : Face :=
  match h.payload slot with
  | .undefined => .leaf .undefined
  | .number value => .leaf (.number (Engine.numberFormat.render value))
  | .text value => .leaf (.text value)
  | payload =>
    match payload.message with
    | "true" => .leaf (.bool true)
    | "false" => .leaf (.bool false)
    | "function" => .function
    | "[object Object]" => .object (h.properties slot)
    | message => .leaf (.error message)

/-- The view of a value and the slots met by then, where at most `depth` objects lie inside each
other. -/
def visit (h : Heap) : Nat → List Slot → Slot → View × List Slot
  | 0, met, _ => (.undefined, met)
  | depth + 1, met, slot =>
    match face h slot with
    | .leaf view => (view, met)
    | .function =>
      match met.idxOf? slot with
      | some index => (.seen index, met)
      | none => (.function met.length, met ++ [slot])
    | .object properties =>
      match met.idxOf? slot with
      | some index => (.seen index, met)
      | none =>
        let start : List (String × View) × List Slot := ([], met ++ [slot])
        let (views, met') := properties.rows.foldl (fun acc row =>
          let (view, met'') := visit h depth acc.2 row.2
          (acc.1 ++ [(row.1, view)], met'')) start
        (.object met.length views, met')

end View

/-- The view of a value. Objects nest no deeper than the heap has cells before one comes again. -/
def Heap.view (h : Heap) (slot : Slot) : View := (View.visit h (h.size + 2) [] slot).1

end ScriptHost
