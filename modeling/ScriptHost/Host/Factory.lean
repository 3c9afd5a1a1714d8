/-
Compiled factories: compiling the source of a module, loading a record of a blob, and calling what
came of it.
-/
import ScriptHost.Host.Basic
import ScriptHost.Script.Factory

namespace ScriptHost

/-- A factory with the name it was compiled under. The reference is to be given back. -/
structure Factory where
  name : String
  function : Ref

namespace Factory

def debug (f : Factory) : String :=
  "CompiledFunction \x7b name: " ++ Text.quoted f.name ++ ", .. \x7d"

/-- Compiles the source of a module. A syntax error is blamed on the module. -/
def compile (name : String) (source : Bytes) : Attempt Factory := do
  Host.emit ⟨.trace, "compiling module factory",
    [("module", name), ("len", toString source.length)]⟩
  match ← Host.compileFunction name Factory.signature source with
  | .ok function => return ⟨name, function⟩
  | .error error =>
    holding error do
      let message ← Host.messageOf error
      Host.emit ⟨.debug, "module failed to compile", [("module", name), ("message", message)]⟩
      throw (.compile name message)

/-- Passes a reference on, or turns an error of the engine into one that refuses the blob. -/
def orCorrupt : Except Ref Ref → Attempt Ref
  | .ok value => return value
  | .error error =>
    holding error do
      let message ← Host.messageOf error
      throw (.corruptSnapshot message)

def ofRecord (name : String) (blob : Bytes) (index : UInt32) : Attempt Factory := do
  if blob.isEmpty then throw (.corruptSnapshot "empty snapshot blob")
  else do
    Host.emit ⟨.trace, "loading snapshot function",
      [("module", name), ("index", toString index.toNat), ("len", toString blob.length)]⟩
    let function ← orCorrupt (← Host.loadRecord blob index)
    return ⟨name, function⟩

structure Args where
  exports : Ref
  require : Ref
  module : Ref
  /-- The native counterpart of the module, or `undefined`. -/
  native : Ref

def Args.toList (args : Args) : List Ref := [args.exports, args.require, args.module, args.native]

/-- Calls a factory, or passes on why there is none. The factory is given back after the call. -/
def call (compiled : Except HostError Factory) (args : Args) : Attempt Ref := do
  let factory ← ExceptT.mk (pure compiled)
  let this ← Host.newUndefined
  holding this do
    Host.emit ⟨.trace, "invoking module factory", [("module", factory.name)]⟩
    let completion ← Host.applyFunction factory.function this args.toList
    -- the factory goes before its completion is looked at
    Host.release factory.function
    match completion with
    | .ok value => return value
    | .error error =>
      holding error do
        let message ← Host.messageOf error
        Host.emit ⟨.debug, "module factory threw", [("module", factory.name), ("message", message)]⟩
        throw (.execution factory.name message)

end Factory

end ScriptHost
