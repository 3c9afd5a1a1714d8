/-
What the reader of scripts puts into a body. Main result: each path of a body that was read, whether it is a
value, a callee or the target of an assignment, and however deeply it stands in the arguments of calls, is one
identifier at least and nothing but identifiers. And each error that the body makes itself is an `Error`.
-/
import ScriptHost.Proofs.Engine.Basic
import ScriptHost.Proofs.Script.Written

namespace ScriptHost.Script

open ScriptHost.Text

/-! ## Paths and messages -/

mutual

/-- The paths in an expression, those that are callees included. -/
def Expr.paths : Expr → List (List String)
  | .path names => [names]
  | .call callee args => callee :: pathsOf args
  | _ => []

def pathsOf : List Expr → List (List String)
  | [] => []
  | arg :: args => arg.paths ++ pathsOf args

end

mutual

/-- The messages of the errors that an expression makes. -/
def Expr.messages : Expr → List String
  | .error message => [message]
  | .call _ args => messagesOf args
  | _ => []

def messagesOf : List Expr → List String
  | [] => []
  | arg :: args => arg.messages ++ messagesOf args

end

/-- The paths in a statement, a target included. -/
def Statement.paths : Statement → List (List String)
  | .assign target value => target :: value.paths
  | .throw value => value.paths
  | .return value => value.toList.flatMap Expr.paths
  | .expr value => value.paths

def Statement.messages : Statement → List String
  | .assign _ value => value.messages
  | .throw value => value.messages
  | .return value => value.toList.flatMap Expr.messages
  | .expr value => value.messages

def Body.paths (b : Body) : List (List String) := b.statements.flatMap Statement.paths

def Body.messages (b : Body) : List String := b.statements.flatMap Statement.messages

/-! ## What is read -/

/-- Behind the name of the class stands a text of the script. -/
def IsErrorMessage (message : String) : Prop := ∃ text, message = "Error: " ++ text

/-- Paths and messages as the reader makes them. -/
structure IsRead (paths : List (List String)) (messages : List String) : Prop where
  path : ∀ names ∈ paths, IsPath names
  message : ∀ message ∈ messages, IsErrorMessage message

namespace IsRead

variable {paths paths' : List (List String)} {messages messages' : List String}

theorem nil : IsRead [] [] := ⟨fun _ h => absurd h List.not_mem_nil, fun _ h => absurd h List.not_mem_nil⟩

theorem cons {names : List String} (hn : IsPath names) (h : IsRead paths messages) :
    IsRead (names :: paths) messages :=
  ⟨List.forall_mem_cons.2 ⟨hn, h.path⟩, h.message⟩

theorem append (h : IsRead paths messages) (h' : IsRead paths' messages') :
    IsRead (paths ++ paths') (messages ++ messages') :=
  ⟨List.forall_mem_append.2 ⟨h.path, h'.path⟩, List.forall_mem_append.2 ⟨h.message, h'.message⟩⟩

theorem left (h : IsRead (paths ++ paths') (messages ++ messages')) : IsRead paths messages :=
  ⟨(List.forall_mem_append.1 h.path).1, (List.forall_mem_append.1 h.message).1⟩

theorem right (h : IsRead (paths ++ paths') (messages ++ messages')) : IsRead paths' messages' :=
  ⟨(List.forall_mem_append.1 h.path).2, (List.forall_mem_append.1 h.message).2⟩

theorem tail {names : List String} (h : IsRead (names :: paths) messages) : IsRead paths messages :=
  ⟨(List.forall_mem_cons.1 h.path).2, h.message⟩

end IsRead

theorem splitOnChar_ne_nil (separator : Char) (text : List Char) : splitOnChar separator text ≠ [] := by
  rw [splitOnChar_eq_splitOn]
  exact List.splitOn_ne_nil _ _

/-- Where a text is read as a path, it is one. -/
theorem isPath_of_pathOf? {text : List Char} {names : List String} (h : pathOf? text = some names) : IsPath names := by
  unfold pathOf? at h
  simp only at h
  split at h
  next hall =>
    cases h
    refine ⟨by simpa using splitOnChar_ne_nil '.' text, fun name hname => ?_⟩
    obtain ⟨part, hpart, rfl⟩ := List.mem_map.1 hname
    rw [String.toList_ofList]
    exact List.all_eq_true.1 hall part hpart
  next => cases h

theorem Expr.isRead_of_wordExpr? {text : List Char} {e : Expr} (h : wordExpr? text = some e) :
    IsRead e.paths e.messages := by
  unfold wordExpr? at h
  split at h <;> cases h <;> exact .nil

theorem Expr.isRead_of_errorExpr {inner : List Char} {e : Expr} (h : errorExpr inner = .ok e) :
    IsRead e.paths e.messages := by
  unfold errorExpr at h
  split at h
  next text _ =>
    cases h
    exact ⟨fun _ hn => absurd hn List.not_mem_nil, List.forall_mem_singleton.2 ⟨text, rfl⟩⟩
  next => cases h

/-- All arguments were read where each of them was. -/
theorem isRead_of_forall : ∀ {args : List Expr}, (∀ arg ∈ args, IsRead arg.paths arg.messages) →
    IsRead (pathsOf args) (messagesOf args)
  | [], _ => .nil
  | _ :: _, h => (h _ List.mem_cons_self).append (isRead_of_forall fun arg harg => h arg (List.mem_cons_of_mem _ harg))

theorem Expr.isRead_of_ofText {text : List Char} {e : Expr} (h : Expr.ofText text = .ok e) :
    IsRead e.paths e.messages := by
  rw [Expr.ofText] at h
  split at h
  · cases h
  split at h
  next word hword =>
    cases h
    exact isRead_of_wordExpr? hword
  split at h
  · cases h
    exact .nil
  split at h
  · split at h
    · cases h
      exact .nil
    · cases h
  split at h
  · exact isRead_of_errorExpr h
  split at h
  next callee parts hcall =>
    split at h
    · cases h
    next names hnames =>
      obtain ⟨args, hargs, h⟩ := exists_of_bind_ok h
      cases h
      -- the texts of the arguments are shorter than that of the call
      have hread : ∀ arg ∈ args, IsRead arg.paths arg.messages := by
        intro arg harg
        obtain ⟨part, hpart⟩ := exists_of_mem_mapM hargs harg
        have := length_lt_of_mem_splitCall hcall part.2
        exact isRead_of_ofText hpart
      exact .cons (isPath_of_pathOf? hnames) (isRead_of_forall hread)
  next =>
    split at h
    next names hnames =>
      cases h
      exact .cons (isPath_of_pathOf? hnames) .nil
    next => cases h
termination_by text.length

theorem Statement.isRead_of_ofText {text : List Char} {statement : Statement}
    (h : Statement.ofText text = .ok statement) : IsRead statement.paths statement.messages := by
  unfold Statement.ofText at h
  split at h
  · obtain ⟨value, hvalue, rfl⟩ := exists_of_map_ok h
    exact Expr.isRead_of_ofText hvalue
  split at h
  · cases h
    exact .nil
  split at h
  · obtain ⟨value, hvalue, rfl⟩ := exists_of_map_ok h
    simpa [Statement.paths, Statement.messages] using Expr.isRead_of_ofText hvalue
  split at h
  · obtain ⟨value, hvalue, rfl⟩ := exists_of_map_ok h
    exact Expr.isRead_of_ofText hvalue
  · split at h
    next path hpath =>
      obtain ⟨value, hvalue, rfl⟩ := exists_of_map_ok h
      exact .cons (isPath_of_pathOf? hpath) (Expr.isRead_of_ofText hvalue)
    next => cases h
  · cases h

theorem Body.isRead_iff {b : Body} : IsRead b.paths b.messages ↔
    ∀ statement ∈ b.statements, IsRead statement.paths statement.messages := by
  constructor
  · intro h statement hs
    exact ⟨fun names hn => h.path names (List.mem_flatMap.2 ⟨statement, hs, hn⟩),
      fun message hm => h.message message (List.mem_flatMap.2 ⟨statement, hs, hm⟩)⟩
  · intro h
    constructor
    · rintro names hn
      obtain ⟨statement, hs, hn⟩ := List.mem_flatMap.1 hn
      exact (h statement hs).path names hn
    · rintro message hm
      obtain ⟨statement, hs, hm⟩ := List.mem_flatMap.1 hm
      exact (h statement hs).message message hm

/-- Whatever was read has paths of identifiers only, and makes no errors but of the one class. -/
theorem Body.isRead_of_ofText {params source : String} {b : Body} (h : Body.ofText params source = .ok b) :
    IsRead b.paths b.messages := by
  obtain ⟨statements, hstatements, rfl⟩ := exists_of_map_ok h
  refine isRead_iff.2 fun statement hs => ?_
  obtain ⟨text, htext⟩ := exists_of_mem_mapM hstatements hs
  exact Statement.isRead_of_ofText htext

end ScriptHost.Script
