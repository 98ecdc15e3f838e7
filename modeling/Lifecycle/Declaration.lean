import Lifecycle.Event
import Lifecycle.Text.NameSet

namespace Lifecycle

open Text

-- A class by the modules around it and its name.
structure ClassPath where
  modules : List String := []
  name : String
deriving DecidableEq, Inhabited

namespace ClassPath

-- The modules around a class as one text.
def moduleText (c : ClassPath) : String :=
  "::".intercalate c.modules

-- A name inside the modules of that text.
def qualify (moduleText name : String) : String :=
  moduleText ++ "::" ++ name

-- The name of a class with the modules around it.
def qualifiedName (c : ClassPath) : String :=
  if c.modules.isEmpty then c.name else qualify c.moduleText c.name

end ClassPath

-- A type by its canonical name and what a value of it can be used as.
structure NamedType where
  name : String
  capabilities : NameSet := .empty
deriving DecidableEq, Inhabited

-- Whether a value of the type can be used where `target` is asked for.
def NamedType.isAssignableTo (t : NamedType) (target : String) : Bool :=
  t.name == target || target ∈ t.capabilities

-- A place in a source file.
structure Location where
  file : String
  line : UInt32
  column : UInt32
deriving DecidableEq, Inhabited

def Location.text (l : Location) : String :=
  l.file ++ ":" ++ toString l.line.toNat ++ ":" ++ toString l.column.toNat

-- The handle by which a host knows a callback again.
structure CallbackId where
  number : UInt32
deriving DecidableEq, Inhabited

def CallbackId.text (id : CallbackId) : String :=
  "#" ++ toString id.number.toNat

-- What a callback is called on.
inductive Receiver where
  -- Nothing: it is called by its path.
  | none
  | shared
  | mutable
deriving DecidableEq, Repr, Inhabited

namespace Receiver

-- All kinds of receivers.
def all : List Receiver := [.none, .shared, .mutable]

def name : Receiver → String
  | .none => "None"
  | .shared => "Shared"
  | .mutable => "Mutable"

def ofName? (name : String) : Option Receiver :=
  all.find? (·.name == name)

@[simp] theorem ofName?_name (r : Receiver) : ofName? r.name = some r := by
  cases r <;> decide

end Receiver

-- A callback as its class declares it.
structure Callback where
  id : CallbackId := ⟨0⟩
  declaringClass : ClassPath
  name : String
  params : List NamedType := []
  result : Option NamedType := .none
  -- The events it is declared for, as they were listed.
  events : List Event := []
  receiver : Receiver := .shared
  location : Option Location := .none
deriving DecidableEq, Inhabited

namespace Callback

-- The number of arguments it takes.
def arity (c : Callback) : Nat := c.params.length

-- The signature that an overriding callback shares: the name and the names of the parameter types.
def signature (c : Callback) : String × List String :=
  (c.name, c.params.map (·.name))

def sameSignature (c d : Callback) : Bool :=
  c.signature == d.signature

end Callback

-- A class and its callbacks, inherited ones included.
structure Declaration where
  subject : ClassPath
  callbacks : List Callback := []
deriving DecidableEq, Inhabited

namespace Declaration

-- Adds a callback to those that are kept already, unless it is inherited and overridden.
def keep (subject : ClassPath) (kept : List Callback) (c : Callback) : List Callback :=
  if c.declaringClass ≠ subject ∧ kept.any (·.sameSignature c) then kept else kept ++ [c]

-- The callbacks of a class without the overridden ones.
def kept (d : Declaration) : List Callback :=
  d.callbacks.foldl (keep d.subject) []

end Declaration

end Lifecycle
