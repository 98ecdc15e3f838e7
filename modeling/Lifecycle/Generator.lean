import Lifecycle.Adapter.Code
import Lifecycle.Grammar.Whole
import Lifecycle.Registry

namespace Lifecycle

-- Why no code can be generated. These are faults of the host, not of the class.
inductive GenerationError where
  | emptyClassName
  | invalidIdentifier (name : String) (cause : Complaint)
  | invalidRuntimePath (path : String) (cause : Complaint)
deriving DecidableEq, Repr

namespace GenerationError

def name : GenerationError → String
  | .emptyClassName => "EmptyClassName"
  | .invalidIdentifier _ _ => "InvalidIdentifier"
  | .invalidRuntimePath _ _ => "InvalidRuntimePath"

def message : GenerationError → String
  | .emptyClassName => "class reference has an empty type name"
  | .invalidIdentifier name cause => "invalid identifier '" ++ name ++ "': " ++ cause.message
  | .invalidRuntimePath path cause =>
    "invalid runtime crate path '" ++ path ++ "': " ++ cause.message

end GenerationError

-- The identifier that a text is, without the blanks and comments around it.
def identifier (text : String) : Except GenerationError String :=
  match Parser.text Parser.ident text with
  | .ok name => .ok name.text
  | .error e => .error (.invalidIdentifier text e.complaint)

-- The path that a text is.
def runtimePath (text : String) : Except GenerationError Path :=
  match Grammar.parseText (fun g => Grammar.path g false) text with
  | .ok path => .ok path
  | .error e => .error (.invalidRuntimePath text e.complaint)

-- A generated source text.
structure SourceUnit where
  name : String
  -- The modules around it, as one text.
  moduleText : String
  body : String
deriving DecidableEq, Inhabited

-- The name of a source text with the modules around it.
def SourceUnit.qualifiedName (u : SourceUnit) : String :=
  if u.moduleText.isEmpty then u.name else ClassPath.qualify u.moduleText u.name

-- The first line of every generated text.
def generatedHeader : String := "// @generated by vigil_codegen. Do not edit."

-- The path of the runtime is read once and kept as it was read: reading its text again gives the same
-- path, so that no later step can fail at it.
structure Generator where
  runtime : Path
  adapterSuffix : String
  callLogger : Bool

namespace Generator

def ofSettings (s : Settings) : Except GenerationError Generator := do
  return { runtime := ← runtimePath s.runtimePath, adapterSuffix := s.adapterSuffix,
           callLogger := s.callLogger }

def adapterName (g : Generator) (c : ClassPath) : String :=
  c.name ++ g.adapterSuffix

-- The identifiers of the path by which code names a class.
def classPath (c : ClassPath) : Except GenerationError (List String) := do
  let name ← identifier c.name
  if c.modules.isEmpty then return [name]
  else return "crate" :: (← c.modules.mapM identifier) ++ [name]

-- What calls of a callback go to.
def callee (c : Callback) : Except GenerationError Callee :=
  match c.receiver with
  | .none => return .path (← classPath c.declaringClass)
  | _ => return .receiver

def call (g : Generator) (c : Callback) : Except GenerationError Call := do
  let method ← identifier c.name
  return { callee := ← callee c, method, kind := .ofArity c.arity, hasResult := c.result.isSome,
           key := if g.callLogger then some c.name else none }

-- The arm of an event: the calls of the callbacks that are bound to it.
def arm (g : Generator) (e : Entry) (event : Event) :
    Except GenerationError (Event × List Call) := do
  return (event, ← (e.callbacksFor event).mapM g.call)

-- The adapter for the registered callbacks of a class.
def adapter (g : Generator) (e : Entry) : Except GenerationError Adapter := do
  if e.subject.name.isEmpty then throw .emptyClassName
  let name ← identifier (g.adapterName e.subject)
  let subject ← identifier e.subject.name
  let arms ← e.namedEvents.mapM (g.arm e)
  let always ← e.anyCallbacks.mapM g.call
  return { name, subject, doc := "Lifecycle adapter generated for [\x60" ++ e.subject.name ++ "\x60].",
           runtime := g.runtime, asksLog := g.callLogger, arms, always }

def bodyOf (a : Adapter) : String :=
  generatedHeader ++ "\n" ++ Tree.text a.tokens ++ "\n"

-- The source text for the registered callbacks of a class.
def unit (g : Generator) (e : Entry) : Except GenerationError SourceUnit := do
  let a ← g.adapter e
  return { name := g.adapterName e.subject, moduleText := e.subject.moduleText, body := bodyOf a }

end Generator

end Lifecycle
