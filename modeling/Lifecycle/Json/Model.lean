import Lifecycle.Json.Schema
import Lifecycle.Report

namespace Lifecycle

open Text

-- A type whose values have a JSON form that can be read again.
class JsonForm (α : Type) where
  schema : Json.Schema
  toJson : α → Json
  ofJson? : Json → Option α

-- The value that a JSON text stands for.
def readJson (α : Type) [JsonForm α] (text : List Char) : Except Json.Fault α := do
  match JsonForm.ofJson? (← (JsonForm.schema α).read text) with
  | some a => return a
  | none => throw .mismatch

-- The compact JSON text of a value.
def jsonText {α : Type} [JsonForm α] (a : α) : String :=
  (JsonForm.toJson a).compactText

namespace Json

-- The number below 2³² that a value is.
def word? : Json → Option UInt32
  | .number n => if n < UInt32.size then some (UInt32.ofNat n) else none
  | _ => none

def text? : Json → Option String
  | .text s => some s
  | _ => none

def texts? : Json → Option (List String)
  | .array items => items.mapM text?
  | _ => none

def ofWord (n : UInt32) : Json := .number n.toNat

def ofTexts (texts : List String) : Json := .array (texts.map .text)

end Json

open Json

instance : JsonForm CallbackId where
  schema := .single .number
  toJson id := ofWord id.number
  ofJson? j := j.word?.map (⟨·⟩)

instance : JsonForm Location where
  schema := .record [("file", .text), ("line", .number), ("column", .number)]
  toJson l := .object [("file", .text l.file), ("line", ofWord l.line), ("column", ofWord l.column)]
  ofJson?
    | .object [(_, file), (_, line), (_, column)] => do
      return { file := ← file.text?, line := ← line.word?, column := ← column.word? }
    | _ => none

instance : JsonForm ClassPath where
  schema := .record [("module_path", .texts), ("name", .text)]
  toJson c := .object [("module_path", ofTexts c.modules), ("name", .text c.name)]
  ofJson?
    | .object [(_, modules), (_, name)] => do
      return { modules := ← modules.texts?, name := ← name.text? }
    | _ => none

instance : JsonForm NamedType where
  schema := .record [("name", .text), ("assignable_to", .texts)]
  toJson t := .object [("name", .text t.name), ("assignable_to", ofTexts t.capabilities.toList)]
  ofJson?
    | .object [(_, name), (_, capabilities)] => do
      return { name := ← name.text?, capabilities := NameSet.ofList (← capabilities.texts?) }
    | _ => none

instance : JsonForm Event where
  schema := .choice (Event.all.map (·.name))
  toJson e := .text e.name
  ofJson? j := j.text?.bind Event.ofName?

instance : JsonForm Receiver where
  schema := .choice (Receiver.all.map (·.name))
  toJson r := .text r.name
  ofJson? j := j.text?.bind Receiver.ofName?

instance : JsonForm SourceUnit where
  schema := .record [("name", .text), ("namespace", .text), ("body", .text)]
  toJson u := .object [("name", .text u.name), ("namespace", .text u.moduleText),
    ("body", .text u.body)]
  ofJson?
    | .object [(_, name), (_, moduleText), (_, body)] => do
      return { name := ← name.text?, moduleText := ← moduleText.text?, body := ← body.text? }
    | _ => none

namespace Diagnostic

def toJson (d : Diagnostic) : Json :=
  let location := match d.location with
    | some l => JsonForm.toJson l
    | none => .null
  .object [("method", JsonForm.toJson d.id), ("class", .text d.className),
    ("method_name", .text d.callbackName), ("location", location),
    ("kind", .text d.violation.name), ("message", .text d.violation.message)]

end Diagnostic

namespace Report

def toJson (r : Report) : Json :=
  .object [("diagnostics", .array (r.diagnostics.map (·.toJson))),
    ("units", .array (r.units.map JsonForm.toJson)),
    ("failed_classes", ofTexts r.failedClasses)]

-- The text of a report, with a line for every item.
def jsonText (r : Report) : String :=
  r.toJson.linesText

end Report

end Lifecycle
