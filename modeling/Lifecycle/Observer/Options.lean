import Lifecycle.Grammar.Whole
import Lifecycle.Settings
import Lifecycle.Text.Similarity

namespace Lifecycle

-- What is wrong with the options of an attribute.
inductive OptionFault where
  -- The list cannot be read.
  | unreadable (cause : Complaint)
  -- An item has the wrong form.
  | format (form : String)
  -- A value is of the wrong kind.
  | wrongKind (kind : String)
  -- A text stands for no value.
  | unknownValue (text : String)
  -- There is no option of this name, but perhaps one of a similar name.
  | unknownField (name : String) (similar : Option String)
  -- An option is given twice.
  | duplicate (name : String)
deriving DecidableEq, Repr

def optionNames : List String := ["call_logger", "crate"]

def inTicks (text : String) : String := "\x60" ++ text ++ "\x60"

def OptionFault.message : OptionFault → String
  | .unreadable cause => cause.message
  | .format form => "Unexpected meta-item format " ++ inTicks form
  | .wrongKind kind => "Unexpected type " ++ inTicks kind
  | .unknownValue text => "Unknown value: " ++ inTicks text
  | .unknownField name (some similar) =>
    "Unknown field: " ++ inTicks name ++ ". Did you mean " ++ inTicks similar ++ "?"
  | .unknownField name none =>
    "Unknown field: " ++ inTicks name ++ ". Available values: " ++
      ", ".intercalate (optionNames.map inTicks)
  | .duplicate name => "Duplicate field " ++ inTicks name

structure ObserverOptions where
  runtime : Option Path := none
  callLogger : Option Bool := none

-- The settings of these options; `runtimePath` is where the runtime is if they do not say it.
def ObserverOptions.settings (o : ObserverOptions) (runtimePath : String) : Settings :=
  let path := match o.runtime with
    | some p => Tree.text p.tokens
    | none => runtimePath
  { runtimePath := path, callLogger := o.callLogger.getD true }

namespace Grammar

open Lifecycle.Parser

-- The name of an option: identifiers or keywords joined by `::`.
def optionName : Parser Path := do
  let leading ← opOpt [':', ':']
  match ← namesWith isAnyIdent leading with
  | (some p, false) => return p
  | (some _, true) => wanted ["path segment"]
  | (none, _) => wanted ["path"]

-- Whether a literal is an item here, and not the name of an option with a value.
def isLiteralItem : Look := fun ts =>
  isLiteral ts && !(isWordOf ["true", "false"] ts && isOp ['='] (ts.drop 1))

-- One item of a list of options; nothing for a literal.
def optionItem (g : Level) : Parser (Option Meta) := do
  if ← peek isLiteralItem then
    let _ ← literal
    return none
  else if ← peek fun ts => isAnyIdent ts || (isOp [':', ':'] ts && isAnyIdent (ts.drop 2)) then
    return some (← metaAfter g (← optionName))
  else wanted ["identifier or literal"]

def optionItems (trees : List Tree) (stop : Text.Position) :
    Except GrammarError (List (Option Meta)) :=
  (parseTrees (fun g => separated isEnd [','] (optionItem g)) trees stop).map (·.map (·.1))

end Grammar

namespace ObserverOptions

-- What is wrong with a list in place of a value.
def listFault (body : List Tree) (stop : Text.Position) : OptionFault :=
  match Grammar.optionItems body stop with
  | .ok _ => .format "list"
  | .error e => .unreadable e.complaint

-- The path after a qualified self type, as a path of its own.
def withoutSelf : Option QualifiedSelf → Path → Path
  | none, p => p
  | some q, p =>
    match q.trait with
    | some (_, t) => { t with rest := t.rest ++ p.first :: p.rest }
    | none => { p with leading := Path.separator }

-- The path of the runtime: a path, or a string that holds one.
def runtimeValue : Meta → Except OptionFault Path
  | .path _ => .error (.format "word")
  | .list _ _ body _ stop => .error (listFault body stop)
  | .nameValue _ _ value =>
    match value.form with
    | .literal (.str text suffix) =>
      let unknown : OptionFault := .unknownValue (String.ofList text)
      if !suffix.isEmpty then .error unknown
      else
        match Grammar.parseText (fun g => Grammar.path g false) (String.ofList text) with
        | .ok p => .ok p
        | .error _ => .error unknown
    | .literal l => .error (.wrongKind l.kind)
    | .path qself p => .ok (withoutSelf qself p)
    | form => .error (.wrongKind form.label)

-- Whether calls ask a log: a truth value, or a string that holds one; the bare name means yes.
def callLoggerValue : Meta → Except OptionFault Bool
  | .path _ => .ok true
  | .list _ _ body _ stop => .error (listFault body stop)
  | .nameValue _ _ value =>
    match value.form with
    | .literal (.bool b) => .ok b
    | .literal (.str text _) =>
      let text := String.ofList text
      if text = "true" then .ok true
      else if text = "false" then .ok false
      else .error (.unknownValue text)
    | .literal l => .error (.wrongKind l.kind)
    | form => .error (.wrongKind form.label)

-- The options that have been read so far, and all that is wrong with them.
structure Reading where
  options : ObserverOptions := {}
  runtimeSeen : Bool := false
  callLoggerSeen : Bool := false
  faults : List OptionFault := []

namespace Reading

def fault (r : Reading) (f : OptionFault) : Reading :=
  { r with faults := r.faults ++ [f] }

-- Reads one more item. A second value for an option is not looked at.
def step (r : Reading) : Option Meta → Reading
  | none => r.fault (.format "literal")
  | some item =>
    let name := "::".intercalate (item.head.segments.map (·.name.text))
    if name = "crate" then
      if r.runtimeSeen then r.fault (.duplicate name)
      else
        let r := { r with runtimeSeen := true }
        match runtimeValue item with
        | .ok p => { r with options := { r.options with runtime := some p } }
        | .error f => r.fault f
    else if name = "call_logger" then
      if r.callLoggerSeen then r.fault (.duplicate name)
      else
        let r := { r with callLoggerSeen := true }
        match callLoggerValue item with
        | .ok b => { r with options := { r.options with callLogger := some b } }
        | .error f => r.fault f
    else r.fault (.unknownField name (Text.Similarity.closest? name optionNames))

end Reading

-- The options of an attribute from its tokens.
def ofTrees (trees : List Tree) : Except (List OptionFault) ObserverOptions :=
  match Grammar.optionItems trees {} with
  | .error e => .error [.unreadable e.complaint]
  | .ok items =>
    let r := items.foldl Reading.step {}
    if r.faults.isEmpty then .ok r.options else .error r.faults

end ObserverOptions

end Lifecycle
