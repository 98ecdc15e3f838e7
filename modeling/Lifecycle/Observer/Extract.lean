import Lifecycle.Grammar.Whole
import Lifecycle.Observer.Describe

namespace Lifecycle

open Text

-- A fault of an implementation block or a method, and where it is.
structure HostFault where
  message : String
  pos : Position := {}
deriving DecidableEq, Repr

-- Where the first of some trees starts.
def startOf (trees : List Tree) : Position :=
  match trees with
  | t :: _ => t.pos
  | [] => {}

-- The class that a block is for, or why it is for none.
def ImplBlock.subject (b : ImplBlock) : Except HostFault ClassPath :=
  match b.trait with
  | some t =>
    .error { message := "#[lifecycle_observer] must be applied to an inherent impl block, not a trait impl"
             pos := startOf t.path.tokens }
  | none =>
    if !b.generics.params.isEmpty then
      .error { message := "#[lifecycle_observer] does not support generic impl blocks"
               pos := startOf b.generics.tokens }
    else
      match b.selfTy with
      | .path none p =>
        match p.ident? with
        | some name => .ok { name := name.text }
        | none =>
          .error { message := "#[lifecycle_observer] requires a plain type name; import the type and drop generic arguments"
                   pos := startOf p.tokens }
      | ty =>
        .error { message := "#[lifecycle_observer] requires the impl block to be for a named type"
                 pos := startOf ty.tokens }

def Attribute.isCallbackMark (a : Attribute) : Bool :=
  a.content.head.last.name.text == "on_lifecycle_event"

-- The faults of the signature of a callback. Lifetimes are inferred where it is called, other
-- parameters are not.
def Signature.faults (s : Signature) : List HostFault :=
  let ifWritten (tokens : List Tree) (message : String) : List HostFault :=
    if tokens.isEmpty then [] else [{ message, pos := startOf tokens }]
  ifWritten s.asyncWord "lifecycle callbacks cannot be async" ++
    ifWritten s.unsafeWord "lifecycle callbacks cannot be unsafe" ++
    ifWritten s.abi "lifecycle callbacks cannot be extern functions" ++
    (s.generics.params.filter (!·.isLifetime)).map (fun p =>
      { message := "lifecycle callbacks do not support type or const generic parameters"
        pos := startOf p.tokens }) ++
    ifWritten s.variadic "lifecycle callbacks cannot be variadic"

-- The event that a path names, by its last segment.
def eventOfPath (p : Path) : Except HostFault Event :=
  match Event.ofName? p.last.name.text with
  | some e => .ok e
  | none =>
    .error { message := "unknown lifecycle event \x60" ++ p.last.name.text ++ "\x60; expected one of " ++
               ", ".intercalate (Event.all.map (·.name))
             pos := startOf p.tokens }

def faultsOf {α β : Type} (results : List (Except α β)) : List α :=
  results.filterMap fun | .error a => some a | .ok _ => none

def resultsOf {α β : Type} (results : List (Except α β)) : List β :=
  results.filterMap fun | .error _ => none | .ok b => some b

-- The events that one attribute lists. A bare attribute lists none.
def Attribute.listedEvents (a : Attribute) : List (Except HostFault Event) :=
  match a.content with
  | .path _ => []
  | .list _ _ body _ stop =>
    match Grammar.parseTrees
        (fun g => Parser.separated Parser.isEnd [','] (Grammar.path g false)) body stop with
    | .ok paths => paths.map fun (p, _) => eventOfPath p
    | .error e => [.error { message := e.message, pos := e.pos }]
  | .nameValue p eq _ =>
    let start := if a.isInner then "#!" else "#"
    [.error { message := "expected parentheses: " ++ start ++ "[" ++ p.joinedNames ++ "(...)]"
              pos := startOf eq }]

-- What a callback is called on, or why it cannot be called.
def Signature.receiverKind (s : Signature) : Except HostFault Receiver :=
  match s.receiver? with
  | none => .ok .none
  | some p =>
    if p.isPlainReference then .ok (if p.mutable.isEmpty then .shared else .mutable)
    else
      .error { message := "lifecycle callbacks must take \x60&self\x60, \x60&mut self\x60 or no receiver"
               pos := startOf p.tokens }

-- The result type, unless it is the empty tuple.
def Signature.resultType (s : Signature) : Option NamedType :=
  match s.output with
  | none => none
  | some (_, .unit _ _) => none
  | some (_, ty) => some ty.describe

-- A callback that was found in a block, before it has a class and a handle.
structure FoundCallback where
  name : Ident
  receiver : Receiver
  params : List NamedType
  result : Option NamedType
  events : List Event

def FoundCallback.callback (f : FoundCallback) (subject : ClassPath) (id : CallbackId) : Callback :=
  { id, declaringClass := subject, name := f.name.text, params := f.params, result := f.result
    events := f.events, receiver := f.receiver }

-- What one item of a block contributes.
structure Finding where
  cleaned : ImplItem
  faults : List HostFault := []
  callback : Option FoundCallback := none

namespace Method

-- The attributes of a method that mark it as a callback.
def marks (m : Method) : List Attribute :=
  m.attributes.filter (·.isCallbackMark)

-- The method without these attributes.
def cleaned (m : Method) : Method :=
  { m with attributes := m.attributes.filter (!·.isCallbackMark) }

def examine (m : Method) : Finding :=
  if m.marks.isEmpty then { cleaned := .method m }
  else
    let listed := m.marks.flatMap (·.listedEvents)
    let faults := m.signature.faults ++ faultsOf listed
    match m.signature.receiverKind with
    | .error fault => { cleaned := .method m.cleaned, faults := faults ++ [fault] }
    | .ok receiver =>
      { cleaned := .method m.cleaned, faults
        callback := some { name := m.signature.name, receiver
                           params := m.signature.paramTys.map (·.describe)
                           result := m.signature.resultType, events := resultsOf listed } }

end Method

def ImplItem.examine : ImplItem → Finding
  | .method m => m.examine
  | .other ts => { cleaned := .other ts }

-- The handle of the callback at a place in a list.
def CallbackId.ofIndex (i : Nat) : CallbackId :=
  ⟨if i < UInt32.size then UInt32.ofNat i else UInt32.ofNat (UInt32.size - 1)⟩

structure Extraction where
  cleaned : ImplBlock
  declaration : Option Declaration
  -- Where the names of the callbacks are.
  places : List Position
  faults : List HostFault

namespace Extraction

def placeOf (e : Extraction) (id : CallbackId) : Position :=
  (e.places[id.number.toNat]?).getD {}

end Extraction

-- The callbacks of a class, numbered in their order.
def numbered (subject : ClassPath) (found : List FoundCallback) : List Callback :=
  found.mapIdx fun i f => f.callback subject (.ofIndex i)

-- Looks for the callbacks of a block.
def ImplBlock.extract (b : ImplBlock) : Extraction :=
  let findings := b.items.map (·.examine)
  let found := findings.filterMap (·.callback)
  let faults := findings.flatMap (·.faults)
  let cleaned := { b with items := findings.map (·.cleaned) }
  match b.subject with
  | .ok subject =>
    { cleaned, faults, places := found.map (·.name.pos)
      declaration := some { subject, callbacks := numbered subject found } }
  | .error fault => { cleaned, faults := fault :: faults, places := [], declaration := none }

end Lifecycle
