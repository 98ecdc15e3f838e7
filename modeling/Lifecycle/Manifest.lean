import Lifecycle.Text.Identifier
import Lifecycle.Token.Lexer
import Lifecycle.Token.Writing

namespace Lifecycle

open Text

-- A dependency: its key, and the package if the key renames it.
structure Dependency where
  key : String
  package : Option String := none
  -- Whether the workspace tells what it is.
  workspace : Bool := false

-- The package that a dependency says it is.
def Dependency.packageName (d : Dependency) : String := d.package.getD d.key

structure Manifest where
  package : Option String := none
  -- The dependencies that count, table after table.
  dependencies : List Dependency := []
  workspaceDependencies : List Dependency := []
  -- Whether the code is an integration test of the package.
  isIntegrationTest : Bool := false

-- How code names a package.
inductive FoundPackage where
  -- It is the package of the code itself.
  | itself
  | named (name : String)
deriving DecidableEq, Repr

namespace Manifest

-- A package name as a name in code.
def codeName (name : String) : String :=
  String.ofList (name.toList.map fun c => if c = '-' then '_' else c)

-- The package of a dependency, with the help of the workspace.
def resolved (m : Manifest) (d : Dependency) : String :=
  if d.workspace then
    match m.workspaceDependencies.find? (·.key == d.packageName) with
    | some w => w.packageName
    | none => d.packageName
  else d.packageName

-- All packages that code can name, the package itself first.
def packages (m : Manifest) : List (String × FoundPackage) :=
  let own := match m.package with
    | some name => [(name, if m.isIntegrationTest then .named (codeName name) else .itself)]
    | none => []
  let others := m.dependencies.filter fun d => m.package ≠ some d.packageName
  own ++ others.map fun d => (m.resolved d, .named (codeName d.key))

-- How code names a package. Of several entries the last one counts.
def find? (m : Manifest) (package : String) : Option FoundPackage :=
  ((m.packages.filter (·.1 == package)).getLast?).map (·.2)

end Manifest

-- The name of the package that holds the runtime.
def runtimePackage : String := "vigil_lifecycle"

-- The name of the package that holds the runtime under its own name.
def umbrellaPackage : String := "vigil"

-- Whether a name can be written as an identifier; keywords can.
def isWritable (name : String) : Bool :=
  match name.toList with
  | 'r' :: '#' :: cs => isIdentifier cs && !Lexer.neverRaw.contains cs
  | cs => isIdentifier cs

-- The path of the runtime, given how code names the runtime package and the umbrella package.
-- Nothing if that name is no identifier.
def locateRuntime (runtime umbrella : Option FoundPackage) : Option String :=
  let path (names : List String) : Option String :=
    if names.all isWritable then some (Tree.text (Code.joined names)) else none
  match runtime, umbrella with
  | some .itself, _ => path [runtimePackage]
  | some (.named name), _ => path [name]
  | none, some .itself => path [umbrellaPackage, runtimePackage]
  | none, some (.named name) => path [name, runtimePackage]
  | none, none => path [runtimePackage]

-- The path of the runtime for the code of a package, or of none.
def runtimeOf (manifest : Option Manifest) : Option String :=
  locateRuntime (manifest.bind (·.find? runtimePackage)) (manifest.bind (·.find? umbrellaPackage))

end Lifecycle
