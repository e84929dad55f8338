import DamlBindings.Codegen.RendererUtils
import DamlBindings.Lf.Validate

/-!
# The modules of the generated code

`renderer/module_renderer.rs` and `generator/separate.rs` walk the modules of a package and decide
which of them are rendered, the one for a single file and the other for a file for each module.  A
rendered module stands here for the items that are quoted in it.
-/

namespace DamlBindings.Codegen

open Lf

/-- `ModuleMatcher`, with the regular expressions as the sets of texts that they match. -/
structure ModuleMatcher where
  matchers : List (String → Bool)

/-- `ModuleMatcher::matches` -/
def ModuleMatcher.matches (m : ModuleMatcher) (path : String) : Bool :=
  path.isEmpty || m.matchers.isEmpty || m.matchers.any fun re => re path

/-- `RenderMethod` -/
inductive RenderMethod
  | full
  | intermediate
deriving DecidableEq

/-- A definition that is quoted. -/
inductive RenderItem
  | data (d : DamlData)
  | interface (i : DamlInterface)

/-- `quote_all_data` -/
def quoteAllData (dataTypes : List (String × DamlData)) : List RenderItem :=
  dataTypes.map fun e => .data e.2

/-- `quote_all_interfaces` -/
def quoteAllInterfaces (interfaces : List (String × DamlInterface)) :
    RenderMethod → List RenderItem
  | .full => interfaces.map fun e => .interface e.2
  | .intermediate => []

/-- `local_name` -/
def localName (body : DamlModuleBody) : String := body.path.getLast?.getD "root"

/-! ### A single file -/

/-- The tokens `pub mod name { .. }`, where `path` is the path of the module that is rendered. -/
inductive ModTokens where
  | mod (path : List String) (name : String) (items : List RenderItem) (children : List ModTokens)

section Combined

variable (matcher : ModuleMatcher) (renderMethod : RenderMethod)

/-- `self_real_included` -/
def selfRealIncluded (body : DamlModuleBody) : Bool :=
  !body.synthetic && matcher.matches (toModulePath body.path)

/-- `render_data` -/
def renderData (ancestorRealIncluded : Bool) (body : DamlModuleBody) : Bool :=
  selfRealIncluded matcher body || (body.synthetic && ancestorRealIncluded)

/-- `child_ancestor_included` -/
def childAncestorIncluded (ancestorRealIncluded : Bool) (body : DamlModuleBody) : Bool :=
  if body.synthetic then ancestorRealIncluded else selfRealIncluded matcher body

/-- What is quoted inside of a module. -/
def moduleTokens (ancestorRealIncluded : Bool) (body : DamlModuleBody) : List RenderItem :=
  if renderData matcher ancestorRealIncluded body then
    quoteAllData body.dataTypes ++ quoteAllInterfaces body.interfaces renderMethod
  else []

mutual

/-- `quote_module_tree_inner`, where `none` stands for no tokens. -/
def quoteModuleTreeInner : DamlModule → String → Bool → Option ModTokens
  | .node body childModules => fun name ancestorRealIncluded =>
    let allChildren :=
      quoteChildren childModules (childAncestorIncluded matcher ancestorRealIncluded body)
    if !renderData matcher ancestorRealIncluded body && allChildren.isEmpty then none
    else
      some (.mod body.path name (moduleTokens matcher renderMethod ancestorRealIncluded body)
        allChildren)
termination_by structural m => m

/-- The tokens of the child modules that have any. -/
def quoteChildren : List (String × DamlModule) → Bool → List ModTokens
  | [] => fun _ => []
  | (_, child) :: rest => fun ancestorRealIncluded =>
    (quoteModuleTreeInner child (localName child.val) ancestorRealIncluded).toList ++
      quoteChildren rest ancestorRealIncluded
termination_by structural cs => cs

end

/-- `quote_module_tree` -/
def quoteModuleTree (name : String) (module : DamlModule) : Option ModTokens :=
  quoteModuleTreeInner matcher renderMethod module name false

/-- `quote_package` -/
def quotePackage (package : DamlPackage) : Option ModTokens :=
  quoteModuleTree matcher renderMethod package.name package.rootModule

end Combined

/-! ### A file for each module -/

/-- A file that is written for a module, where `path` is the path of the module. -/
structure SourceFile where
  path : List String
  dir : List String
  filename : String
  mods : List String
  items : List RenderItem

section Separate

variable (N : Naming) (matcher : ModuleMatcher)

mutual

/-- `is_interesting_module` -/
def isInterestingModule : DamlModule → Bool
  | .node body childModules =>
    (!body.dataTypes.isEmpty && matcher.matches (toModulePath body.path)) ||
      anyInteresting childModules
termination_by structural m => m

def anyInteresting : List (String × DamlModule) → Bool
  | [] => false
  | (_, child) :: rest => isInterestingModule child || anyInteresting rest
termination_by structural cs => cs

end

/-- The child modules that are rendered. -/
def interestingChildren (module : DamlModule) : List (String × DamlModule) :=
  module.childModules.filter fun e => isInterestingModule matcher e.2

mutual

/-- `generate_module_source`, with the files in the order in which they are written. -/
def generateModuleSource : DamlModule → List String → List SourceFile
  | .node body childModules => fun packageDirPath =>
    { path := body.path
      dir := packageDirPath ++ body.path.dropLast.map (toRustIdentifier N)
      filename := toRustIdentifier N (localName body) ++ ".rs"
      mods := (interestingChildren matcher (.node body childModules)).map fun e =>
        toRustIdentifier N (localName e.2.val)
      -- no interfaces, and without a look at the matcher: what is below may be what is matched
      items := quoteAllData body.dataTypes } ::
    generateSubModules childModules packageDirPath
termination_by structural m => m

def generateSubModules : List (String × DamlModule) → List String → List SourceFile
  | [] => fun _ => []
  | (_, child) :: rest => fun packageDirPath =>
    (if isInterestingModule matcher child then generateModuleSource child packageDirPath else []) ++
      generateSubModules rest packageDirPath
termination_by structural cs => cs

end

/-- `generate_package_source`, without the file of the package, which only declares modules. -/
def generatePackageSource (package : DamlPackage) : List SourceFile :=
  generateSubModules N matcher package.rootModule.childModules [toRustIdentifier N package.name]

end Separate

end DamlBindings.Codegen
